import RtbEngine.Theorems.Limits

/-!
# Descriptors have one owner

What the map of connections, the descriptor table and `connection_id` say of
each other in every run, which connection an event is dispatched to, and what
`shutdown_worker_runtime` closes.
-/

namespace RtbEngine

open Lib Exec

/-! ## Runs in two parts -/

section

variable {env : Platform} {w w0 : World}

/-- A round waits for events only before it has any. -/
theorem epollRound_waiting (hw : Owned w) {is : List Answer}
    (hrun : (epollRound env ()).run w is = .waiting .epollWait w0) :
    w0 = w ∧ (is = [] ∨ ∀ more, (epollRound env ()).run w (is ++ more) = .waiting .epollWait w) := by
  unfold epollRound at hrun ⊢
  cases is with
  | nil =>
      cases hrun
      exact ⟨rfl, .inl rfl⟩
  | cons answer is =>
      cases answer with
      | events outcome =>
          cases outcome with
          | error errno => cases hrun
          | ok batch =>
              by_cases hlen : batch.length ≤ w.runtime.config.epollMaxEvents
              · -- the batch is handled, and nothing in it waits for events
                have hwait : epollWait.run w (.events (.ok batch) :: is) =
                    .done (.ok batch) w is := by
                  apply run_ask_cons
                  simp only [if_pos hlen]
                rw [run_bind_done hwait] at hrun
                simp only at hrun
                rw [run_bind] at hrun
                cases hbatch : (handleBatch env batch).run w is with
                | done stop w1 rest =>
                    rw [hbatch] at hrun
                    cases stop <;> cases hrun
                | waiting k w1 =>
                    rw [hbatch] at hrun
                    cases hrun
                    rcases (handleBatch_owned env hw batch).waiting (fun _ _ => trivial) hbatch with
                      ⟨hk, -⟩ | ⟨_, _, hk, -⟩
                    · cases hk
                    · cases hk
                | spinning w1 =>
                    rw [hbatch] at hrun
                    cases hrun
              · have hwait : ∀ more, epollWait.run w (.events (.ok batch) :: more) =
                    .waiting .epollWait w := by
                  intro more
                  simp only [epollWait, ask, if_neg hlen]
                rw [run_bind, hwait] at hrun
                cases hrun
                refine ⟨rfl, .inr fun more => ?_⟩
                rw [List.cons_append, run_bind, hwait]
                rfl
      | _ =>
          cases hrun
          exact ⟨rfl, .inr fun _ => rfl⟩

/-- From a point where it waits for events, the worker goes on as if it
started there, unless it had been given an answer it cannot use. -/
theorem runWorkerLoop_resume (hw : Owned w) {before : List Answer}
    (hrun : (runWorkerLoop env).run w before = .waiting .epollWait w0) :
    (∀ more, (runWorkerLoop env).run w (before ++ more) = (runWorkerLoop env).run w0 more) ∨
      ∀ more, (runWorkerLoop env).run w (before ++ more) = .waiting .epollWait w0 := by
  induction hn : before.length using Nat.strong_induction_on generalizing w before with
  | _ n ih =>
      unfold runWorkerLoop at hrun ⊢
      rw [loop_unfold (productive_epollRound env)] at hrun
      cases hround : (epollRound env ()).run w before with
      | waiting k w1 =>
          rw [hround] at hrun
          cases hrun
          obtain ⟨rfl, rfl | hstuck⟩ := epollRound_waiting hw hround
          · exact .inl fun _ => rfl
          · refine .inr fun more => ?_
            rw [loop_unfold (productive_epollRound env), hstuck]
            rfl
      | spinning w1 =>
          rw [hround] at hrun
          cases hrun
      | done r w1 rest =>
          rw [hround] at hrun
          have hext := (epollRound env ()).extend _ _ _ _ _ hround
          cases r with
          | stop a => cases hrun
          | again u =>
              have hless := productive_epollRound env () _ _ _ _ _ hround
              have hw1 := (epollRound_owned env hw).done (fun _ _ => trivial) hround
              have hmore : ∀ more, (loop (epollRound env) ()).run w (before ++ more) =
                  (loop (epollRound env) ()).run w1 (rest ++ more) := by
                intro more
                rw [loop_unfold (productive_epollRound env), hext more]
                rfl
              rcases ih rest.length (by omega) hw1.1 hrun rfl with hgo | hstuck
              · exact .inl fun more => (hmore more).trans (hgo more)
              · exact .inr fun more => (hmore more).trans (hstuck more)

/-- Without events the worker waits for them. -/
theorem runWorkerLoop_idle {is : List Answer} (hno : ∀ a ∈ is, ∀ r, a ≠ .events r) :
    (runWorkerLoop env).run w is = .waiting .epollWait w := by
  unfold runWorkerLoop
  rw [loop_unfold (productive_epollRound env)]
  cases is with
  | nil => rfl
  | cons answer is =>
      cases answer with
      | events r => exact absurd rfl (hno _ List.mem_cons_self r)
      | _ => rfl

end

/-! ## Dispatch -/

/-- The events left of a batch find their descriptors with the sockets they
had when the batch came. -/
theorem dispatch_persists {env : Platform} {w w0 w' : World} (hw : Owned w)
    {before after : List Answer} {batch rest : List EpollEvent} {event : EpollEvent}
    (hbefore : (runWorkerLoop env).run w before = .waiting .epollWait w0)
    (hnodup : (batch.map EpollEvent.fd).Nodup) (hafter : ∀ a ∈ after, ∀ r, a ≠ .events r)
    (hrun : (runWorkerLoop env).run w (before ++ .events (.ok batch) :: after) =
      .waiting (.nextEvent (event :: rest)) w') :
    Owned w0 ∧ Owned w' ∧ (event :: rest) <:+ batch ∧ ∀ i,
      w0.kernel.fdTable event.fd = some i → w'.kernel.fdTable event.fd = some i := by
  have hw0 := ((runWorkerLoop_owned env hw).waiting (fun _ _ => trivial) hbefore).1
  rcases runWorkerLoop_resume hw hbefore with hgo | hstuck
  · rw [hgo] at hrun
    unfold runWorkerLoop at hrun
    rw [loop_unfold (productive_epollRound env)] at hrun
    by_cases hlen : batch.length ≤ w0.runtime.config.epollMaxEvents
    · have hwait : epollWait.run w0 (.events (.ok batch) :: after) = .done (.ok batch) w0 after := by
        apply run_ask_cons
        simp only [if_pos hlen]
      have hround : (epollRound env ()).run w0 (.events (.ok batch) :: after) =
          Outcome.andThen ((handleBatch env batch).run w0 after) fun stop w1 left =>
            ((if stop then pure (.stop 0) else pure (.again ()) : WorkerM (Turn Unit Int))).run
              w1 left := by
        unfold epollRound
        rw [run_bind_done hwait]
        rfl
      rw [hround] at hrun
      cases hbatch : (handleBatch env batch).run w0 after with
      | waiting k w1 =>
          rw [hbatch] at hrun
          cases hrun
          rcases (handleBatch_owned env hw0 batch).waiting (fun _ _ => trivial) hbatch with
            ⟨hk, -⟩ | ⟨_, _, hk, hw', hsuffix, hpersist⟩
          · cases hk
          · cases hk
            exact ⟨hw0, hw', hsuffix, hpersist hnodup event List.mem_cons_self⟩
      | spinning w1 =>
          rw [hbatch] at hrun
          cases hrun
      | done stop w1 left =>
          rw [hbatch] at hrun
          cases stop with
          | true => cases hrun
          | false =>
              -- the batch is over, and the worker waits for the next one
              have hleft : ∀ a ∈ left, ∀ r, a ≠ .events r := fun a ha =>
                hafter a (((handleBatch env batch).suffix _ _ _ _ _ hbatch).subset ha)
              have hidle : (runWorkerLoop env).run w1 left = .waiting .epollWait w1 :=
                runWorkerLoop_idle hleft
              change (runWorkerLoop env).run w1 left = _ at hrun
              rw [hidle] at hrun
              cases hrun
    · have hwait : epollWait.run w0 (.events (.ok batch) :: after) = .waiting .epollWait w0 := by
        simp only [epollWait, ask, if_neg hlen]
      unfold epollRound at hrun
      rw [run_bind, hwait] at hrun
      cases hrun
  · rw [hstuck] at hrun
    cases hrun

/-! ## Shutdown -/

/-- The order in which the map is iterated: each key once. -/
structure Enumerates (fds : List Fd) (w : World) : Prop where
  nodup : fds.Nodup
  complete : ∀ fd, fd ∈ fds ↔ (w.runtime.connections fd).isSome = true

theorem flatMap_singletons {α : Type} {l : List α} {f : α → List α} (h : ∀ a ∈ l, f a = [a]) :
    l.flatMap f = l := by
  induction l with
  | nil => rfl
  | cons a l ih =>
      rw [List.flatMap_cons, h a List.mem_cons_self,
        ih fun b hb => h b (List.mem_cons_of_mem _ hb)]
      rfl

/-- Each client is closed under its own descriptor, then the worker's own two. -/
theorem shutdown_closes {w : World} (hw : Owned w) {fds : List Fd} (hfds : Enumerates fds w) :
    (shutdownWorkerRuntime w.runtime fds).1 =
      fds ++ closesIfSet w.runtime.listenFd ++ closesIfSet w.runtime.epollFd := by
  refine congrArg (fun clients => clients ++ _ ++ _) (flatMap_singletons ?_)
  intro fd hfd
  obtain ⟨c, hc⟩ := Option.isSome_iff_exists.mp ((hfds.complete fd).mp hfd)
  obtain ⟨i, hi⟩ := hw.descriptor hc
  obtain ⟨hkey, -⟩ := hw.entry hc hi
  simp only [hc, hkey, closesIfSet, ge_iff_le, if_pos (hw.nonneg hi)]

theorem shutdown_nodup {w : World} (hw : Owned w) {fds : List Fd} (hfds : Enumerates fds w)
    (hdistinct : w.runtime.listenFd ≠ w.runtime.epollFd) :
    (shutdownWorkerRuntime w.runtime fds).1.Nodup := by
  have hclients : ∀ fd ∈ fds, fd ≠ w.runtime.listenFd ∧ fd ≠ w.runtime.epollFd := by
    intro fd hfd
    obtain ⟨c, hc⟩ := Option.isSome_iff_exists.mp ((hfds.complete fd).mp hfd)
    obtain ⟨i, hi⟩ := hw.descriptor hc
    exact ⟨(hw.apart hi).1, (hw.apart hi).2.1⟩
  have hset : ∀ fd, (closesIfSet fd).Nodup ∧ ∀ x ∈ closesIfSet fd, x = fd := by
    intro fd
    unfold closesIfSet
    split <;> simp
  rw [shutdown_closes hw hfds]
  refine List.nodup_append.mpr ⟨List.nodup_append.mpr ⟨hfds.nodup, (hset _).1, ?_⟩, (hset _).1, ?_⟩
  · intro fd hfd x hx
    rw [(hset _).2 x hx]
    exact (hclients fd hfd).1
  · intro fd hfd x hx
    rw [(hset _).2 x hx]
    rcases List.mem_append.mp hfd with hfd | hfd
    · exact (hclients fd hfd).2
    · rw [(hset _).2 fd hfd]
      exact hdistinct

theorem closesIfSet_reset (fd : Fd) : closesIfSet (if fd ≥ 0 then -1 else fd) = [] := by
  unfold closesIfSet
  split <;> rfl

/-- A worker that is shut down again closes nothing. -/
theorem shutdown_again (runtime : WorkerRuntime) (fds fds' : List Fd) :
    (shutdownWorkerRuntime (shutdownWorkerRuntime runtime fds).2 fds').1 = [] := by
  show fds'.flatMap (fun _ => []) ++ closesIfSet (if runtime.listenFd ≥ 0 then -1 else _) ++
    closesIfSet (if runtime.epollFd ≥ 0 then -1 else _) = []
  rw [closesIfSet_reset, closesIfSet_reset, List.append_nil, List.append_nil]
  exact List.flatMap_eq_nil_iff.mpr fun _ _ => rfl

/-! ## Ids that come round -/

/-- `connection_id` tells connections apart, in every state of every run. -/
def IdsDistinct : Prop :=
  ∀ env config store k w, Reaches env config store k w → ∀ fd fd' c c',
    w.runtime.connections fd = some c → w.runtime.connections fd' = some c' →
    c.connectionId = c'.connectionId → fd = fd'

/-- The first client is still there, on 5; 6 is free. -/
structure FirstStays (n : Nat) (w : World) : Prop where
  first : ∃ c, w.runtime.connections 5 = some c ∧ c.connectionId = 1
  free : w.kernel.fdTable 6 = none
  vacant : w.runtime.connections 6 = none
  nextId : w.runtime.nextConnectionId = UInt64.ofNat n
  worker : SameWorker defaultWorld w

section

variable {n : Nat} {w : World}

/-- The session of a client that was just accepted on 6. -/
def freshSession (w : World) : Session :=
  { connection := newConnection w 6
    socket := (w.enter 6).kernel.sockets w.kernel.accepted
    rng := w.runtime.rng
    recorder := w.runtime.benchmarkRecorder
    shutdownSignals := w.kernel.shutdownSignals
    clock := w.clock }

theorem FirstStays.enter_connections (h : FirstStays n w) : (w.enter 6).runtime.connections =
    Function.update w.runtime.connections 6 (some (newConnection w 6)) := by
  simp only [World.enter, World.addConnection, h.vacant, newConnection]

theorem FirstStays.getSession (h : FirstStays n w) :
    getSession 6 (w.enter 6) = some (freshSession w) := by
  have hc : (w.enter 6).runtime.connections 6 = some (newConnection w 6) := by
    rw [h.enter_connections, Function.update_self]
  have hi : (w.enter 6).kernel.fdTable 6 = some w.kernel.accepted :=
    Function.update_self (6 : Fd) _ w.kernel.fdTable
  rw [RtbEngine.getSession, hc, hi]
  rfl

theorem FirstStays.accept (h : FirstStays n w) (is : List Answer) :
    accept4.run w (.accepted (.ok 6) :: is) =
      .done (.ok 6) { w with kernel := w.kernel.openSocket 6 } is := by
  obtain ⟨hlisten, hepoll, hconfig⟩ := h.worker
  have hguard : (0 : Int) ≤ 6 ∧ w.kernel.fdTable 6 = none ∧ (6 : Int) ≠ w.runtime.listenFd ∧
      (6 : Int) ≠ w.runtime.epollFd ∧ (6 : Int) ≠ w.runtime.config.shutdownFd := by
    refine ⟨by decide, h.free, ?_, ?_, ?_⟩
    · rw [hlisten]
      decide
    · rw [hepoll]
      decide
    · rw [hconfig]
      decide
  apply run_ask_cons
  simp only [if_pos hguard]

/-- A client on 6 that cannot be registered is gone again, with its id. -/
theorem FirstStays.refused (h : FirstStays n w) (is : List Answer) :
    ∃ w', (acceptRound ()).run w (.accepted (.ok 6) :: .controlled false :: is) =
        .done (.again ()) w' is ∧ FirstStays (n + 1) w' := by
  have hregister : (registerClient 6).run (w.enter 6) (.controlled false :: is) =
      .done false (putSession 6 (freshSession w) (w.enter 6)) is := by
    simp only [registerClient, onConnection, zoom, h.getSession]
    rfl
  have hi : (putSession 6 (freshSession w) (w.enter 6)).kernel.fdTable 6 =
      some w.kernel.accepted := Function.update_self (6 : Fd) _ w.kernel.fdTable
  have hdrop : (dropDescriptor 6).run (putSession 6 (freshSession w) (w.enter 6)) is =
      .done () ((putSession 6 (freshSession w) (w.enter 6)).dropConnection 6) is := by
    simp only [dropDescriptor, zoom, hi, Option.isSome_some, if_true]
    rfl
  refine ⟨(putSession 6 (freshSession w) (w.enter 6)).dropConnection 6, ?_, ?_, ?_, ?_, ?_, ?_⟩
  · unfold acceptRound
    rw [run_bind_done (h.accept _)]
    simp only
    rw [run_modify_bind]
    show ((registerClient 6 >>= _).run (w.enter 6) _) = _
    rw [run_bind_done hregister]
    simp only [Bool.false_eq_true, if_false]
    rw [run_bind_done hdrop]
    rfl
  · obtain ⟨c, hc, hid⟩ := h.first
    refine ⟨c, ?_, hid⟩
    show Function.update (Function.update (w.enter 6).runtime.connections 6
      (some (newConnection w 6))) 6 none 5 = some c
    rw [Function.update_of_ne (by decide), Function.update_of_ne (by decide), h.enter_connections,
      Function.update_of_ne (by decide)]
    exact hc
  · show ((putSession 6 (freshSession w) (w.enter 6)).kernel.close 6).fdTable 6 = none
    rw [Kernel.close_fdTable, if_pos rfl]
  · exact Function.update_self (6 : Fd) _
      (putSession 6 (freshSession w) (w.enter 6)).runtime.connections
  · show w.runtime.nextConnectionId + 1 = UInt64.ofNat (n + 1)
    rw [h.nextId]
    exact (UInt64.ofNat_add n 1).symm
  · exact h.worker

/-- So are any number of them, one after another. -/
theorem FirstStays.refusals (h : FirstStays n w) (m : Nat) (is : List Answer) :
    ∃ w', (loop acceptRound ()).run w
        ((List.replicate m [Answer.accepted (.ok 6), .controlled false]).flatten ++ is) =
        (loop acceptRound ()).run w' is ∧ FirstStays (n + m) w' := by
  induction m generalizing n w with
  | zero => exact ⟨w, rfl, h⟩
  | succ m ih =>
      obtain ⟨w1, hround, h1⟩ := h.refused
        ((List.replicate m [Answer.accepted (.ok 6), .controlled false]).flatten ++ is)
      obtain ⟨w2, hloop, h2⟩ := ih h1
      refine ⟨w2, ?_, ?_⟩
      · rw [List.replicate_succ, List.flatten_cons, List.append_assoc, List.cons_append,
          List.cons_append, List.nil_append, loop_unfold productive_acceptRound, hround]
        exact hloop
      · rw [show n + (m + 1) = n + 1 + m by omega]
        exact h2

/-- The next client on 6 is entered with the next id. -/
theorem FirstStays.entered (h : FirstStays n w) :
    ∃ w', (loop acceptRound ()).run w [.accepted (.ok 6)] = .waiting .epollCtl w' ∧
      w'.runtime.connections 5 = w.runtime.connections 5 ∧
      ∃ c, w'.runtime.connections 6 = some c ∧ c.connectionId = UInt64.ofNat n := by
  refine ⟨putSession 6 (freshSession w) (w.enter 6), ?_, ?_, newConnection w 6, ?_, h.nextId⟩
  · have hregister : (registerClient 6).run (w.enter 6) [] =
        .waiting .epollCtl (putSession 6 (freshSession w) (w.enter 6)) := by
      simp only [registerClient, onConnection, zoom, h.getSession]
      rfl
    rw [loop_unfold productive_acceptRound]
    unfold acceptRound
    rw [run_bind_done (h.accept _)]
    simp only
    rw [run_modify_bind]
    show Outcome.andThen ((registerClient 6 >>= _).run (w.enter 6) []) _ = _
    rw [run_bind, hregister]
    rfl
  · show Function.update (w.enter 6).runtime.connections 6 (some (newConnection w 6)) 5 = _
    rw [Function.update_of_ne (by decide), h.enter_connections,
      Function.update_of_ne (by decide)]
  · exact Function.update_self (6 : Fd) _ (w.enter 6).runtime.connections

end

/-- A run in which the first client gets 5. -/
theorem run_firstClient {env : Platform} {w : World} {k : Call} {is : List Answer}
    (hloop : (loop acceptRound ()).run connectedWorld is = .waiting k w) :
    (runWorkerLoop env).run defaultWorld (.events (.ok [⟨3, EPOLLIN⟩]) :: .go ::
      .accepted (.ok 5) :: .controlled true :: is) = .waiting k w := by
  have hlisten : (⟨3, EPOLLIN⟩ : EpollEvent).fd = defaultWorld.runtime.listenFd := rfl
  have hshutdown : ¬ (⟨3, EPOLLIN⟩ : EpollEvent).fd = defaultWorld.runtime.config.shutdownFd := by
    decide
  have hevent : (handleEvent env ⟨3, EPOLLIN⟩).run defaultWorld
      (.accepted (.ok 5) :: .controlled true :: is) = .waiting k w := by
    unfold handleEvent
    rw [run_read_bind, if_pos hlisten, loop_unfold productive_acceptRound]
    exact hloop
  have hgo : (nextEvent [⟨3, EPOLLIN⟩]).run defaultWorld
      (.go :: .accepted (.ok 5) :: .controlled true :: is) =
      .done () defaultWorld (.accepted (.ok 5) :: .controlled true :: is) := rfl
  have hbatch : (handleBatch env [⟨3, EPOLLIN⟩]).run defaultWorld
      (.go :: .accepted (.ok 5) :: .controlled true :: is) = .waiting k w := by
    unfold handleBatch
    rw [run_bind_done hgo, run_read_bind, if_neg hshutdown, run_bind, hevent]
    rfl
  have hwait : epollWait.run defaultWorld (.events (.ok [⟨3, EPOLLIN⟩]) :: .go ::
      .accepted (.ok 5) :: .controlled true :: is) = .done (.ok [⟨3, EPOLLIN⟩]) defaultWorld
      (.go :: .accepted (.ok 5) :: .controlled true :: is) := rfl
  have hround : (epollRound env ()).run defaultWorld (.events (.ok [⟨3, EPOLLIN⟩]) :: .go ::
      .accepted (.ok 5) :: .controlled true :: is) = .waiting k w := by
    unfold epollRound
    rw [run_bind_done hwait]
    simp only
    rw [run_bind, hbatch]
    rfl
  unfold runWorkerLoop
  rw [loop_unfold (productive_epollRound env), hround]
  rfl

theorem ofNat_round : UInt64.ofNat (2 + (2 ^ 64 - 1)) = 1 := by
  rw [← UInt64.toNat_inj, UInt64.toNat_ofNat']
  rfl

/-- After `2 ^ 64` clients the ids start again, while the first is still
connected. -/
theorem not_idsDistinct : ¬ IdsDistinct := by
  intro hdistinct
  have hstart : FirstStays 2 connectedWorld := by
    refine ⟨⟨newConnection defaultWorld 5, rfl, rfl⟩, rfl, rfl, rfl, rfl, rfl, rfl⟩
  -- the number of refused clients is kept abstract
  obtain ⟨m, hm⟩ : ∃ m, m = 2 ^ 64 - 1 := ⟨_, rfl⟩
  obtain ⟨w1, hmany, h1⟩ := hstart.refusals m [.accepted (.ok 6)]
  obtain ⟨w2, hlast, hfirst, c', hc', hid'⟩ := h1.entered
  obtain ⟨c, hc, hid⟩ := h1.first
  have hreach : Reaches wirePlatform {} {} .epollCtl w2 :=
    ⟨4, 3, {}, none, { reading := fun _ => 0 }, _, run_firstClient (hmany.trans hlast)⟩
  have hsame : (5 : Fd) = 6 := by
    refine hdistinct _ _ _ _ _ hreach 5 6 c c' (hfirst.trans hc) hc' ?_
    rw [hid, hid', hm, ofNat_round]
  exact absurd hsame (by decide)

/-! ## Owners -/

/-- The entries are the open client descriptors, each under its own, and each
with the number of its socket for an id. -/
structure OneOwner (w : World) : Prop where
  entered : ∀ fd, (w.runtime.connections fd).isSome = (w.kernel.fdTable fd).isSome
  key : ∀ fd c, w.runtime.connections fd = some c → c.fd = fd
  socket : ∀ fd c, w.runtime.connections fd = some c →
    ∃ i, w.kernel.fdTable fd = some i ∧ i < w.kernel.accepted ∧
      c.connectionId = UInt64.ofNat (i + 1)
  apart : ∀ fd, (w.kernel.fdTable fd).isSome →
    fd ≠ w.runtime.listenFd ∧ fd ≠ w.runtime.epollFd ∧ fd ≠ w.runtime.config.shutdownFd

theorem Owned.oneOwner {w : World} (hw : Owned w) : OneOwner w := by
  refine ⟨hw.entered, ?_, ?_, ?_⟩
  · intro fd c hc
    obtain ⟨i, hi⟩ := hw.descriptor hc
    exact (hw.entry hc hi).1
  · intro fd c hc
    obtain ⟨i, hi⟩ := hw.descriptor hc
    exact ⟨i, hi, hw.below hi, (hw.entry hc hi).2⟩
  · intro fd hopen
    obtain ⟨i, hi⟩ := Option.isSome_iff_exists.mp hopen
    exact hw.apart hi

/-- Up to `2 ^ 64` clients have different ids. -/
theorem ofNat_succ_inj {i j : Nat} (hi : i < 2 ^ 64) (hj : j < 2 ^ 64)
    (h : UInt64.ofNat (i + 1) = UInt64.ofNat (j + 1)) : i = j := by
  have hnat := congrArg UInt64.toNat h
  rw [UInt64.toNat_ofNat', UInt64.toNat_ofNat'] at hnat
  omega

/-- An id belongs to one socket, at whatever points of the run it is seen. -/
theorem OneOwner.same_socket {w w' : World} (hw : OneOwner w) (hw' : OneOwner w')
    (hle : w.kernel.accepted ≤ 2 ^ 64) (hle' : w'.kernel.accepted ≤ 2 ^ 64) {fd fd' : Fd}
    {c c' : ConnectionState} (hc : w.runtime.connections fd = some c)
    (hc' : w'.runtime.connections fd' = some c') (hid : c.connectionId = c'.connectionId) :
    w.kernel.fdTable fd = w'.kernel.fdTable fd' := by
  obtain ⟨i, hi, hlt, hci⟩ := hw.socket fd c hc
  obtain ⟨j, hj, hlt', hcj⟩ := hw'.socket fd' c' hc'
  rw [hci, hcj] at hid
  rw [hi, hj, ofNat_succ_inj (Nat.lt_of_lt_of_le hlt hle) (Nat.lt_of_lt_of_le hlt' hle') hid]

theorem Owned.ids_distinct {w : World} (hw : Owned w) (hle : w.kernel.accepted ≤ 2 ^ 64)
    {fd fd' : Fd} {c c' : ConnectionState} (hc : w.runtime.connections fd = some c)
    (hc' : w.runtime.connections fd' = some c') (hid : c.connectionId = c'.connectionId) :
    fd = fd' := by
  have hsocket := hw.oneOwner.same_socket hw.oneOwner hle hle hc hc' hid
  obtain ⟨i, hi⟩ := hw.descriptor hc
  exact hw.injective hi (hsocket ▸ hi)

/-- The worker started in `boot` is at some point waiting in `k`, in `w`. -/
def Visits (env : Platform) (boot : World) (k : Call) (w : World) : Prop :=
  ∃ answers, (runWorkerLoop env).run boot answers = .waiting k w

/-- **Descriptors have one owner.** In every run of a worker:
the entries of the map are the open client descriptors, and no call is made on
a descriptor that is not open; up to `2 ^ 64` clients, ids are distinct and
none is used again; an event left of a batch finds the connection that had its
descriptor when the batch came; and after the loop each descriptor is closed
once. -/
theorem descriptors_have_one_owner (env : Platform) (config : WorkerConfig)
    (store : CampaignStoreSnapshot) (epollFd listenFd : Fd) (rng : WorkerRng)
    (recorder : Option BenchmarkRecorder) (clock : Clock) (boot : World)
    (hboot : boot = bootWorld config epollFd listenFd rng recorder store clock) :
    (∀ k w, Visits env boot k w → OneOwner w ∧ k.isBadDescriptor = false) ∧
    (∀ k w, Visits env boot k w → w.kernel.accepted ≤ 2 ^ 64 → ∀ fd fd' c c',
      w.runtime.connections fd = some c → w.runtime.connections fd' = some c' →
      c.connectionId = c'.connectionId → fd = fd') ∧
    (∀ k w k' w', Visits env boot k w → Visits env boot k' w' →
      w.kernel.accepted ≤ 2 ^ 64 → w'.kernel.accepted ≤ 2 ^ 64 → ∀ fd fd' c c',
      w.runtime.connections fd = some c → w'.runtime.connections fd' = some c' →
      c.connectionId = c'.connectionId → w.kernel.fdTable fd = w'.kernel.fdTable fd') ∧
    (∀ before batch after w0 event rest w',
      (runWorkerLoop env).run boot before = .waiting .epollWait w0 →
      (batch.map EpollEvent.fd).Nodup → (∀ a ∈ after, ∀ r, a ≠ .events r) →
      (runWorkerLoop env).run boot (before ++ .events (.ok batch) :: after) =
        .waiting (.nextEvent (event :: rest)) w' →
      (event :: rest) <:+ batch ∧ ∀ c, w0.runtime.connections event.fd = some c →
        ∃ c', w'.runtime.connections event.fd = some c' ∧ c'.connectionId = c.connectionId) ∧
    (∀ answers r w left fds, (runWorkerLoop env).run boot answers = .done r w left →
      listenFd ≠ epollFd → Enumerates fds w →
      (shutdownWorkerRuntime w.runtime fds).1 =
          fds ++ closesIfSet listenFd ++ closesIfSet epollFd ∧
        (shutdownWorkerRuntime w.runtime fds).1.Nodup ∧
        (∀ fd ∈ fds, (w.kernel.fdTable fd).isSome = true) ∧
        ∀ fds', (shutdownWorkerRuntime (shutdownWorkerRuntime w.runtime fds).2 fds').1 = []) := by
  subst hboot
  have hw := owned_boot config epollFd listenFd rng recorder store clock
  generalize hboot : bootWorld config epollFd listenFd rng recorder store clock = boot at hw ⊢
  have hvisits : ∀ {k w}, Visits env boot k w → Owned w ∧ k.isBadDescriptor = false := by
    rintro k w ⟨answers, hrun⟩
    exact (runWorkerLoop_owned env hw).waiting (fun _ _ => trivial) hrun
  refine ⟨?_, ?_, ?_, ?_, ?_⟩
  · intro k w hv
    exact ⟨(hvisits hv).1.oneOwner, (hvisits hv).2⟩
  · intro k w hv hle fd fd' c c' hc hc' hid
    exact (hvisits hv).1.ids_distinct hle hc hc' hid
  · intro k w k' w' hv hv' hle hle' fd fd' c c' hc hc' hid
    exact (hvisits hv).1.oneOwner.same_socket (hvisits hv').1.oneOwner hle hle' hc hc' hid
  · intro before batch after w0 event rest w' hbefore hnodup hafter hrun
    obtain ⟨hw0, hw', hsuffix, hpersist⟩ := dispatch_persists hw hbefore hnodup hafter hrun
    refine ⟨hsuffix, ?_⟩
    intro c hc
    -- the same socket, so the same id
    obtain ⟨i, hi⟩ := hw0.descriptor hc
    have hi' := hpersist i hi
    obtain ⟨c', hc'⟩ := hw'.connection hi'
    exact ⟨c', hc', ((hw'.entry hc' hi').2).trans (hw0.entry hc hi).2.symm⟩
  · intro answers r w left fds hrun hdistinct hfds
    obtain ⟨hw', hlisten, hepoll, -⟩ :=
      (runWorkerLoop_owned env hw).done (fun _ _ => trivial) hrun
    have hlisten' : w.runtime.listenFd = listenFd := by rw [hlisten, ← hboot]; rfl
    have hepoll' : w.runtime.epollFd = epollFd := by rw [hepoll, ← hboot]; rfl
    refine ⟨?_, ?_, ?_, ?_⟩
    · rw [shutdown_closes hw' hfds, hlisten', hepoll']
    · exact shutdown_nodup hw' hfds (by rw [hlisten', hepoll']; exact hdistinct)
    · intro fd hfd
      rw [← hw'.entered]
      exact (hfds.complete fd).mp hfd
    · exact shutdown_again w.runtime fds

/-- Two clients are accepted, on 5 and 6. -/
def sampleClients : List Answer :=
  [.events (.ok [⟨3, EPOLLIN⟩]), .go, .accepted (.ok 5), .controlled true, .accepted (.ok 6),
    .controlled true, .accepted (.error .eagain)]

/-- In one batch the first of them hangs up, a third one connects, and the
second one sends. -/
def sampleBatch : List EpollEvent := [⟨5, EPOLLRDHUP⟩, ⟨3, EPOLLIN⟩, ⟨6, EPOLLIN⟩]

/-- The third client gets the descriptor of the first. -/
def sampleReuse : List Answer :=
  [.go, .go, .accepted (.ok 5), .controlled true, .accepted (.error .eagain)]

/-- One client is connected, and the worker asks for the next. In another run
a descriptor is closed and used again within a batch: the event behind it
finds the connection that it was for. -/
theorem descriptors_have_one_owner_sample :
    (OneOwner connectedWorld ∧ connectedWorld.runtime.connections 5 =
      some (newConnection defaultWorld 5) ∧
      (shutdownWorkerRuntime defaultWorld.runtime []).1 = [3, 4]) ∧
    ∃ w0 w', Visits wirePlatform (sampleWorld none) .epollWait w0 ∧
      Visits wirePlatform (sampleWorld none) (.nextEvent [⟨6, EPOLLIN⟩]) w' ∧
      (w0.runtime.connections 5).map (·.connectionId) = some 1 ∧
      (w'.runtime.connections 5).map (·.connectionId) = some 3 ∧
      ∃ c c', w0.runtime.connections 6 = some c ∧ w'.runtime.connections 6 = some c' ∧
        c'.connectionId = c.connectionId := by
  constructor
  · have hrun : (loop acceptRound ()).run connectedWorld [] = .waiting .accept4 connectedWorld := by
      rw [loop_unfold productive_acceptRound]
      rfl
    have howned := descriptors_have_one_owner wirePlatform {} {} 4 3 {} none
      { reading := fun _ => 0 } defaultWorld rfl
    exact ⟨(howned.1 .accept4 connectedWorld ⟨_, run_firstClient hrun⟩).1, rfl, by decide⟩
  · have hbefore : ((runWorkerLoop wirePlatform).run (sampleWorld none) sampleClients).waits.any
        (fun p => p.1 = .epollWait ∧ (p.2.runtime.connections 5).map (·.connectionId) = some 1 ∧
          (p.2.runtime.connections 6).isSome = true) := by
      decide +kernel
    have hafter : ((runWorkerLoop wirePlatform).run (sampleWorld none)
        (sampleClients ++ .events (.ok sampleBatch) :: sampleReuse)).waits.any
        (fun p => p.1 = .nextEvent [⟨6, EPOLLIN⟩] ∧
          (p.2.runtime.connections 5).map (·.connectionId) = some 3) := by
      decide +kernel
    obtain ⟨⟨k, w0⟩, hwaits, hp⟩ := (Option.any_eq_true _ _).mp hbefore
    obtain ⟨rfl, hfirst, hsecond⟩ := of_decide_eq_true hp
    obtain ⟨⟨k', w'⟩, hwaits', hp'⟩ := (Option.any_eq_true _ _).mp hafter
    obtain ⟨rfl, hthird⟩ := of_decide_eq_true hp'
    obtain ⟨c, hc⟩ := Option.isSome_iff_exists.mp hsecond
    have howned := descriptors_have_one_owner wirePlatform sampleConfig {} 4 3 {} none
      { reading := fun _ => 0 } (sampleWorld none) rfl
    obtain ⟨-, hkept⟩ := howned.2.2.2.1 sampleClients sampleBatch sampleReuse w0 ⟨6, EPOLLIN⟩ [] w'
      (Outcome.eq_waiting hwaits) (by decide) (by simp [sampleReuse]) (Outcome.eq_waiting hwaits')
    obtain ⟨c', hc', hid⟩ := hkept c hc
    exact ⟨w0, w', ⟨_, Outcome.eq_waiting hwaits⟩, ⟨_, Outcome.eq_waiting hwaits'⟩, hfirst, hthird,
      c, c', hc, hc', hid⟩

end RtbEngine
