import RtbEngine.Logic.Steps
import RtbEngine.Logic.Worker
import RtbEngine.Theorems.Stream

/-!
# Why a connection is closed

As long as no `write` and no `epoll_ctl` on a connection fails, the worker
closes it for what it has observed last: the end of the stream, a hang-up or
an error, or a frame that cannot be admitted, parsed or answered. What waits
behind a response that is not flushed is not observed.

* `Fault` — how the history of such a socket ends;
* `serveClient_fault` — the handler asks for a close after a fault only;
* `closed_iff_fault` — in every run, the sockets that are closed are those whose
  history ends in a fault.
-/

namespace RtbEngine

open Lib Exec Relation

/-! ## Faults -/

/-- `process_ready_frames` has no answer to the payload. -/
def Unanswerable (env : Platform) (payload : Bytes) : Prop :=
  (parseBidRequest env.protobuf payload).1 ≠ .ok ∨ (parseBidRequest env.protobuf payload).2.Invalid

instance (env : Platform) (payload : Bytes) : Decidable (Unanswerable env payload) :=
  inferInstanceAs (Decidable (_ ∨ _))

/-- The last event is one that no handler goes on after. -/
def Fault (env : Platform) (h : List SocketEvent) : Prop :=
  match h.getLast? with
  | some .endOfFile | some (.hungUp _) => True
  | some (.readFailed errno) => errno ≠ .eintr ∧ errno ≠ .eagain
  | some (.frameChecked status) => status = .invalidLength
  | some (.parsed payload) => Unanswerable env payload
  | some (.stagingFailed _ _) => True
  | some .bufferFull => True
  | _ => False

/-- No `write` and no `epoll_ctl` fails; a client may hang up at any time, and
`read` may fail. -/
def Answer.Mild : Answer → Prop
  | .written (.ok n) => n ≠ 0
  | .written (.error errno) => errno = .eintr ∨ errno = .eagain
  | .controlled ok => ok = true
  | _ => True

section

variable {env : Platform} {config : WorkerConfig} {store : CampaignStoreSnapshot} {s : Session}
  {w : World}

/-! ## Handlers -/

theorem fault_snoc (h : List SocketEvent) (event : SocketEvent) :
    Fault env (h ++ [event]) ↔ Fault env [event] := by
  unfold Fault
  rw [List.getLast?_concat]
  rfl

/-- A handler in the middle of its work. -/
def Healthy (env : Platform) (_ : Call) (s : Session) : Prop := ¬ Fault env s.socket.history

/-- In a mild environment the interest set is changed as asked. -/
theorem updateClientEvents_mild (hs : ¬ Fault env s.socket.history) (enableWrite : Bool) :
    (updateClientEvents enableWrite).Ensures Answer.Mild s
      (fun ok s' => ok = true ∧ ¬ Fault env s'.socket.history) (Healthy env) := by
  refine ensures_ask hs ?_
  intro answer ok s' hmild hans
  cases answer with
  | controlled granted =>
      have hgranted : granted = true := hmild
      subst hgranted
      cases hans
      exact ⟨rfl, hs⟩
  | _ => cases hans

theorem flushRound_mild (hs : ¬ Fault env s.socket.history) (u : Unit) :
    (flushRound u).Ensures Answer.Mild s
      (fun r s' => ¬ Fault env s'.socket.history ∧ match r with
        | .again _ => True
        | .stop drained => drained = true)
      (Healthy env) := by
  refine ensures_bind ?_
  refine ensures_read ?_
  split
  · refine ensures_bind ?_
    refine ensures_ask hs ?_
    intro answer result s' hmild hans
    cases answer with
    | written outcome =>
        cases outcome with
        | ok n =>
            have hpos : n > 0 := Nat.pos_of_ne_zero hmild
            simp only at hans
            split at hans
            · cases hans
              simp only [if_pos hpos, if_neg (Nat.ne_of_gt hpos)]
              refine ensures_bind ?_
              refine ensures_modify ?_
              exact ensures_pure ⟨(fault_snoc _ _).not.mpr id, trivial⟩
            · cases hans
        | error errno =>
            cases hans
            rcases hmild with rfl | rfl
            · exact ensures_pure ⟨hs, trivial⟩
            · exact ensures_pure ⟨hs, rfl⟩
    | _ => cases hans
  · exact ensures_pure ⟨hs, rfl⟩

theorem flushPendingWrite_mild (hs : ¬ Fault env s.socket.history) :
    (flushPendingWrite config).Ensures Answer.Mild s
      (fun flushed s' => flushed = true ∧ ¬ Fault env s'.socket.history) (Healthy env) := by
  refine ensures_bind ?_
  have hloop : (loop flushRound ()).Ensures Answer.Mild s
      (fun drained s' => drained = true ∧ ¬ Fault env s'.socket.history) (Healthy env) := by
    refine ensures_loop (fun _ s' => ¬ Fault env s'.socket.history) productive_flushRound ?_ hs
    intro u s1 h1
    refine (flushRound_mild h1 u).weaken ?_
    rintro r s2 ⟨h2, hr⟩
    cases r with
    | again _ => exact h2
    | stop drained => exact ⟨hr, h2⟩
  refine hloop.weaken ?_
  rintro drained s1 ⟨rfl, h1⟩
  refine ensures_bind ?_
  refine ensures_modify ?_
  refine ensures_bind ?_
  refine ensures_read ?_
  refine ensures_bind ?_
  have hflag : ¬ Fault env
      (s1.setPendingWrite (s1.connection.writeBuffer.readableBytes != 0)).socket.history := h1
  refine (updateClientEvents_mild hflag _).weaken ?_
  rintro granted s2 ⟨rfl, h2⟩
  refine ensures_bind ?_
  refine ensures_modify ?_
  refine ensures_pure ⟨rfl, ?_⟩
  split
  · unfold signalShutdownFd
    split <;> exact h2
  · exact h2

/-- A close is asked for exactly after a fault. -/
def ClosesFor (env : Platform) (outcome : ProcessFramesOutcome) (s : Session) : Prop :=
  outcome = .closeConnection ↔ Fault env s.socket.history

theorem finishFrame_fault (frame : FrameView) (response : BidResponse)
    (timing : RequestTimingBreakdown) :
    (finishFrame frame response timing).Ensures Answer.Mild s (ClosesFor env) (Healthy env) := by
  refine ensures_bind (ensures_modify ?_)
  refine ensures_bind (ensures_modify ?_)
  refine ensures_bind (ensures_modify ?_)
  refine ensures_bind (ensures_modify ?_)
  refine ensures_bind ?_
  refine (updateClientEvents_mild ((fault_snoc _ _).not.mpr id) true).weaken ?_
  rintro granted s' ⟨rfl, hs'⟩
  exact ensures_pure (iff_of_false nofun hs')

/-- A parsed request is dropped only if it is invalid. -/
theorem unanswerable_of_drop {payload : Bytes} {message : ParsedMessage}
    (hparse : parseBidRequest env.protobuf payload = (.ok, message)) {receivedAtNs : UInt64}
    {rng : WorkerRng} {clock : Clock}
    (hdrop : (handleRequest env.fl message receivedAtNs store rng clock).result.status =
      .dropConnection) : Unanswerable env payload := by
  rw [handleRequest_result, resultFor] at hdrop
  right
  rw [hparse]
  exact (statusOf_eq_drop_iff (processingStatus_of_parse hparse)).mp hdrop

/-- From the parsed message on: the history ends with it. -/
theorem answerFrame_fault {frame : FrameView} {totalStart parseNs : UInt64} {message : ParsedMessage}
    (hparse : parseBidRequest env.protobuf frame.payload = (.ok, message))
    (hlast : s.socket.history.getLast? = some (.parsed frame.payload)) :
    (answerFrame env store frame totalStart parseNs message).Ensures Answer.Mild s (ClosesFor env)
      (Healthy env) := by
  obtain ⟨handled, hhandled⟩ : ∃ handled,
    handleRequest env.fl message s.clock.nowNs.1 store s.tick.rng s.tick.clock = handled := ⟨_, rfl⟩
  refine ensures_bind ?_
  refine ensures_update ?_
  refine ensures_bind ?_
  refine callHandleRequest_ensures_of_eq (s := s.tick) hhandled ?_
  split
  · rename_i hdrop
    refine ensures_pure (iff_of_true rfl ?_)
    have hunanswerable : Unanswerable env frame.payload := by
      rw [← hhandled] at hdrop
      exact unanswerable_of_drop hparse hdrop
    show Fault env s.socket.history
    rw [Fault, hlast]
    exact hunanswerable
  · clear hhandled
    refine ensures_bind ?_
    refine ensures_update ?_
    refine ensures_bind ?_
    refine callStageResponseFrame_ensures_of_eq (s := (s.tick.setHandled handled).tick) rfl ?_
    generalize (stageResponseFrame env.protobuf handled.result.response _) = staged
    obtain ⟨ok, buffer⟩ := staged
    cases ok with
    | true =>
        simp only [if_true]
        exact ensures_bind (ensures_update (finishFrame_fault _ _ _))
    | false =>
        simp only [Bool.false_eq_true, if_false]
        refine ensures_bind ?_
        refine ensures_modify ?_
        exact ensures_pure (iff_of_true rfl ((fault_snoc _ _).mpr trivial))

theorem processReadyFrames_fault :
    (processReadyFrames env config store).Ensures Answer.Mild s (ClosesFor env) (Healthy env) := by
  refine ensures_bind ?_
  refine ensures_read ?_
  generalize s.connection.readBuffer.tryExtractFrame config.maxFrameSize = extracted
  obtain ⟨status, frame⟩ := extracted
  refine ensures_bind ?_
  refine ensures_modify ?_
  cases status with
  | needMoreData => exact ensures_pure (iff_of_false nofun ((fault_snoc _ _).not.mpr nofun))
  | invalidLength => exact ensures_pure (iff_of_true rfl ((fault_snoc _ _).mpr rfl))
  | frameReady =>
      refine ensures_bind ?_
      refine ensures_update ?_
      refine ensures_bind ?_
      refine ensures_update ?_
      refine ensures_bind ?_
      refine ensures_modify ?_
      cases hparse : parseBidRequest env.protobuf frame.payload with
      | mk parseStatus message =>
          refine ensures_bind ?_
          refine ensures_update ?_
          by_cases hok : parseStatus = .ok
          · rw [hok] at hparse
            rw [if_pos hok]
            exact answerFrame_fault hparse List.getLast?_concat
          · rw [if_neg hok]
            refine ensures_pure (iff_of_true rfl ((fault_snoc _ _).mpr (.inl ?_)))
            rw [hparse]
            exact hok

theorem makeRoom_fault (hs : ¬ Fault env s.socket.history) :
    makeRoom.Ensures Answer.Mild s (fun room s' => room = false ↔ Fault env s'.socket.history)
      (Healthy env) := by
  refine ensures_bind ?_
  refine ensures_read ?_
  split
  · refine ensures_bind ?_
    refine ensures_modify ?_
    refine ensures_bind ?_
    refine ensures_read ?_
    split
    · refine ensures_bind ?_
      refine ensures_modify ?_
      exact ensures_pure (iff_of_true rfl ((fault_snoc _ _).mpr trivial))
    · exact ensures_pure (iff_of_false nofun hs)
  · exact ensures_pure (iff_of_false nofun hs)

theorem readRound_fault (hs : ¬ Fault env s.socket.history) (u : Unit) :
    (readRound env config store u).Ensures Answer.Mild s
      (fun r s' => match r with
        | .again _ => ¬ Fault env s'.socket.history
        | .stop close => close = true ↔ Fault env s'.socket.history)
      (Healthy env) := by
  refine ensures_bind ?_
  refine (makeRoom_fault hs).weaken ?_
  intro room s1 hroom
  cases room with
  | false => exact ensures_pure (iff_of_true rfl (hroom.mp rfl))
  | true =>
      have h1 : ¬ Fault env s1.socket.history := fun hfault => by cases hroom.mpr hfault
      refine ensures_bind ?_
      refine ensures_ask h1 ?_
      intro answer result s2 hmild hans
      cases answer with
      | readBytes outcome =>
          cases outcome with
          | ok bytes =>
              simp only at hans
              split at hans
              · cases hans
                by_cases hnil : bytes = []
                · -- the end of the stream
                  subst hnil
                  simp only [List.length_nil, gt_iff_lt, Nat.lt_irrefl, if_false]
                  exact ensures_pure (iff_of_true rfl ((fault_snoc _ _).mpr trivial))
                · simp only [gt_iff_lt, List.length_pos_iff.mpr hnil, if_true]
                  refine ensures_bind ?_
                  refine ensures_modify ?_
                  refine ensures_bind ?_
                  refine processReadyFrames_fault.weaken ?_
                  intro outcome s3 hcloses
                  cases outcome with
                  | closeConnection => exact ensures_pure (iff_of_true rfl (hcloses.mp rfl))
                  | pauseForWrite =>
                      exact ensures_pure (iff_of_false nofun fun h => by cases hcloses.mpr h)
                  | «continue» => exact ensures_pure fun h => by cases hcloses.mpr h
              · cases hans
          | error errno =>
              cases hans
              have hfailed : Fault env (s1.socket.history ++ [.readFailed errno]) ↔
                  errno ≠ .eintr ∧ errno ≠ .eagain := fault_snoc _ _
              cases errno with
              | eintr => exact ensures_pure (hfailed.not.mpr fun h => h.1 rfl)
              | eagain =>
                  exact ensures_pure (iff_of_false nofun (hfailed.not.mpr fun h => h.2 rfl))
              | other code => exact ensures_pure (iff_of_true rfl (hfailed.mpr ⟨nofun, nofun⟩))
      | _ => cases hans

theorem serveFrames_fault :
    (serveFrames env config store).Ensures Answer.Mild s
      (fun close s' => close = true ↔ Fault env s'.socket.history) (Healthy env) := by
  refine ensures_bind ?_
  refine processReadyFrames_fault.weaken ?_
  intro outcome s1 hcloses
  cases outcome with
  | closeConnection => exact ensures_pure (iff_of_true rfl (hcloses.mp rfl))
  | pauseForWrite => exact ensures_pure (iff_of_false nofun fun h => by cases hcloses.mpr h)
  | «continue» =>
      refine ensures_loop (fun _ s' => ¬ Fault env s'.socket.history) productive_readRound ?_
        fun h => by cases hcloses.mpr h
      intro u s2 h2
      refine (readRound_fault h2 u).weaken ?_
      intro r s3 hr
      cases r with
      | again _ => exact hr
      | stop close => exact hr

/-- **The handler** asks for a close exactly after a fault. -/
theorem serveClient_fault (hs : ¬ Fault env s.socket.history) (mask : UInt32) :
    (serveClient env config store mask).Ensures Answer.Mild s
      (fun close s' => close = true ↔ Fault env s'.socket.history) (Healthy env) := by
  refine ensures_bind ?_
  refine ensures_read ?_
  split
  · refine ensures_bind ?_
    have hflush : (flushOnWritable config mask).Ensures Answer.Mild s
        (fun flushed s' => flushed = true ∧ ¬ Fault env s'.socket.history) (Healthy env) := by
      unfold flushOnWritable
      split
      · exact flushPendingWrite_mild hs
      · exact ensures_pure ⟨rfl, hs⟩
    refine hflush.weaken ?_
    rintro flushed s1 ⟨rfl, h1⟩
    refine ensures_bind ?_
    refine ensures_read ?_
    split
    · exact ensures_pure (iff_of_false nofun h1)
    · exact serveFrames_fault
  · exact serveFrames_fault

/-! ## The loop -/

/-- Of the sockets but the `i`-th, exactly the closed ones end in a fault. -/
structure GuardedBut (env : Platform) (i : Nat) (w : World) : Prop where
  owned : Owned w
  faults : ∀ j, j ≠ i → j < w.kernel.accepted →
    (w.kernel.isClosed j ↔ Fault env (w.kernel.sockets j).history)

/-- Exactly the closed sockets end in a fault. -/
structure Guarded (env : Platform) (w : World) : Prop where
  owned : Owned w
  faults : ∀ i, i < w.kernel.accepted →
    (w.kernel.isClosed i ↔ Fault env (w.kernel.sockets i).history)

variable {fd : Fd} {i : Nat}

theorem Kernel.not_isClosed {k : Kernel} (hi : k.fdTable fd = some i) : ¬ k.isClosed i :=
  fun h => h.2 fd hi

theorem Guarded.healthy (hw : Guarded env w) (hi : w.kernel.fdTable fd = some i) :
    ¬ Fault env (w.kernel.sockets i).history :=
  (hw.faults i (hw.owned.below hi)).not.mp (Kernel.not_isClosed hi)

theorem GuardedBut.guarded (hw : GuardedBut env i w) (hi : w.kernel.fdTable fd = some i)
    (hhealthy : ¬ Fault env (w.kernel.sockets i).history) : Guarded env w := by
  refine ⟨hw.owned, ?_⟩
  intro j hj
  by_cases hji : j = i
  · subst hji
    exact iff_of_false (Kernel.not_isClosed hi) hhealthy
  · exact hw.faults j hji hj

theorem Guarded.put (hw : Guarded env w) (hi : w.kernel.fdTable fd = some i)
    (howned : Owned (putSession fd s w)) : GuardedBut env i (putSession fd s w) := by
  refine ⟨howned, ?_⟩
  intro j hne hj
  rw [putSession_sockets hi, Function.update_of_ne hne]
  exact hw.faults j hj

/-- Closing `fd` closes its socket and no other. -/
theorem Kernel.close_isClosed {k : Kernel} (hbelow : i < k.accepted)
    (hinj : ∀ {fd' : Fd}, k.fdTable fd' = some i → fd' = fd) (hi : k.fdTable fd = some i) (j : Nat) :
    (k.close fd).isClosed j ↔ j = i ∨ k.isClosed j := by
  unfold Kernel.isClosed
  rw [Kernel.close_accepted]
  by_cases hji : j = i
  · subst hji
    refine iff_of_true ⟨hbelow, ?_⟩ (.inl rfl)
    intro fd' hfd'
    rw [Kernel.close_fdTable] at hfd'
    split at hfd'
    · cases hfd'
    · rename_i hne
      exact hne (hinj hfd')
  · simp only [hji, false_or]
    refine and_congr_right fun _ => forall_congr' fun fd' => ?_
    rw [Kernel.close_fdTable]
    by_cases hfd : fd' = fd
    · rw [if_pos hfd, hfd, hi]
      simp only [ne_eq, reduceCtorEq, not_false_eq_true, Option.some.injEq, true_iff]
      exact Ne.symm hji
    · rw [if_neg hfd]

theorem GuardedBut.drop (hw : GuardedBut env i w) (hi : w.kernel.fdTable fd = some i)
    (hfault : Fault env (w.kernel.sockets i).history) : Guarded env (w.dropConnection fd) := by
  refine ⟨hw.owned.drop, ?_⟩
  intro j hj
  have hj' : j < w.kernel.accepted := by
    rw [← @Kernel.close_accepted fd w.kernel]
    exact hj
  have hclosed := Kernel.close_isClosed (hw.owned.below hi)
    (fun hfd' => hw.owned.injective hfd' hi) hi j
  have hhistory : ((w.dropConnection fd).kernel.sockets j).history = _ := Kernel.close_sockets hi j
  show (w.kernel.close fd).isClosed j ↔ _
  rw [hclosed, hhistory]
  by_cases hji : j = i
  · subst hji
    exact iff_of_true (.inl rfl) hfault
  · simp only [hji, false_or]
    exact hw.faults j hji hj'

theorem Guarded.enter (hw : Guarded env w) (hnew : w.kernel.fdTable fd = none) (h0 : 0 ≤ fd)
    (hapart : fd ≠ w.runtime.listenFd ∧ fd ≠ w.runtime.epollFd ∧
      fd ≠ w.runtime.config.shutdownFd) : Guarded env (w.enter fd) := by
  have hfd : (w.enter fd).kernel.fdTable fd = some w.kernel.accepted := Function.update_self _ _ _
  have hbut : GuardedBut env w.kernel.accepted (w.enter fd) := by
    refine ⟨hw.owned.enter hnew h0 hapart, ?_⟩
    intro j hne hj
    have hlt : j < w.kernel.accepted + 1 := hj
    have hj' : j < w.kernel.accepted := by omega
    have hsocket : (w.enter fd).kernel.sockets j = w.kernel.sockets j :=
      Function.update_of_ne hne _ _
    rw [hsocket, ← hw.faults j hj']
    refine and_congr (iff_of_true hj hj') (forall_congr' fun fd' => ?_)
    rw [World.enter_fdTable]
    by_cases hfd' : fd' = fd
    · rw [hfd', Function.update_self, hnew]
      simp only [ne_eq, Option.some.injEq, reduceCtorEq, not_false_eq_true, iff_true]
      exact Ne.symm hne
    · rw [Function.update_of_ne hfd']
  refine hbut.guarded hfd ?_
  show ¬ Fault env ((Function.update w.kernel.sockets w.kernel.accepted {}) _).history
  rw [Function.update_self]
  exact id

/-- A handler on an open descriptor. -/
theorem onConnection_guarded {α : Type} {m : SessionM α} {post : α → List SocketEvent → Prop}
    (howner : KeepsOwner m)
    (hm : ∀ s, ¬ Fault env s.socket.history →
      m.Ensures Answer.Mild s (fun a s' => post a s'.socket.history) (Healthy env))
    (hw : Guarded env w) (hi : w.kernel.fdTable fd = some i) :
    (onConnection fd m).Ensures Answer.Mild w
      (fun a w' => GuardedBut env i w' ∧ w'.kernel.fdTable fd = some i ∧
        post a (w'.kernel.sockets i).history)
      fun _ w' => Guarded env w' := by
  obtain ⟨c, hc⟩ := hw.owned.connection hi
  obtain ⟨hfd, hid⟩ := hw.owned.entry hc hi
  obtain ⟨s, hs⟩ : ∃ s : Session, s =
      { connection := c
        socket := w.kernel.sockets i
        rng := w.runtime.rng
        recorder := w.runtime.benchmarkRecorder
        shutdownSignals := w.kernel.shutdownSignals
        clock := w.clock } := ⟨_, rfl⟩
  have hget : getSession fd w = some s := by rw [getSession, hc, hi, hs]
  have hput : ∀ s', SameOwner s s' → GuardedBut env i (putSession fd s' w) := by
    intro s' hs'
    rw [hs] at hs'
    exact hw.put hi (hw.owned.put hi (hs'.1.trans hfd) (hs'.2.trans hid))
  have hhistory : ∀ s', ((putSession fd s' w).kernel.sockets i).history = s'.socket.history := by
    intro s'
    rw [putSession_sockets hi, Function.update_self]
  have hhealthy : ¬ Fault env s.socket.history := by
    rw [hs]
    exact hw.healthy hi
  refine ensures_zoom hget (((howner s).restrict.and (hm s hhealthy)).mono ?_ ?_)
  · rintro a s' ⟨hs', hpost⟩
    refine ⟨hput s' hs', hi, ?_⟩
    rw [hhistory]
    exact hpost
  · rintro k s' ⟨⟨-, hs'⟩, hhealthy'⟩
    refine GuardedBut.guarded (hput s' hs') hi ?_
    rw [hhistory]
    exact hhealthy'

theorem closeConnection_guarded (hw : GuardedBut env i w) (hi : w.kernel.fdTable fd = some i)
    (hfault : Fault env (w.kernel.sockets i).history) :
    (closeConnection fd).Ensures Answer.Mild w (fun _ w' => Guarded env w')
      fun _ w' => Guarded env w' := by
  unfold closeConnection
  rw [if_neg (Int.not_lt.mpr (hw.owned.nonneg hi))]
  refine ensures_zoom (t := w) (by simp [hi]) ?_
  exact ensures_modify (hw.drop hi hfault)

/-- A hang-up is noted, and the connection closed. -/
theorem hangUp_guarded (hw : Guarded env w) {event : EpollEvent}
    (hi : w.kernel.fdTable event.fd = some i) :
    (hangUp event).Ensures Answer.Mild w (fun _ w' => Guarded env w')
      fun _ w' => Guarded env w' := by
  refine ensures_bind ?_
  have hnoted := @onConnection_guarded env w event.fd i _ (note (.hungUp event.mask))
    (fun _ history => Fault env history) (keepsOwner_note _)
    (fun s _ => ensures_modify ((fault_snoc _ _).mpr trivial)) hw hi
  refine hnoted.weaken ?_
  rintro _ w1 ⟨hw1, hi1, hfault⟩
  exact closeConnection_guarded hw1 hi1 hfault

theorem registerCall_mild (hs : ¬ Fault env s.socket.history) :
    (ask .epollCtl fun s answer =>
      match answer with
      | .controlled true => some (true,
          { s with socket := { s.socket with interest := some (EPOLLIN ||| EPOLLRDHUP) } })
      | .controlled false => some (false, s)
      | _ => none : SessionM Bool).Ensures Answer.Mild s
      (fun granted s' => granted = true ∧ ¬ Fault env s'.socket.history) (Healthy env) := by
  refine ensures_ask hs ?_
  intro answer granted s' hmild hans
  cases answer with
  | controlled ok =>
      have hok : ok = true := hmild
      subst hok
      cases hans
      exact ⟨rfl, hs⟩
  | _ => cases hans

theorem acceptRound_guarded (hw : Guarded env w) :
    (acceptRound ()).Ensures Answer.Mild w (fun _ w' => Guarded env w')
      fun _ w' => Guarded env w' := by
  refine ensures_bind ?_
  refine ensures_ask hw ?_
  intro answer result w' _ hans
  cases answer with
  | accepted outcome =>
      cases outcome with
      | error errno =>
          cases hans
          exact ensures_pure hw
      | ok fd =>
          simp only at hans
          split at hans
          · rename_i hguard
            obtain ⟨h0, hfd, hapart⟩ := hguard
            cases hans
            refine ensures_bind ?_
            refine ensures_modify ?_
            show Ensures _ _ (w.enter fd) _ _
            have hi : (w.enter fd).kernel.fdTable fd = some w.kernel.accepted :=
              Function.update_self _ _ _
            refine ensures_bind ?_
            have hregister := @onConnection_guarded env (w.enter fd) fd _ _ _
              (fun granted history => granted = true ∧ ¬ Fault env history)
              keepsOwner_register (fun _ => registerCall_mild) (hw.enter hfd h0 hapart) hi
            refine hregister.weaken ?_
            rintro granted w2 ⟨hw2, hi2, rfl, hhealthy⟩
            exact ensures_pure (hw2.guarded hi2 hhealthy)
          · cases hans
  | _ => cases hans

/-- **One event.** -/
theorem handleEvent_guarded (hw : Guarded env w) (event : EpollEvent) :
    (handleEvent env event).Ensures Answer.Mild w (fun _ w' => Guarded env w')
      fun _ w' => Guarded env w' := by
  refine ensures_bind ?_
  refine ensures_read ?_
  split
  · refine ensures_loop (fun _ w' => Guarded env w') productive_acceptRound ?_ hw
    intro _ w1 hw1
    refine (acceptRound_guarded hw1).weaken ?_
    intro r w2 hw2
    cases r with
    | again _ => exact hw2
    | stop _ => exact hw2
  · cases hc : w.runtime.connections event.fd with
    | none => exact ensures_pure hw
    | some c =>
        obtain ⟨i, hi⟩ := hw.owned.descriptor hc
        simp only
        split
        · exact hangUp_guarded hw hi
        · refine ensures_bind ?_
          have hserve := @onConnection_guarded env w event.fd i _
            (serveClient env w.runtime.config w.runtime.campaignStore event.mask)
            (fun close history => close = true ↔ Fault env history)
            (keepsOwner_serveClient event.mask)
            (fun _ hs => serveClient_fault hs event.mask) hw hi
          refine hserve.weaken ?_
          rintro close w1 ⟨hw1, hi1, hfault⟩
          cases close with
          | false => exact ensures_pure (hw1.guarded hi1 fun h => by cases hfault.mpr h)
          | true => exact closeConnection_guarded hw1 hi1 (hfault.mp rfl)

theorem handleBatch_guarded (hw : Guarded env w) (events : List EpollEvent) :
    (handleBatch env events).Ensures Answer.Mild w (fun _ w' => Guarded env w')
      fun _ w' => Guarded env w' := by
  induction events generalizing w with
  | nil => exact ensures_pure hw
  | cons event events ih =>
      refine ensures_bind ?_
      refine ensures_ask hw ?_
      intro answer u w' _ hans
      cases answer with
      | go =>
          cases hans
          refine ensures_bind ?_
          refine ensures_read ?_
          split
          · exact ensures_pure hw
          · refine ensures_bind ?_
            refine (handleEvent_guarded hw event).weaken ?_
            intro _ w1 hw1
            exact ih hw1
      | _ => cases hans

theorem runWorkerLoop_guarded (hw : Guarded env w) :
    (runWorkerLoop env).Ensures Answer.Mild w (fun _ w' => Guarded env w')
      fun _ w' => Guarded env w' := by
  refine ensures_loop (fun _ w' => Guarded env w') (productive_epollRound env) ?_ hw
  intro _ w1 hw1
  refine ensures_bind ?_
  refine ensures_ask hw1 ?_
  intro answer result w' _ hans
  cases answer with
  | events outcome =>
      cases outcome with
      | error errno =>
          cases hans
          exact ensures_pure hw1
      | ok batch =>
          simp only at hans
          split at hans
          · cases hans
            refine ensures_bind ?_
            refine (handleBatch_guarded hw1 batch).weaken ?_
            intro stop w2 hw2
            cases stop with
            | true => exact ensures_pure hw2
            | false => exact ensures_pure hw2
          · cases hans
  | _ => cases hans

/-- **A connection is closed exactly for a fault.** In every run in which no
`write` and no `epoll_ctl` on a connection fails, a socket that was accepted is
closed if and only if what the worker observed on it last is the end of its
stream, a hang-up or an error, or a frame that it cannot admit, parse or
answer. -/
theorem closed_iff_fault (env : Platform) (config : WorkerConfig) (epollFd listenFd : Fd)
    (rng : WorkerRng) (recorder : Option BenchmarkRecorder) (store : CampaignStoreSnapshot)
    (clock : Clock) {is : List Answer} (hmild : ∀ a ∈ is, a.Mild) :
    let w := ((runWorkerLoop env).run
      (bootWorld config epollFd listenFd rng recorder store clock) is).state
    ∀ i, i < w.kernel.accepted → (w.kernel.isClosed i ↔ Fault env (w.kernel.sockets i).history) := by
  have hboot : Guarded env (bootWorld config epollFd listenFd rng recorder store clock) :=
    ⟨owned_boot config epollFd listenFd rng recorder store clock, nofun⟩
  exact ((runWorkerLoop_guarded hboot).state_of_rely hmild).faults

end

/-- Two clients connect, on 5 and 6; the first sends a length of zero, and the
second a request, and then hangs up. -/
def sampleFaultAnswers : List Answer :=
  [.events (.ok [⟨3, EPOLLIN⟩]), .go, .accepted (.ok 5), .controlled true,
    .accepted (.ok 6), .controlled true, .accepted (.error .eagain),
    .events (.ok [⟨5, EPOLLIN⟩, ⟨6, EPOLLIN⟩]), .go, .readBytes (.ok [0, 0, 0, 0]),
    .go, .readBytes (.ok (Framing.frame sampleRequest)), .controlled true,
    .events (.ok [⟨6, EPOLLIN ||| EPOLLRDHUP⟩]), .go]

def sampleFaultWorld : World :=
  ((runWorkerLoop wirePlatform).run
    (bootWorld sampleConfig 4 3 {} none {} { reading := fun _ => 0 }) sampleFaultAnswers).state

/-- Both are closed; what ends their histories is a length that is refused,
and a hang-up. -/
theorem closed_iff_fault_sample :
    (sampleFaultWorld.kernel.sockets 0).history.getLast? = some (.frameChecked .invalidLength) ∧
      sampleFaultWorld.kernel.isClosed 0 ∧
      (sampleFaultWorld.kernel.sockets 1).history.getLast? =
        some (.hungUp (EPOLLIN ||| EPOLLRDHUP)) ∧
      sampleFaultWorld.kernel.isClosed 1 := by
  have hrun : (sampleFaultWorld.kernel.sockets 0).history.getLast? =
      some (.frameChecked .invalidLength) ∧
        (sampleFaultWorld.kernel.sockets 1).history.getLast? =
          some (.hungUp (EPOLLIN ||| EPOLLRDHUP)) ∧
        sampleFaultWorld.kernel.accepted = 2 := by
    decide +kernel
  have hmild : ∀ a ∈ sampleFaultAnswers, a.Mild := by
    simp [sampleFaultAnswers, Answer.Mild]
  have hclosed : ∀ i, i < sampleFaultWorld.kernel.accepted →
      (sampleFaultWorld.kernel.isClosed i ↔
        Fault wirePlatform (sampleFaultWorld.kernel.sockets i).history) :=
    closed_iff_fault wirePlatform sampleConfig 4 3 {} none {} { reading := fun _ => 0 } hmild
  generalize sampleFaultWorld = w at hrun hclosed ⊢
  obtain ⟨hfirst, hsecond, haccepted⟩ := hrun
  refine ⟨hfirst, (hclosed 0 ?_).mpr ?_, hsecond, (hclosed 1 ?_).mpr ?_⟩
  · rw [haccepted]
    decide
  · rw [Fault, hfirst]
  · rw [haccepted]
    decide
  · rw [Fault, hsecond]
    trivial

end RtbEngine
