import RtbEngine.Theorems.Ledger

/-!
# Opening and closing

The parts of the server that open and close descriptors, each said by what it
does to the book of `Ledger`: a call with its interrupts, the start of a
runtime, which keeps all that it opened or nothing, and the shutdown of a
worker, which closes each client and both of its own descriptors once.
-/

namespace RtbEngine

open Lib Exec Relation

/-- A call that may be waited in: it is not on a descriptor of another, and
nothing was written to one. -/
def Safe (k : SystemCall) (p : Process) : Prop :=
  (∀ fd, k ≠ .badDescriptor fd) ∧ p.strayWrites = 0

/-- A relation that interrupts do not end. -/
structure Audited {B : Type} (rel : B → Process → Prop) : Prop where
  interrupt : ∀ {b p a q}, rel b p → p.interrupt a = some q → rel b q
  clean : ∀ {b p}, rel b p → p.strayWrites = 0

section

variable {host : Host} {config : ServerConfig} {base : Finset Fd} {b : Book} {shutdownFd : Fd}

theorem audited_ledger : Audited (Ledger base) where
  interrupt h hq := h.interrupted (h.interrupt hq)
  clean h := h.strayWrites

/-- A call with its interrupts. -/
theorem tracks_call {α B : Type} {rel : B → Process → Prop} (hrel : Audited rel) {b : B}
    {k : SystemCall} {answer : Process → SystemAnswer → Option (α × Process)} {post : α → B → Prop}
    (hk : ∀ fd, k ≠ .badDescriptor fd)
    (h : ∀ p a x q, rel b p → answer p a = some (x, q) → ∃ b', post x b' ∧ rel b' q) :
    Tracks rel Safe b (systemCall k answer) post := by
  refine tracks_loop (fun _ b' => b' = b) (fun _ => (consumes_ask _ _).productive) ?_ rfl
  rintro _ b' rfl
  refine tracks_ask (fun p hp => ⟨hk, hrel.clean hp⟩) ?_
  intro p a turn q hp hans
  cases hint : p.interrupt a with
  | some interrupted =>
      simp only [hint] at hans
      cases hans
      exact ⟨b', rfl, hrel.interrupt hp hint⟩
  | none =>
      simp only [hint] at hans
      obtain ⟨⟨x, q'⟩, hx, hq⟩ := Option.map_eq_some_iff.mp hans
      cases hq
      exact h p a x q' hp hx

/-! ## Calls -/

/-- The program ends with the book that `f` gives. -/
abbrev Books {α : Type} (base : Finset Fd) (b : Book) (m : ProcessM α) (f : α → Book) : Prop :=
  Tracks (Ledger base) Safe b m fun a b' => b' = f a

theorem books_succeeds {k : SystemCall} (hk : ∀ fd, k ≠ .badDescriptor fd) :
    Books base b (succeeds k) fun _ => b := by
  refine tracks_call audited_ledger hk ?_
  intro p a x q hp hans
  cases a with
  | result ok =>
      cases hans
      exact ⟨b, rfl, hp⟩
  | _ => cases hans

theorem books_logError (text : Bytes) : Books base b (logError text) fun _ => b :=
  tracks_modify (fun _ hp => { hp with apart := hp.apart.same rfl rfl }) rfl

theorem books_print (text : Bytes) :
    Books base b (print text) fun _ => { b with stdout := b.stdout ++ text } := by
  refine tracks_modify (fun p hp => ?_) rfl
  exact
    { hp with
      apart := hp.apart.same rfl rfl
      stdout := congrArg (· ++ text) hp.stdout }

theorem books_attempt {calls : List (SystemCall × Bytes)}
    (hcalls : ∀ call ∈ calls, ∀ fd, call.1 ≠ .badDescriptor fd) :
    Books base b (attempt calls) fun _ => b := by
  induction calls with
  | nil => exact tracks_pure rfl
  | cons call calls ih =>
      refine tracks_bind (books_succeeds (hcalls call List.mem_cons_self)) ?_
      rintro ok b' rfl
      refine tracks_ite (fun _ => ih fun c hc => hcalls c (List.mem_cons_of_mem _ hc)) fun _ => ?_
      refine tracks_bind (books_logError _) ?_
      rintro _ b' rfl
      exact tracks_pure rfl

theorem books_loadSnapshot (path : Bytes) : Books base b (loadSnapshot host path) fun _ => b := by
  refine tracks_bind (r := fun _ b' => b' = b) (tracks_call audited_ledger nofun ?_) ?_
  · intro p a x q hp hans
    cases a with
    | file content =>
        cases hans
        exact ⟨b, rfl, hp⟩
    | _ => cases hans
  · rintro input b' rfl
    cases loadCampaignStoreSnapshot host.extract input with
    | some store => exact tracks_pure rfl
    | none =>
        refine tracks_bind (books_logError _) ?_
        rintro _ b' rfl
        refine tracks_bind (books_logError _) ?_
        rintro _ b' rfl
        exact tracks_pure rfl

/-! ## Descriptors -/

theorem tracks_openDescriptor {k : SystemCall} (hk : ∀ fd, k ≠ .badDescriptor fd) :
    Tracks (Ledger base) Safe b (openDescriptor k) fun opened b' =>
      (∀ fd, opened = some fd → 0 ≤ fd) ∧
        b' = { b with pending := (opened.toList : Multiset Fd) + b.pending } := by
  refine tracks_call audited_ledger hk ?_
  intro p a x q hp hans
  cases a with
  | descriptor result =>
      cases result with
      | none =>
          cases hans
          refine ⟨b, ⟨nofun, ?_⟩, hp⟩
          simp
      | some fd =>
          simp only at hans
          split at hans
          · rename_i hfresh
            cases hans
            refine ⟨_, ⟨?_, rfl⟩, hp.opened hfresh.2⟩
            rintro _ ⟨⟩
            exact hfresh.1
          · cases hans
  | _ => cases hans

/-- A descriptor that the book has as `pending`. -/
theorem books_closeDescriptor {fd : Fd} {rest : Multiset Fd} :
    Books base { b with pending := fd ::ₘ rest } (closeDescriptor none fd) fun _ =>
      { b with pending := rest } := by
  intro p hp
  refine ensures_bind ?_
  refine ensures_read ?_
  have hholds : p.holds none fd = true := by
    have hmem := hp.pending_mem (Multiset.mem_cons_self fd rest)
    simp [Process.holds, hmem]
  rw [if_pos hholds]
  refine tracks_call audited_ledger (fun _ h => by cases h) ?_ p hp
  intro p a x q hp hans
  cases a with
  | result ok =>
      cases hans
      exact ⟨_, rfl, hp.close_pending⟩
  | _ => cases hans

theorem books_closeAll (fds : List Fd) {rest : Multiset Fd} :
    Books base { b with pending := (fds : Multiset Fd) + rest } (closeAll none fds) fun _ =>
      { b with pending := rest } := by
  induction fds with
  | nil => exact tracks_pure (by simp)
  | cons fd fds ih =>
      rw [← Multiset.cons_coe, Multiset.cons_add]
      refine tracks_bind books_closeDescriptor ?_
      rintro _ b' rfl
      exact ih

/-! ## Runtimes -/

/-- `initialize_worker_runtime` leaves a runtime that owns what it opened, or
nothing. -/
theorem tracks_initializeWorkerRuntime (hevent : b.event = some shutdownFd) (workerId : Nat)
    (port : UInt16) (path : Bytes) (recorder : Option BenchmarkRecorder)
    (store : CampaignStoreSnapshot) :
    Tracks (Ledger base) Safe b
      (initializeWorkerRuntime host workerId { shutdownFd } port path recorder (some store))
      fun result b' =>
        match result with
        | none => b' = b
        | some world => Worker.Fresh store shutdownFd { world } ∧
            b' = { b with pending := Worker.own { world } + b.pending } := by
  have hset : ∀ fd : Fd, 0 ≤ fd → closesIfSet fd = [fd] := fun fd hfd => if_pos hfd
  unfold initializeWorkerRuntime
  refine tracks_bind (r := fun _ b' => b' = b) (tracks_read fun _ _ => rfl) ?_
  rintro p0 b rfl
  generalize (p0.clocks workerId).nowNs = reading
  obtain ⟨now, clock⟩ := reading
  simp only [pure_bind]
  refine tracks_bind (tracks_openDescriptor (fun _ => nofun)) ?_
  rintro opened b1 ⟨hopened, rfl⟩
  cases opened with
  | none => exact tracks_pure (by simp)
  | some listenFd =>
      have hlisten := hset listenFd (hopened listenFd rfl)
      refine tracks_bind (books_attempt (by simp)) ?_
      rintro ready b2 rfl
      -- what a failure after this point closes
      have habandon : ∀ runtime : WorkerRuntime, ∀ b2 : Book, ∀ opened : List Fd,
          closesIfSet runtime.listenFd ++ closesIfSet runtime.epollFd = opened →
          b2 = { b with pending := (opened : Multiset Fd) + b.pending } →
          Tracks (Ledger base) Safe b2
            (abandonRuntime runtime >>= fun _ => (pure none : ProcessM (Option World)))
            fun result b' =>
              match result with
              | none => b' = b
              | some world => Worker.Fresh store shutdownFd { world } ∧
                  b' = { b with pending := Worker.own { world } + b.pending } := by
        rintro runtime b2 opened hopened rfl
        have hclosed : (shutdownWorkerRuntime runtime []).1 = opened := hopened
        unfold abandonRuntime
        rw [hclosed]
        refine tracks_bind (books_closeAll opened) ?_
        rintro _ b3 rfl
        exact tracks_pure rfl
      refine tracks_ite (fun _ => ?_) fun _ => ?_
      · refine tracks_bind (tracks_openDescriptor (fun _ => nofun)) ?_
        rintro opened b3 ⟨hopened', rfl⟩
        cases opened with
        | none =>
            refine tracks_bind (books_logError _) ?_
            rintro _ b4 rfl
            refine habandon _ _ [listenFd] ?_ ?_
            · show closesIfSet listenFd ++ closesIfSet (-1) = _
              rw [hlisten]
              rfl
            · simp
        | some epollFd =>
            have hepoll := hset epollFd (hopened' epollFd rfl)
            refine tracks_bind (books_attempt ?_) ?_
            · split <;> simp
            rintro ready b4 rfl
            have hown : ([listenFd, epollFd] : List Fd) = closesIfSet listenFd ++ closesIfSet epollFd := by
              rw [hlisten, hepoll]
              rfl
            have hpending : ((some epollFd).toList : Multiset Fd) +
                (((some listenFd).toList : Multiset Fd) + b.pending) =
                (([listenFd, epollFd] : List Fd) : Multiset Fd) + b.pending := by
              rw [← add_assoc, add_comm ((some epollFd).toList : Multiset Fd)]
              rfl
            refine tracks_ite (fun _ => tracks_pure ⟨?_, ?_⟩) fun _ => ?_
            · exact ⟨epollFd, listenFd, _, recorder, clock, rfl⟩
            · show ({ b with pending := _ } : Book) = _
              rw [hpending, hown]
              rfl
            · refine habandon _ _ [listenFd, epollFd] hown.symm ?_
              rw [hpending]
      · refine habandon _ _ [listenFd] ?_ ?_
        · show closesIfSet listenFd ++ closesIfSet (-1) = _
          rw [hlisten]
          rfl
        · simp

/-- The loop over the worker ids. -/
theorem tracks_startWorkers {store : CampaignStoreSnapshot} (hevent : b.event = some shutdownFd)
    (hleaving : b.leaving = fun _ => none) (ids : List Nat) :
    Tracks (Ledger base) Safe b (startWorkers host config store shutdownFd ids) fun started b' =>
      ∃ n, b' = { b with workers := n } ∧ (started = true → n = b.workers + ids.length) := by
  induction ids generalizing b with
  | nil => exact tracks_pure ⟨b.workers, rfl, fun _ => rfl⟩
  | cons workerId more ih =>
      refine tracks_bind (r := fun _ b' => b' = b) (tracks_read fun _ _ => rfl) ?_
      rintro p0 b rfl
      refine tracks_bind (tracks_initializeWorkerRuntime hevent workerId _ _ _ store) ?_
      intro result b1 hresult
      cases result with
      | none =>
          obtain rfl := hresult
          exact tracks_pure ⟨b1.workers, rfl, nofun⟩
      | some world =>
          obtain ⟨hfresh, rfl⟩ := hresult
          have hbooted : Books base { b with pending := Worker.own { world } + b.pending }
              (modify fun p => { p with workers := p.workers ++ [{ world }] })
              fun _ => { b with workers := b.workers + 1 } := by
            refine tracks_modify (fun p hp => ?_) rfl
            exact hp.booted hfresh hevent (by rw [hleaving])
          refine tracks_bind hbooted ?_
          rintro _ b2 rfl
          refine (@ih { b with workers := b.workers + 1 } hevent hleaving).mono ?_
          rintro started b3 ⟨n, rfl, hn⟩
          refine ⟨n, rfl, fun hstarted => ?_⟩
          rw [hn hstarted, List.length_cons]
          exact Nat.add_right_comm _ _ _

/-! ## Shutting a worker down -/

theorem worker_own_cleared (runtime : WorkerRuntime) (fds : List Fd) (worker : Worker) :
    (worker.clear (shutdownWorkerRuntime runtime fds).2).own = 0 := by
  show ((closesIfSet (if runtime.listenFd ≥ 0 then -1 else _) ++
    closesIfSet (if runtime.epollFd ≥ 0 then -1 else _) : List Fd) : Multiset Fd) = 0
  rw [closesIfSet_reset, closesIfSet_reset]
  rfl

/-- The `i`-th worker while its descriptors are closed: as it will be, the
clients that are left of it come first. -/
def Closing (base : Finset Fd) (b : Book) (i : Nat) (runtime : WorkerRuntime) (fds : List Fd)
    (p : Process) : Prop :=
  ∃ clients own : List Fd, fds = clients ++ own ∧ clients.Nodup ∧
    Ledger base
      { b with
        pending := (own : Multiset Fd) + b.pending
        leaving := Function.update b.leaving i (some clients) }
      (p.modifyWorker i (Worker.clear runtime))

theorem audited_closing {i : Nat} {runtime : WorkerRuntime} : Audited (Closing base b i runtime) where
  interrupt := by
    rintro fds p a q ⟨clients, own, hfds, hnodup, hledger⟩ hq
    refine ⟨clients, own, hfds, hnodup, ?_⟩
    have hinterrupted : Interrupted p q := by
      refine interrupted_of_interrupt ?_ ?_ hq
      · rw [show p.shutdownEventFd = b.shutdownEventFd from hledger.shutdownEventFd,
          show p.eventFd = b.event from hledger.eventFd]
        exact hledger.reach
      · rw [show p.eventFd = b.event from hledger.eventFd]
        exact hledger.timer.imp_right And.right
    exact hledger.interrupted (hinterrupted.modifyWorker i _)
  clean := by
    rintro fds p ⟨clients, own, hfds, hnodup, hledger⟩
    exact hledger.strayWrites

/-- Closing and clearing in the other order. -/
theorem clear_close (p : Process) (i : Nat) (runtime : WorkerRuntime) (fd : Fd) :
    (p.close (some i) fd).modifyWorker i (Worker.clear runtime) =
      ((p.modifyWorker i (Worker.clear runtime)).close none fd).modifyWorker i (Worker.close fd) := by
  simp only [Process.close, Process.modifyWorker, List.modify_modify_eq]
  rfl

/-- A descriptor that no one has is closed: nothing changes. -/
theorem close_absent {p : Process} {fd : Fd} (hfd : fd ∉ p.descriptors) (hevent : p.eventFd ≠ some fd) :
    p.close none fd = p := by
  simp only [Process.close, Finset.erase_eq_of_notMem hfd, if_neg hevent]

theorem Worker.Leaving.close {worker : Worker} {clients clients' : List Fd} {fd : Fd}
    (h : worker.Leaving clients) (hless : ∀ fd', fd' ∈ clients' ↔ fd' ≠ fd ∧ fd' ∈ clients) :
    (worker.close fd).Leaving clients' := by
  refine ⟨rfl, h.own, fun fd' => ?_⟩
  show ((worker.world.kernel.close fd).fdTable fd').isSome = true ↔ _
  rw [Kernel.close_fdTable, hless, ← h.clients]
  by_cases hfd : fd' = fd
  · simp [hfd]
  · simp [hfd, Worker.Serves]

/-- A descriptor of a worker that is shut down. -/
theorem Ledger.leave_close {i : Nat} {worker : Worker} {clients clients' : List Fd} {fd : Fd}
    {p : Process}
    (h : Ledger base { b with leaving := Function.update b.leaving i (some clients) } p)
    (hworker : p.workers[i]? = some worker)
    (hless : ∀ fd', fd' ∈ clients' ↔ fd' ≠ fd ∧ fd' ∈ clients) (hi : i < b.workers) :
    Ledger base { b with leaving := Function.update b.leaving i (some clients') }
      (p.modifyWorker i (Worker.close fd)) := by
  have hleaving : worker.Leaving clients := by
    have hfits := h.crew i worker hworker
    simpa [Worker.Fits] using hfits
  have hleft : Ledger base
      { b with leaving := Function.update (Function.update b.leaving i (some clients)) i (some clients') }
      (p.modifyWorker i (Worker.close fd)) := by
    refine h.leave ?_ hi
    intro old hold
    cases hworker.symm.trans hold
    exact ⟨hleaving.close hless, fun _ => Worker.serves_close, rfl⟩
  rwa [Function.update_idem] at hleft

/-- One descriptor less. -/
theorem Closing.close {i : Nat} {runtime : WorkerRuntime} {fd : Fd} {fds : List Fd} {p : Process}
    (h : Closing base b i runtime (fd :: fds) p) (hi : i < b.workers) :
    p.holds (some i) fd = true ∧ Closing base b i runtime fds (p.close (some i) fd) := by
  obtain ⟨clients, own, hfds, hnodup, hledger⟩ := h
  obtain ⟨worker, hworker⟩ : ∃ worker, p.workers[i]? = some worker := by
    have hlength : p.workers.length = b.workers :=
      (List.length_modify _ _ _).symm.trans hledger.workers
    exact ⟨_, List.getElem?_eq_getElem (hlength ▸ hi)⟩
  have hcleared : (p.modifyWorker i (Worker.clear runtime)).workers[i]? =
      some (worker.clear runtime) := by
    rw [Process.modifyWorker, List.getElem?_modify_eq, hworker]
    rfl
  have hleaving : (worker.clear runtime).Leaving clients := by
    have hfits := hledger.crew i _ hcleared
    simpa [Worker.Fits] using hfits
  cases clients with
  | cons client clients =>
      obtain ⟨rfl, rfl⟩ := List.cons.inj hfds
      have hserves : worker.Serves fd := (hleaving.clients fd).mpr List.mem_cons_self
      have hclosed : fd ∉ p.descriptors :=
        hledger.apart.process (List.mem_of_getElem? hcleared) hserves
      have hother : p.eventFd ≠ some fd := by
        intro hevent
        exact hclosed (hledger.event_mem (hledger.eventFd.symm.trans hevent))
      refine ⟨?_, clients, own, rfl, hnodup.of_cons, ?_⟩
      · have hopen : (worker.world.kernel.fdTable fd).isSome = true := hserves
        simp [Process.holds, hworker, hopen]
      · rw [clear_close, @close_absent (p.modifyWorker i (Worker.clear runtime)) fd hclosed hother]
        refine @Ledger.leave_close base { b with pending := (own : Multiset Fd) + b.pending } i _ _ _ _ _
          hledger hcleared ?_ hi
        intro fd'
        rw [List.mem_cons]
        constructor
        · intro hmem
          refine ⟨?_, .inr hmem⟩
          rintro rfl
          exact (List.nodup_cons.mp hnodup).1 hmem
        · rintro ⟨hne, rfl | hmem⟩
          · exact absurd rfl hne
          · exact hmem
  | nil =>
      cases own with
      | nil => cases hfds
      | cons fd' own =>
          obtain ⟨rfl, rfl⟩ := List.cons.inj hfds
          have hpending : ((fd :: fds : List Fd) : Multiset Fd) + b.pending =
              fd ::ₘ ((fds : Multiset Fd) + b.pending) := by
            rw [← Multiset.cons_coe, Multiset.cons_add]
          rw [hpending] at hledger
          refine ⟨?_, [], fds, rfl, List.nodup_nil, ?_⟩
          · have hmem : fd ∈ p.descriptors := hledger.pending_mem (Multiset.mem_cons_self fd _)
            simp [Process.holds, hmem]
          · rw [clear_close]
            have hless := @Ledger.close_pending base
              { b with leaving := Function.update b.leaving i (some []) } _ fd _ hledger
            refine @Ledger.leave_close base { b with pending := (fds : Multiset Fd) + b.pending } i _ _ _
              _ _ hless hcleared ?_ hi
            simp

theorem tracks_closeClosing {i : Nat} {runtime : WorkerRuntime} (hi : i < b.workers) (fds : List Fd) :
    Tracks (Closing base b i runtime) Safe fds (closeAll (some i) fds) fun _ fds' => fds' = [] := by
  induction fds with
  | nil => exact tracks_pure rfl
  | cons fd fds ih =>
      refine tracks_bind (r := fun _ fds' => fds' = fds) ?_ ?_
      · intro p hp
        refine ensures_bind ?_
        refine ensures_read ?_
        rw [if_pos (hp.close hi).1]
        refine tracks_call audited_closing (fun _ h => by cases h) ?_ p hp
        intro p a x q hp hans
        cases a with
        | result ok =>
            cases hans
            exact ⟨fds, rfl, (hp.close hi).2⟩
        | _ => cases hans
      · rintro _ fds rfl
        exact ih

/-- The entries of the `i`-th worker, once they are listed. -/
def Listed (base : Finset Fd) (b : Book) (i : Nat) (listed : Option (List Fd)) (p : Process) : Prop :=
  Ledger base b p ∧ ∀ fds, listed = some fds →
    ∃ worker, p.workers[i]? = some worker ∧ Enumerates fds worker.world

theorem audited_listed {i : Nat} : Audited (Listed base b i) where
  interrupt := by
    rintro listed p a q ⟨hledger, hentries⟩ hq
    refine ⟨audited_ledger.interrupt hledger hq, ?_⟩
    rw [(interrupt_some hq).1]
    exact hentries
  clean h := h.1.strayWrites

theorem tracks_connectionEntries {i : Nat} (hleaving : b.leaving i = none) :
    Tracks (Listed base b i) Safe none (connectionEntries i) fun fds listed => listed = some fds := by
  refine tracks_call audited_listed (fun _ h => by cases h) ?_
  rintro p a fds q ⟨hledger, -⟩ hans
  split at hans
  · rename_i fds' worker hworker
    simp only at hans
    split at hans
    · rename_i hvalid
      obtain ⟨hnodup, hentry, hall⟩ := hvalid
      cases hans
      refine ⟨some fds, rfl, hledger, ?_⟩
      rintro _ ⟨⟩
      have hserving : worker.Serving b.event := by
        have hfits := hledger.crew i worker hworker
        rwa [hleaving] at hfits
      refine ⟨worker, hworker, hnodup, fun fd => ⟨hentry fd, fun hsome => ?_⟩⟩
      have hserves : worker.Serves fd := (hserving.owned.entered fd).symm.trans hsome
      exact hall fd (hserving.known fd hserves) hsome
    · cases hans
  · cases hans

/-- The closing begins with all clients and both descriptors of the worker. -/
theorem Ledger.closing {i : Nat} {worker : Worker} {fds : List Fd} {p : Process}
    (h : Ledger base b p) (hworker : p.workers[i]? = some worker) (hleaving : b.leaving i = none)
    (hfds : Enumerates fds worker.world) (hi : i < b.workers) :
    Closing base b i (shutdownWorkerRuntime worker.world.runtime fds).2
      (shutdownWorkerRuntime worker.world.runtime fds).1 p := by
  have hserving : worker.Serving b.event := by
    have hfits := h.crew i worker hworker
    rwa [hleaving] at hfits
  refine ⟨fds, closesIfSet worker.world.runtime.listenFd ++ closesIfSet worker.world.runtime.epollFd,
    ?_, hfds.nodup, h.leave ?_ hi⟩
  · rw [shutdown_closes hserving.owned hfds, List.append_assoc]
  · intro old hold
    cases hworker.symm.trans hold
    refine ⟨⟨rfl, worker_own_cleared _ _ _, fun fd => ?_⟩, fun _ hserves => hserves, ?_⟩
    · show (worker.world.kernel.fdTable fd).isSome = true ↔ fd ∈ fds
      rw [← hserving.owned.entered, hfds.complete]
    · rw [worker_own_cleared]
      exact zero_add _

theorem books_shutdownWorker {i : Nat} (hleaving : b.leaving i = none) (hi : i < b.workers) :
    Books base b (shutdownWorker i) fun _ =>
      { b with leaving := Function.update b.leaving i (some []) } := by
  intro p hp
  refine ensures_bind ?_
  refine (tracks_connectionEntries hleaving p ⟨hp, nofun⟩).weaken ?_
  rintro fds p ⟨listed, rfl, hledger, hentries⟩
  obtain ⟨worker, hworker, hfds⟩ := hentries fds rfl
  refine ensures_bind ?_
  refine ensures_read ?_
  simp only [hworker]
  refine ensures_bind ?_
  refine (tracks_closeClosing hi _ p (hledger.closing hworker hleaving hfds hi)).weaken ?_
  rintro _ q ⟨_, rfl, clients, own, hnone, -, hledger⟩
  obtain ⟨rfl, rfl⟩ := List.append_eq_nil_iff.mp hnone.symm
  refine ensures_modify ⟨_, rfl, ?_⟩
  have hpending : (([] : List Fd) : Multiset Fd) + b.pending = b.pending := zero_add _
  rwa [hpending] at hledger

theorem books_shutdownWorkers {ids : List Nat} (hnodup : ids.Nodup)
    (hids : ∀ i ∈ ids, b.leaving i = none ∧ i < b.workers) :
    Books base b (shutdownWorkers ids) fun _ =>
      { b with leaving := fun i => if i ∈ ids then some [] else b.leaving i } := by
  induction ids generalizing b with
  | nil => exact tracks_pure (by simp)
  | cons i more ih =>
      obtain ⟨hleaving, hi⟩ := hids i List.mem_cons_self
      obtain ⟨hnew, hmore⟩ := List.nodup_cons.mp hnodup
      refine tracks_bind (books_shutdownWorker hleaving hi) ?_
      rintro _ b1 rfl
      refine (@ih { b with leaving := Function.update b.leaving i (some []) } hmore ?_).mono ?_
      · intro j hj
        have hne : j ≠ i := by
          rintro rfl
          exact hnew hj
        refine ⟨?_, (hids j (List.mem_cons_of_mem _ hj)).2⟩
        show Function.update b.leaving i (some []) j = none
        rw [Function.update_of_ne hne]
        exact (hids j (List.mem_cons_of_mem _ hj)).1
      · rintro _ b2 rfl
        have hall : (fun j => if j ∈ more then some [] else Function.update b.leaving i (some []) j) =
            fun j => if j ∈ i :: more then some [] else b.leaving j := by
          funext j
          by_cases hj : j = i
          · simp [hj]
          · simp [hj]
        exact congrArg (fun leaving => ({ b with leaving } : Book)) hall

/-- Every worker is shut down. -/
theorem books_shutdownAll (hleaving : b.leaving = fun _ => none) :
    Books base b shutdownAll fun _ =>
      { b with leaving := fun i => if i < b.workers then some [] else none } := by
  refine tracks_bind (r := fun p b' => p.workers.length = b.workers ∧ b' = b)
    (tracks_read fun p hp => ⟨hp.workers, rfl⟩) ?_
  rintro p b ⟨hlength, rfl⟩
  rw [hlength]
  refine (books_shutdownWorkers List.nodup_range ?_).mono ?_
  · intro i hi
    rw [hleaving]
    exact ⟨rfl, List.mem_range.mp hi⟩
  · rintro _ b' rfl
    simp [hleaving]

end

end RtbEngine
