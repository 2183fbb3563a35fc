import RtbEngine.Logic.Process

/-!
# Why the server stops

The threads share one recorder and one event counter. In every run the
recorder has as many requests as responses were staged by all workers, and no
worker leaves its loop before a signal came, the timer expired or the limit of
requests was reached.
-/

namespace RtbEngine

open Lib Exec Relation

section

variable {env : Platform} {store : CampaignStoreSnapshot} {shutdownFd : Fd} {p q : Process}
  {config : ServerConfig}

/-! ## The tables of each worker -/

theorem Owned.load {w : World} (hw : Owned w) (recorder : Option BenchmarkRecorder)
    (shutdownSignals : Nat) : Owned (w.load recorder shutdownSignals) :=
  ⟨⟨hw.nextId, hw.below, hw.injective, hw.nonneg, hw.entered⟩, hw.entry, hw.apart⟩

/-- The tables of a worker agree, and its own descriptors are those it was
started with, until it is shut down. -/
def Worker.Sound (shutdownFd : Fd) (worker : Worker) : Prop :=
  worker.standing = .shutDown ∨
    (Owned worker.world ∧ worker.world.runtime.config.shutdownFd = shutdownFd)

theorem Worker.Sound.stage {worker : Worker} (h : worker.Sound shutdownFd) {stage : Stage}
    (hready : worker.standing = .ready stage) {recorder : Option BenchmarkRecorder}
    {shutdownSignals : Nat} {answers : List Answer} {w' : World} {standing : Standing}
    (hend : StageEnd env (worker.world.load recorder shutdownSignals) answers stage w' standing) :
    Shares (worker.world.load recorder shutdownSignals) w' ∧ w'.runtime.config.shutdownFd = shutdownFd := by
  rcases h with hdown | ⟨howned, hfd⟩
  · rw [hready] at hdown
    cases hdown
  · have hshares := shares_next env stage (howned.load recorder shutdownSignals) answers
    rw [hend.state] at hshares
    refine ⟨hshares, ?_⟩
    rw [hshares.worker.2.2]
    exact hfd

theorem local_sound : Local env store shutdownFd (Worker.Sound shutdownFd) where
  fresh h := by
    obtain ⟨epollFd, listenFd, rng, recorder, clock, rfl⟩ := h
    exact .inr ⟨owned_boot _ _ _ _ _ _ _, rfl⟩
  shutDown h := .inl h
  stage accepted h hready hend := .inr ⟨(h.stage hready hend).1.owned, (h.stage hready hend).2⟩
  ended h hready := by
    rcases h with hdown | hsound
    · rw [hready] at hdown
      cases hdown
    · exact .inr hsound

/-! ## Counting -/

/-- The responses staged by all workers. -/
def Process.staged (p : Process) : Nat :=
  (p.workers.map fun worker => worker.world.kernel.stagedTotal).sum

/-- The recorder is there for a benchmark, has the limit that was asked for,
and has counted what all workers staged. -/
structure Accounted (config : ServerConfig) (p : Process) : Prop where
  present : p.recorder.isSome = config.benchmark
  limit : ∀ recorder, p.recorder = some recorder → recorder.requestLimit = config.benchmarkRequests
  counted : ∀ recorder, p.recorder = some recorder → recorder.completedRequests = p.staged

/-- Nothing about the recorder and the responses has changed. -/
theorem Accounted.same (h : Accounted config p) (hrecorder : q.recorder = p.recorder)
    (hstaged : q.staged = p.staged) : Accounted config q := by
  refine ⟨?_, ?_, ?_⟩
  · rw [hrecorder]
    exact h.present
  · rw [hrecorder]
    exact h.limit
  · rw [hrecorder, hstaged]
    exact h.counted

theorem staged_of_workers (h : q.workers = p.workers) : q.staged = p.staged := by
  rw [Process.staged, h]
  rfl

/-- What a stage records is what it stages. -/
theorem Accounted.stage (h : Accounted config p) {i : Nat} {worker : Worker}
    (hi : p.workers[i]? = some worker) {w' : World}
    (hshares : Shares (worker.world.load p.recorder p.shutdownSignals) w') (standing : Standing)
    (accepted : List Fd) : Accounted config (p.store i ⟨w', standing, accepted⟩) := by
  obtain ⟨timings, hrecorder, hstaged⟩ := hshares.recorded
  obtain ⟨hworkers, hstored, -, -⟩ := p.store_fields i ⟨w', standing, accepted⟩
  have hextended : (p.store i ⟨w', standing, accepted⟩).recorder = p.recorder.map (·.extend timings) :=
    hstored.trans hrecorder
  have hsum : (p.store i ⟨w', standing, accepted⟩).staged = p.staged + timings.length := by
    have hmodified := sum_map_modify (fun worker => worker.world.kernel.stagedTotal)
      (fun _ => (⟨w', standing, accepted⟩ : Worker)) hi
    have hloaded : w'.kernel.stagedTotal = worker.world.kernel.stagedTotal + timings.length := hstaged
    rw [Process.staged, hworkers]
    simp only at hmodified
    rw [hloaded] at hmodified
    have htotal : p.staged = (p.workers.map fun worker => worker.world.kernel.stagedTotal).sum := rfl
    omega
  refine ⟨?_, ?_, ?_⟩
  · rw [hextended, Option.isSome_map]
    exact h.present
  · intro recorder hsome
    obtain ⟨r, hr, rfl⟩ := Option.map_eq_some_iff.mp (hextended.symm.trans hsome)
    exact h.limit r hr
  · intro recorder hsome
    obtain ⟨r, hr, rfl⟩ := Option.map_eq_some_iff.mp (hextended.symm.trans hsome)
    rw [hsum, ← h.counted r hr]
    exact List.length_append

theorem Accounted.step (h : Accounted config p) (hsound : ∀ worker ∈ p.workers, worker.Sound shutdownFd)
    (hstep : ProcessStep env store shutdownFd p q) : Accounted config q := by
  cases hstep with
  | quiet hquiet => exact h.same hquiet.recorder (staged_of_workers hquiet.workers)
  | opened fd hfree => exact h.same rfl rfl
  | closed owner fd =>
      refine h.same (p.close_recorder owner fd).1 ?_
      cases owner with
      | none => rfl
      | some i =>
          exact congrArg List.sum (map_modify_same _ (Worker.close fd)
            (fun worker => worker.world.kernel.stagedTotal_close fd) _ _)
  | interrupted a hint =>
      obtain ⟨hworkers, hrecorder, -, -, -⟩ := interrupt_some hint
      exact h.same hrecorder (staged_of_workers hworkers)
  | thread i answers hthread =>
      obtain ⟨worker, hi, hthread⟩ := runThread_some hthread
      cases hthread with
      | stage stage w' standing hready hallowed hend =>
          have hworker := hsound worker (List.mem_of_getElem? hi)
          exact h.stage hi (hworker.stage hready hend).1 standing _
      | ended n hready =>
          obtain ⟨hworkers, hrecorder, -, -, -⟩ := p.endThread_fields i worker n
          refine h.same hrecorder ?_
          have hmodified := sum_map_modify (fun worker => worker.world.kernel.stagedTotal)
            (fun _ => { worker with standing := .exited }) hi
          rw [Process.staged, hworkers]
          exact Nat.add_right_cancel hmodified
  | booted worker hfresh =>
      refine h.same rfl ?_
      obtain ⟨epollFd, listenFd, rng, recorder, clock, rfl⟩ := hfresh
      rw [Process.staged, List.map_append, List.sum_append]
      rfl
  | cleared i runtime =>
      refine h.same rfl ?_
      exact congrArg List.sum (map_modify_same _ (Worker.clear runtime) (fun _ => rfl) _ _)

/-! ## Reasons -/

/-- The event of the shutdown descriptor is in the batch of a thread, or the
thread has left its loop for it. -/
def Standing.Sees (shutdownFd : Fd) : Standing → Prop
  | .ready stage => (∃ event ∈ stage.pending, event.fd = shutdownFd) ∨ stage.hasReturned = true
  | .exited => True
  | _ => False

/-- A signal came or the timer expired, or the limit was reached. -/
def Process.Cause (p : Process) : Prop :=
  0 < p.stopRequests ∨ p.recorder.any (·.requestLimitReached) = true

/-- The counter was written for a cause, and no thread stops before that. -/
structure Warranted (shutdownFd : Fd) (p : Process) : Prop where
  cause : 0 < p.shutdownSignals → p.Cause
  woken : ∀ worker ∈ p.workers, worker.standing.Sees shutdownFd → 0 < p.shutdownSignals

theorem Warranted.same (h : Warranted shutdownFd p) (hworkers : q.workers = p.workers)
    (hrecorder : q.recorder = p.recorder) (hstops : q.stopRequests = p.stopRequests)
    (hsignals : q.shutdownSignals = p.shutdownSignals) : Warranted shutdownFd q := by
  refine ⟨?_, ?_⟩
  · unfold Process.Cause
    rw [hsignals, hstops, hrecorder]
    exact h.cause
  · rw [hworkers, hsignals]
    exact h.woken

/-- The count after a stage: what the stage left, or what was there. -/
theorem Process.store_signals (p : Process) (i : Nat) (worker : Worker)
    (h : p.shutdownSignals ≤ worker.world.kernel.shutdownSignals) :
    (p.store i worker).shutdownSignals = worker.world.kernel.shutdownSignals ∨
      (p.store i worker).shutdownSignals = p.shutdownSignals := by
  unfold Process.store
  simp only
  split
  · exact .inl (Nat.add_sub_of_le h)
  · exact .inr rfl

/-- A stage sees the event of the descriptor only when it was allowed to. -/
theorem sees_of_stage {worker : Worker} {stage : Stage} (hready : worker.standing = .ready stage)
    (hfd : worker.world.runtime.config.shutdownFd = shutdownFd) {answers : List Answer}
    (hallowed : ∀ a ∈ answers, p.allows worker.world.runtime.config.shutdownFd a = true)
    {w' : World} {standing : Standing}
    (hend : StageEnd env (worker.world.load p.recorder p.shutdownSignals) answers stage w' standing)
    (hsees : standing.Sees shutdownFd) :
    worker.standing.Sees shutdownFd ∨ 0 < p.shutdownSignals := by
  rw [hready]
  cases hend with
  | waiting call hrun => exact absurd hsees id
  | done stage' hrun =>
      have hleads := next_leadsTo hrun
      rcases hsees with ⟨event, hpending, hevent⟩ | hreturned
      · rcases hleads.pending event hpending with hold | ⟨events, hgiven, hmem⟩
        · exact .inl (.inl ⟨event, hold, hevent⟩)
        · have hall := List.all_eq_true.mp (hallowed _ hgiven) event hmem
          rw [hfd, hevent] at hall
          exact .inr (by simpa using hall)
      · rcases hleads.returned hreturned with hold | ⟨event, hold, hevent⟩
        · exact .inl (.inr hold)
        · exact .inl (.inl ⟨event, hold, hevent.trans hfd⟩)

theorem Warranted.stage (h : Warranted shutdownFd p) {i : Nat} {worker : Worker}
    (hi : p.workers[i]? = some worker) (hsound : worker.Sound shutdownFd) {stage : Stage}
    (hready : worker.standing = .ready stage) {answers : List Answer}
    (hallowed : ∀ a ∈ answers, p.allows worker.world.runtime.config.shutdownFd a = true)
    {w' : World} {standing : Standing}
    (hend : StageEnd env (worker.world.load p.recorder p.shutdownSignals) answers stage w' standing)
    (accepted : List Fd) : Warranted shutdownFd (p.store i ⟨w', standing, accepted⟩) := by
  obtain ⟨hshares, -⟩ := hsound.stage hready hend
  obtain ⟨hworkers, hrecorder, -, hstops⟩ := p.store_fields i ⟨w', standing, accepted⟩
  have hsignals := p.store_signals i ⟨w', standing, accepted⟩ hshares.signals
  have hle : p.shutdownSignals ≤ (p.store i ⟨w', standing, accepted⟩).shutdownSignals := by
    rcases hsignals with hnew | hold
    · rw [hnew]
      exact hshares.signals
    · exact Nat.le_of_eq hold.symm
  have hfd : worker.world.runtime.config.shutdownFd = shutdownFd := by
    rcases hsound with hdown | ⟨-, hfd⟩
    · rw [hready] at hdown
      cases hdown
    · exact hfd
  refine ⟨?_, ?_⟩
  · intro hpos
    obtain ⟨timings, hextended, -⟩ := hshares.recorded
    unfold Process.Cause
    rw [hstops, hrecorder]
    by_cases hbefore : 0 < p.shutdownSignals
    · rcases h.cause hbefore with hstop | hlimit
      · exact .inl hstop
      · right
        show w'.runtime.benchmarkRecorder.any _ = true
        rw [hextended]
        exact BenchmarkRecorder.any_extend hlimit timings
    · -- the stage itself wrote: the limit was reached
      refine .inr (hshares.reason ?_)
      show p.shutdownSignals < w'.kernel.shutdownSignals
      rcases hsignals with hnew | hold
      · rw [hnew] at hpos
        exact Nat.lt_of_le_of_lt (Nat.le_of_not_lt hbefore) hpos
      · rw [hold] at hpos
        exact absurd hpos hbefore
  · rw [hworkers]
    refine forall_mem_modify ?_ ?_
    · intro worker' hmem hsees
      exact Nat.lt_of_lt_of_le (h.woken worker' hmem hsees) hle
    · intro _ _ hsees
      rcases sees_of_stage hready hfd hallowed hend hsees with hold | hpos
      · exact Nat.lt_of_lt_of_le (h.woken worker (List.mem_of_getElem? hi) hold) hle
      · exact Nat.lt_of_lt_of_le hpos hle

theorem Warranted.step (h : Warranted shutdownFd p)
    (hsound : ∀ worker ∈ p.workers, worker.Sound shutdownFd)
    (hstep : ProcessStep env store shutdownFd p q) : Warranted shutdownFd q := by
  cases hstep with
  | quiet hquiet =>
      exact h.same hquiet.workers hquiet.recorder hquiet.stopRequests hquiet.shutdownSignals
  | opened fd hfree => exact h.same rfl rfl rfl rfl
  | closed owner fd =>
      obtain ⟨hrecorder, hsignals, hstops⟩ := p.close_recorder owner fd
      refine ⟨?_, ?_⟩
      · unfold Process.Cause
        rw [hsignals, hstops, hrecorder]
        exact h.cause
      · rw [hsignals]
        cases owner with
        | none => exact h.woken
        | some i => exact forall_mem_modify h.woken fun _ _ hsees => absurd hsees id
  | interrupted a hint =>
      obtain ⟨hworkers, -, -, hstops, hsignals⟩ := interrupt_some hint
      refine ⟨fun _ => .inl (by omega), ?_⟩
      rw [hworkers]
      intro worker hmem hsees
      exact Nat.lt_of_lt_of_le (h.woken worker hmem hsees) hsignals
  | thread i answers hthread =>
      obtain ⟨worker, hi, hthread⟩ := runThread_some hthread
      have hmem := List.mem_of_getElem? hi
      cases hthread with
      | stage stage w' standing hready hallowed hend =>
          exact h.stage hi (hsound worker hmem) hready hallowed hend _
      | ended n hready =>
          obtain ⟨hworkers, hrecorder, -, hstops, hsignals⟩ := p.endThread_fields i worker n
          have hpos : 0 < p.shutdownSignals :=
            h.woken worker hmem (by rw [hready]; exact .inr rfl)
          refine ⟨?_, ?_⟩
          · unfold Process.Cause
            rw [hstops, hrecorder]
            exact fun _ => h.cause hpos
          · rw [hworkers]
            exact fun _ _ _ => Nat.lt_of_lt_of_le hpos hsignals
  | booted worker hfresh =>
      refine ⟨h.cause, ?_⟩
      intro worker' hmem hsees
      rcases List.mem_append.mp hmem with hold | hnew
      · exact h.woken worker' hold hsees
      · rw [List.mem_singleton.mp hnew] at hsees
        obtain ⟨epollFd, listenFd, rng, recorder, clock, rfl⟩ := hfresh
        rcases hsees with ⟨event, hpending, -⟩ | hreturned
        · cases hpending
        · cases hreturned
  | cleared i runtime =>
      exact ⟨h.cause, forall_mem_modify h.woken fun _ _ hsees => absurd hsees id⟩

/-! ## Every run of the server -/

/-- What the steps keep. -/
structure Orderly (config : ServerConfig) (shutdownFd : Fd) (p : Process) : Prop where
  sound : ∀ worker ∈ p.workers, worker.Sound shutdownFd
  accounted : Accounted config p
  warranted : Warranted shutdownFd p

theorem Orderly.step (h : Orderly config shutdownFd p)
    (hstep : ProcessStep env store shutdownFd p q) : Orderly config shutdownFd q :=
  ⟨local_sound.kept h.sound hstep, h.accounted.step h.sound hstep, h.warranted.step h.sound hstep⟩

theorem Started.orderly (h : Started config p) : Orderly config shutdownFd p := by
  have hnone : ∀ worker, worker ∉ p.workers := by
    rw [h.workers]
    exact fun _ => List.not_mem_nil
  refine ⟨fun worker hmem => absurd hmem (hnone worker), ⟨?_, ?_, ?_⟩,
    ⟨fun hpos => .inl (h.woken hpos), fun worker hmem => absurd hmem (hnone worker)⟩⟩
  · rw [h.recorder]
    cases config.benchmark <;> rfl
  · rw [h.recorder]
    intro recorder hsome
    split at hsome <;> cases hsome
    rfl
  · rw [h.recorder, Process.staged, h.workers]
    intro recorder hsome
    split at hsome <;> cases hsome
    rfl

/-- The thread has left its loop. -/
def Standing.HasLeft : Standing → Prop
  | .ready stage => stage.hasReturned = true
  | .exited => True
  | _ => False

/-- Where a run of the server has got to. -/
theorem Reached.told {host : Host} {is : List SystemAnswer} (hreached : Reached host config is p) :
    (∀ recorder, p.recorder = some recorder → recorder.completedRequests = p.staged) ∧
      (0 < p.shutdownSignals ∨ (∃ worker ∈ p.workers, worker.standing.HasLeft) →
        0 < p.stopRequests ∨ (config.benchmark = true ∧ config.benchmarkRequests ≠ 0 ∧
          config.benchmarkRequests.toNat ≤ p.staged)) := by
  rcases hreached with hearly | ⟨input, store, shutdownFd, p0, -, -, hstarted, hchain⟩
  · refine ⟨?_, ?_⟩
    · intro recorder hsome
      rw [hearly.recorder] at hsome
      cases hsome
    · rintro (hpos | ⟨worker, hmem, -⟩)
      · exact .inl (hearly.woken hpos)
      · rw [hearly.workers] at hmem
        cases hmem
  · have horderly : Orderly config shutdownFd p :=
      chain_invariant (Orderly config shutdownFd) (fun _ _ h hstep => h.step hstep)
        hstarted.orderly hchain
    refine ⟨horderly.accounted.counted, ?_⟩
    intro hstop
    have hpos : 0 < p.shutdownSignals := by
      rcases hstop with hpos | ⟨worker, hmem, hleft⟩
      · exact hpos
      · refine horderly.warranted.woken worker hmem ?_
        cases hstanding : worker.standing with
        | ready stage =>
            rw [hstanding] at hleft
            exact .inr hleft
        | exited => trivial
        | inside call =>
            rw [hstanding] at hleft
            exact hleft
        | shutDown =>
            rw [hstanding] at hleft
            exact hleft
    rcases horderly.warranted.cause hpos with hstops | hlimit
    · exact .inl hstops
    · obtain ⟨recorder, hrecorder, hreached⟩ := (Option.any_eq_true _ _).mp hlimit
      unfold BenchmarkRecorder.requestLimitReached at hreached
      rw [Bool.and_eq_true, decide_eq_true_eq, decide_eq_true_eq] at hreached
      rw [horderly.accounted.limit recorder hrecorder,
        horderly.accounted.counted recorder hrecorder] at hreached
      refine .inr ⟨?_, hreached⟩
      rw [← horderly.accounted.present, hrecorder]
      rfl

/-- **The server stops for a cause.** In every run of `run_server`, with any
answers of the system and any order of the threads, the recorder of a
benchmark has counted the responses that all workers staged. The event
counter was written, or a thread left its loop, only after a signal came or
the timer expired, or with a limit given and that many responses staged. -/
theorem stops_for_a_cause (host : Host) (config : ServerConfig) (descriptors : Finset Fd)
    (clocks : Nat → Clock) (is : List SystemAnswer) :
    let p := ((runServer host config).run { descriptors, clocks } is).state
    (∀ recorder, p.recorder = some recorder → recorder.completedRequests = p.staged) ∧
      (0 < p.shutdownSignals ∨ (∃ worker ∈ p.workers, worker.standing.HasLeft) →
        0 < p.stopRequests ∨ (config.benchmark = true ∧ config.benchmarkRequests ≠ 0 ∧
          config.benchmarkRequests.toNat ≤ p.staged)) := by
  exact (runServer_state host config (early_boot descriptors clocks) is).told

end

end RtbEngine
