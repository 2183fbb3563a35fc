import RtbEngine.Logic.Process

/-!
# The workers of a process

Whatever order the threads of a server run in, each worker does what
`run_worker_loop` does alone, and no two have a client on one descriptor.

* `main_steady` — no thread closes a descriptor that is not open, or spins;
* `workers_on_their_own` — in every run of the server.
-/

namespace RtbEngine

open Lib Exec Relation

section

variable {env : Platform} {store : CampaignStoreSnapshot} {shutdownFd : Fd} {p q : Process}

/-! ## Each thread alone -/

/-- The run `o` of a worker alone on some answers, as far as the thread of
`worker` has got: between two stages it goes on like the rest of the loop, in
a call it waits there, and at the end of the thread it has returned. The
recorder and the count of signals are left out. -/
def Worker.LikeRun (env : Platform) (o : List Answer → Outcome Call World Answer Int)
    (worker : Worker) : Prop :=
  match worker.standing with
  | .ready stage => ∀ more,
      (o more).mapState World.forget = ((stage.rest env).run worker.world more).mapState World.forget
  | .inside call => (o []).mapState World.forget = .waiting call worker.world.forget
  | .exited => ∃ n, (o []).mapState World.forget = .done n worker.world.forget []
  | .shutDown => True

/-- The thread has done what `run_worker_loop` does alone, without a
recorder, from the start of a runtime. -/
def Worker.Solo (env : Platform) (store : CampaignStoreSnapshot) (shutdownFd : Fd)
    (worker : Worker) : Prop :=
  ∃ epollFd listenFd rng clock is, worker.LikeRun env fun more =>
    (runWorkerLoop env).run (bootWorld { shutdownFd } epollFd listenFd rng none store clock)
      (is ++ more)

theorem Worker.Fresh.solo {worker : Worker} (h : worker.Fresh store shutdownFd) :
    worker.Solo env store shutdownFd := by
  obtain ⟨epollFd, listenFd, rng, recorder, clock, rfl⟩ := h
  refine ⟨epollFd, listenFd, rng, clock, [], ?_⟩
  intro more
  have himage : (bootWorld { shutdownFd } epollFd listenFd rng none store clock).forget =
      (bootWorld { shutdownFd } epollFd listenFd rng recorder store clock).forget := rfl
  exact (transports_runWorkerLoop env).eq_of_image himage more

/-- The loop from a stage on does not see what was loaded. -/
theorem rest_load (env : Platform) (stage : Stage) (w : World) (recorder : Option BenchmarkRecorder)
    (shutdownSignals : Nat) (answers : List Answer) :
    ((stage.rest env).run w answers).mapState World.forget =
      ((stage.rest env).run (w.load recorder shutdownSignals) answers).mapState World.forget := by
  have himage : w.forget = (w.load recorder shutdownSignals).forget := rfl
  exact (transports_rest env stage).eq_of_image himage answers

/-- One more stage. -/
theorem Worker.Solo.stage {worker : Worker} (h : worker.Solo env store shutdownFd) {stage : Stage}
    (hready : worker.standing = .ready stage) {recorder : Option BenchmarkRecorder}
    {shutdownSignals : Nat} {answers : List Answer} {w' : World} {standing : Standing}
    (hend : StageEnd env (worker.world.load recorder shutdownSignals) answers stage w' standing)
    (accepted : List Fd) : Worker.Solo env store shutdownFd ⟨w', standing, accepted⟩ := by
  obtain ⟨epollFd, listenFd, rng, clock, is, hlike⟩ := h
  simp only [Worker.LikeRun, hready] at hlike
  refine ⟨epollFd, listenFd, rng, clock, is ++ answers, ?_⟩
  have hloaded := rest_load env stage worker.world recorder shutdownSignals
  cases hend with
  | done stage' hrun =>
      intro more
      beta_reduce
      rw [List.append_assoc, hlike, hloaded, Stage.next_done hrun]
  | waiting call hrun =>
      show Outcome.mapState _ _ = Outcome.waiting call w'.forget
      beta_reduce
      rw [List.append_assoc, hlike, hloaded, List.append_nil, Stage.next_waiting hrun]
      rfl

theorem Worker.Solo.ended {worker : Worker} (h : worker.Solo env store shutdownFd) {n : Int}
    (hready : worker.standing = .ready (.returned n)) :
    Worker.Solo env store shutdownFd { worker with standing := .exited } := by
  obtain ⟨epollFd, listenFd, rng, clock, is, hlike⟩ := h
  simp only [Worker.LikeRun, hready] at hlike
  exact ⟨epollFd, listenFd, rng, clock, is, n, hlike []⟩

theorem Worker.solo_shutDown {worker : Worker} (h : worker.standing = .shutDown) :
    worker.Solo env store shutdownFd := by
  refine ⟨0, 0, {}, ⟨fun _ => 0, 0⟩, [], ?_⟩
  simp only [Worker.LikeRun, h]

/-- Each thread keeps it by itself. -/
theorem local_solo : Local env store shutdownFd (Worker.Solo env store shutdownFd) where
  fresh := Worker.Fresh.solo
  shutDown := Worker.solo_shutDown
  stage accepted h hready hend := h.stage hready hend accepted
  ended h hready := h.ended hready

/-- The thread is not left with a descriptor that is not open, and its next
stage does not go round without a call. -/
def Worker.Steady (env : Platform) (worker : Worker) : Prop :=
  match worker.standing with
  | .ready stage => ∀ recorder shutdownSignals answers w',
      (stage.next env).run (worker.world.load recorder shutdownSignals) answers ≠ .spinning w'
  | .inside call => ∀ fd, call ≠ .badDescriptor fd
  | _ => True

/-- A worker alone with the sizes that nothing changes. -/
theorem run_alone (env : Platform) (store : CampaignStoreSnapshot) (shutdownFd epollFd listenFd : Fd)
    (rng : WorkerRng) (clock : Clock) :
    (runWorkerLoop env).Ensures (fun _ => True)
      (bootWorld { shutdownFd } epollFd listenFd rng none store clock) (fun _ _ => True)
      fun k _ => ∀ fd, k ≠ .badDescriptor fd := by
  have hsizes : ({ shutdownFd } : WorkerConfig).HasDefaultSizes := ⟨rfl, rfl⟩
  refine (runWorkerLoop_ensures hsizes.framesFit betweenEvents_boot).mono (fun _ _ _ => trivial) ?_
  rintro k w ⟨-, -, hk⟩ fd rfl
  exact hk

/-- What a worker alone does not do, its thread does not do either. -/
theorem Worker.Solo.steady {worker : Worker} (h : worker.Solo env store shutdownFd) :
    worker.Steady env := by
  obtain ⟨epollFd, listenFd, rng, clock, is, hlike⟩ := h
  have halone := run_alone env store shutdownFd epollFd listenFd rng clock
  unfold Worker.Steady
  cases hstanding : worker.standing with
  | ready stage =>
      intro recorder shutdownSignals answers w' hspin
      simp only [Worker.LikeRun, hstanding] at hlike
      have hrest : (stage.rest env).run (worker.world.load recorder shutdownSignals) answers =
          .spinning w' := by
        rw [rest_next, run_bind, hspin]
        rfl
      have hsame := hlike answers
      rw [rest_load env stage worker.world recorder shutdownSignals, hrest] at hsame
      have hrun := halone (is ++ answers) fun _ _ => trivial
      cases ho : (runWorkerLoop env).run
          (bootWorld { shutdownFd } epollFd listenFd rng none store clock) (is ++ answers) with
      | done n w rest => rw [ho] at hsame; cases hsame
      | waiting k w => rw [ho] at hsame; cases hsame
      | spinning w => rw [ho] at hrun; exact hrun
  | inside call =>
      simp only [Worker.LikeRun, hstanding] at hlike
      have hrun := halone (is ++ []) fun _ _ => trivial
      cases ho : (runWorkerLoop env).run
          (bootWorld { shutdownFd } epollFd listenFd rng none store clock) (is ++ []) with
      | done n w rest => rw [ho] at hlike; cases hlike
      | waiting k w =>
          rw [ho] at hlike hrun
          obtain rfl : k = call := (Outcome.waiting.inj hlike).1
          exact hrun
      | spinning w => rw [ho] at hlike; cases hlike
  | exited => trivial
  | shutDown => trivial

/-! ## Descriptors of different workers -/

/-- The worker has a client on `fd`. -/
def Worker.Serves (worker : Worker) (fd : Fd) : Prop :=
  (worker.world.kernel.fdTable fd).isSome = true

/-- No descriptor is a client's of two workers, or a client's and open for the
process itself. -/
structure Apart (p : Process) : Prop where
  workers : ∀ {i j : Nat} {wi wj : Worker} {fd : Fd}, p.workers[i]? = some wi →
    p.workers[j]? = some wj → wi.Serves fd → wj.Serves fd → i = j
  process : ∀ {worker : Worker} {fd : Fd}, worker ∈ p.workers → worker.Serves fd →
    fd ∉ p.descriptors

/-- It is about the workers and the descriptors of the process alone. -/
theorem Apart.same (h : Apart p) (hworkers : q.workers = p.workers)
    (hdescriptors : q.descriptors = p.descriptors) : Apart q where
  workers hwi hwj := h.workers (hworkers ▸ hwi) (hworkers ▸ hwj)
  process hmem hserves := hdescriptors ▸ h.process (hworkers ▸ hmem) hserves

theorem isOpen_eq_false {fd : Fd} : p.isOpen fd = false ↔
    fd ∉ p.descriptors ∧ ∀ worker ∈ p.workers, ¬ worker.Serves fd := by
  unfold Process.isOpen
  rw [Bool.or_eq_false_iff, decide_eq_false_iff_not, List.any_eq_false]
  rfl

/-- One worker is replaced by one that serves no more, or descriptors that
were not open. -/
theorem Apart.modify (h : Apart p) {i : Nat} {f : Worker → Worker}
    (hworkers : q.workers = p.workers.modify i f) (hdescriptors : q.descriptors = p.descriptors)
    (hf : ∀ {old : Worker} {fd : Fd}, p.workers[i]? = some old → (f old).Serves fd →
      old.Serves fd ∨ p.isOpen fd = false) : Apart q := by
  -- the worker in a place, and what it served before
  have hold : ∀ {j : Nat} {worker : Worker}, q.workers[j]? = some worker →
      ∃ old, p.workers[j]? = some old ∧ ∀ fd, worker.Serves fd →
        old.Serves fd ∨ (i = j ∧ p.isOpen fd = false) := by
    intro j worker hj
    rw [hworkers, List.getElem?_modify] at hj
    obtain ⟨old, hold, heq⟩ := Option.map_eq_some_iff.mp hj
    refine ⟨old, hold, fun fd hserves => ?_⟩
    by_cases hij : i = j
    · subst hij
      rw [if_pos rfl] at heq
      rw [← heq] at hserves
      exact (hf hold hserves).imp_right fun hfree => ⟨rfl, hfree⟩
    · rw [if_neg hij] at heq
      rw [← heq] at hserves
      exact .inl hserves
  refine ⟨?_, ?_⟩
  · intro j k wj wk fd hj hk hservesj hservesk
    obtain ⟨oldj, holdj, hj⟩ := hold hj
    obtain ⟨oldk, holdk, hk⟩ := hold hk
    rcases hj fd hservesj with hservesj | ⟨hij, hfree⟩
    · rcases hk fd hservesk with hservesk | ⟨hik, hfree⟩
      · exact h.workers holdj holdk hservesj hservesk
      · exact absurd hservesj ((isOpen_eq_false.mp hfree).2 oldj (List.mem_of_getElem? holdj))
    · rcases hk fd hservesk with hservesk | ⟨hik, -⟩
      · exact absurd hservesk ((isOpen_eq_false.mp hfree).2 oldk (List.mem_of_getElem? holdk))
      · exact hij.symm.trans hik
  · intro worker fd hmem hserves
    obtain ⟨j, hj⟩ := List.mem_iff_getElem?.mp hmem
    obtain ⟨old, hold, hserved⟩ := hold hj
    rw [hdescriptors]
    rcases hserved fd hserves with hserves | ⟨-, hfree⟩
    · exact h.process (List.mem_of_getElem? hold) hserves
    · exact (isOpen_eq_false.mp hfree).1

theorem Worker.serves_close {worker : Worker} {fd fd' : Fd} (h : (worker.close fd').Serves fd) :
    worker.Serves fd :=
  @World.dropConnection_open worker.world fd' fd h

theorem Apart.opened (h : Apart p) {fd : Fd} (hfree : p.isOpen fd = false) :
    Apart { p with descriptors := insert fd p.descriptors } := by
  refine ⟨h.workers, ?_⟩
  intro worker fd' hmem hserves hin
  rcases Finset.mem_insert.mp hin with rfl | hin
  · exact (isOpen_eq_false.mp hfree).2 worker hmem hserves
  · exact h.process hmem hserves hin

theorem Apart.close (h : Apart p) (owner : Option Nat) (fd : Fd) : Apart (p.close owner fd) := by
  have hless : Apart { p with
      descriptors := p.descriptors.erase fd
      eventFd := if p.eventFd = some fd then none else p.eventFd } :=
    ⟨h.workers, fun hmem hserves hin => h.process hmem hserves (Finset.mem_of_mem_erase hin)⟩
  cases owner with
  | none => exact hless
  | some i => exact hless.modify rfl rfl fun _ hserves => .inl (Worker.serves_close hserves)

/-- A thread gets only descriptors that were not open. -/
theorem Apart.thread (h : Apart p) {i : Nat} {worker : Worker} (hi : p.workers[i]? = some worker)
    {answers : List Answer} (hthread : ThreadStep env p i answers worker q) : Apart q := by
  cases hthread with
  | stage stage w' standing hready hallowed hend =>
      obtain ⟨hworkers, -, hdescriptors, -⟩ := p.store_fields i
        ⟨w', standing, worker.accepted ++ acceptedFds answers⟩
      refine h.modify hworkers hdescriptors ?_
      intro old fd hold hserves
      obtain rfl : worker = old := Option.some.inj (hi.symm.trans hold)
      rw [Worker.Serves, ← hend.state] at hserves
      rcases next_opens hserves with hserves | haccepted
      · exact .inl hserves
      · exact .inr (by simpa [Process.allows] using hallowed _ haccepted)
  | ended n hready =>
      obtain ⟨hworkers, -, hdescriptors, -, -⟩ := p.endThread_fields i worker n
      refine h.modify hworkers hdescriptors ?_
      intro old fd hold hserves
      obtain rfl : worker = old := Option.some.inj (hi.symm.trans hold)
      exact .inl hserves

theorem Apart.booted (h : Apart p) {worker : Worker} (hidle : ∀ fd, ¬ worker.Serves fd) :
    Apart { p with workers := p.workers ++ [worker] } := by
  have hold : ∀ {j : Nat} {old : Worker} {fd : Fd}, (p.workers ++ [worker])[j]? = some old →
      old.Serves fd → p.workers[j]? = some old := by
    intro j old fd hj hserves
    rcases Nat.lt_or_ge j p.workers.length with hlt | hge
    · rwa [List.getElem?_append_left hlt] at hj
    · rw [List.getElem?_append_right hge] at hj
      rw [List.mem_singleton.mp (List.mem_of_getElem? hj)] at hserves
      exact absurd hserves (hidle fd)
  refine ⟨?_, ?_⟩
  · intro i j wi wj fd hi hj hservesi hservesj
    exact h.workers (hold hi hservesi) (hold hj hservesj) hservesi hservesj
  · intro worker fd hmem hserves
    obtain ⟨j, hj⟩ := List.mem_iff_getElem?.mp hmem
    exact h.process (List.mem_of_getElem? (hold hj hserves)) hserves

theorem Worker.Fresh.idle {worker : Worker} (h : worker.Fresh store shutdownFd) (fd : Fd) :
    ¬ worker.Serves fd := by
  obtain ⟨epollFd, listenFd, rng, recorder, clock, rfl⟩ := h
  intro hserves
  cases hserves

/-- **One step.** -/
theorem Apart.step (h : Apart p) (hstep : ProcessStep env store shutdownFd p q) : Apart q := by
  cases hstep with
  | quiet hquiet => exact h.same hquiet.workers hquiet.descriptors
  | opened fd hfree => exact h.opened hfree
  | closed owner fd => exact h.close owner fd
  | interrupted a hint =>
      obtain ⟨hworkers, -, hdescriptors, -, -⟩ := interrupt_some hint
      exact h.same hworkers hdescriptors
  | thread i answers hthread =>
      obtain ⟨worker, hi, hthread⟩ := runThread_some hthread
      exact h.thread hi hthread
  | booted worker hfresh => exact h.booted hfresh.idle
  | cleared i runtime => exact h.modify rfl rfl fun _ hserves => .inl hserves

theorem apart_of_no_workers (h : p.workers = []) : Apart p := by
  refine ⟨?_, ?_⟩
  · intro i j wi wj fd hi
    rw [h] at hi
    cases hi
  · intro worker fd hmem
    rw [h] at hmem
    cases hmem

/-! ## Every run of the server -/

/-- Each worker that has been started has the store that was loaded, and has
run alone. -/
theorem Reached.solo {host : Host} {config : ServerConfig} {is : List SystemAnswer}
    (h : Reached host config is p) :
    p.workers = [] ∨ ∃ input store shutdownFd, .file input ∈ is ∧
      loadCampaignStoreSnapshot host.extract input = some store ∧
        ∀ worker ∈ p.workers, worker.Solo host.platform store shutdownFd := by
  rcases h with hearly | ⟨input, store, shutdownFd, p0, hfile, hload, hstarted, hchain⟩
  · exact .inl hearly.workers
  · refine .inr ⟨input, store, shutdownFd, hfile, hload, ?_⟩
    refine chain_invariant
      (fun p => ∀ worker ∈ p.workers, worker.Solo host.platform store shutdownFd)
      (fun _ _ h hstep => local_solo.kept h hstep) ?_ hchain
    rw [hstarted.workers]
    exact fun _ h => absurd h List.not_mem_nil

theorem Reached.steady {host : Host} {config : ServerConfig} {is : List SystemAnswer}
    (h : Reached host config is p) : ∀ worker ∈ p.workers, worker.Steady host.platform := by
  rcases h.solo with hnone | ⟨input, store, shutdownFd, -, -, hsolo⟩
  · rw [hnone]
    exact fun _ h => absurd h List.not_mem_nil
  · exact fun worker hmem => (hsolo worker hmem).steady

/-- The same of `main`: a thread stands where one of `run_server` can. -/
theorem main_steady (host : Host) (args : List Bytes) (hp : Early p) (is : List SystemAnswer) :
    ∀ worker ∈ ((main host args).run p is).state.workers, worker.Steady host.platform := by
  have hearly : ∀ {p : Process}, Early p → ∀ worker ∈ p.workers, worker.Steady host.platform := by
    intro p hp worker hmem
    rw [hp.workers] at hmem
    cases hmem
  unfold main
  simp only
  cases (parseServerConfig host.projectSourceDir args).status with
  | helpRequested => exact hearly ⟨hp.workers, hp.recorder, hp.woken⟩
  | invalidArgument => exact hearly ⟨hp.workers, hp.recorder, hp.woken⟩
  | ok => exact (runServer_state host _ hp is).steady

theorem Reached.apart {host : Host} {config : ServerConfig} {is : List SystemAnswer}
    (h : Reached host config is p) : Apart p := by
  rcases h with hearly | ⟨input, store, shutdownFd, p0, -, -, hstarted, hchain⟩
  · exact apart_of_no_workers hearly.workers
  · exact chain_invariant Apart (fun _ _ h hstep => h.step hstep)
      (apart_of_no_workers hstarted.workers) hchain

end

/-- **Workers on their own.** In every run of `run_server`, with any answers of
the system and any order of the threads, each worker that is not shut down has
done what `run_worker_loop` does alone on the campaigns that the file of the
run contains; and a descriptor is open for one client, or for the process
itself, but not for two of these. -/
theorem workers_on_their_own (host : Host) (config : ServerConfig) (descriptors : Finset Fd)
    (clocks : Nat → Clock) (is : List SystemAnswer) :
    let p := ((runServer host config).run { descriptors, clocks } is).state
    (∃ input store shutdownFd, ∀ worker ∈ p.workers, .file input ∈ is ∧
      loadCampaignStoreSnapshot host.extract input = some store ∧
        worker.Solo host.platform store shutdownFd) ∧ Apart p := by
  have hreached := runServer_state host config (early_boot descriptors clocks) is
  refine ⟨?_, hreached.apart⟩
  rcases hreached.solo with hnone | ⟨input, store, shutdownFd, hfile, hload, hsolo⟩
  · refine ⟨none, {}, 0, ?_⟩
    rw [hnone]
    exact fun _ h => absurd h List.not_mem_nil
  · exact ⟨input, store, shutdownFd, fun worker hmem => ⟨hfile, hload, hsolo worker hmem⟩⟩

end RtbEngine
