import Mathlib.Algebra.BigOperators.Group.List.Basic
import RtbEngine.Engine.Process
import RtbEngine.Logic.Thread

/-!
# What one step of the server process can do

From the start of its workers on, `run_server` opens and closes descriptors,
is interrupted, lets a thread run a stage, and starts and shuts down runtimes
(`ProcessStep`). Every run of it is a chain of such steps, so what holds of
the workers and of what they share is proved step by step.

* `follows_runThreads`, `follows_shutdownAll`, … — the parts of the program;
* `runServer_reached` — the chain behind a run.
-/

namespace RtbEngine

open Lib Exec Relation

/-! ## Steps -/

/-- The threads, what they share and the open descriptors are the same. -/
structure Quiet (p q : Process) : Prop where
  descriptors : q.descriptors = p.descriptors
  workers : q.workers = p.workers
  recorder : q.recorder = p.recorder
  shutdownSignals : q.shutdownSignals = p.shutdownSignals
  stopRequests : q.stopRequests = p.stopRequests

/-- A worker before its thread has run. -/
def Worker.Fresh (store : CampaignStoreSnapshot) (shutdownFd : Fd) (worker : Worker) : Prop :=
  ∃ epollFd listenFd rng recorder clock,
    worker = { world := bootWorld { shutdownFd } epollFd listenFd rng recorder store clock }

/-- **One step of the process**, once the store is loaded and the event
descriptor is there. -/
inductive ProcessStep (env : Platform) (store : CampaignStoreSnapshot) (shutdownFd : Fd)
    (p : Process) : Process → Prop where
  | quiet {q : Process} (h : Quiet p q) : ProcessStep env store shutdownFd p q
  | opened (fd : Fd) (h : p.isOpen fd = false) :
      ProcessStep env store shutdownFd p { p with descriptors := insert fd p.descriptors }
  | closed (owner : Option Nat) (fd : Fd) :
      ProcessStep env store shutdownFd p (p.close owner fd)
  | interrupted (a : SystemAnswer) {q : Process} (h : p.interrupt a = some q) :
      ProcessStep env store shutdownFd p q
  | thread (i : Nat) (answers : List Answer) {q : Process}
      (h : p.runThread env i answers = some q) : ProcessStep env store shutdownFd p q
  | booted (worker : Worker) (h : worker.Fresh store shutdownFd) :
      ProcessStep env store shutdownFd p { p with workers := p.workers ++ [worker] }
  | cleared (i : Nat) (runtime : WorkerRuntime) :
      ProcessStep env store shutdownFd p (p.modifyWorker i (Worker.clear runtime))

section

variable {env : Platform} {store : CampaignStoreSnapshot} {shutdownFd : Fd} {host : Host}
  {config : ServerConfig} {step : Process → Process → Prop}

/-! ## Calls -/

/-- Every call takes an answer. -/
theorem consumes_systemCall {α : Type} (k : SystemCall)
    (answer : Process → SystemAnswer → Option (α × Process)) : Consumes (systemCall k answer) :=
  consumes_loop (fun _ => consumes_ask _ _) ()

/-- A call with its interrupts. -/
theorem follows_systemCall {α : Type} {k : SystemCall}
    {answer : Process → SystemAnswer → Option (α × Process)}
    (hinterrupt : ∀ p a q, p.interrupt a = some q → ReflTransGen step p q)
    (h : ∀ p a x q, answer p a = some (x, q) → ReflTransGen step p q) :
    Follows step (systemCall k answer) := by
  refine follows_loop (fun _ => (consumes_ask _ _).productive) (fun _ => follows_ask ?_) ()
  intro p a turn q hans
  cases hint : p.interrupt a with
  | some interrupted =>
      simp only [hint] at hans
      cases hans
      exact hinterrupt p a q hint
  | none =>
      simp only [hint] at hans
      obtain ⟨⟨x, q'⟩, hx, hq⟩ := Option.map_eq_some_iff.mp hans
      cases hq
      exact h p a x q' hx

/-- A relation that has the steps of a process without workers. -/
structure Ordinary (step : Process → Process → Prop) : Prop where
  quiet : ∀ {p q}, Quiet p q → ReflTransGen step p q
  opened : ∀ p fd, p.isOpen fd = false →
    ReflTransGen step p { p with descriptors := insert fd p.descriptors }
  closed : ∀ p owner fd, ReflTransGen step p (p.close owner fd)
  interrupted : ∀ p a q, p.interrupt a = some q → ReflTransGen step p q

theorem ordinary_processStep : Ordinary (ProcessStep env store shutdownFd) where
  quiet h := .single (.quiet h)
  opened _ fd h := .single (.opened fd h)
  closed _ owner fd := .single (.closed owner fd)
  interrupted _ a _ h := .single (.interrupted a h)

section

variable (hstep : Ordinary step)

include hstep

theorem follows_call {α : Type} {k : SystemCall}
    {answer : Process → SystemAnswer → Option (α × Process)}
    (h : ∀ p a x q, answer p a = some (x, q) → ReflTransGen step p q) :
    Follows step (systemCall k answer) :=
  follows_systemCall hstep.interrupted h

/-- An update of the other fields. -/
theorem follows_quiet {f : Process → Process} (h : ∀ p, Quiet p (f p)) :
    Follows step (modify f : ProcessM Unit) :=
  follows_modify fun p => hstep.quiet (h p)

theorem follows_print (text : Bytes) : Follows step (print text) :=
  follows_quiet hstep fun _ => ⟨rfl, rfl, rfl, rfl, rfl⟩

theorem follows_logError (text : Bytes) :
    Follows step (logError text) :=
  follows_quiet hstep fun _ => ⟨rfl, rfl, rfl, rfl, rfl⟩

theorem follows_setShutdownEventFd (fd : Fd) :
    Follows step (setShutdownEventFd fd) :=
  follows_quiet hstep fun _ => ⟨rfl, rfl, rfl, rfl, rfl⟩

theorem follows_succeeds (k : SystemCall) :
    Follows step (succeeds k) := by
  refine follows_call hstep ?_
  intro p a x q hans
  cases a with
  | result ok => cases hans; exact .refl
  | _ => cases hans

theorem follows_attempt (calls : List (SystemCall × Bytes)) :
    Follows step (attempt calls) := by
  induction calls with
  | nil => exact follows_pure _
  | cons call calls ih =>
      refine follows_bind (follows_succeeds hstep _) fun ok => follows_ite ih ?_
      exact follows_bind (follows_logError hstep _) fun _ => follows_pure _

theorem follows_openDescriptor (k : SystemCall) :
    Follows step (openDescriptor k) := by
  refine follows_call hstep ?_
  intro p a x q hans
  cases a with
  | descriptor result =>
      cases result with
      | none => cases hans; exact .refl
      | some fd =>
          simp only at hans
          split at hans
          · rename_i hfresh
            cases hans
            exact hstep.opened p fd hfresh.2
          · cases hans
  | _ => cases hans

theorem follows_closeDescriptor (owner : Option Nat) (fd : Fd) :
    Follows step (closeDescriptor owner fd) := by
  refine follows_bind follows_read fun p => follows_ite (follows_call hstep ?_) (follows_ask ?_)
  · intro p a x q hans
    cases a with
    | result ok => cases hans; exact hstep.closed p owner fd
    | _ => cases hans
  · intro p a x q hans
    cases hans

theorem follows_closeAll (owner : Option Nat) (fds : List Fd) :
    Follows step (closeAll owner fds) := by
  induction fds with
  | nil => exact follows_pure _
  | cons fd fds ih => exact follows_bind (follows_closeDescriptor hstep owner fd) fun _ => ih

theorem follows_restoreAction (signal : Signal) (previous : Bool) :
    Follows step (restoreAction signal previous) := by
  refine follows_call hstep ?_
  intro p a x q hans
  cases a with
  | result ok =>
      cases ok with
      | true => cases hans; exact hstep.quiet ⟨rfl, rfl, rfl, rfl, rfl⟩
      | false => cases hans
  | _ => cases hans

theorem follows_restore (scope : SignalHandlerScope) :
    Follows step scope.restore :=
  follows_bind (follows_restoreAction hstep _ _) fun _ => follows_bind (follows_restoreAction hstep _ _) fun _ =>
    follows_setShutdownEventFd hstep _

end

/-! ## Runtimes -/

theorem follows_abandonRuntime (hstep : Ordinary step) (runtime : WorkerRuntime) :
    Follows step (abandonRuntime runtime) :=
  follows_closeAll hstep none _

/-- A chain from `p`, and what a program returns at its end. -/
def ChainTo {α : Type} (step : Process → Process → Prop) (p : Process) (m : ProcessM α)
    (post : α → Prop) : Prop :=
  m.Ensures (fun _ => True) p (fun a q => ReflTransGen step p q ∧ post a)
    fun _ q => ReflTransGen step p q

theorem chainTo_bind {α β : Type} {m : ProcessM α} {f : α → ProcessM β} {post : β → Prop}
    (hm : Follows step m) (hf : ∀ a p, ChainTo step p (f a) post) (p : Process) :
    ChainTo step p (m >>= f) post := by
  refine ensures_bind ?_
  refine (hm.ensures p).mono ?_ fun _ _ h => h
  intro a q hq
  refine (hf a q).mono ?_ ?_
  · intro b q' hq'
    exact ⟨hq.trans hq'.1, hq'.2⟩
  · intro _ q' hq'
    exact hq.trans hq'

theorem chainTo_pure {α : Type} {a : α} {post : α → Prop} (h : post a) (p : Process) :
    ChainTo step p (pure a) post :=
  ensures_pure ⟨.refl, h⟩

/-- A runtime that is given is a fresh one. -/
def BootsFrom (store : CampaignStoreSnapshot) (shutdownFd : Fd) (world : Option World) : Prop :=
  ∀ w, world = some w → Worker.Fresh store shutdownFd { world := w }

theorem bootsFrom_none : BootsFrom store shutdownFd none := fun _ h => by cases h

theorem initializeWorkerRuntime_chain (workerId : Nat) (port : UInt16) (path : Bytes)
    (recorder : Option BenchmarkRecorder) (p : Process) :
    ChainTo (ProcessStep env store shutdownFd) p
      (initializeWorkerRuntime host workerId { shutdownFd } port path recorder (some store))
      (BootsFrom store shutdownFd) := by
  unfold initializeWorkerRuntime
  refine chainTo_bind follows_read (fun p0 p => ?_) p
  generalize (p0.clocks workerId).nowNs = reading
  obtain ⟨now, clock⟩ := reading
  simp only [pure_bind]
  have hfailed : ∀ runtime p, ChainTo (ProcessStep env store shutdownFd) p
      (abandonRuntime runtime >>= fun _ => pure (none : Option World))
      (BootsFrom store shutdownFd) :=
    fun runtime => chainTo_bind (follows_abandonRuntime ordinary_processStep runtime) fun _ =>
      chainTo_pure bootsFrom_none
  refine chainTo_bind (follows_openDescriptor ordinary_processStep _) (fun listenFd => ?_) p
  cases listenFd with
  | none => exact chainTo_pure bootsFrom_none
  | some listenFd =>
      refine chainTo_bind (follows_attempt ordinary_processStep _) fun ready p => ?_
      cases ready with
      | false => exact hfailed _ p
      | true =>
          refine chainTo_bind (follows_openDescriptor ordinary_processStep _) (fun epollFd p => ?_) p
          cases epollFd with
          | none => exact chainTo_bind (follows_logError ordinary_processStep _) (fun _ => hfailed _) p
          | some epollFd =>
              refine chainTo_bind (follows_attempt ordinary_processStep _) (fun ready p => ?_) p
              cases ready with
              | false => exact hfailed _ p
              | true =>
                  refine chainTo_pure ?_ p
                  intro w hw
                  cases hw
                  exact ⟨epollFd, listenFd, _, recorder, clock, rfl⟩

theorem startWorkers_chain (ids : List Nat) (p : Process) :
    ChainTo (ProcessStep env store shutdownFd) p (startWorkers host config store shutdownFd ids)
      fun _ => True := by
  induction ids generalizing p with
  | nil => exact chainTo_pure trivial p
  | cons workerId more ih =>
      refine chainTo_bind follows_read (fun p0 p => ?_) p
      refine ensures_bind ?_
      refine (initializeWorkerRuntime_chain workerId config.port config.campaignDataPath
        p0.recorder p).weaken ?_
      intro result q hq
      obtain ⟨hq, hfresh⟩ := hq
      cases result with
      | none => exact ensures_pure ⟨hq, trivial⟩
      | some world =>
          refine ensures_bind ?_
          refine ensures_modify ?_
          have hbooted := hq.tail (.booted { world } (hfresh world rfl))
          refine (ih _).mono ?_ ?_
          · intro _ q' hq'
            exact ⟨hbooted.trans hq'.1, trivial⟩
          · intro _ q' hq'
            exact hbooted.trans hq'

theorem follows_connectionEntries (i : Nat) :
    Follows (ProcessStep env store shutdownFd) (connectionEntries i) := by
  refine follows_call ordinary_processStep ?_
  intro p a x q hans
  split at hans
  · simp only at hans
    split at hans
    · cases hans
      exact .refl
    · cases hans
  · cases hans

theorem follows_shutdownWorker (i : Nat) :
    Follows (ProcessStep env store shutdownFd) (shutdownWorker i) := by
  refine follows_bind (follows_connectionEntries i) fun fds => follows_bind follows_read fun p => ?_
  cases p.workers[i]? with
  | none => exact follows_pure _
  | some worker =>
      exact follows_bind (follows_closeAll ordinary_processStep _ _) fun _ =>
        follows_modify fun _ => .single (.cleared i _)

theorem follows_shutdownWorkers (ids : List Nat) :
    Follows (ProcessStep env store shutdownFd) (shutdownWorkers ids) := by
  induction ids with
  | nil => exact follows_pure _
  | cons i ids ih => exact follows_bind (follows_shutdownWorker i) fun _ => ih

theorem follows_shutdownAll : Follows (ProcessStep env store shutdownFd) shutdownAll :=
  follows_bind follows_read fun _ => follows_shutdownWorkers _

/-! ## Threads -/

theorem productive_joinRound (env : Platform) (u : Unit) : Productive (joinRound env u) :=
  productive_bind fun _ => productive_ite (productive_stop _)
    ((consumes_systemCall _ _).bind _).productive

theorem follows_schedule :
    Follows (ProcessStep env store shutdownFd) (schedule env) := by
  refine follows_call ordinary_processStep ?_
  intro p a x q hans
  cases a with
  | thread i answers =>
      obtain ⟨q', hq', heq⟩ := Option.map_eq_some_iff.mp hans
      cases heq
      exact .single (.thread i answers hq')
  | _ => cases hans

theorem follows_runThreads :
    Follows (ProcessStep env store shutdownFd) (runThreads env config shutdownFd) := by
  refine follows_bind ?_ fun _ => follows_bind ?_ fun _ => follows_call ordinary_processStep ?_
  · exact follows_ite (follows_quiet ordinary_processStep fun _ => ⟨rfl, rfl, rfl, rfl, rfl⟩) (follows_pure _)
  · refine follows_loop (productive_joinRound env) (fun _ => ?_) ()
    exact follows_bind follows_read fun p => follows_ite (follows_pure _)
      (follows_bind follows_schedule fun _ => follows_pure _)
  · intro p a x q hans
    cases a with
    | result ok => cases hans; exact ordinary_processStep.quiet ⟨rfl, rfl, rfl, rfl, rfl⟩
    | _ => cases hans

theorem follows_reportBenchmark :
    Follows (ProcessStep env store shutdownFd) (reportBenchmark host config) := by
  refine follows_bind follows_read fun p => ?_
  cases p.recorder with
  | none => exact follows_pure _
  | some recorder =>
      refine follows_bind (follows_print ordinary_processStep _) fun _ => follows_ite ?_ (follows_pure _)
      refine follows_bind (follows_call ordinary_processStep ?_) fun written => ?_
      · intro p a x q hans
        cases a with
        | report isOpen now => cases hans; exact .refl
        | _ => cases hans
      · cases written with
        | some text => exact follows_quiet ordinary_processStep fun _ => ⟨rfl, rfl, rfl, rfl, rfl⟩
        | none => exact follows_logError ordinary_processStep _

/-! ## Before the workers -/

/-- No worker has been started. -/
structure Early (p : Process) : Prop where
  workers : p.workers = []
  recorder : p.recorder = none
  woken : 0 < p.shutdownSignals → 0 < p.stopRequests

theorem early_boot (descriptors : Finset Fd) (clocks : Nat → Clock) :
    Early { descriptors, clocks } :=
  ⟨rfl, rfl, fun h => absurd h (Nat.lt_irrefl 0)⟩

theorem requestShutdown_workers (p : Process) (fd : Fd) :
    (p.requestShutdown fd).workers = p.workers ∧ (p.requestShutdown fd).recorder = p.recorder ∧
      (p.requestShutdown fd).descriptors = p.descriptors ∧
      (p.requestShutdown fd).stopRequests = p.stopRequests ∧
      p.shutdownSignals ≤ (p.requestShutdown fd).shutdownSignals := by
  unfold Process.requestShutdown Process.wake
  simp only
  split
  · exact ⟨rfl, rfl, rfl, rfl, Nat.le_refl _⟩
  · split
    · exact ⟨rfl, rfl, rfl, rfl, Nat.le_succ _⟩
    · exact ⟨rfl, rfl, rfl, rfl, Nat.le_refl _⟩

/-- An interrupt is a reason to stop. -/
theorem interrupt_some {p q : Process} {a : SystemAnswer} (h : p.interrupt a = some q) :
    q.workers = p.workers ∧ q.recorder = p.recorder ∧ q.descriptors = p.descriptors ∧
      q.stopRequests = p.stopRequests + 1 ∧ p.shutdownSignals ≤ q.shutdownSignals := by
  cases a with
  | signal signal =>
      simp only [Process.interrupt] at h
      split at h
      · cases h
        exact requestShutdown_workers _ _
      · cases h
  | timer =>
      obtain ⟨fd, -, rfl⟩ := Option.map_eq_some_iff.mp h
      exact requestShutdown_workers _ _
  | _ => cases h

theorem close_workers_nil {p : Process} (h : p.workers = []) (owner : Option Nat) (fd : Fd) :
    (p.close owner fd).workers = [] := by
  cases owner with
  | none => exact h
  | some i =>
      show p.workers.modify i _ = []
      rw [h, List.modify_nil]

theorem Process.close_recorder (p : Process) (owner : Option Nat) (fd : Fd) :
    (p.close owner fd).recorder = p.recorder ∧
      (p.close owner fd).shutdownSignals = p.shutdownSignals ∧
      (p.close owner fd).stopRequests = p.stopRequests := by
  cases owner <;> exact ⟨rfl, rfl, rfl⟩

theorem ordinary_early : Ordinary fun p q => Early p → Early q where
  quiet h := .single fun hp =>
    ⟨h.workers.trans hp.workers, h.recorder.trans hp.recorder,
      by rw [h.shutdownSignals, h.stopRequests]; exact hp.woken⟩
  opened _ _ _ := .single fun hp => ⟨hp.workers, hp.recorder, hp.woken⟩
  closed p owner fd := .single fun hp => by
    obtain ⟨hrecorder, hsignals, hstops⟩ := p.close_recorder owner fd
    exact ⟨close_workers_nil hp.workers owner fd, hrecorder.trans hp.recorder,
      by rw [hsignals, hstops]; exact hp.woken⟩
  interrupted _ _ _ h := .single fun hp => by
    obtain ⟨hworkers, hrecorder, -, hstops, -⟩ := interrupt_some h
    exact ⟨hworkers.trans hp.workers, hrecorder.trans hp.recorder, fun _ => by omega⟩

theorem follows_eventfd : Follows (fun p q => Early p → Early q) eventfd := by
  refine follows_bind (follows_openDescriptor ordinary_early _) fun opened =>
    follows_bind (follows_modify fun p => .single fun hp => ?_) fun _ => follows_pure _
  exact ⟨hp.workers, hp.recorder, fun h => absurd h (Nat.lt_irrefl 0)⟩

theorem follows_sigaction (hstep : Ordinary step) (signal : Signal) (handle : Bool) :
    Follows step (sigaction signal handle) := by
  refine follows_call hstep ?_
  intro p a x q hans
  cases a with
  | result ok =>
      cases ok with
      | true => cases hans; exact hstep.quiet ⟨rfl, rfl, rfl, rfl, rfl⟩
      | false => cases hans; exact .refl
  | _ => cases hans

theorem follows_installSignalHandlers (hstep : Ordinary step) (fd : Fd) :
    Follows step (installSignalHandlers fd) := by
  refine follows_bind follows_read fun p => follows_bind (follows_setShutdownEventFd hstep fd)
    fun _ => follows_bind (follows_sigaction hstep _ _) fun previousSigint => ?_
  cases previousSigint with
  | none => exact follows_bind (follows_setShutdownEventFd hstep _) fun _ => follows_pure _
  | some previousSigint =>
      refine follows_bind (follows_sigaction hstep _ _) fun previousSigterm => ?_
      cases previousSigterm with
      | none =>
          exact follows_bind (follows_restoreAction hstep _ _) fun _ =>
            follows_bind (follows_setShutdownEventFd hstep _) fun _ => follows_pure _
      | some previousSigterm => exact follows_pure _

/-! ## `run_server` -/

/-- The workers are about to be started. -/
structure Started (config : ServerConfig) (p : Process) : Prop where
  workers : p.workers = []
  recorder : p.recorder =
    if config.benchmark then some { requestLimit := config.benchmarkRequests } else none
  woken : 0 < p.shutdownSignals → 0 < p.stopRequests

/-- Where a run of the server can get to on the answers `is`: no worker is
there yet, or a chain of steps leads from the start of the workers on the store
that was loaded. -/
def Reached (host : Host) (config : ServerConfig) (is : List SystemAnswer) (p : Process) : Prop :=
  Early p ∨ ∃ input store shutdownFd p0, .file input ∈ is ∧
    loadCampaignStoreSnapshot host.extract input = some store ∧
    Started config p0 ∧ ReflTransGen (ProcessStep host.platform store shutdownFd) p0 p

theorem follows_stop (exit : ProcessM Int) (hexit : Follows step exit) (hstep : Ordinary step) :
    Follows step (setShutdownEventFd (-1) >>= fun _ =>
      closeDescriptor none shutdownFd >>= fun _ => exit) :=
  follows_bind (follows_setShutdownEventFd hstep _) fun _ =>
    follows_bind (follows_closeDescriptor hstep _ _) fun _ => hexit

theorem serveWorkers_chain (p : Process) :
    ChainTo (ProcessStep host.platform store shutdownFd) p
      (serveWorkers host config store shutdownFd) fun _ => True := by
  refine ensures_bind ?_
  refine (startWorkers_chain _ p).weaken ?_
  intro started q hq
  have hend : ∀ m : ProcessM Int, Follows (ProcessStep host.platform store shutdownFd) m →
      m.Ensures (fun _ => True) q
        (fun _ q' => ReflTransGen (ProcessStep host.platform store shutdownFd) p q' ∧ True)
        fun _ q' => ReflTransGen (ProcessStep host.platform store shutdownFd) p q' := by
    intro m hm
    refine (hm.ensures q).mono ?_ ?_
    · intro _ q' hq'
      exact ⟨hq.1.trans hq', trivial⟩
    · intro _ q' hq'
      exact hq.1.trans hq'
  cases started with
  | true =>
      refine hend _ ?_
      refine follows_bind (follows_print ordinary_processStep _) fun _ => ?_
      refine follows_bind follows_runThreads fun _ => follows_bind follows_shutdownAll fun _ => ?_
      exact follows_bind follows_reportBenchmark fun _ =>
        follows_stop _ (follows_bind follows_read fun _ => follows_pure _) ordinary_processStep
  | false =>
      exact hend _ (follows_bind follows_shutdownAll fun _ =>
        follows_stop _ (follows_pure _) ordinary_processStep)

theorem serve_reached {is : List SystemAnswer} {input : Option Bytes} (hfile : .file input ∈ is)
    (hload : loadCampaignStoreSnapshot host.extract input = some store) {p : Process}
    (hp : Early p) (scope : SignalHandlerScope) :
    (serve host config store shutdownFd >>= fun exitCode =>
        scope.restore >>= fun _ => pure exitCode).Ensures (· ∈ is) p
      (fun _ q => Reached host config is q) fun _ q => Reached host config is q := by
  obtain ⟨p0, hp0⟩ : ∃ p0, p0 = { p with
      shutdownRequested := false
      recorder :=
        if config.benchmark then some { requestLimit := config.benchmarkRequests } else none } :=
    ⟨_, rfl⟩
  have hstarted : Started config p0 := by
    rw [hp0]
    exact ⟨hp.workers, rfl, hp.woken⟩
  have hreached : ∀ q, ReflTransGen (ProcessStep host.platform store shutdownFd) p0 q →
      Reached host config is q :=
    fun q hq => .inr ⟨input, store, shutdownFd, p0, hfile, hload, hstarted, hq⟩
  unfold serve
  rw [bind_assoc]
  refine ensures_bind ?_
  refine ensures_modify ?_
  rw [← hp0]
  refine ensures_bind ?_
  refine (serveWorkers_chain p0).restrict.mono ?_ fun _ q hq => hreached q hq
  intro exitCode q hq
  have hrestore : Follows (ProcessStep host.platform store shutdownFd)
      (scope.restore >>= fun _ => (pure exitCode : ProcessM Int)) :=
    follows_bind (follows_restore ordinary_processStep scope) fun _ => follows_pure _
  refine (hrestore.ensures q).restrict.mono ?_ ?_
  · intro _ q' hq'
    exact hreached q' (hq.1.trans hq')
  · intro _ q' hq'
    exact hreached q' (hq.1.trans hq')

theorem Early.chain {p q : Process} (hp : Early p)
    (h : ReflTransGen (fun p q => Early p → Early q) p q) : Early q :=
  chain_invariant Early (fun _ _ h1 h12 => h12 h1) hp h

/-- The content of the file is one of the answers. -/
theorem openFile_early {is : List SystemAnswer} (path : Bytes) {p : Process} (hp : Early p) :
    (systemCall (.openFile path) fun p a =>
        match a with
        | .file content => some (content, p)
        | _ => none : ProcessM (Option Bytes)).Ensures (· ∈ is) p
      (fun input q => .file input ∈ is ∧ Early q) fun _ q => Early q := by
  refine ensures_loop (fun _ q => Early q) (fun _ => (consumes_ask _ _).productive) ?_ hp
  intro _ p hp
  refine ensures_ask hp ?_
  intro a turn q hmem hans
  cases hint : p.interrupt a with
  | some interrupted =>
      simp only [hint] at hans
      cases hans
      exact hp.chain (ordinary_early.interrupted p a q hint)
  | none =>
      simp only [hint] at hans
      obtain ⟨⟨x, q'⟩, hx, hq⟩ := Option.map_eq_some_iff.mp hans
      cases hq
      cases a with
      | file content =>
          cases hx
          exact ⟨hmem, hp⟩
      | _ => cases hx

/-- **Every run of the server** gets there by steps. -/
theorem runServer_reached (is : List SystemAnswer) {p : Process} (hp : Early p) :
    (runServer host config).Ensures (· ∈ is) p (fun _ q => Reached host config is q)
      fun _ q => Reached host config is q := by
  -- what comes before the workers, and a program after it
  have hbefore : ∀ {α : Type} {m : ProcessM α} {f : α → ProcessM Int} {p : Process},
      Early p → Follows (fun p q => Early p → Early q) m →
      (∀ a q, Early q → (f a).Ensures (· ∈ is) q (fun _ q => Reached host config is q)
        fun _ q => Reached host config is q) →
      (m >>= f).Ensures (· ∈ is) p (fun _ q => Reached host config is q)
        fun _ q => Reached host config is q := by
    intro α m f p hp hm hf
    refine ensures_bind ((hm.keeps (fun _ _ h1 h12 => h12 h1) hp).restrict.mono hf ?_)
    intro _ q hq
    exact .inl hq
  have hreturn : ∀ (n : Int) q, Early q → (pure n : ProcessM Int).Ensures (· ∈ is) q
      (fun _ q => Reached host config is q) fun _ q => Reached host config is q :=
    fun n q hq => ensures_pure (.inl hq)
  unfold runServer
  cases serverConfigError config with
  | some message =>
      exact hbefore hp (follows_logError ordinary_early _) fun _ => hreturn 1
  | none =>
      simp only
      unfold loadSnapshot
      rw [bind_assoc]
      refine ensures_bind ((openFile_early _ hp).mono ?_ fun _ q hq => .inl hq)
      rintro input q ⟨hfile, hq⟩
      cases hload : loadCampaignStoreSnapshot host.extract input with
      | none =>
          simp only [bind_assoc, pure_bind]
          exact hbefore hq (follows_logError ordinary_early _) fun _ q hq =>
            hbefore hq (follows_logError ordinary_early _) fun _ => hreturn 1
      | some store =>
          simp only [pure_bind]
          refine hbefore hq follows_eventfd fun opened q hq => ?_
          cases opened with
          | none => exact hbefore hq (follows_logError ordinary_early _) fun _ => hreturn 1
          | some shutdownEventFd =>
              refine hbefore hq (follows_installSignalHandlers ordinary_early _) fun scope q hq => ?_
              cases scope with
              | none =>
                  exact hbefore hq (follows_logError ordinary_early _) fun _ q hq =>
                    hbefore hq (follows_setShutdownEventFd ordinary_early _) fun _ q hq =>
                      hbefore hq (follows_closeDescriptor ordinary_early _ _) fun _ => hreturn 1
              | some scope => exact serve_reached hfile hload hq scope

/-- The state that a run of the server has got to. -/
theorem runServer_state (host : Host) (config : ServerConfig) {p : Process} (hp : Early p)
    (is : List SystemAnswer) : Reached host config is ((runServer host config).run p is).state :=
  (runServer_reached is hp).state_of_rely fun _ h => h

/-! ## A stage of a thread -/

/-- How a stage of a worker ended: with the next stage, or left in a call. -/
inductive StageEnd (env : Platform) (w : World) (answers : List Answer) (stage : Stage)
    (w' : World) : Standing → Prop where
  | done (stage' : Stage) (h : (stage.next env).run w answers = .done stage' w' []) :
      StageEnd env w answers stage w' (.ready stage')
  | waiting (call : Call) (h : (stage.next env).run w answers = .waiting call w') :
      StageEnd env w answers stage w' (.inside call)

theorem StageEnd.state {w w' : World} {answers : List Answer} {stage : Stage} {standing : Standing}
    (h : StageEnd env w answers stage w' standing) :
    ((stage.next env).run w answers).state = w' := by
  cases h with
  | done stage' h => rw [h]; rfl
  | waiting call h => rw [h]; rfl

/-- A thread runs a stage of its loop, or the end of its function. -/
inductive ThreadStep (env : Platform) (p : Process) (i : Nat) (answers : List Answer)
    (worker : Worker) : Process → Prop where
  | stage (stage : Stage) (w' : World) (standing : Standing)
      (hready : worker.standing = .ready stage)
      (hallowed : ∀ a ∈ answers, p.allows worker.world.runtime.config.shutdownFd a = true)
      (hend : StageEnd env (worker.world.load p.recorder p.shutdownSignals) answers stage w' standing) :
      ThreadStep env p i answers worker
        (p.store i ⟨w', standing, worker.accepted ++ acceptedFds answers⟩)
  | ended (workerResult : Int) (hready : worker.standing = .ready (.returned workerResult)) :
      ThreadStep env p i answers worker (p.endThread i worker workerResult)

theorem runThread_some {p q : Process} {i : Nat} {answers : List Answer}
    (h : p.runThread env i answers = some q) :
    ∃ worker, p.workers[i]? = some worker ∧ ThreadStep env p i answers worker q := by
  unfold Process.runThread at h
  cases hi : p.workers[i]? with
  | none => simp only [hi] at h; cases h
  | some worker =>
      refine ⟨worker, rfl, ?_⟩
      simp only [hi] at h
      split at h
      · rename_i workerResult hready
        split at h
        · cases h
          exact .ended workerResult hready
        · cases h
      · rename_i stage _ hready
        split at h
        · rename_i hallowed
          have hall := List.all_eq_true.mp hallowed
          split at h
          · rename_i stage' w' hrun
            cases h
            exact .stage stage w' _ hready hall (.done stage' hrun)
          · cases h
          · rename_i call w' hrun
            cases h
            exact .stage stage w' _ hready hall (.waiting call hrun)
          · cases h
        · cases h
      · cases h

theorem Process.store_fields (p : Process) (i : Nat) (worker : Worker) :
    (p.store i worker).workers = p.workers.modify i (fun _ => worker) ∧
      (p.store i worker).recorder = worker.world.runtime.benchmarkRecorder ∧
      (p.store i worker).descriptors = p.descriptors ∧
      (p.store i worker).stopRequests = p.stopRequests := by
  unfold Process.store
  simp only
  split <;> exact ⟨rfl, rfl, rfl, rfl⟩

theorem Process.endThread_fields (p : Process) (i : Nat) (worker : Worker) (workerResult : Int) :
    (p.endThread i worker workerResult).workers =
        p.workers.modify i (fun _ => { worker with standing := .exited }) ∧
      (p.endThread i worker workerResult).recorder = p.recorder ∧
      (p.endThread i worker workerResult).descriptors = p.descriptors ∧
      (p.endThread i worker workerResult).stopRequests = p.stopRequests ∧
      p.shutdownSignals ≤ (p.endThread i worker workerResult).shutdownSignals := by
  unfold Process.endThread
  simp only
  obtain ⟨hworkers, hrecorder, hdescriptors, hstops, hsignals⟩ := requestShutdown_workers
    ((if workerResult ≠ 0 then { p with exitCode := workerResult } else p).modifyWorker i
      fun _ => { worker with standing := .exited }) worker.world.runtime.config.shutdownFd
  rw [hworkers, hrecorder, hdescriptors, hstops]
  refine ⟨?_, ?_, ?_, ?_, Nat.le_trans ?_ hsignals⟩ <;> split <;> rfl

/-! ## What each worker keeps by itself -/

/-- What holds of all workers, when one is replaced. -/
theorem forall_mem_modify {inv : Worker → Prop} {workers : List Worker} {i : Nat}
    {f : Worker → Worker} (h : ∀ worker ∈ workers, inv worker)
    (hf : ∀ worker, workers[i]? = some worker → inv (f worker)) :
    ∀ worker ∈ workers.modify i f, inv worker := by
  intro worker hmem
  obtain ⟨j, hj⟩ := List.mem_iff_getElem?.mp hmem
  rw [List.getElem?_modify] at hj
  obtain ⟨old, hold, heq⟩ := Option.map_eq_some_iff.mp hj
  by_cases hij : i = j
  · rw [if_pos hij] at heq
    rw [← heq]
    exact hf old (hij ▸ hold)
  · rw [if_neg hij] at heq
    rw [← heq]
    exact h old (List.mem_of_getElem? hold)

/-- One worker is replaced by one that counts as much. -/
theorem map_modify_same {α β : Type} (f : α → β) (g : α → α) (h : ∀ a, f (g a) = f a) (l : List α)
    (i : Nat) : (l.modify i g).map f = l.map f := by
  refine List.ext_getElem? fun j => ?_
  rw [List.getElem?_map, List.getElem?_map, List.getElem?_modify]
  cases l[j]? with
  | none => rfl
  | some a =>
      show some (f (if i = j then g a else a)) = some (f a)
      split
      · rw [h]
      · rfl

/-- The one that is replaced leaves the sum, and the new one enters. -/
theorem sum_map_modify {α M : Type} [AddCommMonoid M] (f : α → M) (g : α → α) {l : List α} {i : Nat}
    {a : α} (hi : l[i]? = some a) :
    ((l.modify i g).map f).sum + f a = (l.map f).sum + f (g a) := by
  induction l generalizing i with
  | nil => cases hi
  | cons b l ih =>
      cases i with
      | zero =>
          cases hi
          simp only [List.modify_zero_cons, List.map_cons, List.sum_cons]
          rw [add_right_comm, add_comm (f (g a)), add_right_comm]
      | succ i =>
          simp only [List.modify_succ_cons, List.map_cons, List.sum_cons]
          rw [add_assoc, ih hi, add_assoc]

/-- A property of a worker that its own thread keeps, whatever it finds in
the shared state. -/
structure Local (env : Platform) (store : CampaignStoreSnapshot) (shutdownFd : Fd)
    (inv : Worker → Prop) : Prop where
  fresh : ∀ {worker : Worker}, worker.Fresh store shutdownFd → inv worker
  shutDown : ∀ {worker : Worker}, worker.standing = .shutDown → inv worker
  stage : ∀ {worker : Worker} {stage : Stage} {recorder : Option BenchmarkRecorder}
    {shutdownSignals : Nat} {answers : List Answer} {w' : World} {standing : Standing}
    (accepted : List Fd), inv worker → worker.standing = .ready stage →
    StageEnd env (worker.world.load recorder shutdownSignals) answers stage w' standing →
    inv ⟨w', standing, accepted⟩
  ended : ∀ {worker : Worker} {n : Int}, inv worker → worker.standing = .ready (.returned n) →
    inv { worker with standing := .exited }

/-- Then every step keeps it of all workers. -/
theorem Local.kept {inv : Worker → Prop} (hinv : Local env store shutdownFd inv) {p q : Process}
    (h : ∀ worker ∈ p.workers, inv worker) (hstep : ProcessStep env store shutdownFd p q) :
    ∀ worker ∈ q.workers, inv worker := by
  cases hstep with
  | quiet hquiet =>
      rw [hquiet.workers]
      exact h
  | opened fd hfresh => exact h
  | closed owner fd =>
      cases owner with
      | none => exact h
      | some i => exact forall_mem_modify h fun _ _ => hinv.shutDown rfl
  | interrupted a hint =>
      rw [(interrupt_some hint).1]
      exact h
  | thread i answers hthread =>
      obtain ⟨worker, hi, hthread⟩ := runThread_some hthread
      have hworker := h worker (List.mem_of_getElem? hi)
      cases hthread with
      | stage stage w' standing hready hallowed hend =>
          rw [(Process.store_fields _ _ _).1]
          exact forall_mem_modify h fun _ _ => hinv.stage _ hworker hready hend
      | ended n hready =>
          rw [(Process.endThread_fields _ _ _ _).1]
          exact forall_mem_modify h fun _ _ => hinv.ended hworker hready
  | booted worker hfresh =>
      intro worker' hmem
      rcases List.mem_append.mp hmem with hold | hnew
      · exact h worker' hold
      · rw [List.mem_singleton.mp hnew]
        exact hinv.fresh hfresh
  | cleared i runtime => exact forall_mem_modify h fun _ _ => hinv.shutDown rfl

end

end RtbEngine
