import RtbEngine.Theorems.Shutdown

/-!
# The life of the server

`main` from its first call to its last `close`, with the book of `Ledger`. In
every run no descriptor is closed that is not open, and the counter is not
written through a descriptor that has been closed; and a run that returns has
closed all that it opened and put the signal handlers back.
-/

namespace RtbEngine

open Lib Exec Relation

section

variable {host : Host} {config : ServerConfig} {base : Finset Fd} {b : Book} {shutdownFd : Fd}

/-! ## Threads -/

theorem tracks_schedule (env : Platform) :
    Tracks (Ledger base) Safe b (schedule env) fun _ b' => ∃ recorder, b' = { b with recorder } := by
  refine tracks_call audited_ledger (fun _ h => by cases h) ?_
  intro p a x q hp hans
  cases a with
  | thread i answers =>
      obtain ⟨q', hq', heq⟩ := Option.map_eq_some_iff.mp hans
      cases heq
      obtain ⟨recorder, hledger⟩ := hp.runThread hq'
      exact ⟨_, ⟨recorder, rfl⟩, hledger⟩
  | _ => cases hans

/-- The workers have all ended: the counter was written. -/
theorem tracks_join (env : Platform) :
    Tracks (Ledger base) Safe b (loop (joinRound env) ()) fun _ b' =>
      ∃ recorder wakes, b' = { b with recorder, wakes } ∧ (0 < b.workers → 0 < wakes) := by
  refine tracks_loop (fun _ b' => ∃ recorder, b' = { b with recorder }) (productive_joinRound env)
    ?_ ⟨b.recorder, rfl⟩
  rintro _ _ ⟨recorder, rfl⟩
  intro p hp
  refine ensures_bind ?_
  refine ensures_read ?_
  split
  · rename_i hexited
    have hall := List.all_eq_true.mp hexited
    refine ensures_pure ⟨{ b with recorder, wakes := p.shutdownSignals }, ?_, ?_⟩
    · refine ⟨recorder, p.shutdownSignals, rfl, fun hpos => ?_⟩
      obtain ⟨worker, hmem⟩ : ∃ worker, worker ∈ p.workers :=
        List.exists_mem_of_length_pos (hp.workers.symm ▸ hpos)
      refine hp.woken worker hmem ?_
      have hstanding := hall worker hmem
      cases hworker : worker.standing with
      | exited => rfl
      | _ =>
          rw [hworker] at hstanding
          cases hstanding
    · exact { hp with wakes := Nat.le_refl _ }
  · refine ensures_bind ?_
    refine (tracks_schedule env p hp).weaken ?_
    rintro _ q ⟨_, ⟨recorder', rfl⟩, hq⟩
    exact ensures_pure ⟨_, ⟨recorder', rfl⟩, hq⟩

theorem tracks_startTimer (hevent : b.event = some shutdownFd) :
    Tracks (Ledger base) Safe b (startTimer config shutdownFd) fun _ b' =>
      ∃ timer, b' = { b with timer } := by
  refine tracks_ite (fun _ => ?_) fun _ => tracks_pure ⟨b.timer, rfl⟩
  refine tracks_modify (fun p hp => ?_) ⟨true, rfl⟩
  exact
    { hp with
      apart := hp.apart.same rfl rfl
      timer := .inr ⟨rfl, hevent.symm⟩ }

theorem books_joinTimer : Books base b joinTimer fun _ => { b with timer := false } := by
  refine tracks_call audited_ledger (fun _ h => by cases h) ?_
  intro p a x q hp hans
  cases a with
  | result ok =>
      cases hans
      refine ⟨_, rfl, ?_⟩
      exact
        { hp with
          apart := hp.apart.same rfl rfl
          timer := .inl rfl }
  | _ => cases hans

theorem tracks_runThreads (env : Platform) (hevent : b.event = some shutdownFd) :
    Tracks (Ledger base) Safe b (runThreads env config shutdownFd) fun _ b' =>
      ∃ recorder wakes, b' = { b with recorder, wakes, timer := false } ∧
        (0 < b.workers → 0 < wakes) := by
  refine tracks_bind (tracks_startTimer hevent) ?_
  rintro _ _ ⟨timer, rfl⟩
  refine tracks_bind (tracks_join env) ?_
  rintro _ _ ⟨recorder, wakes, rfl, hwakes⟩
  refine books_joinTimer.mono ?_
  rintro _ _ rfl
  exact ⟨recorder, wakes, rfl, hwakes⟩

/-! ## Signal handlers -/

/-- The actions with one of them changed. -/
def withAction (handled : Signal → Bool) (signal : Signal) (handle : Bool) : Signal → Bool :=
  fun s => if s = signal then handle else handled s

theorem tracks_sigaction (signal : Signal) (handle : Bool) :
    Tracks (Ledger base) Safe b (sigaction signal handle) fun previous b' =>
      match previous with
      | none => b' = b
      | some previous => previous = b.handled signal ∧
          b' = { b with handled := withAction b.handled signal handle } := by
  refine tracks_call audited_ledger (fun _ h => by cases h) ?_
  intro p a x q hp hans
  cases a with
  | result ok =>
      cases ok with
      | true =>
          cases hans
          refine ⟨_, ⟨congrFun hp.handled signal, rfl⟩, ?_⟩
          exact
            { hp with
              apart := hp.apart.same rfl rfl
              handled := congrArg (withAction · signal handle) hp.handled }
      | false =>
          cases hans
          exact ⟨b, rfl, hp⟩
  | _ => cases hans

theorem books_restoreAction (signal : Signal) (previous : Bool) :
    Books base b (restoreAction signal previous) fun _ =>
      { b with handled := withAction b.handled signal previous } := by
  refine tracks_call audited_ledger (fun _ h => by cases h) ?_
  intro p a x q hp hans
  cases a with
  | result ok =>
      cases ok with
      | true =>
          cases hans
          refine ⟨_, rfl, ?_⟩
          exact
            { hp with
              apart := hp.apart.same rfl rfl
              handled := congrArg (withAction · signal previous) hp.handled }
      | false => cases hans
  | _ => cases hans

theorem books_setShutdownEventFd {fd : Fd} (hfd : fd < 0 ∨ b.event = some fd) :
    Books base b (setShutdownEventFd fd) fun _ => { b with shutdownEventFd := fd } := by
  refine tracks_modify (fun p hp => ?_) rfl
  exact
    { hp with
      apart := hp.apart.same rfl rfl
      shutdownEventFd := rfl
      reach := hfd }

/-- Both actions are changed, or neither. -/
theorem tracks_installSignalHandlers (hevent : b.event = some shutdownFd)
    (hglobal : b.shutdownEventFd < 0) :
    Tracks (Ledger base) Safe b (installSignalHandlers shutdownFd) fun scope b' =>
      match scope with
      | none => b' = b
      | some scope => b' = { b with shutdownEventFd := shutdownFd, handled := fun _ => true } ∧
          scope = ⟨b.handled .sigint, b.handled .sigterm, b.shutdownEventFd⟩ := by
  refine tracks_bind (r := fun p b' => p.shutdownEventFd = b.shutdownEventFd ∧ b' = b)
    (tracks_read fun p hp => ⟨hp.shutdownEventFd, rfl⟩) ?_
  rintro p b ⟨hprevious, rfl⟩
  rw [hprevious]
  refine tracks_bind (books_setShutdownEventFd (.inr hevent)) ?_
  rintro _ _ rfl
  refine tracks_bind (tracks_sigaction .sigint true) ?_
  intro previousSigint b1 h1
  cases previousSigint with
  | none =>
      obtain rfl := h1
      refine tracks_bind (books_setShutdownEventFd (.inl hglobal)) ?_
      rintro _ _ rfl
      exact tracks_pure rfl
  | some previousSigint =>
      obtain ⟨rfl, rfl⟩ := h1
      refine tracks_bind (tracks_sigaction .sigterm true) ?_
      intro previousSigterm b2 h2
      cases previousSigterm with
      | none =>
          obtain rfl := h2
          refine tracks_bind (books_restoreAction _ _) ?_
          rintro _ _ rfl
          refine tracks_bind (books_setShutdownEventFd (.inl hglobal)) ?_
          rintro _ _ rfl
          refine tracks_pure ?_
          have hback : withAction (withAction b.handled .sigint true) .sigint (b.handled .sigint) =
              b.handled := by
            funext s
            cases s <;> rfl
          exact congrArg (fun handled => ({ b with handled } : Book)) hback
      | some previousSigterm =>
          obtain ⟨rfl, rfl⟩ := h2
          refine tracks_pure ⟨?_, rfl⟩
          have hboth : withAction (withAction b.handled .sigint true) .sigterm true = fun _ => true := by
            funext s
            cases s <;> rfl
          exact congrArg
            (fun handled => ({ b with shutdownEventFd := shutdownFd, handled } : Book)) hboth

theorem books_restore {scope : SignalHandlerScope} (hfd : scope.previousEventFd < 0) :
    Books base b scope.restore fun _ =>
      { b with
        shutdownEventFd := scope.previousEventFd
        handled := fun signal =>
          match signal with
          | .sigint => scope.previousSigint
          | .sigterm => scope.previousSigterm } := by
  refine tracks_bind (books_restoreAction _ _) ?_
  rintro _ _ rfl
  refine tracks_bind (books_restoreAction _ _) ?_
  rintro _ _ rfl
  refine (books_setShutdownEventFd (.inl hfd)).mono ?_
  rintro _ _ rfl
  refine congrArg
    (fun handled => ({ b with shutdownEventFd := scope.previousEventFd, handled } : Book)) ?_
  funext s
  cases s <;> rfl

/-! ## `run_server` -/

/-- The metadata of the report. -/
def ServerConfig.metadata (config : ServerConfig) (completedRequests : Nat) : BenchmarkMetadata :=
  { port := config.port
    workers := config.workers
    requestLimit := config.benchmarkRequests
    durationMs := config.benchmarkDurationMs
    completedRequests
    campaignDataPath := config.campaignDataPath }

/-- What is printed of a recorder. -/
def summaryOf (host : Host) (recorder : Option BenchmarkRecorder) : Bytes :=
  recorder.elim [] fun recorder => recorder.printSummary host.platform.fl host.lfl

/-- The file is what the recorder writes at some time. -/
def ReportOf (host : Host) (config : ServerConfig) (recorder : Option BenchmarkRecorder)
    (text : Bytes) : Prop :=
  ∃ r now, recorder = some r ∧
    r.writeJson host.platform.fl host.lfl now true (config.metadata r.completedRequests) = some text

theorem tracks_reportBenchmark (hnone : b.benchmarkJson = none) :
    Tracks (Ledger base) Safe b (reportBenchmark host config) fun _ b' =>
      ∃ benchmarkJson, b' = { b with stdout := b.stdout ++ summaryOf host b.recorder, benchmarkJson } ∧
        ∀ text, benchmarkJson = some text → ReportOf host config b.recorder text := by
  refine tracks_bind (r := fun p b' => p.recorder = b.recorder ∧ b' = b)
    (tracks_read fun p hp => ⟨hp.recorder, rfl⟩) ?_
  rintro p b ⟨hrecorder, rfl⟩
  have hno : ∀ text, b.benchmarkJson = some text → ReportOf host config b.recorder text := by
    intro text htext
    rw [hnone] at htext
    cases htext
  cases hp : p.recorder with
  | none =>
      have hsummary : summaryOf host b.recorder = [] := by
        rw [← hrecorder, hp]
        rfl
      exact tracks_pure ⟨b.benchmarkJson, by rw [hsummary, List.append_nil], hno⟩
  | some recorder =>
      have hb : b.recorder = some recorder := hrecorder.symm.trans hp
      have hsummary : summaryOf host b.recorder =
          recorder.printSummary host.platform.fl host.lfl := by
        rw [hb]
        rfl
      rw [hsummary]
      refine tracks_bind (books_print _) ?_
      rintro _ _ rfl
      refine tracks_ite (fun _ => ?_) fun _ => tracks_pure ⟨b.benchmarkJson, rfl, hno⟩
      refine tracks_bind (r := fun written b' =>
        b' = { b with stdout := b.stdout ++ recorder.printSummary host.platform.fl host.lfl } ∧
          ∀ text, written = some text → ReportOf host config b.recorder text)
        (tracks_call audited_ledger (fun _ h => by cases h) ?_) ?_
      · intro p a x q hp hans
        cases a with
        | report isOpen now =>
            cases hans
            refine ⟨_, ⟨rfl, ?_⟩, hp⟩
            intro text htext
            cases isOpen with
            | true => exact ⟨recorder, now, hb, htext⟩
            | false => cases htext
        | _ => cases hans
      rintro written _ ⟨rfl, hwritten⟩
      cases written with
      | none =>
          refine (books_logError _).mono ?_
          rintro _ _ rfl
          exact ⟨b.benchmarkJson, rfl, hno⟩
      | some text =>
          refine tracks_modify (fun p hp => ?_) ⟨some text, rfl, ?_⟩
          · exact
              { hp with
                apart := hp.apart.same rfl rfl
                benchmarkJson := rfl }
          · rintro _ ⟨⟩
            exact hwritten text rfl

/-- Everything is closed, and nothing refers to the counter. -/
structure Book.Closed (b : Book) : Prop where
  event : b.event = none
  pending : b.pending = 0
  shutdownEventFd : b.shutdownEventFd = -1
  timer : b.timer = false
  leaving : ∀ i < b.workers, b.leaving i = some []

/-- What a server has said and done that returns 0. -/
structure Book.Served (host : Host) (config : ServerConfig) (b : Book) : Prop where
  workers : b.workers = config.workers.toNatClampNeg
  wakes : 0 < b.wakes
  stdout : b.stdout = listeningLine config ++ summaryOf host b.recorder
  report : ∀ text, b.benchmarkJson = some text → ReportOf host config b.recorder text

theorem unset_neg : (-1 : Fd) < 0 := by decide

/-- The event descriptor is closed, and the program returns. -/
theorem tracks_stop {exit : ProcessM Int} {post : Int → Book → Prop} (hevent : b.event = some shutdownFd)
    (htimer : b.timer = false) (hleaving : ∀ i < b.workers, b.leaving i = some [])
    (hexit : Tracks (Ledger base) Safe { b with event := none, shutdownEventFd := -1 } exit post) :
    Tracks (Ledger base) Safe b (setShutdownEventFd (-1) >>= fun _ =>
      closeDescriptor none shutdownFd >>= fun _ => exit) post := by
  refine tracks_bind (books_setShutdownEventFd (.inl unset_neg)) ?_
  rintro _ _ rfl
  refine tracks_bind (r := fun _ b' => b' = { b with event := none, shutdownEventFd := -1 }) ?_ ?_
  · intro p hp
    refine ensures_bind ?_
    refine ensures_read ?_
    have hholds : p.holds none shutdownFd = true := by
      have hmem := hp.event_mem hevent
      simp [Process.holds, hmem]
    rw [if_pos hholds]
    refine tracks_call audited_ledger (fun _ h => by cases h) ?_ p hp
    intro p a x q hp hans
    cases a with
    | result ok =>
        cases hans
        exact ⟨_, rfl, hp.close_event hevent unset_neg htimer hleaving⟩
    | _ => cases hans
  · rintro _ _ rfl
    exact hexit

/-- A configuration that is accepted has a worker. -/
theorem workers_pos (hconfig : serverConfigError config = none) :
    0 < config.workers.toNatClampNeg := by
  unfold serverConfigError at hconfig
  split at hconfig
  · cases hconfig
  · split at hconfig
    · cases hconfig
    · rename_i hworkers
      rw [Int32.le_iff_toInt_le] at hworkers
      have hpos : 0 < config.workers.toInt := Int.not_le.mp hworkers
      show 0 < config.workers.toInt.toNat
      omega

theorem tracks_serveWorkers (hconfig : serverConfigError config = none)
    (store : CampaignStoreSnapshot) (hevent : b.event = some shutdownFd) (hpending : b.pending = 0)
    (hleaving : b.leaving = fun _ => none) (hworkers : b.workers = 0) (htimer : b.timer = false)
    (hstdout : b.stdout = []) (hjson : b.benchmarkJson = none) :
    Tracks (Ledger base) Safe b (serveWorkers host config store shutdownFd) fun n b' =>
      b'.Closed ∧ b'.handled = b.handled ∧ (n = 0 ∨ n = 1) ∧ (n = 0 → b'.Served host config) := by
  refine tracks_bind (tracks_startWorkers hevent hleaving _) ?_
  rintro started _ ⟨workers, rfl, hcount⟩
  refine tracks_ite (fun hstarted => ?_) fun _ => ?_
  · have hids : workers = config.workers.toNatClampNeg := by
      have hlength := hcount hstarted
      simpa [hworkers] using hlength
    refine tracks_bind (books_print _) ?_
    rintro _ _ rfl
    refine tracks_bind (tracks_runThreads host.platform hevent) ?_
    rintro _ _ ⟨recorder, wakes, rfl, hwakes⟩
    refine tracks_bind (books_shutdownAll hleaving) ?_
    rintro _ _ rfl
    refine tracks_bind (tracks_reportBenchmark hjson) ?_
    rintro _ _ ⟨benchmarkJson, rfl, hreport⟩
    refine tracks_stop hevent rfl (fun i hi => if_pos hi) ?_
    intro p hp
    refine ensures_bind ?_
    refine ensures_read ?_
    refine ensures_pure ⟨_, ?_, hp⟩
    refine ⟨⟨rfl, hpending, rfl, rfl, fun i hi => if_pos hi⟩, rfl, .inl hp.exitCode, fun _ => ?_⟩
    refine ⟨hids, hwakes ?_, ?_, hreport⟩
    · show 0 < workers
      rw [hids]
      exact workers_pos hconfig
    · show b.stdout ++ listeningLine config ++ summaryOf host recorder = _
      rw [hstdout]
      rfl
  · refine tracks_bind (books_shutdownAll hleaving) ?_
    rintro _ _ rfl
    refine tracks_stop hevent htimer (fun i hi => if_pos hi) ?_
    exact tracks_pure ⟨⟨rfl, hpending, rfl, htimer, fun i hi => if_pos hi⟩, rfl, .inr rfl, nofun⟩

/-- `run_server` once the handlers are there. -/
theorem tracks_serve (hconfig : serverConfigError config = none) (store : CampaignStoreSnapshot)
    (hevent : b.event = some shutdownFd) (hpending : b.pending = 0)
    (hleaving : b.leaving = fun _ => none) (hworkers : b.workers = 0) (htimer : b.timer = false)
    (hstdout : b.stdout = []) (hjson : b.benchmarkJson = none) :
    Tracks (Ledger base) Safe b (serve host config store shutdownFd) fun n b' =>
      b'.Closed ∧ b'.handled = b.handled ∧ (n = 0 ∨ n = 1) ∧ (n = 0 → b'.Served host config) := by
  have hstart : Tracks (Ledger base) Safe b
      (modify fun p =>
        { p with
          shutdownRequested := false
          recorder :=
            if config.benchmark then some { requestLimit := config.benchmarkRequests }
            else none } : ProcessM Unit)
      fun _ b' => ∃ recorder, b' = { b with recorder } := by
    refine tracks_modify (fun p hp => ?_) ⟨if config.benchmark then
      some { requestLimit := config.benchmarkRequests } else none, rfl⟩
    exact
      { hp with
        apart := hp.apart.same rfl rfl
        recorder := rfl }
  refine tracks_bind hstart ?_
  rintro _ _ ⟨recorder, rfl⟩
  exact @tracks_serveWorkers _ _ _ { b with recorder } _ hconfig store hevent hpending hleaving hworkers
    htimer hstdout hjson

/-- What `run_server` leaves, whatever it returns. -/
def Leaves (host : Host) (config : ServerConfig) (n : Int) (b : Book) : Prop :=
  b.Closed ∧ b.handled = (fun _ => false) ∧ (n = 0 ∨ n = 1) ∧ (n = 0 → b.Served host config)

theorem leaves_refused : Leaves host config 1 {} :=
  ⟨⟨rfl, rfl, rfl, rfl, fun _ h => absurd h (Nat.not_lt_zero _)⟩, rfl, .inr rfl, nofun⟩

/-- The event descriptor is the first that the server opens. -/
theorem tracks_eventfd : Tracks (Ledger base) Safe {} eventfd fun opened b' =>
    b' = { event := opened } := by
  refine tracks_bind (tracks_openDescriptor fun _ h => by cases h) ?_
  rintro opened _ ⟨hopened, rfl⟩
  refine tracks_bind (r := fun _ b' => b' = { event := opened }) (tracks_modify (fun p hp => ?_) rfl) ?_
  · have hnone : p.workers = [] := List.length_eq_zero_iff.mp hp.workers
    refine
      { hp with
        descriptors := ?_
        apart := hp.apart.same rfl rfl
        crew := ?_
        eventFd := rfl
        nonneg := hopened
        reach := .inl unset_neg
        timer := ?_
        wakes := Nat.zero_le _
        woken := ?_ }
    · have hdescriptors := hp.descriptors
      simpa [Book.held] using hdescriptors
    · intro i worker hi
      rw [hnone] at hi
      cases hi
    · exact .inl (hp.timer.elim id fun hset => by cases hset.1)
    · intro worker hmem
      rw [hnone] at hmem
      cases hmem
  · rintro _ _ rfl
    exact tracks_pure rfl

/-- **The server, from its first call to its last.** -/
theorem tracks_runServer :
    Tracks (Ledger base) Safe {} (runServer host config) (Leaves host config) := by
  unfold runServer
  cases hconfig : serverConfigError config with
  | some message =>
      refine tracks_bind (books_logError _) ?_
      rintro _ _ rfl
      exact tracks_pure leaves_refused
  | none =>
      simp only
      refine tracks_bind (books_loadSnapshot _) ?_
      rintro loaded _ rfl
      cases loaded with
      | none => exact tracks_pure leaves_refused
      | some store =>
          refine tracks_bind tracks_eventfd ?_
          rintro opened _ rfl
          cases opened with
          | none =>
              refine tracks_bind (books_logError _) ?_
              rintro _ _ rfl
              exact tracks_pure leaves_refused
          | some shutdownEventFd =>
              refine tracks_bind (tracks_installSignalHandlers rfl unset_neg) ?_
              intro scope b' hscope
              cases scope with
              | none =>
                  obtain rfl := hscope
                  refine tracks_bind (books_logError _) ?_
                  rintro _ _ rfl
                  exact tracks_stop rfl rfl (fun _ h => absurd h (Nat.not_lt_zero _))
                    (tracks_pure leaves_refused)
              | some scope =>
                  obtain ⟨rfl, rfl⟩ := hscope
                  refine tracks_bind (tracks_serve hconfig store rfl rfl rfl rfl rfl rfl rfl) ?_
                  rintro n b ⟨hclosed, -, hn, hserved⟩
                  refine tracks_bind (books_restore unset_neg) ?_
                  rintro _ _ rfl
                  refine tracks_pure ⟨⟨hclosed.event, hclosed.pending, rfl, hclosed.timer, hclosed.leaving⟩,
                    ?_, hn, fun hzero => ?_⟩
                  · funext signal
                    cases signal <;> rfl
                  · obtain ⟨hworkers, hwakes, hstdout, hreport⟩ := hserved hzero
                    exact ⟨hworkers, hwakes, hstdout, hreport⟩

end

/-! ## Every run -/

/-- What the book says in the end, of the process. -/
theorem Ledger.closed {base : Finset Fd} {b : Book} {p : Process} (h : Ledger base b p)
    (hclosed : b.Closed) : p.descriptors = base ∧ (∀ worker ∈ p.workers, ∀ fd, ¬ worker.Serves fd) ∧
      p.eventFd = none ∧ p.shutdownEventFd = -1 ∧ p.timer = none := by
  have hleft : ∀ worker ∈ p.workers, worker.Leaving [] := by
    intro worker hmem
    obtain ⟨i, hi⟩ := List.mem_iff_getElem?.mp hmem
    have hlt : i < b.workers := h.workers ▸ (List.getElem?_eq_some_iff.mp hi).1
    have hfits := h.crew i worker hi
    rwa [hclosed.leaving i hlt] at hfits
  refine ⟨?_, ?_, h.eventFd.trans hclosed.event, h.shutdownEventFd.trans hclosed.shutdownEventFd, ?_⟩
  · have hown : (p.workers.map Worker.own).sum = 0 := by
      refine List.sum_eq_zero ?_
      intro own hmem
      obtain ⟨worker, hworker, rfl⟩ := List.mem_map.mp hmem
      exact (hleft worker hworker).own
    have hdescriptors := h.descriptors
    rw [hown, Book.held, hclosed.event, hclosed.pending] at hdescriptors
    exact Finset.val_injective (hdescriptors.trans (by simp))
  · intro worker hmem fd hserves
    exact List.not_mem_nil (((hleft worker hmem).clients fd).mp hserves)
  · refine h.timer.elim id fun hset => ?_
    rw [hclosed.timer] at hset
    cases hset.1

/-- `main` leaves what `run_server` leaves. -/
theorem tracks_main (host : Host) (args : List Bytes) (base : Finset Fd) :
    Tracks (Ledger base) Safe {} (main host args) fun n b =>
      b.Closed ∧ b.handled = (fun _ => false) ∧ (n = 0 ∨ n = 1) := by
  have hboot : ∀ stdout, Book.Closed { stdout } :=
    fun _ => ⟨rfl, rfl, rfl, rfl, fun _ h => absurd h (Nat.not_lt_zero _)⟩
  unfold main
  simp only
  cases (parseServerConfig host.projectSourceDir args).status with
  | helpRequested =>
      refine tracks_bind (books_print _) ?_
      rintro _ _ rfl
      exact tracks_pure ⟨hboot _, rfl, .inl rfl⟩
  | invalidArgument =>
      refine tracks_bind (r := fun _ b => b = {}) (tracks_modify (fun p hp => ?_) rfl) ?_
      · exact { hp with apart := hp.apart.same rfl rfl }
      · rintro _ _ rfl
        exact tracks_pure ⟨hboot _, rfl, .inr rfl⟩
  | ok =>
      refine tracks_runServer.mono ?_
      rintro n b ⟨hclosed, hhandled, hn, -⟩
      exact ⟨hclosed, hhandled, hn⟩

/-- **Nothing is left open.** In every run of `main`, with any arguments, any
answers of the system, any order of the threads and signals at any call:
neither `main` nor a worker closes a descriptor that is not open, nothing is
written to a descriptor that is not the counter's, and no loop runs without a
call. A run that returns has closed every descriptor that it opened, and no
other, has put the signal handlers back and has no timer; it returns 0 or 1. -/
theorem nothing_left_open (host : Host) (args : List Bytes) (descriptors : Finset Fd)
    (clocks : Nat → Clock) (is : List SystemAnswer) :
    let o := (main host args).run { descriptors, clocks } is
    (∀ worker ∈ o.state.workers, worker.Steady host.platform) ∧
      ((∃ k p, o = .waiting k p ∧ (∀ fd, k ≠ .badDescriptor fd) ∧ p.strayWrites = 0) ∨
        ∃ n p rest, o = .done n p rest ∧ p.strayWrites = 0 ∧ p.descriptors = descriptors ∧
          (∀ worker ∈ p.workers, ∀ fd, ¬ worker.Serves fd) ∧ p.eventFd = none ∧
          (∀ signal, p.handled signal = false) ∧ p.shutdownEventFd = -1 ∧ p.timer = none ∧
          (n = 0 ∨ n = 1)) := by
  refine ⟨main_steady host args (early_boot descriptors clocks) is, ?_⟩
  have hrun := tracks_main host args descriptors _ (ledger_boot descriptors clocks) is
    fun _ _ => trivial
  cases ho : (main host args).run { descriptors, clocks } is with
  | done n p rest =>
      rw [ho] at hrun
      obtain ⟨b, ⟨hclosed, hhandled, hn⟩, hledger⟩ := hrun
      obtain ⟨hdescriptors, hserves, hevent, hglobal, htimer⟩ := hledger.closed hclosed
      refine .inr ⟨n, p, rest, rfl, hledger.strayWrites, hdescriptors, hserves, hevent, ?_, hglobal,
        htimer, hn⟩
      intro signal
      rw [hledger.handled, hhandled]
  | waiting k p =>
      rw [ho] at hrun
      exact .inl ⟨k, p, rfl, hrun⟩
  | spinning p =>
      rw [ho] at hrun
      exact hrun.elim

end RtbEngine
