import Mathlib.Data.Finset.Erase
import Mathlib.Data.Finset.Insert
import RtbEngine.Engine.Benchmark
import RtbEngine.Engine.Server
import RtbEngine.Engine.Thread

/-!
# The server process

`main.cc`, `run_server` with its signal handlers, its worker threads and its
timer, and `initialize_worker_runtime`. The process is one program whose calls
are answered from a list: an answer of the scheduler runs a stage of one
thread, so every interleaving of the threads is some list of answers. A signal
may be delivered, and the timer may expire, in any call.

* `Process` — descriptors, signal actions and globals, and the workers;
* `Process.runThread` — a stage of one thread on the shared state;
* `runServer`, `main` — from the first call to the last `close`.
-/

namespace RtbEngine

open Lib Exec

/-! ## The process and its environment -/

/-- The signals that `run_server` handles. -/
inductive Signal where
  | sigint
  | sigterm
  deriving DecidableEq

/-- The code of other libraries, the build's directory, and `argv[0]`. -/
structure Host where
  platform : Platform
  extract : Bytes → Option (Double × Bytes)
  lfl : Double → Double
  projectSourceDir : Bytes := []
  programName : Bytes := []

/-- Where the thread of a worker stands. `inside` is a thread that was left in
a call and does not come back; `shutDown` is a runtime after
`shutdown_worker_runtime`. -/
inductive Standing where
  | ready (stage : Stage)
  | inside (call : Call)
  | exited
  | shutDown

/-- A runtime with its thread. `accepted` lists what `accept4` has given it. -/
structure Worker where
  world : World
  standing : Standing := .ready .waiting
  accepted : List Fd := []

/-- `descriptors` are the open ones that belong to no client; `eventFd` is the
one that refers to the event counter, whose value is `shutdownSignals`.
`shutdownEventFd` and `shutdownRequested` are the globals of `server.cc`, and
`timer` the descriptor that the timer thread writes to when it expires. No
function reads `strayWrites`, the writes to a descriptor that is not the
counter's, and `stopRequests`, the signals and expiries so far. -/
structure Process where
  descriptors : Finset Fd
  clocks : Nat → Clock
  eventFd : Option Fd := none
  shutdownSignals : Nat := 0
  strayWrites : Nat := 0
  stopRequests : Nat := 0
  handled : Signal → Bool := fun _ => false
  shutdownEventFd : Fd := -1
  shutdownRequested : Bool := false
  timer : Option Fd := none
  recorder : Option BenchmarkRecorder := none
  exitCode : Int := 0
  workers : List Worker := []
  stdout : Bytes := []
  stderr : Bytes := []
  benchmarkJson : Option Bytes := none

inductive SocketOption where
  | reuseAddr
  | reusePort

/-- The calls of the process. `schedule` is `join` of the worker threads;
`badDescriptor` is `close` of a descriptor that is not open, or is another's. -/
inductive SystemCall where
  | openFile (path : Bytes)
  | eventfd
  | sigaction (signal : Signal)
  | socket
  | setsockopt (fd : Fd) (option : SocketOption)
  | bind (fd : Fd) (port : UInt16)
  | listen (fd : Fd)
  | epollCreate1
  | epollCtlAdd (fd : Fd)
  | entries (worker : Nat)
  | close (fd : Fd)
  | schedule
  | joinTimer
  | openReport (path : Bytes)
  | badDescriptor (fd : Fd)

inductive SystemAnswer where
  | file (content : Option Bytes)
  | descriptor (result : Option Fd)
  | result (ok : Bool)
  | entries (fds : List Fd)
  | thread (worker : Nat) (answers : List Answer)
  | report (isOpen : Bool) (now : UtcTime)
  | signal (signal : Signal)
  | timer

abbrev ProcessM := Exec SystemCall Process SystemAnswer

/-- No thread has the descriptor for a client, and the process for nothing else. -/
def Process.isOpen (p : Process) (fd : Fd) : Bool :=
  fd ∈ p.descriptors || p.workers.any fun worker => (worker.world.kernel.fdTable fd).isSome

/-! ## Waking the workers -/

/-- `write` of the wake value. -/
def Process.wake (p : Process) (fd : Fd) : Process :=
  if p.eventFd = some fd then { p with shutdownSignals := p.shutdownSignals + 1 }
  else { p with strayWrites := p.strayWrites + 1 }

def Process.requestShutdown (p : Process) (shutdownEventFd : Fd) : Process :=
  let p := { p with shutdownRequested := true }
  if shutdownEventFd < 0 then p else p.wake shutdownEventFd

def Process.handleShutdownSignal (p : Process) : Process :=
  ({ p with stopRequests := p.stopRequests + 1 }).requestShutdown p.shutdownEventFd

/-- The timer thread, when its wait was not cancelled. -/
def Process.timerExpired (p : Process) (shutdownEventFd : Fd) : Process :=
  ({ p with timer := none, stopRequests := p.stopRequests + 1 }).requestShutdown shutdownEventFd

/-- What may happen in any call. -/
def Process.interrupt (p : Process) : SystemAnswer → Option Process
  | .signal signal => if p.handled signal then some p.handleShutdownSignal else none
  | .timer => p.timer.map p.timerExpired
  | _ => none

/-- A call, and the interrupts before it returns. -/
def systemCall {α : Type} (k : SystemCall) (answer : Process → SystemAnswer → Option (α × Process)) :
    ProcessM α :=
  loop (fun _ => ask k fun p a =>
    match p.interrupt a with
    | some p => some (.again (), p)
    | none => (answer p a).map fun r => (.stop r.1, r.2)) ()

/-! ## Descriptors, files and messages -/

/-- A call that gives a descriptor that was not open. -/
def openDescriptor (k : SystemCall) : ProcessM (Option Fd) :=
  systemCall k fun p a =>
    match a with
    | .descriptor none => some (none, p)
    | .descriptor (some fd) =>
        if 0 ≤ fd ∧ p.isOpen fd = false then
          some (some fd, { p with descriptors := insert fd p.descriptors })
        else none
    | _ => none

def eventfd : ProcessM (Option Fd) := do
  let opened ← openDescriptor .eventfd
  modify fun p => { p with eventFd := opened, shutdownSignals := 0 }
  pure opened

/-- Whether `fd` is open for the process itself, or for a client of the owner. -/
def Process.holds (p : Process) (owner : Option Nat) (fd : Fd) : Bool :=
  fd ∈ p.descriptors || (owner.bind fun i => p.workers[i]?).any fun worker =>
    (worker.world.kernel.fdTable fd).isSome

def Process.modifyWorker (p : Process) (i : Nat) (f : Worker → Worker) : Process :=
  { p with workers := p.workers.modify i f }

/-- One more descriptor that `shutdown_worker_runtime` closed. -/
def Worker.close (fd : Fd) (worker : Worker) : Worker :=
  { worker with
    world := { worker.world with kernel := worker.world.kernel.close fd }
    standing := .shutDown }

def Process.close (p : Process) (owner : Option Nat) (fd : Fd) : Process :=
  let p : Process :=
    { p with
      descriptors := p.descriptors.erase fd
      eventFd := if p.eventFd = some fd then none else p.eventFd }
  match owner with
  | none => p
  | some i => p.modifyWorker i (Worker.close fd)

def closeDescriptor (owner : Option Nat) (fd : Fd) : ProcessM Unit := do
  let p ← Exec.read
  if p.holds owner fd then
    systemCall (.close fd) fun p a =>
      match a with
      | .result _ => some ((), p.close owner fd)
      | _ => none
  else ask (.badDescriptor fd) fun _ _ => none

def closeAll (owner : Option Nat) : List Fd → ProcessM Unit
  | [] => pure ()
  | fd :: fds => do
      closeDescriptor owner fd
      closeAll owner fds

def print (text : Bytes) : ProcessM Unit := modify fun p => { p with stdout := p.stdout ++ text }

/-- `LOG_ERROR`. -/
def logError (text : Bytes) : ProcessM Unit :=
  modify fun p => { p with stderr := p.stderr ++ text ++ ascii "\n" }

/-- A call that only succeeds or fails. -/
def succeeds (k : SystemCall) : ProcessM Bool :=
  systemCall k fun p a =>
    match a with
    | .result ok => some (ok, p)
    | _ => none

/-- Such calls one after the other; the first that fails is logged. -/
def attempt : List (SystemCall × Bytes) → ProcessM Bool
  | [] => pure true
  | (k, message) :: more => do
      if ← succeeds k then attempt more
      else do
        logError message
        pure false

/-- What a load that failed writes about it; it has stopped at a line. -/
def loadError (extract : Bytes → Option (Double × Bytes)) (path : Bytes) : Option Bytes → Bytes
  | none => ascii "Failed opening campaign store file: " ++ path
  | some text =>
      ascii "Failed parsing campaign store line " ++
        decimal ((refusedLine extract 0 (getLines text) {}).getD 0) ++ ascii " from " ++ path

/-- `load_campaign_store_snapshot`, and the message of its callers. -/
def loadSnapshot (host : Host) (path : Bytes) : ProcessM (Option CampaignStoreSnapshot) := do
  let input ← systemCall (.openFile path) fun p a =>
    match a with
    | .file content => some (content, p)
    | _ => none
  match loadCampaignStoreSnapshot host.extract input with
  | some store => pure (some store)
  | none => do
      logError (loadError host.extract path input)
      logError (ascii "Failed loading campaign store snapshot from " ++ path)
      pure none

/-! ## A runtime -/

def kDefaultRngSeed : UInt64 := 0x9E3779B97F4A7C15

/-- `shutdown_worker_runtime` of a runtime that has had no client yet. -/
def abandonRuntime (runtime : WorkerRuntime) : ProcessM Unit :=
  closeAll none (shutdownWorkerRuntime runtime []).1

/-- The first reading of the clock goes into the seed. `none` is a failure;
every failure after the socket closes what was opened, and the one of the
socket is the only one without a message. -/
def initializeWorkerRuntime (host : Host) (workerId : Nat) (config : WorkerConfig) (port : UInt16)
    (campaignDataPath : Bytes) (recorder : Option BenchmarkRecorder)
    (store : Option CampaignStoreSnapshot) : ProcessM (Option World) := do
  let p ← Exec.read
  let (now, clock) := (p.clocks workerId).nowNs
  let rng := WorkerRng.seed (UInt64.ofNat (workerId + 1) ^^^ now ^^^ kDefaultRngSeed)
  let loaded ← match store with
    | some store => pure (some store)
    | none => loadSnapshot host campaignDataPath
  match loaded with
  | none => pure none
  | some store => do
      match ← openDescriptor .socket with
      | none => pure none
      | some listenFd => do
          let world := bootWorld config (-1) listenFd rng recorder store clock
          if ← attempt
              [(.setsockopt listenFd .reuseAddr, ascii "Error setting SO_REUSEADDR"),
                (.setsockopt listenFd .reusePort, ascii "Error setting SO_REUSEPORT"),
                (.bind listenFd port, ascii "Error binding to port " ++ decimal port.toNat),
                (.listen listenFd, ascii "Error starting socket listen")] then do
            match ← openDescriptor .epollCreate1 with
            | none => do
                logError (ascii "Error creating epoll fd")
                abandonRuntime world.runtime
                pure none
            | some epollFd => do
                let world := bootWorld config epollFd listenFd rng recorder store clock
                if ← attempt ((.epollCtlAdd listenFd, ascii "Error registering listen fd with epoll") ::
                    if config.shutdownFd ≥ 0 then
                      [(.epollCtlAdd config.shutdownFd,
                        ascii "Error registering shutdown fd with epoll")]
                    else []) then
                  pure (some world)
                else do
                  abandonRuntime world.runtime
                  pure none
          else do
            abandonRuntime world.runtime
            pure none

/-- The entries of the map in the order of the loop over it. Every key was
once given by `accept4`. -/
def connectionEntries (i : Nat) : ProcessM (List Fd) :=
  systemCall (.entries i) fun p a =>
    match a, p.workers[i]? with
    | .entries fds, some worker =>
        let isEntry := fun fd => (worker.world.runtime.connections fd).isSome
        if fds.Nodup ∧ (∀ fd ∈ fds, isEntry fd) ∧ ∀ fd ∈ worker.accepted, isEntry fd → fd ∈ fds then
          some (fds, p)
        else none
    | _, _ => none

/-- The rest of `shutdown_worker_runtime`. -/
def Worker.clear (runtime : WorkerRuntime) (worker : Worker) : Worker :=
  { worker with world := { worker.world with runtime }, standing := .shutDown }

/-- `shutdown_worker_runtime`. -/
def shutdownWorker (i : Nat) : ProcessM Unit := do
  let fds ← connectionEntries i
  let p ← Exec.read
  match p.workers[i]? with
  | none => pure ()
  | some worker => do
      let (closed, runtime) := shutdownWorkerRuntime worker.world.runtime fds
      closeAll (some i) closed
      modify fun p => p.modifyWorker i (Worker.clear runtime)

def shutdownWorkers : List Nat → ProcessM Unit
  | [] => pure ()
  | i :: more => do
      shutdownWorker i
      shutdownWorkers more

/-! ## The worker threads -/

/-- The state that the threads share, as a worker finds it. -/
def World.load (w : World) (recorder : Option BenchmarkRecorder) (shutdownSignals : Nat) : World :=
  { w with
    runtime := { w.runtime with benchmarkRecorder := recorder }
    kernel := { w.kernel with shutdownSignals } }

/-- What a worker leaves of the shared state. -/
def Process.store (p : Process) (i : Nat) (worker : Worker) : Process :=
  let wakes := worker.world.kernel.shutdownSignals - p.shutdownSignals
  let p : Process :=
    { p.modifyWorker i fun _ => worker with
      recorder := worker.world.runtime.benchmarkRecorder }
  if p.eventFd = some worker.world.runtime.config.shutdownFd then
    { p with shutdownSignals := p.shutdownSignals + wakes }
  else { p with strayWrites := p.strayWrites + wakes }

/-- The descriptors that the answers give to `accept4`. -/
def acceptedFds (answers : List Answer) : List Fd :=
  answers.filterMap fun
    | .accepted (.ok fd) => some fd
    | _ => none

/-- The kernel gives a thread no descriptor that is open anywhere in the
process, and reports the event counter only once it was written. -/
def Process.allows (p : Process) (shutdownFd : Fd) : Answer → Bool
  | .accepted (.ok fd) => !p.isOpen fd
  | .events (.ok events) => events.all fun event => event.fd ≠ shutdownFd || 0 < p.shutdownSignals
  | _ => true

/-- The end of the thread function, after `run_worker_loop` returned. -/
def Process.endThread (p : Process) (i : Nat) (worker : Worker) (workerResult : Int) : Process :=
  let p := if workerResult ≠ 0 then { p with exitCode := workerResult } else p
  (p.modifyWorker i fun _ => { worker with standing := .exited }).requestShutdown
    worker.world.runtime.config.shutdownFd

/-- A stage of the `i`-th thread, on exactly the answers it takes. -/
def Process.runThread (env : Platform) (p : Process) (i : Nat) (answers : List Answer) :
    Option Process :=
  match p.workers[i]? with
  | none => none
  | some worker =>
      match worker.standing with
      | .ready (.returned workerResult) =>
          if answers = [] then some (p.endThread i worker workerResult) else none
      | .ready stage =>
          if answers.all (p.allows worker.world.runtime.config.shutdownFd) then
            let accepted := worker.accepted ++ acceptedFds answers
            match (stage.next env).run (worker.world.load p.recorder p.shutdownSignals) answers with
            | .done stage world [] => some (p.store i ⟨world, .ready stage, accepted⟩)
            | .done _ _ _ => none
            | .waiting call world => some (p.store i ⟨world, .inside call, accepted⟩)
            -- this does not occur: `Worker.Steady`
            | .spinning _ => none
          else none
      | _ => none

def Standing.isExited : Standing → Bool
  | .exited => true
  | _ => false

/-- Any thread may run its next stage. -/
def schedule (env : Platform) : ProcessM Unit :=
  systemCall .schedule fun p a =>
    match a with
    | .thread i answers => (p.runThread env i answers).map fun p => ((), p)
    | _ => none

/-- `join` of the worker threads: until all have ended, one of them runs. -/
def joinRound (env : Platform) : Unit → ProcessM (Turn Unit Unit) := fun _ => do
  let p ← Exec.read
  if p.workers.all (·.standing.isExited) then pure (.stop ())
  else do
    schedule env
    pure (.again ())

/-! ## Signal handlers -/

structure SignalHandlerScope where
  previousSigint : Bool
  previousSigterm : Bool
  previousEventFd : Fd

/-- Whether `handle_shutdown_signal` becomes the action of a signal; gives
whether it was, or nothing when the call failed. -/
def sigaction (signal : Signal) (handle : Bool) : ProcessM (Option Bool) :=
  systemCall (.sigaction signal) fun p a =>
    match a with
    | .result true =>
        some (some (p.handled signal),
          { p with handled := fun s => if s = signal then handle else p.handled s })
    | .result false => some (none, p)
    | _ => none

/-- Putting back an action that was there before cannot fail. -/
def restoreAction (signal : Signal) (previous : Bool) : ProcessM Unit :=
  systemCall (.sigaction signal) fun p a =>
    match a with
    | .result true =>
        some ((), { p with handled := fun s => if s = signal then previous else p.handled s })
    | _ => none

def setShutdownEventFd (fd : Fd) : ProcessM Unit := modify fun p => { p with shutdownEventFd := fd }

def installSignalHandlers (shutdownEventFd : Fd) : ProcessM (Option SignalHandlerScope) := do
  let p ← Exec.read
  let previousEventFd := p.shutdownEventFd
  setShutdownEventFd shutdownEventFd
  match ← sigaction .sigint true with
  | none => do
      setShutdownEventFd previousEventFd
      pure none
  | some previousSigint => do
      match ← sigaction .sigterm true with
      | none => do
          restoreAction .sigint previousSigint
          setShutdownEventFd previousEventFd
          pure none
      | some previousSigterm => pure (some ⟨previousSigint, previousSigterm, previousEventFd⟩)

/-- The destructor of the scope. -/
def SignalHandlerScope.restore (scope : SignalHandlerScope) : ProcessM Unit := do
  restoreAction .sigint scope.previousSigint
  restoreAction .sigterm scope.previousSigterm
  setShutdownEventFd scope.previousEventFd

/-! ## `run_server` -/

/-- The loop over the worker ids. -/
def startWorkers (host : Host) (config : ServerConfig) (store : CampaignStoreSnapshot)
    (shutdownEventFd : Fd) : List Nat → ProcessM Bool
  | [] => pure true
  | workerId :: more => do
      let p ← Exec.read
      match ← initializeWorkerRuntime host workerId { shutdownFd := shutdownEventFd } config.port
          config.campaignDataPath p.recorder (some store) with
      | none => pure false
      | some world => do
          modify fun p => { p with workers := p.workers ++ [{ world }] }
          startWorkers host config store shutdownEventFd more

def listeningLine (config : ServerConfig) : Bytes :=
  ascii "rtb_engine listening on port " ++ decimal config.port.toNat ++ ascii " with " ++
    signedDecimal config.workers.toInt ++ ascii " worker(s)\n"

/-- The summary, and the file if there is a path for it. -/
def reportBenchmark (host : Host) (config : ServerConfig) : ProcessM Unit := do
  let p ← Exec.read
  match p.recorder with
  | none => pure ()
  | some recorder => do
      print (recorder.printSummary host.platform.fl host.lfl)
      if config.benchmarkJsonPath ≠ [] then do
        let metadata : BenchmarkMetadata :=
          { port := config.port
            workers := config.workers
            requestLimit := config.benchmarkRequests
            durationMs := config.benchmarkDurationMs
            completedRequests := recorder.completedRequests
            campaignDataPath := config.campaignDataPath }
        let written ← systemCall (.openReport config.benchmarkJsonPath) fun p a =>
          match a with
          | .report isOpen now =>
              some (recorder.writeJson host.platform.fl host.lfl now isOpen metadata, p)
          | _ => none
        match written with
        | some text => modify fun p => { p with benchmarkJson := some text }
        | none => logError (ascii "Failed writing benchmark JSON to " ++ config.benchmarkJsonPath)
      else pure ()

def startTimer (config : ServerConfig) (shutdownEventFd : Fd) : ProcessM Unit :=
  if config.benchmark = true ∧ config.benchmarkDurationMs ≠ 0 then
    modify fun p => { p with timer := some shutdownEventFd }
  else pure ()

/-- The timer is cancelled once the workers have ended, unless it expires first. -/
def joinTimer : ProcessM Unit :=
  systemCall .joinTimer fun p a =>
    match a with
    | .result _ => some ((), { p with timer := none })
    | _ => none

/-- The threads from their start to the last `join`. -/
def runThreads (env : Platform) (config : ServerConfig) (shutdownEventFd : Fd) : ProcessM Unit := do
  startTimer config shutdownEventFd
  loop (joinRound env) ()
  joinTimer

def shutdownAll : ProcessM Unit := do
  let p ← Exec.read
  shutdownWorkers (List.range p.workers.length)

/-- `run_server` from the loop that starts the workers on. -/
def serveWorkers (host : Host) (config : ServerConfig) (store : CampaignStoreSnapshot)
    (shutdownEventFd : Fd) : ProcessM Int := do
  if ← startWorkers host config store shutdownEventFd (List.range config.workers.toNatClampNeg) then do
    print (listeningLine config)
    runThreads host.platform config shutdownEventFd
    shutdownAll
    reportBenchmark host config
    setShutdownEventFd (-1)
    closeDescriptor none shutdownEventFd
    let p ← Exec.read
    pure p.exitCode
  else do
    shutdownAll
    setShutdownEventFd (-1)
    closeDescriptor none shutdownEventFd
    pure 1

/-- `run_server` once the signal handlers are installed. -/
def serve (host : Host) (config : ServerConfig) (store : CampaignStoreSnapshot)
    (shutdownEventFd : Fd) : ProcessM Int := do
  modify fun p =>
    { p with
      shutdownRequested := false
      recorder :=
        if config.benchmark then some { requestLimit := config.benchmarkRequests } else none }
  serveWorkers host config store shutdownEventFd

def runServer (host : Host) (config : ServerConfig) : ProcessM Int := do
  match serverConfigError config with
  | some message => do
      logError message
      pure 1
  | none => do
      match ← loadSnapshot host config.campaignDataPath with
      | none => pure 1
      | some store => do
          match ← eventfd with
          | none => do
              logError (ascii "Failed creating shutdown eventfd")
              pure 1
          | some shutdownEventFd => do
              match ← installSignalHandlers shutdownEventFd with
              | none => do
                  logError (ascii "Failed installing signal handlers")
                  setShutdownEventFd (-1)
                  closeDescriptor none shutdownEventFd
                  pure 1
              | some scope => do
                  let exitCode ← serve host config store shutdownEventFd
                  scope.restore
                  pure exitCode

/-! ## `main` -/

/-- `print_server_usage`. -/
def serverUsage (programName : Bytes) : Bytes :=
  ascii "Usage: " ++ programName ++ ascii " [--port PORT] [--workers COUNT] " ++
    ascii "[--campaign-data-path PATH] [--benchmark] [--benchmark-json PATH] " ++
    ascii "[--benchmark-requests COUNT] [--benchmark-duration-ms MS]\n"

def main (host : Host) (args : List Bytes) : ProcessM Int := do
  let parsed := parseServerConfig host.projectSourceDir args
  match parsed.status with
  | .helpRequested => do
      print (serverUsage host.programName)
      pure 0
  | .invalidArgument => do
      modify fun p =>
        { p with
          stderr := p.stderr ++ (ascii "Error: " ++ parsed.error ++ ascii "\n") ++
            serverUsage host.programName }
      pure 1
  | .ok => runServer host parsed.out

end RtbEngine
