import Mathlib.Logic.Function.Basic
import RtbEngine.Lib.Exec
import RtbEngine.Engine.Request

/-!
# The worker loop

`worker_runtime.cc`: one worker thread, its connections, and the kernel
objects its system calls act on. The functions are programs whose calls are
answered from a list (`Lib.Exec`), so every interleaving of events, every
chunking of reads and writes and every failure is some list of answers.

* `SessionM` — what a handler does to one connection: `flushPendingWrite`,
  `processReadyFrames` and the read loop. It sees the connection, its socket
  and the state all connections of the worker share, and nothing else;
* `WorkerM` — the event loop over the whole worker.

A socket's `history` records in order what passed over it and what
`process_ready_frames` did with it. No function reads it.
-/

namespace RtbEngine

open Lib Exec

/-! ## The environment -/

abbrev Fd := Int

def EPOLLIN : UInt32 := 0x001
def EPOLLOUT : UInt32 := 0x004
def EPOLLERR : UInt32 := 0x008
def EPOLLHUP : UInt32 := 0x010
def EPOLLRDHUP : UInt32 := 0x2000

/-- `EWOULDBLOCK` is `EAGAIN` on Linux. -/
inductive Errno where
  | eintr
  | eagain
  | other (code : Nat)
  deriving DecidableEq

structure EpollEvent where
  fd : Fd
  mask : UInt32
  deriving DecidableEq

/-- What happened on a socket, and what was done with its bytes. -/
inductive SocketEvent where
  | received (bytes : Bytes)
  | endOfFile
  | readFailed (errno : Errno)
  | sent (bytes : Bytes)
  | frameChecked (status : FrameStatus)
  | parsed (payload : Bytes)
  | staged (payload : Bytes) (response : BidResponse)
  | stagingFailed (payload : Bytes) (response : BidResponse)
  | bufferFull
  | hungUp (mask : UInt32)
  deriving DecidableEq

/-- The kernel's side of one accepted connection: its interest set in the
epoll instance, if registered, and its history. -/
structure Socket where
  interest : Option UInt32 := none
  history : List SocketEvent := []

/-- The places where a worker can be found waiting: its system calls, and
the point before each event of a batch. `badDescriptor` is the use of a
descriptor that is not open. -/
inductive Call where
  | epollWait
  | nextEvent (events : List EpollEvent)
  | accept4
  | epollCtl
  | read
  | write
  | badDescriptor (fd : Fd)
  deriving DecidableEq

/-- The answers to the calls, in their order. -/
inductive Answer where
  | events (result : Except Errno (List EpollEvent))
  | go
  | accepted (result : Except Errno Fd)
  | controlled (ok : Bool)
  | written (result : Except Errno Nat)
  | readBytes (result : Except Errno Bytes)

/-- The code of other libraries: the generated messages, and the rounding of
double arithmetic. -/
structure Platform where
  protobuf : Protobuf
  fl : Double → Double

/-! ## The runtime -/

structure WorkerConfig where
  epollMaxEvents : Nat := 256
  connectionBufferCapacity : Nat := 16 * 1024
  maxFrameSize : UInt32 := 64 * 1024
  shutdownFd : Fd := -1

structure ConnectionState where
  fd : Fd := -1
  connectionId : UInt64 := 0
  readBuffer : ReusableBuffer := {}
  writeBuffer : ReusableBuffer := {}
  hasPendingWrite : Bool := false

structure WorkerRuntime where
  config : WorkerConfig
  epollFd : Fd := -1
  listenFd : Fd := -1
  nextConnectionId : UInt64 := 1
  rng : WorkerRng := {}
  benchmarkRecorder : Option BenchmarkRecorder := none
  campaignStore : CampaignStoreSnapshot := {}
  connections : Fd → Option ConnectionState := fun _ => none

/-- Sockets are numbered in the order they were accepted; `fdTable` says
which of them a descriptor refers to while it is open. -/
structure Kernel where
  sockets : Nat → Socket := fun _ => {}
  accepted : Nat := 0
  fdTable : Fd → Option Nat := fun _ => none
  shutdownSignals : Nat := 0

structure World where
  runtime : WorkerRuntime
  kernel : Kernel
  clock : Clock

/-- One connection and what all connections of the worker share. -/
structure Session where
  connection : ConnectionState
  socket : Socket
  rng : WorkerRng
  recorder : Option BenchmarkRecorder
  shutdownSignals : Nat
  clock : Clock

abbrev SessionM := Exec Call Session Answer
abbrev WorkerM := Exec Call World Answer

/-! ## Serving one connection -/

def Session.note (s : Session) (event : SocketEvent) : Session :=
  { s with socket := { s.socket with history := s.socket.history ++ [event] } }

def Session.setWriteBuffer (s : Session) (buffer : ReusableBuffer) : Session :=
  { s with connection := { s.connection with writeBuffer := buffer } }

def Session.setReadBuffer (s : Session) (buffer : ReusableBuffer) : Session :=
  { s with connection := { s.connection with readBuffer := buffer } }

def Session.setPendingWrite (s : Session) (pending : Bool) : Session :=
  { s with connection := { s.connection with hasPendingWrite := pending } }

def Session.recordRequest (s : Session) (timing : RequestTimingBreakdown) : Session :=
  { s with recorder := s.recorder.map fun recorder => recorder.recordRequest timing }

def note (event : SocketEvent) : SessionM Unit := modify fun s => s.note event

def nowNs : SessionM UInt64 :=
  update fun s => (s.clock.nowNs.1, { s with clock := s.clock.nowNs.2 })

/-- The interest set of a client, with or without `EPOLLOUT`. -/
def clientEvents (enableWrite : Bool) : UInt32 :=
  (EPOLLIN ||| EPOLLRDHUP) ||| (if enableWrite then EPOLLOUT else 0)

def updateClientEvents (enableWrite : Bool) : SessionM Bool :=
  ask .epollCtl fun s answer =>
    match answer with
    | .controlled true =>
        some (true, { s with socket := { s.socket with interest := some (clientEvents enableWrite) } })
    | .controlled false => some (false, s)
    | _ => none

/-- `write` of the readable bytes of the write buffer: a count is at most
what was offered. -/
def writeSocket : SessionM (Except Errno Nat) :=
  ask .write fun s answer =>
    match answer with
    | .written (.ok n) =>
        if n ≤ s.connection.writeBuffer.readableBytes then
          some (.ok n, if n = 0 then s else s.note (.sent (s.connection.writeBuffer.readable.take n)))
        else none
    | .written (.error errno) => some (.error errno, s)
    | _ => none

/-- One round of the write loop: `false` is its `return false`, `true` its
`break` or its end. -/
def flushRound : Unit → SessionM (Turn Unit Bool) := fun _ => do
  let s ← Exec.read
  if s.connection.writeBuffer.readableBytes > 0 then
    match ← writeSocket with
    | .ok bytesWritten =>
        if bytesWritten > 0 then do
          modify fun s => s.setWriteBuffer (s.connection.writeBuffer.consumeFrame bytesWritten)
          pure (.again ())
        else pure (.stop false)
    | .error .eintr => pure (.again ())
    -- the kernel takes no more for now: the rest stays pending
    | .error .eagain => pure (.stop true)
    | .error (.other _) => pure (.stop false)
  else pure (.stop true)

/-- `signal_shutdown_fd`. -/
def signalShutdownFd (config : WorkerConfig) (s : Session) : Session :=
  if config.shutdownFd < 0 then s else { s with shutdownSignals := s.shutdownSignals + 1 }

def flushPendingWrite (config : WorkerConfig) : SessionM Bool := do
  let drained ← loop flushRound ()
  if drained then
    modify fun s => s.setPendingWrite (s.connection.writeBuffer.readableBytes != 0)
    let s ← Exec.read
    if ← updateClientEvents s.connection.hasPendingWrite then
      modify fun s =>
        -- the limit is tested only once a response has left the buffer in full
        if !s.connection.hasPendingWrite && s.recorder.any (·.requestLimitReached) then
          signalShutdownFd config s
        else s
      pure true
    else pure false
  else pure false

inductive ProcessFramesOutcome where
  | continue
  | pauseForWrite
  | closeConnection
  deriving DecidableEq

def callHandleRequest (env : Platform) (store : CampaignStoreSnapshot)
    (parsedMessage : ParsedMessage) (receivedAtNs : UInt64) : SessionM Handled :=
  update fun s =>
    let handled := handleRequest env.fl parsedMessage receivedAtNs store s.rng s.clock
    (handled, { s with rng := handled.rng, clock := handled.clock })

def callStageResponseFrame (env : Platform) (response : BidResponse) : SessionM Bool :=
  update fun s =>
    let staged := stageResponseFrame env.protobuf response s.connection.writeBuffer
    (staged.1, s.setWriteBuffer staged.2)

/-- `process_ready_frames` once the response is staged. -/
def finishFrame (frame : FrameView) (response : BidResponse) (timing : RequestTimingBreakdown) :
    SessionM ProcessFramesOutcome := do
  modify fun s => s.recordRequest timing
  -- the frame leaves the read buffer only after its response is staged
  modify fun s => s.setReadBuffer
    (s.connection.readBuffer.consumeFrame frame.totalFrameBytes.toNat)
  modify fun s => s.setPendingWrite true
  note (.staged frame.payload response)
  -- frames behind this one wait in the buffer until the response is flushed
  if ← updateClientEvents true then pure .pauseForWrite else pure .closeConnection

/-- `process_ready_frames` from the parsed message on. -/
def answerFrame (env : Platform) (store : CampaignStoreSnapshot) (frame : FrameView)
    (totalStart parseNs : UInt64) (parsedMessage : ParsedMessage) :
    SessionM ProcessFramesOutcome := do
  let receivedAtNs ← nowNs
  let handled ← callHandleRequest env store parsedMessage receivedAtNs
  if handled.result.status = .dropConnection then pure .closeConnection
  else do
    let responseStageStart ← nowNs
    if ← callStageResponseFrame env handled.result.response then do
      let responseStageEnd ← nowNs
      let timing : RequestTimingBreakdown :=
        { parseNs
          normalizeValidateNs := handled.timing.normalizeValidateNs
          retrieveNs := handled.timing.retrieveNs
          decideNs := handled.timing.decideNs
          responseBuildNs := handled.timing.responseBuildNs
          responseStageNs := responseStageEnd - responseStageStart
          totalInternalNs := responseStageEnd - totalStart }
      finishFrame frame handled.result.response timing
    else do
      -- nothing is recorded and the frame is not consumed: the connection goes
      note (.stagingFailed frame.payload handled.result.response)
      pure .closeConnection

/-- Every path of its loop returns in the first round. -/
def processReadyFrames (env : Platform) (config : WorkerConfig) (store : CampaignStoreSnapshot) :
    SessionM ProcessFramesOutcome := do
  let s ← Exec.read
  let (status, frame) := s.connection.readBuffer.tryExtractFrame config.maxFrameSize
  note (.frameChecked status)
  match status with
  | .needMoreData => pure .continue
  | .invalidLength => pure .closeConnection
  | .frameReady => do
      let totalStart ← nowNs
      let parseStart ← nowNs
      note (.parsed frame.payload)
      let (parseStatus, parsedMessage) := parseBidRequest env.protobuf frame.payload
      let parseEnd ← nowNs
      if parseStatus = .ok then
        answerFrame env store frame totalStart (parseEnd - parseStart) parsedMessage
      else pure .closeConnection

/-- `read` into the writable region: at most as many bytes as it holds, and
none at the end of the stream. -/
def readSocket : SessionM (Except Errno Nat) :=
  ask .read fun s answer =>
    match answer with
    | .readBytes (.ok bytes) =>
        if bytes.length ≤ s.connection.readBuffer.writableRegion.length then
          some (.ok bytes.length,
            (s.setReadBuffer (s.connection.readBuffer.fillWritable bytes)).note
              (if bytes = [] then .endOfFile else .received bytes))
        else none
    | .readBytes (.error errno) => some (.error errno, s.note (.readFailed errno))
    | _ => none

/-- Compact a read buffer that has no room left; `false` when that gives none. -/
def makeRoom : SessionM Bool := do
  let s ← Exec.read
  if s.connection.readBuffer.writableRegion.isEmpty then do
    modify fun s => s.setReadBuffer s.connection.readBuffer.compact
    let s ← Exec.read
    if s.connection.readBuffer.writableRegion.isEmpty then do
      note .bufferFull
      pure false
    else pure true
  else pure true

/-- One round of the read loop; the result is `should_close`. -/
def readRound (env : Platform) (config : WorkerConfig) (store : CampaignStoreSnapshot) :
    Unit → SessionM (Turn Unit Bool) := fun _ => do
  if ← makeRoom then
    match ← readSocket with
    | .ok bytesRead =>
        if bytesRead > 0 then do
          modify fun s => s.setReadBuffer (s.connection.readBuffer.commitWrite bytesRead)
          match ← processReadyFrames env config store with
          | .closeConnection => pure (.stop true)
          | .pauseForWrite => pure (.stop false)
          | .continue => pure (.again ())
        else pure (.stop true)
    | .error .eintr => pure (.again ())
    | .error .eagain => pure (.stop false)
    | .error (.other _) => pure (.stop true)
  else pure (.stop true)

/-- From the frame check on the buffered bytes to the end of the handler. -/
def serveFrames (env : Platform) (config : WorkerConfig) (store : CampaignStoreSnapshot) :
    SessionM Bool := do
  match ← processReadyFrames env config store with
  | .closeConnection => pure true
  | .pauseForWrite => pure false
  | .continue => loop (readRound env config store) ()

/-- Flush on `EPOLLOUT`; `false` is a failed flush. -/
def flushOnWritable (config : WorkerConfig) (mask : UInt32) : SessionM Bool :=
  if mask &&& EPOLLOUT ≠ 0 then flushPendingWrite config else pure true

/-- The client branch once the connection is found and has no error; the
result says whether it ends in `close_connection`. -/
def serveClient (env : Platform) (config : WorkerConfig) (store : CampaignStoreSnapshot)
    (mask : UInt32) : SessionM Bool := do
  let s ← Exec.read
  if s.connection.hasPendingWrite then do
    if ← flushOnWritable config mask then do
      let s ← Exec.read
      -- a partial flush ends the handler; nothing is read while bytes are pending
      if s.connection.hasPendingWrite then pure false else serveFrames env config store
    else pure true
  else serveFrames env config store

/-! ## The event loop -/

def getSession (fd : Fd) (w : World) : Option Session :=
  match w.runtime.connections fd, w.kernel.fdTable fd with
  | some connection, some i =>
      some
        { connection
          socket := w.kernel.sockets i
          rng := w.runtime.rng
          recorder := w.runtime.benchmarkRecorder
          shutdownSignals := w.kernel.shutdownSignals
          clock := w.clock }
  | _, _ => none

def putSession (fd : Fd) (s : Session) (w : World) : World :=
  { runtime :=
      { w.runtime with
        rng := s.rng
        benchmarkRecorder := s.recorder
        connections := Function.update w.runtime.connections fd (some s.connection) }
    kernel :=
      { w.kernel with
        sockets :=
          match w.kernel.fdTable fd with
          | some i => Function.update w.kernel.sockets i s.socket
          | none => w.kernel.sockets
        shutdownSignals := s.shutdownSignals }
    clock := s.clock }

/-- Run a handler on the connection of `fd`. -/
def onConnection {α : Type} (fd : Fd) (m : SessionM α) : WorkerM α :=
  zoom (getSession fd) (putSession fd) (.badDescriptor fd) m

/-- Drop the interest set with the descriptor, as closing it does. -/
def Kernel.close (k : Kernel) (fd : Fd) : Kernel :=
  match k.fdTable fd with
  | some i =>
      { k with
        sockets := Function.update k.sockets i { k.sockets i with interest := none }
        fdTable := Function.update k.fdTable fd none }
  | none => k

/-- `close` and `connections.erase`. -/
def World.dropConnection (w : World) (fd : Fd) : World :=
  { w with
    runtime := { w.runtime with connections := Function.update w.runtime.connections fd none }
    kernel := w.kernel.close fd }

/-- Erase the connection of an open descriptor and close it. -/
def dropDescriptor (fd : Fd) : WorkerM Unit :=
  zoom (fun w => if (w.kernel.fdTable fd).isSome then some w else none) (fun w' _ => w')
    (.badDescriptor fd) (modify fun w => w.dropConnection fd)

def closeConnection (fd : Fd) : WorkerM Unit :=
  if fd < 0 then pure () else dropDescriptor fd

/-- A new socket, and `fd` refers to it. -/
def Kernel.openSocket (k : Kernel) (fd : Fd) : Kernel :=
  { k with
    sockets := Function.update k.sockets k.accepted {}
    accepted := k.accepted + 1
    fdTable := Function.update k.fdTable fd (some k.accepted) }

/-- `accept4` gives a descriptor that is not open. -/
def accept4 : WorkerM (Except Errno Fd) :=
  ask .accept4 fun w answer =>
    match answer with
    | .accepted (.ok fd) =>
        if 0 ≤ fd ∧ w.kernel.fdTable fd = none ∧ fd ≠ w.runtime.listenFd ∧
            fd ≠ w.runtime.epollFd ∧ fd ≠ w.runtime.config.shutdownFd then
          some (.ok fd, { w with kernel := w.kernel.openSocket fd })
        else none
    | .accepted (.error errno) => some (.error errno, w)
    | _ => none

/-- The new connection with its buffers, entered by `emplace`. -/
def World.addConnection (w : World) (fd : Fd) : World :=
  let capacity := w.runtime.config.connectionBufferCapacity
  let connection : ConnectionState :=
    { fd
      connectionId := w.runtime.nextConnectionId
      readBuffer := ({} : ReusableBuffer).reserve capacity
      writeBuffer := ({} : ReusableBuffer).reserve capacity }
  { w with runtime :=
    { w.runtime with
      nextConnectionId := w.runtime.nextConnectionId + 1
      connections :=
        match w.runtime.connections fd with
        -- `emplace` keeps an entry that is already there
        | some _ => w.runtime.connections
        | none => Function.update w.runtime.connections fd (some connection) } }

/-- `EPOLL_CTL_ADD` of a client descriptor. -/
def registerClient (fd : Fd) : WorkerM Bool :=
  onConnection fd <| ask .epollCtl fun s answer =>
    match answer with
    | .controlled true =>
        some (true, { s with socket := { s.socket with interest := some (EPOLLIN ||| EPOLLRDHUP) } })
    | .controlled false => some (false, s)
    | _ => none

def acceptRound : Unit → WorkerM (Turn Unit Unit) := fun _ => do
  match ← accept4 with
  -- every error ends the loop, `EAGAIN` without a message
  | .error _ => pure (.stop ())
  | .ok clientFd =>
      modify fun w => w.addConnection clientFd
      if ← registerClient clientFd then pure (.again ())
      else do
        dropDescriptor clientFd
        pure (.again ())

/-- The branch for an error or a hang-up that the kernel reports. -/
def hangUp (event : EpollEvent) : WorkerM Unit := do
  onConnection event.fd (note (.hungUp event.mask))
  closeConnection event.fd

/-- The branches for the listening socket and for a client. -/
def handleEvent (env : Platform) (event : EpollEvent) : WorkerM Unit := do
  let w ← Exec.read
  if event.fd = w.runtime.listenFd then loop acceptRound ()
  else
    match w.runtime.connections event.fd with
    -- an earlier event of the batch may have closed it
    | none => pure ()
    | some _ =>
        if event.mask &&& EPOLLERR ≠ 0 ∨ event.mask &&& EPOLLHUP ≠ 0 ∨
            event.mask &&& EPOLLRDHUP ≠ 0 then
          hangUp event
        else do
          let close ← onConnection event.fd
            (serveClient env w.runtime.config w.runtime.campaignStore event.mask)
          if close then closeConnection event.fd else pure ()

/-- The point before the next event of a batch. -/
def nextEvent (events : List EpollEvent) : WorkerM Unit :=
  ask (.nextEvent events) fun w answer =>
    match answer with
    | .go => some ((), w)
    | _ => none

/-- The `for` loop over a batch; `true` when the shutdown event was in it. -/
def handleBatch (env : Platform) : List EpollEvent → WorkerM Bool
  | [] => pure false
  | event :: events => do
      nextEvent (event :: events)
      let w ← Exec.read
      -- the events behind the shutdown event are not looked at
      if event.fd = w.runtime.config.shutdownFd then pure true
      else do
        handleEvent env event
        handleBatch env events

def epollWait : WorkerM (Except Errno (List EpollEvent)) :=
  ask .epollWait fun w answer =>
    match answer with
    | .events (.ok events) =>
        if events.length ≤ w.runtime.config.epollMaxEvents then some (.ok events, w) else none
    | .events (.error errno) => some (.error errno, w)
    | _ => none

def epollRound (env : Platform) : Unit → WorkerM (Turn Unit Int) := fun _ => do
  match ← epollWait with
  -- with or without `EINTR`, the wait is made again
  | .error _ => pure (.again ())
  | .ok events =>
      if ← handleBatch env events then pure (.stop 0) else pure (.again ())

def runWorkerLoop (env : Platform) : WorkerM Int := loop (epollRound env) ()

/-- `close` of a descriptor that may be unset. -/
def closesIfSet (fd : Fd) : List Fd := if fd ≥ 0 then [fd] else []

/-- `shutdown_worker_runtime`, with the entries of the map in the order `fds`:
the descriptors it closes, and the runtime afterwards. -/
def shutdownWorkerRuntime (runtime : WorkerRuntime) (fds : List Fd) : List Fd × WorkerRuntime :=
  let clients := fds.flatMap fun fd =>
    match runtime.connections fd with
    | some connection => closesIfSet connection.fd
    | none => []
  (clients ++ closesIfSet runtime.listenFd ++ closesIfSet runtime.epollFd,
    { runtime with
      connections := fun _ => none
      listenFd := if runtime.listenFd ≥ 0 then -1 else runtime.listenFd
      epollFd := if runtime.epollFd ≥ 0 then -1 else runtime.epollFd })

/-- A worker as `initialize_worker_runtime` leaves it. -/
def bootWorld (config : WorkerConfig) (epollFd listenFd : Fd) (rng : WorkerRng)
    (recorder : Option BenchmarkRecorder) (store : CampaignStoreSnapshot) (clock : Clock) :
    World :=
  { runtime :=
      { config, epollFd, listenFd, rng, benchmarkRecorder := recorder, campaignStore := store }
    kernel := {}
    clock }

end RtbEngine
