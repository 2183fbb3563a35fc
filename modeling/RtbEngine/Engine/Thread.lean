import RtbEngine.Engine.Worker

/-!
# A worker thread, stage by stage

`run_worker_loop` cut at the points where other threads may come between:
what the threads of the process share is the benchmark recorder, the event
descriptor that wakes them, and the numbers of the open descriptors. A stage
asks for events, takes a number or uses the recorder once at most. After that
it may still wake the others or give a number back, which takes nothing from
them and can as well happen at once; so every interleaving of the threads is
one of whole stages.

* `Stage` — where a thread stands;
* `Stage.next` — the program of one stage, made of the same functions as the
  loop; `Stage.rest` is the loop from a stage on, and `Logic.Thread` shows
  that the stages are the loop.
-/

namespace RtbEngine

open Lib Exec

/-- The points between two stages. -/
inductive Stage where
  | waiting
  | batch (events : List EpollEvent)
  | accepting (events : List EpollEvent)
  | serving (fd : Fd) (events : List EpollEvent)
  | returned (result : Int)
  deriving DecidableEq

/-- The client branch up to the frame check: `none` when the buffered frames
are to be looked at, otherwise whether it ends in `close_connection`. -/
def flushClient (config : WorkerConfig) (mask : UInt32) : SessionM (Option Bool) := do
  let s ← Exec.read
  if s.connection.hasPendingWrite then do
    if ← flushOnWritable config mask then do
      let s ← Exec.read
      if s.connection.hasPendingWrite then pure (some false) else pure none
    else pure (some true)
  else pure none

/-- The end of the client branch. -/
def endClient (fd : Fd) (close : Bool) : WorkerM Unit :=
  if close then closeConnection fd else pure ()

/-- The branch of an event up to the first access to what threads share. -/
def dispatchEvent (event : EpollEvent) (events : List EpollEvent) : WorkerM Stage := do
  let w ← Exec.read
  if event.fd = w.runtime.listenFd then pure (.accepting events)
  else
    match w.runtime.connections event.fd with
    | none => pure (.batch events)
    | some _ =>
        if event.mask &&& EPOLLERR ≠ 0 ∨ event.mask &&& EPOLLHUP ≠ 0 ∨
            event.mask &&& EPOLLRDHUP ≠ 0 then do
          hangUp event
          pure (.batch events)
        else do
          match ← onConnection event.fd (flushClient w.runtime.config event.mask) with
          | some close => do
              endClient event.fd close
              pure (.batch events)
          | none => pure (.serving event.fd events)

/-- One stage. -/
def Stage.next (env : Platform) : Stage → WorkerM Stage
  | .waiting => do
      match ← epollWait with
      | .error _ => pure .waiting
      | .ok events => pure (.batch events)
  | .batch [] => pure .waiting
  | .batch (event :: events) => do
      nextEvent (event :: events)
      let w ← Exec.read
      if event.fd = w.runtime.config.shutdownFd then pure (.returned 0)
      else dispatchEvent event events
  | .accepting events => do
      match ← acceptRound () with
      | .again _ => pure (.accepting events)
      | .stop _ => pure (.batch events)
  | .serving fd events => do
      let w ← Exec.read
      let close ← onConnection fd (serveFrames env w.runtime.config w.runtime.campaignStore)
      endClient fd close
      pure (.batch events)
  | .returned result => pure (.returned result)

/-- The batch of a stage to its end, and the loop after it. -/
def afterBatch (env : Platform) (events : List EpollEvent) : WorkerM Int := do
  if ← handleBatch env events then pure 0 else runWorkerLoop env

/-- `run_worker_loop` from a stage on. -/
def Stage.rest (env : Platform) : Stage → WorkerM Int
  | .waiting => runWorkerLoop env
  | .batch events => afterBatch env events
  | .accepting events => do
      loop acceptRound ()
      afterBatch env events
  | .serving fd events => do
      let w ← Exec.read
      let close ← onConnection fd (serveFrames env w.runtime.config w.runtime.campaignStore)
      endClient fd close
      afterBatch env events
  | .returned result => pure result

end RtbEngine
