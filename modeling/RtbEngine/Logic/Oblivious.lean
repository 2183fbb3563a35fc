import RtbEngine.Lib.Transport
import RtbEngine.Logic.Notes

/-!
# The recorder decides nothing

The benchmark recorder and the count of shutdown signals are the only state
that a worker shares with other threads. A worker writes them, but what it
does next never depends on them: with both forgotten, every run goes as
before.

* `Session.forget`, `World.forget` — without the shared state;
* `transports_serveClient` — a handler;
* `transports_handleEvent`, `transports_runWorkerLoop` — one event, the loop.
-/

namespace RtbEngine

open Lib Exec

/-- The session without a recorder and without the count of signals. -/
def Session.forget (s : Session) : Session := { s with recorder := none, shutdownSignals := 0 }

@[simp] theorem Session.forget_rng (s : Session) : s.forget.rng = s.rng := rfl
@[simp] theorem Session.forget_clock (s : Session) : s.forget.clock = s.clock := rfl
@[simp] theorem Session.forget_connection (s : Session) : s.forget.connection = s.connection := rfl

/-- The worker without a recorder and without the count of signals. -/
def World.forget (w : World) : World :=
  { w with
    runtime := { w.runtime with benchmarkRecorder := none }
    kernel := { w.kernel with shutdownSignals := 0 } }

section

variable {env : Platform} {config : WorkerConfig} {store : CampaignStoreSnapshot}

/-! ## Handlers -/

theorem transports_note (event : SocketEvent) :
    Transports Session.forget (note event) (note event) :=
  transports_modify fun _ => rfl

theorem transports_nowNs : Transports Session.forget nowNs nowNs :=
  transports_update fun _ => rfl

theorem transports_updateClientEvents (enableWrite : Bool) :
    Transports Session.forget (updateClientEvents enableWrite) (updateClientEvents enableWrite) := by
  refine transports_ask ?_
  intro s answer
  cases answer with
  | controlled granted => cases granted <;> rfl
  | _ => rfl

theorem transports_writeSocket : Transports Session.forget writeSocket writeSocket := by
  refine transports_ask ?_
  intro s answer
  cases answer with
  | written outcome =>
      cases outcome with
      | ok n =>
          show (if n ≤ s.connection.writeBuffer.readableBytes then _ else _) = _
          simp only
          split
          · by_cases h0 : n = 0
            · simp [h0]
            · simp only [h0, if_false, Option.map_some]
              rfl
          · rfl
      | error errno => rfl
  | _ => rfl

theorem transports_readSocket : Transports Session.forget readSocket readSocket := by
  refine transports_ask ?_
  intro s answer
  cases answer with
  | readBytes outcome =>
      cases outcome with
      | ok bytes =>
          show (if bytes.length ≤ s.connection.readBuffer.writableRegion.length then _ else _) = _
          simp only
          split <;> rfl
      | error errno => rfl
  | _ => rfl

theorem transports_flushRound (u : Unit) :
    Transports Session.forget (flushRound u) (flushRound u) := by
  refine transports_read_bind fun s is => ?_
  refine transports_ite (transports_bind transports_writeSocket fun result => ?_)
    (transports_pure _) s is
  cases result with
  | ok n =>
      exact transports_ite (transports_bind (transports_modify fun _ => rfl)
        fun _ => transports_pure _) (transports_pure _)
  | error errno => cases errno <;> exact transports_pure _

/-- Whether the limit is reached decides only whether the server is woken. -/
theorem transports_flushPendingWrite :
    Transports Session.forget (flushPendingWrite config) (flushPendingWrite config) := by
  refine transports_bind (transports_loop transports_flushRound ()) fun drained => ?_
  refine transports_ite (transports_bind (transports_modify fun _ => rfl) fun _ => ?_)
    (transports_pure _)
  refine transports_read_bind fun s is => ?_
  refine transports_bind (transports_updateClientEvents _) (fun granted => ?_) s is
  refine transports_ite (transports_bind (transports_modify fun s => ?_) fun _ => transports_pure _)
    (transports_pure _)
  have hforget : (if (!s.forget.connection.hasPendingWrite &&
      s.forget.recorder.any (·.requestLimitReached)) = true then signalShutdownFd config s.forget
      else s.forget) = s.forget := by
    simp [Session.forget]
  have hsignal : (signalShutdownFd config s).forget = s.forget := by
    unfold signalShutdownFd
    split <;> rfl
  rw [hforget]
  split
  · exact hsignal.symm
  · rfl

theorem transports_finishFrame (frame : FrameView) (response : BidResponse)
    (timing : RequestTimingBreakdown) : Transports Session.forget
      (finishFrame frame response timing) (finishFrame frame response timing) := by
  refine transports_bind (transports_modify fun _ => rfl) fun _ => ?_
  refine transports_bind (transports_modify fun _ => rfl) fun _ => ?_
  refine transports_bind (transports_modify fun _ => rfl) fun _ => ?_
  refine transports_bind (transports_note _) fun _ => ?_
  exact transports_bind (transports_updateClientEvents _) fun granted =>
    transports_ite (transports_pure _) (transports_pure _)

/-- The call, with a name for what it leaves behind. -/
theorem run_callHandleRequest {message : ParsedMessage} {receivedAtNs : UInt64} {s : Session}
    {handled : Handled}
    (h : handleRequest env.fl message receivedAtNs store s.rng s.clock = handled)
    (is : List Answer) :
    (callHandleRequest env store message receivedAtNs).run s is =
      .done handled (s.setHandled handled) is := by
  subst h
  rfl

theorem transports_callHandleRequest (message : ParsedMessage) (receivedAtNs : UInt64) :
    Transports Session.forget (callHandleRequest env store message receivedAtNs)
      (callHandleRequest env store message receivedAtNs) := by
  intro s is
  obtain ⟨handled, hhandled⟩ : ∃ handled,
    handleRequest env.fl message receivedAtNs store s.rng s.clock = handled := ⟨_, rfl⟩
  rw [run_callHandleRequest hhandled, @run_callHandleRequest env store message receivedAtNs s.forget
    handled hhandled]
  rfl

theorem transports_answerFrame (frame : FrameView) (totalStart parseNs : UInt64)
    (message : ParsedMessage) : Transports Session.forget
      (answerFrame env store frame totalStart parseNs message)
      (answerFrame env store frame totalStart parseNs message) := by
  refine transports_bind transports_nowNs fun receivedAtNs => ?_
  refine transports_bind (transports_callHandleRequest _ _) fun handled => ?_
  refine transports_ite (transports_pure _) ?_
  refine transports_bind transports_nowNs fun stageStart => ?_
  refine transports_bind (transports_update fun _ => rfl) fun staged => ?_
  refine transports_ite ?_ (transports_bind (transports_note _) fun _ => transports_pure _)
  exact transports_bind transports_nowNs fun stageEnd => transports_finishFrame _ _ _

theorem transports_processReadyFrames : Transports Session.forget
    (processReadyFrames env config store) (processReadyFrames env config store) := by
  refine transports_read_bind fun s is => ?_
  rw [Session.forget_connection]
  generalize s.connection.readBuffer.tryExtractFrame config.maxFrameSize = extracted
  obtain ⟨status, frame⟩ := extracted
  refine transports_bind (transports_note _) (fun _ => ?_) s is
  cases status with
  | needMoreData => exact transports_pure _
  | invalidLength => exact transports_pure _
  | frameReady =>
      refine transports_bind transports_nowNs fun totalStart => ?_
      refine transports_bind transports_nowNs fun parseStart => ?_
      refine transports_bind (transports_note _) fun _ => ?_
      generalize parseBidRequest env.protobuf frame.payload = parsed
      obtain ⟨parseStatus, message⟩ := parsed
      exact transports_bind transports_nowNs fun parseEnd =>
        transports_ite (transports_answerFrame _ _ _ _) (transports_pure _)

theorem transports_makeRoom : Transports Session.forget makeRoom makeRoom := by
  refine transports_read_bind fun s is => ?_
  refine transports_ite ?_ (transports_pure _) s is
  refine transports_bind (transports_modify fun _ => rfl) fun _ => ?_
  refine transports_read_bind fun s is => ?_
  exact transports_ite (transports_bind (transports_note _) fun _ => transports_pure _)
    (transports_pure _) s is

theorem transports_readRound (u : Unit) : Transports Session.forget
    (readRound env config store u) (readRound env config store u) := by
  refine transports_bind transports_makeRoom fun room => transports_ite ?_ (transports_pure _)
  refine transports_bind transports_readSocket fun result => ?_
  cases result with
  | ok n =>
      refine transports_ite ?_ (transports_pure _)
      refine transports_bind (transports_modify fun _ => rfl) fun _ => ?_
      refine transports_bind transports_processReadyFrames fun outcome => ?_
      cases outcome <;> exact transports_pure _
  | error errno => cases errno <;> exact transports_pure _

theorem transports_serveFrames : Transports Session.forget
    (serveFrames env config store) (serveFrames env config store) := by
  refine transports_bind transports_processReadyFrames fun outcome => ?_
  cases outcome with
  | «continue» => exact transports_loop transports_readRound ()
  | pauseForWrite => exact transports_pure _
  | closeConnection => exact transports_pure _

/-- **A handler.** -/
theorem transports_serveClient (mask : UInt32) : Transports Session.forget
    (serveClient env config store mask) (serveClient env config store mask) := by
  refine transports_read_bind fun s is => ?_
  refine transports_ite ?_ transports_serveFrames s is
  refine transports_bind ?_ fun flushed => transports_ite ?_ (transports_pure _)
  · exact transports_ite transports_flushPendingWrite (transports_pure _)
  · refine transports_read_bind fun s is => ?_
    exact transports_ite (transports_pure _) transports_serveFrames s is

/-! ## The loop -/

@[simp] theorem World.forget_fdTable (w : World) : w.forget.kernel.fdTable = w.kernel.fdTable := rfl
@[simp] theorem World.forget_sockets (w : World) : w.forget.kernel.sockets = w.kernel.sockets := rfl
@[simp] theorem World.forget_accepted (w : World) :
    w.forget.kernel.accepted = w.kernel.accepted := rfl
@[simp] theorem World.forget_connections (w : World) :
    w.forget.runtime.connections = w.runtime.connections := rfl
@[simp] theorem World.forget_config (w : World) : w.forget.runtime.config = w.runtime.config := rfl

theorem getSession_forget (fd : Fd) (w : World) :
    getSession fd w.forget = (getSession fd w).map Session.forget := by
  unfold getSession
  simp only [World.forget_connections, World.forget_fdTable]
  cases w.runtime.connections fd with
  | none => rfl
  | some c =>
      cases w.kernel.fdTable fd with
      | none => rfl
      | some i => rfl

theorem transports_onConnection {α : Type} {m m' : SessionM α} (fd : Fd)
    (hm : Transports Session.forget m m') :
    Transports World.forget (onConnection fd m) (onConnection fd m') :=
  transports_zoom (getSession_forget fd) (fun _ _ => rfl) hm

theorem forget_dropConnection (w : World) (fd : Fd) :
    w.forget.dropConnection fd = (w.dropConnection fd).forget := by
  unfold World.dropConnection Kernel.close
  simp only [World.forget_fdTable]
  cases w.kernel.fdTable fd with
  | none => rfl
  | some i => rfl

theorem transports_dropDescriptor (fd : Fd) :
    Transports World.forget (dropDescriptor fd) (dropDescriptor fd) := by
  refine @transports_zoom _ _ _ _ _ _ _ World.forget _ _ _ _ _ World.forget _ _ ?_ ?_
    (transports_modify fun w => forget_dropConnection w fd)
  · intro w
    simp only [World.forget_fdTable]
    by_cases hopen : (w.kernel.fdTable fd).isSome = true
    · simp [hopen]
    · simp [hopen]
  · intro w w'
    rfl

theorem transports_closeConnection (fd : Fd) :
    Transports World.forget (closeConnection fd) (closeConnection fd) :=
  transports_ite (transports_pure _) (transports_dropDescriptor fd)

theorem transports_hangUp (event : EpollEvent) :
    Transports World.forget (hangUp event) (hangUp event) :=
  transports_bind (transports_onConnection event.fd (transports_note _)) fun _ =>
    transports_closeConnection event.fd

theorem transports_accept4 : Transports World.forget accept4 accept4 := by
  refine transports_ask ?_
  intro w answer
  cases answer with
  | accepted outcome =>
      cases outcome with
      | ok fd =>
          show (if 0 ≤ fd ∧ w.kernel.fdTable fd = none ∧ fd ≠ w.runtime.listenFd ∧
            fd ≠ w.runtime.epollFd ∧ fd ≠ w.runtime.config.shutdownFd then _ else _) = _
          simp only
          split <;> rfl
      | error errno => rfl
  | _ => rfl

theorem forget_addConnection (w : World) (fd : Fd) :
    w.forget.addConnection fd = (w.addConnection fd).forget := by
  unfold World.addConnection
  simp only [World.forget_connections]
  cases w.runtime.connections fd <;> rfl

theorem transports_registerClient (fd : Fd) :
    Transports World.forget (registerClient fd) (registerClient fd) := by
  refine transports_onConnection fd (transports_ask ?_)
  intro s answer
  cases answer with
  | controlled granted => cases granted <;> rfl
  | _ => rfl

theorem transports_acceptRound (u : Unit) :
    Transports World.forget (acceptRound u) (acceptRound u) := by
  refine transports_bind transports_accept4 fun result => ?_
  cases result with
  | error errno => exact transports_pure _
  | ok fd =>
      refine transports_bind (transports_modify fun w => forget_addConnection w fd) fun _ => ?_
      refine transports_bind (transports_registerClient fd) fun granted => ?_
      exact transports_ite (transports_pure _)
        (transports_bind (transports_dropDescriptor fd) fun _ => transports_pure _)

/-- **One event.** -/
theorem transports_handleEvent (env : Platform) (event : EpollEvent) :
    Transports World.forget (handleEvent env event) (handleEvent env event) := by
  refine transports_read_bind fun w is => ?_
  refine transports_ite (transports_loop transports_acceptRound ()) ?_ w is
  rw [World.forget_connections]
  cases w.runtime.connections event.fd with
  | none => exact transports_pure _
  | some c =>
      refine transports_ite (transports_hangUp event) ?_
      refine transports_bind (transports_onConnection _ (transports_serveClient _)) fun close => ?_
      exact transports_ite (transports_closeConnection _) (transports_pure _)

theorem transports_handleBatch (env : Platform) (events : List EpollEvent) :
    Transports World.forget (handleBatch env events) (handleBatch env events) := by
  induction events with
  | nil => exact transports_pure _
  | cons event events ih =>
      refine transports_bind (transports_ask ?_) fun _ => ?_
      · intro w answer
        cases answer <;> rfl
      · refine transports_read_bind fun w is => ?_
        exact transports_ite (transports_pure _)
          (transports_bind (transports_handleEvent env event) fun _ => ih) w is

theorem transports_epollWait : Transports World.forget epollWait epollWait := by
  refine transports_ask ?_
  intro w answer
  cases answer with
  | events outcome =>
      cases outcome with
      | ok events =>
          show (if events.length ≤ w.runtime.config.epollMaxEvents then _ else _) = _
          simp only
          split <;> rfl
      | error errno => rfl
  | _ => rfl

theorem transports_epollRound (env : Platform) (u : Unit) :
    Transports World.forget (epollRound env u) (epollRound env u) := by
  refine transports_bind transports_epollWait fun result => ?_
  cases result with
  | error errno => exact transports_pure _
  | ok events =>
      exact transports_bind (transports_handleBatch env events) fun stop =>
        transports_ite (transports_pure _) (transports_pure _)

/-- **The loop.** -/
theorem transports_runWorkerLoop (env : Platform) :
    Transports World.forget (runWorkerLoop env) (runWorkerLoop env) :=
  transports_loop (transports_epollRound env) ()

end

end RtbEngine
