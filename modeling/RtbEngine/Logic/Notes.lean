import RtbEngine.Engine.Worker
import RtbEngine.Logic.Decision

/-!
# What one call of `process_ready_frames` notes

Of all readings of the clock that a call takes, only the one with which the
request is handed over matters for what it does to the socket: `notedEvents`
is a function of that reading, the connection, the store and the generator.

* `answerFrame_spec` — from the parsed request on;
* `processReadyFrames_history` — the call.
-/

namespace RtbEngine

open Lib Exec

/-- What is noted for a parsed request. -/
def answerEvents (env : Platform) (connection : ConnectionState) (payload : Bytes)
    (result : HandleRequestResult) : List SocketEvent :=
  if result.status = .dropConnection then []
  else if (stageResponseFrame env.protobuf result.response connection.writeBuffer).1 then
    [.staged payload result.response]
  else [.stagingFailed payload result.response]

/-- What `process_ready_frames` notes on the socket, for a request handed over
at `receivedAtNs`. -/
def notedEvents (env : Platform) (config : WorkerConfig) (store : CampaignStoreSnapshot)
    (connection : ConnectionState) (rng : WorkerRng) (receivedAtNs : UInt64) : List SocketEvent :=
  match connection.readBuffer.tryExtractFrame config.maxFrameSize with
  | (.frameReady, frame) =>
      .frameChecked .frameReady :: .parsed frame.payload ::
        match parseBidRequest env.protobuf frame.payload with
        | (.ok, message) =>
            answerEvents env connection frame.payload
              (resultFor env.fl store (requestContext message receivedAtNs) rng)
        | _ => []
  | (status, _) => [.frameChecked status]

/-- The session after one more reading. -/
def Session.tick (s : Session) : Session := { s with clock := s.clock.nowNs.2 }

@[simp] theorem Session.tick_connection (s : Session) : s.tick.connection = s.connection := rfl
@[simp] theorem Session.tick_socket (s : Session) : s.tick.socket = s.socket := rfl
@[simp] theorem Session.tick_rng (s : Session) : s.tick.rng = s.rng := rfl
@[simp] theorem Session.tick_clock (s : Session) : s.tick.clock = s.clock.nowNs.2 := rfl
@[simp] theorem Session.note_connection (s : Session) (event : SocketEvent) :
    (s.note event).connection = s.connection := rfl
@[simp] theorem Session.note_rng (s : Session) (event : SocketEvent) :
    (s.note event).rng = s.rng := rfl
@[simp] theorem Session.note_clock (s : Session) (event : SocketEvent) :
    (s.note event).clock = s.clock := rfl
@[simp] theorem Session.note_history (s : Session) (event : SocketEvent) :
    (s.note event).socket.history = s.socket.history ++ [event] := rfl

theorem run_nowNs_bind {α : Type} (f : UInt64 → SessionM α) (s : Session) (is : List Answer) :
    (nowNs >>= f).run s is = (f s.clock.nowNs.1).run s.tick is := rfl

theorem run_note_bind {α : Type} (event : SocketEvent) (f : Unit → SessionM α) (s : Session)
    (is : List Answer) : (note event >>= f).run s is = (f ()).run (s.note event) is := rfl

/-- Arming the descriptor notes nothing. -/
theorem finishFrame_history (frame : FrameView) (response : BidResponse)
    (timing : RequestTimingBreakdown) (s : Session) (is : List Answer) :
    ((finishFrame frame response timing).run s is).state.socket.history =
      s.socket.history ++ [.staged frame.payload response] := by
  unfold finishFrame
  rw [run_modify_bind, run_modify_bind, run_modify_bind, run_note_bind, run_bind]
  cases is with
  | nil => rfl
  | cons answer is =>
      cases answer with
      | controlled granted => cases granted <;> rfl
      | _ => rfl

theorem finishFrame_clock (frame : FrameView) (response : BidResponse)
    (timing : RequestTimingBreakdown) (s : Session) (is : List Answer) :
    ((finishFrame frame response timing).run s is).state.clock = s.clock := by
  unfold finishFrame
  rw [run_modify_bind, run_modify_bind, run_modify_bind, run_note_bind, run_bind]
  cases is with
  | nil => rfl
  | cons answer is =>
      cases answer with
      | controlled granted => cases granted <;> rfl
      | _ => rfl

/-- The session after `handle_request`. -/
def Session.setHandled (s : Session) (handled : Handled) : Session :=
  { s with rng := handled.rng, clock := handled.clock }

@[simp] theorem Session.setHandled_connection (s : Session) (handled : Handled) :
    (s.setHandled handled).connection = s.connection := rfl
@[simp] theorem Session.setHandled_socket (s : Session) (handled : Handled) :
    (s.setHandled handled).socket = s.socket := rfl
@[simp] theorem Session.setHandled_clock (s : Session) (handled : Handled) :
    (s.setHandled handled).clock = handled.clock := rfl
@[simp] theorem Session.setWriteBuffer_socket (s : Session) (buffer : ReusableBuffer) :
    (s.setWriteBuffer buffer).socket = s.socket := rfl
@[simp] theorem Session.setWriteBuffer_clock (s : Session) (buffer : ReusableBuffer) :
    (s.setWriteBuffer buffer).clock = s.clock := rfl

/-- The calls go on with a name for what they leave behind. -/
theorem run_callHandleRequest_bind {α : Type} {env : Platform} {store : CampaignStoreSnapshot}
    {message : ParsedMessage} {receivedAtNs : UInt64} {s : Session} {handled : Handled}
    (h : handleRequest env.fl message receivedAtNs store s.rng s.clock = handled)
    (f : Handled → SessionM α) (is : List Answer) :
    (callHandleRequest env store message receivedAtNs >>= f).run s is =
      (f handled).run (s.setHandled handled) is := by
  subst h
  rfl

theorem run_callStageResponseFrame_bind {α : Type} {env : Platform} {response : BidResponse}
    {s : Session} {staged : Bool × ReusableBuffer}
    (h : stageResponseFrame env.protobuf response s.connection.writeBuffer = staged)
    (f : Bool → SessionM α) (is : List Answer) :
    (callStageResponseFrame env response >>= f).run s is =
      (f staged.1).run (s.setWriteBuffer staged.2) is := by
  subst h
  rfl

/-- From the parsed message on: what is noted, and the clock afterwards. -/
theorem answerFrame_spec (env : Platform) (store : CampaignStoreSnapshot) (frame : FrameView)
    (totalStart parseNs : UInt64) (message : ParsedMessage) (s : Session) (is : List Answer)
    {handled : Handled}
    (hhandled : handleRequest env.fl message s.clock.nowNs.1 store s.rng s.clock.nowNs.2 = handled) :
    let s' := ((answerFrame env store frame totalStart parseNs message).run s is).state
    s'.socket.history =
        s.socket.history ++ answerEvents env s.connection frame.payload handled.result ∧
      ((stageResponseFrame env.protobuf handled.result.response s.connection.writeBuffer).1 = true →
        handled.result.status ≠ .dropConnection → s'.clock = handled.clock.nowNs.2.nowNs.2) := by
  unfold answerFrame
  rw [run_nowNs_bind, run_callHandleRequest_bind (s := s.tick) hhandled]
  clear hhandled
  unfold answerEvents
  by_cases hdrop : handled.result.status = .dropConnection
  · simp only [if_pos hdrop]
    exact ⟨(List.append_nil _).symm, fun _ hkept => absurd hdrop hkept⟩
  · simp only [if_neg hdrop]
    rw [run_nowNs_bind]
    -- a name for the result keeps the staging folded
    obtain ⟨staged, hstaged⟩ : ∃ staged, stageResponseFrame env.protobuf handled.result.response
      s.connection.writeBuffer = staged := ⟨_, rfl⟩
    rw [run_callStageResponseFrame_bind (s := (s.tick.setHandled handled).tick) hstaged, hstaged]
    obtain ⟨staged, buffer⟩ := staged
    cases staged with
    | true =>
        simp only [if_true]
        rw [run_nowNs_bind, finishFrame_history, finishFrame_clock]
        exact ⟨rfl, fun _ _ => rfl⟩
    | false => exact ⟨rfl, nofun⟩

/-- **One call of `process_ready_frames`**, for every environment. -/
theorem processReadyFrames_history (env : Platform) (config : WorkerConfig)
    (store : CampaignStoreSnapshot) (s : Session) (is : List Answer) :
    ((processReadyFrames env config store).run s is).state.socket.history =
      s.socket.history ++ notedEvents env config store s.connection s.rng
        (s.clock.reading (s.clock.taken + 3)) := by
  unfold processReadyFrames notedEvents
  rw [run_read_bind]
  generalize s.connection.readBuffer.tryExtractFrame config.maxFrameSize = extracted
  obtain ⟨status, frame⟩ := extracted
  cases status with
  | needMoreData => rfl
  | invalidLength => rfl
  | frameReady =>
      simp only
      rw [run_note_bind, run_nowNs_bind, run_nowNs_bind, run_note_bind]
      cases hparse : parseBidRequest env.protobuf frame.payload with
      | mk parseStatus message =>
          simp only
          rw [run_nowNs_bind]
          cases parseStatus with
          | ok =>
              simp only [if_true]
              rw [(answerFrame_spec env store frame _ _ message _ is rfl).1, handleRequest_result]
              -- three readings have been taken: the fourth is the time of receipt
              have hclock : s.clock.nowNs.2.nowNs.2.nowNs.2.nowNs.1 =
                  s.clock.reading (s.clock.taken + 3) := rfl
              simp only [Session.tick_connection, Session.tick_socket, Session.tick_rng,
                Session.tick_clock, Session.note_connection, Session.note_rng, Session.note_clock,
                Session.note_history, hclock, List.append_assoc, List.cons_append, List.nil_append]
          | _ =>
              rw [if_neg ParseStatus.noConfusion]
              exact List.append_assoc _ _ _

end RtbEngine
