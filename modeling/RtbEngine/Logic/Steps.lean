import RtbEngine.Lib.Steps
import RtbEngine.Logic.Notes
import RtbEngine.Logic.Ownership

/-!
# What one step of the worker can do

A handler moves bytes, wakes the server, or hands one parsed request to the
pipeline (`SessionStep`); the event loop does so on one of its connections,
enters a new one or drops one (`WorldStep`). Every run of the worker is a
chain of such steps, so what follows about runs is proved step by step.

* `follows_serveClient` — a handler;
* `follows_runWorkerLoop` — the loop.
-/

namespace RtbEngine

open Lib Exec Relation

/-! ## Steps of a session -/

/-- The events of a parsed request. -/
def SocketEvent.ofRequest : SocketEvent → Bool
  | .parsed _ | .staged _ _ | .stagingFailed _ _ => true
  | _ => false

/-- Bytes moved, or the interest set or the flag changed. -/
structure Moved (s s' : Session) : Prop where
  owner : SameOwner s s'
  rng : s'.rng = s.rng
  recorder : s'.recorder = s.recorder
  shutdownSignals : s'.shutdownSignals = s.shutdownSignals
  clock : s'.clock = s.clock
  storage : s'.connection.writeBuffer.storage = s.connection.writeBuffer.storage
  history : s'.socket.history = s.socket.history ∨
    ∃ event, event.ofRequest = false ∧ s'.socket.history = s.socket.history ++ [event]

/-- The server was woken: the recorder has reached its limit. -/
structure Woken (config : WorkerConfig) (s s' : Session) : Prop where
  reached : s.recorder.any (·.requestLimitReached) = true
  session : s' = signalShutdownFd config s

/-- A payload that does not parse. -/
structure Unparsed (env : Platform) (payload : Bytes) (s s' : Session) : Prop where
  owner : SameOwner s s'
  rng : s'.rng = s.rng
  recorder : s'.recorder = s.recorder
  shutdownSignals : s'.shutdownSignals = s.shutdownSignals
  reading : s'.clock.reading = s.clock.reading
  taken : s.clock.taken ≤ s'.clock.taken
  storage : s'.connection.writeBuffer.storage = s.connection.writeBuffer.storage
  refused : (parseBidRequest env.protobuf payload).1 ≠ .ok
  history : s'.socket.history = s.socket.history ++ [.parsed payload]

/-- Only the clock and the history went on. -/
structure Paused (s s' : Session) : Prop where
  connection : s'.connection = s.connection
  rng : s'.rng = s.rng
  recorder : s'.recorder = s.recorder
  shutdownSignals : s'.shutdownSignals = s.shutdownSignals
  reading : s'.clock.reading = s.clock.reading
  taken : s.clock.taken ≤ s'.clock.taken

/-- A request of the pipeline: what it was, and the reading it was handed
over with. -/
structure Request where
  payload : Bytes
  message : ParsedMessage
  position : Nat
  receivedAtNs : UInt64

/-- The result that the pipeline gives a request. -/
def Request.result (env : Platform) (store : CampaignStoreSnapshot) (request : Request)
    (rng : WorkerRng) : HandleRequestResult :=
  resultFor env.fl store (requestContext request.message request.receivedAtNs) rng

/-- The generator that a decision leaves behind. A bare projection would be
evaluated. -/
def generatorOf (decided : BidDecision × WorkerRng) : WorkerRng := decided.2

/-- The generator after a request. -/
def Request.draw (env : Platform) (store : CampaignStoreSnapshot) (request : Request)
    (rng : WorkerRng) : WorkerRng :=
  generatorOf (decideFor env.fl store (requestContext request.message request.receivedAtNs) rng)

/-- A request went through the pipeline, and its response, if it has one,
into the write buffer or nowhere. -/
structure RequestStep (env : Platform) (store : CampaignStoreSnapshot) (request : Request)
    (s s' : Session) : Prop where
  owner : SameOwner s s'
  shutdownSignals : s'.shutdownSignals = s.shutdownSignals
  reading : s'.clock.reading = s.clock.reading
  received : s.clock.reading request.position = request.receivedAtNs
  position : s.clock.taken ≤ request.position ∧ request.position < s'.clock.taken
  parsed : parseBidRequest env.protobuf request.payload = (.ok, request.message)
  rng : s'.rng = request.draw env store s.rng
  history : s'.socket.history = s.socket.history ++ .parsed request.payload ::
    answerEvents env s.connection request.payload (request.result env store s.rng)
  storage : s'.connection.writeBuffer.storage = s.connection.writeBuffer.storage ∨
    s'.connection.writeBuffer =
      (stageResponseFrame env.protobuf (request.result env store s.rng).response
        s.connection.writeBuffer).2
  recorder :
    (stagedResponses (answerEvents env s.connection request.payload
        (request.result env store s.rng)) = [] ∧ s'.recorder = s.recorder) ∨
    ∃ timing, stagedResponses (answerEvents env s.connection request.payload
        (request.result env store s.rng)) = [(request.result env store s.rng).response] ∧
      s'.recorder = s.recorder.map fun recorder => recorder.recordRequest timing

/-- **One step of a handler.** -/
inductive SessionStep (env : Platform) (config : WorkerConfig) (store : CampaignStoreSnapshot)
    (s s' : Session) : Prop where
  | moved (h : Moved s s')
  | woken (h : Woken config s s')
  | unparsed (payload : Bytes) (h : Unparsed env payload s s')
  | request (request : Request) (h : RequestStep env store request s s')

section

variable {env : Platform} {config : WorkerConfig} {store : CampaignStoreSnapshot}

/-- No step changes whose connection it is. -/
theorem SessionStep.owner {s s' : Session} (h : SessionStep env config store s s') :
    SameOwner s s' := by
  cases h with
  | moved h => exact h.owner
  | woken h =>
      rw [h.session, signalShutdownFd]
      split <;> exact SameOwner.refl s
  | unparsed payload h => exact h.owner
  | request request h => exact h.owner

/-- The clock goes on. -/
theorem SessionStep.clock {s s' : Session} (h : SessionStep env config store s s') :
    s'.clock.reading = s.clock.reading ∧ s.clock.taken ≤ s'.clock.taken := by
  cases h with
  | moved h =>
      rw [h.clock]
      exact ⟨rfl, Nat.le_refl _⟩
  | woken h =>
      rw [h.session, signalShutdownFd]
      split <;> exact ⟨rfl, Nat.le_refl _⟩
  | unparsed payload h => exact ⟨h.reading, h.taken⟩
  | request request h =>
      exact ⟨h.reading, Nat.le_trans h.position.1 (Nat.le_of_lt h.position.2)⟩

/-! ## A handler -/

theorem moved_of_fields {s s' : Session} (hfd : s'.connection.fd = s.connection.fd)
    (hid : s'.connection.connectionId = s.connection.connectionId) (hrng : s'.rng = s.rng)
    (hrecorder : s'.recorder = s.recorder) (hsignals : s'.shutdownSignals = s.shutdownSignals)
    (hclock : s'.clock = s.clock)
    (hstorage : s'.connection.writeBuffer.storage = s.connection.writeBuffer.storage)
    (hhistory : s'.socket.history = s.socket.history) :
    ReflTransGen (SessionStep env config store) s s' :=
  .single (.moved ⟨⟨hfd, hid⟩, hrng, hrecorder, hsignals, hclock, hstorage, .inl hhistory⟩)

theorem note_moved (s : Session) {event : SocketEvent} (h : event.ofRequest = false) :
    ReflTransGen (SessionStep env config store) s (s.note event) :=
  .single (.moved ⟨SameOwner.refl s, rfl, rfl, rfl, rfl, rfl, .inr ⟨event, h, rfl⟩⟩)

theorem follows_note {event : SocketEvent} (h : event.ofRequest = false) :
    Follows (SessionStep env config store) (note event) :=
  follows_modify fun s => note_moved s h

theorem follows_updateClientEvents (enableWrite : Bool) :
    Follows (SessionStep env config store) (updateClientEvents enableWrite) := by
  refine follows_ask ?_
  intro s answer ok s' hans
  cases answer with
  | controlled granted =>
      cases granted with
      | true => cases hans; exact moved_of_fields rfl rfl rfl rfl rfl rfl rfl rfl
      | false => cases hans; exact .refl
  | _ => cases hans

theorem follows_writeSocket : Follows (SessionStep env config store) writeSocket := by
  refine follows_ask ?_
  intro s answer result s' hans
  cases answer with
  | written outcome =>
      cases outcome with
      | ok n =>
          simp only at hans
          split at hans
          · cases hans
            split
            · exact .refl
            · exact note_moved s rfl
          · cases hans
      | error errno => cases hans; exact .refl
  | _ => cases hans

theorem follows_readSocket : Follows (SessionStep env config store) readSocket := by
  refine follows_ask ?_
  intro s answer result s' hans
  cases answer with
  | readBytes outcome =>
      cases outcome with
      | ok bytes =>
          simp only at hans
          split at hans
          · cases hans
            refine .single (.moved ⟨⟨rfl, rfl⟩, rfl, rfl, rfl, rfl, rfl, .inr ⟨_, ?_, rfl⟩⟩)
            split <;> rfl
          · cases hans
      | error errno => cases hans; exact note_moved s rfl
  | _ => cases hans

@[simp] theorem ReusableBuffer.consumeFrame_storage (b : ReusableBuffer) (n : Nat) :
    (b.consumeFrame n).storage = b.storage := by
  unfold ReusableBuffer.consumeFrame
  simp only
  split <;> rfl

theorem follows_flushRound (u : Unit) : Follows (SessionStep env config store) (flushRound u) := by
  refine follows_bind follows_read fun s => follows_ite ?_ (follows_pure _)
  refine follows_bind follows_writeSocket fun result => ?_
  cases result with
  | ok n =>
      refine follows_ite (follows_bind (follows_modify fun s => ?_) fun _ => follows_pure _)
        (follows_pure _)
      exact moved_of_fields rfl rfl rfl rfl rfl rfl (ReusableBuffer.consumeFrame_storage _ _) rfl
  | error errno => cases errno <;> exact follows_pure _

theorem follows_flushPendingWrite :
    Follows (SessionStep env config store) (flushPendingWrite config) := by
  refine follows_bind (follows_loop productive_flushRound follows_flushRound ()) fun drained =>
    follows_ite ?_ (follows_pure _)
  refine follows_bind (follows_modify fun s => moved_of_fields rfl rfl rfl rfl rfl rfl rfl rfl)
    fun _ => ?_
  refine follows_bind follows_read fun s => ?_
  refine follows_bind (follows_updateClientEvents _) fun granted =>
    follows_ite (follows_bind (follows_modify fun s => ?_) fun _ => follows_pure _) (follows_pure _)
  split
  · rename_i hlimit
    exact .single (.woken ⟨(Bool.and_eq_true_iff.mp hlimit).2, rfl⟩)
  · exact .refl

theorem follows_makeRoom : Follows (SessionStep env config store) makeRoom := by
  refine follows_bind follows_read fun s => follows_ite ?_ (follows_pure _)
  refine follows_bind (follows_modify fun s => moved_of_fields rfl rfl rfl rfl rfl rfl rfl rfl)
    fun _ => ?_
  exact follows_bind follows_read fun s =>
    follows_ite (follows_bind (follows_note rfl) fun _ => follows_pure _) (follows_pure _)

/-! ## One frame -/

/-- Two readings for each of the two phases of a request that is not eligible. -/
theorem handleRequest_clock_not_eligible {fl : Double → Double} {message : ParsedMessage}
    {receivedAtNs : UInt64} {store : CampaignStoreSnapshot} {rng : WorkerRng} {clock : Clock}
    (hineligible : (requestContext message receivedAtNs).isEligible = false) :
    (handleRequest fl message receivedAtNs store rng clock).clock =
      { clock with taken := clock.taken + 4 } := by
  unfold requestContext at hineligible
  unfold handleRequest
  generalize validateRequestContext (buildRequestContext message receivedAtNs) = context
    at hineligible
  simp only [hineligible, Bool.not_false, if_true]
  rfl

/-- `handle_request` only reads the clock. -/
theorem handleRequest_clock_later (fl : Double → Double) (message : ParsedMessage)
    (receivedAtNs : UInt64) (store : CampaignStoreSnapshot) (rng : WorkerRng) (clock : Clock) :
    (handleRequest fl message receivedAtNs store rng clock).clock.reading = clock.reading ∧
      clock.taken ≤ (handleRequest fl message receivedAtNs store rng clock).clock.taken := by
  cases hel : (requestContext message receivedAtNs).isEligible with
  | true =>
      rw [handleRequest_clock hel]
      exact ⟨rfl, Nat.le_add_right _ 8⟩
  | false =>
      rw [handleRequest_clock_not_eligible hel]
      exact ⟨rfl, Nat.le_add_right _ 4⟩

/-- `handle_request` and the staging, with a name for what they leave behind. -/
theorem callHandleRequest_ensures_of_eq {rely : Answer → Prop} {post : Handled → Session → Prop}
    {wait : Call → Session → Prop} {message : ParsedMessage} {receivedAtNs : UInt64} {s : Session}
    {handled : Handled}
    (hhandled : handleRequest env.fl message receivedAtNs store s.rng s.clock = handled)
    (h : post handled (s.setHandled handled)) :
    (callHandleRequest env store message receivedAtNs).Ensures rely s post wait := by
  subst hhandled
  exact ensures_update_of_eq rfl h

theorem callStageResponseFrame_ensures_of_eq {rely : Answer → Prop} {post : Bool → Session → Prop}
    {wait : Call → Session → Prop} {response : BidResponse} {s : Session}
    {staged : Bool × ReusableBuffer}
    (hstaged : stageResponseFrame env.protobuf response s.connection.writeBuffer = staged)
    (h : post staged.1 (s.setWriteBuffer staged.2)) :
    (callStageResponseFrame env response).Ensures rely s post wait := by
  subst hstaged
  exact ensures_update_of_eq rfl h

/-- What the pipeline made of a request handed over in `s`. -/
theorem handleRequest_request {s0 s : Session} (h : Paused s0 s) {payload : Bytes}
    {message : ParsedMessage} {handled : Handled}
    (hhandled : handleRequest env.fl message s.clock.nowNs.1 store s.tick.rng s.tick.clock =
      handled) :
    ∃ request : Request, request.payload = payload ∧ request.message = message ∧
      request.position = s.clock.taken ∧ s0.clock.reading request.position = request.receivedAtNs ∧
      handled.result = request.result env store s0.rng ∧
      handled.rng = request.draw env store s0.rng ∧ handled.clock.reading = s0.clock.reading ∧
      s.clock.taken < handled.clock.taken := by
  have hlater := handleRequest_clock_later env.fl message s.clock.nowNs.1 store s.tick.rng
    s.tick.clock
  have hresult := handleRequest_result env.fl message s.clock.nowNs.1 store s.tick.rng s.tick.clock
  have hrng := handleRequest_rng env.fl message s.clock.nowNs.1 store s.tick.rng s.tick.clock
  have hsame : s.tick.rng = s0.rng := h.rng
  rw [hhandled] at hlater
  rw [hhandled, hsame] at hresult hrng
  -- a name for the request keeps the pipeline folded
  obtain ⟨request, hrequest⟩ : ∃ request : Request, request =
    ⟨payload, message, s.clock.taken, s.clock.nowNs.1⟩ := ⟨_, rfl⟩
  have hmessage : request.message = message := by rw [hrequest]
  have hreceived : request.receivedAtNs = s.clock.nowNs.1 := by rw [hrequest]
  have hposition : request.position = s.clock.taken := by rw [hrequest]
  refine ⟨request, by rw [hrequest], hmessage, hposition, ?_, ?_, ?_, ?_, ?_⟩
  · rw [hreceived, hposition, ← h.reading]
    rfl
  · rw [hresult, Request.result, hmessage, hreceived]
  · rw [hrng, Request.draw, hmessage, hreceived, generatorOf]
  · rw [hlater.1, ← h.reading]
    rfl
  · exact hlater.2

/-- The response is recorded and noted, and the descriptor armed. -/
theorem finishFrame_chain {frame : FrameView} {response : BidResponse}
    {timing : RequestTimingBreakdown} {s0 s : Session}
    (h : ∀ s' : Session, SameOwner s s' → s'.rng = s.rng → s'.clock = s.clock →
      s'.shutdownSignals = s.shutdownSignals →
      s'.connection.writeBuffer = s.connection.writeBuffer →
      s'.recorder = (s.recorder.map fun recorder => recorder.recordRequest timing) →
      s'.socket.history = s.socket.history ++ [.staged frame.payload response] →
      ReflTransGen (SessionStep env config store) s0 s') :
    (finishFrame frame response timing).Ensures (fun _ => True) s
      (fun _ s' => ReflTransGen (SessionStep env config store) s0 s')
      fun _ s' => ReflTransGen (SessionStep env config store) s0 s' := by
  refine ensures_bind ?_
  refine ensures_modify ?_
  refine ensures_bind ?_
  refine ensures_modify ?_
  refine ensures_bind ?_
  refine ensures_modify ?_
  refine ensures_bind ?_
  refine ensures_modify ?_
  have hnoted : ReflTransGen (SessionStep env config store) s0
      ((((s.recordRequest timing).setReadBuffer
        ((s.recordRequest timing).connection.readBuffer.consumeFrame
          frame.totalFrameBytes.toNat)).setPendingWrite true).note
            (.staged frame.payload response)) :=
    h _ ⟨rfl, rfl⟩ rfl rfl rfl rfl rfl rfl
  refine ensures_bind ?_
  refine (follows_updateClientEvents true _ _ hnoted).mono ?_ fun _ _ hk => hk.2
  intro granted s' hs'
  cases granted with
  | true => exact ensures_pure hs'
  | false => exact ensures_pure hs'

/-- From the parsed message to the end of `process_ready_frames`: one step,
and perhaps the descriptor armed. `s0` is the session before the frame was
parsed. -/
theorem answerFrame_chain {frame : FrameView} {totalStart parseNs : UInt64}
    {message : ParsedMessage} {s0 s : Session} (h : Paused s0 s)
    (hhistory : s.socket.history = s0.socket.history ++ [.parsed frame.payload])
    (hparse : parseBidRequest env.protobuf frame.payload = (.ok, message)) :
    (answerFrame env store frame totalStart parseNs message).Ensures (fun _ => True) s
      (fun _ s' => ReflTransGen (SessionStep env config store) s0 s')
      fun _ s' => ReflTransGen (SessionStep env config store) s0 s' := by
  obtain ⟨handled, hhandled⟩ : ∃ handled,
    handleRequest env.fl message s.clock.nowNs.1 store s.tick.rng s.tick.clock = handled := ⟨_, rfl⟩
  obtain ⟨request, hpayload, hmessage, hposition, hreceived, hresult, hdraw, hreading, htaken⟩ :=
    @handleRequest_request env store s0 s h frame.payload message handled hhandled
  refine ensures_bind ?_
  refine ensures_update ?_
  refine ensures_bind ?_
  refine callHandleRequest_ensures_of_eq (s := s.tick) hhandled ?_
  clear hhandled
  -- what each of the three branches has to show
  have hstep : ∀ s' : Session, SameOwner s s' → s'.shutdownSignals = s.shutdownSignals →
      s'.rng = handled.rng → s'.clock.reading = handled.clock.reading →
      handled.clock.taken ≤ s'.clock.taken →
      s'.socket.history = s.socket.history ++
        answerEvents env s.connection frame.payload handled.result →
      (s'.connection.writeBuffer.storage = s.connection.writeBuffer.storage ∨
        s'.connection.writeBuffer = (stageResponseFrame env.protobuf handled.result.response
          s.connection.writeBuffer).2) →
      ((stagedResponses (answerEvents env s.connection frame.payload handled.result) = [] ∧
          s'.recorder = s.recorder) ∨
        ∃ timing, stagedResponses (answerEvents env s.connection frame.payload handled.result) =
            [handled.result.response] ∧
          s'.recorder = s.recorder.map fun recorder => recorder.recordRequest timing) →
      RequestStep env store request s0 s' := by
    intro s' howner hsignals hrng hreading' htaken' hevents hstorage hrecorder
    rw [h.connection, hresult] at hevents hstorage hrecorder
    rw [h.recorder] at hrecorder
    refine ⟨?_, hsignals.trans h.shutdownSignals, hreading'.trans hreading, hreceived, ⟨?_, ?_⟩, ?_,
      hrng.trans hdraw, ?_, hstorage, ?_⟩
    · have hsame : SameOwner s0 s := by
        rw [SameOwner, h.connection]
        exact ⟨rfl, rfl⟩
      exact hsame.trans howner
    · rw [hposition]
      exact h.taken
    · rw [hposition]
      exact Nat.lt_of_lt_of_le htaken htaken'
    · rw [hpayload, hmessage]
      exact hparse
    · rw [hevents, hhistory, hpayload, List.append_assoc]
      rfl
    · rw [hpayload]
      exact hrecorder
  split
  · -- the request is dropped
    rename_i hdrop
    refine ensures_pure (.single (.request request (hstep _ ⟨rfl, rfl⟩ rfl rfl rfl (Nat.le_refl _) ?_
      (.inl rfl) (.inl ⟨?_, rfl⟩))))
    · rw [answerEvents, if_pos hdrop]
      exact (List.append_nil _).symm
    · rw [answerEvents, if_pos hdrop]
      rfl
  · rename_i hkept
    refine ensures_bind ?_
    refine ensures_update ?_
    refine ensures_bind ?_
    obtain ⟨staged, hstaged⟩ : ∃ staged, stageResponseFrame env.protobuf handled.result.response
      s.connection.writeBuffer = staged := ⟨_, rfl⟩
    refine callStageResponseFrame_ensures_of_eq (s := (s.tick.setHandled handled).tick) hstaged ?_
    have hevents : answerEvents env s.connection frame.payload handled.result =
        if staged.1 then [.staged frame.payload handled.result.response]
        else [.stagingFailed frame.payload handled.result.response] := by
      rw [answerEvents, if_neg hkept, hstaged]
    rw [hstaged, hevents] at hstep
    obtain ⟨ok, buffer⟩ := staged
    cases ok with
    | false =>
        simp only [Bool.false_eq_true, if_false]
        refine ensures_bind ?_
        refine ensures_modify ?_
        refine ensures_pure (.single (.request request (hstep _ ⟨rfl, rfl⟩ rfl rfl rfl ?_ rfl
          (.inr rfl) (.inl ⟨rfl, rfl⟩))))
        exact Nat.le_succ _
    | true =>
        simp only [if_true]
        refine ensures_bind ?_
        refine ensures_update ?_
        refine finishFrame_chain ?_
        intro s' howner hrng hclock hsignals hbuffer hrecorder hhistory'
        refine .single (.request request (hstep s' howner hsignals hrng ?_ ?_ hhistory'
          (.inr hbuffer) (.inr ⟨_, rfl, hrecorder⟩)))
        · rw [hclock]
          rfl
        · rw [hclock]
          exact Nat.le_add_right _ 2

/-- `process_ready_frames`: the check, then one request at most. -/
theorem follows_processReadyFrames :
    Follows (SessionStep env config store) (processReadyFrames env config store) := by
  refine Follows.of_ensures fun s => ?_
  refine ensures_bind ?_
  refine ensures_read ?_
  generalize s.connection.readBuffer.tryExtractFrame config.maxFrameSize = extracted
  obtain ⟨status, frame⟩ := extracted
  refine ensures_bind ?_
  refine ensures_modify ?_
  have hchecked : ReflTransGen (SessionStep env config store) s (s.note (.frameChecked status)) :=
    note_moved s rfl
  cases status with
  | needMoreData => exact ensures_pure hchecked
  | invalidLength => exact ensures_pure hchecked
  | frameReady =>
      generalize s.note (.frameChecked .frameReady) = s1 at hchecked
      refine ensures_bind ?_
      refine ensures_update ?_
      refine ensures_bind ?_
      refine ensures_update ?_
      refine ensures_bind ?_
      refine ensures_modify ?_
      cases hparse : parseBidRequest env.protobuf frame.payload with
      | mk parseStatus message =>
          refine ensures_bind ?_
          refine ensures_update ?_
          have hpaused : Paused s1 ((s1.tick.tick.note (.parsed frame.payload)).tick) :=
            ⟨rfl, rfl, rfl, rfl, rfl, Nat.le_add_right _ 3⟩
          by_cases hok : parseStatus = .ok
          · rw [hok] at hparse
            rw [if_pos hok]
            refine (@answerFrame_chain env config store frame _ _ message s1 _ hpaused rfl
              hparse).mono ?_ ?_
            · intro _ s' hs'
              exact hchecked.trans hs'
            · intro _ s' hs'
              exact hchecked.trans hs'
          · rw [if_neg hok]
            refine ensures_pure (hchecked.trans (.single (.unparsed frame.payload ?_)))
            refine ⟨⟨rfl, rfl⟩, rfl, rfl, rfl, rfl, Nat.le_add_right _ 3, rfl, ?_, rfl⟩
            rw [hparse]
            exact hok

theorem follows_readRound (u : Unit) :
    Follows (SessionStep env config store) (readRound env config store u) := by
  refine follows_bind follows_makeRoom fun room => follows_ite ?_ (follows_pure _)
  refine follows_bind follows_readSocket fun result => ?_
  cases result with
  | ok n =>
      refine follows_ite ?_ (follows_pure _)
      refine follows_bind (follows_modify fun s => moved_of_fields rfl rfl rfl rfl rfl rfl rfl rfl)
        fun _ => ?_
      refine follows_bind follows_processReadyFrames fun outcome => ?_
      cases outcome <;> exact follows_pure _
  | error errno => cases errno <;> exact follows_pure _

theorem follows_serveFrames :
    Follows (SessionStep env config store) (serveFrames env config store) := by
  refine follows_bind follows_processReadyFrames fun outcome => ?_
  cases outcome with
  | «continue» => exact follows_loop productive_readRound follows_readRound ()
  | pauseForWrite => exact follows_pure _
  | closeConnection => exact follows_pure _

/-- **A handler** goes by steps. -/
theorem follows_serveClient (mask : UInt32) :
    Follows (SessionStep env config store) (serveClient env config store mask) := by
  refine follows_bind follows_read fun s => follows_ite ?_ follows_serveFrames
  refine follows_bind ?_ fun flushed => follows_ite ?_ (follows_pure _)
  · exact follows_ite follows_flushPendingWrite (follows_pure _)
  · exact follows_bind follows_read fun s => follows_ite (follows_pure _) follows_serveFrames

theorem follows_registerCall : Follows (SessionStep env config store)
    (ask .epollCtl fun s answer =>
      match answer with
      | .controlled true => some (true,
          { s with socket := { s.socket with interest := some (EPOLLIN ||| EPOLLRDHUP) } })
      | .controlled false => some (false, s)
      | _ => none : SessionM Bool) := by
  refine follows_ask ?_
  intro s answer ok s' hans
  cases answer with
  | controlled granted =>
      cases granted with
      | true => cases hans; exact moved_of_fields rfl rfl rfl rfl rfl rfl rfl rfl
      | false => cases hans; exact .refl
  | _ => cases hans

end

/-! ## Steps of a worker -/

/-- **One step of the event loop**: of the session of an open connection, a
client entered, or a connection dropped. -/
inductive WorldStep (env : Platform) (w : World) : World → Prop where
  | session (fd : Fd) (s s' : Session) (hget : getSession fd w = some s)
      (hstep : SessionStep env w.runtime.config w.runtime.campaignStore s s') :
      WorldStep env w (putSession fd s' w)
  | entered (fd : Fd) (h0 : 0 ≤ fd) (hnew : w.kernel.fdTable fd = none)
      (hapart : fd ≠ w.runtime.listenFd ∧ fd ≠ w.runtime.epollFd ∧
        fd ≠ w.runtime.config.shutdownFd) : WorldStep env w (w.enter fd)
  | dropped (fd : Fd) (hopen : (w.kernel.fdTable fd).isSome = true) :
      WorldStep env w (w.dropConnection fd)

section

variable {env : Platform} {w : World} {fd : Fd} {s s' : Session}

/-- A connection that is found is in both tables. -/
theorem getSession_some (h : getSession fd w = some s) :
    ∃ c i, w.runtime.connections fd = some c ∧ w.kernel.fdTable fd = some i ∧
      s = { connection := c
            socket := w.kernel.sockets i
            rng := w.runtime.rng
            recorder := w.runtime.benchmarkRecorder
            shutdownSignals := w.kernel.shutdownSignals
            clock := w.clock } := by
  unfold getSession at h
  split at h
  · rename_i c i hc hi
    exact ⟨c, i, hc, hi, (Option.some.inj h).symm⟩
  · cases h

theorem putSession_getSession (h : getSession fd w = some s) : putSession fd s w = w := by
  obtain ⟨c, i, hc, hi, rfl⟩ := getSession_some h
  simp only [putSession, hi]
  have hconnections : Function.update w.runtime.connections fd (some c) = w.runtime.connections := by
    rw [← hc]
    exact Function.update_eq_self fd _
  rw [hconnections, Function.update_eq_self]

theorem getSession_putSession (h : getSession fd w = some s) :
    getSession fd (putSession fd s' w) = some s' := by
  obtain ⟨c, i, hc, hi, -⟩ := getSession_some h
  simp only [getSession, putSession, hi, Function.update_self]

theorem putSession_putSession (h : getSession fd w = some s) (s1 : Session) :
    putSession fd s' (putSession fd s1 w) = putSession fd s' w := by
  obtain ⟨c, i, hc, hi, -⟩ := getSession_some h
  simp only [putSession, hi, Function.update_idem]

/-- A relation that has the steps of a worker on the connections it has. -/
structure ClientSteps (env : Platform) (step : World → World → Prop) : Prop where
  session : ∀ {w : World} {fd : Fd} {s s' : Session}, getSession fd w = some s →
    SessionStep env w.runtime.config w.runtime.campaignStore s s' → step w (putSession fd s' w)
  dropped : ∀ {w : World} {fd : Fd}, (w.kernel.fdTable fd).isSome = true →
    step w (w.dropConnection fd)

theorem clientSteps_worldStep (env : Platform) : ClientSteps env (WorldStep env) where
  session hget hstep := .session _ _ _ hget hstep
  dropped hopen := .dropped _ hopen

/-- A handler on one connection moves the worker. -/
theorem onConnection_chain {α : Type} {m : SessionM α} {step : World → World → Prop}
    (hstep : ClientSteps env step)
    (hm : Follows (SessionStep env w.runtime.config w.runtime.campaignStore) m) :
    (onConnection fd m).Ensures (fun _ => True) w (fun _ w' => ReflTransGen step w w')
      fun _ w' => ReflTransGen step w w' := by
  refine zoom_chain (fun s hs => putSession_getSession hs) ?_ hm
  intro s0 s s' hs0 hsession
  have hmid := @ClientSteps.session env step hstep (putSession fd s w) fd s s'
    (getSession_putSession hs0) hsession
  rw [putSession_putSession hs0] at hmid
  exact .single hmid

theorem follows_dropDescriptor {step : World → World → Prop} (hstep : ClientSteps env step)
    (fd : Fd) : Follows step (dropDescriptor fd) := by
  refine Follows.of_ensures fun w => ?_
  cases hi : w.kernel.fdTable fd with
  | none =>
      intro is _
      simp only [dropDescriptor, zoom, hi, Option.isSome_none, Bool.false_eq_true, if_false]
      exact .refl
  | some i =>
      refine ensures_zoom (t := w) (by simp [hi]) ?_
      exact ensures_modify (.single (hstep.dropped (by simp [hi])))

theorem follows_closeConnection {step : World → World → Prop} (hstep : ClientSteps env step)
    (fd : Fd) : Follows step (closeConnection fd) := by
  unfold closeConnection
  exact follows_ite (follows_pure _) (follows_dropDescriptor hstep fd)

theorem follows_hangUp {step : World → World → Prop} (hstep : ClientSteps env step)
    (event : EpollEvent) : Follows step (hangUp event) := by
  refine Follows.of_ensures fun w => ?_
  refine ensures_bind ?_
  refine (onConnection_chain hstep (follows_note rfl)).weaken ?_
  intro _ w1 h1
  refine ((follows_closeConnection hstep event.fd).ensures w1).mono ?_ ?_
  · intro _ w2 h2
    exact h1.trans h2
  · intro _ w2 h2
    exact h1.trans h2

theorem follows_acceptRound (env : Platform) (u : Unit) :
    Follows (WorldStep env) (acceptRound u) := by
  refine Follows.of_ensures fun w => ?_
  refine ensures_bind ?_
  refine ensures_ask .refl ?_
  intro answer result w' _ hans
  cases answer with
  | accepted outcome =>
      cases outcome with
      | error errno =>
          cases hans
          exact ensures_pure .refl
      | ok fd =>
          simp only at hans
          split at hans
          · rename_i hguard
            obtain ⟨h0, hfd, hapart⟩ := hguard
            cases hans
            have hentered : ReflTransGen (WorldStep env) w (w.enter fd) :=
              .single (.entered fd h0 hfd hapart)
            refine ensures_bind ?_
            refine ensures_modify ?_
            show Ensures _ _ (w.enter fd) _ _
            refine ensures_bind ?_
            have hregister := @onConnection_chain env (w.enter fd) fd Bool _ _ (clientSteps_worldStep env)
              follows_registerCall
            refine hregister.mono ?_ ?_
            · intro granted w2 h2
              cases granted with
              | true => exact ensures_pure (hentered.trans h2)
              | false =>
                  refine ensures_bind ?_
                  refine ((follows_dropDescriptor (clientSteps_worldStep env) fd).ensures w2).mono ?_ ?_
                  · intro _ w3 h3
                    exact ensures_pure ((hentered.trans h2).trans h3)
                  · intro _ w3 h3
                    exact (hentered.trans h2).trans h3
            · intro _ w2 h2
              exact hentered.trans h2
          · cases hans
  | _ => cases hans

/-- **One event.** -/
theorem follows_handleEvent (env : Platform) (event : EpollEvent) :
    Follows (WorldStep env) (handleEvent env event) := by
  refine Follows.of_ensures fun w => ?_
  refine ensures_bind ?_
  refine ensures_read ?_
  split
  · exact (follows_loop productive_acceptRound (follows_acceptRound env) ()).ensures w
  · cases hc : w.runtime.connections event.fd with
    | none => exact ensures_pure .refl
    | some c =>
        simp only
        split
        · exact (follows_hangUp (clientSteps_worldStep env) event).ensures w
        · refine ensures_bind ?_
          have hserve := @onConnection_chain env w event.fd Bool _ _ (clientSteps_worldStep env)
            (follows_serveClient event.mask)
          refine hserve.weaken ?_
          intro close w1 h1
          cases close with
          | false => exact ensures_pure h1
          | true =>
              refine ((follows_closeConnection (clientSteps_worldStep env) event.fd).ensures w1).mono ?_ ?_
              · intro _ w2 h2
                exact h1.trans h2
              · intro _ w2 h2
                exact h1.trans h2

theorem follows_handleBatch (env : Platform) (events : List EpollEvent) :
    Follows (WorldStep env) (handleBatch env events) := by
  induction events with
  | nil => exact follows_pure _
  | cons event events ih =>
      refine follows_bind (follows_ask ?_) fun _ => follows_bind follows_read fun w =>
        follows_ite (follows_pure _) (follows_bind (follows_handleEvent env event) fun _ => ih)
      intro w answer u w' hans
      cases answer with
      | go => cases hans; exact .refl
      | _ => cases hans

theorem follows_epollRound (env : Platform) (u : Unit) :
    Follows (WorldStep env) (epollRound env u) := by
  refine follows_bind (follows_ask ?_) fun result => ?_
  · intro w answer result w' hans
    cases answer with
    | events outcome =>
        cases outcome with
        | ok batch =>
            simp only at hans
            split at hans
            · cases hans; exact .refl
            · cases hans
        | error errno => cases hans; exact .refl
    | _ => cases hans
  · cases result with
    | error errno => exact follows_pure _
    | ok events =>
        exact follows_bind (follows_handleBatch env events) fun _ =>
          follows_ite (follows_pure _) (follows_pure _)

/-- **Every run of the worker** is a chain of steps. -/
theorem follows_runWorkerLoop (env : Platform) : Follows (WorldStep env) (runWorkerLoop env) :=
  follows_loop (productive_epollRound env) (follows_epollRound env) ()

/-- The entries keep their owners. -/
theorem WorldStep.owned {w' : World} (h : WorldStep env w w') (hw : Owned w) : Owned w' := by
  cases h with
  | session fd s s' hget hstep =>
      obtain ⟨c, i, hc, hi, rfl⟩ := getSession_some hget
      obtain ⟨hfd, hid⟩ := hw.entry hc hi
      have howner := hstep.owner
      exact hw.put hi (howner.1.trans hfd) (howner.2.trans hid)
  | entered fd h0 hnew hapart => exact hw.enter hnew h0 hapart
  | dropped fd hopen => exact hw.drop

/-- The worker's own descriptors, its configuration and its store stay. -/
theorem WorldStep.worker {w' : World} (h : WorldStep env w w') :
    SameWorker w w' ∧ w'.runtime.campaignStore = w.runtime.campaignStore := by
  cases h with
  | session fd s s' hget hstep => exact ⟨⟨rfl, rfl, rfl⟩, rfl⟩
  | entered fd h0 hnew hapart => exact ⟨⟨rfl, rfl, rfl⟩, rfl⟩
  | dropped fd hopen => exact ⟨⟨rfl, rfl, rfl⟩, rfl⟩

/-- A step may read the clock, and that is all it does to it. -/
theorem WorldStep.clock {w' : World} (h : WorldStep env w w') :
    w'.clock.reading = w.clock.reading ∧ w.clock.taken ≤ w'.clock.taken := by
  cases h with
  | session fd s s' hget hstep =>
      obtain ⟨c, i, -, -, rfl⟩ := getSession_some hget
      exact hstep.clock
  | entered fd h0 hnew hapart => exact ⟨rfl, Nat.le_refl _⟩
  | dropped fd hopen => exact ⟨rfl, Nat.le_refl _⟩

theorem clock_reading (env : Platform) (w : World) (is : List Answer) :
    ((runWorkerLoop env).run w is).state.clock.reading = w.clock.reading := by
  have hkept : ∀ w1 w2 : World, w1.clock.reading = w.clock.reading → WorldStep env w1 w2 →
      w2.clock.reading = w.clock.reading :=
    fun _ _ h1 h12 => h12.clock.1.trans h1
  exact chain_invariant (fun w' => w'.clock.reading = w.clock.reading) hkept rfl
    ((follows_runWorkerLoop env).state w is)

end

end RtbEngine
