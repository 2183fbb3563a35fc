import RtbEngine.Engine.Wire
import RtbEngine.Logic.Notes
import RtbEngine.Theorems.Bidding

/-!
# The deadline is checked on receipt

`build_request_context` compares the deadline with the reading taken when the
request is handed over, and nothing looks at the clock again to decide: what
`process_ready_frames` does to the socket is a function of that one reading.
-/

namespace RtbEngine

open Lib Exec

/-! ## The deadline -/

/-- Validation does not make an expired request right. -/
theorem validate_expired {context : RequestContext} (h : context.processingStatus = .expired) :
    (validateRequestContext context).processingStatus ≠ .ok := by
  unfold validateRequestContext
  split
  · exact RequestProcessingStatus.noConfusion
  · split
    · split
      · rw [h]
        exact RequestProcessingStatus.noConfusion
      · rw [h]
        exact RequestProcessingStatus.noConfusion
    · rw [h]
      exact RequestProcessingStatus.noConfusion

/-- Past the deadline on receipt, a request is not eligible. -/
theorem not_eligible_of_late {message : ParsedMessage} {receivedAtNs : UInt64}
    (hlate : computeDeadlineNs receivedAtNs message.tmaxMs ≤ receivedAtNs) :
    (requestContext message receivedAtNs).isEligible = false := by
  have hexpired : (buildRequestContext message receivedAtNs).processingStatus = .expired := by
    unfold buildRequestContext
    simp only [if_pos hlate]
  have hstatus : (requestContext message receivedAtNs).processingStatus ≠ .ok :=
    validate_expired hexpired
  rw [RequestContext.isEligible, decide_eq_false hstatus, Bool.false_and]

theorem status_noBid_of_late (fl : Double → Double) (store : CampaignStoreSnapshot)
    {message : ParsedMessage} {receivedAtNs : UInt64} (rng : WorkerRng)
    (hlate : computeDeadlineNs receivedAtNs message.tmaxMs ≤ receivedAtNs) :
    (resultFor fl store (requestContext message receivedAtNs) rng).response.status = .noBid := by
  have hineligible := not_eligible_of_late hlate
  generalize requestContext message receivedAtNs = context at hineligible
  unfold resultFor
  rw [decideFor_of_not_eligible fl hineligible]
  rfl

/-- A staged response answers the parsed request, without a bid if it came too
late. -/
theorem staged_of_notedEvents {env : Platform} {config : WorkerConfig}
    {store : CampaignStoreSnapshot} {connection : ConnectionState} {rng : WorkerRng}
    {receivedAtNs : UInt64} {payload : Bytes} {response : BidResponse}
    (h : .staged payload response ∈
      notedEvents env config store connection rng receivedAtNs) :
    ∃ message, parseBidRequest env.protobuf payload = (.ok, message) ∧
      (computeDeadlineNs receivedAtNs message.tmaxMs ≤ receivedAtNs →
        response.status = .noBid) := by
  unfold notedEvents at h
  split at h
  · rename_i frame _
    simp only [List.mem_cons, reduceCtorEq, false_or] at h
    split at h
    · rename_i message hparse
      have hlate := @status_noBid_of_late env.fl store message receivedAtNs rng
      generalize resultFor env.fl store (requestContext message receivedAtNs) rng = result
        at h hlate
      unfold answerEvents at h
      split at h
      · cases h
      · split at h
        · obtain ⟨rfl, rfl⟩ : payload = frame.payload ∧ _ := by simpa using h
          exact ⟨message, hparse, hlate⟩
        · simp at h
    · cases h
  · simp at h

/-- A bid is staged by its deadline: the last reading of the call, taken when
staging ends, does not exceed the deadline of a request that gets a bid. -/
def NoLateBid : Prop :=
  ∀ (env : Platform) (config : WorkerConfig) (store : CampaignStoreSnapshot) (s : Session)
    (is : List Answer) (payload : Bytes) (response : BidResponse) (message : ParsedMessage),
    (∀ m n, m ≤ n → s.clock.reading m ≤ s.clock.reading n) →
    let s' := ((processReadyFrames env config store).run s is).state
    .staged payload response ∈ s'.socket.history.drop s.socket.history.length →
    parseBidRequest env.protobuf payload = (.ok, message) → response.status = .bid →
      s'.clock.reading (s'.clock.taken - 1) ≤
        computeDeadlineNs (s.clock.reading (s.clock.taken + 3)) message.tmaxMs

/-- **The deadline holds on receipt**: a staged bid answers a request whose
deadline was ahead at the reading it was handed over with, one whose deadline
was not gets no bid, and no other reading changes what is staged. -/
theorem bid_before_deadline_on_receipt (env : Platform) (config : WorkerConfig)
    (store : CampaignStoreSnapshot) (s : Session) (is : List Answer) :
    let s' := ((processReadyFrames env config store).run s is).state
    let receivedAtNs := s.clock.reading (s.clock.taken + 3)
    (∀ payload response, .staged payload response ∈
        s'.socket.history.drop s.socket.history.length →
      ∃ message, parseBidRequest env.protobuf payload = (.ok, message) ∧
        (response.status = .bid → receivedAtNs < computeDeadlineNs receivedAtNs message.tmaxMs) ∧
        (computeDeadlineNs receivedAtNs message.tmaxMs ≤ receivedAtNs →
          response.status = .noBid)) ∧
    (∀ clock : Clock, clock.reading (clock.taken + 3) = receivedAtNs →
      ((processReadyFrames env config store).run { s with clock := clock } is).state.socket.history =
        s'.socket.history) := by
  intro s' receivedAtNs
  have hnoted : s'.socket.history = s.socket.history ++
      notedEvents env config store s.connection s.rng receivedAtNs :=
    processReadyFrames_history env config store s is
  refine ⟨?_, ?_⟩
  · intro payload response hstaged
    rw [hnoted, List.drop_left] at hstaged
    obtain ⟨message, hparse, hlate⟩ := staged_of_notedEvents hstaged
    refine ⟨message, hparse, ?_, hlate⟩
    intro hbid
    by_contra hpassed
    -- past the deadline there is no bid, against `hbid`
    rw [hlate (UInt64.not_lt.mp hpassed)] at hbid
    cases hbid
  · intro clock hclock
    rw [processReadyFrames_history, hnoted, hclock]

/-! ## A late bid -/

/-- A call that stages the answer to an eligible request takes fourteen
readings, the last one when staging ends. -/
theorem processReadyFrames_clock {env : Platform} {config : WorkerConfig}
    {store : CampaignStoreSnapshot} {s : Session} {frame : FrameView} {message : ParsedMessage}
    (hready : s.connection.readBuffer.tryExtractFrame config.maxFrameSize = (.frameReady, frame))
    (hparse : parseBidRequest env.protobuf frame.payload = (.ok, message))
    (heligible : (requestContext message (s.clock.reading (s.clock.taken + 3))).isEligible = true)
    (hstaged : answerEvents env s.connection frame.payload
      (resultFor env.fl store (requestContext message (s.clock.reading (s.clock.taken + 3))) s.rng) =
        [.staged frame.payload (resultFor env.fl store
          (requestContext message (s.clock.reading (s.clock.taken + 3))) s.rng).response])
    (is : List Answer) :
    ((processReadyFrames env config store).run s is).state.clock =
      { s.clock with taken := s.clock.taken + 14 } := by
  obtain ⟨handled, hhandled⟩ : ∃ handled, handleRequest env.fl message
    (s.clock.reading (s.clock.taken + 3)) store s.rng
    { reading := s.clock.reading, taken := s.clock.taken + 4 } = handled := ⟨_, rfl⟩
  have hresult := handleRequest_result env.fl message (s.clock.reading (s.clock.taken + 3)) store
    s.rng { reading := s.clock.reading, taken := s.clock.taken + 4 }
  have hclock := @handleRequest_clock env.fl message (s.clock.reading (s.clock.taken + 3)) store
    s.rng { reading := s.clock.reading, taken := s.clock.taken + 4 } heligible
  rw [hhandled] at hresult hclock
  rw [← hresult] at hstaged
  obtain ⟨hkept, hstage⟩ : handled.result.status ≠ .dropConnection ∧
      (stageResponseFrame env.protobuf handled.result.response s.connection.writeBuffer).1 =
        true := by
    unfold answerEvents at hstaged
    split at hstaged
    · cases hstaged
    · rename_i hkept
      split at hstaged
      · rename_i hstage
        exact ⟨hkept, hstage⟩
      · cases hstaged
  unfold processReadyFrames
  rw [run_read_bind, hready]
  simp only
  rw [run_note_bind, run_nowNs_bind, run_nowNs_bind, run_note_bind, hparse]
  simp only
  rw [run_nowNs_bind, if_pos trivial]
  -- four readings before `handle_request`, eight in it, two around the staging
  have hspec := answerFrame_spec env store frame
    (s.note (.frameChecked .frameReady)).clock.nowNs.1
    (((s.note (.frameChecked .frameReady)).tick.tick.note (.parsed frame.payload)).clock.nowNs.1 -
      (s.note (.frameChecked .frameReady)).tick.clock.nowNs.1) message
    ((s.note (.frameChecked .frameReady)).tick.tick.note (.parsed frame.payload)).tick is hhandled
  rw [hspec.2 hstage hkept, hclock]
  rfl

/-- The frame of `samplePayload` has just been read; from the fifth reading on, a minute passes. -/
def sampleLate : Session :=
  { connection :=
      { readBuffer :=
          { storage := Framing.frame samplePayload, writeOffset := 4 + samplePayload.length } }
    socket := {}
    rng := {}
    recorder := none
    shutdownSignals := 0
    clock := { reading := fun n => if n ≤ 3 then 0 else 60000000000 } }

/-- A minute in the pipeline does not stop a bid with a deadline of 99 ms. -/
theorem not_noLateBid : ¬ NoLateBid := by
  intro h
  have hready : sampleLate.connection.readBuffer.tryExtractFrame ({} : WorkerConfig).maxFrameSize =
      (.frameReady,
        { payload := samplePayload, payloadLength := 24, totalFrameBytes := 28 }) := by
    decide +kernel
  have hparse : parseBidRequest wireProtobuf samplePayload = (.ok, sampleMessage) := by
    decide +kernel
  have heligible : (requestContext sampleMessage 0).isEligible = true := by decide +kernel
  have hbid : (resultFor id sampleStore (requestContext sampleMessage 0) {}).response.status =
      .bid := by decide +kernel
  have hanswers : answerEvents ⟨wireProtobuf, id⟩ sampleLate.connection samplePayload
      (resultFor id sampleStore (requestContext sampleMessage 0) {}) =
        [.staged samplePayload
          (resultFor id sampleStore (requestContext sampleMessage 0) {}).response] := by
    decide +kernel
  have hclock := @processReadyFrames_clock ⟨wireProtobuf, id⟩ {} sampleStore sampleLate _
    sampleMessage hready hparse heligible hanswers []
  have hhistory := processReadyFrames_history ⟨wireProtobuf, id⟩ {} sampleStore sampleLate []
  have hnoted : notedEvents ⟨wireProtobuf, id⟩ {} sampleStore sampleLate.connection sampleLate.rng
      (sampleLate.clock.reading (sampleLate.clock.taken + 3)) =
      [.frameChecked .frameReady, .parsed samplePayload, .staged samplePayload
        (resultFor id sampleStore (requestContext sampleMessage 0) {}).response] := by
    unfold notedEvents
    rw [hready]
    simp only
    rw [hparse]
    exact congrArg (fun events => .frameChecked .frameReady :: .parsed samplePayload :: events)
      hanswers
  generalize resultFor id sampleStore (requestContext sampleMessage 0) {} = result at hbid hnoted
  have hlate := h ⟨wireProtobuf, id⟩ {} sampleStore sampleLate [] samplePayload result.response
    sampleMessage ?_ ?_ hparse hbid
  · rw [hclock] at hlate
    exact absurd hlate (by decide)
  · intro m n hmn
    -- the clock goes forward once, by a minute
    show (if m ≤ 3 then (0 : UInt64) else 60000000000) ≤
      if n ≤ 3 then (0 : UInt64) else 60000000000
    by_cases hn : n ≤ 3
    · rw [if_pos hn, if_pos (Nat.le_trans hmn hn)]
      exact UInt64.le_refl _
    · rw [if_neg hn]
      split <;> decide
  · rw [hhistory, hnoted, List.drop_left]
    simp

end RtbEngine
