import RtbEngine.Engine.Request

/-!
# What `handle_request` computes

`handleRequest` read as a function of the context it builds: the clock only
enters the timing, and a request that is not eligible goes through the same
decision as one that is.

* `handleRequest_result`, `handleRequest_rng` — in terms of the context;
* `handleRequest_clock` — the readings of the clock;
* `requestContext_invalid`, `requestContext_expired`,
  `requestContext_eligible` — the three kinds of contexts;
* `requestContext_sameRequest` — the time of arrival does not matter.
-/

namespace RtbEngine

open Lib

/-- The context of a request, validated. -/
def requestContext (message : ParsedMessage) (receivedAtNs : UInt64) : RequestContext :=
  validateRequestContext (buildRequestContext message receivedAtNs)

/-- What the worker does with the connection of a request. -/
def statusOf (context : RequestContext) : HandleRequestStatus :=
  if context.processingStatus ≠ .ok ∧ context.noBidReason = .invalidRequest then .dropConnection
  else .responseReady

/-- The decision for a context, and the generator afterwards. -/
def decideFor (fl : Double → Double) (store : CampaignStoreSnapshot) (context : RequestContext)
    (rng : WorkerRng) : BidDecision × WorkerRng :=
  makeBidDecision fl context (retrieveCandidates store context) rng

/-- What the request with the context `context` gets. -/
def resultFor (fl : Double → Double) (store : CampaignStoreSnapshot) (context : RequestContext)
    (rng : WorkerRng) : HandleRequestResult :=
  { status := statusOf context
    context := context
    decision := (decideFor fl store context rng).1
    response := buildBidResponse context (decideFor fl store context rng).1 }

theorem resultFor_decision (fl : Double → Double) (store : CampaignStoreSnapshot)
    (context : RequestContext) (rng : WorkerRng) :
    (resultFor fl store context rng).decision = (decideFor fl store context rng).1 := by
  rw [resultFor]

/-- `context` is kept as a name: unfolded, it would be evaluated again for
every field. -/
theorem handleRequest_of_context {fl : Double → Double} {message : ParsedMessage}
    {receivedAtNs : UInt64} {store : CampaignStoreSnapshot} {rng : WorkerRng} {clock : Clock}
    {context : RequestContext}
    (hcontext : validateRequestContext (buildRequestContext message receivedAtNs) = context) :
    (handleRequest fl message receivedAtNs store rng clock).result =
        resultFor fl store context rng ∧
      (handleRequest fl message receivedAtNs store rng clock).rng =
        (decideFor fl store context rng).2 := by
  unfold handleRequest resultFor
  simp only [hcontext]
  cases hel : context.isEligible with
  | true =>
      simp only [Bool.not_true, Bool.false_eq_true, if_false, statusOf, decideFor, and_self]
  | false =>
      have hdecide : decideFor fl store context rng =
          ({ hasBid := false, noBidReason := context.noBidReason }, rng) := by
        simp only [decideFor, makeBidDecision, hel, Bool.not_false, if_true]
      simp only [hdecide, Bool.not_false, if_true, statusOf, and_self]

section

variable (fl : Double → Double) (message : ParsedMessage) (receivedAtNs : UInt64)
  (store : CampaignStoreSnapshot) (rng : WorkerRng) (clock : Clock)

/-- **The pipeline**, without its clock. -/
theorem handleRequest_result :
    (handleRequest fl message receivedAtNs store rng clock).result =
      resultFor fl store (requestContext message receivedAtNs) rng :=
  (handleRequest_of_context rfl).1

theorem handleRequest_rng :
    (handleRequest fl message receivedAtNs store rng clock).rng =
      (decideFor fl store (requestContext message receivedAtNs) rng).2 :=
  (handleRequest_of_context rfl).2

end

/-- Two readings for each of the four phases. -/
theorem handleRequest_clock {fl : Double → Double} {message : ParsedMessage}
    {receivedAtNs : UInt64} {store : CampaignStoreSnapshot} {rng : WorkerRng} {clock : Clock}
    (heligible : (requestContext message receivedAtNs).isEligible = true) :
    (handleRequest fl message receivedAtNs store rng clock).clock =
      { clock with taken := clock.taken + 8 } := by
  unfold requestContext at heligible
  unfold handleRequest
  generalize validateRequestContext (buildRequestContext message receivedAtNs) = context
    at heligible
  simp only [heligible, Bool.not_true, Bool.false_eq_true, if_false]
  rfl

/-! ## The context -/

/-- A message that parsed has a status of its own. -/
theorem processingStatus_of_parse {pb : Protobuf} {payload : Bytes} {message : ParsedMessage}
    (h : parseBidRequest pb payload = (.ok, message)) : message.processingStatus = .ok := by
  unfold parseBidRequest at h
  split at h
  · cases h
  · split at h
    · cases h
    · simp only at h
      repeat' split at h
      all_goals first | cases h; rfl | cases h

/-- A key that nothing matches, or no auction type. -/
def ParsedMessage.Invalid (message : ParsedMessage) : Prop :=
  (normalizeCountryKey message.country).value = 0 ∨
    normalizeDeviceTypeKey message.deviceType = .unknown ∨
    (normalizeAdSlotKey message.adSlot).value = 0 ∨ message.auctionType = .unspecified

instance (message : ParsedMessage) : Decidable message.Invalid :=
  inferInstanceAs (Decidable (_ ∨ _ ∨ _ ∨ _))

/-- The deadline of a request received at `receivedAtNs` is below `2 ^ 64`. -/
def ParsedMessage.DeadlineFits (message : ParsedMessage) (receivedAtNs : UInt64) : Prop :=
  receivedAtNs.toNat + (message.tmaxMs.toNat * 1000000 - 1000000) < 2 ^ 64

instance (message : ParsedMessage) (receivedAtNs : UInt64) :
    Decidable (message.DeadlineFits receivedAtNs) :=
  inferInstanceAs (Decidable (_ < _))

/-- The budget is used up by the safety margin. -/
theorem deadline_le_iff {message : ParsedMessage} {receivedAtNs : UInt64}
    (hfits : message.DeadlineFits receivedAtNs) :
    computeDeadlineNs receivedAtNs message.tmaxMs ≤ receivedAtNs ↔ message.tmaxMs.toNat ≤ 1 := by
  unfold ParsedMessage.DeadlineFits at hfits
  have htmax := message.tmaxMs.toNat_lt
  -- 32 bits of milliseconds are below 2 ^ 52 nanoseconds: no overflow here
  have hraw : (message.tmaxMs.toUInt64 * kNsPerMs).toNat = message.tmaxMs.toNat * 1000000 := by
    rw [UInt64.toNat_mul, UInt32.toNat_toUInt64]
    exact Nat.mod_eq_of_lt (by show message.tmaxMs.toNat * 1000000 < 2 ^ 64; omega)
  have hmargin : kResponseSafetyMarginNs.toNat = 1000000 := rfl
  unfold computeDeadlineNs
  simp only
  split
  · rename_i hle
    rw [UInt64.le_iff_toNat_le, hraw, hmargin] at hle
    exact ⟨fun _ => by omega, fun _ => UInt64.le_refl _⟩
  · rename_i hgt
    rw [UInt64.le_iff_toNat_le, hraw, hmargin] at hgt
    have hbudget : (message.tmaxMs.toUInt64 * kNsPerMs - kResponseSafetyMarginNs).toNat =
        message.tmaxMs.toNat * 1000000 - 1000000 := by
      rw [UInt64.toNat_sub_of_le, hraw, hmargin]
      rw [UInt64.le_iff_toNat_le, hraw, hmargin]
      omega
    rw [UInt64.le_iff_toNat_le, UInt64.toNat_add, hbudget,
      Nat.mod_eq_of_lt (by show _ < 2 ^ 64; exact hfits)]
    omega

section

variable {message : ParsedMessage} {receivedAtNs : UInt64}

/-- What validation leaves alone. -/
structure KeysOf (message : ParsedMessage) (context : RequestContext) : Prop where
  requestId : context.requestId = message.requestId
  country : context.countryKey = normalizeCountryKey message.country
  deviceType : context.deviceTypeKey = normalizeDeviceTypeKey message.deviceType
  adSlot : context.adSlotKey = normalizeAdSlotKey message.adSlot

theorem keysOf_build : KeysOf message (buildRequestContext message receivedAtNs) := by
  unfold buildRequestContext
  simp only
  split
  · exact ⟨rfl, rfl, rfl, rfl⟩
  · exact ⟨rfl, rfl, rfl, rfl⟩

theorem KeysOf.validate {context : RequestContext} (h : KeysOf message context) :
    KeysOf message (validateRequestContext context) := by
  unfold validateRequestContext
  split
  · exact ⟨h.requestId, h.country, h.deviceType, h.adSlot⟩
  · split
    · split
      · exact ⟨h.requestId, h.country, h.deviceType, h.adSlot⟩
      · exact h
    · exact h

theorem keysOf_requestContext : KeysOf message (requestContext message receivedAtNs) :=
  keysOf_build.validate

theorem buildRequestContext_auctionType :
    (buildRequestContext message receivedAtNs).auctionType = message.auctionType := by
  unfold buildRequestContext
  simp only
  split <;> rfl

/-- Status and reason before validation. -/
theorem buildRequestContext_status (hfits : message.DeadlineFits receivedAtNs) :
    (buildRequestContext message receivedAtNs).processingStatus =
        (if message.tmaxMs.toNat ≤ 1 then .expired else message.processingStatus) ∧
      (buildRequestContext message receivedAtNs).noBidReason =
        (if message.tmaxMs.toNat ≤ 1 then .deadlineExceeded else .none) := by
  have hiff := deadline_le_iff hfits
  unfold buildRequestContext
  simp only
  by_cases hle : message.tmaxMs.toNat ≤ 1
  · rw [if_pos (hiff.mpr hle), if_pos hle, if_pos hle]
    exact ⟨rfl, rfl⟩
  · rw [if_neg (fun h => hle (hiff.mp h)), if_neg hle, if_neg hle]
    exact ⟨rfl, rfl⟩

/-- An invalid request is invalid whatever its `tmax_ms`. -/
theorem requestContext_invalid (hinvalid : message.Invalid) :
    (requestContext message receivedAtNs).processingStatus = .invalid ∧
      (requestContext message receivedAtNs).noBidReason = .invalidRequest := by
  have hkeys := @keysOf_build message receivedAtNs
  unfold requestContext validateRequestContext
  rw [if_pos]
  · exact ⟨rfl, rfl⟩
  · rw [hkeys.country, hkeys.deviceType, hkeys.adSlot, buildRequestContext_auctionType]
    exact hinvalid

/-- A valid request keeps its status; what was neither right nor explained
is an invalid request. -/
theorem requestContext_valid (hvalid : ¬ message.Invalid) :
    requestContext message receivedAtNs =
      let context := buildRequestContext message receivedAtNs
      if context.processingStatus ≠ .ok ∧ context.noBidReason = .none then
        { context with noBidReason := .invalidRequest }
      else context := by
  have hkeys := @keysOf_build message receivedAtNs
  have hneg : ¬ ((buildRequestContext message receivedAtNs).countryKey.value = 0 ∨
      (buildRequestContext message receivedAtNs).deviceTypeKey = .unknown ∨
      (buildRequestContext message receivedAtNs).adSlotKey.value = 0 ∨
      (buildRequestContext message receivedAtNs).auctionType = .unspecified) := by
    rw [hkeys.country, hkeys.deviceType, hkeys.adSlot, buildRequestContext_auctionType]
    exact hvalid
  unfold requestContext
  generalize buildRequestContext message receivedAtNs = context at hneg
  unfold validateRequestContext
  rw [if_neg hneg]
  -- only an unexplained failure changes: `hneg` rules out the first branch
  by_cases hstatus : context.processingStatus ≠ .ok
  · by_cases hreason : context.noBidReason = .none
    · simp only [if_pos hstatus, if_pos hreason, if_pos (And.intro hstatus hreason)]
    · simp only [if_pos hstatus, if_neg hreason, if_neg (fun h : _ ∧ _ => hreason h.2)]
  · simp only [if_neg hstatus, if_neg (fun h : _ ∧ _ => hstatus h.1)]

/-- A request that parsed is dropped exactly if it is invalid, whenever it
came. -/
theorem statusOf_eq_drop_iff (hok : message.processingStatus = .ok) :
    statusOf (requestContext message receivedAtNs) = .dropConnection ↔ message.Invalid := by
  by_cases hinvalid : message.Invalid
  · obtain ⟨hstatus, hreason⟩ := @requestContext_invalid message receivedAtNs hinvalid
    exact iff_of_true (by simp [statusOf, hstatus, hreason]) hinvalid
  -- a valid request that is late has a reason of its own
  · refine iff_of_false ?_ hinvalid
    have hreason : ((buildRequestContext message receivedAtNs).processingStatus = .ok ∨
        (buildRequestContext message receivedAtNs).noBidReason = .deadlineExceeded) := by
      unfold buildRequestContext
      simp only
      split
      · exact .inr rfl
      · exact .inl hok
    rw [requestContext_valid hinvalid]
    generalize buildRequestContext message receivedAtNs = context at hreason ⊢
    rcases hreason with h | h <;> simp [statusOf, h]

theorem requestContext_expired (hfits : message.DeadlineFits receivedAtNs)
    (hvalid : ¬ message.Invalid) (htmax : message.tmaxMs.toNat ≤ 1) :
    (requestContext message receivedAtNs).processingStatus = .expired ∧
      (requestContext message receivedAtNs).noBidReason = .deadlineExceeded := by
  obtain ⟨hstatus, hreason⟩ := buildRequestContext_status hfits
  rw [if_pos htmax] at hstatus hreason
  rw [requestContext_valid hvalid]
  simp only [hstatus, hreason, reduceCtorEq, and_false, if_false, and_self]

theorem requestContext_eligible (hfits : message.DeadlineFits receivedAtNs)
    (hvalid : ¬ message.Invalid) (hok : message.processingStatus = .ok)
    (htmax : ¬ message.tmaxMs.toNat ≤ 1) :
    (requestContext message receivedAtNs).processingStatus = .ok ∧
      (requestContext message receivedAtNs).noBidReason = .none := by
  obtain ⟨hstatus, hreason⟩ := buildRequestContext_status hfits
  rw [if_neg htmax] at hstatus hreason
  rw [hok] at hstatus
  rw [requestContext_valid hvalid]
  simp only [hstatus, hreason, ne_eq, not_true_eq_false, false_and, if_false, and_self]

end

/-! ## The time of arrival -/

/-- Contexts of one request, received at different times. -/
def RequestContext.SameRequest (a b : RequestContext) : Prop :=
  a = { b with receivedAtNs := a.receivedAtNs, deadlineNs := a.deadlineNs }

theorem buildRequestContext_sameRequest {message : ParsedMessage} {t t' : UInt64}
    (hfits : message.DeadlineFits t) (hfits' : message.DeadlineFits t') :
    (buildRequestContext message t).SameRequest (buildRequestContext message t') := by
  have hiff := deadline_le_iff hfits
  have hiff' := deadline_le_iff hfits'
  unfold RequestContext.SameRequest buildRequestContext
  by_cases hle : message.tmaxMs.toNat ≤ 1
  · simp only [if_pos (hiff.mpr hle), if_pos (hiff'.mpr hle)]
  · simp only [if_neg fun h => hle (hiff.mp h), if_neg fun h => hle (hiff'.mp h)]

theorem RequestContext.SameRequest.validate {a b : RequestContext} (h : a.SameRequest b) :
    (validateRequestContext a).SameRequest (validateRequestContext b) := by
  unfold RequestContext.SameRequest at h
  rw [h]
  unfold validateRequestContext RequestContext.SameRequest
  simp only
  split
  · rfl
  · split
    · split <;> rfl
    · rfl

/-- The keys, the status and the reason do not depend on the time. -/
theorem requestContext_sameRequest {message : ParsedMessage} {t t' : UInt64}
    (hfits : message.DeadlineFits t) (hfits' : message.DeadlineFits t') :
    (requestContext message t).SameRequest (requestContext message t') :=
  (buildRequestContext_sameRequest hfits hfits').validate

/-- Contexts of one request get the same. -/
theorem RequestContext.SameRequest.resultFor {a b : RequestContext} (h : a.SameRequest b)
    (fl : Double → Double) (store : CampaignStoreSnapshot) (rng : WorkerRng) :
    (resultFor fl store a rng).status = (resultFor fl store b rng).status ∧
      (resultFor fl store a rng).decision = (resultFor fl store b rng).decision ∧
      (resultFor fl store a rng).response = (resultFor fl store b rng).response ∧
      (decideFor fl store a rng).2 = (decideFor fl store b rng).2 := by
  unfold RequestContext.SameRequest at h
  have hdecide : decideFor fl store a rng = decideFor fl store b rng := by
    rw [h]
    rfl
  unfold RtbEngine.resultFor
  rw [hdecide, h]
  exact ⟨rfl, rfl, rfl, rfl⟩

end RtbEngine
