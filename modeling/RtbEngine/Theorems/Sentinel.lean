import RtbEngine.Logic.Pipeline
import RtbEngine.Theorems.Retrieval

/-!
# The slot key 0

The loader and the request validation take the slot key 0 for "no slot". The
key is a hash: the empty slot has another one, and a few slots hash to 0.
-/

namespace RtbEngine

open Lib

/-- A row with nothing wrong outside its slot. -/
structure OtherwiseValidRow (extract : Bytes → Option (Double × Bytes))
    (f0 f1 f2 f4 f5 f6 f7 : Bytes) : Prop where
  campaignId : (parseU64 f0).isSome = true
  country : (normalizeCountryKey f1).value ≠ 0
  deviceType : normalizeDeviceTypeKey f2 ≠ .unknown
  valuePerAction : (parseDoubleValue extract f4).isSome = true
  aggressiveness : (parseDoubleValue extract f5).isSome = true
  active : (parseBoolValue f6).isSome = true
  creatives : ∃ ids, listedCreatives f7 = some ids ∧ 0 < UInt32.ofNat ids.length

/-- A request with nothing wrong outside its slot. -/
structure OtherwiseValidMessage (message : ParsedMessage) : Prop where
  country : (normalizeCountryKey message.country).value ≠ 0
  deviceType : normalizeDeviceTypeKey message.deviceType ≠ .unknown
  auctionType : message.auctionType ≠ .unspecified
  processingStatus : message.processingStatus = .ok

/-- For the slot `s`, "no slot" means the empty one: to the key, to the
loader and to the request validation. -/
structure SentinelMeansEmpty (s : Bytes) : Prop where
  key : (normalizeAdSlotKey s).value = 0 ↔ s = []
  row : ∀ extract f0 f1 f2 f4 f5 f6 f7 snapshot, OtherwiseValidRow extract f0 f1 f2 f4 f5 f6 f7 →
    ((appendCampaignLine extract [f0, f1, f2, s, f4, f5, f6, f7] snapshot).1 = false ↔ s = [])
  request : ∀ fl message receivedAtNs store rng clock, OtherwiseValidMessage message →
    message.adSlot = s →
    ((handleRequest fl message receivedAtNs store rng clock).result.status = .dropConnection ↔
      s = [])

/-- The loader rejects such a row exactly for the key 0. -/
theorem OtherwiseValidRow.rejected_iff {extract : Bytes → Option (Double × Bytes)}
    {f0 f1 f2 f4 f5 f6 f7 : Bytes} (h : OtherwiseValidRow extract f0 f1 f2 f4 f5 f6 f7) (s : Bytes)
    (snapshot : CampaignStoreSnapshot) :
    (appendCampaignLine extract [f0, f1, f2, s, f4, f5, f6, f7] snapshot).1 = false ↔
      (normalizeAdSlotKey s).value = 0 := by
  obtain ⟨campaignId, h0⟩ := Option.isSome_iff_exists.mp h.campaignId
  obtain ⟨valuePerAction, h4⟩ := Option.isSome_iff_exists.mp h.valuePerAction
  obtain ⟨aggressiveness, h5⟩ := Option.isSome_iff_exists.mp h.aggressiveness
  obtain ⟨active, h6⟩ := Option.isSome_iff_exists.mp h.active
  obtain ⟨ids, h7, hcount⟩ := h.creatives
  by_cases hzero : (normalizeAdSlotKey s).value = 0
  · refine iff_of_true ?_ hzero
    simp only [appendCampaignLine, h0, h4, h5, h6]
    rw [if_pos (.inr (.inr hzero))]
  · refine iff_of_false ?_ hzero
    have hne : ids ≠ [] := by
      rintro rfl
      exact absurd hcount (by decide)
    rw [appendCampaignLine_of_row
      (parseRow_of_fields h0 h4 h5 h6 h7 h.country h.deviceType hzero hne) hcount]
    exact fun h => Bool.noConfusion h

/-- A request is dropped exactly for the key 0. -/
theorem OtherwiseValidMessage.dropped_iff {message : ParsedMessage}
    (h : OtherwiseValidMessage message) (fl : Double → Double) (receivedAtNs : UInt64)
    (store : CampaignStoreSnapshot) (rng : WorkerRng) (clock : Clock) :
    (handleRequest fl message receivedAtNs store rng clock).result.status = .dropConnection ↔
      (normalizeAdSlotKey message.adSlot).value = 0 := by
  have hdrop := @statusOf_eq_drop_iff message receivedAtNs h.processingStatus
  rw [handleRequest_result]
  generalize requestContext message receivedAtNs = context at hdrop
  rw [resultFor]
  refine hdrop.trans ?_
  constructor
  · rintro (hcountry | hdevice | hslot | hauction)
    · exact absurd hcountry h.country
    · exact absurd hdevice h.deviceType
    · exact hslot
    · exact absurd hauction h.auctionType
  · exact fun hslot => .inr (.inr (.inl hslot))

/-- **The sentinel** means "empty" for the slots that are not empty and whose
last byte does not cancel the hash of the bytes before it. -/
theorem sentinel_means_empty_iff (s : Bytes) :
    SentinelMeansEmpty s ↔
      s ≠ [] ∧ ¬ ∃ front last, s = front ++ [last] ∧
        (normalizeAdSlotKey front).value = last.toUInt32 := by
  rw [← adSlotKey_eq_zero_iff]
  constructor
  · intro h
    have hne : s ≠ [] := by
      rintro rfl
      exact absurd (h.key.mpr rfl) (by decide)
    exact ⟨hne, fun hzero => hne (h.key.mp hzero)⟩
  · rintro ⟨hne, hzero⟩
    refine ⟨iff_of_false hzero hne, ?_, ?_⟩
    · intro extract f0 f1 f2 f4 f5 f6 f7 snapshot hrow
      rw [hrow.rejected_iff]
      exact iff_of_false hzero hne
    · intro fl message receivedAtNs store rng clock hmessage hslot
      rw [hmessage.dropped_iff, hslot]
      exact iff_of_false hzero hne

/-- A row without a slot is loaded; the slot "ppkttia" stops the load. -/
theorem sentinel_not_empty :
    ¬ SentinelMeansEmpty [] ∧ ¬ SentinelMeansEmpty (ascii "ppkttia") ∧
      (appendCampaignLine extractDecimal
        (["1", "US", "mobile", "", "1.0", "1.0", "1", "7"].map ascii) {}).1 = true ∧
      (appendCampaignLine extractDecimal
        (["1", "US", "mobile", "ppkttia", "1.0", "1.0", "1", "7"].map ascii) {}).1 = false := by
  have hkey : (normalizeAdSlotKey (ascii "ppkttia")).value = 0 := by decide
  refine ⟨fun h => ?_, fun h => ?_, ?_, by decide +kernel⟩
  · exact absurd (h.key.mpr rfl) (by decide)
  · exact absurd (h.key.mp hkey) (by decide)
  · have hrow : OtherwiseValidRow extractDecimal (ascii "1") (ascii "US") (ascii "mobile")
        (ascii "1.0") (ascii "1.0") (ascii "1") (ascii "7") :=
      ⟨by decide +kernel, by decide, by decide, by decide +kernel, by decide +kernel,
        by decide +kernel, [7], by decide +kernel, by decide⟩
    have hrejected := (hrow.rejected_iff (ascii "") {}).not.mpr (by decide)
    exact Bool.eq_true_of_not_eq_false hrejected

end RtbEngine
