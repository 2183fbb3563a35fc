import RtbEngine.Engine.Types

/-!
# Normalisation

`normalize.cc`: the keys a request and a campaign row are matched on, the
deadline, and the request context.
-/

namespace RtbEngine

open Lib

def toUpperAscii (character : UInt8) : UInt8 :=
  if 97 ≤ character ∧ character ≤ 122 then character - 32 else character

def normalizeCountryKey (country : Bytes) : CountryKey :=
  match country with
  | [c0, c1] =>
      let first := toUpperAscii c0
      let second := toUpperAscii c1
      { value := (first.toUInt16 <<< 8) ||| second.toUInt16 }
  | _ => {}

def isConnectedTv (deviceType : Bytes) : Bool :=
  deviceType = ascii "ctv" || deviceType = ascii "connected_tv"

def normalizeDeviceTypeKey (deviceType : Bytes) : DeviceTypeKey :=
  if deviceType = ascii "desktop" then .desktop
  else if deviceType = ascii "mobile" then .mobile
  else if deviceType = ascii "tablet" then .tablet
  else if isConnectedTv deviceType then .connectedTv
  else .unknown

/-- One round of the hash loop. -/
def hashStep (value : UInt32) (character : UInt8) : UInt32 :=
  (value ^^^ character.toUInt32) * 16777619

def normalizeAdSlotKey (adSlot : Bytes) : AdSlotKey :=
  { value := adSlot.foldl hashStep 2166136261 }

def computeDeadlineNs (receivedAtNs : UInt64) (tmaxMs : UInt32) : UInt64 :=
  let rawBudgetNs := tmaxMs.toUInt64 * kNsPerMs
  -- no budget left after the margin: the deadline has passed on arrival
  if rawBudgetNs ≤ kResponseSafetyMarginNs then receivedAtNs
  else receivedAtNs + (rawBudgetNs - kResponseSafetyMarginNs)

def buildRequestContext (parsedMessage : ParsedMessage) (receivedAtNs : UInt64) : RequestContext :=
  let context : RequestContext :=
    { requestId := parsedMessage.requestId
      countryKey := normalizeCountryKey parsedMessage.country
      deviceTypeKey := normalizeDeviceTypeKey parsedMessage.deviceType
      adSlotKey := normalizeAdSlotKey parsedMessage.adSlot
      auctionType := parsedMessage.auctionType
      receivedAtNs := receivedAtNs
      deadlineNs := computeDeadlineNs receivedAtNs parsedMessage.tmaxMs
      processingStatus := parsedMessage.processingStatus }
  if context.deadlineNs ≤ context.receivedAtNs then
    { context with processingStatus := .expired, noBidReason := .deadlineExceeded }
  else context

/-! ## The country key -/

theorem toUpperAscii_zero_iff (c : UInt8) : toUpperAscii c = 0 ↔ c = 0 := by
  unfold toUpperAscii
  split
  · rename_i h
    have h1 : 97 ≤ c.toNat := UInt8.le_iff_toNat_le.mp h.1
    have hsub : (c - 32).toNat = c.toNat - 32 :=
      UInt8.toNat_sub_of_le _ _ (UInt8.le_iff_toNat_le.mpr (by show 32 ≤ c.toNat; omega))
    rw [← UInt8.toNat_inj, ← UInt8.toNat_inj, hsub]
    show c.toNat - 32 = 0 ↔ c.toNat = 0
    omega
  · rfl

/-- The packed key determines both upper-case letters. -/
theorem packed_inj {a b c d : UInt8}
    (h : (a.toUInt16 <<< 8) ||| b.toUInt16 = (c.toUInt16 <<< 8) ||| d.toUInt16) :
    a = c ∧ b = d := by
  have pack (x y : UInt8) : ((x.toUInt16 <<< 8) ||| y.toUInt16).toNat = 2 ^ 8 * x.toNat + y.toNat := by
    have hx := x.toNat_lt
    have hshift : (x.toUInt16 <<< 8).toNat = 2 ^ 8 * x.toNat := by
      simp [UInt16.toNat_shiftLeft, Nat.shiftLeft_eq]
      omega
    rw [UInt16.toNat_or, hshift, UInt8.toNat_toUInt16]
    exact (Nat.two_pow_add_eq_or_of_lt y.toNat_lt _).symm
  have hnat := congrArg UInt16.toNat h
  rw [pack, pack] at hnat
  have hb := b.toNat_lt
  have hd := d.toNat_lt
  simp only [← UInt8.toNat_inj]
  omega

/-! ## The slot key -/

/-- The multiplier is odd, so a round loses nothing of the state. -/
theorem hashStep_inj {v w : UInt32} {character : UInt8}
    (h : hashStep v character = hashStep w character) : v = w := by
  have hinverse : (16777619 : UInt32) * 899433627 = 1 := by decide
  have hxor : v ^^^ character.toUInt32 = w ^^^ character.toUInt32 := by
    calc v ^^^ character.toUInt32
        = (v ^^^ character.toUInt32) * 16777619 * 899433627 := by
          rw [UInt32.mul_assoc, hinverse, UInt32.mul_one]
      _ = (w ^^^ character.toUInt32) * 16777619 * 899433627 := congrArg (· * 899433627) h
      _ = w ^^^ character.toUInt32 := by rw [UInt32.mul_assoc, hinverse, UInt32.mul_one]
  exact (UInt32.xor_left_inj _).mp hxor

/-- A round gives 0 only where the byte cancels the state. -/
theorem hashStep_eq_zero_iff (value : UInt32) (character : UInt8) :
    hashStep value character = 0 ↔ value = character.toUInt32 := by
  have hcancel : hashStep character.toUInt32 character = 0 := by
    unfold hashStep
    rw [UInt32.xor_self, UInt32.zero_mul]
  constructor
  · intro h
    exact hashStep_inj (h.trans hcancel.symm)
  · rintro rfl
    exact hcancel

/-- Which texts have the key 0: not the empty one. -/
theorem adSlotKey_eq_zero_iff (adSlot : Bytes) :
    (normalizeAdSlotKey adSlot).value = 0 ↔
      ∃ front last, adSlot = front ++ [last] ∧
        (normalizeAdSlotKey front).value = last.toUInt32 := by
  have snoc : ∀ (front : Bytes) (last : UInt8), (normalizeAdSlotKey (front ++ [last])).value =
      hashStep (normalizeAdSlotKey front).value last := by
    intro front last
    unfold normalizeAdSlotKey
    rw [List.foldl_append]
    rfl
  constructor
  · intro hzero
    rcases List.eq_nil_or_concat adSlot with rfl | ⟨front, last, rfl⟩
    · exact absurd hzero (by decide)
    · rw [List.concat_eq_append] at hzero ⊢
      rw [snoc, hashStep_eq_zero_iff] at hzero
      exact ⟨front, last, rfl, hzero⟩
  · rintro ⟨front, last, rfl, hlast⟩
    rw [snoc, hashStep_eq_zero_iff]
    exact hlast

end RtbEngine
