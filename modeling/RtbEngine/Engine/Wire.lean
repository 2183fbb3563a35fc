import RtbEngine.Lib.Varint
import RtbEngine.Engine.Request

/-!
# The wire format of the messages

What the generated code of `rtb.proto` does with a `BidRequest` and a
`BidResponse`, as an instance of `Protobuf`: fields with their default value
are left out, unknown fields are skipped. That strings are checked to be
UTF-8 is left out.

* `WireSizes` — what the engine relies on: how long an encoding is;
* `wireSizes_wireProtobuf` — the wire format has it.
-/

namespace RtbEngine

open Lib

/-! ## Encoding -/

def stringField (number : Nat) (value : Bytes) : Bytes :=
  if value.isEmpty then []
  else UInt8.ofNat (8 * number + 2) :: varint value.length ++ value

def statusField (number : Nat) : BidStatus → Bytes
  | .unspecified => []
  | .noBid => [UInt8.ofNat (8 * number), 1]
  | .bid => [UInt8.ofNat (8 * number), 2]

/-- The IEEE 754 bits of a normal `double`: sign, biased exponent, fraction. -/
def doubleBits (q : Double) : Nat :=
  if q = 0 then 0
  else
    let n := q.num.natAbs
    (if q < 0 then 2 ^ 63 else 0) + (n.log2 + 1023 - q.den.log2) * 2 ^ 52 +
      (n * 2 ^ (52 - n.log2) - 2 ^ 52)

/-- A double goes on the wire with its least significant byte first. -/
def doubleField (number : Nat) (value : Double) : Bytes :=
  if value = 0 then []
  else
    UInt8.ofNat (8 * number + 1) ::
      (List.range 8).map fun i => UInt8.ofNat (doubleBits value / 256 ^ i)

def encodeBidResponse (r : BidResponse) : Bytes :=
  stringField 1 r.requestId ++ statusField 2 r.status ++ stringField 3 r.campaignId ++
    stringField 4 r.creativeId ++ doubleField 5 r.price

/-! ## Decoding -/

/-- The value of one field; fixed-width values are skipped. -/
inductive WireValue where
  | varint (n : Nat)
  | bytes (value : Bytes)
  | fixed

def readFixed (width number : Nat) (bs : Bytes) : Option (Nat × WireValue × Bytes) :=
  if bs.length < width then none else some (number, .fixed, bs.drop width)

/-- One field: its number, its value and what follows it. -/
def readField (bs : Bytes) : Option (Nat × WireValue × Bytes) :=
  match readVarint bs with
  | none => none
  | some (tag, rest) =>
      -- field number 0 is no field
      if tag / 8 = 0 then none
      else
        match tag % 8 with
        | 0 =>
            match readVarint rest with
            | none => none
            | some (n, rest) => some (tag / 8, .varint n, rest)
        | 1 => readFixed 8 (tag / 8) rest
        | 2 =>
            match readVarint rest with
            | none => none
            | some (n, rest) =>
                if rest.length < n then none
                else some (tag / 8, .bytes (rest.take n), rest.drop n)
        -- wire types 3 and 4 are groups, which a proto3 message does not have
        | 5 => readFixed 4 (tag / 8) rest
        | _ => none

def protoAuctionType (n : Nat) : ProtoAuctionType :=
  match n % 2 ^ 32 with
  | 0 => .unspecified
  | 1 => .firstPrice
  | 2 => .secondPrice
  | m => .other (if m < 2 ^ 31 then m else (m : Int) - 2 ^ 32)

def BidRequest.setField (r : BidRequest) (number : Nat) (value : WireValue) : BidRequest :=
  match number, value with
  | 1, .bytes s => { r with requestId := s }
  | 2, .varint n => { r with tmaxMs := UInt32.ofNat n }
  | 3, .bytes s => { r with country := s }
  | 4, .bytes s => { r with deviceType := s }
  | 5, .bytes s => { r with adSlot := s }
  | 6, .varint n => { r with auctionType := protoAuctionType n }
  -- a field that is not known, or not of its declared type, is skipped
  | _, _ => r

/-- At most `k` fields. -/
def readFields : Nat → BidRequest → Bytes → Option BidRequest
  | _, r, [] => some r
  | 0, _, _ :: _ => none
  | k + 1, r, b :: bs =>
      match readField (b :: bs) with
      | none => none
      | some (number, value, rest) => readFields k (r.setField number value) rest

def decodeBidRequest (bs : Bytes) : Option BidRequest := readFields bs.length {} bs

def wireProtobuf : Protobuf where
  parseFromArray := decodeBidRequest
  byteSizeLong r := (encodeBidResponse r).length
  serializeToArray r size :=
    if (encodeBidResponse r).length ≤ size then some (encodeBidResponse r) else none
  length_serialize := by
    intro r size bytes h
    split at h
    · cases h
      rfl
    · cases h

/-! ## Sizes -/

/-- A tag, the length as a varint, and the bytes. -/
def stringFieldSize (value : Bytes) : Nat := 1 + (Nat.log 128 value.length + 1) + value.length

/-- How long encodings are: a parsed `request_id` is part of its payload; a
string field costs a tag, a varint and its bytes, a small enum two bytes, a
double nine; and what is serialized into its own size fits. -/
structure WireSizes (pb : Protobuf) : Prop where
  requestId_le : ∀ payload request, pb.parseFromArray payload = some request →
    request.requestId.length ≤ payload.length
  size_le : ∀ r, pb.byteSizeLong r ≤
    stringFieldSize r.requestId + 2 + stringFieldSize r.campaignId +
      stringFieldSize r.creativeId + 9
  size_pos : ∀ r, r.status ≠ .unspecified → 0 < pb.byteSizeLong r
  serialize : ∀ r, (pb.serializeToArray r (pb.byteSizeLong r)).isSome

theorem stringField_length_le (number : Nat) (value : Bytes) :
    (stringField number value).length ≤ stringFieldSize value := by
  unfold stringField stringFieldSize
  split
  · exact Nat.zero_le _
  · have h := varint_length_le value.length
    simp only [List.cons_append, List.length_cons, List.length_append]
    omega

theorem statusField_length (number : Nat) (status : BidStatus) :
    (statusField number status).length = if status = .unspecified then 0 else 2 := by
  cases status <;> rfl

theorem doubleField_length_le (number : Nat) (value : Double) :
    (doubleField number value).length ≤ 9 := by
  unfold doubleField
  split
  · exact Nat.zero_le _
  · simp

/-- The bytes of a field come from the input, in front of what is left. -/
theorem readField_length {bs rest : Bytes} {number : Nat} {value : WireValue}
    (h : readField bs = some (number, value, rest)) :
    rest.length ≤ bs.length ∧ ∀ s, value = .bytes s → s.length ≤ bs.length := by
  unfold readField at h
  cases ht : readVarint bs with
  | none => simp [ht] at h
  | some p =>
      obtain ⟨tag, rest1⟩ := p
      have h1 := (readVarint_suffix ht).length_le
      simp only [ht] at h
      split at h
      · cases h
      · split at h
        · cases hv : readVarint rest1 with
          | none => simp [hv] at h
          | some q =>
              have h2 := (readVarint_suffix hv).length_le
              simp only [hv] at h
              cases h
              exact ⟨by omega, nofun⟩
        · unfold readFixed at h
          split at h
          · cases h
          · cases h
            exact ⟨by rw [List.length_drop]; omega, nofun⟩
        · cases hv : readVarint rest1 with
          | none => simp [hv] at h
          | some q =>
              have h2 := (readVarint_suffix hv).length_le
              simp only [hv] at h
              split at h
              · cases h
              · cases h
                refine ⟨by rw [List.length_drop]; omega, ?_⟩
                rintro s hs
                cases hs
                rw [List.length_take]
                omega
        · unfold readFixed at h
          split at h
          · cases h
          · cases h
            exact ⟨by rw [List.length_drop]; omega, nofun⟩
        · cases h

theorem setField_requestId (r : BidRequest) (number : Nat) (value : WireValue) :
    (r.setField number value).requestId = r.requestId ∨
      value = .bytes (r.setField number value).requestId := by
  unfold BidRequest.setField
  split <;> first | exact .inl rfl | exact .inr rfl

theorem readFields_requestId {k bound : Nat} {r request : BidRequest} {bs : Bytes}
    (h : readFields k r bs = some request) (hr : r.requestId.length ≤ bound)
    (hbs : bs.length ≤ bound) : request.requestId.length ≤ bound := by
  induction k generalizing r bs with
  | zero =>
      cases bs with
      | nil => cases h; exact hr
      | cons b bs => cases h
  | succ k ih =>
      cases bs with
      | nil => cases h; exact hr
      | cons b bs =>
          unfold readFields at h
          cases hf : readField (b :: bs) with
          | none => simp [hf] at h
          | some p =>
              obtain ⟨number, value, rest⟩ := p
              obtain ⟨hrest, hvalue⟩ := readField_length hf
              simp only [hf] at h
              -- a later `request_id` replaces an earlier one; each is a part of the input
              refine ih h ?_ (by omega)
              rcases setField_requestId r number value with hid | hid
              · rw [hid]
                exact hr
              · exact Nat.le_trans (hvalue _ hid) hbs

theorem wireSizes_wireProtobuf : WireSizes wireProtobuf where
  requestId_le payload request h :=
    readFields_requestId h (Nat.zero_le _) (Nat.le_refl _)
  size_le r := by
    have h1 := stringField_length_le 1 r.requestId
    have h2 := statusField_length 2 r.status
    have h3 := stringField_length_le 3 r.campaignId
    have h4 := stringField_length_le 4 r.creativeId
    have h5 := doubleField_length_le 5 r.price
    show (encodeBidResponse r).length ≤ _
    simp only [encodeBidResponse, List.length_append]
    split at h2 <;> omega
  size_pos r h := by
    have h2 := statusField_length 2 r.status
    rw [if_neg h] at h2
    show 0 < (encodeBidResponse r).length
    simp only [encodeBidResponse, List.length_append]
    omega
  serialize r := by
    show (if _ then some _ else none).isSome
    rw [if_pos (show (encodeBidResponse r).length ≤ wireProtobuf.byteSizeLong r from Nat.le_refl _)]
    rfl

end RtbEngine
