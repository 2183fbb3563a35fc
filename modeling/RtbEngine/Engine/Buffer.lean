import RtbEngine.Engine.Types

/-!
# Reusable buffers

`ReusableBuffer` and its operations (`runtime_types.h`, `frame.cc`). Offsets
and sizes are natural numbers: they index memory that exists.
-/

namespace RtbEngine

open Lib

inductive FrameStatus where
  | needMoreData
  | frameReady
  | invalidLength
  deriving DecidableEq

structure FrameView where
  payload : Bytes := []
  payloadLength : UInt32 := 0
  totalFrameBytes : UInt32 := 0
  deriving DecidableEq

structure ReusableBuffer where
  storage : Bytes := []
  readOffset : Nat := 0
  writeOffset : Nat := 0
  deriving DecidableEq

namespace ReusableBuffer

def readableBytes (b : ReusableBuffer) : Nat := b.writeOffset - b.readOffset

def writableBytes (b : ReusableBuffer) : Nat := b.storage.length - b.writeOffset

def reserve (b : ReusableBuffer) (capacity : Nat) : ReusableBuffer :=
  if b.storage.length < capacity then
    { b with storage := b.storage ++ List.replicate (capacity - b.storage.length) 0 }
  else b

/-- The part of the storage that may still be written. -/
def writableRegion (b : ReusableBuffer) : Bytes :=
  if b.writeOffset > b.storage.length then [] else b.storage.drop b.writeOffset

/-- Store `bs` at the start of the writable region, as a `read` into it does. -/
def fillWritable (b : ReusableBuffer) (bs : Bytes) : ReusableBuffer :=
  { b with storage :=
      b.storage.take b.writeOffset ++ bs ++ b.storage.drop (b.writeOffset + bs.length) }

def commitWrite (b : ReusableBuffer) (bytesWritten : Nat) : ReusableBuffer :=
  { b with writeOffset := min (b.writeOffset + bytesWritten) b.storage.length }

/-- `ntohl` of the four bytes stored at `offset`. -/
def networkLength (b : ReusableBuffer) (offset : Nat) : UInt32 :=
  match b.storage.drop offset with
  | b0 :: b1 :: b2 :: b3 :: _ =>
      (b0.toUInt32 <<< 24) ||| (b1.toUInt32 <<< 16) ||| (b2.toUInt32 <<< 8) ||| b3.toUInt32
  | _ => 0

def tryExtractFrame (b : ReusableBuffer) (maxFrameSize : UInt32) : FrameStatus × FrameView :=
  let totalBytes := b.readableBytes
  if totalBytes < 4 then (.needMoreData, {})
  else
    let payloadLength := b.networkLength b.readOffset
    if payloadLength = 0 ∨ payloadLength > maxFrameSize then (.invalidLength, {})
    -- the length is judged as soon as its four bytes are there, before the payload is
    else if totalBytes < 4 + payloadLength.toNat then (.needMoreData, {})
    else
      (.frameReady,
        { payload := (b.storage.drop (b.readOffset + 4)).take payloadLength.toNat
          payloadLength := payloadLength
          totalFrameBytes := UInt32.ofNat (4 + payloadLength.toNat) })

def consumeFrame (b : ReusableBuffer) (totalFrameBytes : Nat) : ReusableBuffer :=
  let readOffset := min (b.readOffset + totalFrameBytes) b.writeOffset
  -- a drained buffer starts again at the front
  if readOffset = b.writeOffset then { b with readOffset := 0, writeOffset := 0 }
  else { b with readOffset := readOffset }

def compact (b : ReusableBuffer) : ReusableBuffer :=
  if b.readOffset = 0 then b
  else
    let unreadBytes := b.readableBytes
    let storage :=
      if unreadBytes > 0 then
        (b.storage.take b.writeOffset).drop b.readOffset ++ b.storage.drop unreadBytes
      else b.storage
    { storage := storage, readOffset := 0, writeOffset := unreadBytes }

/-! ## The readable bytes -/

/-- The bytes between the two offsets. -/
def readable (b : ReusableBuffer) : Bytes := (b.storage.take b.writeOffset).drop b.readOffset

/-- The offsets are in order and inside the storage. -/
structure Wf (b : ReusableBuffer) : Prop where
  ordered : b.readOffset ≤ b.writeOffset
  inside : b.writeOffset ≤ b.storage.length

theorem Wf.length_readable {b : ReusableBuffer} (h : b.Wf) :
    b.readable.length = b.readableBytes := by
  have h2 := h.inside
  simp only [readable, readableBytes, List.length_drop, List.length_take]
  omega

theorem wf_empty : ({} : ReusableBuffer).Wf := ⟨Nat.le_refl _, Nat.le_refl _⟩

@[simp] theorem readable_empty : ({} : ReusableBuffer).readable = [] := rfl

theorem Wf.reserve {b : ReusableBuffer} (h : b.Wf) (n : Nat) : (b.reserve n).Wf := by
  have h1 := h.ordered
  have h2 := h.inside
  unfold ReusableBuffer.reserve
  split
  · exact ⟨h1, by simp only [List.length_append, List.length_replicate]; omega⟩
  · exact h

theorem Wf.readable_reserve {b : ReusableBuffer} (h : b.Wf) (n : Nat) :
    (b.reserve n).readable = b.readable := by
  unfold ReusableBuffer.reserve
  split
  · simp only [readable]
    rw [List.take_append_of_le_length h.inside]
  · rfl

theorem length_reserve (b : ReusableBuffer) (n : Nat) :
    (b.reserve n).storage.length = max b.storage.length n := by
  unfold ReusableBuffer.reserve
  split
  · simp only [List.length_append, List.length_replicate]
    omega
  · omega

@[simp] theorem reserve_writeOffset (b : ReusableBuffer) (n : Nat) :
    (b.reserve n).writeOffset = b.writeOffset := by
  unfold ReusableBuffer.reserve
  split <;> rfl

theorem Wf.length_writableRegion {b : ReusableBuffer} (h : b.Wf) :
    b.writableRegion.length = b.writableBytes := by
  have h2 := h.inside
  unfold writableRegion writableBytes
  rw [if_neg (by omega), List.length_drop]

/-- What a `read` of at most the writable region leaves behind. -/
def append (b : ReusableBuffer) (bs : Bytes) : ReusableBuffer :=
  (b.fillWritable bs).commitWrite bs.length

theorem Wf.length_fillWritable {b : ReusableBuffer} (h : b.Wf) {bs : Bytes}
    (hfit : bs.length ≤ b.writableBytes) :
    (b.fillWritable bs).storage.length = b.storage.length := by
  have h2 := h.inside
  simp only [fillWritable, writableBytes, List.length_append, List.length_take,
    List.length_drop] at hfit ⊢
  omega

theorem Wf.append_writeOffset {b : ReusableBuffer} (h : b.Wf) {bs : Bytes}
    (hfit : bs.length ≤ b.writableBytes) :
    (b.append bs).writeOffset = b.writeOffset + bs.length := by
  have h2 := h.inside
  have hlen := h.length_fillWritable hfit
  have hw : (b.fillWritable bs).writeOffset = b.writeOffset := rfl
  simp only [append, commitWrite, hlen, hw]
  unfold writableBytes at hfit
  omega

theorem Wf.append {b : ReusableBuffer} (h : b.Wf) {bs : Bytes}
    (hfit : bs.length ≤ b.writableBytes) : (b.append bs).Wf := by
  have h1 := h.ordered
  have h2 := h.inside
  have hlen := h.length_fillWritable hfit
  have hoff := h.append_writeOffset hfit
  refine ⟨?_, ?_⟩
  · rw [hoff]
    exact Nat.le_trans h1 (Nat.le_add_right _ _)
  · rw [hoff]
    show _ ≤ (b.fillWritable bs).storage.length
    rw [hlen]
    unfold writableBytes at hfit
    omega

theorem Wf.length_append {b : ReusableBuffer} (h : b.Wf) {bs : Bytes}
    (hfit : bs.length ≤ b.writableBytes) :
    (b.append bs).storage.length = b.storage.length :=
  h.length_fillWritable hfit

/-- Bytes read from a socket go behind the readable ones. -/
theorem Wf.readable_append {b : ReusableBuffer} (h : b.Wf) {bs : Bytes}
    (hfit : bs.length ≤ b.writableBytes) :
    (b.append bs).readable = b.readable ++ bs := by
  have h1 := h.ordered
  have h2 := h.inside
  have hoff := h.append_writeOffset hfit
  have htake : (b.storage.take b.writeOffset).length = b.writeOffset := by
    rw [List.length_take]
    omega
  have hpre : ((b.storage.take b.writeOffset ++ bs) ++
      b.storage.drop (b.writeOffset + bs.length)).take (b.writeOffset + bs.length) =
        b.storage.take b.writeOffset ++ bs := by
    rw [List.take_append_of_le_length (by rw [List.length_append, htake]),
      List.take_of_length_le (by rw [List.length_append, htake])]
  unfold readable
  rw [hoff]
  show (((b.storage.take b.writeOffset ++ bs) ++ _).take _).drop b.readOffset = _
  rw [hpre, List.drop_append_of_le_length (by rw [htake]; exact h1)]

theorem Wf.consumeFrame {b : ReusableBuffer} (h : b.Wf) (n : Nat) : (b.consumeFrame n).Wf := by
  have h2 := h.inside
  unfold ReusableBuffer.consumeFrame
  simp only
  split
  · exact ⟨Nat.le_refl _, Nat.zero_le _⟩
  · exact ⟨Nat.min_le_right _ _, h2⟩

@[simp] theorem length_consumeFrame (b : ReusableBuffer) (n : Nat) :
    (b.consumeFrame n).storage.length = b.storage.length := by
  unfold consumeFrame
  simp only
  split <;> rfl

/-- Consuming drops bytes from the front, and all of them at most. -/
theorem Wf.readable_consumeFrame {b : ReusableBuffer} (h : b.Wf) (n : Nat) :
    (b.consumeFrame n).readable = b.readable.drop n := by
  have h1 := h.ordered
  have h2 := h.inside
  unfold ReusableBuffer.consumeFrame readable
  simp only
  rw [List.drop_drop]
  split
  · rename_i heq
    have hall : (b.storage.take b.writeOffset).drop (b.readOffset + n) = [] := by
      apply List.drop_eq_nil_of_le
      rw [List.length_take]
      omega
    rw [hall]
    rfl
  · rename_i hne
    have hmin : min (b.readOffset + n) b.writeOffset = b.readOffset + n := by omega
    simp only [hmin]

/-- Compaction moves the readable bytes to the front. -/
theorem Wf.compact_eq {b : ReusableBuffer} (h : b.Wf) (h0 : b.readOffset ≠ 0) :
    b.compact =
      { storage := b.readable ++ b.storage.drop b.readable.length
        readOffset := 0
        writeOffset := b.readable.length } := by
  have hlen := h.length_readable
  unfold ReusableBuffer.compact
  rw [if_neg h0, hlen]
  by_cases hpos : b.readableBytes > 0
  · simp only [if_pos hpos]
    rfl
  · have hnil : b.readable = [] := List.length_eq_zero_iff.mp (by omega)
    have hzero : b.readableBytes = 0 := by omega
    simp only [hnil, hzero]
    rfl

@[simp] theorem compact_readOffset (b : ReusableBuffer) : b.compact.readOffset = 0 := by
  unfold ReusableBuffer.compact
  split
  · assumption
  · rfl

theorem Wf.length_readable_le {b : ReusableBuffer} (h : b.Wf) :
    b.readable.length ≤ b.storage.length := by
  have h2 := h.inside
  rw [h.length_readable, readableBytes]
  omega

theorem Wf.length_compact {b : ReusableBuffer} (h : b.Wf) :
    b.compact.storage.length = b.storage.length := by
  by_cases h0 : b.readOffset = 0
  · simp [ReusableBuffer.compact, h0]
  · have hle := h.length_readable_le
    rw [h.compact_eq h0]
    simp only [List.length_append, List.length_drop]
    omega

theorem Wf.compact {b : ReusableBuffer} (h : b.Wf) : b.compact.Wf := by
  by_cases h0 : b.readOffset = 0
  · simpa [ReusableBuffer.compact, h0] using h
  · have hlen := h.length_compact
    rw [h.compact_eq h0] at hlen ⊢
    exact ⟨Nat.zero_le _, by simp only [hlen]; exact h.length_readable_le⟩

theorem Wf.readable_compact {b : ReusableBuffer} (h : b.Wf) : b.compact.readable = b.readable := by
  by_cases h0 : b.readOffset = 0
  · simp [ReusableBuffer.compact, h0]
  · rw [h.compact_eq h0, readable, List.drop_zero,
      List.take_append_of_le_length (Nat.le_refl _), List.take_length]

/-- After compaction every byte that is not readable is writable. -/
theorem Wf.writableBytes_compact {b : ReusableBuffer} (h : b.Wf) :
    b.compact.writableBytes = b.storage.length - b.readable.length := by
  rw [writableBytes, h.length_compact]
  by_cases h0 : b.readOffset = 0
  · rw [h.length_readable]
    simp [ReusableBuffer.compact, readableBytes, h0]
  · rw [h.compact_eq h0]

/-! ## Frames at the head -/

/-- `ntohl` on the bytes in memory order is the big-endian value. -/
theorem networkLength_toNat {b : ReusableBuffer} {o n : Nat}
    (h : Framing.readBe32 (b.storage.drop o) = some n) : (b.networkLength o).toNat = n := by
  unfold networkLength
  unfold Framing.readBe32 at h
  split at h
  · rename_i b0 b1 b2 b3 rest heq
    rw [heq]
    simp only [Option.some.injEq] at h
    subst h
    have h0 := b0.toNat_lt
    have h1 := b1.toNat_lt
    have h2 := b2.toNat_lt
    have h3 := b3.toNat_lt
    have or12 : 2 ^ 24 * b0.toNat ||| 2 ^ 16 * b1.toNat = 2 ^ 16 * (2 ^ 8 * b0.toNat + b1.toNat) := by
      rw [← Nat.two_pow_add_eq_or_of_lt (by omega)]
      omega
    have or3 : 2 ^ 16 * (2 ^ 8 * b0.toNat + b1.toNat) ||| 2 ^ 8 * b2.toNat =
        2 ^ 8 * (2 ^ 8 * (2 ^ 8 * b0.toNat + b1.toNat) + b2.toNat) := by
      rw [← Nat.two_pow_add_eq_or_of_lt (by omega)]
      omega
    have or4 := Nat.two_pow_add_eq_or_of_lt (i := 8) h3
      (2 ^ 8 * (2 ^ 8 * b0.toNat + b1.toNat) + b2.toNat)
    have e0 : (b0.toUInt32 <<< 24).toNat = 2 ^ 24 * b0.toNat := by
      simp [UInt32.toNat_shiftLeft, Nat.shiftLeft_eq]
      omega
    have e1 : (b1.toUInt32 <<< 16).toNat = 2 ^ 16 * b1.toNat := by
      simp [UInt32.toNat_shiftLeft, Nat.shiftLeft_eq]
      omega
    have e2 : (b2.toUInt32 <<< 8).toNat = 2 ^ 8 * b2.toNat := by
      simp [UInt32.toNat_shiftLeft, Nat.shiftLeft_eq]
      omega
    simp only [UInt32.toNat_or, e0, e1, e2, UInt8.toNat_toUInt32]
    rw [or12, or3, ← or4]
    omega
  · cases h

/-- The verdict on the readable bytes as a status. -/
def verdictStatus : Framing.Verdict → FrameStatus
  | .short => .needMoreData
  | .badLength => .invalidLength
  | .ready _ => .frameReady

theorem Wf.drop_readOffset {b : ReusableBuffer} (h : b.Wf) :
    ∃ rest, b.storage.drop b.readOffset = b.readable ++ rest := by
  refine ⟨b.storage.drop b.writeOffset, ?_⟩
  have hsplit : b.storage = b.storage.take b.writeOffset ++ b.storage.drop b.writeOffset :=
    (List.take_append_drop _ _).symm
  have h1 := h.ordered
  have h2 := h.inside
  conv_lhs => rw [hsplit]
  rw [List.drop_append_of_le_length (by rw [List.length_take]; omega)]
  rfl

/-- `try_extract_frame` judges the readable bytes and nothing else. -/
theorem Wf.tryExtractFrame_eq {b : ReusableBuffer} (h : b.Wf) (limit : UInt32) :
    b.tryExtractFrame limit =
      match Framing.headVerdict limit.toNat b.readable with
      | .short => (.needMoreData, {})
      | .badLength => (.invalidLength, {})
      | .ready p => (.frameReady,
          { payload := p
            payloadLength := UInt32.ofNat p.length
            totalFrameBytes := UInt32.ofNat (4 + p.length) }) := by
  obtain ⟨rest, hrest⟩ := h.drop_readOffset
  have hlen := h.length_readable
  unfold tryExtractFrame Framing.headVerdict
  simp only [← hlen]
  cases hread : Framing.readBe32 b.readable with
  | none =>
      rw [if_pos ((Framing.readBe32_eq_none_iff _).mp hread)]
  | some n =>
      have h4 : ¬ b.readable.length < 4 := fun h4 => by
        rw [(Framing.readBe32_eq_none_iff _).mpr h4] at hread
        cases hread
      have hn : (b.networkLength b.readOffset).toNat = n := by
        apply networkLength_toNat
        rw [hrest]
        exact Framing.readBe32_append hread rest
      have hzero : b.networkLength b.readOffset = 0 ↔ n = 0 := by
        rw [← hn, ← UInt32.toNat_inj]
        rfl
      have hbig : b.networkLength b.readOffset > limit ↔ limit.toNat < n := by
        rw [← hn]
        exact UInt32.lt_iff_toNat_lt
      rw [if_neg h4]
      simp only [hzero, hbig, hn]
      split
      · rfl
      · split
        · rfl
        · rename_i hfull
          have hp : ((b.readable.drop 4).take n).length = n := by
            rw [List.length_take, List.length_drop]
            omega
          have hpay : (b.storage.drop (b.readOffset + 4)).take n = (b.readable.drop 4).take n := by
            rw [← List.drop_drop, hrest, List.drop_append_of_le_length (by omega),
              List.take_append_of_le_length (by rw [List.length_drop]; omega)]
          have hofNat : b.networkLength b.readOffset = UInt32.ofNat n := by
            rw [← hn, UInt32.ofNat_toNat]
          simp only [hp, hpay, hofNat]

end ReusableBuffer

end RtbEngine
