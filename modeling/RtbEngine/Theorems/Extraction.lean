import RtbEngine.Engine.Buffer

/-!
# Extraction is exact and stable

What `try_extract_frame` answers, as a function of the readable bytes alone.
`tryExtractFrameChecked` is the same code over a buffer in which a read
outside the readable bytes faults.
-/

namespace RtbEngine

open Lib Framing

namespace ReusableBuffer

/-! ## The code with its reads checked -/

/-- Code that reads a buffer, and may fault. -/
abbrev Reading := StateT ReusableBuffer Option

/-- Read `n` bytes of the storage; it faults unless all are readable. -/
def readSpan (offset n : Nat) : Reading Bytes := fun b =>
  if b.readOffset ≤ offset ∧ offset + n ≤ b.writeOffset then
    some ((b.storage.drop offset).take n, b)
  else none

/-- `try_extract_frame`, with `read_offset` and `write_offset` as they are. -/
def tryExtractFrameChecked (maxFrameSize : UInt32) : Reading (FrameStatus × FrameView) := do
  let b ← get
  let totalBytes := b.readableBytes
  if totalBytes < 4 then return (.needMoreData, {})
  else
    let networkPayloadLength ← readSpan b.readOffset 4
    let payloadLength := networkLength { storage := networkPayloadLength } 0
    if payloadLength = 0 ∨ payloadLength > maxFrameSize then return (.invalidLength, {})
    else if totalBytes < 4 + payloadLength.toNat then return (.needMoreData, {})
    else
      let payload ← readSpan (b.readOffset + 4) payloadLength.toNat
      return (.frameReady,
        { payload := payload
          payloadLength := payloadLength
          totalFrameBytes := UInt32.ofNat (4 + payloadLength.toNat) })

theorem readSpan_run {b : ReusableBuffer} {offset n : Nat} (hlow : b.readOffset ≤ offset)
    (hhigh : offset + n ≤ b.writeOffset) :
    (readSpan offset n).run b = some ((b.storage.drop offset).take n, b) :=
  if_pos ⟨hlow, hhigh⟩

/-- The length is in the four bytes that are copied. -/
theorem networkLength_take (b : ReusableBuffer) (offset : Nat) :
    networkLength { storage := (b.storage.drop offset).take 4 } 0 = b.networkLength offset := by
  unfold networkLength
  rw [List.drop_zero]
  match b.storage.drop offset with
  | _ :: _ :: _ :: _ :: _ => rfl
  | [] | [_] | [_, _] | [_, _, _] => rfl

/-- No read faults, the answer is that of `try_extract_frame`, and the buffer
is as it was. -/
theorem Wf.tryExtractFrameChecked_run {b : ReusableBuffer} (h : b.Wf) (maxFrameSize : UInt32) :
    (tryExtractFrameChecked maxFrameSize).run b = some (b.tryExtractFrame maxFrameSize, b) := by
  have hordered := h.ordered
  unfold tryExtractFrameChecked tryExtractFrame
  simp only [StateT.run_bind, StateT.run_get, Option.bind_eq_bind, Option.pure_def,
    Option.bind_some]
  by_cases h4 : b.readableBytes < 4
  · simp only [if_pos h4]
    rfl
  · have hlength := @readSpan_run b b.readOffset 4 (Nat.le_refl _)
      (by unfold readableBytes at h4; omega)
    simp only [if_neg h4, StateT.run_bind, hlength, Option.bind_eq_bind, Option.bind_some,
      networkLength_take]
    by_cases hbad : b.networkLength b.readOffset = 0 ∨ b.networkLength b.readOffset > maxFrameSize
    · simp only [if_pos hbad]
      rfl
    · by_cases hmore : b.readableBytes < 4 + (b.networkLength b.readOffset).toNat
      · simp only [if_neg hbad, if_pos hmore]
        rfl
      · have hpayload := @readSpan_run b (b.readOffset + 4) (b.networkLength b.readOffset).toNat
          (Nat.le_add_right _ _) (by unfold readableBytes at hmore; omega)
        simp only [if_neg hbad, if_neg hmore, StateT.run_bind, hpayload, Option.bind_eq_bind,
          Option.bind_some]
        rfl

/-! ## The three answers -/

theorem Wf.frameReady_iff {b : ReusableBuffer} (h : b.Wf) (maxFrameSize : UInt32) :
    (b.tryExtractFrame maxFrameSize).1 = .frameReady ↔
      ∃ p rest, b.readable = be32 p.length ++ p ++ rest ∧ 1 ≤ p.length ∧
        p.length ≤ maxFrameSize.toNat := by
  have hlimit := maxFrameSize.toNat_lt
  rw [h.tryExtractFrame_eq]
  constructor
  · intro hready
    cases hv : headVerdict maxFrameSize.toNat b.readable with
    | short => simp [hv] at hready
    | badLength => simp [hv] at hready
    | ready p =>
        obtain ⟨rest, hrest, hpos, hmax, -⟩ := (headVerdict_ready_iff _ _ _).mp hv
        exact ⟨p, rest, hrest, hpos, hmax⟩
  · rintro ⟨p, rest, hrest, hpos, hmax⟩
    have hv := (headVerdict_ready_iff maxFrameSize.toNat b.readable p).mpr
      ⟨rest, hrest, hpos, hmax, by omega⟩
    rw [hv]

/-- The payload and the total length of a ready frame. -/
theorem Wf.frameReady_view {b : ReusableBuffer} (h : b.Wf) {maxFrameSize : UInt32}
    {p rest : Bytes} (hrest : b.readable = be32 p.length ++ p ++ rest) (hpos : 1 ≤ p.length)
    (hmax : p.length ≤ maxFrameSize.toNat) :
    b.tryExtractFrame maxFrameSize = (.frameReady,
      { payload := p
        payloadLength := UInt32.ofNat p.length
        totalFrameBytes := UInt32.ofNat (4 + p.length) }) := by
  have hlimit := maxFrameSize.toNat_lt
  have hv := (headVerdict_ready_iff maxFrameSize.toNat b.readable p).mpr
    ⟨rest, hrest, hpos, hmax, by omega⟩
  rw [h.tryExtractFrame_eq, hv]

theorem Wf.invalidLength_iff {b : ReusableBuffer} (h : b.Wf) (maxFrameSize : UInt32) :
    (b.tryExtractFrame maxFrameSize).1 = .invalidLength ↔
      ∃ n, readBe32 b.readable = some n ∧ (n = 0 ∨ maxFrameSize.toNat < n) := by
  rw [← headVerdict_badLength_iff, h.tryExtractFrame_eq]
  cases headVerdict maxFrameSize.toNat b.readable <;> simp

theorem Wf.needMoreData_iff {b : ReusableBuffer} (h : b.Wf) (maxFrameSize : UInt32) :
    (b.tryExtractFrame maxFrameSize).1 = .needMoreData ↔
      b.readable.length < 4 ∨
        ∃ n, readBe32 b.readable = some n ∧ 1 ≤ n ∧ n ≤ maxFrameSize.toNat ∧
          b.readable.length < 4 + n := by
  rw [← headVerdict_short_iff, h.tryExtractFrame_eq]
  cases headVerdict maxFrameSize.toNat b.readable <;> simp

end ReusableBuffer

/-- **Extraction is exact**: the three answers by the readable bytes, the
payload and the length of a ready frame; every proper prefix of an admissible
frame needs more; no read leaves the readable bytes and the buffer is as it
was; and an answer other than "more" stays the same whatever follows, in any
buffer with these readable bytes in front. -/
theorem try_extract_frame_exact (b : ReusableBuffer) (h : b.Wf) (maxFrameSize : UInt32)
    (hmax : maxFrameSize.toNat < 2 ^ 32 - 4) :
    ((b.tryExtractFrame maxFrameSize).1 = .frameReady ↔
      ∃ p rest, b.readable = be32 p.length ++ p ++ rest ∧ 1 ≤ p.length ∧
        p.length ≤ maxFrameSize.toNat) ∧
    (∀ p rest, b.readable = be32 p.length ++ p ++ rest → 1 ≤ p.length →
      p.length ≤ maxFrameSize.toNat →
        (b.tryExtractFrame maxFrameSize).2.payload = p ∧
        (b.tryExtractFrame maxFrameSize).2.payloadLength.toNat = p.length ∧
        (b.tryExtractFrame maxFrameSize).2.totalFrameBytes.toNat = 4 + p.length ∧
        4 + p.length ≤ b.readable.length) ∧
    ((b.tryExtractFrame maxFrameSize).1 = .invalidLength ↔
      ∃ n, readBe32 b.readable = some n ∧ (n = 0 ∨ maxFrameSize.toNat < n)) ∧
    ((b.tryExtractFrame maxFrameSize).1 = .needMoreData ↔
      b.readable.length < 4 ∨
        ∃ n, readBe32 b.readable = some n ∧ 1 ≤ n ∧ n ≤ maxFrameSize.toNat ∧
          b.readable.length < 4 + n) ∧
    (∀ p, 1 ≤ p.length → p.length ≤ maxFrameSize.toNat → b.readable <+: be32 p.length ++ p →
      b.readable ≠ be32 p.length ++ p → (b.tryExtractFrame maxFrameSize).1 = .needMoreData) ∧
    (ReusableBuffer.tryExtractFrameChecked maxFrameSize).run b =
      some (b.tryExtractFrame maxFrameSize, b) ∧
    (∀ b' : ReusableBuffer, b'.Wf → ∀ more, b'.readable = b.readable ++ more →
      (b.tryExtractFrame maxFrameSize).1 ≠ .needMoreData →
        b'.tryExtractFrame maxFrameSize = b.tryExtractFrame maxFrameSize) := by
  refine ⟨h.frameReady_iff _, ?_, h.invalidLength_iff _, h.needMoreData_iff _, ?_,
    h.tryExtractFrameChecked_run _, ?_⟩
  · intro p rest hrest hpos hle
    have hlen := congrArg List.length hrest
    simp only [List.length_append, be32_length] at hlen
    rw [h.frameReady_view hrest hpos hle]
    refine ⟨rfl, ?_, ?_, by omega⟩
    · exact UInt32.toNat_ofNat_of_lt (show _ < 2 ^ 32 by omega)
    · exact UInt32.toNat_ofNat_of_lt (show _ < 2 ^ 32 by omega)
  · intro p hpos hle hpre hne
    -- a proper prefix is shorter than the frame
    have hshort : b.readable.length < 4 + p.length := by
      have hlt : b.readable.length < (be32 p.length ++ p).length :=
        lt_of_le_of_ne hpre.length_le fun heq => hne (hpre.eq_of_length heq)
      rwa [List.length_append, be32_length] at hlt
    have hv := headVerdict_of_incomplete hpre hshort hpos hle (by omega)
    rw [h.tryExtractFrame_eq, hv]
  · intro b' h' more hmore hdecided
    have hv : headVerdict maxFrameSize.toNat b.readable ≠ .short := by
      intro hv
      rw [h.tryExtractFrame_eq, hv] at hdecided
      exact hdecided rfl
    rw [h.tryExtractFrame_eq, h'.tryExtractFrame_eq, hmore, headVerdict_append hv]

/-- A complete frame and the start of another, read at an offset. -/
theorem try_extract_frame_exact_sample :
    ({ storage := [9, 0, 0, 0, 2, 7, 8, 0, 5], readOffset := 1, writeOffset := 8 } :
        ReusableBuffer).Wf ∧ ((65536 : UInt32).toNat < 2 ^ 32 - 4) ∧
      (({ storage := [9, 0, 0, 0, 2, 7, 8, 0, 5], readOffset := 1, writeOffset := 8 } :
        ReusableBuffer).tryExtractFrame 65536).1 = .frameReady := by
  have hwf : ({ storage := [9, 0, 0, 0, 2, 7, 8, 0, 5], readOffset := 1, writeOffset := 8 } :
      ReusableBuffer).Wf := ⟨by decide, by decide⟩
  exact ⟨hwf, by decide, (try_extract_frame_exact _ hwf 65536 (by decide)).1.mpr
    ⟨[7, 8], [0], by decide, by decide, by decide⟩⟩

end RtbEngine
