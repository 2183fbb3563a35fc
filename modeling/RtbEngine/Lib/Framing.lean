import Mathlib.Algebra.Group.Nat.Defs
import Mathlib.Data.List.Basic

/-!
# Length-prefixed framing of a byte stream

A frame is a four-byte big-endian length followed by that many payload bytes.
`takeFrame` splits one complete frame off a stream, `decode` splits off as
many as there are, and `headVerdict` is what a receiver with a size limit can
say about the head of what it has got so far.

* `decode_frames_append` — decoding undoes framing, whatever follows;
* `headVerdict_ready_iff` — a ready payload is exactly a framed one at the head;
* `headVerdict_of_incomplete` — a frame that is still incomplete is `short`;
* `headVerdict_append` — a verdict is final.
-/

namespace RtbEngine.Lib

abbrev Bytes := List UInt8

namespace Framing

/-- The low 32 bits of `n`, most significant byte first. -/
def be32 (n : Nat) : Bytes :=
  [UInt8.ofNat (n / 2 ^ 24), UInt8.ofNat (n / 2 ^ 16), UInt8.ofNat (n / 2 ^ 8), UInt8.ofNat n]

/-- The value of the first four bytes, most significant byte first. -/
def readBe32 : Bytes → Option Nat
  | b0 :: b1 :: b2 :: b3 :: _ =>
      some (b0.toNat * 2 ^ 24 + b1.toNat * 2 ^ 16 + b2.toNat * 2 ^ 8 + b3.toNat)
  | _ => none

def frame (p : Bytes) : Bytes := be32 p.length ++ p

def frames (ps : List Bytes) : Bytes := ps.flatMap frame

@[simp] theorem be32_length (n : Nat) : (be32 n).length = 4 := rfl

@[simp] theorem frame_length (p : Bytes) : (frame p).length = 4 + p.length := by
  simp [frame]

@[simp] theorem frames_nil : frames [] = [] := rfl

theorem frames_append (ps qs : List Bytes) : frames (ps ++ qs) = frames ps ++ frames qs := by
  simp [frames]

theorem frames_snoc (ps : List Bytes) (p : Bytes) : frames (ps ++ [p]) = frames ps ++ frame p := by
  simp [frames]

theorem readBe32_be32 {n : Nat} (h : n < 2 ^ 32) (rest : Bytes) :
    readBe32 (be32 n ++ rest) = some n := by
  simp only [be32, readBe32, List.cons_append, List.nil_append, UInt8.toNat_ofNat', Option.some.injEq]
  omega

theorem readBe32_lt {bs : Bytes} {n : Nat} (h : readBe32 bs = some n) : n < 2 ^ 32 := by
  unfold readBe32 at h
  split at h
  · rename_i b0 b1 b2 b3 _
    have h0 := b0.toNat_lt
    have h1 := b1.toNat_lt
    have h2 := b2.toNat_lt
    have h3 := b3.toNat_lt
    simp only [Option.some.injEq] at h
    omega
  · cases h

theorem readBe32_eq_none_iff (bs : Bytes) : readBe32 bs = none ↔ bs.length < 4 := by
  unfold readBe32
  split
  · simp
  · rename_i hshape
    refine ⟨fun _ => ?_, fun _ => rfl⟩
    by_contra hlen
    match bs with
    | b0 :: b1 :: b2 :: b3 :: rest => exact hshape b0 b1 b2 b3 rest rfl
    | [] | [_] | [_, _] | [_, _, _] => simp at hlen

theorem readBe32_append {bs : Bytes} {n : Nat} (h : readBe32 bs = some n) (more : Bytes) :
    readBe32 (bs ++ more) = some n := by
  match bs with
  | _ :: _ :: _ :: _ :: _ => exact h
  | [] | [_] | [_, _] | [_, _, _] => cases h

/-- The prefix that was read is the one that would be written. -/
theorem be32_of_readBe32 {bs : Bytes} {n : Nat} (h : readBe32 bs = some n) :
    bs = be32 n ++ bs.drop 4 := by
  match bs with
  | b0 :: b1 :: b2 :: b3 :: rest =>
      simp only [readBe32, Option.some.injEq] at h
      have h0 := b0.toNat_lt
      have h1 := b1.toNat_lt
      have h2 := b2.toNat_lt
      have h3 := b3.toNat_lt
      simp only [be32, List.cons_append, List.nil_append, List.drop_succ_cons, List.drop_zero,
        List.cons.injEq, and_true, ← UInt8.toNat_inj, UInt8.toNat_ofNat']
      omega
  | [] | [_] | [_, _] | [_, _, _] => cases h

/-! ## One frame at the head -/

/-- Split one complete frame off the stream. -/
def takeFrame (bs : Bytes) : Option (Bytes × Bytes) :=
  match readBe32 bs with
  | none => none
  | some n => if bs.length < 4 + n then none else some ((bs.drop 4).take n, bs.drop (4 + n))

theorem takeFrame_frame {p : Bytes} (h : p.length < 2 ^ 32) (rest : Bytes) :
    takeFrame (frame p ++ rest) = some (p, rest) := by
  have hread : readBe32 (frame p ++ rest) = some p.length := by
    rw [frame, List.append_assoc]
    exact readBe32_be32 h _
  have hdrop : (frame p ++ rest).drop 4 = p ++ rest := by simp [frame, be32]
  have hdrop2 : (frame p ++ rest).drop (4 + p.length) = rest := by
    rw [← List.drop_drop, hdrop]
    simp
  unfold takeFrame
  rw [hread]
  simp [hdrop, hdrop2]

theorem takeFrame_of_length_lt {bs : Bytes} (h : bs.length < 4) : takeFrame bs = none := by
  unfold takeFrame
  rw [(readBe32_eq_none_iff bs).mpr h]

/-- Less than the header, or less than the payload behind it, is no frame. -/
theorem takeFrame_incomplete {n : Nat} (hn : n < 2 ^ 32) {part : Bytes} (h : part.length < n) :
    takeFrame (be32 n ++ part) = none := by
  unfold takeFrame
  rw [readBe32_be32 hn]
  simp only [List.length_append, be32_length]
  rw [if_pos (by omega)]

theorem takeFrame_eq_some {bs p rest : Bytes} (h : takeFrame bs = some (p, rest)) :
    bs = frame p ++ rest ∧ p.length < 2 ^ 32 := by
  unfold takeFrame at h
  cases hread : readBe32 bs with
  | none => simp [hread] at h
  | some n =>
      simp only [hread] at h
      split at h
      · cases h
      · rename_i hlen
        simp only [Option.some.injEq, Prod.mk.injEq] at h
        obtain ⟨rfl, rfl⟩ := h
        have hn : ((bs.drop 4).take n).length = n := by
          rw [List.length_take, List.length_drop]
          omega
        refine ⟨?_, by rw [hn]; exact readBe32_lt hread⟩
        -- the prefix is canonical, so what was read is what framing writes
        calc bs = be32 n ++ bs.drop 4 := be32_of_readBe32 hread
          _ = be32 n ++ ((bs.drop 4).take n ++ (bs.drop 4).drop n) := by
              rw [List.take_append_drop]
          _ = frame ((bs.drop 4).take n) ++ bs.drop (4 + n) := by
              rw [frame, hn, List.drop_drop, List.append_assoc]

theorem takeFrame_shrinks {bs p rest : Bytes} (h : takeFrame bs = some (p, rest)) :
    rest.length < bs.length := by
  have hlen := congrArg List.length (takeFrame_eq_some h).1
  simp only [List.length_append, frame_length] at hlen
  omega

/-- Split off at most `n` complete frames. -/
def decodeN : Nat → Bytes → List Bytes
  | 0, _ => []
  | n + 1, bs =>
      match takeFrame bs with
      | none => []
      | some (p, rest) => p :: decodeN n rest

/-- Split off complete frames until none is left. -/
def decode (bs : Bytes) : List Bytes := decodeN bs.length bs

theorem decodeN_stable : ∀ (n m : Nat) (bs : Bytes), bs.length ≤ n → bs.length ≤ m →
    decodeN n bs = decodeN m bs := by
  intro n
  induction n with
  | zero =>
      intro m bs hn _
      have hnil : bs = [] := List.length_eq_zero_iff.mp (Nat.le_zero.mp hn)
      subst hnil
      cases m <;> rfl
  | succ n ih =>
      intro m bs hn hm
      cases m with
      | zero =>
          have hnil : bs = [] := List.length_eq_zero_iff.mp (Nat.le_zero.mp hm)
          subst hnil
          rfl
      | succ m =>
          simp only [decodeN]
          cases ht : takeFrame bs with
          | none => rfl
          | some q =>
              have hlt : q.2.length < bs.length := takeFrame_shrinks ht
              simp only [ih m q.2 (by omega) (by omega)]

theorem decode_of_none {bs : Bytes} (h : takeFrame bs = none) : decode bs = [] := by
  unfold decode
  cases bs with
  | nil => rfl
  | cons b bs => simp only [List.length_cons, decodeN, h]

theorem decode_of_some {bs p rest : Bytes} (h : takeFrame bs = some (p, rest)) :
    decode bs = p :: decode rest := by
  have hlt := takeFrame_shrinks h
  -- the length of the input is fuel enough, and more makes no difference
  obtain ⟨n, hn⟩ : ∃ n, bs.length = n + 1 := ⟨bs.length - 1, by omega⟩
  unfold decode
  rw [hn]
  simp only [decodeN, h]
  rw [decodeN_stable n rest.length rest (by omega) (Nat.le_refl _)]

/-- Decoding undoes framing, whatever follows the frames. -/
theorem decode_frames_append {ps : List Bytes} (hps : ∀ p ∈ ps, p.length < 2 ^ 32)
    (rest : Bytes) : decode (frames ps ++ rest) = ps ++ decode rest := by
  induction ps with
  | nil => rfl
  | cons p ps ih =>
      have hp := hps p List.mem_cons_self
      have htail := ih fun q hq => hps q (List.mem_cons_of_mem _ hq)
      have hhead : takeFrame (frames (p :: ps) ++ rest) = some (p, frames ps ++ rest) := by
        rw [show frames (p :: ps) = frame p ++ frames ps from rfl, List.append_assoc]
        exact takeFrame_frame hp _
      rw [decode_of_some hhead, htail, List.cons_append]

theorem decode_frames {ps : List Bytes} (h : ∀ p ∈ ps, p.length < 2 ^ 32) :
    decode (frames ps) = ps := by
  have hdecode := decode_frames_append h []
  rwa [List.append_nil, @decode_of_none [] rfl, List.append_nil] at hdecode

/-- Framed lists are as the lists. -/
theorem prefix_of_frames_prefix {ps qs : List Bytes} (hps : ∀ p ∈ ps, p.length < 2 ^ 32)
    (hqs : ∀ q ∈ qs, q.length < 2 ^ 32) (h : frames ps <+: frames qs) : ps <+: qs := by
  obtain ⟨rest, hrest⟩ := h
  refine ⟨decode rest, ?_⟩
  rw [← decode_frames_append hps, hrest, decode_frames hqs]

/-! ## The receiver's verdict on the head -/

/-- What can be said of the head of a partly received stream. -/
inductive Verdict where
  | short
  | badLength
  | ready (payload : Bytes)

/-- Empty payloads and payloads above `limit` are refused. -/
def headVerdict (limit : Nat) (bs : Bytes) : Verdict :=
  match readBe32 bs with
  | none => .short
  | some n =>
      if n = 0 ∨ limit < n then .badLength
      else if bs.length < 4 + n then .short
      else .ready ((bs.drop 4).take n)

/-- A ready payload is exactly an admissible frame at the head. -/
theorem headVerdict_ready_iff (limit : Nat) (bs p : Bytes) :
    headVerdict limit bs = .ready p ↔
      ∃ rest, bs = frame p ++ rest ∧ 1 ≤ p.length ∧ p.length ≤ limit ∧ p.length < 2 ^ 32 := by
  constructor
  · intro h
    unfold headVerdict at h
    cases hread : readBe32 bs with
    | none => simp [hread] at h
    | some n =>
        simp only [hread] at h
        split at h
        · cases h
        · rename_i hn
          split at h
          · cases h
          · rename_i hlen
            have htake : takeFrame bs = some ((bs.drop 4).take n, bs.drop (4 + n)) := by
              unfold takeFrame
              rw [hread]
              simp [hlen]
            cases h
            obtain ⟨hbs, hlt⟩ := takeFrame_eq_some htake
            have hlenp : ((bs.drop 4).take n).length = n := by
              rw [List.length_take, List.length_drop]
              omega
            exact ⟨_, hbs, by omega, by omega, hlt⟩
  · rintro ⟨rest, rfl, hpos, hlim, hlt⟩
    have hread : readBe32 (frame p ++ rest) = some p.length := by
      rw [frame, List.append_assoc]
      exact readBe32_be32 hlt _
    have hdrop : ((frame p ++ rest).drop 4).take p.length = p := by simp [frame, be32]
    unfold headVerdict
    rw [hread]
    simp only [hdrop, List.length_append, frame_length]
    rw [if_neg (by omega), if_neg (by omega)]

/-- The length is refused as soon as it is there. -/
theorem headVerdict_badLength_iff (limit : Nat) (bs : Bytes) :
    headVerdict limit bs = .badLength ↔ ∃ n, readBe32 bs = some n ∧ (n = 0 ∨ limit < n) := by
  unfold headVerdict
  cases hread : readBe32 bs with
  | none => simp
  | some n =>
      simp only [Option.some.injEq, exists_eq_left']
      split
      · simp [*]
      · split <;> simp [*]

/-- More is needed for the length, or for the payload of an admissible one. -/
theorem headVerdict_short_iff (limit : Nat) (bs : Bytes) :
    headVerdict limit bs = .short ↔
      bs.length < 4 ∨ ∃ n, readBe32 bs = some n ∧ 1 ≤ n ∧ n ≤ limit ∧ bs.length < 4 + n := by
  unfold headVerdict
  cases hread : readBe32 bs with
  | none => simp [(readBe32_eq_none_iff bs).mp hread]
  | some n =>
      have h4 : ¬ bs.length < 4 := by
        intro h4
        rw [(readBe32_eq_none_iff bs).mpr h4] at hread
        cases hread
      simp only [Option.some.injEq, exists_eq_left', h4, false_or]
      split
      · -- the length is not admissible
        rename_i hn
        exact iff_of_false nofun (by omega)
      · split
        · rename_i hn hlen
          exact iff_of_true rfl (by omega)
        · rename_i hn hlen
          exact iff_of_false nofun (by omega)

/-- A verdict does not depend on what is received after it. -/
theorem headVerdict_append {limit : Nat} {bs : Bytes} (h : headVerdict limit bs ≠ .short)
    (more : Bytes) : headVerdict limit (bs ++ more) = headVerdict limit bs := by
  cases hv : headVerdict limit bs with
  | short => exact absurd hv h
  | badLength =>
      obtain ⟨n, hread, hn⟩ := (headVerdict_badLength_iff limit bs).mp hv
      exact (headVerdict_badLength_iff limit _).mpr ⟨n, readBe32_append hread more, hn⟩
  | ready p =>
      obtain ⟨rest, rfl, hp⟩ := (headVerdict_ready_iff limit bs p).mp hv
      refine (headVerdict_ready_iff limit _ p).mpr ⟨rest ++ more, ?_, hp⟩
      rw [List.append_assoc]

/-- As long as an admissible frame at the head is incomplete, more is needed. -/
theorem headVerdict_of_incomplete {limit : Nat} {bs p : Bytes} (hpre : bs <+: frame p)
    (hlen : bs.length < 4 + p.length) (hpos : 1 ≤ p.length) (hlim : p.length ≤ limit)
    (hlt : p.length < 2 ^ 32) : headVerdict limit bs = .short := by
  unfold headVerdict
  cases hread : readBe32 bs with
  | none => rfl
  | some n =>
      obtain ⟨more, hmore⟩ := hpre
      -- the prefix, once complete, is that of the whole frame
      have hn : n = p.length := by
        have h1 := readBe32_append hread more
        rw [hmore, frame, readBe32_be32 hlt] at h1
        exact (Option.some.inj h1).symm
      subst hn
      simp only
      rw [if_neg (by omega), if_pos hlen]

/-- Nothing in a stream of which more is needed can be decoded. -/
theorem decode_of_short {limit : Nat} {bs : Bytes} (h : headVerdict limit bs = .short) :
    decode bs = [] := by
  have hnone : takeFrame bs = none := by
    unfold headVerdict at h
    unfold takeFrame
    cases hread : readBe32 bs with
    | none => rfl
    | some n =>
        simp only [hread] at h ⊢
        split at h
        · cases h
        · split at h
          · rename_i hlen
            rw [if_pos hlen]
          · cases h
  exact decode_of_none hnone

/-- A frame is no beginning of one. -/
theorem headVerdict_frame {limit : Nat} {p : Bytes} (hp : p.length < 2 ^ 32) :
    headVerdict limit (frame p) ≠ .short := by
  intro hshort
  have hnone := decode_of_short hshort
  rw [← List.append_nil (frame p), decode_of_some (takeFrame_frame hp [])] at hnone
  cases hnone

end Framing

end RtbEngine.Lib
