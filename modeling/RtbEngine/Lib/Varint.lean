import Mathlib.Data.Nat.Log
import RtbEngine.Lib.Framing

/-!
# Base-128 varints

Seven bits a byte, least significant first, with the high bit set on every
byte but the last. Ten bytes hold every 64-bit value.

* `varint_length_le` — a number takes one byte for each of its base-128 digits;
* `readVarint_suffix` — reading one leaves a suffix of the input.
-/

namespace RtbEngine.Lib

/-- At most `k + 1` bytes of the varint of `n`. -/
def varintN : Nat → Nat → Bytes
  | 0, n => [UInt8.ofNat (n % 128)]
  | k + 1, n =>
      if n < 128 then [UInt8.ofNat n] else UInt8.ofNat (n % 128 + 128) :: varintN k (n / 128)

def varint (n : Nat) : Bytes := varintN 9 n

/-- Read a varint of at most `k` bytes: its value and what follows it. -/
def readVarintN : Nat → Bytes → Option (Nat × Bytes)
  | 0, _ => none
  | _ + 1, [] => none
  | k + 1, b :: bs =>
      if b.toNat < 128 then some (b.toNat, bs)
      else
        match readVarintN k bs with
        | none => none
        | some (n, rest) => some (b.toNat - 128 + 128 * n, rest)

def readVarint (bs : Bytes) : Option (Nat × Bytes) := readVarintN 10 bs

theorem varintN_length_le (k n : Nat) : (varintN k n).length ≤ Nat.log 128 n + 1 := by
  induction k generalizing n with
  | zero => simp [varintN]
  | succ k ih =>
      unfold varintN
      split
      · simp
      · rename_i h
        rw [List.length_cons, Nat.log_of_one_lt_of_le (by decide) (Nat.not_lt.mp h)]
        exact Nat.succ_le_succ (ih _)

theorem varint_length_le (n : Nat) : (varint n).length ≤ Nat.log 128 n + 1 := varintN_length_le 9 n

theorem readVarintN_suffix {k n : Nat} {bs rest : Bytes}
    (h : readVarintN k bs = some (n, rest)) : rest <:+ bs := by
  induction k generalizing n bs with
  | zero => cases h
  | succ k ih =>
      cases bs with
      | nil => cases h
      | cons b bs =>
          simp only [readVarintN] at h
          split at h
          · cases h
            exact List.suffix_cons _ _
          · cases hr : readVarintN k bs with
            | none => simp [hr] at h
            | some p =>
                simp only [hr] at h
                cases h
                exact (ih hr).trans (List.suffix_cons _ _)

theorem readVarint_suffix {n : Nat} {bs rest : Bytes} (h : readVarint bs = some (n, rest)) :
    rest <:+ bs := readVarintN_suffix h

end RtbEngine.Lib
