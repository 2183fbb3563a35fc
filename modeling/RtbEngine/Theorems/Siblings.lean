import Mathlib.Algebra.Group.Int.Defs
import RtbEngine.Engine.Normalize

/-!
# Sibling slots have different keys

Two names that differ in two adjacent bytes only. A round of the hash keeps
the high bytes of two such states apart, and no later round brings them
together again.
-/

namespace RtbEngine

open Lib

/-- The rest of a name keeps different states different. -/
theorem foldl_hashStep_inj (bs : Bytes) {v w : UInt32}
    (h : bs.foldl hashStep v = bs.foldl hashStep w) : v = w := by
  induction bs generalizing v w with
  | nil => exact h
  | cons c bs ih => exact hashStep_inj (ih h)

/-- A byte reaches the low byte of the state only. -/
theorem xor_byte_div (v : UInt32) (c : UInt8) :
    (v ^^^ c.toUInt32).toNat / 256 = v.toNat / 256 := by
  have hlow : c.toNat >>> 8 = 0 := by
    rw [Nat.shiftRight_eq_div_pow]
    exact Nat.div_eq_of_lt c.toNat_lt
  show _ / 2 ^ 8 = _ / 2 ^ 8
  rw [← Nat.shiftRight_eq_div_pow, ← Nat.shiftRight_eq_div_pow, UInt32.toNat_xor,
    UInt8.toNat_toUInt32, Nat.shiftRight_xor_distrib, hlow, Nat.xor_zero]

/-- The multiplier is 2^24 + 403. A difference `e` in the low bytes comes back
as `e` in the top byte, and `403 * e` is too small to make up for it. -/
theorem eq_of_high_bytes {x y : Nat} (hstate : x / 256 = y / 256)
    (hproduct : x * 16777619 % 2 ^ 32 / 256 = y * 16777619 % 2 ^ 32 / 256) : x = y := by
  obtain ⟨e, he⟩ : ∃ e : Int, e = x - y := ⟨_, rfl⟩
  obtain ⟨k, hk⟩ : ∃ k : Int, k = (x * 16777619 / 2 ^ 32 : Nat) - (y * 16777619 / 2 ^ 32 : Nat) :=
    ⟨_, rfl⟩
  have hsmall : -255 ≤ e ∧ e ≤ 255 := by omega
  have hcarry : -255 ≤ e * 16777619 - 2 ^ 32 * k ∧ e * 16777619 - 2 ^ 32 * k ≤ 255 := by omega
  have hmultiple : e - 256 * k = 0 := by omega
  omega

/-- Two rounds from one state tell two pairs of bytes apart. -/
theorem two_rounds_inj {v : UInt32} {a b a' b' : UInt8}
    (h : hashStep (hashStep v a) b = hashStep (hashStep v a') b') : a = a' ∧ b = b' := by
  -- the second multiplication can be undone, the second byte then reaches the low byte only
  have hsecond : hashStep v a ^^^ b.toUInt32 = hashStep v a' ^^^ b'.toUInt32 := by
    have hround : hashStep (hashStep v a ^^^ b.toUInt32) 0 =
        hashStep (hashStep v a' ^^^ b'.toUInt32) 0 := by
      unfold hashStep at h ⊢
      show (_ ^^^ 0) * _ = (_ ^^^ 0) * _
      rw [UInt32.xor_zero, UInt32.xor_zero]
      exact h
    exact hashStep_inj hround
  have hproduct : (hashStep v a).toNat / 256 = (hashStep v a').toNat / 256 := by
    calc (hashStep v a).toNat / 256
        = (hashStep v a ^^^ b.toUInt32).toNat / 256 := (xor_byte_div _ b).symm
      _ = (hashStep v a' ^^^ b'.toUInt32).toNat / 256 := by rw [hsecond]
      _ = (hashStep v a').toNat / 256 := xor_byte_div _ b'
  have hstate : (v ^^^ a.toUInt32).toNat / 256 = (v ^^^ a'.toUInt32).toNat / 256 := by
    rw [xor_byte_div, xor_byte_div]
  unfold hashStep at hproduct
  rw [UInt32.toNat_mul, UInt32.toNat_mul] at hproduct
  have hfirst : v ^^^ a.toUInt32 = v ^^^ a'.toUInt32 :=
    UInt32.toNat_inj.mp (eq_of_high_bytes hstate hproduct)
  have ha : a = a' := by
    have hwide := (UInt32.xor_right_inj v).mp hfirst
    rwa [← UInt32.toNat_inj, UInt8.toNat_toUInt32, UInt8.toNat_toUInt32, UInt8.toNat_inj] at hwide
  refine ⟨ha, ?_⟩
  rw [ha] at hsecond
  have hwide := (UInt32.xor_right_inj _).mp hsecond
  rwa [← UInt32.toNat_inj, UInt8.toNat_toUInt32, UInt8.toNat_toUInt32, UInt8.toNat_inj] at hwide

/-- **Siblings**: names that differ in two adjacent bytes have different keys,
whatever is in front of these bytes and behind them. -/
theorem sibling_keys_ne (p s : Bytes) {a b a' b' : UInt8} (hne : (a, b) ≠ (a', b')) :
    normalizeAdSlotKey (p ++ [a, b] ++ s) ≠ normalizeAdSlotKey (p ++ [a', b'] ++ s) := by
  intro hkey
  have hvalue : (p ++ [a, b] ++ s).foldl hashStep 2166136261 =
      (p ++ [a', b'] ++ s).foldl hashStep 2166136261 := congrArg AdSlotKey.value hkey
  rw [List.foldl_append, List.foldl_append, List.foldl_append, List.foldl_append] at hvalue
  have hrounds := foldl_hashStep_inj s hvalue
  obtain ⟨rfl, rfl⟩ := two_rounds_inj hrounds
  exact hne rfl

/-- "slot-09-top" and "slot-10-top". -/
theorem sibling_keys_ne_sample :
    normalizeAdSlotKey (ascii "slot-09-top") ≠ normalizeAdSlotKey (ascii "slot-10-top") := by
  have h := sibling_keys_ne (ascii "slot-") (ascii "-top")
    (show ((48 : UInt8), (57 : UInt8)) ≠ (49, 48) by decide)
  have hleft : ascii "slot-" ++ [48, 57] ++ ascii "-top" = ascii "slot-09-top" := by
    decide +kernel
  have hright : ascii "slot-" ++ [49, 48] ++ ascii "-top" = ascii "slot-10-top" := by
    decide +kernel
  rwa [hleft, hright] at h

end RtbEngine
