import Mathlib.Algebra.Group.Hom.End
import Mathlib.Data.List.Prime
import Mathlib.Data.Nat.Prime.Basic
import Mathlib.Dynamics.PeriodicPts.Defs
import Mathlib.Order.Interval.Finset.Nat
import RtbEngine.Lib.BitPolynomial

/-!
# Maps that respect exclusive or

Words of `w` bits with `^^^` as addition, and the maps that respect it: shifts,
and what is composed of them. Where such a map is a root of a polynomial over
two elements, the order of the variable modulo it is the period of every word
but zero.

* `XorLinear` — the maps, and the ring they belong to;
* `XorLinear.minimalPeriod_eq` — the period, from a certificate in numbers;
* `existsUnique_iterate` — a period as long as there are words visits each.
-/

namespace RtbEngine.Lib

open Function

/-! ## Words -/

/-- Words of `w` bits, added without carry. -/
def Word (w : Nat) : Type := BitVec w

variable {w : Nat}

instance : Zero (Word w) := ⟨0#w⟩

instance : Add (Word w) := ⟨fun (x y : BitVec w) => x ^^^ y⟩

/-- Each word is its own negative. -/
instance : Neg (Word w) := ⟨fun x => x⟩

instance : AddCommGroup (Word w) where
  add_assoc := BitVec.xor_assoc
  zero_add _ := BitVec.zero_xor
  add_zero _ := BitVec.xor_zero
  add_comm := BitVec.xor_comm
  neg_add_cancel _ := BitVec.xor_self
  nsmul := nsmulRec
  zsmul := zsmulRec

theorem Word.add_self (x : Word w) : x + x = 0 := BitVec.xor_self

theorem Word.end_add_self (f : AddMonoid.End (Word w)) : f + f = 0 :=
  AddMonoidHom.ext fun x => (f x).add_self

/-- An additive map that is zero on the words with one bit is zero. -/
theorem Word.end_eq_zero {f : AddMonoid.End (Word w)}
    (h : ∀ i < w, f (BitVec.twoPow w i) = 0) : f = 0 := by
  -- by the number of low bits a word has
  have hlow : ∀ n ≤ w, ∀ v : BitVec w, v.toNat < 2 ^ n → f v = 0 := by
    intro n
    induction n with
    | zero =>
        intro _ v hv
        obtain rfl : v = 0#w := BitVec.eq_of_toNat_eq (by simpa using hv)
        exact map_zero f
    | succ n ih =>
        intro hn v hv
        by_cases hbit : v.toNat.testBit n = true
        · have hrest : (v ^^^ BitVec.twoPow w n).toNat < 2 ^ n := by
            rw [BitVec.toNat_xor, BitVec.toNat_twoPow_of_lt hn]
            apply Nat.lt_pow_two_of_testBit
            intro i hi
            rw [Nat.testBit_xor, Nat.testBit_two_pow]
            by_cases heq : n = i
            · subst heq
              simp [hbit]
            · have hlt : v.toNat < 2 ^ i :=
                hv.trans_le (Nat.pow_le_pow_right (by decide) (by omega))
              simp [Nat.testBit_lt_two_pow hlt, heq]
          have hsplit : v = (v ^^^ BitVec.twoPow w n) ^^^ BitVec.twoPow w n := by
            rw [BitVec.xor_assoc, BitVec.xor_self, BitVec.xor_zero]
          calc f v = f ((v ^^^ BitVec.twoPow w n) ^^^ BitVec.twoPow w n) := congrArg f hsplit
            _ = f (v ^^^ BitVec.twoPow w n) + f (BitVec.twoPow w n) :=
                AddMonoidHom.map_add f _ _
            _ = 0 := by rw [ih (by omega) _ hrest, h n hn, add_zero]
        · refine ih (by omega) v ?_
          apply Nat.lt_pow_two_of_testBit
          intro i hi
          by_cases heq : n = i
          · subst heq
            simpa using hbit
          · exact Nat.testBit_lt_two_pow
              (hv.trans_le (Nat.pow_le_pow_right (by decide) (by omega)))
  exact AddMonoidHom.ext fun v => hlow w (Nat.le_refl w) v v.isLt

/-! ## Maps -/

def XorLinear (f : BitVec w → BitVec w) : Prop := ∀ x y, f (x ^^^ y) = f x ^^^ f y

theorem XorLinear.comp {f g : BitVec w → BitVec w} (hf : XorLinear f) (hg : XorLinear g) :
    XorLinear (f ∘ g) := by
  intro x y
  rw [comp_apply, comp_apply, comp_apply, hg, hf]

/-- A map added to the word. -/
theorem XorLinear.xor_self {f : BitVec w → BitVec w} (hf : XorLinear f) :
    XorLinear fun v => v ^^^ f v := by
  intro x y
  show (x ^^^ y) ^^^ f (x ^^^ y) = (x ^^^ f x) ^^^ (y ^^^ f y)
  rw [hf]
  ac_rfl

theorem xorLinear_shiftLeft (n : Nat) : XorLinear fun v : BitVec w => v <<< n :=
  fun x y => BitVec.shiftLeft_xor_distrib x y n

theorem xorLinear_ushiftRight (n : Nat) : XorLinear fun v : BitVec w => v >>> n :=
  fun x y => BitVec.ushiftRight_xor_distrib x y n

/-- The polynomial with the bits of `p`, for a map given on numbers, at the
number `v`. -/
def hornerBits (t : Nat → Nat) (v : Nat) : Nat → Nat → Nat
  | 0, _ => 0
  | fuel + 1, p => v * (p % 2) ^^^ t (hornerBits t v fuel (p / 2))

section

variable {f : BitVec w → BitVec w} (hf : XorLinear f)

def XorLinear.toEnd : AddMonoid.End (Word w) := AddMonoidHom.mk' f hf

theorem XorLinear.toEnd_pow (n : Nat) (v : BitVec w) : (hf.toEnd ^ n) v = f^[n] v := by
  rw [AddMonoid.End.coe_pow]
  rfl

include hf in
theorem XorLinear.iterate_zero (n : Nat) : f^[n] 0#w = 0#w := by
  rw [← hf.toEnd_pow]
  exact map_zero _

/-- The value of a polynomial at the map, computed on numbers. -/
theorem XorLinear.toNat_evalBits {t : Nat → Nat} (ht : ∀ v, (f v).toNat = t v.toNat) (v : BitVec w)
    {fuel p : Nat} (hp : p < 2 ^ fuel) :
    (show BitVec w from evalBits hf.toEnd p v).toNat = hornerBits t v.toNat fuel p := by
  induction fuel generalizing p with
  | zero =>
      obtain rfl : p = 0 := by omega
      rw [evalBits_zero]
      rfl
  | succ fuel ih =>
      have hhalf : p / 2 < 2 ^ fuel := by omega
      have hbit : (show BitVec w from ((p % 2 : Nat) : AddMonoid.End (Word w)) v).toNat =
          v.toNat * (p % 2) := by
        rcases Nat.mod_two_eq_zero_or_one p with h | h
        · rw [h, Nat.cast_zero, Nat.mul_zero]
          rfl
        · rw [h, Nat.cast_one, Nat.mul_one]
          rfl
      rw [hornerBits, evalBits_step, ← ih hhalf, ← ht, ← hbit, ← BitVec.toNat_xor]
      rfl

end

/-! ## Periods -/

/-- A period that no prime can be divided out of is the shortest. -/
theorem minimalPeriod_eq_of_prime {α : Type} {f : α → α} {x : α} {n : Nat}
    (h : IsPeriodicPt f n x) (hprime : ∀ p, p.Prime → p ∣ n → ¬ IsPeriodicPt f (n / p) x) :
    minimalPeriod f x = n := by
  obtain ⟨a, ha⟩ := h.minimalPeriod_dvd
  by_contra hne
  have ha1 : a ≠ 1 := by
    rintro rfl
    exact hne ((Nat.mul_one _).symm.trans ha.symm)
  obtain ⟨b, hb⟩ := a.minFac_dvd
  have hpos : 0 < a.minFac := a.minFac_pos
  have hfactor : n = a.minFac * (minimalPeriod f x * b) := by
    rw [ha, Nat.mul_left_comm, ← hb]
  refine hprime a.minFac (Nat.minFac_prime ha1) ⟨_, hfactor⟩ ?_
  rw [isPeriodicPt_iff_minimalPeriod_dvd, hfactor, Nat.mul_div_cancel_left _ hpos]
  exact Nat.dvd_mul_right _ _

/-- **Periods.** Where the map is a root of a polynomial, the order of the
variable modulo it is the period of every word but zero. -/
theorem XorLinear.minimalPeriod_eq {f : BitVec w → BitVec w} (hf : XorLinear f) {t : Nat → Nat}
    (ht : ∀ v, (f v).toNat = t v.toNat) {modulus width n : Nat} {factors : List (Nat × Nat)}
    (hroot : ∀ i < w, hornerBits t (2 ^ i) (modulus.log2 + 1) modulus = 0)
    (hprime : ∀ c ∈ factors, c.1.Prime) (hcert : OrderCertificate modulus width n factors)
    {x : BitVec w} (hx : x ≠ 0#w) : minimalPeriod f x = n := by
  have htwo := Word.end_add_self (w := w)
  have hzero : evalBits hf.toEnd modulus = 0 := by
    refine Word.end_eq_zero fun i hi => ?_
    apply BitVec.eq_of_toNat_eq
    have h := hf.toNat_evalBits ht (BitVec.twoPow w i) (Nat.lt_log2_self (n := modulus))
    rw [BitVec.toNat_twoPow_of_lt hi, hroot i hi] at h
    exact h
  refine minimalPeriod_eq_of_prime ?_ ?_
  · have h := hcert.pow_eq_one htwo hzero
    show f^[n] x = x
    rw [← hf.toEnd_pow, h]
    rfl
  · intro p hp hdvd hperiod
    -- the prime is one of the factors
    rw [← hcert.1] at hdvd
    obtain ⟨q, hq, hpq⟩ := (Prime.dvd_prod_iff hp.prime).mp hdvd
    obtain ⟨c, hc, rfl⟩ := List.mem_map.mp hq
    obtain rfl : p = c.1 := (Nat.prime_dvd_prime_iff_eq hp (hprime c hc)).mp hpq
    obtain ⟨u, hu⟩ := hcert.exists_inverse htwo hzero hc
    -- what fixes `x` sends it to zero, and has an inverse
    have hpow : (hf.toEnd ^ (n / c.1)) x = x := (hf.toEnd_pow _ _).trans hperiod
    have hsum : (hf.toEnd ^ (n / c.1) + 1) x =
        (hf.toEnd ^ (n / c.1)) x + (1 : AddMonoid.End (Word w)) x := rfl
    have hfixed : (hf.toEnd ^ (n / c.1) + 1) x = 0 := by
      rw [hsum, hpow]
      exact Word.add_self x
    have hunit : (u * (hf.toEnd ^ (n / c.1) + 1)) x = u ((hf.toEnd ^ (n / c.1) + 1) x) := rfl
    rw [hu, hfixed, map_zero] at hunit
    exact hx hunit

/-- A map under which the words come back merges none of them. -/
theorem XorLinear.injective {f : BitVec w → BitVec w} (hf : XorLinear f) {n : Nat}
    (hperiod : ∀ x, x ≠ 0#w → f^[n + 1] x = x) : Injective f := by
  have hne : ∀ x, f x = 0#w → x = 0#w := by
    intro x hx
    by_contra hzero
    have hback := hperiod x hzero
    rw [iterate_succ_apply, hx, hf.iterate_zero] at hback
    exact hzero hback.symm
  intro x y hxy
  have hsum : f (x ^^^ y) = 0#w := by rw [hf, hxy, BitVec.xor_self]
  exact BitVec.xor_eq_zero_iff.mp (hne _ hsum)

/-- A period as long as there are words but zero visits each of them once. -/
theorem existsUnique_iterate {f : BitVec w → BitVec w} {x : BitVec w}
    (hne : ∀ k, f^[k] x ≠ 0#w) (hperiod : minimalPeriod f x = 2 ^ w - 1) {y : BitVec w}
    (hy : y ≠ 0#w) : ∃! k, k < 2 ^ w - 1 ∧ f^[k] x = y := by
  have hinj : Set.InjOn (fun k => f^[k] x) (Finset.range (2 ^ w - 1)) := by
    rw [Finset.coe_range, ← hperiod]
    exact iterate_injOn_Iio_minimalPeriod
  have hrange : ∀ v : BitVec w, v ≠ 0#w → v.toNat ∈ Finset.Ico 1 (2 ^ w) := by
    intro v hv
    have hpos : v.toNat ≠ 0 := fun h => hv (BitVec.eq_of_toNat_eq h)
    exact Finset.mem_Ico.mpr ⟨Nat.pos_of_ne_zero hpos, v.isLt⟩
  have himage : (Finset.range (2 ^ w - 1)).image (fun k => (f^[k] x).toNat) =
      Finset.Ico 1 (2 ^ w) := by
    apply Finset.eq_of_subset_of_card_le
    · intro m hm
      obtain ⟨k, -, rfl⟩ := Finset.mem_image.mp hm
      exact hrange _ (hne k)
    · rw [Finset.card_image_of_injOn fun i hi j hj h => hinj hi hj (BitVec.eq_of_toNat_eq h),
        Finset.card_range, Nat.card_Ico]
  obtain ⟨k, hk, hvalue⟩ := Finset.mem_image.mp (himage ▸ hrange y hy)
  refine ⟨k, ⟨Finset.mem_range.mp hk, BitVec.eq_of_toNat_eq hvalue⟩, ?_⟩
  rintro j ⟨hj, rfl⟩
  exact hinj (Finset.mem_range.mpr hj) hk (BitVec.eq_of_toNat_eq hvalue.symm)

end RtbEngine.Lib
