import Mathlib.Data.Int.Log
import Mathlib.Data.Rat.Floor
import Mathlib.Tactic.Linarith
import Mathlib.Tactic.FieldSimp
import Mathlib.Tactic.NormNum
import Mathlib.Tactic.Positivity
import Mathlib.Tactic.Ring

/-!
# Rounding to nearest

Nonnegative numbers rounded to `p` significant bits, ties to even, with an
unbounded exponent.

* `nearestEven_mono` — the order is kept.
* `nearestEven_exactUpTo` — the natural numbers up to `2 ^ p` are kept.
-/

namespace RtbEngine.Lib

/-- `fl` keeps the order of nonnegative numbers. -/
def RoundsInOrder (fl : ℚ → ℚ) : Prop := ∀ ⦃x y : ℚ⦄, 0 ≤ x → x ≤ y → fl x ≤ fl y

/-- `fl` keeps the natural numbers up to `m`. -/
def ExactUpTo (fl : ℚ → ℚ) (m : Nat) : Prop := ∀ k : Nat, k ≤ m → fl k = k

theorem ExactUpTo.mono {fl : ℚ → ℚ} {m n : Nat} (h : ExactUpTo fl n) (hmn : m ≤ n) :
    ExactUpTo fl m :=
  fun k hk => h k (hk.trans hmn)

/-! ## To an integer -/

/-- The nearest integer, the even one of two. -/
def roundHalfEven (q : ℚ) : ℤ :=
  if q - ⌊q⌋ < 1 / 2 ∨ q - ⌊q⌋ = 1 / 2 ∧ ⌊q⌋ % 2 = 0 then ⌊q⌋ else ⌊q⌋ + 1

theorem floor_le_roundHalfEven (q : ℚ) : ⌊q⌋ ≤ roundHalfEven q := by
  unfold roundHalfEven
  split
  · exact le_refl _
  · exact Int.le_add_one (le_refl _)

theorem roundHalfEven_le_floor (q : ℚ) : roundHalfEven q ≤ ⌊q⌋ + 1 := by
  unfold roundHalfEven
  split
  · exact Int.le_add_one (le_refl _)
  · exact le_refl _

theorem roundHalfEven_intCast (i : ℤ) : roundHalfEven i = i := by
  unfold roundHalfEven
  rw [Int.floor_intCast, sub_self, if_pos (Or.inl (by norm_num))]

theorem roundHalfEven_mono {x y : ℚ} (h : x ≤ y) : roundHalfEven x ≤ roundHalfEven y := by
  rcases (Int.floor_mono h).lt_or_eq with hlt | heq
  · calc roundHalfEven x ≤ ⌊x⌋ + 1 := roundHalfEven_le_floor x
      _ ≤ ⌊y⌋ := hlt
      _ ≤ roundHalfEven y := floor_le_roundHalfEven y
  · -- the same whole part: the larger fraction goes up where the smaller one does
    unfold roundHalfEven
    rw [heq]
    split
    · split
      · exact le_refl _
      · exact Int.le_add_one (le_refl _)
    · rename_i hup
      rw [if_neg]
      rintro (hlow | ⟨hhalf, heven⟩)
      · exact hup (Or.inl (by linarith))
      · rcases h.lt_or_eq with hlt | rfl
        · exact hup (Or.inl (by linarith))
        · exact hup (Or.inr ⟨hhalf, heven⟩)

/-! ## To `p` bits -/

/-- The unit in the last of `p` bits. -/
def ulp (p : Nat) (x : ℚ) : ℚ := (2 : ℚ) ^ (Int.log 2 x + 1 - p)

def nearestEven (p : Nat) (x : ℚ) : ℚ := roundHalfEven (x / ulp p x) * ulp p x

theorem ulp_pos (p : Nat) (x : ℚ) : 0 < ulp p x := by
  unfold ulp
  exact zpow_pos (by norm_num) _

theorem nearestEven_zero (p : Nat) : nearestEven p 0 = 0 := by
  have h := roundHalfEven_intCast 0
  unfold nearestEven
  rw [zero_div, ← Int.cast_zero, h, Int.cast_zero, zero_mul]

/-- A power of two above a number is above what it is rounded to. -/
theorem nearestEven_le_zpow (p : Nat) (x : ℚ) :
    nearestEven p x ≤ 2 ^ (Int.log 2 x + 1) := by
  have hu := ulp_pos p x
  have hscale : (2 : ℚ) ^ (Int.log 2 x + 1) = ((2 ^ p : ℤ) : ℚ) * ulp p x := by
    unfold ulp
    rw [Int.cast_pow, Int.cast_ofNat, ← zpow_natCast, ← zpow_add₀ (by norm_num)]
    congr 1
    ring
  have hle : x / ulp p x ≤ ((2 ^ p : ℤ) : ℚ) := by
    rw [div_le_iff₀ hu, ← hscale]
    exact (Int.lt_zpow_succ_log_self (by norm_num) x).le
  have hround := roundHalfEven_mono hle
  rw [roundHalfEven_intCast] at hround
  unfold nearestEven
  rw [hscale]
  exact mul_le_mul_of_nonneg_right (Int.cast_le.mpr hround) hu.le

/-- The power of two below a number is below what it is rounded to. -/
theorem zpow_le_nearestEven {p : Nat} (hp : 0 < p) {x : ℚ} (hx : 0 < x) :
    2 ^ Int.log 2 x ≤ nearestEven p x := by
  have hu := ulp_pos p x
  have hscale : (2 : ℚ) ^ Int.log 2 x = ((2 ^ (p - 1) : ℤ) : ℚ) * ulp p x := by
    unfold ulp
    rw [Int.cast_pow, Int.cast_ofNat, ← zpow_natCast, ← zpow_add₀ (by norm_num)]
    congr 1
    omega
  have hle : ((2 ^ (p - 1) : ℤ) : ℚ) ≤ x / ulp p x := by
    rw [le_div_iff₀ hu, ← hscale]
    exact Int.zpow_log_le_self (by norm_num) hx
  have hround := roundHalfEven_mono hle
  rw [roundHalfEven_intCast] at hround
  unfold nearestEven
  rw [hscale]
  exact mul_le_mul_of_nonneg_right (Int.cast_le.mpr hround) hu.le

theorem nearestEven_mono {p : Nat} (hp : 0 < p) : RoundsInOrder (nearestEven p) := by
  intro x y hx hxy
  rcases hx.lt_or_eq with hpos | rfl
  · rcases (Int.log_mono_right hpos hxy).lt_or_eq with hlt | heq
    · -- a power of two lies between the two
      calc nearestEven p x ≤ 2 ^ (Int.log 2 x + 1) := nearestEven_le_zpow p x
        _ ≤ 2 ^ Int.log 2 y := zpow_le_zpow_right₀ (by norm_num) hlt
        _ ≤ nearestEven p y := zpow_le_nearestEven hp (hpos.trans_le hxy)
    · have hunit : ulp p x = ulp p y := by
        unfold ulp
        rw [heq]
      have hu := ulp_pos p y
      unfold nearestEven
      rw [hunit]
      exact mul_le_mul_of_nonneg_right
        (Int.cast_le.mpr (roundHalfEven_mono (div_le_div_of_nonneg_right hxy hu.le))) hu.le
  · rw [nearestEven_zero]
    have hu := ulp_pos p y
    have hround := roundHalfEven_mono (div_nonneg hxy hu.le)
    rw [← Int.cast_zero, roundHalfEven_intCast] at hround
    exact mul_nonneg (Int.cast_nonneg hround) hu.le

/-- What is a whole number of units is kept. -/
theorem nearestEven_of_multiple {p : Nat} {x : ℚ} {i : ℤ} (h : x = i * ulp p x) :
    nearestEven p x = x := by
  have hu := ulp_pos p x
  have hdiv : x / ulp p x = i := by
    rw [div_eq_iff hu.ne']
    exact h
  unfold nearestEven
  rw [hdiv, roundHalfEven_intCast, ← h]

/-- A natural number of at most `p` bits is a whole number of units. -/
theorem exists_multiple_ulp {p k : Nat} (hp : 0 < p) (hpos : 0 < k) (hk : k ≤ 2 ^ p) :
    ∃ i : ℤ, (k : ℚ) = i * ulp p k := by
  rcases hk.lt_or_eq with hlt | rfl
  · -- the unit divides 1
    have hlog : Nat.log 2 k + 1 ≤ p := Nat.log_lt_of_lt_pow hpos.ne' hlt
    refine ⟨k * 2 ^ (p - (Nat.log 2 k + 1)), ?_⟩
    unfold ulp
    rw [Int.log_natCast, Int.cast_mul, Int.cast_pow, Int.cast_ofNat, Int.cast_natCast, mul_assoc,
      ← zpow_natCast, ← zpow_add₀ (by norm_num)]
    have hexp : ((p - (Nat.log 2 k + 1) : Nat) : ℤ) + (Nat.log 2 k + 1 - p) = 0 := by omega
    rw [hexp, zpow_zero, mul_one]
  · refine ⟨2 ^ (p - 1), ?_⟩
    unfold ulp
    rw [Int.log_natCast, Nat.log_pow (by norm_num), Int.cast_pow, Int.cast_ofNat, Nat.cast_pow,
      Nat.cast_ofNat, ← zpow_natCast, ← zpow_natCast, ← zpow_add₀ (by norm_num)]
    congr 1
    omega

theorem nearestEven_exactUpTo {p : Nat} (hp : 0 < p) : ExactUpTo (nearestEven p) (2 ^ p) := by
  intro k hk
  rcases Nat.eq_zero_or_pos k with rfl | hpos
  · rw [Nat.cast_zero, nearestEven_zero]
  · obtain ⟨i, hi⟩ := exists_multiple_ulp hp hpos hk
    exact nearestEven_of_multiple hi

theorem roundHalfEven_of_near {q : ℚ} {i : ℤ} (hle : q ≤ i) (hnear : i - q < 1 / 2) :
    roundHalfEven q = i := by
  rcases hle.lt_or_eq with hlt | rfl
  · have hfloor : ⌊q⌋ = i - 1 := by
      rw [Int.floor_eq_iff, Int.cast_sub, Int.cast_one]
      constructor
      · linarith
      · linarith
    unfold roundHalfEven
    rw [hfloor, Int.cast_sub, Int.cast_one, if_neg]
    · ring
    · rintro (hlow | ⟨hhalf, -⟩)
      · linarith
      · linarith
  · exact roundHalfEven_intCast i

/-- Just below a natural number: the unit divides it, and is more than twice
the distance. -/
theorem exists_units_of_near {p m : Nat} (hp : 0 < p) (hm : m ≤ 2 ^ p) {x : ℚ} (hle : x ≤ m)
    (hnear : m - x < m / 2 ^ (p + 1)) : ∃ i : ℤ, (m : ℚ) = i * ulp p x ∧ m - x < ulp p x / 2 := by
  have hmpos : 0 < m := by
    by_contra hzero
    rw [Nat.eq_zero_of_not_pos hzero, Nat.cast_zero, zero_div] at hnear
    rw [Nat.eq_zero_of_not_pos hzero, Nat.cast_zero] at hle
    linarith
  have hmq : (0 : ℚ) < m := Nat.cast_pos.mpr hmpos
  have hlow : ((2 : ℚ) ^ Nat.log 2 m) ≤ m := by
    exact_mod_cast Nat.pow_log_le_self 2 hmpos.ne'
  have hhigh : (m : ℚ) < 2 ^ (Nat.log 2 m + 1) := by
    exact_mod_cast Nat.lt_pow_succ_log_self (by norm_num) m
  have htop : (m : ℚ) ≤ 2 ^ p := by exact_mod_cast hm
  have hstep : (2 : ℚ) ^ (p + 1) = 2 * 2 ^ p := pow_succ' 2 p
  have hpp : (2 : ℚ) ≤ 2 ^ p := le_self_pow₀ (by norm_num) hp.ne'
  -- the distance is at most 1/2 and at most a quarter of the number
  have hhalf : (m : ℚ) / 2 ^ (p + 1) ≤ 1 / 2 := by
    rw [div_le_iff₀ (by positivity), hstep]
    linarith
  have hquarter : (m : ℚ) / 2 ^ (p + 1) ≤ m / 4 :=
    div_le_div_of_nonneg_left hmq.le (by norm_num) (by linarith)
  have hxpos : 0 < x := by linarith
  have hlogle : Int.log 2 x ≤ Nat.log 2 m := by
    have hmono := Int.log_mono_right (b := 2) hxpos hle
    rwa [Int.log_natCast] at hmono
  rcases hlogle.lt_or_eq with hlt | heq
  · -- a power of two with the number in the binade below
    have hxlt : x < 2 ^ Nat.log 2 m := by
      have h := (Int.lt_zpow_iff_log_lt (b := 2) (by norm_num) hxpos).mpr hlt
      rwa [Nat.cast_ofNat, zpow_natCast] at h
    have hmeq : m = 2 ^ Nat.log 2 m := by
      by_contra hne
      have hmore : 2 ^ Nat.log 2 m + 1 ≤ m :=
        lt_of_le_of_ne (Nat.pow_log_le_self 2 hmpos.ne') (Ne.symm hne)
      have hmoreq : (2 : ℚ) ^ Nat.log 2 m + 1 ≤ m := by exact_mod_cast hmore
      linarith
    have hlog : Int.log 2 x = Nat.log 2 m - 1 := by
      have hge : (Nat.log 2 m - 1 : ℤ) ≤ Int.log 2 x := by
        rw [← Int.zpow_le_iff_le_log (by norm_num) hxpos, Nat.cast_ofNat,
          zpow_sub₀ (by norm_num), zpow_natCast, zpow_one]
        have hmq2 : (m : ℚ) = 2 ^ Nat.log 2 m := by exact_mod_cast hmeq
        rw [← hmq2]
        linarith
      omega
    have hulp : ulp p x = m / 2 ^ p := by
      unfold ulp
      rw [hlog, sub_add_cancel, zpow_sub₀ (by norm_num), zpow_natCast, zpow_natCast]
      congr 1
      exact_mod_cast hmeq.symm
    refine ⟨2 ^ p, ?_, ?_⟩
    · rw [hulp, Int.cast_pow, Int.cast_ofNat]
      field_simp
    · rw [hulp, div_div, mul_comm, ← hstep]
      exact hnear
  · have hulp : ulp p x = ulp p m := by
      unfold ulp
      rw [heq, Int.log_natCast]
    obtain ⟨i, hi⟩ := exists_multiple_ulp hp hmpos hm
    refine ⟨i, hulp ▸ hi, hnear.trans ?_⟩
    rw [hulp, div_lt_iff₀ (by positivity), hstep]
    have hunit : ulp p m * 2 ^ p = 2 ^ (Nat.log 2 m + 1) := by
      unfold ulp
      rw [Int.log_natCast, ← zpow_natCast, ← zpow_natCast, ← zpow_add₀ (by norm_num)]
      congr 1
      push_cast
      ring
    linarith

/-- A number just below a natural number is rounded up to it. -/
theorem nearestEven_of_near {p m : Nat} (hp : 0 < p) (hm : m ≤ 2 ^ p) {x : ℚ} (hle : x ≤ m)
    (hnear : m - x < m / 2 ^ (p + 1)) : nearestEven p x = m := by
  obtain ⟨i, hi, hdist⟩ := exists_units_of_near hp hm hle hnear
  have hu := ulp_pos p x
  have hround : roundHalfEven (x / ulp p x) = i := by
    refine roundHalfEven_of_near ?_ ?_
    · rw [div_le_iff₀ hu, ← hi]
      exact hle
    · rw [sub_lt_iff_lt_add, ← sub_lt_iff_lt_add', lt_div_iff₀ hu, sub_mul, ← hi]
      linarith
  unfold nearestEven
  rw [hround, ← hi]

/-- Few enough bits behind the point are kept. -/
theorem nearestEven_dyadic {p k : Nat} (hk : k < 2 ^ p) (j : Nat) :
    nearestEven p (k / 2 ^ j) = k / 2 ^ j := by
  rcases Nat.eq_zero_or_pos k with rfl | hpos
  · rw [Nat.cast_zero, zero_div, nearestEven_zero]
  · have hx : (0 : ℚ) < k / 2 ^ j := by positivity
    have hlog : Int.log 2 ((k : ℚ) / 2 ^ j) < p - j := by
      rw [← Int.lt_zpow_iff_log_lt (by norm_num) hx, Nat.cast_ofNat, zpow_sub₀ (by norm_num),
        zpow_natCast, zpow_natCast]
      exact div_lt_div_of_pos_right (by exact_mod_cast hk) (by positivity)
    generalize hlogdef : Int.log 2 ((k : ℚ) / 2 ^ j) = e at hlog
    obtain ⟨d, hd⟩ := Int.le.dest (show (j : ℤ) ≤ p - 1 - e by omega)
    refine nearestEven_of_multiple (i := k * 2 ^ d) ?_
    unfold ulp
    rw [hlogdef, Int.cast_mul, Int.cast_pow, Int.cast_ofNat, Int.cast_natCast, mul_assoc,
      ← zpow_natCast, ← zpow_natCast, ← zpow_add₀ (by norm_num), div_eq_mul_inv, ← zpow_neg]
    congr 2
    omega

example : nearestEven 53 (2 ^ 53 + 1) = 2 ^ 53 := by decide +kernel

end RtbEngine.Lib
