import Mathlib.Algebra.BigOperators.Group.List.Basic
import Mathlib.Algebra.Ring.Basic
import Mathlib.Data.Nat.Bitwise

/-!
# Polynomials over two elements

A polynomial over the field of two elements is the number with its coefficients
as bits, so that addition is `^^^` and multiplication by the variable doubles.
It is evaluated in any ring in which `a + a = 0`, at elements that need not
commute with the rest.

* `evalBits` — the value of a polynomial;
* `mulMod`, `powMod` — product and power modulo a polynomial, with their values
  at a root of it;
* `OrderCertificate` — a check, in numbers alone, that the variable has a given
  order modulo a polynomial.
-/

namespace RtbEngine.Lib

/-! ## Values -/

section

variable {R : Type} [Ring R]

/-- The polynomial with the bits of `p`, at `x`. -/
def evalBits (x : R) (p : Nat) : R :=
  if p = 0 then 0 else (p % 2 : Nat) + x * evalBits x (p / 2)
termination_by p
decreasing_by omega

variable (x : R)

@[simp] theorem evalBits_zero : evalBits x 0 = 0 := by
  rw [evalBits, if_pos rfl]

/-- The lowest coefficient, and the rest. -/
theorem evalBits_step (p : Nat) : evalBits x p = (p % 2 : Nat) + x * evalBits x (p / 2) := by
  by_cases hp : p = 0
  · subst hp
    simp
  · rw [evalBits, if_neg hp]

@[simp] theorem evalBits_one : evalBits x 1 = 1 := by
  rw [evalBits_step]
  simp

theorem evalBits_double (p : Nat) : evalBits x (2 * p) = x * evalBits x p := by
  rw [evalBits_step, Nat.mul_mod_right, Nat.mul_div_cancel_left p (by decide), Nat.cast_zero,
    zero_add]

theorem evalBits_two : evalBits x 2 = x := by
  rw [← Nat.mul_one 2, evalBits_double, evalBits_one, mul_one]

/-- A polynomial or nothing, by the bit `b`. -/
theorem evalBits_mul_bit (p b : Nat) :
    evalBits x (p * (b % 2)) = (b % 2 : Nat) * evalBits x p := by
  rcases Nat.mod_two_eq_zero_or_one b with hb | hb
  · rw [hb, Nat.mul_zero, evalBits_zero, Nat.cast_zero, zero_mul]
  · rw [hb, Nat.mul_one, Nat.cast_one, one_mul]

variable (htwo : ∀ a : R, a + a = 0)
include htwo

theorem cast_xor_mod_two (p q : Nat) :
    (((p ^^^ q) % 2 : Nat) : R) = (p % 2 : Nat) + (q % 2 : Nat) := by
  rw [Nat.xor_mod_two_eq]
  rcases Nat.mod_two_eq_zero_or_one p with hp | hp <;>
    rcases Nat.mod_two_eq_zero_or_one q with hq | hq <;>
    simp [Nat.add_mod, hp, hq, htwo]

/-- Addition has no carry. -/
theorem evalBits_xor (p q : Nat) : evalBits x (p ^^^ q) = evalBits x p + evalBits x q := by
  induction p using Nat.strong_induction_on generalizing q with
  | _ p ih =>
      by_cases hp : p = 0
      · subst hp
        rw [Nat.zero_xor, evalBits_zero, zero_add]
      -- both numbers lose their lowest bit, where the sum has no carry
      · have hhalf := ih (p / 2) (by omega) (q / 2)
        rw [evalBits_step x (p ^^^ q), evalBits_step x p, evalBits_step x q, Nat.xor_div_two, hhalf,
          cast_xor_mod_two htwo, mul_add, add_add_add_comm]

end

/-! ## Arithmetic modulo a polynomial -/

/-- Subtract the modulus, of degree `width`, where the bit `width` is set. -/
def reduceTop (modulus width p : Nat) : Nat := p ^^^ modulus * ((p >>> width) % 2)

/-- `p * q` for the lowest `fuel` bits of `q`. -/
def mulModAux (modulus width p : Nat) : Nat → Nat → Nat
  | 0, _ => 0
  | fuel + 1, q =>
      reduceTop modulus width (2 * mulModAux modulus width p fuel (q / 2)) ^^^ p * (q % 2)

def mulMod (modulus width p q : Nat) : Nat := mulModAux modulus width p (q.log2 + 1) q

/-- `p ^ e` for the lowest `fuel` bits of `e`. -/
def powModAux (modulus width p : Nat) : Nat → Nat → Nat
  | 0, _ => 1
  | fuel + 1, e =>
      let root := powModAux modulus width p fuel (e / 2)
      mulMod modulus width (mulMod modulus width root root) (p ^ (e % 2))

def powMod (modulus width p e : Nat) : Nat := powModAux modulus width p (e.log2 + 1) e

section

variable {R : Type} [Ring R] {x : R} {modulus width : Nat} (htwo : ∀ a : R, a + a = 0)
  (hroot : evalBits x modulus = 0)
include htwo hroot

theorem evalBits_reduceTop (p : Nat) : evalBits x (reduceTop modulus width p) = evalBits x p := by
  rw [reduceTop, evalBits_xor x htwo, evalBits_mul_bit, hroot, mul_zero, add_zero]

theorem evalBits_mulModAux (p : Nat) {fuel q : Nat} (hq : q < 2 ^ fuel) :
    evalBits x (mulModAux modulus width p fuel q) = evalBits x q * evalBits x p := by
  induction fuel generalizing q with
  | zero =>
      obtain rfl : q = 0 := by omega
      rw [mulModAux, evalBits_zero, zero_mul]
  | succ fuel ih =>
      have hhalf : q / 2 < 2 ^ fuel := by omega
      -- at a root of the modulus, reducing does not change the value
      rw [mulModAux, evalBits_xor x htwo, evalBits_reduceTop htwo hroot, evalBits_double, ih hhalf,
        evalBits_mul_bit, evalBits_step x q, add_mul, mul_assoc, add_comm]

variable (width) in
theorem evalBits_mulMod (p q : Nat) :
    evalBits x (mulMod modulus width p q) = evalBits x q * evalBits x p :=
  evalBits_mulModAux htwo hroot p Nat.lt_log2_self

theorem evalBits_powModAux (p : Nat) {fuel e : Nat} (he : e < 2 ^ fuel) :
    evalBits x (powModAux modulus width p fuel e) = evalBits x p ^ e := by
  induction fuel generalizing e with
  | zero =>
      obtain rfl : e = 0 := by omega
      rw [powModAux, evalBits_one, pow_zero]
  | succ fuel ih =>
      have hhalf : e / 2 < 2 ^ fuel := by omega
      have hbit : evalBits x (p ^ (e % 2)) = evalBits x p ^ (e % 2) := by
        rcases Nat.mod_two_eq_zero_or_one e with h | h
        · rw [h, pow_zero, pow_zero, evalBits_one]
        · rw [h, pow_one, pow_one]
      -- square the half power, and multiply once more for an odd exponent
      have hsplit : e % 2 + (e / 2 + e / 2) = e := by omega
      rw [powModAux, evalBits_mulMod width htwo hroot, evalBits_mulMod width htwo hroot, ih hhalf, hbit,
        ← pow_add, ← pow_add, hsplit]

variable (width) in
theorem evalBits_powMod (p e : Nat) :
    evalBits x (powMod modulus width p e) = evalBits x p ^ e :=
  evalBits_powModAux htwo hroot p Nat.lt_log2_self

end

/-! ## Orders -/

/-- The factors of `n`, each with the inverse of `x ^ (n / factor) + 1` modulo
the polynomial. -/
def OrderCertificate (modulus width n : Nat) (factors : List (Nat × Nat)) : Prop :=
  (factors.map Prod.fst).prod = n ∧ powMod modulus width 2 n = 1 ∧
    ∀ c ∈ factors, mulMod modulus width (powMod modulus width 2 (n / c.1) ^^^ 1) c.2 = 1

instance (modulus width n : Nat) (factors : List (Nat × Nat)) :
    Decidable (OrderCertificate modulus width n factors) :=
  inferInstanceAs (Decidable (_ ∧ _ ∧ _))

section

variable {R : Type} [Ring R] {x : R} {modulus width n : Nat} {factors : List (Nat × Nat)}
  (htwo : ∀ a : R, a + a = 0) (hroot : evalBits x modulus = 0)
  (hcert : OrderCertificate modulus width n factors)
include htwo hroot hcert

theorem OrderCertificate.pow_eq_one : x ^ n = 1 := by
  have h := evalBits_powMod width htwo hroot 2 n
  rw [hcert.2.1, evalBits_one, evalBits_two] at h
  exact h.symm

/-- `x ^ (n / factor)` differs from the identity by a unit. -/
theorem OrderCertificate.exists_inverse {c : Nat × Nat} (hc : c ∈ factors) :
    ∃ u, u * (x ^ (n / c.1) + 1) = 1 := by
  have h := evalBits_mulMod width htwo hroot (powMod modulus width 2 (n / c.1) ^^^ 1) c.2
  rw [hcert.2.2 c hc, evalBits_one, evalBits_xor x htwo, evalBits_powMod width htwo hroot, evalBits_two,
    evalBits_one] at h
  exact ⟨evalBits x c.2, h.symm⟩

end

end RtbEngine.Lib
