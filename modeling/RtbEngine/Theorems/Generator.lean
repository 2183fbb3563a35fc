import Mathlib.Tactic.NormNum.Prime
import RtbEngine.Lib.XorLinear
import RtbEngine.Theorems.Selection

/-!
# The cycle of the generator

One step of `next_u64` is linear in the bits of the state, and a root of a
primitive polynomial: from every seed the states run through all words but zero
before the first one comes again.
-/

namespace RtbEngine

open Lib Function

namespace WorkerRng

/-! ## The step -/

/-- The value of `next_u64` before the zero is replaced. -/
def shifted (state : UInt64) : UInt64 :=
  let value := state ^^^ (state <<< 13)
  let value := value ^^^ (value >>> 7)
  value ^^^ (value <<< 17)

theorem nextU64_eq (rng : WorkerRng) : rng.nextU64 =
    (if shifted rng.state = 0 then 1 else shifted rng.state,
      { state := if shifted rng.state = 0 then 1 else shifted rng.state }) := rfl

/-- The step on bits. -/
def shiftedBits (v : BitVec 64) : BitVec 64 :=
  let v := v ^^^ (v <<< 13)
  let v := v ^^^ (v >>> 7)
  v ^^^ (v <<< 17)

/-- The step on numbers. -/
def shiftedNat (v : Nat) : Nat :=
  let v := v ^^^ (v <<< 13 % 2 ^ 64)
  let v := v ^^^ (v >>> 7)
  v ^^^ (v <<< 17 % 2 ^ 64)

theorem toBitVec_shifted (state : UInt64) :
    (shifted state).toBitVec = shiftedBits state.toBitVec := rfl

theorem toNat_shiftedBits (v : BitVec 64) : (shiftedBits v).toNat = shiftedNat v.toNat := by
  simp only [shiftedBits, shiftedNat, BitVec.toNat_xor, BitVec.toNat_shiftLeft,
    BitVec.toNat_ushiftRight]

theorem xorLinear_shiftedBits : XorLinear shiftedBits :=
  ((xorLinear_shiftLeft 17).xor_self.comp (xorLinear_ushiftRight 7).xor_self).comp
    (xorLinear_shiftLeft 13).xor_self

/-! ## Its polynomial -/

/-- The characteristic polynomial of the step. -/
def stepPolynomial : Nat := 0x1013ed4a358913201

/-- The primes of `2 ^ 64 - 1`, with the inverses that show the polynomial
primitive. -/
def stepFactors : List (Nat × Nat) :=
  [(3, 15511182550047884770), (5, 11814715471047095913), (17, 7202445018898142789),
    (257, 9031751854939573325), (641, 138158124418806406), (65537, 17109817795786126257),
    (6700417, 5204763322158105013)]

theorem stepPolynomial_root : ∀ i < 64,
    hornerBits shiftedNat (2 ^ i) (stepPolynomial.log2 + 1) stepPolynomial = 0 := by
  decide +kernel

theorem stepFactors_certificate :
    OrderCertificate stepPolynomial 64 (2 ^ 64 - 1) stepFactors := by
  decide +kernel

theorem stepFactors_prime : ∀ c ∈ stepFactors, c.1.Prime := by
  simp only [stepFactors, List.forall_mem_cons]
  norm_num

theorem minimalPeriod_shiftedBits {v : BitVec 64} (hv : v ≠ 0) :
    minimalPeriod shiftedBits v = 2 ^ 64 - 1 :=
  xorLinear_shiftedBits.minimalPeriod_eq toNat_shiftedBits stepPolynomial_root stepFactors_prime
    stepFactors_certificate hv

theorem shiftedBits_injective : Injective shiftedBits := by
  -- `n + 1` steps are the identity on every word but zero
  refine xorLinear_shiftedBits.injective (n := 2 ^ 64 - 2) fun v hv => ?_
  have hperiod := iterate_minimalPeriod (f := shiftedBits) (x := v)
  rw [minimalPeriod_shiftedBits hv] at hperiod
  exact hperiod

/-! ## States -/

theorem shifted_injective : Injective shifted := by
  intro a b hab
  have hbits : shiftedBits a.toBitVec = shiftedBits b.toBitVec := by
    rw [← toBitVec_shifted, ← toBitVec_shifted, hab]
  exact UInt64.eq_of_toBitVec_eq (shiftedBits_injective hbits)

theorem shifted_ne_zero {state : UInt64} (h : state ≠ 0) : shifted state ≠ 0 :=
  fun hzero => h (shifted_injective (hzero.trans (show shifted 0 = 0 from rfl).symm))

/-- The branch that replaces a zero is not taken. -/
theorem nextU64_of_ne_zero {rng : WorkerRng} (h : rng.state ≠ 0) :
    rng.nextU64 = (shifted rng.state, { state := shifted rng.state }) := by
  rw [nextU64_eq, if_neg (shifted_ne_zero h)]

theorem seed_ne_zero (seedValue : UInt64) : (seed seedValue).state ≠ 0 := by
  unfold seed
  split
  · exact fun h => absurd h (by decide)
  · assumption

theorem advance_ne_zero {rng : WorkerRng} (h : rng.state ≠ 0) (n : Nat) :
    (advance n rng).state ≠ 0 := by
  induction n with
  | zero => exact h
  | succ n ih =>
      rw [advance, nextU64_of_ne_zero ih]
      exact shifted_ne_zero ih

/-- `n` draws are `n` steps on the bits. -/
theorem toBitVec_advance {rng : WorkerRng} (h : rng.state ≠ 0) (n : Nat) :
    (advance n rng).state.toBitVec = shiftedBits^[n] rng.state.toBitVec := by
  induction n with
  | zero => rfl
  | succ n ih =>
      rw [iterate_succ_apply', ← ih, advance, nextU64_of_ne_zero (advance_ne_zero h n),
        toBitVec_shifted]

theorem advance_add (m n : Nat) (rng : WorkerRng) :
    advance (m + n) rng = advance n (advance m rng) := by
  induction n with
  | zero => rfl
  | succ n ih =>
      show (advance (m + n) rng).nextU64.2 = (advance n (advance m rng)).nextU64.2
      rw [ih]

/-- A draw is the state after it. -/
theorem draw_eq (rng : WorkerRng) (n : Nat) : rng.draw n = (advance n rng.nextU64.2).state := by
  have hnext : advance (1 + n) rng = advance n rng.nextU64.2 := advance_add 1 n rng
  rw [← hnext, Nat.add_comm]
  rfl

/-! ## The cycle -/

section

variable {rng : WorkerRng} (h : rng.state ≠ 0)
include h

/-- Every word but zero is a state, once in a cycle. -/
theorem existsUnique_advance {v : UInt64} (hv : v ≠ 0) :
    ∃! n, n < 2 ^ 64 - 1 ∧ (advance n rng).state = v := by
  have hbits : ∀ u : UInt64, u ≠ 0 → u.toBitVec ≠ 0#64 := fun u hu hzero =>
    hu (UInt64.eq_of_toBitVec_eq hzero)
  have hne : ∀ k, shiftedBits^[k] rng.state.toBitVec ≠ 0#64 := by
    intro k
    rw [← toBitVec_advance h]
    exact hbits _ (advance_ne_zero h k)
  -- the orbit is as long as there are words other than zero
  obtain ⟨n, ⟨hn, hvalue⟩, hunique⟩ :=
    existsUnique_iterate hne (minimalPeriod_shiftedBits (hbits _ h)) (hbits v hv)
  refine ⟨n, ⟨hn, ?_⟩, ?_⟩
  · rw [← toBitVec_advance h] at hvalue
    exact UInt64.eq_of_toBitVec_eq hvalue
  · rintro m ⟨hm, rfl⟩
    exact hunique m ⟨hm, (toBitVec_advance h m).symm⟩

/-- After `2 ^ 64 - 1` draws the first state is back. -/
theorem advance_period : advance (2 ^ 64 - 1) rng = rng := by
  have hbits : rng.state.toBitVec ≠ 0#64 := fun hzero => h (UInt64.eq_of_toBitVec_eq hzero)
  have hperiod := iterate_minimalPeriod (f := shiftedBits) (x := rng.state.toBitVec)
  rw [minimalPeriod_shiftedBits hbits, ← toBitVec_advance h] at hperiod
  exact congrArg WorkerRng.mk (UInt64.eq_of_toBitVec_eq hperiod)

/-- States that differ stay apart. -/
theorem advance_ne {rng' : WorkerRng} (h' : rng'.state ≠ 0) (hne : rng ≠ rng') (n : Nat) :
    advance n rng ≠ advance n rng' := by
  intro heq
  have hbits := congrArg (fun r => r.state.toBitVec) heq
  simp only [toBitVec_advance h, toBitVec_advance h'] at hbits
  -- the step is injective, so its `n`-th power is
  have hstate := UInt64.eq_of_toBitVec_eq (shiftedBits_injective.iterate n hbits)
  exact hne (congrArg WorkerRng.mk hstate)

end

/-- **The full cycle.** From every seed the generator goes through all words but
zero, never replaces a zero, and two generators in different states never meet. -/
theorem nextU64_full_cycle (seedValue : UInt64) :
    (seed seedValue).state ≠ 0 ∧
      (∀ n, shifted (advance n (seed seedValue)).state ≠ 0 ∧
        (advance n (seed seedValue)).nextU64.1 = shifted (advance n (seed seedValue)).state) ∧
      (∀ v, v ≠ 0 → ∃! n, n < 2 ^ 64 - 1 ∧ (advance n (seed seedValue)).state = v) ∧
      (∀ v, v ≠ 0 → ∃! n, n < 2 ^ 64 - 1 ∧ (seed seedValue).draw n = v) ∧
      advance (2 ^ 64 - 1) (seed seedValue) = seed seedValue ∧
      ∀ (other : UInt64) (m n : Nat), advance m (seed seedValue) ≠ advance n (seed other) →
        ∀ k, advance (m + k) (seed seedValue) ≠ advance (n + k) (seed other) := by
  have hseed := seed_ne_zero seedValue
  refine ⟨hseed, ?_, fun v hv => existsUnique_advance hseed hv, ?_, advance_period hseed, ?_⟩
  · intro n
    have hn := advance_ne_zero hseed n
    exact ⟨shifted_ne_zero hn, by rw [nextU64_of_ne_zero hn]⟩
  · intro v hv
    simp only [draw_eq]
    exact existsUnique_advance (advance_ne_zero hseed 1) hv
  · intro other m n hne k
    rw [advance_add, advance_add]
    exact advance_ne (advance_ne_zero hseed m) (advance_ne_zero (seed_ne_zero other) n) hne k

/-- From the seed 0, which is replaced, the state 0xDEADBEEF comes once. -/
theorem nextU64_full_cycle_sample :
    (seed 0).state = 1 ∧ ∃! n, n < 2 ^ 64 - 1 ∧ (advance n (seed 0)).state = 0xDEADBEEF :=
  ⟨rfl, (nextU64_full_cycle 0).2.2.1 0xDEADBEEF (by decide)⟩

end WorkerRng

end RtbEngine
