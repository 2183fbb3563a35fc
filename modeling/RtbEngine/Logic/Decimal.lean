import Mathlib.Data.Nat.Digits.Lemmas
import Mathlib.Tactic.Linarith
import RtbEngine.Engine.Benchmark
import RtbEngine.Engine.CampaignStore
import RtbEngine.Lib.Json

/-!
# Decimal texts

What is written in decimal is what `from_chars` reads, and what a reader of
JSON takes for the number.
-/

namespace RtbEngine

open Lib

/-! ## Digits -/

/-- The digit `d` as it is written. -/
def digitByte (d : Nat) : UInt8 := UInt8.ofNat (48 + d)

theorem toNat_digitByte {d : Nat} (h : d < 10) : (digitByte d).toNat = 48 + d := by
  unfold digitByte
  rw [UInt8.toNat_ofNat']
  omega

theorem isDigit_digitByte {d : Nat} (h : d < 10) : isDigit (digitByte d) = true := by
  have hnat := toNat_digitByte h
  unfold isDigit
  rw [Bool.and_eq_true, decide_eq_true_iff, decide_eq_true_iff, UInt8.le_iff_toNat_le,
    UInt8.le_iff_toNat_le, hnat]
  constructor
  · show 48 ≤ 48 + d
    omega
  · show 48 + d ≤ 57
    omega

theorem isDigit_toNat {c : UInt8} (h : isDigit c = true) : 48 ≤ c.toNat ∧ c.toNat ≤ 57 := by
  unfold isDigit at h
  rw [Bool.and_eq_true, decide_eq_true_iff, decide_eq_true_iff, UInt8.le_iff_toNat_le,
    UInt8.le_iff_toNat_le] at h
  exact h

/-- Digits from the lowest to the highest, written in the usual order. -/
theorem digitsValue_reverse {digits : List Nat} (h : ∀ d ∈ digits, d < 10) :
    digitsValue (digits.reverse.map digitByte) = Nat.ofDigits 10 digits := by
  unfold digitsValue
  rw [List.foldl_map, List.foldl_reverse]
  induction digits with
  | nil => rfl
  | cons d digits ih =>
      rw [List.foldr_cons, ih fun e he => h e (List.mem_cons_of_mem _ he), Nat.ofDigits_cons,
        toNat_digitByte (h d List.mem_cons_self)]
      show 10 * Nat.ofDigits 10 digits + (48 + d - 48) = d + 10 * Nat.ofDigits 10 digits
      omega

/-! ## Natural numbers -/

theorem decimal_zero : decimal 0 = [digitByte 0] := rfl

theorem decimal_of_ne_zero {n : Nat} (h : n ≠ 0) :
    decimal n = (Nat.digits 10 n).reverse.map digitByte := by
  unfold decimal
  rw [if_neg h]
  rfl

theorem isDigit_of_mem_decimal {n : Nat} {c : UInt8} (h : c ∈ decimal n) : isDigit c = true := by
  by_cases hn : n = 0
  · subst hn
    rw [decimal_zero, List.mem_singleton] at h
    rw [h]
    exact isDigit_digitByte (by decide)
  · rw [decimal_of_ne_zero hn] at h
    obtain ⟨d, hd, rfl⟩ := List.mem_map.mp h
    exact isDigit_digitByte (Nat.digits_lt_base (by decide) (List.mem_reverse.mp hd))

theorem digitsValue_decimal (n : Nat) : digitsValue (decimal n) = n := by
  by_cases hn : n = 0
  · subst hn
    rfl
  · rw [decimal_of_ne_zero hn,
      digitsValue_reverse fun d hd => Nat.digits_lt_base (by decide) hd, Nat.ofDigits_digits]

theorem decimal_ne_nil (n : Nat) : decimal n ≠ [] := by
  by_cases hn : n = 0
  · subst hn
    exact List.cons_ne_nil _ _
  · intro hnil
    rw [decimal_of_ne_zero hn, List.map_eq_nil_iff, List.reverse_eq_nil_iff,
      Nat.digits_eq_nil_iff_eq_zero] at hnil
    exact hn hnil

/-- No other number starts with a zero. -/
theorem decimal_leading (n : Nat) : decimal n = [48] ∨ (decimal n).head? ≠ some 48 := by
  by_cases hn : n = 0
  · subst hn
    exact .inl rfl
  · right
    intro hhead
    rw [decimal_of_ne_zero hn, List.head?_map, List.head?_reverse,
      List.getLast?_eq_getLast_of_ne_nil (Nat.digits_ne_nil_iff_ne_zero.mpr hn), Option.map_some,
      Option.some.injEq] at hhead
    -- the highest digit is written first, and it is not 0
    have hlast := Nat.getLast_digit_ne_zero 10 hn
    have hlt := Nat.digits_lt_base (b := 10) (m := n) (by decide)
      (List.getLast_mem (Nat.digits_ne_nil_iff_ne_zero.mpr hn))
    have hnat := congrArg UInt8.toNat hhead
    rw [toNat_digitByte hlt] at hnat
    have hzero : (48 : UInt8).toNat = 48 := rfl
    omega

theorem wholeText_decimal (n : Nat) : Json.WholeText (decimal n) where
  ne_nil := decimal_ne_nil n
  digits := fun _ hc => isDigit_of_mem_decimal hc
  leading := decimal_leading n

/-! ## Decimal texts -/

/-- Digits only, at least one, with the value `n`. -/
structure IsDecimal (text : Bytes) (n : Nat) : Prop where
  ne_nil : text ≠ []
  digits : ∀ c ∈ text, isDigit c = true
  value : digitsValue text = n

theorem IsDecimal.takeWhile {text : Bytes} {n : Nat} (h : IsDecimal text n) :
    text.takeWhile isDigit = text :=
  List.takeWhile_eq_self_iff.mpr h.digits

theorem IsDecimal.dropWhile {text : Bytes} {n : Nat} (h : IsDecimal text n) :
    text.dropWhile isDigit = [] :=
  List.dropWhile_eq_nil_iff.mpr h.digits

theorem isDecimal_of_dropWhile {text : Bytes} (hne : (text.takeWhile isDigit).isEmpty = false)
    (hrest : text.dropWhile isDigit = []) :
    IsDecimal text (digitsValue (text.takeWhile isDigit)) := by
  -- nothing is left behind the digits, so they are the whole text
  have hdigits := List.dropWhile_eq_nil_iff.mp hrest
  rw [List.takeWhile_eq_self_iff.mpr hdigits] at hne ⊢
  exact ⟨List.isEmpty_eq_false_iff.mp hne, hdigits, rfl⟩

/-- What `parse_u64` accepts. -/
theorem parseU64_eq_some_iff {text : Bytes} {v : UInt64} :
    parseU64 text = some v ↔ IsDecimal text v.toNat := by
  constructor
  · intro h
    unfold parseU64 at h
    split at h
    · rename_i out hread
      cases h
      unfold fromCharsU64 at hread
      simp only at hread
      split at hread
      · cases hread
      · rename_i hne
        split at hread
        · rename_i hlt
          rw [Option.some.injEq, Prod.mk.injEq] at hread
          obtain ⟨rfl, hrest⟩ := hread
          rw [UInt64.toNat_ofNat_of_lt' hlt]
          exact isDecimal_of_dropWhile (Bool.eq_false_iff.mpr hne) hrest
        · cases hread
    · cases h
  · intro h
    have hempty : text.isEmpty = false := List.isEmpty_eq_false_iff.mpr h.ne_nil
    have hread : fromCharsU64 text = some (v, []) := by
      unfold fromCharsU64
      simp only [h.takeWhile, h.dropWhile, hempty, h.value, Bool.false_eq_true, if_false,
        if_pos v.toNat_lt, UInt64.ofNat_toNat]
    unfold parseU64
    rw [hread]

theorem isDecimal_iff {text : Bytes} {n : Nat} :
    (!text.isEmpty && text.all isDigit && digitsValue text == n) = true ↔ IsDecimal text n := by
  rw [Bool.and_eq_true, Bool.and_eq_true, Bool.not_eq_true', List.isEmpty_eq_false_iff,
    List.all_eq_true, beq_iff_eq]
  exact ⟨fun h => ⟨h.1.1, h.1.2, h.2⟩, fun h => ⟨⟨h.ne_nil, h.digits⟩, h.value⟩⟩

instance (text : Bytes) (n : Nat) : Decidable (IsDecimal text n) :=
  decidable_of_iff _ isDecimal_iff

/-- The number of 64 bits that a text stands for. -/
def decimalNumber (text : Bytes) : Option UInt64 :=
  if IsDecimal text (digitsValue text) ∧ digitsValue text < 2 ^ 64 then
    some (UInt64.ofNat (digitsValue text))
  else none

theorem decimalNumber_eq_some_iff {text : Bytes} {v : UInt64} :
    decimalNumber text = some v ↔ IsDecimal text v.toNat := by
  unfold decimalNumber
  constructor
  · intro h
    split at h
    · rename_i hdecimal
      obtain rfl := Option.some.inj h
      rw [UInt64.toNat_ofNat', Nat.mod_eq_of_lt hdecimal.2]
      exact hdecimal.1
    · cases h
  · intro h
    rw [h.value, if_pos ⟨h, v.toNat_lt⟩, UInt64.ofNat_toNat]

/-- `parse_u64` reads these numbers and no others. -/
theorem parseU64_eq_decimalNumber : parseU64 = decimalNumber := by
  funext text
  ext v
  rw [parseU64_eq_some_iff, decimalNumber_eq_some_iff]

/-! ## `std::to_string` and `from_chars` -/

theorem toDecimal_eq (n : UInt64) : toDecimal n = decimal n.toNat := by
  by_cases hn : n = 0
  · subst hn
    rfl
  · have hne : n.toNat ≠ 0 := fun h0 => hn (UInt64.toNat_inj.mp h0)
    unfold toDecimal decimal
    rw [if_neg hn, if_neg hne]

theorem isDigit_of_mem_toDecimal {n : UInt64} {c : UInt8} (h : c ∈ toDecimal n) :
    isDigit c = true :=
  isDigit_of_mem_decimal (toDecimal_eq n ▸ h)

theorem toDecimal_ne_nil (n : UInt64) : toDecimal n ≠ [] := by
  rw [toDecimal_eq]
  exact decimal_ne_nil _

/-- How `n` is written: in decimal, without leading zeros. -/
structure IsNumeral (text : Bytes) (n : Nat) : Prop extends IsDecimal text n where
  leading : text = [48] ∨ text.head? ≠ some 48

/-- A text of digits, from the lowest to the highest. -/
theorem digits_eq_map {text : Bytes} (h : ∀ c ∈ text, isDigit c = true) :
    ∃ digits : List Nat, (∀ d ∈ digits, d < 10) ∧ text = digits.reverse.map digitByte := by
  refine ⟨(text.map fun c => c.toNat - 48).reverse, ?_, ?_⟩
  · intro d hd
    obtain ⟨c, hc, rfl⟩ := List.mem_map.mp (List.mem_reverse.mp hd)
    have hrange := isDigit_toNat (h c hc)
    omega
  · rw [List.reverse_reverse, List.map_map]
    refine ((List.map_congr_left fun c hc => ?_).trans (List.map_id _)).symm
    have hrange := isDigit_toNat (h c hc)
    show UInt8.ofNat (48 + (c.toNat - 48)) = c
    rw [Nat.add_sub_cancel' hrange.1, UInt8.ofNat_toNat]

/-- There is one way to write a number. -/
theorem isNumeral_iff {text : Bytes} {n : Nat} : IsNumeral text n ↔ text = decimal n := by
  constructor
  · intro h
    rcases h.leading with rfl | hleading
    · have hzero : n = 0 := h.value.symm
      rw [hzero]
      rfl
    · obtain ⟨digits, hlt, htext⟩ := digits_eq_map h.digits
      have hne : digits ≠ [] := by
        rintro rfl
        exact h.ne_nil htext
      have hdigits : Nat.digits 10 n = digits := by
        rw [← h.value, htext, digitsValue_reverse hlt]
        refine Nat.digits_ofDigits 10 (by decide) digits hlt fun hne hlast => hleading ?_
        rw [htext, List.head?_map, List.head?_reverse, List.getLast?_eq_getLast_of_ne_nil hne, hlast]
        rfl
      have hn : n ≠ 0 := by
        rintro rfl
        exact hne hdigits.symm
      rw [htext, decimal_of_ne_zero hn, hdigits]
  · rintro rfl
    exact ⟨⟨decimal_ne_nil n, fun _ => isDigit_of_mem_decimal, digitsValue_decimal n⟩,
      decimal_leading n⟩

theorem isNumeral_toDecimal (n : UInt64) : IsNumeral (toDecimal n) n.toNat :=
  isNumeral_iff.mpr (toDecimal_eq n)

/-- **The number that was written** is read, and nothing is left. -/
theorem parseU64_toDecimal (n : UInt64) : parseU64 (toDecimal n) = some n := by
  have hvalue : digitsValue (toDecimal n) = n.toNat := by
    rw [toDecimal_eq, digitsValue_decimal]
  exact parseU64_eq_some_iff.mpr
    ⟨toDecimal_ne_nil n, fun _ hc => isDigit_of_mem_toDecimal hc, hvalue⟩

/-! ## Numbers in JSON -/

theorem numberText_decimal (n : Nat) :
    Json.NumberText (decimal n) ∧ Json.NumberText (45 :: decimal n) := by
  have hnil : ∀ c, ([] : Bytes).head? = some c → Json.isDigit c = false := nofun
  have h := (wholeText_decimal n).numberText hnil nofun rfl
  rwa [List.append_nil] at h

theorem numberValue_decimal (n : Nat) :
    Json.numberValue (decimal n) = n ∧ Json.numberValue (45 :: decimal n) = -n := by
  have hnil : ∀ c, ([] : Bytes).head? = some c → Json.isDigit c = false := nofun
  have h := (wholeText_decimal n).numberValue hnil
  have hvalue : Json.fractionValue (Json.natValue (decimal n)) [] = n := by
    show ((digitsValue (decimal n) : Nat) : ℚ) * 1 = n
    rw [digitsValue_decimal, mul_one]
  rwa [List.append_nil, hvalue] at h

theorem numberText_signedDecimal (i : Int) : Json.NumberText (signedDecimal i) := by
  unfold signedDecimal
  split
  · exact (numberText_decimal _).2
  · exact (numberText_decimal _).1

theorem numberValue_signedDecimal (i : Int) : Json.numberValue (signedDecimal i) = i := by
  unfold signedDecimal
  split
  · rename_i hneg
    rw [(numberValue_decimal _).2, Nat.cast_natAbs, abs_of_neg hneg, Int.cast_neg, neg_neg]
  · rename_i hneg
    rw [(numberValue_decimal _).1, Nat.cast_natAbs, abs_of_nonneg (not_lt.mp hneg)]

/-- What a double is rounded to. -/
def roundedTwo (q : Double) : ℚ :=
  if q < 0 then -(hundredths q / 100 : ℚ) else hundredths q / 100

/-- Two digits behind the point are hundredths. -/
theorem fraction_twoDigits {n : Nat} (h : n < 100) (whole : Nat) :
    Json.isFraction (46 :: twoDigits n) = true ∧
      (∀ c ∈ 46 :: twoDigits n, Json.isNumberByte c = true) ∧
      Json.fractionValue whole (46 :: twoDigits n) = whole + n / 100 := by
  have htens : Json.isDigit (digitByte (n / 10)) = true := isDigit_digitByte (by omega)
  have hones : Json.isDigit (digitByte (n % 10)) = true := isDigit_digitByte (by omega)
  have htext : twoDigits n = [digitByte (n / 10), digitByte (n % 10)] := rfl
  have htake : (twoDigits n).takeWhile Json.isDigit = twoDigits n := by
    rw [htext, List.takeWhile_cons_of_pos htens, List.takeWhile_cons_of_pos hones]
    rfl
  have hdrop : (twoDigits n).dropWhile Json.isDigit = [] := by
    rw [htext, List.dropWhile_cons_of_pos htens, List.dropWhile_cons_of_pos hones]
    rfl
  have hvalue : Json.natValue (twoDigits n) = n := by
    rw [htext]
    show 10 * (10 * 0 + ((digitByte (n / 10)).toNat - 48)) + ((digitByte (n % 10)).toNat - 48) = n
    rw [toNat_digitByte (show n / 10 < 10 by omega), toNat_digitByte (show n % 10 < 10 by omega)]
    omega
  refine ⟨?_, ?_, ?_⟩
  · rw [Json.isFraction, htake, hdrop]
    rfl
  · intro c hc
    rw [htext] at hc
    simp only [List.mem_cons, List.not_mem_nil, or_false] at hc
    rcases hc with rfl | rfl | rfl
    · rfl
    · exact Json.isNumberByte_of_isDigit htens
    · exact Json.isNumberByte_of_isDigit hones
  · simp only [Json.fractionValue, htake, hdrop, hvalue]
    show (whole + n / 10 ^ 2 : ℚ) * 1 = _
    norm_num

theorem numberText_fixedTwo (q : Double) : Json.NumberText (fixedTwo q) := by
  obtain ⟨hfraction, hbytes, -⟩ := fraction_twoDigits (Nat.mod_lt (hundredths q) (by decide)) 0
  have h := (wholeText_decimal (hundredths q / 100)).numberText (by rintro c ⟨⟩; rfl) hbytes hfraction
  unfold fixedTwo
  split
  · exact h.2
  · exact h.1

theorem numberValue_fixedTwo (q : Double) : Json.numberValue (fixedTwo q) = roundedTwo q := by
  have hpoint : ∀ c, (46 :: twoDigits (hundredths q % 100)).head? = some c →
      Json.isDigit c = false := by
    rintro c ⟨⟩
    rfl
  have h := (wholeText_decimal (hundredths q / 100)).numberValue hpoint
  have hvalue : Json.fractionValue (Json.natValue (decimal (hundredths q / 100)))
      (46 :: twoDigits (hundredths q % 100)) = hundredths q / 100 := by
    obtain ⟨-, -, hfraction⟩ := fraction_twoDigits (Nat.mod_lt (hundredths q) (by decide))
      (Json.natValue (decimal (hundredths q / 100)))
    have hnat : Json.natValue (decimal (hundredths q / 100)) = hundredths q / 100 :=
      digitsValue_decimal _
    -- whole part and fraction together are the hundredths
    have hsum : ((100 * (hundredths q / 100) + hundredths q % 100 : ℕ) : ℚ) = hundredths q :=
      congrArg Nat.cast (Nat.div_add_mod (hundredths q) 100)
    rw [hfraction, hnat]
    push_cast at hsum
    linarith
  rw [hvalue] at h
  unfold fixedTwo roundedTwo
  split
  · exact h.2
  · exact h.1

end RtbEngine
