/-
# Short decimals read back

A search for a short decimal ends with one that is read as the magnitude that it was made for.
It also ends with one that is large enough: its coefficient is not below the digits of the
magnitude that are left of its last place. This bounds its digits from below, and so a magnitude
of at least one ten-thousandth is never laid out with an exponent.

Zeros at the end of the digits are dropped, which moves no digit. There is always a place after
the point, because a decimal without one is a whole number, and what a whole number is rounded
to is whole as well, or infinite.
-/

import Mathlib.Data.List.DropRight
import LoxFront.Proofs.Binary64.Numeral
import LoxFront.Proofs.Binary64.Rounding
import LoxFront.Proofs.Binary64.Spelling

namespace LoxFront.Binary64

/-! ## The search -/

/-- The number of decimal units in one. -/
def decimalUnitsPerOne : Nat := Nat.pow 10 1074

theorem decimalUnitsPerOne_pos : 0 < decimalUnitsPerOne := by decide +kernel

theorem decimalUnitsPerOne_eq_pow {places : Nat} (all : places = 1074) :
    decimalUnitsPerOne = 10 ^ places := by
  obtain ⟨exponent, same, power⟩ : ∃ exponent, exponent = 1074 ∧
    decimalUnitsPerOne = 10 ^ exponent := ⟨1074, rfl, by decide +kernel⟩
  rw [power, same, all]

/-- Every unit is a number of decimal units. -/
theorem exists_decimalUnits_eq :
    ∃ fives, decimalUnitsPerOne = fives * unitsPerOne ∧
      ∀ magnitude : Magnitude, magnitude.decimalUnits = magnitude.units * fives :=
  ⟨Nat.pow 5 1074, by decide +kernel, fun _ => rfl⟩

theorem Decimal.rounded_eq (decimal : Decimal) :
    decimal.rounded = nearest (decimal.coefficient * 10 ^ decimal.places) decimalUnitsPerOne := by
  unfold rounded decimalUnitsPerOne
  rfl

/-- A rounded quotient is one of the two numbers around it. -/
theorem divideToEven_eq_or (numerator denominator : Nat) :
    divideToEven numerator denominator = numerator / denominator ∨
      divideToEven numerator denominator = numerator / denominator + 1 := by
  unfold divideToEven
  dsimp only
  split
  · exact .inl rfl
  · split
    · exact .inr rfl
    · omega

/-- A decimal is read as a magnitude, and its coefficient is not below what the magnitude has on
the grid of the decimal. -/
structure Decimal.ReadsBack (decimal : Decimal) (magnitude : Magnitude) : Prop where
  rounded_eq : decimal.rounded = magnitude
  le_coefficient : magnitude.decimalUnits / 10 ^ decimal.places ≤ decimal.coefficient

namespace Magnitude

variable {magnitude : Magnitude}

theorem readsBack_decimalUnits (magnitude : Magnitude) :
    Decimal.ReadsBack ⟨magnitude.decimalUnits, 0⟩ magnitude := by
  constructor
  · rw [Decimal.rounded_eq]
    refine nearest_eq_of_units decimalUnitsPerOne_pos ?_
    obtain ⟨fives, one, exact⟩ := exists_decimalUnits_eq
    rw [one, exact, Nat.pow_zero, Nat.mul_one, Nat.mul_assoc]
  · rw [Nat.pow_zero, Nat.div_one]

/-- What is found on a grid lies on this grid and reads back. -/
theorem onGrid?_spec {places : Nat} {decimal : Decimal}
    (found : magnitude.onGrid? places = some decimal) :
    decimal.places = places ∧ decimal.ReadsBack magnitude := by
  unfold onGrid? at found
  dsimp only at found
  split at found
  · next below =>
    split at found
    · next above =>
      cases found
      rcases divideToEven_eq_or magnitude.decimalUnits (Nat.pow 10 places) with same | next
      · rw [same]
        exact ⟨rfl, below, Nat.le_refl _⟩
      · rw [next]
        exact ⟨rfl, above, Nat.le_succ _⟩
    · cases found
      exact ⟨rfl, below, Nat.le_refl _⟩
  · split at found
    · next above =>
      cases found
      exact ⟨rfl, above, Nat.le_succ _⟩
    · cases found

/-- A search ends on a grid that is not coarser than the first one, with what reads back. -/
theorem shortestFrom_spec (magnitude : Magnitude) (places : Nat) :
    (magnitude.shortestFrom places).places ≤ places ∧
      (magnitude.shortestFrom places).ReadsBack magnitude := by
  induction places with
  | zero =>
      rw [shortestFrom]
      exact ⟨Nat.le_refl 0, magnitude.readsBack_decimalUnits⟩
  | succ places ih =>
      rw [shortestFrom]
      cases found : magnitude.onGrid? (places + 1) with
      | some decimal =>
          obtain ⟨same, readsBack⟩ := onGrid?_spec found
          exact ⟨same.le, readsBack⟩
      | none => exact ⟨Nat.le_succ_of_le ih.1, ih.2⟩

theorem readsBack_shortest (magnitude : Magnitude) : magnitude.shortest.ReadsBack magnitude :=
  (magnitude.shortestFrom_spec _).2

/-- The shortest decimal of a positive magnitude has a digit that is not zero, since the coarsest
grid leaves one. -/
theorem coefficient_shortest_pos (positive : 0 < magnitude.decimalUnits) :
    0 < magnitude.shortest.coefficient := by
  obtain ⟨coarsest, readsBack⟩ := magnitude.shortestFrom_spec
    ((Nat.toDigits 10 magnitude.decimalUnits).length - 1)
  have some := List.length_pos_iff.mpr (@Nat.toDigits_ne_nil magnitude.decimalUnits 10)
  have leading : 10 ^ ((Nat.toDigits 10 magnitude.decimalUnits).length - 1) ≤
      magnitude.decimalUnits := by
    by_contra small
    rcases Nat.eq_zero_or_pos ((Nat.toDigits 10 magnitude.decimalUnits).length - 1) with one | more
    · rw [one] at small
      omega
    · have short := (Nat.length_toDigits_le_iff (by decide) more).mpr (Nat.lt_of_not_le small)
      omega
  exact Nat.lt_of_lt_of_le (Nat.div_pos
    (Nat.le_trans (Nat.pow_le_pow_right (by decide) coarsest) leading)
    (Nat.pow_pos (by decide))) readsBack.le_coefficient

end Magnitude

/-! ## The layout -/

namespace Decimal

variable {decimal : Decimal}

/-- The digits of a decimal are those of its coefficient up to zeros at the end, and all of them
count for the position of the point. -/
theorem digits_spec (decimal : Decimal) :
    ∃ zeros, Nat.toDigits 10 decimal.coefficient = decimal.digits.1 ++ List.replicate zeros '0' ∧
      decimal.digits.2 = decimal.digits.1.length + (zeros + decimal.places : Nat) - 1074 := by
  let all := Nat.toDigits 10 decimal.coefficient
  have zero : ∀ c ∈ all.rtakeWhile (· == '0'), c = '0' := fun c member =>
    eq_of_beq (@List.mem_rtakeWhile_imp _ (· == '0') _ _ member)
  have dropped := List.eq_replicate_of_mem zero
  have whole : all = decimal.digits.1 ++ all.rtakeWhile (· == '0') :=
    List.rdropWhile_append_rtakeWhile.symm
  refine ⟨(all.rtakeWhile (· == '0')).length, dropped ▸ whole, ?_⟩
  have length := congrArg List.length whole
  rw [List.length_append] at length
  change (all.length : Int) + decimal.places - 1074 = _
  omega

/-- The coefficient of a decimal is read off its digits. -/
theorem coefficient_eq {zeros : Nat}
    (all : Nat.toDigits 10 decimal.coefficient =
      decimal.digits.1 ++ List.replicate zeros '0') :
    decimal.coefficient = 10 ^ zeros * Nat.ofDigitChars 10 decimal.digits.1 0 := by
  rw [← Nat.ofDigitChars_replicate_zero, ← Nat.ofDigitChars_append, ← all,
    Nat.ofDigitChars_toDigits (by decide) (by decide)]

end Decimal

/-- Digits around a point that some of them are behind are a numeral. Zeros before the first of
them change nothing. -/
theorem isNumeral_pointed {digits : List Char} {position : Int}
    (numeric : ∀ c ∈ digits, c.isDigit = true) (nonempty : digits ≠ [])
    (behind : position < digits.length) :
    ∃ whole fraction, IsNumeral (pointed digits position).toList whole fraction ∧
      Nat.ofDigitChars 10 (whole ++ fraction) 0 = Nat.ofDigitChars 10 digits 0 ∧
      (fraction.length : Int) = digits.length - position := by
  unfold pointed
  split
  · refine ⟨['0'], List.replicate (-position).toNat '0' ++ digits,
      ⟨List.cons_ne_nil _ _, ?_, .inr ⟨by simp, by simp [nonempty]⟩⟩, ?_, ?_⟩
    · rw [← List.append_assoc, List.forall_mem_append]
      refine ⟨fun c member => ?_, numeric⟩
      rw [← List.replicate_one, ← List.replicate_add] at member
      rw [List.eq_of_mem_replicate member]
      rfl
    · rw [← List.append_assoc, ← List.replicate_one, ← List.replicate_add,
        Nat.ofDigitChars_append, Nat.ofDigitChars_replicate_zero, Nat.mul_zero]
    · rw [List.length_append, List.length_replicate]
      omega
  · refine ⟨digits.take position.toNat, digits.drop position.toNat,
      ⟨?_, ?_, .inr ⟨by simp, ?_⟩⟩, ?_, ?_⟩
    · rw [Ne, List.take_eq_nil_iff, not_or]
      exact ⟨by omega, nonempty⟩
    · rwa [List.take_append_drop]
    · rw [Ne, List.drop_eq_nil_iff]
      omega
    · rw [List.take_append_drop]
    · rw [List.length_drop]
      omega

namespace Decimal

variable {decimal : Decimal}

/-- A decimal that is laid out around a point is a numeral of the same value. -/
theorem isNumeral_toText (positive : 0 < decimal.coefficient) (large : -4 < decimal.digits.2)
    (behind : decimal.digits.2 < decimal.digits.1.length) :
    ∃ whole fraction, IsNumeral decimal.toText.toList whole fraction ∧
      ofDigits whole fraction = .signed false decimal.rounded := by
  obtain ⟨zeros, all, position⟩ := decimal.digits_spec
  have coefficient := coefficient_eq all
  have nonempty : decimal.digits.1 ≠ [] := by
    intro empty
    rw [coefficient, empty, Nat.ofDigitChars_nil, Nat.mul_zero] at positive
    exact Nat.lt_irrefl 0 positive
  obtain ⟨whole, fraction, isNumeral, value, length⟩ :=
    isNumeral_pointed decimal.isDigit_of_mem_digits nonempty behind
  refine ⟨whole, fraction, ?_, ?_⟩
  · unfold toText
    dsimp only
    rwa [if_pos large]
  · have places : zeros + decimal.places + fraction.length = 1074 := by omega
    have power : 0 < Nat.pow 10 fraction.length := Nat.pow_pos (by decide)
    rw [ofDigits, value, rounded_eq]
    refine congrArg (signed false) (nearest_eq_nearest power decimalUnitsPerOne_pos ?_)
    rw [decimalUnitsPerOne_eq_pow places, coefficient, Nat.pow_add, Nat.pow_add, Nat.pow_eq]
    ring

end Decimal

/-! ## Whole numbers -/

theorem divideToEven_mul (quotient : Nat) {denominator : Nat} (positive : 0 < denominator) :
    divideToEven (quotient * denominator) denominator = quotient := by
  unfold divideToEven
  dsimp only
  rw [Nat.mul_mod_left, Nat.mul_zero, if_pos positive, Nat.mul_div_cancel _ positive]

theorem Magnitude.isIntegral_iff {magnitude : Magnitude} :
    magnitude.isIntegral = true ↔
      magnitude ≠ Magnitude.infinity ∧ unitsPerOne ∣ magnitude.units := by
  rw [Nat.dvd_iff_mod_eq_zero]
  unfold isIntegral unitsPerOne
  rw [Bool.and_eq_true, bne_iff_ne, beq_iff_eq]

/-- What a whole number is rounded to is whole, or infinite. Where one is as wide as a number of
steps, a whole number is a place among them, and elsewhere all places are whole numbers. -/
theorem isIntegral_nearest {number : Nat} (finite : nearest number 1 ≠ Magnitude.infinity) :
    (nearest number 1).isIntegral = true := by
  refine Magnitude.isIntegral_iff.mpr ⟨finite, ?_⟩
  rw [units_nearest Nat.one_pos finite]
  generalize scale : scaleOf (number * unitsPerOne) 1 = width
  rcases unitsPerOne_dvd_or width with wide | ⟨steps, one⟩
  · exact Nat.dvd_mul_left_of_dvd wide _
  · have place : placeOf (number * unitsPerOne) 1 = number * steps := by
      rw [placeOf, scale, Nat.one_mul, one, Nat.mul_comm (2 ^ width), ← Nat.mul_assoc,
        divideToEven_mul _ (Nat.two_pow_pos width)]
    rw [place, Nat.mul_assoc, Nat.mul_comm steps, ← one]
    exact Nat.dvd_mul_left _ _

/-- A decimal with nothing behind the point is rounded as a whole number is. -/
theorem Decimal.isIntegral_rounded {decimal : Decimal}
    (whole : decimal.digits.1.length ≤ decimal.digits.2)
    (finite : decimal.rounded ≠ Magnitude.infinity) : decimal.rounded.isIntegral = true := by
  obtain ⟨zeros, all, position⟩ := decimal.digits_spec
  have coefficient := coefficient_eq all
  obtain ⟨more, places⟩ : ∃ more, zeros + decimal.places = more + 1074 :=
    Nat.exists_eq_add_of_le' (by omega)
  have one := decimalUnitsPerOne_eq_pow (show zeros + decimal.places - more = 1074 by omega)
  have power : 10 ^ (zeros + decimal.places) = 10 ^ more * decimalUnitsPerOne := by
    rw [one, ← Nat.pow_add, Nat.add_sub_of_le (by omega)]
  have same : decimal.rounded =
      nearest (Nat.ofDigitChars 10 decimal.digits.1 0 * 10 ^ more) 1 := by
    rw [rounded_eq]
    refine nearest_eq_nearest decimalUnitsPerOne_pos Nat.one_pos ?_
    rw [Nat.mul_one, coefficient, Nat.mul_right_comm, ← Nat.pow_add, power, Nat.mul_right_comm,
      Nat.mul_comm (10 ^ more), Nat.mul_right_comm]
  rw [same] at finite ⊢
  exact isIntegral_nearest finite

/-! ## The text of a magnitude -/

namespace Magnitude

variable {magnitude : Magnitude}

theorem integerPart_eq (magnitude : Magnitude) :
    magnitude.integerPart = magnitude.units / unitsPerOne := by
  unfold integerPart unitsPerOne
  rfl

/-- The text of a whole number is the numeral of this number. -/
theorem isNumeral_toString (integral : magnitude.isIntegral = true) :
    IsNumeral (toString magnitude.integerPart).toList (Nat.toDigits 10 magnitude.integerPart) [] ∧
      ofDigits (Nat.toDigits 10 magnitude.integerPart) [] = .signed false magnitude := by
  constructor
  · rw [Nat.toString_eq_repr, Nat.repr_eq_ofList_toDigits, String.toList_ofList]
    exact .of_digits Nat.toDigits_ne_nil fun c member =>
      Nat.isDigit_of_mem_toDigits (by decide) (by decide) member
  · rw [ofDigits, List.append_nil, Nat.ofDigitChars_toDigits (by decide) (by decide)]
    refine congrArg (signed false) (nearest_eq_of_units Nat.one_pos ?_)
    rw [integerPart_eq, Nat.div_mul_cancel (isIntegral_iff.mp integral).2]
    exact (Nat.mul_one _).symm

/-- The digits of a magnitude of at least one ten-thousandth are laid out around a point. With
fewer of them the shortest decimal would be smaller than this. -/
theorem lt_position_shortest (large : decimalUnitsPerOne ≤ 10000 * magnitude.decimalUnits) :
    -4 < magnitude.shortest.digits.2 := by
  let digits := Nat.toDigits 10 magnitude.shortest.coefficient
  have some : 0 < digits.length := List.length_pos_iff.mpr Nat.toDigits_ne_nil
  have digitsOf : magnitude.shortest.coefficient < 10 ^ digits.length :=
    (Nat.length_toDigits_le_iff (by decide) some).mp (Nat.le_refl _)
  have below : magnitude.decimalUnits < 10 ^ (digits.length + magnitude.shortest.places) := by
    rw [Nat.pow_add, ← Nat.div_lt_iff_lt_mul (Nat.pow_pos (by decide))]
    exact Nat.lt_of_le_of_lt magnitude.readsBack_shortest.le_coefficient digitsOf
  by_contra small
  obtain ⟨more, places⟩ : ∃ more, digits.length + magnitude.shortest.places + 4 + more = 1074 := by
    have position : magnitude.shortest.digits.2 =
      (digits.length : Int) + magnitude.shortest.places - 1074 := rfl
    exact ⟨1074 - (digits.length + magnitude.shortest.places + 4), by omega⟩
  have above : 10 ^ (digits.length + magnitude.shortest.places) * 10 ^ 4 ≤
      decimalUnitsPerOne := by
    rw [decimalUnitsPerOne_eq_pow places, ← Nat.pow_add]
    exact Nat.pow_le_pow_right (by decide) (Nat.le_add_right _ _)
  omega

/-- The text of a whole number, or of a magnitude of at least one ten-thousandth, is a numeral
that is read as the magnitude. -/
theorem isNumeral_toText (finite : magnitude ≠ infinity)
    (plain : magnitude.isIntegral = true ∨ unitsPerOne ≤ 10000 * magnitude.units) :
    ∃ whole fraction, IsNumeral magnitude.toText.toList whole fraction ∧
      ofDigits whole fraction = .signed false magnitude := by
  unfold toText
  rw [if_neg finite]
  by_cases integral : magnitude.isIntegral = true
  · rw [if_pos integral]
    exact ⟨_, _, isNumeral_toString integral⟩
  · rw [if_neg integral]
    have large := plain.resolve_left integral
    have readsBack := magnitude.readsBack_shortest
    have decimalLarge : decimalUnitsPerOne ≤ 10000 * magnitude.decimalUnits := by
      obtain ⟨fives, one, exact⟩ := exists_decimalUnits_eq
      rw [one, exact, Nat.mul_comm fives, ← Nat.mul_assoc]
      exact Nat.mul_le_mul_right fives large
    have positive : 0 < magnitude.decimalUnits := by
      have := decimalUnitsPerOne_pos
      omega
    have behind : magnitude.shortest.digits.2 < magnitude.shortest.digits.1.length := by
      by_contra whole
      refine integral ?_
      rw [← readsBack.rounded_eq] at finite ⊢
      exact Decimal.isIntegral_rounded (Int.not_lt.mp whole) finite
    obtain ⟨whole, fraction, isNumeral, value⟩ := Decimal.isNumeral_toText
      (coefficient_shortest_pos positive) (lt_position_shortest decimalLarge) behind
    exact ⟨whole, fraction, isNumeral, readsBack.rounded_eq ▸ value⟩

end Magnitude

end LoxFront.Binary64
