/-
# Numbers are written as words

Whatever its size, the text of a number is a word: digits, perhaps with a point, an
exponent and signs, or one of the words for what is not a finite number. There is always at
least one character, even though the digits of a decimal are cut at both ends.
-/

import LoxFront.Binary64.Text
import LoxFront.Proofs.Text.Word

namespace LoxFront.Binary64

/-- What is left of the digits of a decimal are digits. -/
theorem Decimal.isDigit_of_mem_digits (decimal : Decimal) :
    ∀ c ∈ decimal.digits.1, c.isDigit = true := by
  intro c member
  rw [Decimal.digits, List.mem_reverse] at member
  have whole := List.mem_reverse.mp ((List.dropWhile_sublist _).mem member)
  exact Nat.isDigit_of_mem_toDigits (by decide) (by decide) whole

theorem isWord_toString (number : Nat) : IsWord (toString number) := by
  rw [Nat.toString_eq_repr, Nat.repr_eq_ofList_toDigits]
  refine ⟨fun empty => Nat.toDigits_ne_nil (String.ofList_eq_empty_iff.mp empty), .of_digits ?_⟩
  exact fun c member => Nat.isDigit_of_mem_toDigits (by decide) (by decide) member

section Digits

variable {digits : List Char} (numeric : ∀ c ∈ digits, c.isDigit = true)

include numeric

theorem isWord_pointed (position : Int) : IsWord (pointed digits position) := by
  unfold pointed
  split
  · refine ⟨by simp, .append (by decide) (.of_digits fun c member => ?_)⟩
    rcases List.mem_append.mp member with zero | digit
    · rw [List.eq_of_mem_replicate zero]
      rfl
    · exact numeric c digit
  · have before : ∀ c ∈ digits.take position.toNat, c.isDigit = true :=
      fun c member => numeric c (List.mem_of_mem_take member)
    have behind : ∀ c ∈ digits.drop position.toNat, c.isDigit = true :=
      fun c member => numeric c (List.mem_of_mem_drop member)
    exact ⟨by simp, ((Unbroken.of_digits before).append (by decide)).append (.of_digits behind)⟩

theorem isWord_withExponent (position : Int) : IsWord (withExponent digits position) := by
  have leading : ∀ c ∈ digits.take 1, c.isDigit = true :=
    fun c member => numeric c (List.mem_of_mem_take member)
  have following : ∀ c ∈ digits.drop 1, c.isDigit = true :=
    fun c member => numeric c (List.mem_of_mem_drop member)
  have exponent := isWord_toString (1 - position).toNat
  unfold withExponent
  refine Unbroken.isWord_append (((Unbroken.of_digits leading).append ?_).append (by decide)) ?_
  · split
    · decide
    · exact .append (by decide) (.of_digits following)
  · split
    · exact Unbroken.isWord_append (by decide) exponent
    · exact exponent

end Digits

theorem Decimal.isWord_toText (decimal : Decimal) : IsWord decimal.toText := by
  unfold Decimal.toText
  dsimp only
  split
  · exact isWord_pointed decimal.isDigit_of_mem_digits _
  · exact isWord_withExponent decimal.isDigit_of_mem_digits _

theorem Magnitude.isWord_toText (magnitude : Magnitude) : IsWord magnitude.toText := by
  unfold Magnitude.toText
  split
  · decide
  · split
    · exact isWord_toString _
    · exact magnitude.shortest.isWord_toText

/-- The text of every value is a word. -/
theorem isWord_toText (value : Binary64) : IsWord value.toText := by
  cases value with
  | nan => decide
  | signed negative magnitude =>
      rw [toText]
      split
      · exact Unbroken.isWord_append (by decide) magnitude.isWord_toText
      · exact magnitude.isWord_toText

end LoxFront.Binary64
