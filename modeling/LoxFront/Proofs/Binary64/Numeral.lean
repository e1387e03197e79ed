/-
# What is read as a numeral

`IsNumeral` says how a numeral looks and what its rows of digits are. Reading finds these rows
again, so a numeral always has a value, and it is the one that its rows stand for.
-/

import Mathlib.Data.List.TakeWhile
import LoxFront.Binary64.Numeral

namespace LoxFront.Binary64

/-- A text is a numeral with the given rows of digits. Without a point it has only one of them,
and with a point there are digits on both sides. -/
structure IsNumeral (text whole fraction : List Char) : Prop where
  nonempty : whole ≠ []
  digits : ∀ c ∈ whole ++ fraction, c.isDigit = true
  rows : text = whole ∧ fraction = [] ∨ text = whole ++ '.' :: fraction ∧ fraction ≠ []

namespace IsNumeral

variable {text whole fraction : List Char}

/-- Digits make a numeral without a point. -/
theorem of_digits (nonempty : text ≠ []) (digits : ∀ c ∈ text, c.isDigit = true) :
    IsNumeral text text [] :=
  ⟨nonempty, by rwa [List.append_nil], .inl ⟨rfl, rfl⟩⟩

theorem ne_nil (isNumeral : IsNumeral text whole fraction) : text ≠ [] := by
  rcases isNumeral.rows with ⟨rfl, -⟩ | ⟨rfl, -⟩
  · exact isNumeral.nonempty
  · simp

/-- Nothing but digits and a point stands in a numeral. -/
theorem isDigit_or_eq_point (isNumeral : IsNumeral text whole fraction) :
    ∀ c ∈ text, c.isDigit = true ∨ c = '.' := by
  intro c member
  rcases isNumeral.rows with ⟨rfl, -⟩ | ⟨rfl, -⟩
  · exact .inl (isNumeral.digits c (List.mem_append_left _ member))
  · rw [List.mem_append, List.mem_cons, or_left_comm, ← List.mem_append] at member
    exact member.symm.imp_left (isNumeral.digits c)

/-- A numeral is read as the value of its rows of digits. -/
theorem ofNumeral?_eq (isNumeral : IsNumeral text whole fraction) :
    ofNumeral? text = some (ofDigits whole fraction) := by
  obtain ⟨nonempty, digits, rows⟩ := isNumeral
  have inWhole : ∀ d ∈ whole, d.isDigit = true := fun d member =>
    digits d (List.mem_append_left _ member)
  have inFraction : fraction.all Char.isDigit = true :=
    List.all_eq_true.mpr fun d member => digits d (List.mem_append_right _ member)
  rcases rows with ⟨rfl, rfl⟩ | ⟨rfl, some⟩
  · have taken : text.takeWhile Char.isDigit = text := List.takeWhile_eq_self_iff.mpr inWhole
    have left : text.dropWhile Char.isDigit = [] := List.dropWhile_eq_nil_iff.mpr inWhole
    simp [ofNumeral?, taken, left, nonempty]
  · have taken : (whole ++ '.' :: fraction).takeWhile Char.isDigit = whole := by
      rw [List.takeWhile_append_of_pos inWhole, List.takeWhile_cons_of_neg (by decide),
        List.append_nil]
    have left : (whole ++ '.' :: fraction).dropWhile Char.isDigit = '.' :: fraction := by
      rw [List.dropWhile_append_of_pos inWhole, List.dropWhile_cons_of_neg (by decide)]
    simp [ofNumeral?, taken, left, nonempty, some, inFraction]

end IsNumeral

end LoxFront.Binary64
