/-
# What a blank separates

No piece goes on with a blank, except for a string, which ends with its own quote, a
string that is not closed, and a comment, which ends with its line. So a text that is
followed by a blank has the pieces that it has alone, and what comes after the blank
has its own pieces as well. `EndsBefore` names the pieces for which this holds.

The piece at the front of a text is also the piece at the front of its own characters,
so single pieces can be put into another text.
-/

import Mathlib.Data.List.TakeWhile
import LoxFront.Proofs.Source.Longest

namespace LoxFront

attribute [ext] Piece

/-- The blanks and line breaks that stand between lexemes. -/
def layoutCharacters : List Char := [' ', '\t', '\r', '\n']

namespace Piece

/-- A piece does not go on with a blank. -/
def EndsBefore (blank : Char) (piece : Piece) : Prop :=
  piece.shape ≠ .openString ∧ (piece.shape = .comment → blank = '\n')

variable {c blank : Char} {rest after : List Char} {piece : Piece} {pieces : List Piece}

theorem takeWhile_append_cons {p : Char → Bool} (stops : p blank = false) :
    (rest ++ blank :: after).takeWhile p = rest.takeWhile p := by
  rw [List.takeWhile_append]
  split
  · next whole =>
    rw [List.takeWhile_cons_of_neg (by simp [stops]), List.append_nil]
    exact ((List.takeWhile_prefix p).eq_of_length whole).symm
  · rfl

theorem takeWhile_append_of_mem {quote : Char} (closed : quote ∈ rest) (after : List Char) :
    (rest ++ after).takeWhile (· != quote) = rest.takeWhile (· != quote) := by
  rw [List.takeWhile_append, if_neg]
  intro whole
  have same := (List.takeWhile_prefix (· != quote)).eq_of_length whole
  have other := List.takeWhile_eq_self_iff.mp same quote closed
  simp at other

theorem head?_append_cons_eq_iff {d : Char} (other : d ≠ blank) :
    (rest ++ blank :: after).head? = some d ↔ rest.head? = some d := by
  cases rest with
  | nil => simp [Ne.symm other]
  | cons first rest => simp

section Blank

variable (isBlank : blank ∈ layoutCharacters)

include isBlank

theorem ne_of_not_mem_layoutCharacters {d : Char} (other : d ∉ layoutCharacters) : d ≠ blank := by
  rintro rfl
  exact other isBlank

theorem withEqual_append_cons (alone together : TokenKind) :
    withEqual c (rest ++ blank :: after) alone together = withEqual c rest alone together := by
  have other : '=' ≠ blank := ne_of_not_mem_layoutCharacters isBlank (by decide)
  rw [withEqual, withEqual]
  simp only [head?_append_cons_eq_iff other]

theorem isWordPart_eq_false_of_mem : isWordPart blank = false := by
  have none : layoutCharacters.any isWordPart = false := by decide
  simpa using List.any_eq_false.mp none blank isBlank

theorem isDigit_eq_false_of_mem : blank.isDigit = false :=
  (Bool.or_eq_false_iff.mp (isWordPart_eq_false_of_mem isBlank)).2

theorem numeralTail_append_cons :
    numeralTail (rest ++ blank :: after) = numeralTail rest := by
  have noDigit := isDigit_eq_false_of_mem isBlank
  have noPoint : blank ≠ '.' := (ne_of_not_mem_layoutCharacters isBlank (by decide)).symm
  have left : (rest ++ blank :: after).dropWhile Char.isDigit =
      rest.dropWhile Char.isDigit ++ blank :: after := by
    rw [List.dropWhile_append]
    split
    · next none =>
      rw [List.isEmpty_iff.mp none, List.dropWhile_cons_of_neg (by simp [noDigit])]
      rfl
    · rfl
  unfold numeralTail
  rw [takeWhile_append_cons noDigit, left]
  cases rest.dropWhile Char.isDigit with
  | nil => simp [noPoint]
  | cons d fraction =>
      by_cases point : d = '.'
      · subst point
        simp only [List.cons_append, takeWhile_append_cons noDigit]
      · simp [point]

/-- The piece at the front of a text stays the same before a blank. -/
theorem longest_append_cons (ends : (longest c rest).EndsBefore blank) :
    longest c (rest ++ blank :: after) = longest c rest := by
  unfold longest at ends ⊢
  split at ends
  case h_11 | h_12 | h_13 | h_14 => exact withEqual_append_cons isBlank _ _
  case h_15 =>
    have other : '/' ≠ blank := ne_of_not_mem_layoutCharacters isBlank (by decide)
    simp only [head?_append_cons_eq_iff other]
    split
    · next isComment =>
      rw [if_pos isComment] at ends
      rw [takeWhile_append_cons (by simp [ends.2 rfl])]
    · rfl
  case h_20 =>
    have other : '"' ≠ blank := ne_of_not_mem_layoutCharacters isBlank (by decide)
    by_cases closed : '"' ∈ rest
    · rw [if_pos (List.mem_append_left _ closed), if_pos closed, takeWhile_append_of_mem closed]
    · rw [if_neg closed] at ends
      exact absurd rfl ends.1
  case h_21 =>
    rw [numeralTail_append_cons isBlank,
      takeWhile_append_cons (isWordPart_eq_false_of_mem isBlank)]
  all_goals rfl

/-- A text before a blank has the pieces that it has alone. -/
theorem split_append_cons (text after : List Char)
    (ends : ∀ piece ∈ split text, piece.EndsBefore blank) :
    split (text ++ blank :: after) = split text ++ split (blank :: after) := by
  induction text using split.induct with
  | case1 => rw [split, List.nil_append, List.nil_append]
  | case2 c rest piece ih =>
      have within := (others_longest_isPrefix c rest).length_le
      rw [split, List.forall_mem_cons] at ends
      rw [List.cons_append, split, split, longest_append_cons isBlank ends.1,
        List.drop_append_of_le_length within, ih ends.2, List.cons_append]

/-- A blank is a piece of its own. -/
theorem split_blank_cons (after : List Char) :
    split (blank :: after) = ⟨.layout, blank, []⟩ :: split after := by
  have alone : longest blank after = ⟨.layout, blank, []⟩ := by
    revert isBlank
    simp only [layoutCharacters, List.mem_cons, List.not_mem_nil, or_false]
    rintro (rfl | rfl | rfl | rfl) <;> rfl
  rw [split, alone]
  rfl

end Blank

/-- The piece at the front of a text is the one at the front of its own characters. -/
theorem longest_others (c : Char) (rest : List Char) :
    longest c (longest c rest).others = longest c rest := by
  have admits := longest_admits c rest
  rw [text, first_longest] at admits
  have whole := takesWhole_of_admits admits []
  rw [TakesWhole, List.append_nil] at whole
  have others : (longest c (longest c rest).others).others = (longest c rest).others :=
    ((others_longest_isPrefix c _).eq_of_length_le whole.1.length_le)
  have first : (longest c (longest c rest).others).first = (longest c rest).first := by
    rw [first_longest, first_longest]
  exact Piece.ext (whole.2 rfl) first others

/-- The pieces of a text are each found in their own characters. -/
theorem split_text_of_mem_split {source : List Char} (member : piece ∈ split source) :
    split piece.text = [piece] := by
  induction source using split.induct with
  | case1 => simp [split] at member
  | case2 c rest front ih =>
      rw [split, List.mem_cons] at member
      rcases member with rfl | later
      · rw [text, first_longest, split, longest_others, List.drop_length, split]
      · exact ih later

end Piece

end LoxFront
