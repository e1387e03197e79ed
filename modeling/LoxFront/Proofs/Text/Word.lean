/-
# Words

A word is a text that is not empty and holds neither a blank nor a parenthesis. Where a
blank or a parenthesis follows it, its end can be seen: two texts that begin with words are
the same only if the words are the same and what follows them is.
-/

import Mathlib.Data.List.TakeWhile

namespace LoxFront

/-- The characters that stand between words. -/
def delimiters : List Char := [' ', '(', ')']

/-- No delimiter stands in a text. -/
def Unbroken (text : String) : Prop :=
  ∀ c ∈ text.toList, c ∉ delimiters

instance (text : String) : Decidable (Unbroken text) :=
  List.decidableBAll (· ∉ delimiters) text.toList

/-- A text that can be told from what stands around it. -/
structure IsWord (text : String) : Prop where
  nonempty : text ≠ ""
  unbroken : Unbroken text

instance (text : String) : Decidable (IsWord text) :=
  decidable_of_iff (text ≠ "" ∧ Unbroken text)
    ⟨fun both => ⟨both.1, both.2⟩, fun isWord => ⟨isWord.nonempty, isWord.unbroken⟩⟩

/-- A word that stands in front of a text ends there. -/
def EndsWord (after : List Char) : Prop :=
  ∀ c ∈ after.head?, c ∈ delimiters

theorem endsWord_nil : EndsWord [] := by simp [EndsWord]

theorem endsWord_blank (rest : List Char) : EndsWord (' ' :: rest) := by
  simp [EndsWord, delimiters]

theorem endsWord_close (rest : List Char) : EndsWord (')' :: rest) := by
  simp [EndsWord, delimiters]

namespace Unbroken

variable {first second : String} {letters : List Char}

theorem append (one : Unbroken first) (two : Unbroken second) : Unbroken (first ++ second) := by
  rw [Unbroken, String.toList_append]
  exact List.forall_mem_append.mpr ⟨one, two⟩

theorem isWord_append (one : Unbroken first) (two : IsWord second) : IsWord (first ++ second) :=
  ⟨by simp [two.nonempty], one.append two.unbroken⟩

/-- No digit is a delimiter. -/
theorem of_digits (digits : ∀ c ∈ letters, c.isDigit = true) :
    Unbroken (String.ofList letters) := by
  have others : ∀ c ∈ delimiters, c.isDigit = false := by simp [delimiters, Char.isDigit]
  intro c member delimiter
  rw [String.toList_ofList] at member
  exact absurd (digits c member) (by simp [others c delimiter])

end Unbroken

namespace IsWord

variable {word other : String} {after rest : List Char}

/-- A word is what stands in front of the first delimiter. -/
theorem takeWhile_append (isWord : IsWord word) (ends : EndsWord after) :
    (word.toList ++ after).takeWhile (· ∉ delimiters) = word.toList := by
  have none : after.takeWhile (· ∉ delimiters) = [] := by
    cases after with
    | nil => rfl
    | cons c after => simp [ends c rfl]
  rw [List.takeWhile_append_of_pos fun c member => by simpa using isWord.unbroken c member,
    none, List.append_nil]

/-- A word determines itself and what follows it. -/
theorem append_inj (isWord : IsWord word) (isOther : IsWord other) (ends : EndsWord after)
    (endsOther : EndsWord rest) (same : word.toList ++ after = other.toList ++ rest) :
    word = other ∧ after = rest := by
  have text : word.toList = other.toList := by
    rw [← isWord.takeWhile_append ends, same, isOther.takeWhile_append endsOther]
  rw [text, List.append_cancel_left_eq] at same
  exact ⟨String.toList_inj.mp text, same⟩

/-- A word in front of a blank determines itself and what follows the blank. -/
theorem append_blank_inj (isWord : IsWord word) (isOther : IsWord other)
    (same : word.toList ++ ' ' :: after = other.toList ++ ' ' :: rest) :
    word = other ∧ after = rest := by
  obtain ⟨text, left⟩ :=
    isWord.append_inj isOther (endsWord_blank _) (endsWord_blank _) same
  exact ⟨text, List.tail_eq_of_cons_eq left⟩

/-- No word begins with a parenthesis. -/
theorem append_ne_cons (isWord : IsWord word) (after rest : List Char) :
    word.toList ++ after ≠ '(' :: rest := by
  intro same
  cases letters : word.toList with
  | nil => exact isWord.nonempty (String.toList_eq_nil_iff.mp letters)
  | cons c others =>
      rw [letters, List.cons_append, List.cons.injEq] at same
      refine isWord.unbroken c (letters ▸ List.mem_cons_self) ?_
      rw [same.1]
      decide

end IsWord

end LoxFront
