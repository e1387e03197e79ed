/-
# Pieces partition the text

The pieces of a text are cut from its front one after another, and nothing is left
out between them. The two main statements say so for one piece and for all: the
characters of a piece are the ones in front of the text, and the pieces joined
together are the text.
-/

import LoxFront.Source.Piece

namespace LoxFront.Piece

/-- A piece begins with the character that it was read from. -/
theorem first_longest (c : Char) (rest : List Char) : (longest c rest).first = c := by
  unfold longest withEqual
  repeat' split
  all_goals rfl

/-- A mark takes an equals sign only where one follows. -/
theorem others_withEqual_isPrefix (c : Char) (rest : List Char) (alone together : TokenKind) :
    (withEqual c rest alone together).others <+: rest := by
  unfold withEqual
  split
  · next h => cases rest <;> simp_all
  · exact List.nil_prefix

/-- The tail of a numeral stands in front of what follows its first digit. -/
theorem numeralTail_isPrefix (rest : List Char) : numeralTail rest <+: rest := by
  unfold numeralTail
  have whole : rest.takeWhile Char.isDigit ++ rest.dropWhile Char.isDigit = rest :=
    List.takeWhile_append_dropWhile
  split
  · next fraction h =>
    rw [h] at whole
    dsimp only
    split
    · exact List.takeWhile_prefix _
    · conv => rhs; rw [← whole]
      rw [List.prefix_append_right_inj, List.cons_prefix_cons]
      exact ⟨rfl, List.takeWhile_prefix _⟩
  · exact List.takeWhile_prefix _

/-- The contents of a string and its closing quote stand in front of what follows
the opening one. -/
theorem contents_append_quote_isPrefix {rest : List Char} (h : '"' ∈ rest) :
    rest.takeWhile (· != '"') ++ ['"'] <+: rest := by
  induction rest with
  | nil => simp at h
  | cons c rest ih =>
    by_cases hc : c = '"'
    · simp [hc]
    · have later : '"' ∈ rest := by simpa [Ne.symm hc] using h
      simpa [hc] using ih later

/-- The characters of a piece after its first one are the ones that follow in the
text. -/
theorem others_longest_isPrefix (c : Char) (rest : List Char) :
    (longest c rest).others <+: rest := by
  unfold longest
  split <;> try exact List.nil_prefix
  · exact others_withEqual_isPrefix _ _ _ _
  · exact others_withEqual_isPrefix _ _ _ _
  · exact others_withEqual_isPrefix _ _ _ _
  · exact others_withEqual_isPrefix _ _ _ _
  · split
    · exact List.takeWhile_prefix _
    · exact List.nil_prefix
  · split
    · next h => exact contents_append_quote_isPrefix h
    · exact List.prefix_refl _
  · split
    · exact numeralTail_isPrefix rest
    · split
      · exact List.takeWhile_prefix _
      · exact List.nil_prefix

/-- A piece and what is left after it are the text that it was read from. -/
theorem text_longest_append_drop (c : Char) (rest : List Char) :
    (longest c rest).text ++ rest.drop (longest c rest).others.length = c :: rest := by
  obtain ⟨after, h⟩ := others_longest_isPrefix c rest
  have left : rest.drop (longest c rest).others.length = after :=
    (congrArg (List.drop (longest c rest).others.length) h).symm.trans List.drop_left
  rw [text, first_longest, left, List.cons_append, h]

/-- The pieces of a text joined together are the text. -/
theorem flatMap_text_split (source : List Char) : (split source).flatMap text = source := by
  induction source using split.induct with
  | case1 => simp [split]
  | case2 c rest piece ih =>
    rw [split, List.flatMap_cons, ih]
    exact text_longest_append_drop c rest

end LoxFront.Piece
