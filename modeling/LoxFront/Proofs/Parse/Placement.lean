/-
# Cursors as places in a row of tokens

A cursor keeps the tokens on its two sides and not the row that they come from. It is a
place in a row if the two sides together are the row, up to the first token ahead that
ends the input; the token that it looks at is then the one at its position in the row.
Passing tokens leads from place to place, so that no look is ever taken past the end.

`at?` gives the place at any position and any depth. What lies before the position
plays no part in it: tokens that end the input may be among what has been passed.
-/

import LoxFront.Proofs.Parse.Acceptance

namespace LoxFront.TokenCursor

/-- A cursor is a place in a row of tokens. -/
structure IsPlaceIn (tokens : List Token) (cursor : TokenCursor) : Prop where
  splits : ∃ after, tokens = cursor.passed.reverse ++ (cursor.ahead ++ cursor.stop :: after)
  ends : cursor.stop.kind = .eof
  ahead_ne_eof : ∀ token ∈ cursor.ahead, token.kind ≠ .eof

variable {tokens read rest : List Token} {token : Token} {cursor next start : TokenCursor}
  {index : Nat} {depth : Int}

theorem position_eq_of_passes (passes : Passes read cursor next) :
    next.position = cursor.position + read.length := by
  rw [position, passes.passed, List.length_append, List.length_reverse, Nat.add_comm]
  rfl

theorem IsStartOf.isPlaceIn (isStart : IsStartOf tokens start) : IsPlaceIn tokens start where
  splits := by simpa [isStart.passed] using isStart.splits
  ends := isStart.ends
  ahead_ne_eof := isStart.ahead_ne_eof

namespace IsPlaceIn

/-- The token that a place looks at is the one at its position. -/
theorem getElem?_position (place : IsPlaceIn tokens cursor) :
    tokens[cursor.position]? = some cursor.peek := by
  obtain ⟨after, rfl⟩ := place.splits
  rw [position, ← List.length_reverse, List.getElem?_append_right (Nat.le_refl _), Nat.sub_self,
    peek]
  cases cursor.ahead <;> rfl

/-- Passing tokens leads to another place in the same row. -/
theorem of_passes (place : IsPlaceIn tokens cursor) (passes : Passes read cursor next) :
    IsPlaceIn tokens next where
  splits := by
    obtain ⟨after, whole⟩ := place.splits
    exact ⟨after, by simp [whole, passes.ahead, passes.passed, passes.stop]⟩
  ends := passes.stop ▸ place.ends
  ahead_ne_eof := fun token member => place.ahead_ne_eof token (by
    rw [passes.ahead]
    exact List.mem_append_right read member)

/-- A place looks at what is left of the row from its position on. -/
theorem exists_drop_eq (place : IsPlaceIn tokens cursor) :
    ∃ after, tokens.drop cursor.position = cursor.ahead ++ cursor.stop :: after := by
  obtain ⟨after, whole⟩ := place.splits
  exact ⟨after, by rw [whole, position, ← List.length_reverse, List.drop_left]⟩

/-- What is ahead at a place of a row is ahead at the same place of another row if the two
rows agree as far as this goes. -/
theorem exists_ahead_eq {others : List Token} {there : TokenCursor}
    (place : IsPlaceIn tokens cursor) (placeThere : IsPlaceIn others there)
    (same : there.position = cursor.position) (ahead : cursor.ahead = read ++ rest)
    (agree : others.take (cursor.position + read.length) =
      tokens.take (cursor.position + read.length)) :
    ∃ more, there.ahead = read ++ more := by
  obtain ⟨after, left⟩ := place.exists_drop_eq
  obtain ⟨afterThere, leftThere⟩ := placeThere.exists_drop_eq
  have begins : (there.ahead ++ there.stop :: afterThere).take read.length = read := by
    calc
      _ = (others.take (cursor.position + read.length)).drop cursor.position := by
        rw [List.drop_take, Nat.add_sub_cancel_left, ← same, leftThere]
      _ = (cursor.ahead ++ cursor.stop :: after).take read.length := by
        rw [agree, List.drop_take, Nat.add_sub_cancel_left, left]
      _ = read := by rw [ahead, List.append_assoc, List.take_left]
  have isPrefix := List.take_prefix read.length (there.ahead ++ there.stop :: afterThere)
  rw [begins] at isPrefix
  obtain ⟨beyond, split⟩ := isPrefix
  rcases List.append_eq_append_iff.mp split with ⟨more, found, -⟩ | ⟨past, short, long⟩
  · exact ⟨more, found⟩
  · cases past with
    | nil => exact ⟨[], by rw [short, List.append_nil, List.append_nil]⟩
    | cons stop past =>
        -- what was read would go on past the end of the other row
        obtain ⟨rfl, -⟩ := List.cons.inj long
        have member : there.stop ∈ cursor.ahead := by simp [ahead, short]
        exact absurd placeThere.ends (place.ahead_ne_eof _ member)

end IsPlaceIn

/-- The cursor at a position of a row of tokens and at some depth. The row has to go on
there, and has to end with a token that ends the input. -/
def at? (tokens : List Token) (index : Nat) (depth : Int) : Option TokenCursor :=
  (ofTokens? (tokens.drop index)).map fun start =>
    { start with passed := (tokens.take index).reverse, depth }

/-- The cursor at a position and a depth is a place with this position and depth, and has
room for any number of expressions. -/
theorem at?_spec (placed : at? tokens index depth = some cursor) :
    IsPlaceIn tokens cursor ∧ cursor.position = index ∧ cursor.depth = depth ∧
      cursor.allowance = none := by
  obtain ⟨start, opened, rfl⟩ := Option.map_eq_some_iff.mp placed
  have isStart := isStartOf_of_ofTokens? opened
  obtain ⟨after, whole⟩ := isStart.splits
  have inside : index ≤ tokens.length := by
    apply Nat.le_of_not_lt
    intro beyond
    rw [List.drop_eq_nil_of_le (Nat.le_of_lt beyond)] at whole
    simp at whole
  refine ⟨⟨⟨after, ?_⟩, isStart.ends, isStart.ahead_ne_eof⟩, ?_, rfl, isStart.unlimited⟩
  · rw [List.reverse_reverse, ← whole, List.take_append_drop]
  · rw [position, List.length_reverse, List.length_take_of_le inside]

/-- A row has a cursor at every one of its positions if it ends with a token that ends
the input. -/
theorem exists_at? {last : Token} (final : tokens.getLast? = some last)
    (ends : last.kind = .eof) (inside : index < tokens.length) (depth : Int) :
    ∃ cursor, at? tokens index depth = some cursor := by
  have same : (tokens.drop index).getLast? = some last := by
    rw [List.getLast?_drop, if_neg (Nat.not_le_of_lt inside), final]
  obtain ⟨start, opened⟩ := exists_ofTokens? same ends
  exact ⟨_, by rw [at?, opened]; rfl⟩

end LoxFront.TokenCursor
