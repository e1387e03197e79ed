/-
# Outlines of readings

An outline says what a reading gives without naming a single token: it has positions in
a row of tokens where the tree or the failure has the tokens themselves. Filled from a
row it becomes a tree or a failure. Two readings of different rows give the same thing,
each from its own tokens, if one outline can be filled to both.

`ResembleFrom` compares two rows as a reading does, by the kinds of their tokens and by
which of them carry a value. `Abreast` says of two cursors that they are at the same
place of two rows. What the one is looking at then resembles what the other is looking
at, and this is all that a step of a reading asks about.
-/

import LoxFront.Proofs.Parse.Placement

namespace LoxFront

open TokenCursor

/-- The constant that a token stands for: a word by its spelling, any other token by the
value that it carries. -/
def Token.constant? (token : Token) : Option Literal :=
  if token.kind ∈ TokenKind.valueWords then some (.identifier token.lexeme) else token.literal

/-- A tree with positions of tokens in place of the tokens. -/
inductive Outline where
  | leaf (index : Nat)
  | grouping (inner : Outline)
  | unary (operator : Nat) (operand : Outline)
  | binary (left : Outline) (operator : Nat) (right : Outline)

/-- The tree that an outline becomes with the tokens of a row. -/
def Outline.fill (tokens : List Token) : Outline → Option Expr
  | leaf index => do
    let token ← tokens[index]?
    let constant ← token.constant?
    return .literal (some constant)
  | grouping inner => do
    return .grouping (← inner.fill tokens)
  | unary operator operand => do
    return .unary (← tokens[operator]?) (← operand.fill tokens)
  | binary left operator right => do
    return .binary (← left.fill tokens) (← tokens[operator]?) (← right.fill tokens)

/-- What a reading that fails complains of at some token. -/
inductive Complaint where
  | noExpression
  | tooDeep
  | otherExpected (kind : TokenKind) (message : String)
  | noValue

/-- The failure that a complaint becomes at a token. -/
def Complaint.about (token : Token) : Complaint → ParseFailure
  | noExpression => .problem (.expectedExpression token)
  | tooDeep => .problem (.expressionTooDeep token)
  | otherExpected kind message => .problem (.expectedToken token kind message)
  | noValue => .fault (.missingLiteral token)

/-- A tree or a failure with positions of tokens in place of the tokens. -/
inductive OutcomeOutline where
  | tree (outline : Outline)
  | failure (complaint : Complaint) (index : Nat)

/-- The tree or failure that an outline of it becomes with the tokens of a row. -/
def OutcomeOutline.fill (tokens : List Token) : OutcomeOutline → Option (Except ParseFailure Expr)
  | tree outline => (outline.fill tokens).map .ok
  | failure complaint index => tokens[index]?.map fun token => .error (complaint.about token)

/-- The tree or failure of an outcome. -/
def ParseOutcome.result : ParseOutcome → Except ParseFailure Expr
  | .ok expr _ => .ok expr
  | .error failure _ => .error failure

/-- A part to be read, with an outline in place of a left operand. -/
inductive PartOutline where
  | rule (wanted : Rule)
  | tail (level : BinaryLevel) (left : Outline)

/-- The part that an outline becomes with the tokens of a row. -/
def PartOutline.fill (tokens : List Token) : PartOutline → Option Part
  | rule wanted => some (.rule wanted)
  | tail level left => (left.fill tokens).map (.tail level)

namespace PartOutline

variable {tokens : List Token} {sketch : PartOutline}

theorem eq_rule {wanted : Rule} (fills : sketch.fill tokens = some (.rule wanted)) :
    sketch = .rule wanted := by
  cases sketch with
  | rule => cases fills; rfl
  | tail level left =>
      obtain ⟨expr, -, other⟩ := Option.map_eq_some_iff.mp fills
      cases other

theorem exists_tail {level : BinaryLevel} {left : Expr}
    (fills : sketch.fill tokens = some (.tail level left)) :
    ∃ outline, sketch = .tail level outline ∧ outline.fill tokens = some left := by
  cases sketch with
  | rule => cases fills
  | tail level outline =>
      obtain ⟨expr, filled, same⟩ := Option.map_eq_some_iff.mp fills
      cases same
      exact ⟨outline, rfl, filled⟩

end PartOutline

/-- A token resembles another one if a reading cannot tell them apart: they are of the
same kind, and if this kind asks for a value, both carry one or neither does. -/
structure Token.Resembles (token other : Token) : Prop where
  kind : other.kind = token.kind
  literal : token.kind.carriesLiteral = true → other.literal.isSome = token.literal.isSome

/-- The tokens of two rows resemble each other from one position through another. -/
def ResembleFrom (first second : List Token) (start stop : Nat) : Prop :=
  ∀ index, start ≤ index → index ≤ stop →
    ∃ token other, first[index]? = some token ∧ second[index]? = some other ∧
      token.Resembles other

theorem ResembleFrom.within {first second : List Token} {start stop later earlier : Nat}
    (alike : ResembleFrom first second start stop) (after : start ≤ later)
    (before : earlier ≤ stop) : ResembleFrom first second later earlier :=
  fun index above below => alike index (Nat.le_trans after above) (Nat.le_trans below before)

/-- Two cursors at the same place of two rows, at the same depth. -/
structure Abreast (first second : List Token) (here there : TokenCursor) : Prop where
  placeHere : IsPlaceIn first here
  placeThere : IsPlaceIn second there
  position : there.position = here.position
  depth : there.depth = here.depth
  unlimitedHere : here.allowance = none
  unlimitedThere : there.allowance = none

namespace Abreast

variable {first second : List Token} {here there nextHere nextThere : TokenCursor}
  {read other rest : List Token} {token : Token} {stop : Nat}

/-- Cursors that have passed equally many tokens are abreast again. -/
theorem of_passes (abreast : Abreast first second here there)
    (passesHere : Passes read here nextHere) (passesThere : Passes other there nextThere)
    (equallyMany : other.length = read.length) (depth : nextThere.depth = nextHere.depth) :
    Abreast first second nextHere nextThere where
  placeHere := abreast.placeHere.of_passes passesHere
  placeThere := abreast.placeThere.of_passes passesThere
  position := by
    rw [position_eq_of_passes passesHere, position_eq_of_passes passesThere, abreast.position,
      equallyMany]
  depth := depth
  unlimitedHere := passesHere.allowance abreast.unlimitedHere
  unlimitedThere := passesThere.allowance abreast.unlimitedThere

/-- What one cursor looks at resembles what the other one looks at. -/
theorem peek_resembles (abreast : Abreast first second here there)
    (alike : ResembleFrom first second here.position stop) (inside : here.position ≤ stop) :
    here.peek.Resembles there.peek := by
  obtain ⟨token, other, isToken, isOther, resembles⟩ := alike here.position (Nat.le_refl _) inside
  rw [abreast.placeHere.getElem?_position, Option.some.injEq] at isToken
  rw [← abreast.position, abreast.placeThere.getElem?_position, Option.some.injEq] at isOther
  rwa [isToken, isOther]

/-- Where one cursor has a token ahead, so has the other. -/
theorem exists_next (abreast : Abreast first second here there)
    (alike : ResembleFrom first second here.position stop) (inside : here.position ≤ stop)
    (ahead : here.ahead = token :: rest) :
    ∃ other more, there.ahead = other :: more ∧ token.Resembles other := by
  have resembles := abreast.peek_resembles alike inside
  rw [peek_eq ahead] at resembles
  cases next : there.ahead with
  | nil =>
      have ends : there.peek.kind = .eof := by
        rw [peek, next]
        exact abreast.placeThere.ends
      have goesOn : token.kind ≠ .eof := abreast.placeHere.ahead_ne_eof token (by simp [ahead])
      exact absurd (resembles.kind.symm.trans ends) goesOn
  | cons other more =>
      rw [peek_eq next] at resembles
      exact ⟨other, more, rfl, resembles⟩

theorem avoids (abreast : Abreast first second here there)
    (alike : ResembleFrom first second here.position stop) (inside : here.position ≤ stop)
    {kinds : List TokenKind} (others : .eof ∉ kinds) (avoids : here.Avoids kinds) :
    there.Avoids kinds := by
  rw [avoids_iff abreast.placeThere.ends others, (abreast.peek_resembles alike inside).kind]
  exact (avoids_iff abreast.placeHere.ends others).mp avoids

theorem isFull_iff {limit : Option Int} (abreast : Abreast first second here there) :
    there.IsFull limit ↔ here.IsFull limit := by
  rw [IsFull, IsFull, abreast.depth]

end Abreast

end LoxFront
