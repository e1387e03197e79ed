/-
# What follows a token that opens a level too many is not looked at

A reading that stops because a level would lie too deep stops at once, without a look at
the token after the one that opens the level. So it stops in the same way wherever the
tokens up to that one are ahead at the same depth, whatever comes after them. What was
read completely before it was followed by one of these tokens, and is read again.
-/

import LoxFront.Proofs.Grammar.Frontier
import LoxFront.Proofs.Parse.Acceptance

namespace LoxFront

open TokenCursor TokenKind

/-- What begins with the same tokens, of which there are some, has the same first one. -/
theorem head?_append_of_getLast? {α : Type} {read : List α} {last : α}
    (final : read.getLast? = some last) (rest others : List α) :
    (read ++ rest).head? = (read ++ others).head? := by
  cases read with
  | nil => cases final
  | cons first read => rfl

namespace TokenCursor

variable {cursor there : TokenCursor} {read rest : List Token} {token : Token}
  {limit : Option Int}

theorem Passes.of_ahead (ahead : cursor.ahead = read ++ rest) :
    Passes read cursor (cursor.pass read.length) := by
  constructor <;> simp [pass, ahead]

theorem Passes.ahead_eq {next : TokenCursor} {others : List Token}
    (passes : Passes read cursor next) (ahead : cursor.ahead = read ++ others) :
    next.ahead = others :=
  List.append_cancel_left (passes.ahead.symm.trans ahead)

theorem isFull_iff_of_depth_eq (depth : there.depth = cursor.depth) :
    there.IsFull limit ↔ cursor.IsFull limit := by
  rw [IsFull, IsFull, depth]

theorem avoids_of_head?_eq {kinds : List TokenKind} (avoids : cursor.Avoids kinds)
    (same : there.ahead.head? = cursor.ahead.head?) : there.Avoids kinds := by
  rw [Avoids, same]
  exact avoids

/-- A level that is opened within a limit is within the limit. -/
theorem fits_advance_deeper (free : ¬ cursor.IsFull limit) :
    ∀ bound ∈ limit, cursor.advance.deeper.depth ≤ bound := by
  rintro bound member
  rw [Option.mem_def] at member
  subst member
  have room := depth_lt_of_not_isFull free
  rw [depth_deeper, depth_advance]
  omega

/-- A way to move a cursor passes some tokens wherever they are ahead, and the depth after
it depends on the depth before it alone. -/
structure Moves (read : List Token) (move : TokenCursor → TokenCursor) : Prop where
  passes {cursor : TokenCursor} {rest : List Token} :
    cursor.ahead = read ++ rest → Passes read cursor (move cursor)
  depth {cursor there : TokenCursor} :
    there.depth = cursor.depth → (move there).depth = (move cursor).depth

namespace Moves

theorem id : Moves [] id where
  passes _ := .refl _
  depth same := same

theorem spent : Moves [] spent where
  passes _ := .spent _
  depth same := same

theorem advance (token : Token) : Moves [token] advance where
  passes := .advance
  depth same := by rwa [depth_advance, depth_advance]

theorem advance_deeper (token : Token) : Moves [token] fun cursor => cursor.advance.deeper where
  passes ahead := (Passes.advance ahead).trans (.deeper _)
  depth same := by simp [same]

end Moves

end TokenCursor

/-- The reading of a part stops too deep, after it has passed some tokens of which the last
one opens the level. Wherever these tokens are ahead at the same depth, the reading stops in
the same way. -/
def StopsTooDeep (limit : Option Int) (part : Part) (cursor : TokenCursor) (token : Token)
    (stopped : TokenCursor) : Prop :=
  ∃ read, read.getLast? = some token ∧ token.kind ∈ levelOpeners ∧ Passes read cursor stopped ∧
    ∀ (there : TokenCursor) (others : List Token), there.ahead = read ++ others →
      there.depth = cursor.depth → there.allowance = none →
      ∃ after, Reads limit part there (.error (.problem (.expressionTooDeep token)) after) ∧
        Passes read there after ∧ after.depth = stopped.depth

namespace Reads

variable {limit : Option Int} {wanted : Rule} {cursor next : TokenCursor} {expr : Expr}

/-- What is read completely is read so wherever the same tokens are ahead and the one after
them. -/
theorem exists_reads_again (reads : Reads limit (.rule wanted) cursor (.ok expr next))
    (unlimited : cursor.allowance = none) (fits : ∀ bound ∈ limit, cursor.depth ≤ bound) :
    ∃ read, Passes read cursor next ∧
      ∀ (there : TokenCursor) (others : List Token), there.ahead = read ++ others →
        others.head? = next.ahead.head? → there.depth = cursor.depth → there.allowance = none →
        ∃ after, Reads limit (.rule wanted) there (.ok expr after) ∧ Passes read there after := by
  obtain ⟨read, rest, ahead, sentence, within, rfl, avoids⟩ := (ok_iff unlimited fits).mp reads
  refine ⟨read, .of_ahead ahead, fun there others aheadThere same depth unlimitedThere => ?_⟩
  have passes := Passes.of_ahead aheadThere
  refine ⟨_, (ok_iff unlimitedThere (depth ▸ fits)).mpr ⟨read, others, aheadThere, sentence,
    depth ▸ within, rfl, avoids_of_head?_eq avoids ?_⟩, passes⟩
  rw [passes.ahead_eq aheadThere, same]

end Reads

namespace StopsTooDeep

variable {limit : Option Int} {part inner : Part} {wanted : Rule}
  {cursor middle stopped : TokenCursor} {token : Token} {expr : Expr} {read rest : List Token}
  {move : TokenCursor → TokenCursor}

theorem opens (stops : StopsTooDeep limit part cursor token stopped) :
    token.kind ∈ levelOpeners := by
  obtain ⟨-, -, opens, -, -⟩ := stops
  exact opens

/-- A token that opens a level in a cursor that is full. -/
theorem of_full (ahead : cursor.ahead = token :: rest) (opens : token.kind ∈ levelOpeners)
    (stops : ∀ (there : TokenCursor) (others : List Token), there.ahead = token :: others →
      there.depth = cursor.depth →
      Reads limit part there (.error (.problem (.expressionTooDeep token)) there.advance)) :
    StopsTooDeep limit part cursor token cursor.advance := by
  refine ⟨[token], rfl, opens, .advance ahead, fun there others aheadThere depth _ => ?_⟩
  exact ⟨_, stops there others aheadThere depth, .advance aheadThere, by simp [depth]⟩

/-- A part whose reading begins with a move and is then the reading of another part. -/
theorem of_move (moves : Moves read move) (ahead : cursor.ahead = read ++ rest)
    (inside : StopsTooDeep limit inner (move cursor) token stopped)
    (lifts : ∀ (there after : TokenCursor) (others : List Token), there.ahead = read ++ others →
      others.head? = rest.head? → there.depth = cursor.depth → there.allowance = none →
      Reads limit inner (move there) (.error (.problem (.expressionTooDeep token)) after) →
      Reads limit part there (.error (.problem (.expressionTooDeep token)) after)) :
    StopsTooDeep limit part cursor token stopped := by
  obtain ⟨more, last, opens, passes, stops⟩ := inside
  refine ⟨read ++ more, by rw [List.getLast?_append, last]; rfl, opens,
    (moves.passes ahead).trans passes, fun there others aheadThere depth unlimited => ?_⟩
  rw [List.append_assoc] at aheadThere
  have passesThere := moves.passes aheadThere
  obtain ⟨after, reads, passesAfter, same⟩ := stops (move there) others
    (passesThere.ahead_eq aheadThere) (moves.depth depth) (passesThere.allowance unlimited)
  refine ⟨after, lifts there after _ aheadThere ?_ depth unlimited reads,
    passesThere.trans passesAfter, same⟩
  rw [← (moves.passes ahead).ahead_eq ahead, passes.ahead]
  exact head?_append_of_getLast? last _ _

/-- A part whose reading begins with a move, goes on with something that is read completely,
and is then the reading of another part. -/
theorem of_move_of_ok (moves : Moves read move) (ahead : cursor.ahead = read ++ rest)
    (unlimited : cursor.allowance = none) (fits : ∀ bound ∈ limit, (move cursor).depth ≤ bound)
    (first : Reads limit (.rule wanted) (move cursor) (.ok expr middle))
    (inside : StopsTooDeep limit inner middle token stopped)
    (lifts : ∀ (there between after : TokenCursor) (others : List Token),
      there.ahead = read ++ others → Reads limit (.rule wanted) (move there) (.ok expr between) →
      Reads limit inner between (.error (.problem (.expressionTooDeep token)) after) →
      Reads limit part there (.error (.problem (.expressionTooDeep token)) after)) :
    StopsTooDeep limit part cursor token stopped := by
  have moved := moves.passes ahead
  obtain ⟨before, passesBefore, again⟩ :=
    first.exists_reads_again (moved.allowance unlimited) fits
  obtain ⟨more, last, opens, passes, stops⟩ := inside
  refine ⟨read ++ (before ++ more), by simp [last], opens,
    moved.trans (passesBefore.trans passes), fun there others aheadThere depth unlimitedThere => ?_⟩
  rw [List.append_assoc, List.append_assoc] at aheadThere
  have movedThere := moves.passes aheadThere
  have aheadMoved := movedThere.ahead_eq aheadThere
  have sameNext : (more ++ others).head? = middle.ahead.head? := by
    rw [passes.ahead]
    exact head?_append_of_getLast? last _ _
  obtain ⟨between, readsFirst, passesFirst⟩ := again (move there) _ aheadMoved sameNext
    (moves.depth depth) (movedThere.allowance unlimitedThere)
  have depthBetween : between.depth = middle.depth :=
    readsFirst.depth_eq.trans ((moves.depth depth).trans first.depth_eq.symm)
  obtain ⟨after, readsSecond, passesSecond, same⟩ := stops between others
    (passesFirst.ahead_eq aheadMoved) depthBetween
    (passesFirst.allowance (movedThere.allowance unlimitedThere))
  exact ⟨after, lifts there between after _ aheadThere readsFirst readsSecond,
    movedThere.trans (passesFirst.trans passesSecond), same⟩

end StopsTooDeep

namespace Reads

variable {limit : Option Int} {part : Part} {cursor stopped : TokenCursor} {token : Token}

/-- A reading that stops too deep passes the token that opens the level and stops so
whatever follows this token. -/
theorem stopsTooDeep
    (reads : Reads limit part cursor (.error (.problem (.expressionTooDeep token)) stopped))
    (unlimited : cursor.allowance = none) (fits : ∀ bound ∈ limit, cursor.depth ≤ bound) :
    StopsTooDeep limit part cursor token stopped := by
  generalize result :
    (.error (.problem (.expressionTooDeep token)) stopped : ParseOutcome) = outcome at reads
  induction reads generalizing token stopped with
  | start _ ih =>
      exact .of_move .id rfl (ih unlimited fits result) fun _ _ _ _ _ _ _ inner => .start inner
  | expression _ _ ih =>
      refine .of_move .spent rfl (ih (by simp [spent, unlimited]) fits result) ?_
      exact fun _ _ _ _ _ _ unlimitedThere inner => .expression (by simp [unlimitedThere]) inner
  | firstOperandFails _ ih =>
      exact .of_move .id rfl (ih unlimited fits result) fun _ _ _ _ _ _ _ inner =>
        .firstOperandFails inner
  | binary left _ _ ihTail =>
      obtain ⟨read, passes⟩ := left.passes_of_ok
      have tail := ihTail (passes.allowance unlimited) (left.depth_eq ▸ fits) result
      exact .of_move_of_ok .id rfl unlimited fits left tail fun _ _ _ _ _ first second =>
        .binary first second
  | rightOperandFails ahead kind _ ih =>
      have moved := Passes.advance ahead
      have inside := ih (moved.allowance unlimited) (by rwa [depth_advance]) result
      exact .of_move (.advance _) ahead inside fun _ _ _ aheadThere _ _ _ inner =>
        .rightOperandFails aheadThere kind inner
  | @operator _ cursor _ _ _ _ _ _ ahead kind right _ _ ihTail =>
      have moved := Passes.advance ahead
      have fitsRight : ∀ bound ∈ limit, cursor.advance.depth ≤ bound := by
        rwa [depth_advance]
      obtain ⟨read, passes⟩ := right.passes_of_ok
      have tail := ihTail (passes.allowance (moved.allowance unlimited))
        (right.depth_eq ▸ fitsRight) result
      exact .of_move_of_ok (.advance _) ahead unlimited fitsRight right tail
        fun _ _ _ _ aheadThere first second => .operator aheadThere kind first second
  | signTooDeep ahead sign full =>
      cases result
      exact .of_full ahead (mem_levelOpeners_iff.mpr (.inl sign)) fun _ _ aheadThere depth =>
        .signTooDeep aheadThere sign ((isFull_iff_of_depth_eq depth).mpr full)
  | signedOperandFails ahead sign free _ ih =>
      have moved := (Moves.advance_deeper _).passes ahead
      have inside := ih (moved.allowance unlimited) (fits_advance_deeper free) result
      exact .of_move (.advance_deeper _) ahead inside fun _ _ _ aheadThere _ depth _ inner =>
        .signedOperandFails aheadThere sign (mt (isFull_iff_of_depth_eq depth).mp free) inner
  | primary avoids _ ih =>
      exact .of_move .id rfl (ih unlimited fits result) fun _ _ _ aheadThere same _ _ inner =>
        .primary (avoids_of_head?_eq avoids (by rw [aheadThere]; exact same)) inner
  | groupTooDeep ahead opens full =>
      cases result
      exact .of_full ahead (mem_levelOpeners_iff.mpr (.inr opens)) fun _ _ aheadThere depth =>
        .groupTooDeep aheadThere opens ((isFull_iff_of_depth_eq depth).mpr full)
  | groupFails ahead opens free _ ih =>
      have moved := (Moves.advance_deeper _).passes ahead
      have inside := ih (moved.allowance unlimited) (fits_advance_deeper free) result
      exact .of_move (.advance_deeper _) ahead inside fun _ _ _ aheadThere _ depth _ inner =>
        .groupFails aheadThere opens (mt (isFull_iff_of_depth_eq depth).mp free) inner
  | _ => cases result

end Reads

end LoxFront
