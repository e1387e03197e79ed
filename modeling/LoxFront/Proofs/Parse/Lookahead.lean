/-
# One token of lookahead

A reading asks of tokens only what kinds they are of and whether they carry a value, and
of none beyond the one that it stops before. So a reading of one row says how all rows
are read that resemble this one as far as that token: with the same outline, to the same
place, at the same depth, whether it ends in a tree or in a failure.

The outline is found by induction on the reading of the first row, before any other row is
looked at. `ReadsAlike` says that an outline serves for all the others too, and has one
lemma for each way to read, which is about rows that resemble each other and not about how
the outline was found.
-/

import LoxFront.Proofs.Parse.Outline

namespace LoxFront

open TokenCursor

namespace TokenCursor

variable {cursor : TokenCursor} {token : Token} {rest : List Token}

theorem position_advance (ahead : cursor.ahead = token :: rest) :
    cursor.advance.position = cursor.position + 1 :=
  position_eq_of_passes (.advance ahead)

theorem position_le_advance (cursor : TokenCursor) :
    cursor.position ≤ cursor.advance.position := by
  cases ahead : cursor.ahead with
  | nil => exact Nat.le_of_eq (by simp [advance, ahead])
  | cons token rest =>
      rw [position_advance ahead]
      exact Nat.le_succ _

end TokenCursor

/-- A reading never goes back. -/
theorem Reads.position_le {limit : Option Int} {part : Part} {cursor : TokenCursor}
    {outcome : ParseOutcome} (reads : Reads limit part cursor outcome) :
    cursor.position ≤ outcome.cursor.position := by
  obtain ⟨read, passes⟩ := reads.passes
  rw [position_eq_of_passes passes]
  exact Nat.le_add_right _ _

namespace Abreast

variable {first second : List Token} {here there : TokenCursor} {rest more : List Token}
  {token other : Token} {stop : Nat} (abreast : Abreast first second here there)

include abreast

theorem deeper : Abreast first second here.deeper there.deeper :=
  abreast.of_passes (.deeper _) (.deeper _) rfl (by simp [abreast.depth])

theorem shallower : Abreast first second here.shallower there.shallower :=
  abreast.of_passes (.shallower _) (.shallower _) rfl (by simp [abreast.depth])

theorem spent : Abreast first second here.spent there.spent :=
  abreast.of_passes (.spent _) (.spent _) rfl (by simp [abreast.depth])

theorem advance (ahead : here.ahead = token :: rest) (next : there.ahead = other :: more) :
    Abreast first second here.advance there.advance :=
  abreast.of_passes (.advance ahead) (.advance next) rfl (by simp [abreast.depth])

theorem getElem?_here (ahead : here.ahead = token :: rest) :
    first[here.position]? = some token := by
  rw [abreast.placeHere.getElem?_position, peek_eq ahead]

/-- What is passed in one row is passed in the other, and what follows it still
resembles. -/
theorem step (ahead : here.ahead = token :: rest)
    (alike : ResembleFrom first second here.position stop) (inside : here.position ≤ stop) :
    ∃ other more, there.ahead = other :: more ∧ token.Resembles other ∧
      second[here.position]? = some other ∧ Abreast first second here.advance there.advance ∧
      ResembleFrom first second here.advance.position stop := by
  obtain ⟨other, more, next, resembles⟩ := abreast.exists_next alike inside ahead
  refine ⟨other, more, next, resembles, ?_, abreast.advance ahead next, ?_⟩
  · rw [← abreast.position, abreast.placeThere.getElem?_position, peek_eq next]
  · rw [position_advance ahead]
    exact alike.within (Nat.le_succ _) (Nat.le_refl _)

end Abreast

/-- Wherever a row resembles the first one as far as the reading of a part went, the part
is read there, to what an outline of the first outcome becomes. -/
def ReadsAlike (limit : Option Int) (first : List Token) (sketch : PartOutline)
    (cursor stopped : TokenCursor) (outline : OutcomeOutline) : Prop :=
  ∀ second there part, Abreast first second cursor there →
    ResembleFrom first second cursor.position stopped.position →
    sketch.fill second = some part →
    ∃ other : ParseOutcome, Reads limit part there other ∧
      Abreast first second stopped other.cursor ∧ outline.fill second = some other.result

namespace ReadsAlike

variable {limit : Option Int} {first second : List Token} {sketch : PartOutline} {part : Part}
  {cursor middle next stopped there : TokenCursor} {outline : OutcomeOutline}
  {level : BinaryLevel} {tree leftTree rightTree : Outline}
  {token : Token} {rest : List Token} {complaint : Complaint} {index : Nat}

/-- An outline of a tree is read to a tree. -/
theorem exists_ok (alike : ReadsAlike limit first sketch cursor next (.tree tree))
    (abreast : Abreast first second cursor there)
    (resemble : ResembleFrom first second cursor.position next.position)
    (fills : sketch.fill second = some part) :
    ∃ expr after, Reads limit part there (.ok expr after) ∧ Abreast first second next after ∧
      tree.fill second = some expr := by
  obtain ⟨other, reads, later, filled⟩ := alike second there part abreast resemble fills
  obtain ⟨found, isTree, same⟩ := Option.map_eq_some_iff.mp filled
  cases other with
  | error failure stopped => cases same
  | ok expr after =>
      cases same
      exact ⟨found, after, reads, later, isTree⟩

/-- An outline of a failure is read to a failure. -/
theorem exists_error
    (alike : ReadsAlike limit first sketch cursor next (.failure complaint index))
    (abreast : Abreast first second cursor there)
    (resemble : ResembleFrom first second cursor.position next.position)
    (fills : sketch.fill second = some part) :
    ∃ failure stopped, Reads limit part there (.error failure stopped) ∧
      Abreast first second next stopped ∧
      (OutcomeOutline.failure complaint index).fill second = some (.error failure) := by
  obtain ⟨other, reads, later, filled⟩ := alike second there part abreast resemble fills
  obtain ⟨token, isToken, same⟩ := Option.map_eq_some_iff.mp filled
  cases other with
  | ok expr after => cases same
  | error failure stopped => exact ⟨failure, stopped, reads, later, filled⟩

theorem start (alike : ReadsAlike limit first (.rule .expression) cursor stopped outline) :
    ReadsAlike limit first (.rule .start) cursor stopped outline := by
  intro second there part abreast resemble fills
  cases fills
  obtain ⟨other, reads, found⟩ := alike second there _ abreast resemble rfl
  exact ⟨other, .start reads, found⟩

theorem expression
    (alike : ReadsAlike limit first (.rule (.binary .equality)) cursor.spent stopped outline) :
    ReadsAlike limit first (.rule .expression) cursor stopped outline := by
  intro second there part abreast resemble fills
  cases fills
  obtain ⟨other, reads, found⟩ := alike second there.spent _ abreast.spent resemble rfl
  exact ⟨other, .expression (by simp [abreast.unlimitedThere]) reads, found⟩

theorem firstOperandFails
    (alike : ReadsAlike limit first (.rule level.operand) cursor next
      (.failure complaint index)) :
    ReadsAlike limit first (.rule (.binary level)) cursor next
      (.failure complaint index) := by
  intro second there part abreast resemble fills
  cases fills
  obtain ⟨failure, stopped, reads, found⟩ := alike.exists_error abreast resemble rfl
  exact ⟨_, .firstOperandFails reads, found⟩

theorem binary
    (leftAlike : ReadsAlike limit first (.rule level.operand) cursor middle
      (.tree leftTree))
    (tailAlike : ReadsAlike limit first (.tail level leftTree) middle stopped outline)
    (above : cursor.position ≤ middle.position)
    (below : middle.position ≤ stopped.position) :
    ReadsAlike limit first (.rule (.binary level)) cursor stopped outline := by
  intro second there part abreast resemble fills
  cases fills
  obtain ⟨expr, between, reads, abreastBetween, filled⟩ :=
    leftAlike.exists_ok abreast (resemble.within (Nat.le_refl _) below) rfl
  obtain ⟨other, tailReads, found⟩ := tailAlike second between _ abreastBetween
    (resemble.within above (Nat.le_refl _)) (by rw [PartOutline.fill, filled]; rfl)
  exact ⟨other, .binary reads tailReads, found⟩

theorem noOperator (avoids : cursor.Avoids level.operators) :
    ReadsAlike limit first (.tail level tree) cursor cursor (.tree tree) := by
  intro second there part abreast resemble fills
  obtain ⟨left, filled, rfl⟩ := Option.map_eq_some_iff.mp fills
  have avoidsThere := abreast.avoids resemble (Nat.le_refl _) level.eof_not_mem_operators avoids
  exact ⟨_, .noOperator avoidsThere, abreast, by rw [OutcomeOutline.fill, filled]; rfl⟩

section Next

variable (ahead : cursor.ahead = token :: rest)

include ahead

theorem rightOperandFails (kind : token.kind ∈ level.operators)
    (alike : ReadsAlike limit first (.rule level.operand) cursor.advance next
      (.failure complaint index)) (below : cursor.position ≤ next.position) :
    ReadsAlike limit first (.tail level tree) cursor next
      (.failure complaint index) := by
  intro second there part abreast resemble fills
  obtain ⟨left, -, rfl⟩ := Option.map_eq_some_iff.mp fills
  obtain ⟨other, more, aheadThere, resembles, -, later, resembleLater⟩ :=
    abreast.step ahead resemble below
  obtain ⟨failure, stopped, reads, found⟩ := alike.exists_error later resembleLater rfl
  exact ⟨_, .rightOperandFails aheadThere (resembles.kind ▸ kind) reads, found⟩

theorem operator (kind : token.kind ∈ level.operators)
    (rightAlike : ReadsAlike limit first (.rule level.operand) cursor.advance middle
      (.tree rightTree))
    (tailAlike : ReadsAlike limit first
      (.tail level (.binary leftTree cursor.position rightTree)) middle stopped outline)
    (above : cursor.advance.position ≤ middle.position)
    (below : middle.position ≤ stopped.position) :
    ReadsAlike limit first (.tail level leftTree) cursor stopped outline := by
  intro second there part abreast resemble fills
  obtain ⟨left, leftFilled, rfl⟩ := Option.map_eq_some_iff.mp fills
  have inside : cursor.position ≤ stopped.position := by
    rw [position_advance ahead] at above
    omega
  obtain ⟨other, more, aheadThere, resembles, isOther, later, resembleLater⟩ :=
    abreast.step ahead resemble inside
  obtain ⟨right, between, reads, abreastBetween, rightFilled⟩ :=
    rightAlike.exists_ok later (resembleLater.within (Nat.le_refl _) below) rfl
  obtain ⟨last, tailReads, found⟩ := tailAlike second between
    (.tail level (.binary left other right)) abreastBetween
    (resembleLater.within above (Nat.le_refl _))
    (by simp [PartOutline.fill, Outline.fill, leftFilled, rightFilled, isOther])
  exact ⟨last, .operator aheadThere (resembles.kind ▸ kind) reads tailReads, found⟩

theorem signTooDeep (sign : token.kind ∈ TokenKind.unaryOperators) (full : cursor.IsFull limit) :
    ReadsAlike limit first (.rule .unary) cursor cursor.advance
      (.failure .tooDeep cursor.position) := by
  intro second there part abreast resemble fills
  cases fills
  obtain ⟨other, more, aheadThere, resembles, isOther, later, -⟩ :=
    abreast.step ahead resemble (position_le_advance cursor)
  exact ⟨_, .signTooDeep aheadThere (resembles.kind ▸ sign) (abreast.isFull_iff.mpr full), later,
    by rw [OutcomeOutline.fill, isOther]; rfl⟩

theorem signedOperandFails (sign : token.kind ∈ TokenKind.unaryOperators)
    (free : ¬ cursor.IsFull limit)
    (alike : ReadsAlike limit first (.rule .unary) cursor.advance.deeper next
      (.failure complaint index)) (below : cursor.position ≤ next.position) :
    ReadsAlike limit first (.rule .unary) cursor next
      (.failure complaint index) := by
  intro second there part abreast resemble fills
  cases fills
  obtain ⟨other, more, aheadThere, resembles, -, later, resembleLater⟩ :=
    abreast.step ahead resemble below
  obtain ⟨failure, stopped, reads, found⟩ := alike.exists_error later.deeper resembleLater rfl
  exact ⟨_, .signedOperandFails aheadThere (resembles.kind ▸ sign)
    (mt abreast.isFull_iff.mp free) reads, found⟩

theorem unary (sign : token.kind ∈ TokenKind.unaryOperators) (free : ¬ cursor.IsFull limit)
    (alike : ReadsAlike limit first (.rule .unary) cursor.advance.deeper middle
      (.tree tree)) (below : cursor.position ≤ middle.position) :
    ReadsAlike limit first (.rule .unary) cursor middle.shallower
      (.tree (.unary cursor.position tree)) := by
  intro second there part abreast resemble fills
  cases fills
  obtain ⟨other, more, aheadThere, resembles, isOther, later, resembleLater⟩ :=
    abreast.step ahead resemble below
  obtain ⟨operand, after, reads, abreastAfter, filled⟩ :=
    alike.exists_ok later.deeper resembleLater rfl
  exact ⟨_, .unary aheadThere (resembles.kind ▸ sign) (mt abreast.isFull_iff.mp free) reads,
    abreastAfter.shallower,
    by simp [OutcomeOutline.fill, Outline.fill, filled, isOther, ParseOutcome.result]⟩

theorem valueWord (word : token.kind ∈ TokenKind.valueWords) :
    ReadsAlike limit first (.rule .primary) cursor cursor.advance
      (.tree (.leaf cursor.position)) := by
  intro second there part abreast resemble fills
  cases fills
  obtain ⟨other, more, aheadThere, resembles, isOther, later, -⟩ :=
    abreast.step ahead resemble (position_le_advance cursor)
  have otherWord : other.kind ∈ TokenKind.valueWords := resembles.kind ▸ word
  exact ⟨_, .valueWord aheadThere otherWord, later,
    by simp [OutcomeOutline.fill, Outline.fill, isOther, Token.constant?, otherWord,
      ParseOutcome.result]⟩

theorem constant (carries : token.kind.carriesLiteral = true) (some : token.literal.isSome) :
    ReadsAlike limit first (.rule .primary) cursor cursor.advance
      (.tree (.leaf cursor.position)) := by
  intro second there part abreast resemble fills
  cases fills
  obtain ⟨other, more, aheadThere, resembles, isOther, later, -⟩ :=
    abreast.step ahead resemble (position_le_advance cursor)
  have otherCarries : other.kind.carriesLiteral = true := resembles.kind ▸ carries
  have noWord := TokenKind.not_mem_valueWords_of_carriesLiteral otherCarries
  rw [← resembles.literal carries, Option.isSome_iff_exists] at some
  obtain ⟨value, literal⟩ := some
  exact ⟨_, .constant aheadThere otherCarries literal, later,
    by simp [OutcomeOutline.fill, Outline.fill, isOther, Token.constant?, noWord, literal,
      ParseOutcome.result]⟩

theorem noValue (carries : token.kind.carriesLiteral = true) (none : token.literal = none) :
    ReadsAlike limit first (.rule .primary) cursor cursor.advance
      (.failure .noValue cursor.position) := by
  intro second there part abreast resemble fills
  cases fills
  obtain ⟨other, more, aheadThere, resembles, isOther, later, -⟩ :=
    abreast.step ahead resemble (position_le_advance cursor)
  have missing : other.literal = Option.none := by
    apply Option.not_isSome_iff_eq_none.mp
    rw [resembles.literal carries, none]
    exact Bool.false_ne_true
  exact ⟨_, .noValue aheadThere (resembles.kind ▸ carries) missing, later,
    by rw [OutcomeOutline.fill, isOther]; rfl⟩

theorem groupTooDeep (opens : token.kind = .leftParen) (full : cursor.IsFull limit) :
    ReadsAlike limit first (.rule .primary) cursor cursor.advance
      (.failure .tooDeep cursor.position) := by
  intro second there part abreast resemble fills
  cases fills
  obtain ⟨other, more, aheadThere, resembles, isOther, later, -⟩ :=
    abreast.step ahead resemble (position_le_advance cursor)
  exact ⟨_, .groupTooDeep aheadThere (resembles.kind.trans opens) (abreast.isFull_iff.mpr full),
    later, by rw [OutcomeOutline.fill, isOther]; rfl⟩

section Group

variable (opens : token.kind = .leftParen) (free : ¬ cursor.IsFull limit)

include opens free

theorem groupFails
    (alike : ReadsAlike limit first (.rule .expression) cursor.advance.deeper
      next (.failure complaint index)) (below : cursor.position ≤ next.position) :
    ReadsAlike limit first (.rule .primary) cursor next
      (.failure complaint index) := by
  intro second there part abreast resemble fills
  cases fills
  obtain ⟨other, more, aheadThere, resembles, -, later, resembleLater⟩ :=
    abreast.step ahead resemble below
  obtain ⟨failure, stopped, reads, found⟩ := alike.exists_error later.deeper resembleLater rfl
  exact ⟨_, .groupFails aheadThere (resembles.kind.trans opens) (mt abreast.isFull_iff.mp free)
    reads, found⟩

theorem notClosed
    (alike : ReadsAlike limit first (.rule .expression) cursor.advance.deeper middle
      (.tree tree)) (avoids : middle.Avoids [.rightParen])
    (inside : cursor.advance.position ≤ middle.position) :
    ReadsAlike limit first (.rule .primary) cursor middle.shallower
      (.failure (.otherExpected .rightParen "Expect ')' after expression.") middle.position) := by
  intro second there part abreast resemble fills
  cases fills
  obtain ⟨other, more, aheadThere, resembles, -, later, resembleLater⟩ :=
    abreast.step ahead resemble (Nat.le_trans (position_le_advance cursor) inside)
  obtain ⟨inner, between, reads, abreastBetween, -⟩ :=
    alike.exists_ok later.deeper resembleLater rfl
  have avoidsThere := abreastBetween.avoids (resembleLater.within inside (Nat.le_refl _))
    (Nat.le_refl _) (by decide) avoids
  exact ⟨_, .notClosed aheadThere (resembles.kind.trans opens) (mt abreast.isFull_iff.mp free)
    reads avoidsThere, abreastBetween.shallower, by
      rw [OutcomeOutline.fill, ← abreastBetween.position,
        abreastBetween.placeThere.getElem?_position]
      rfl⟩

theorem grouping {closing : Token} {after : List Token}
    (alike : ReadsAlike limit first (.rule .expression) cursor.advance.deeper middle
      (.tree tree)) (closes : middle.ahead = closing :: after) (kind : closing.kind = .rightParen)
    (inside : cursor.advance.position ≤ middle.position) :
    ReadsAlike limit first (.rule .primary) cursor
      middle.shallower.advance (.tree (.grouping tree)) := by
  intro second there part abreast resemble fills
  cases fills
  have below : middle.position ≤ middle.shallower.advance.position :=
    position_le_advance middle.shallower
  obtain ⟨other, more, aheadThere, resembles, -, later, resembleLater⟩ :=
    abreast.step ahead resemble
      (Nat.le_trans (Nat.le_trans (position_le_advance cursor) inside) below)
  obtain ⟨inner, between, reads, abreastBetween, filled⟩ :=
    alike.exists_ok later.deeper (resembleLater.within (Nat.le_refl _) below) rfl
  obtain ⟨otherClosing, left, closesThere, closingResembles, -, -, -⟩ :=
    abreastBetween.step closes (resembleLater.within inside (Nat.le_refl _)) below
  exact ⟨_, .grouping aheadThere (resembles.kind.trans opens) (mt abreast.isFull_iff.mp free)
    reads closesThere (closingResembles.kind.trans kind),
    abreastBetween.shallower.advance closes closesThere,
    by simp [OutcomeOutline.fill, Outline.fill, filled, ParseOutcome.result]⟩

end Group

end Next

theorem primary (avoids : cursor.Avoids TokenKind.unaryOperators)
    (alike : ReadsAlike limit first (.rule .primary) cursor stopped outline)
    (below : cursor.position ≤ stopped.position) :
    ReadsAlike limit first (.rule .unary) cursor stopped outline := by
  intro second there part abreast resemble fills
  cases fills
  obtain ⟨other, reads, found⟩ := alike second there _ abreast resemble rfl
  exact ⟨other, .primary (abreast.avoids resemble below (by decide) avoids) reads, found⟩

theorem noExpression (avoids : cursor.Avoids TokenKind.primaryStarts) :
    ReadsAlike limit first (.rule .primary) cursor cursor
      (.failure .noExpression cursor.position) := by
  intro second there part abreast resemble fills
  cases fills
  have avoidsThere := abreast.avoids resemble (Nat.le_refl _)
    TokenKind.eof_not_mem_primaryStarts avoids
  exact ⟨_, .noExpression avoidsThere, abreast, by
    rw [OutcomeOutline.fill, ← abreast.position, abreast.placeThere.getElem?_position]
    rfl⟩

end ReadsAlike

namespace OutcomeOutline

variable {tokens : List Token} {outline : OutcomeOutline}

theorem exists_tree {expr : Expr} (filled : outline.fill tokens = some (.ok expr)) :
    ∃ tree : Outline, outline = .tree tree ∧ tree.fill tokens = some expr := by
  cases outline with
  | tree tree =>
      obtain ⟨found, isTree, same⟩ := Option.map_eq_some_iff.mp filled
      cases same
      exact ⟨tree, rfl, isTree⟩
  | failure complaint index =>
      obtain ⟨token, -, other⟩ := Option.map_eq_some_iff.mp filled
      cases other

theorem exists_failure {failure : ParseFailure}
    (filled : outline.fill tokens = some (.error failure)) :
    ∃ complaint index, outline = .failure complaint index := by
  cases outline with
  | tree tree =>
      obtain ⟨found, -, other⟩ := Option.map_eq_some_iff.mp filled
      cases other
  | failure complaint index => exact ⟨complaint, index, rfl⟩

end OutcomeOutline

/-- The outcome of a reading has an outline, and rows that resemble the row that was read
have outcomes with the same outline. -/
theorem Reads.exists_outline {limit : Option Int} {part : Part} {cursor : TokenCursor}
    {outcome : ParseOutcome} {first : List Token} (reads : Reads limit part cursor outcome)
    (self : Abreast first first cursor cursor) (sketch : PartOutline)
    (fills : sketch.fill first = some part) :
    ∃ outline : OutcomeOutline, outline.fill first = some outcome.result ∧
      ReadsAlike limit first sketch cursor outcome.cursor outline := by
  induction reads generalizing sketch with
  | start _ ih =>
      obtain rfl := sketch.eq_rule fills
      obtain ⟨outline, filled, alike⟩ := ih self (.rule _) rfl
      exact ⟨outline, filled, alike.start⟩
  | noRoom none =>
      rw [self.unlimitedHere] at none
      cases none
  | expression _ _ ih =>
      obtain rfl := sketch.eq_rule fills
      obtain ⟨outline, filled, alike⟩ := ih self.spent (.rule _) rfl
      exact ⟨outline, filled, alike.expression⟩
  | firstOperandFails _ ih =>
      obtain rfl := sketch.eq_rule fills
      obtain ⟨outline, filled, alike⟩ := ih self (.rule _) rfl
      obtain ⟨complaint, index, rfl⟩ := outline.exists_failure filled
      exact ⟨_, filled, alike.firstOperandFails⟩
  | binary left tail ihLeft ihTail =>
      obtain rfl := sketch.eq_rule fills
      obtain ⟨read, passes⟩ := left.passes_of_ok
      have middle := self.of_passes passes passes rfl rfl
      obtain ⟨leftOutline, leftFilled, leftAlike⟩ := ihLeft self (.rule _) rfl
      obtain ⟨leftTree, rfl, filled⟩ := leftOutline.exists_tree leftFilled
      obtain ⟨outline, outlineFilled, alike⟩ := ihTail middle (.tail _ leftTree)
        (by rw [PartOutline.fill, filled]; rfl)
      exact ⟨outline, outlineFilled, leftAlike.binary alike left.position_le tail.position_le⟩
  | noOperator avoids =>
      obtain ⟨tree, rfl, filled⟩ := PartOutline.exists_tail fills
      exact ⟨.tree tree, by rw [OutcomeOutline.fill, filled]; rfl, .noOperator avoids⟩
  | rightOperandFails ahead kind right ih =>
      obtain ⟨tree, rfl, -⟩ := PartOutline.exists_tail fills
      obtain ⟨outline, filled, alike⟩ := ih (self.advance ahead ahead) (.rule _) rfl
      obtain ⟨complaint, index, rfl⟩ := outline.exists_failure filled
      exact ⟨_, filled, .rightOperandFails ahead kind alike
        (Nat.le_trans (position_le_advance _) right.position_le)⟩
  | @operator level cursor _ _ _ _ _ _ ahead kind right tail ihRight ihTail =>
      obtain ⟨leftTree, rfl, leftFilled⟩ := PartOutline.exists_tail fills
      obtain ⟨read, passes⟩ := right.passes_of_ok
      have later := self.advance ahead ahead
      have middle := later.of_passes passes passes rfl rfl
      obtain ⟨rightOutline, rightFilled, rightAlike⟩ := ihRight later (.rule _) rfl
      obtain ⟨rightTree, rfl, filled⟩ := rightOutline.exists_tree rightFilled
      obtain ⟨outline, outlineFilled, alike⟩ := ihTail middle
        (.tail level (.binary leftTree cursor.position rightTree))
        (by simp [PartOutline.fill, Outline.fill, leftFilled, filled, self.getElem?_here ahead])
      exact ⟨outline, outlineFilled,
        .operator ahead kind rightAlike alike right.position_le tail.position_le⟩
  | @signTooDeep cursor _ _ ahead sign full =>
      obtain rfl := sketch.eq_rule fills
      refine ⟨.failure .tooDeep cursor.position, ?_, .signTooDeep ahead sign full⟩
      rw [OutcomeOutline.fill, self.getElem?_here ahead]
      rfl
  | signedOperandFails ahead sign free inner ih =>
      obtain rfl := sketch.eq_rule fills
      obtain ⟨outline, filled, alike⟩ :=
        ih (self.advance ahead ahead).deeper (.rule _) rfl
      obtain ⟨complaint, index, rfl⟩ := outline.exists_failure filled
      exact ⟨_, filled, .signedOperandFails ahead sign free alike
        (Nat.le_trans (position_le_advance _) inner.position_le)⟩
  | @unary cursor _ _ _ _ ahead sign free inner ih =>
      obtain rfl := sketch.eq_rule fills
      obtain ⟨outline, innerFilled, alike⟩ :=
        ih (self.advance ahead ahead).deeper (.rule _) rfl
      obtain ⟨tree, rfl, filled⟩ := outline.exists_tree innerFilled
      refine ⟨.tree (.unary cursor.position tree), ?_, .unary ahead sign free alike
        (Nat.le_trans (position_le_advance _) inner.position_le)⟩
      simp [OutcomeOutline.fill, Outline.fill, filled, self.getElem?_here ahead,
        ParseOutcome.result]
  | primary avoids inner ih =>
      obtain rfl := sketch.eq_rule fills
      obtain ⟨outline, filled, alike⟩ := ih self (.rule _) rfl
      exact ⟨outline, filled, alike.primary avoids inner.position_le⟩
  | @valueWord cursor _ _ ahead word =>
      obtain rfl := sketch.eq_rule fills
      refine ⟨.tree (.leaf cursor.position), ?_, .valueWord ahead word⟩
      simp [OutcomeOutline.fill, Outline.fill, self.getElem?_here ahead, Token.constant?, word,
        ParseOutcome.result]
  | @constant cursor _ _ _ ahead carries value =>
      obtain rfl := sketch.eq_rule fills
      have noWord := TokenKind.not_mem_valueWords_of_carriesLiteral carries
      refine ⟨.tree (.leaf cursor.position), ?_, .constant ahead carries (by rw [value]; rfl)⟩
      simp [OutcomeOutline.fill, Outline.fill, self.getElem?_here ahead, Token.constant?, noWord,
        value, ParseOutcome.result]
  | @noValue cursor _ _ ahead carries none =>
      obtain rfl := sketch.eq_rule fills
      refine ⟨.failure .noValue cursor.position, ?_, .noValue ahead carries none⟩
      rw [OutcomeOutline.fill, self.getElem?_here ahead]
      rfl
  | @groupTooDeep cursor _ _ ahead opens full =>
      obtain rfl := sketch.eq_rule fills
      refine ⟨.failure .tooDeep cursor.position, ?_, .groupTooDeep ahead opens full⟩
      rw [OutcomeOutline.fill, self.getElem?_here ahead]
      rfl
  | groupFails ahead opens free inner ih =>
      obtain rfl := sketch.eq_rule fills
      obtain ⟨outline, filled, alike⟩ :=
        ih (self.advance ahead ahead).deeper (.rule _) rfl
      obtain ⟨complaint, index, rfl⟩ := outline.exists_failure filled
      exact ⟨_, filled, .groupFails ahead opens free alike
        (Nat.le_trans (position_le_advance _) inner.position_le)⟩
  | notClosed ahead opens free inner avoids ih =>
      obtain rfl := sketch.eq_rule fills
      have later := (self.advance ahead ahead).deeper
      obtain ⟨read, passes⟩ := inner.passes_of_ok
      have middle := later.of_passes passes passes rfl rfl
      obtain ⟨outline, innerFilled, alike⟩ := ih later (.rule _) rfl
      obtain ⟨tree, rfl, -⟩ := outline.exists_tree innerFilled
      refine ⟨_, ?_, .notClosed ahead opens free alike avoids inner.position_le⟩
      rw [OutcomeOutline.fill, middle.placeHere.getElem?_position]
      rfl
  | grouping ahead opens free inner closes kind ih =>
      obtain rfl := sketch.eq_rule fills
      obtain ⟨outline, innerFilled, alike⟩ :=
        ih (self.advance ahead ahead).deeper (.rule _) rfl
      obtain ⟨tree, rfl, filled⟩ := outline.exists_tree innerFilled
      refine ⟨.tree (.grouping tree), ?_,
        .grouping ahead opens free alike closes kind inner.position_le⟩
      simp [OutcomeOutline.fill, Outline.fill, filled, ParseOutcome.result]
  | @noExpression cursor avoids =>
      obtain rfl := sketch.eq_rule fills
      refine ⟨.failure .noExpression cursor.position, ?_, .noExpression avoids⟩
      rw [OutcomeOutline.fill, self.placeHere.getElem?_position]
      rfl

/-- A row of tokens ends with one that ends the input. -/
def EndsInput (tokens : List Token) : Prop :=
  ∃ last, tokens.getLast? = some last ∧ last.kind = .eof

open ParseM in
/-- Wherever and at whatever depth a rule is begun, its reading has an outline that any row
shares which resembles this one from there through the place where the reading stops. The
reading of the other row stops at the same place and depth, and gives the tree or the
failure of the same outline with its own tokens. Nothing else of the two rows counts. -/
theorem readRule_looks_one_token_ahead {first : List Token} (ends : EndsInput first) {index : Nat}
    (inside : index < first.length) (depth : Int) (wanted : Rule) :
    ∃ here, at? first index depth = some here ∧
      let outcome : ParseOutcome := (readRule (some maxDepth) wanted).run here
      index ≤ outcome.cursor.position ∧
      ∃ outline : OutcomeOutline, outline.fill first = some outcome.result ∧
        ∀ second, EndsInput second → ResembleFrom first second index outcome.cursor.position →
          ∃ there, at? second index depth = some there ∧
            let other : ParseOutcome := (readRule (some maxDepth) wanted).run there
            other.cursor.position = outcome.cursor.position ∧
              other.cursor.depth = outcome.cursor.depth ∧
              outline.fill second = some other.result := by
  obtain ⟨last, final, isEnd⟩ := ends
  obtain ⟨here, placed⟩ := exists_at? final isEnd inside depth
  obtain ⟨placeHere, position, depthHere, unlimited⟩ := at?_spec placed
  refine ⟨here, placed, ?_⟩
  intro outcome
  have reads := (run_readRule_eq_iff placeHere.ends).mp (rfl : _ = outcome)
  have self : Abreast first first here here :=
    ⟨placeHere, placeHere, rfl, rfl, unlimited, unlimited⟩
  have forward : index ≤ outcome.cursor.position := position ▸ reads.position_le
  obtain ⟨outline, filled, alike⟩ := reads.exists_outline self (.rule wanted) rfl
  refine ⟨forward, outline, filled, ?_⟩
  rintro second ⟨secondLast, secondFinal, secondEnd⟩ resemble
  have insideSecond : index < second.length := by
    obtain ⟨token, other, -, found, -⟩ := resemble index (Nat.le_refl _) forward
    exact (List.getElem?_eq_some_iff.mp found).1
  obtain ⟨there, placedThere⟩ := exists_at? secondFinal secondEnd insideSecond depth
  obtain ⟨placeThere, positionThere, depthThere, unlimitedThere⟩ := at?_spec placedThere
  have abreast : Abreast first second here there :=
    ⟨placeHere, placeThere, positionThere.trans position.symm, depthThere.trans depthHere.symm,
      unlimited, unlimitedThere⟩
  obtain ⟨other, otherReads, later, otherFilled⟩ :=
    alike second there _ abreast (position ▸ resemble) rfl
  have computed := (run_readRule_eq_iff placeThere.ends).mpr otherReads
  refine ⟨there, placedThere, ?_⟩
  intro found
  have same : found = other := computed
  rw [same]
  exact ⟨later.position, later.depth, otherFilled⟩

open ParseM in
/-- The rows differ before the place where a sum is begun, in all that their tokens say
beside their kinds, and after the place where it ends. -/
theorem readRule_looks_one_token_ahead_sum :
    let first : List Token :=
      [⟨.plus, "+", none, 1⟩, ⟨.minus, "-", none, 1⟩, ⟨.string, "\"a\"", some (.string "a"), 1⟩,
        ⟨.rightParen, ")", none, 1⟩, ⟨.eof, "", none, 1⟩]
    let second : List Token :=
      [⟨.eof, "", none, 1⟩, ⟨.minus, "--", none, 7⟩, ⟨.string, "\"b\"", some (.identifier "c"), 8⟩,
        ⟨.rightParen, "]", none, 9⟩, ⟨.star, "*", none, 9⟩, ⟨.eof, "", none, 9⟩]
    EndsInput first ∧ EndsInput second ∧ ResembleFrom first second 1 3 ∧
      ∃ there, at? second 1 63 = some there ∧ ∃ expr next,
        (readRule (some maxDepth) (.binary .term)).run there = .ok expr next ∧
          next.position = 3 ∧ next.depth = 63 := by
  intro first second
  have endsFirst : EndsInput first := ⟨_, rfl, rfl⟩
  have endsSecond : EndsInput second := ⟨_, rfl, rfl⟩
  have resemble : ResembleFrom first second 1 3 := by
    intro index above below
    obtain rfl | rfl | rfl : index = 1 ∨ index = 2 ∨ index = 3 := by omega
    all_goals exact ⟨_, _, rfl, rfl, rfl, fun _ => rfl⟩
  have opened : at? first 1 63 = some
      ⟨[⟨.plus, "+", none, 1⟩], (first.drop 1).take 3, ⟨.eof, "", none, 1⟩, ⟨.eof, "", none, 1⟩,
        63, none⟩ := rfl
  obtain ⟨here, placed, -, outline, filled, others⟩ :=
    readRule_looks_one_token_ahead endsFirst (by decide : 1 < 5) 63 (.binary .term)
  rw [opened] at placed
  cases placed
  obtain ⟨there, placedThere, position, depth, filledThere⟩ := others second endsSecond resemble
  obtain ⟨tree, rfl, -⟩ := outline.exists_tree filled
  obtain ⟨expr, -, same⟩ := Option.map_eq_some_iff.mp filledThere
  refine ⟨endsFirst, endsSecond, resemble, there, placedThere, ?_⟩
  generalize (readRule (some maxDepth) (.binary .term)).run there = other at *
  cases other with
  | ok expr next => exact ⟨expr, next, rfl, position, depth⟩
  | error failure stopped => cases same

end LoxFront
