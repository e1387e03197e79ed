/-
# The descent is the relation

Every reading has an outcome by the relation `Reads`, and the descent computes it
whenever it may open enough rules. How many are enough is bounded twice. Between
two tokens at most seven rules are opened, so the tokens ahead bound the number;
and under a limit on the depth at most seven are opened between two levels, so the
levels that are left bound it as well. The smaller of the two bounds is the room
of the cursor.

The wrapper `readRule` always supplies enough, so for it relation and program are
the same thing.
-/

import LoxFront.Proofs.Parse.Steps

namespace LoxFront

open TokenCursor

namespace Rule

/-- How many rules are opened from a rule down to the primary expressions, with
both ends counted. -/
def height : Rule → Nat
  | .start => 8
  | .expression => 7
  | .binary .equality => 6
  | .binary .comparison => 5
  | .binary .term => 4
  | .binary .factor => 3
  | .unary => 2
  | .primary => 1

/-- The operands of a level are one rule further down. -/
theorem height_binary (level : BinaryLevel) :
    height (.binary level) = level.operand.height + 1 := by
  cases level <;> rfl

theorem height_pos (rule : Rule) : 0 < rule.height := by
  cases rule with
  | binary level => exact height_binary level ▸ Nat.succ_pos _
  | start | expression | unary | primary => decide

theorem height_le (rule : Rule) : rule.height ≤ 8 := by
  rcases rule with _ | _ | level | _ | _ <;> try decide
  cases level <;> decide

end Rule

namespace Part

/-- How many rules are opened from a part down to the primary expressions. -/
def height : Part → Nat
  | .rule wanted => wanted.height
  | .tail level _ => level.operand.height

/-- A number of rules that is enough for a rule is not zero. -/
theorem exists_frames {wanted : Rule} {more frames : Nat}
    (enough : (Part.rule wanted).height + more ≤ frames) :
    ∃ fewer, frames = fewer + 1 ∧ wanted.height + more ≤ fewer + 1 := by
  simp only [height] at enough
  have positive := wanted.height_pos
  exact ⟨frames - 1, by omega, by omega⟩

/-- The descent with some number of rules gives an outcome for a part. For the tail
of a level this is meant for every count of operators that is not too small. -/
def RunsTo (limit : Option Int) (frames : Nat) (cursor : TokenCursor)
    (outcome : ParseOutcome) : Part → Prop
  | .rule wanted => (ParseM.descend limit frames wanted).run cursor = outcome
  | .tail level left => ∀ count, cursor.ahead.length ≤ count →
      (ParseM.chain level.operators (ParseM.descend limit frames level.operand) count
        left).run cursor = outcome

end Part

namespace TokenCursor

/-- How often another token that opens a level can be passed: no more often than
there are tokens, and no more often than there are levels left. -/
def room (limit : Option Int) (cursor : TokenCursor) : Nat :=
  match limit with
  | none => cursor.ahead.length
  | some bound => min cursor.ahead.length (bound - cursor.depth).toNat

variable {limit : Option Int} {before after cursor : TokenCursor} {read : List Token}

theorem room_le_length (limit : Option Int) (cursor : TokenCursor) :
    cursor.room limit ≤ cursor.ahead.length := by
  unfold room
  split
  · exact Nat.le_refl _
  · exact Nat.min_le_left _ _

/-- On the same level, passing tokens leaves no more room. -/
theorem room_le_of_passes (limit : Option Int) (passes : Passes read before after)
    (depth : after.depth = before.depth) : after.room limit ≤ before.room limit := by
  have shorter := passes.length_le
  unfold room
  split
  · exact shorter
  · rw [depth]
    omega

theorem room_spent (limit : Option Int) (cursor : TokenCursor) :
    cursor.spent.room limit = cursor.room limit := rfl

/-- Opening a level takes room for one. -/
theorem room_advance_deeper {token : Token} {rest : List Token}
    (next : cursor.ahead = token :: rest) (free : ¬ cursor.IsFull limit) :
    cursor.advance.deeper.room limit + 1 ≤ cursor.room limit := by
  have passed : cursor.advance.deeper.ahead = rest := by simp [deeper, advance, next]
  unfold room
  split
  · exact Nat.le_of_eq (by rw [passed, next, List.length_cons])
  · simp only [IsFull, Option.any_some, decide_eq_true_eq] at free
    rw [passed, next, List.length_cons, depth_deeper, depth_advance]
    omega

end TokenCursor

namespace Reads

variable {limit : Option Int} {part : Part} {cursor : TokenCursor} {outcome : ParseOutcome}

open ParseM

/-- With enough rules to open, the descent gives an outcome for a part. -/
def Computed (limit : Option Int) (part : Part) (cursor : TokenCursor)
    (outcome : ParseOutcome) : Prop :=
  ∀ frames, part.height + 7 * cursor.room limit ≤ frames →
    part.RunsTo limit frames cursor outcome

/-- Opening a level takes one token and one level of room, which is enough for the
rules that are opened inside it. -/
theorem Computed.run_inside {outer inner : Rule} {token : Token} {rest : List Token}
    {frames : Nat} (computed : Computed limit (.rule inner) cursor.advance.deeper outcome)
    (next : cursor.ahead = token :: rest) (free : ¬ cursor.IsFull limit)
    (ample : outer.height + 7 * cursor.room limit ≤ frames + 1)
    (low : inner.height ≤ outer.height + 6) :
    (descend limit frames inner).run cursor.advance.deeper = outcome := by
  have smaller := room_advance_deeper next free
  apply computed frames
  simp only [Part.height]
  omega

/-- A count of operators that is not too small allows for the next one. -/
theorem exists_fewer {token : Token} {rest : List Token} {count : Nat}
    (next : cursor.ahead = token :: rest) (long : cursor.ahead.length ≤ count) :
    ∃ fewer, count = fewer + 1 ∧ rest.length ≤ fewer := by
  rw [next, List.length_cons] at long
  exact ⟨count - 1, by omega, by omega⟩

/-- The descent computes the outcome of a reading when it may open enough rules. -/
theorem computed (reads : Reads limit part cursor outcome) (ends : cursor.stop.kind = .eof) :
    Computed limit part cursor outcome := by
  induction reads with
  | start _ ih =>
      intro frames enough
      obtain ⟨frames, rfl, ample⟩ := Part.exists_frames enough
      exact ih ends frames (by simp only [Part.height, Rule.height] at ample ⊢; omega)
  | noRoom empty =>
      intro frames enough
      obtain ⟨frames, rfl, -⟩ := Part.exists_frames enough
      rw [Part.RunsTo, descend, EStateM.run_bind, run_spend, if_pos empty]
  | expression room _ ih =>
      intro frames enough
      obtain ⟨frames, rfl, ample⟩ := Part.exists_frames enough
      rw [Part.RunsTo, descend, EStateM.run_bind, run_spend, if_neg room]
      exact ih ends frames (by
        simp only [Part.height, Rule.height, room_spent] at ample ⊢
        omega)
  | firstOperandFails _ ih =>
      intro frames enough
      obtain ⟨frames, rfl, ample⟩ := Part.exists_frames enough
      rw [Rule.height_binary, Nat.add_right_comm] at ample
      have first := ih ends frames (Nat.le_of_succ_le_succ ample)
      rw [Part.RunsTo] at first ⊢
      rw [descend, EStateM.run_bind, first]
  | binary left _ ihLeft ihTail =>
      intro frames enough
      obtain ⟨frames, rfl, ample⟩ := Part.exists_frames enough
      rw [Rule.height_binary, Nat.add_right_comm] at ample
      obtain ⟨read, passes⟩ := left.passes_of_ok
      have smaller := room_le_of_passes limit passes left.depth_eq
      have first := ihLeft ends frames (Nat.le_of_succ_le_succ ample)
      have tail := ihTail (passes.stop ▸ ends) frames (by
        simp only [Part.height]
        omega)
      rw [Part.RunsTo] at first ⊢
      rw [descend, EStateM.run_bind, first]
      exact tail _ (Nat.le_refl _)
  | noOperator avoids =>
      intro frames _ count _
      exact run_chain_of_avoids avoids count
  | rightOperandFails next operator _ ih =>
      intro frames enough count long
      obtain ⟨count, rfl, -⟩ := exists_fewer next long
      have smaller := room_le_of_passes limit (.advance next) (depth_advance _)
      have right := ih (by rwa [(Passes.advance next).stop]) frames
        (Nat.le_trans (Nat.add_le_add_left (Nat.mul_le_mul_left 7 smaller) _) enough)
      rw [Part.RunsTo] at right
      rw [run_chain_of_mem next operator, EStateM.run_bind, right]
  | operator next operator right _ ihRight ihTail =>
      intro frames enough count long
      obtain ⟨count, rfl, fewer⟩ := exists_fewer next long
      obtain ⟨read, passes⟩ := right.passes_of_ok
      have all := (Passes.advance next).trans passes
      have smaller := room_le_of_passes limit (.advance next) (depth_advance _)
      have smallest := room_le_of_passes limit all (right.depth_eq.trans (depth_advance _))
      have first := ihRight (by rwa [(Passes.advance next).stop]) frames
        (Nat.le_trans (Nat.add_le_add_left (Nat.mul_le_mul_left 7 smaller) _) enough)
      have tail := ihTail (by rwa [all.stop]) frames
        (Nat.le_trans (Nat.add_le_add_left (Nat.mul_le_mul_left 7 smallest) _) enough)
      rw [Part.RunsTo] at first
      rw [run_chain_of_mem next operator, EStateM.run_bind, first]
      exact tail count (Nat.le_trans passes.length_le (ahead_advance next ▸ fewer))
  | signTooDeep next sign full =>
      intro frames enough
      obtain ⟨frames, rfl, -⟩ := Part.exists_frames enough
      exact run_unary_of_full next sign full
  | signedOperandFails next sign free _ ih =>
      intro frames enough
      obtain ⟨frames, rfl, ample⟩ := Part.exists_frames enough
      have inside := ih (by rwa [((Passes.advance next).trans (.deeper _)).stop])
      have operand := inside.run_inside next free ample (by decide)
      rw [Part.RunsTo, run_unary_of_mem next sign free, EStateM.run_bind, operand]
  | unary next sign free _ ih =>
      intro frames enough
      obtain ⟨frames, rfl, ample⟩ := Part.exists_frames enough
      have inside := ih (by rwa [((Passes.advance next).trans (.deeper _)).stop])
      have operand := inside.run_inside next free ample (by decide)
      rw [Part.RunsTo, run_unary_of_mem next sign free, EStateM.run_bind, operand]
      rfl
  | primary avoids _ ih =>
      intro frames enough
      obtain ⟨frames, rfl, ample⟩ := Part.exists_frames enough
      rw [Part.RunsTo, run_unary_of_avoids avoids]
      exact ih ends frames (by simp only [Part.height, Rule.height] at ample ⊢; omega)
  | valueWord next word =>
      intro frames enough
      obtain ⟨frames, rfl, -⟩ := Part.exists_frames enough
      rw [Part.RunsTo, descend, run_readPrimary, peek_eq next, if_pos word]
  | constant next carries value =>
      intro frames enough
      obtain ⟨frames, rfl, -⟩ := Part.exists_frames enough
      rw [Part.RunsTo, descend, run_readPrimary, peek_eq next,
        if_neg (TokenKind.not_mem_valueWords_of_carriesLiteral carries), if_pos carries, value]
  | noValue next carries value =>
      intro frames enough
      obtain ⟨frames, rfl, -⟩ := Part.exists_frames enough
      rw [Part.RunsTo, descend, run_readPrimary, peek_eq next,
        if_neg (TokenKind.not_mem_valueWords_of_carriesLiteral carries), if_pos carries, value]
  | groupTooDeep next opens full =>
      intro frames enough
      obtain ⟨frames, rfl, -⟩ := Part.exists_frames enough
      exact run_readPrimary_of_full next opens full
  | groupFails next opens free _ ih =>
      intro frames enough
      obtain ⟨frames, rfl, ample⟩ := Part.exists_frames enough
      have inside := ih (by rwa [((Passes.advance next).trans (.deeper _)).stop])
      have inner := inside.run_inside next free ample (by decide)
      rw [Part.RunsTo, descend, run_readPrimary_of_leftParen next opens free, EStateM.run_bind, inner]
  | notClosed next opens free _ avoids ih =>
      intro frames enough
      obtain ⟨frames, rfl, ample⟩ := Part.exists_frames enough
      have inside := ih (by rwa [((Passes.advance next).trans (.deeper _)).stop])
      have inner := inside.run_inside next free ample (by decide)
      rw [Part.RunsTo, descend, run_readPrimary_of_leftParen next opens free, EStateM.run_bind, inner]
      exact run_close_of_avoids avoids
  | grouping next opens free _ closes kind ih =>
      intro frames enough
      obtain ⟨frames, rfl, ample⟩ := Part.exists_frames enough
      have inside := ih (by rwa [((Passes.advance next).trans (.deeper _)).stop])
      have inner := inside.run_inside next free ample (by decide)
      rw [Part.RunsTo, descend, run_readPrimary_of_leftParen next opens free, EStateM.run_bind, inner]
      exact run_close_of_eq closes kind
  | noExpression avoids =>
      intro frames enough
      obtain ⟨frames, rfl, -⟩ := Part.exists_frames enough
      exact run_readPrimary_of_avoids ends avoids

/-! ## Every reading has an outcome -/

section Total

/-- Readings that begin further on have outcomes. -/
def OutcomesAfter (limit : Option Int) (wanted : Rule) (cursor : TokenCursor) : Prop :=
  ∀ later : TokenCursor, later.ahead.length < cursor.ahead.length →
    ∃ outcome, Reads limit (.rule wanted) later outcome

theorem exists_primary (inside : OutcomesAfter limit .expression cursor) :
    ∃ outcome, Reads limit (.rule .primary) cursor outcome := by
  rcases avoids_or_next TokenKind.primaryStarts cursor with avoids | ⟨token, rest, next, kind⟩
  · exact ⟨_, .noExpression avoids⟩
  · rcases TokenKind.mem_primaryStarts_iff.mp kind with word | carries | opens
    · exact ⟨_, .valueWord next word⟩
    · cases value : token.literal with
      | none => exact ⟨_, .noValue next carries value⟩
      | some literal => exact ⟨_, .constant next carries value⟩
    · by_cases full : cursor.IsFull limit
      · exact ⟨_, .groupTooDeep next opens full⟩
      · have shorter := Passes.length_advance next
        obtain ⟨outcome, inner⟩ := inside cursor.advance.deeper (by
          simp only [deeper]
          omega)
        cases outcome with
        | error failure stopped => exact ⟨_, .groupFails next opens full inner⟩
        | ok expr middle =>
            rcases avoids_or_next [.rightParen] middle with avoids | ⟨closing, after, closes, kind⟩
            · exact ⟨_, .notClosed next opens full inner avoids⟩
            · exact ⟨_, .grouping next opens full inner closes (List.mem_singleton.mp kind)⟩

theorem exists_unary (operand : OutcomesAfter limit .unary cursor)
    (primary : ∃ outcome, Reads limit (.rule .primary) cursor outcome) :
    ∃ outcome, Reads limit (.rule .unary) cursor outcome := by
  rcases avoids_or_next TokenKind.unaryOperators cursor with avoids | ⟨token, rest, next, kind⟩
  · obtain ⟨outcome, reads⟩ := primary
    exact ⟨outcome, .primary avoids reads⟩
  · by_cases full : cursor.IsFull limit
    · exact ⟨_, .signTooDeep next kind full⟩
    · have shorter := Passes.length_advance next
      obtain ⟨outcome, reads⟩ := operand cursor.advance.deeper (by
        simp only [deeper]
        omega)
      cases outcome with
      | error failure stopped => exact ⟨_, .signedOperandFails next kind full reads⟩
      | ok expr middle => exact ⟨_, .unary next kind full reads⟩

/-- The tail of a level has an outcome if the operands of the level have. The
induction is on the tokens ahead, of which each round passes one at least. -/
theorem exists_tail {level : BinaryLevel} (bound : Nat)
    (operand : ∀ cursor : TokenCursor, cursor.ahead.length < bound →
      ∃ outcome, Reads limit (.rule level.operand) cursor outcome)
    (left : Expr) (few : cursor.ahead.length ≤ bound) :
    ∃ outcome, Reads limit (.tail level left) cursor outcome := by
  induction size : cursor.ahead.length using Nat.strongRecOn generalizing cursor left with
  | _ size ih =>
      rcases avoids_or_next level.operators cursor with avoids | ⟨token, rest, next, kind⟩
      · exact ⟨_, .noOperator avoids⟩
      · have shorter := Passes.length_advance next
        obtain ⟨outcome, right⟩ := operand cursor.advance (by omega)
        cases outcome with
        | error failure stopped => exact ⟨_, .rightOperandFails next kind right⟩
        | ok expr middle =>
            obtain ⟨read, passes⟩ := right.passes_of_ok
            have least := passes.length_le
            obtain ⟨outcome, tail⟩ := ih middle.ahead.length (by omega)
              (.binary left token expr) (by omega) rfl
            exact ⟨outcome, .operator next kind right tail⟩

theorem exists_binary {level : BinaryLevel}
    (operand : ∀ later : TokenCursor, later.ahead.length ≤ cursor.ahead.length →
      ∃ outcome, Reads limit (.rule level.operand) later outcome) :
    ∃ outcome, Reads limit (.rule (.binary level)) cursor outcome := by
  obtain ⟨outcome, first⟩ := operand cursor (Nat.le_refl _)
  cases outcome with
  | error failure stopped => exact ⟨_, .firstOperandFails first⟩
  | ok expr middle =>
      obtain ⟨read, passes⟩ := first.passes_of_ok
      obtain ⟨outcome, tail⟩ := exists_tail cursor.ahead.length
        (fun later fewer => operand later (Nat.le_of_lt fewer)) expr passes.length_le
      exact ⟨outcome, .binary first tail⟩

/-- Every rule has an outcome from every cursor. The induction is on the tokens ahead
and, between two tokens, on the rules that are still to be opened. -/
theorem exists_rule (limit : Option Int) (bound : Nat) (wanted : Rule) (cursor : TokenCursor)
    (small : wanted.height + 7 * cursor.ahead.length ≤ bound) :
    ∃ outcome, Reads limit (.rule wanted) cursor outcome := by
  induction bound generalizing wanted cursor with
  | zero =>
      have positive := wanted.height_pos
      omega
  | succ bound ih =>
      cases wanted with
      | start =>
          obtain ⟨outcome, reads⟩ := ih .expression cursor (by
            simp only [Rule.height] at small ⊢
            omega)
          exact ⟨outcome, .start reads⟩
      | expression =>
          by_cases empty : cursor.allowance = some 0
          · exact ⟨_, .noRoom empty⟩
          · obtain ⟨outcome, reads⟩ := ih (.binary .equality) cursor.spent (by
              simp only [Rule.height, spent] at small ⊢
              omega)
            exact ⟨outcome, .expression empty reads⟩
      | binary level =>
          rw [Rule.height_binary] at small
          exact exists_binary fun later fewer => ih level.operand later (by omega)
      | unary =>
          simp only [Rule.height] at small
          exact exists_unary
            (fun later fewer => ih .unary later (by simp only [Rule.height]; omega))
            (ih .primary cursor (by simp only [Rule.height]; omega))
      | primary =>
          simp only [Rule.height] at small
          exact exists_primary fun later fewer =>
            ih .expression later (by simp only [Rule.height]; omega)

end Total

end Reads

namespace ParseM

variable {limit : Option Int} {wanted : Rule} {cursor : TokenCursor} {outcome : ParseOutcome}

/-- The wrapper supplies enough rules, so reading is exactly what the relation says. -/
theorem run_readRule_eq_iff (ends : cursor.stop.kind = .eof) :
    (readRule limit wanted).run cursor = outcome ↔ Reads limit (.rule wanted) cursor outcome := by
  have computes : ∀ outcome, Reads limit (.rule wanted) cursor outcome →
      (readRule limit wanted).run cursor = outcome := by
    intro outcome reads
    have enough : (Part.rule wanted).height + 7 * cursor.room limit ≤ framesFor cursor := by
      have few := wanted.height_le
      have room := room_le_length limit cursor
      simp only [Part.height, framesFor]
      omega
    exact reads.computed ends (framesFor cursor) enough
  constructor
  · rintro rfl
    obtain ⟨outcome, reads⟩ := Reads.exists_rule limit _ wanted cursor (Nat.le_refl _)
    rwa [computes outcome reads]
  · exact computes outcome

end ParseM

end LoxFront
