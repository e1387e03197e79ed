/-
# How many rules are open at once

The descent is given a number of rules that it may have open at once, and gives up where it
would have to open one more. The reading of a row supplies a number that grows with the row.
Here the descent is compared with itself for different numbers. It either gives up or does what
it does with more, so for each reading there is one number that decides: with so many rules or
more the descent does what the reading does, and with fewer it gives up.

This number is bounded by the levels that are left and not by the row. Between two levels seven
rules are opened at most, and the operands of a chain are read one after another, so a chain of
any length needs no more rules than its deepest operand. Groups that are nested up to the limit
need all of them.
-/

import Mathlib.Data.Nat.Find
import LoxFront.Proofs.Parse.Lookahead
import LoxFront.Proofs.Parse.Whole

namespace LoxFront

open TokenCursor

namespace ParseM

/-! ## Giving up early -/

section CutOff

variable {α β : Type}

/-- A reading is another one cut off: it gives up, or it does what the other one does. -/
def IsCutOff (short long : ParseM α) : Prop :=
  ∀ cursor, (∃ stopped, short.run cursor = .error .exhausted stopped) ∨
    short.run cursor = long.run cursor

namespace IsCutOff

variable {short long : ParseM α}

theorem refl (reading : ParseM α) : IsCutOff reading reading :=
  fun _ => .inr rfl

/-- Giving up at once is the least that a reading can do. -/
theorem exhausted (long : ParseM α) : IsCutOff (throw .exhausted) long :=
  fun cursor => .inl ⟨cursor, rfl⟩

theorem bind {shortRest longRest : α → ParseM β} (first : IsCutOff short long)
    (rest : ∀ value, IsCutOff (shortRest value) (longRest value)) :
    IsCutOff (short >>= shortRest) (long >>= longRest) := by
  intro cursor
  rw [EStateM.run_bind, EStateM.run_bind]
  rcases first cursor with ⟨stopped, gaveUp⟩ | same
  · exact .inl ⟨stopped, by rw [gaveUp]⟩
  · rw [← same]
    cases short.run cursor with
    | ok value next => exact rest value next
    | error failure stopped => exact .inr rfl

/-- What is done first is the same for both. -/
theorem after (first : ParseM α) {shortRest longRest : α → ParseM β}
    (rest : ∀ value, IsCutOff (shortRest value) (longRest value)) :
    IsCutOff (first >>= shortRest) (first >>= longRest) :=
  (refl first).bind rest

section Descent

variable {limit : Option Int} {operand expression longer : ParseM Expr}

theorem chain (operators : List TokenKind) (cut : IsCutOff operand longer) (count : Nat)
    (left : Expr) :
    IsCutOff (chain operators operand count left) (chain operators longer count left) := by
  induction count generalizing left with
  | zero => exact refl _
  | succ count ih =>
      refine after _ fun found => ?_
      cases found with
      | none => exact refl _
      | some operator => exact cut.bind fun right => ih _

theorem readPrimary (cut : IsCutOff expression longer) :
    IsCutOff (readPrimary limit expression) (readPrimary limit longer) := by
  refine after _ fun cursor => ?_
  dsimp only
  have group := after advance fun _ => after (enter limit cursor.peek) fun _ =>
    cut.bind fun inner => refl (do
      leave
      let _ ← consume .rightParen "Expect ')' after expression."
      pure (Expr.grouping inner))
  cases cursor.peek.kind <;> first | exact refl _ | exact group

/-- With fewer rules to open, the descent gives up or does what it does with more. -/
theorem descend {frames more : Nat} (fewer : frames ≤ more) (wanted : Rule) :
    IsCutOff (descend limit frames wanted) (descend limit more wanted) := by
  induction frames generalizing more wanted with
  | zero => exact exhausted _
  | succ frames ih =>
      obtain ⟨more, rfl⟩ := Nat.exists_eq_add_of_le' (Nat.le_trans (Nat.le_add_left 1 _) fewer)
      have inside := fun wanted => ih (Nat.le_of_succ_le_succ fewer) wanted
      cases wanted with
      | start => exact inside .expression
      | expression => exact after spend fun _ => inside (.binary .equality)
      | binary level =>
          exact (inside level.operand).bind fun left => after get fun cursor =>
            chain level.operators (inside level.operand) cursor.ahead.length left
      | unary =>
          refine after _ fun found => ?_
          cases found with
          | none => exact inside .primary
          | some operator =>
              exact after _ fun _ => (inside .unary).bind fun operand => refl _
      | primary => exact readPrimary (inside .expression)

end Descent

end IsCutOff

end CutOff

/-- A descent that may have only so many rules open gives up. -/
def GivesUp (limit : Option Int) (frames : Nat) (wanted : Rule) (cursor : TokenCursor) : Prop :=
  ∃ stopped, (descend limit frames wanted).run cursor = .error .exhausted stopped

/-- The greatest number of rules that are open at once while a rule is read: with so many the
descent does what the reading does, and with fewer it gives up. -/
structure OpensUpTo (limit : Option Int) (wanted : Rule) (cursor : TokenCursor) (peak : Nat) :
    Prop where
  enough : ∀ frames, peak ≤ frames →
    (descend limit frames wanted).run cursor = (readRule limit wanted).run cursor
  short : ∀ frames < peak, GivesUp limit frames wanted cursor

end ParseM

namespace Reads

variable {limit : Option Int} {part : Part} {cursor : TokenCursor} {outcome : ParseOutcome}

/-- A reading with room for any number of expressions has room at its end. -/
theorem ne_exhausted (reads : Reads limit part cursor outcome)
    (unlimited : cursor.allowance = none) (stopped : TokenCursor) :
    outcome ≠ .error .exhausted stopped := by
  induction reads with
  | noRoom empty => simp [unlimited] at empty
  | start _ ih | firstOperandFails _ ih | primary _ _ ih => exact ih unlimited
  | expression _ _ ih => exact ih ((Passes.spent _).allowance unlimited)
  | binary left _ _ ih =>
      obtain ⟨read, passes⟩ := left.passes_of_ok
      exact ih (passes.allowance unlimited)
  | rightOperandFails next _ _ ih => exact ih ((Passes.advance next).allowance unlimited)
  | operator next _ right _ _ ih =>
      obtain ⟨read, passes⟩ := right.passes_of_ok
      exact ih (((Passes.advance next).trans passes).allowance unlimited)
  | signedOperandFails next _ _ _ ih | groupFails next _ _ _ ih =>
      exact ih (((Passes.advance next).trans (.deeper _)).allowance unlimited)
  | _ => exact nofun

end Reads

namespace ParseM

variable {limit : Option Int} {wanted : Rule} {cursor : TokenCursor}

theorem OpensUpTo.not_givesUp {peak frames : Nat} (opens : OpensUpTo limit wanted cursor peak)
    (ends : cursor.stop.kind = .eof) (unlimited : cursor.allowance = none)
    (ample : peak ≤ frames) : ¬ GivesUp limit frames wanted cursor := by
  rintro ⟨stopped, gaveUp⟩
  have reads := (run_readRule_eq_iff ends).mp ((opens.enough frames ample).symm.trans gaveUp)
  exact reads.ne_exhausted unlimited stopped rfl

/-- Every reading has a greatest number of rules that are open at once. The levels that are left
bound it, however many tokens there are. -/
theorem exists_opensUpTo (limit : Option Int) (wanted : Rule) (ends : cursor.stop.kind = .eof)
    (unlimited : cursor.allowance = none) :
    ∃ peak ≤ wanted.height + 7 * cursor.room limit, OpensUpTo limit wanted cursor peak := by
  classical
  have reads : Reads limit (.rule wanted) cursor ((readRule limit wanted).run cursor) :=
    (run_readRule_eq_iff ends).mp rfl
  have ample := reads.computed ends _ (Nat.le_refl _)
  rw [Part.RunsTo, Part.height] at ample
  have goesOn : ¬ GivesUp limit (wanted.height + 7 * cursor.room limit) wanted cursor := by
    rintro ⟨stopped, gaveUp⟩
    exact reads.ne_exhausted unlimited stopped (ample.symm.trans gaveUp)
  have some : ∃ frames, ¬ GivesUp limit frames wanted cursor := ⟨_, goesOn⟩
  have least := Nat.find_spec some
  have few := Nat.find_min' some goesOn
  refine ⟨Nat.find some, few, fun frames more => ?_, fun frames less => ?_⟩
  · have same (larger : Nat) (larger_le : Nat.find some ≤ larger) :=
      (IsCutOff.descend larger_le wanted cursor).resolve_left least
    exact (same frames more).symm.trans ((same _ few).trans ample)
  · exact not_not.mp (Nat.find_min some less)

/-! ## Nested groups -/

section Groups

variable {groups rest : List Token} (opens : ∀ token ∈ groups, token.kind = .leftParen)
  (unsigned : ∀ token ∈ rest.head?, token.kind ∉ TokenKind.unaryOperators)

include opens unsigned

/-- Groups that are nested within the limit need seven rules each. -/
theorem givesUp_of_groups {frames : Nat} (ahead : cursor.ahead = groups ++ rest)
    (fits : ∀ bound ∈ limit, cursor.depth + groups.length ≤ bound)
    (few : frames < wanted.height + 7 * groups.length) :
    GivesUp limit frames wanted cursor := by
  induction frames generalizing wanted cursor groups with
  | zero => exact ⟨cursor, rfl⟩
  | succ frames ih =>
      cases wanted with
      | start => exact ih opens ahead fits (by simp only [Rule.height] at few ⊢; omega)
      | expression =>
          rw [GivesUp, descend, EStateM.run_bind, run_spend]
          by_cases empty : cursor.allowance = some 0
          · rw [if_pos empty]
            exact ⟨cursor, rfl⟩
          · rw [if_neg empty]
            have inside : GivesUp limit frames (.binary .equality) cursor.spent :=
              ih opens ahead fits (by simp only [Rule.height] at few ⊢; omega)
            exact inside
      | binary level =>
          rw [Rule.height_binary] at few
          have inside : GivesUp limit frames level.operand cursor :=
            ih opens ahead fits (by omega)
          obtain ⟨stopped, gaveUp⟩ := inside
          exact ⟨stopped, by rw [descend, EStateM.run_bind, gaveUp]⟩
      | unary =>
          have avoids : cursor.Avoids TokenKind.unaryOperators := by
            rw [Avoids, ahead]
            cases groups with
            | nil => exact unsigned
            | cons opening groups =>
                rintro token ⟨⟩
                rw [opens opening List.mem_cons_self]
                decide
          rw [GivesUp, run_unary_of_avoids avoids]
          exact ih opens ahead fits (by simp only [Rule.height] at few ⊢; omega)
      | primary =>
          cases groups with
          | nil => simp [Rule.height] at few
          | cons opening groups =>
              rw [List.length_cons] at fits few
              have free : ¬ cursor.IsFull limit := by
                cases limit with
                | none => exact Bool.false_ne_true
                | some bound =>
                    have room := fits bound rfl
                    rw [IsFull, Option.any_some, decide_eq_true_eq]
                    omega
              have inside : GivesUp limit frames .expression cursor.advance.deeper := by
                refine ih (fun token member => opens token (List.mem_cons_of_mem _ member))
                  (ahead_advance ahead) (fun bound member => ?_)
                  (by simp only [Rule.height] at few ⊢; omega)
                have room := fits bound member
                rw [depth_deeper, depth_advance]
                omega
              obtain ⟨stopped, gaveUp⟩ := inside
              refine ⟨stopped, ?_⟩
              rw [descend,
                run_readPrimary_of_leftParen ahead (opens opening List.mem_cons_self) free,
                EStateM.run_bind, gaveUp]

/-- Groups that are nested up to the limit need all the rules that the levels allow. -/
theorem opensUpTo_of_groups {bound : Int} (ends : cursor.stop.kind = .eof)
    (unlimited : cursor.allowance = none) (ahead : cursor.ahead = groups ++ rest)
    (reaches : cursor.depth + groups.length = bound) :
    OpensUpTo (some bound) wanted cursor (wanted.height + 7 * groups.length) := by
  obtain ⟨peak, few, opensUpTo⟩ := exists_opensUpTo (some bound) wanted ends unlimited
  have room : cursor.room (some bound) ≤ groups.length := by
    rw [TokenCursor.room]
    omega
  have all : wanted.height + 7 * groups.length ≤ peak := by
    by_contra less
    have fits : ∀ other ∈ some bound, cursor.depth + groups.length ≤ other := by
      rintro other ⟨⟩
      exact Int.le_of_eq reaches
    exact opensUpTo.not_givesUp ends unlimited (Nat.le_refl _)
      (givesUp_of_groups opens unsigned ahead fits (Nat.lt_of_not_le less))
  obtain rfl : peak = wanted.height + 7 * groups.length := by omega
  exact opensUpTo

end Groups

end ParseM

open ParseM

/-- A descent that gives up as soon as more than 456 rules would be open at once never gives up on
a row, however long it is. This is one rule for the beginning, and seven outside of all levels and
in each of the 64 levels up to the limit. What the descent comes to is what the reading comes to,
and what is reported of the row. How many rules are open at once on the row says whether fewer
would do for it. -/
theorem descent_within_bound {tokens : List Token} (ends : EndsInput tokens) :
    ∃ start, ofTokens? tokens = some start ∧
      let cutOff : ParseOutcome := (descend (some maxDepth) 456 .start).run start
      (∀ stopped, cutOff ≠ .error .exhausted stopped) ∧
      cutOff = (readRule (some maxDepth) .start).run start ∧
      Reads (some maxDepth) (.rule .start) start cutOff ∧
      parse tokens = cutOff.report ∧
      ∃ peak ≤ 456, OpensUpTo (some maxDepth) .start start peak := by
  obtain ⟨last, final, isEnd⟩ := ends
  obtain ⟨start, opened⟩ := exists_ofTokens? final isEnd
  have isStart := isStartOf_of_ofTokens? opened
  obtain ⟨peak, few, opens⟩ :=
    exists_opensUpTo (some maxDepth) .start isStart.ends isStart.unlimited
  have bounded : peak ≤ 456 := by
    refine Nat.le_trans few ?_
    rw [TokenCursor.room, isStart.depth, maxDepth, Rule.height]
    omega
  have same := opens.enough 456 bounded
  refine ⟨start, opened, ?_⟩
  intro cutOff
  refine ⟨fun stopped gaveUp => ?_, same, (run_readRule_eq_iff isStart.ends).mp same.symm,
    (parse_eq_report opened).trans (congrArg _ same.symm), peak, bounded, opens⟩
  exact opens.not_givesUp isStart.ends isStart.unlimited bounded ⟨stopped, gaveUp⟩

/-- Groups nested up to the limit are read with 456 rules, and not with one less. -/
theorem descent_within_bound_deepest :
    let opening : Token := ⟨.leftParen, "(", none, 1⟩
    let word : Token := ⟨.kwNil, "nil", none, 1⟩
    let closing : Token := ⟨.rightParen, ")", none, 1⟩
    let tokens : List Token := List.replicate 64 opening ++
      (word :: (List.replicate 64 closing ++ [⟨.eof, "", none, 1⟩]))
    EndsInput tokens ∧ ∃ start, ofTokens? tokens = some start ∧
      (descend (some maxDepth) 456 .start).run start =
        (readRule (some maxDepth) .start).run start ∧
      GivesUp (some maxDepth) 455 .start start := by
  intro opening word closing tokens
  have ends : EndsInput tokens := ⟨_, rfl, rfl⟩
  let stop : Token := ⟨.eof, "", none, 1⟩
  let groups := List.replicate 64 opening
  let rest := word :: List.replicate 64 closing
  let start : TokenCursor := { ahead := groups ++ rest, stop, last := stop }
  have begun : ofTokens? tokens = some start := by decide +kernel
  have ahead : start.ahead = groups ++ rest := rfl
  have opens : OpensUpTo (some maxDepth) .start start (8 + 7 * 64) :=
    opensUpTo_of_groups (by decide +kernel) (by decide) rfl rfl ahead rfl
  obtain ⟨found, opened, -, same, -⟩ := descent_within_bound ends
  cases begun.symm.trans opened
  exact ⟨ends, start, begun, same, opens.short 455 (by decide)⟩

end LoxFront
