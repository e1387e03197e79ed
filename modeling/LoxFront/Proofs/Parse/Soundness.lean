/-
# What a successful reading has read

A reading that succeeds has passed exactly the tokens of a sentence, and its tree is
the one that the grammar gives to them. The tree nests no deeper than the limit
allowed, and the token at which the reading stopped could not have gone on the
sentence. The three facts are independent of each other and are proved apart, each
by induction on the reading.

The tail of a level is not a sentence of its own. What is shown for it is what it
adds to a left operand, whatever tokens that operand was made of.
-/

import LoxFront.Proofs.Parse.Reads

namespace LoxFront

open TokenCursor

namespace Part

/-- Which tokens make up a part, and what tree comes of them. The tail of a level
turns every way of writing its left operand into a way of writing the whole. -/
def Derives : Part → List Token → Expr → Prop
  | .rule wanted, tokens, expr => Sentence wanted tokens expr
  | .tail level left, tokens, expr => ∀ before,
      Sentence (.binary level) before left → Sentence (.binary level) (before ++ tokens) expr

/-- A part stands within a limit when it is begun at some depth. -/
def Fits (bound depth : Int) : Part → Prop
  | .rule _ => depth ≤ bound
  | .tail _ left => left.nesting + depth ≤ bound

/-- The operators with which a part could go on. -/
def continuations : Part → List TokenKind
  | .rule wanted => wanted.continuations
  | .tail level _ => (Rule.binary level).continuations

/-- The tail of a level begins where its left operand could not go on. -/
def Begins (cursor : TokenCursor) : Part → Prop
  | .rule _ => True
  | .tail level _ => cursor.Avoids level.operand.continuations

end Part

namespace TokenCursor

theorem avoids_append {first second : List TokenKind} {cursor : TokenCursor}
    (one : cursor.Avoids first) (two : cursor.Avoids second) :
    cursor.Avoids (first ++ second) := by
  intro token member kind
  exact (List.mem_append.mp kind).elim (one token member) (two token member)

theorem avoids_nil (cursor : TokenCursor) : cursor.Avoids [] :=
  fun _ _ kind => absurd kind List.not_mem_nil

/-- Where there is room under a limit, one more level stays within it. -/
theorem depth_lt_of_not_isFull {bound : Int} {cursor : TokenCursor}
    (free : ¬ cursor.IsFull (some bound)) : cursor.depth < bound := by
  simpa [IsFull] using free

end TokenCursor

namespace Reads

variable {limit : Option Int} {part : Part} {cursor next : TokenCursor} {expr : Expr}

/-- A successful reading passes the tokens of a sentence and gives their tree. -/
theorem derives (reads : Reads limit part cursor (.ok expr next)) :
    ∃ read, Passes read cursor next ∧ part.Derives read expr := by
  generalize result : (.ok expr next : ParseOutcome) = outcome at reads
  induction reads generalizing expr next with
  | start _ ih =>
      obtain ⟨read, passes, sentence⟩ := ih result
      exact ⟨read, passes, .start sentence⟩
  | expression _ _ ih =>
      obtain ⟨read, passes, sentence⟩ := ih result
      exact ⟨read, (Passes.spent _).trans passes, .expression sentence⟩
  | binary _ _ ihLeft ihTail =>
      obtain ⟨read, passes, operand⟩ := ihLeft rfl
      obtain ⟨more, passesMore, adds⟩ := ihTail result
      exact ⟨read ++ more, passes.trans passesMore, adds read (.operand operand)⟩
  | noOperator =>
      cases result
      exact ⟨[], .refl _, fun before left => by rwa [List.append_nil]⟩
  | @operator level cursor middle left right operator rest outcome ahead kind _ _ ihRight
      ihTail =>
      obtain ⟨read, passes, operand⟩ := ihRight rfl
      obtain ⟨more, passesMore, adds⟩ := ihTail result
      refine ⟨_, ((Passes.advance ahead).trans passes).trans passesMore, fun before sentence => ?_⟩
      have whole := adds _ (.binary sentence kind operand)
      simpa only [List.append_assoc, List.cons_append, List.nil_append] using whole
  | unary ahead sign _ _ ih =>
      cases result
      obtain ⟨read, passes, operand⟩ := ih rfl
      exact ⟨_, (((Passes.advance ahead).trans (.deeper _)).trans passes).trans (.shallower _),
        by simpa [Part.Derives] using Sentence.unary sign operand⟩
  | primary _ _ ih =>
      obtain ⟨read, passes, sentence⟩ := ih result
      exact ⟨read, passes, .primary sentence⟩
  | valueWord ahead word =>
      cases result
      exact ⟨_, .advance ahead, .valueWord word⟩
  | constant ahead carries value =>
      cases result
      exact ⟨_, .advance ahead, .constant carries value⟩
  | grouping ahead opens _ _ closes kind ih =>
      cases result
      obtain ⟨read, passes, inner⟩ := ih rfl
      exact ⟨_, ((((Passes.advance ahead).trans (.deeper _)).trans passes).trans
        (.shallower _)).trans (Passes.advance closes),
        by simpa [Part.Derives] using Sentence.grouping opens inner kind⟩
  | _ => cases result

/-- A successful reading stays within the limit on the depth. -/
theorem nesting_le {bound : Int} (reads : Reads (some bound) part cursor (.ok expr next))
    (fits : part.Fits bound cursor.depth) : expr.nesting + cursor.depth ≤ bound := by
  generalize result : (.ok expr next : ParseOutcome) = outcome at reads
  induction reads generalizing expr next with
  | start _ ih | expression _ _ ih | primary _ _ ih => exact ih fits result
  | binary left _ ihLeft ihTail =>
      have same := left.depth_eq
      have first := ihLeft fits rfl
      rw [← same] at first ⊢
      exact ihTail first result
  | noOperator =>
      cases result
      exact fits
  | operator _ _ right _ ihRight ihTail =>
      have same := right.depth_eq
      rw [depth_advance] at same
      have second := ihRight (by
        rw [depth_advance]
        simp only [Part.Fits] at fits ⊢
        omega) rfl
      rw [depth_advance] at second
      rw [← same] at fits second ⊢
      refine ihTail ?_ result
      simp only [Part.Fits, Expr.nesting] at fits ⊢
      omega
  | unary _ _ free _ ih | grouping _ _ free _ _ _ ih =>
      cases result
      have room := depth_lt_of_not_isFull free
      have inner := ih (by
        simp only [Part.Fits, depth_deeper, depth_advance]
        omega) rfl
      simp only [depth_deeper, depth_advance] at inner
      simp only [Expr.nesting]
      omega
  | valueWord | constant =>
      cases result
      simpa [Expr.nesting, Part.Fits] using fits
  | _ => cases result

theorem nestsWithin {wanted : Rule} (reads : Reads limit (.rule wanted) cursor (.ok expr next))
    (fits : ∀ bound ∈ limit, cursor.depth ≤ bound) : expr.NestsWithin limit cursor.depth := by
  rintro bound member
  rw [Option.mem_def] at member
  subst member
  exact reads.nesting_le (fits bound rfl)

/-- A successful reading stops where what was read could not go on. -/
theorem avoids_continuations (reads : Reads limit part cursor (.ok expr next))
    (begins : part.Begins cursor) : next.Avoids part.continuations := by
  generalize result : (.ok expr next : ParseOutcome) = outcome at reads
  induction reads generalizing expr next with
  | start _ ih | expression _ _ ih => exact ih trivial result
  | binary _ _ ihLeft ihTail => exact ihTail (ihLeft trivial rfl) result
  | noOperator avoids =>
      cases result
      rw [Part.continuations, Rule.continuations_binary]
      exact avoids_append avoids begins
  | operator _ _ _ _ ihRight ihTail => exact ihTail (ihRight trivial rfl) result
  | unary | primary | valueWord | constant | grouping => exact avoids_nil _
  | _ => cases result

end Reads

end LoxFront
