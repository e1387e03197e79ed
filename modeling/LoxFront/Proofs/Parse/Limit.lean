/-
# The limit on the depth

A reading within the limit is compared with the free one, in which levels are opened
without a question, by the record of the free one. As long as no recorded depth is over the
limit the two do the same. At the first level that is over the limit the reading within it
stops, at the token that opens this level, while the free one goes on.

The comparison is kept by every step of the descent, and so by the whole of it. What
follows the token at which the reading stops plays no part.
-/

import LoxFront.Proofs.Parse.Levels
import LoxFront.Proofs.Parse.Lookahead
import LoxFront.Proofs.Parse.TooDeep

namespace LoxFront

open TokenCursor TokenKind

/-- What a reading within a bound comes to, seen from what the free one comes to and its
record. -/
inductive IsHeld {α : Type} (bound : Int) (held : EStateM.Result ParseFailure TokenCursor α) :
    Recorded α → Prop where
  /-- The free reading stays within the bound, and the two do the same. -/
  | within {changes : List LevelChange} :
    (∀ change ∈ changes, change.cursor.depth ≤ bound) →
    (∀ value next, held = .ok value next → next.depth ≤ bound) →
    IsHeld bound held (held, changes)
  /-- The free reading opens a level over the bound, and the other one stops there. -/
  | beyond {outcome : EStateM.Result ParseFailure TokenCursor α} {before after : List LevelChange}
      {token : Token} {stage : TokenCursor} :
    (∀ change ∈ before, change.cursor.depth ≤ bound) → stage.depth = bound + 1 →
    held = .error (.problem (.expressionTooDeep token)) stage.shallower →
    IsHeld bound held (outcome, before ++ .opened token stage :: after)

/-- From a depth within a bound, a reading within the bound follows a free one. -/
def Follows (bound : Int) {α : Type} (free : RecordM α) (reading : ParseM α) : Prop :=
  ∀ cursor : TokenCursor, cursor.depth ≤ bound → IsHeld bound (reading.run cursor) (free cursor)

namespace IsHeld

variable {α : Type} {bound : Int} {held : EStateM.Result ParseFailure TokenCursor α}
  {free later : Recorded α} {changes : List LevelChange}

/-- As long as nothing is over the bound, the two readings do the same. -/
theorem eq_of_low (isHeld : IsHeld bound held free)
    (low : ∀ change ∈ free.2, change.cursor.depth ≤ bound) : held = free.1 := by
  cases isHeld with
  | within => rfl
  | @beyond _ before _ token stage _ deep _ =>
      have within : stage.depth ≤ bound := low (.opened token stage) (by simp)
      omega

/-- The first level over the bound is where the reading within it stops. -/
theorem exists_opened (isHeld : IsHeld bound held free)
    (deep : ∃ change ∈ free.2, bound < change.cursor.depth) :
    ∃ before token stage after, free.2 = before ++ .opened token stage :: after ∧
      (∀ change ∈ before, change.cursor.depth ≤ bound) ∧ stage.depth = bound + 1 ∧
      held = .error (.problem (.expressionTooDeep token)) stage.shallower := by
  cases isHeld with
  | within low =>
      obtain ⟨change, member, deeper⟩ := deep
      exact absurd (low change member) (Int.not_le.mpr deeper)
  | beyond low depth stops => exact ⟨_, _, _, _, rfl, low, depth, stops⟩

/-- What follows changes within the bound is seen from before them. -/
theorem after (low : ∀ change ∈ changes, change.cursor.depth ≤ bound)
    (isHeld : IsHeld bound held later) :
    IsHeld bound held (later.1, changes ++ later.2) := by
  cases isHeld with
  | within lowLater depth => exact .within (List.forall_mem_append.mpr ⟨low, lowLater⟩) depth
  | @beyond _ before _ _ _ lowBefore depth stops =>
      rw [← List.append_assoc]
      exact .beyond (List.forall_mem_append.mpr ⟨low, lowBefore⟩) depth stops

end IsHeld

namespace Follows

open RecordM

variable {α β : Type} {bound : Int}

/-- A reading that opens no level is the same within a bound. -/
theorem silently {reading : ParseM α}
    (keeps : ∀ cursor value next, reading.run cursor = .ok value next → next.depth = cursor.depth) :
    Follows bound (silently reading) reading :=
  fun cursor low => .within (List.forall_mem_nil _) fun value next found =>
    keeps cursor value next found ▸ low

theorem keepsLevel {reading : ParseM α} (keeps : reading.KeepsLevel) :
    Follows bound (RecordM.silently reading) reading := by
  refine silently fun cursor value next found => ?_
  have kept := keeps cursor
  rwa [found] at kept

theorem consume (kind : TokenKind) (message : String) :
    Follows bound (RecordM.silently (ParseM.consume kind message))
      (ParseM.consume kind message) := by
  refine silently fun cursor value next found => ?_
  rw [ParseM.run_consume] at found
  split at found
  · cases found
    exact depth_advance cursor
  · cases found

/-- Once the two have parted, nothing that the free one goes on to do matters. -/
theorem bind {first : RecordM α} {second : ParseM α} {rest : α → RecordM β}
    {more : α → ParseM β} (follows : Follows bound first second)
    (next : ∀ value, Follows bound (rest value) (more value)) :
    Follows bound (first >>= rest) (second >>= more) := by
  intro cursor low
  have isHeld := follows cursor low
  rw [EStateM.run_bind]
  generalize second.run cursor = held at isHeld
  cases found : first cursor with
  | mk outcome changes =>
      rw [found] at isHeld
      cases isHeld with
      | within lowChanges depth =>
          cases held with
          | error failure stopped =>
              rw [bind_of_error found]
              exact .within lowChanges fun _ _ => nofun
          | ok value middle =>
              rw [bind_of_ok found]
              exact (next value middle (depth value middle rfl)).after lowChanges
      | beyond lowBefore depth stops =>
          subst stops
          cases outcome with
          | error failure stopped =>
              rw [bind_of_error found]
              exact .beyond lowBefore depth rfl
          | ok value middle =>
              rw [bind_of_ok found, List.append_assoc]
              exact .beyond lowBefore depth rfl

/-- Opening a level is where the two may part. -/
theorem enter (token : Token) :
    Follows bound (RecordM.enter none token) (ParseM.enter (some bound) token) := by
  intro cursor low
  have free : ¬ cursor.IsFull none := Bool.false_ne_true
  rw [enter_of_not_full free]
  by_cases full : cursor.IsFull (some bound)
  · -- the depth is the bound itself, since it is not over it
    have deep : cursor.deeper.depth = bound + 1 := by
      have reached : bound ≤ cursor.depth := by simpa [IsFull] using full
      rw [depth_deeper]
      omega
    refine .beyond (List.forall_mem_nil _) deep ?_
    rw [ParseM.run_enter_of_full full, shallower_deeper]
  · have room : cursor.deeper.depth ≤ bound := depth_lt_of_not_isFull full
    rw [ParseM.run_enter_of_not_full full]
    refine .within ?_ fun value next found => ?_
    · rwa [List.forall_mem_singleton]
    · cases found
      exact room

theorem leave : Follows bound RecordM.leave ParseM.leave := by
  intro cursor low
  have room : cursor.shallower.depth ≤ bound := by
    rw [depth_shallower]
    omega
  refine .within ?_ fun value next found => ?_
  · rwa [List.forall_mem_singleton]
  · cases found
    exact room

/-- The descent within a bound follows the free one. -/
theorem isCompatible (bound : Int) : IsCompatible none (some bound) (Follows bound) where
  keepsLevel := keepsLevel
  bind := bind
  sign operator follows :=
    (enter operator).bind fun _ => follows.bind fun _ => leave.bind fun _ => keepsLevel (.pure _)
  group opening follows :=
    (enter opening).bind fun _ => follows.bind fun _ => leave.bind fun _ =>
      (consume _ _).bind fun _ => keepsLevel (.pure _)

end Follows

/-- A reading that begins within the limit does not leave the depth over it. -/
theorem Reads.depth_le {limit : Option Int} {part : Part} {cursor : TokenCursor}
    {outcome : ParseOutcome} (reads : Reads limit part cursor outcome)
    (fits : ∀ bound ∈ limit, cursor.depth ≤ bound) :
    ∀ bound ∈ limit, outcome.cursor.depth ≤ bound := by
  induction reads with
  | noRoom | noOperator | noExpression => exact fits
  | start _ ih | expression _ _ ih | firstOperandFails _ ih | primary _ _ ih => exact ih fits
  | binary left _ _ ihTail => exact ihTail (left.depth_eq ▸ fits)
  | rightOperandFails _ _ _ ih => exact ih (by rwa [depth_advance])
  | operator _ _ right _ _ ihTail => exact ihTail (by rwa [right.depth_eq, depth_advance])
  | signTooDeep | groupTooDeep | valueWord | constant | noValue =>
      rwa [ParseOutcome.cursor, depth_advance]
  | signedOperandFails _ _ free _ ih | groupFails _ _ free _ ih =>
      exact ih (fits_advance_deeper free)
  | unary _ _ _ inner | notClosed _ _ _ inner | grouping _ _ _ inner =>
      simpa [ParseOutcome.cursor, inner.depth_eq] using fits

open ParseM in
/-- Where the reading of a rule stops too deep in a row, it does so in every row that agrees
with this one through the token that opens the level. -/
theorem StopsTooDeep.in_rows {limit : Option Int} {wanted : Rule} {cursor stopped : TokenCursor}
    {token : Token} {tokens : List Token}
    (stops : StopsTooDeep limit (.rule wanted) cursor token stopped)
    (place : IsPlaceIn tokens cursor) :
    ∃ last, cursor.position ≤ last ∧ stopped.position = last + 1 ∧ tokens[last]? = some token ∧
      ∀ second, EndsInput second → second.take stopped.position = tokens.take stopped.position →
        ∃ there after, at? second cursor.position cursor.depth = some there ∧
          (readRule limit wanted).run there = .error (.problem (.expressionTooDeep token)) after ∧
          after.position = stopped.position ∧ after.depth = stopped.depth := by
  obtain ⟨read, final, -, passes, again⟩ := stops
  obtain ⟨front, rfl⟩ := List.getLast?_eq_some_iff.mp final
  have position := position_eq_of_passes passes
  refine ⟨cursor.position + front.length, Nat.le_add_right _ _, ?_, ?_, ?_⟩
  · rw [position, List.length_append, List.length_singleton, Nat.add_assoc]
  · obtain ⟨after, whole⟩ := place.exists_drop_eq
    rw [← List.getElem?_drop, whole, passes.ahead]
    simp
  · rintro second ⟨last, isLast, ends⟩ agree
    have inside : cursor.position < second.length := by
      have within := (List.getElem?_eq_some_iff.mp
        (place.of_passes passes).getElem?_position).1
      have lengths := congrArg List.length agree
      rw [List.length_take, List.length_take] at lengths
      rw [position, List.length_append, List.length_singleton] at within lengths
      omega
    obtain ⟨there, placed⟩ := exists_at? isLast ends inside cursor.depth
    obtain ⟨placeThere, positionThere, depth, unlimited⟩ := at?_spec placed
    obtain ⟨others, ahead⟩ := place.exists_ahead_eq placeThere positionThere passes.ahead
      (position ▸ agree)
    obtain ⟨after, reads, passesThere, same⟩ := again there others ahead depth unlimited
    refine ⟨there, after, placed, (run_readRule_eq_iff placeThere.ends).mpr reads, ?_, same⟩
    rw [position_eq_of_passes passesThere, position, positionThere]

open ParseM in
/-- The limit on the depth changes nothing but what lies deeper. Wherever a rule is begun, at
any depth within the limit, its reading is compared with the free one and the record of it.
If all recorded depths are within the limit, the reading is the free one, to the last detail.
If not, it stops at the first token that opens a level over the limit, right after this
token and with the depth at the limit, and so it does in every row that agrees as far.

With a limit or without one, the recorded reading is the plain one, and its record accounts
for the depth: there is one more for each level that is still open, which after a success
is none. A group is closed before its parenthesis can be found missing. -/
theorem readRule_within_limit {tokens : List Token} (ends : EndsInput tokens) {index : Nat}
    (inside : index < tokens.length) {depth : Int} (fits : depth ≤ maxDepth) (wanted : Rule) :
    ∃ cursor, at? tokens index depth = some cursor ∧
      let free := RecordM.readRule none wanted cursor
      let held := (readRule (some maxDepth) wanted).run cursor
      ((∀ change ∈ free.2, change.cursor.depth ≤ maxDepth) → held = free.1) ∧
      ((∃ change ∈ free.2, maxDepth < change.cursor.depth) →
        ∃ before token stage after, free.2 = before ++ .opened token stage :: after ∧
          (∀ change ∈ before, change.cursor.depth ≤ maxDepth) ∧ stage.depth = maxDepth + 1 ∧
          held = .error (.problem (.expressionTooDeep token)) stage.shallower ∧
          token.kind ∈ levelOpeners ∧
          ∃ place, index ≤ place ∧ stage.position = place + 1 ∧ tokens[place]? = some token ∧
            ∀ second, EndsInput second → second.take (place + 1) = tokens.take (place + 1) →
              ∃ there stopped, at? second index depth = some there ∧
                (readRule (some maxDepth) wanted).run there =
                  .error (.problem (.expressionTooDeep token)) stopped ∧
                stopped.position = place + 1 ∧ stopped.depth = maxDepth) ∧
      ∀ limit, let recorded := RecordM.readRule limit wanted cursor
        recorded.1 = (readRule limit wanted).run cursor ∧
        (∀ expr next, recorded.1 = .ok expr next →
          LevelChange.openLevels recorded.2 = [] ∧ next.depth = depth) ∧
        ∀ failure stopped, recorded.1 = .error failure stopped →
          stopped.depth = depth + (LevelChange.openLevels recorded.2).length ∧
          ∀ token kind message, failure = .problem (.expectedToken token kind message) →
            recorded.2.getLast? = some (.closed stopped) := by
  obtain ⟨last, final, isEnd⟩ := ends
  obtain ⟨cursor, placed⟩ := exists_at? final isEnd inside depth
  obtain ⟨place, rfl, rfl, unlimited⟩ := at?_spec placed
  refine ⟨cursor, placed, ?_⟩
  intro free held
  have isHeld : IsHeld maxDepth held free :=
    (Follows.isCompatible maxDepth).readRule wanted cursor fits
  refine ⟨isHeld.eq_of_low, fun deep => ?_, fun limit => ?_⟩
  · obtain ⟨before, token, stage, after, record, low, level, stops⟩ := isHeld.exists_opened deep
    have reads := (run_readRule_eq_iff place.ends).mp stops
    have stopsTooDeep := reads.stopsTooDeep unlimited fun bound member => by
      cases member
      exact fits
    have opens := stopsTooDeep.opens
    obtain ⟨last, further, position, isToken, others⟩ := stopsTooDeep.in_rows place
    refine ⟨before, token, stage, after, record, low, level, stops, opens, last, further, position,
      isToken, fun second endsSecond agree => ?_⟩
    obtain ⟨there, stopped, opened, result, same, depth⟩ :=
      others second endsSecond (by rwa [position])
    refine ⟨there, stopped, opened, result, same.trans position, depth.trans ?_⟩
    rw [depth_shallower, level]
    omega
  · intro recorded
    obtain ⟨same, account⟩ := (Accounts.isCompatible limit).readRule wanted cursor
    exact ⟨same, fun _ _ => account.of_eq_ok, fun _ _ => account.of_eq_error⟩

open ParseM in
/-- One level below the limit a group opens the last level. The sign in it is where the
reading stops, also in a row that goes on after it as no expression does. -/
theorem readRule_within_limit_signed :
    let opening : Token := ⟨.leftParen, "(", none, 1⟩
    let minus : Token := ⟨.minus, "-", none, 1⟩
    let last : Token := ⟨.eof, "", none, 1⟩
    let tokens : List Token :=
      [opening, minus, ⟨.kwNil, "nil", none, 1⟩, ⟨.rightParen, ")", none, 1⟩, last]
    let second : List Token := [opening, minus, ⟨.slash, "/", none, 1⟩, last]
    EndsInput tokens ∧ 0 < tokens.length ∧ 63 ≤ maxDepth ∧
      ∃ there stopped, at? second 0 63 = some there ∧
        (readRule (some maxDepth) .primary).run there =
          .error (.problem (.expressionTooDeep minus)) stopped ∧
        stopped.position = 2 ∧ stopped.depth = 64 := by
  intro opening minus last tokens second
  have ends : EndsInput tokens := ⟨last, rfl, rfl⟩
  refine ⟨ends, by decide, by decide, ?_⟩
  let stopped : TokenCursor := ⟨[minus, opening], tokens.drop 2 |>.take 2, last, last, 64, none⟩
  obtain ⟨cursor, placed, -, beyond, -⟩ :=
    readRule_within_limit ends (by decide : 0 < tokens.length) (by decide : 63 ≤ maxDepth) .primary
  cases placed
  obtain ⟨before, token, stage, after, -, -, -, stops, -, place, -, position, -, others⟩ :=
    beyond (by decide)
  have result : (.error (.problem (.expressionTooDeep minus)) stopped : ParseOutcome) =
      .error (.problem (.expressionTooDeep token)) stage.shallower := stops
  injection result with sameFailure sameCursor
  obtain rfl : minus = token := by
    injection sameFailure with same
    injection same
  have reached : stage.position = 2 := congrArg TokenCursor.position sameCursor.symm
  obtain rfl : place = 1 := by omega
  exact others second ⟨last, rfl, rfl⟩ rfl

end LoxFront
