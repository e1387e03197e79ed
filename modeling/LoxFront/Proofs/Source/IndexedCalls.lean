/-
# Calls stay in the text

The two ways to make a call on a source text, by cursor and by index, answer the same or fail in
the same way, and they stop at the same place with the same findings. Of the cursor it is known
that every call is a row of moves which keep it in its text. So the indices stay in the text as
well, and the only lookups that fail are those of a caller that wants to pass a character, or to
read a piece, where nothing is ahead.
-/

import LoxFront.Proofs.Source.IndexedPieces

namespace LoxFront

namespace TextM

open SourceCursor

section Sound

variable {source : String} {cursor : SourceCursor} (sound : SourceCursor.IsSoundIn source cursor)

include sound

/-- A call by index does what the call by cursor does, in the text in which it ends. -/
theorem run_perform (call : SourceCall) :
    (perform call).run (cursor.mark source) =
      indexed (call.textAfter source) (cursor.perform call) := by
  cases call with
  | restart other => rfl
  | advance =>
      rw [perform, SourceCursor.perform, EStateM.run_bind, SourceCursor.isAtEnd]
      cases ahead : cursor.rest with
      | nil =>
          rw [run_advance_of_nil sound ahead]
          rfl
      | cons c rest =>
          rw [run_advance sound ahead, lookAhead, ahead]
          rfl
  | accept expected =>
      rw [perform, SourceCursor.perform, EStateM.run_bind, run_accept sound]
      by_cases same : (!cursor.isAtEnd && cursor.lookAhead 0 == expected) = true
      · rw [if_pos same, if_pos same]
        rfl
      · rw [if_neg same, if_neg same]
        rfl
  | peek =>
      rw [perform, EStateM.run_bind, run_peek sound]
      rfl
  | peekNext =>
      rw [perform, EStateM.run_bind, run_peekNext sound]
      rfl
  | isAtEnd =>
      rw [perform, EStateM.run_bind, run_isAtEnd sound]
      rfl
  | scanPiece =>
      rw [perform, SourceCursor.perform, EStateM.run_bind, run_scanPiece sound]
      obtain ⟨fault | value, next⟩ := cursor.scanPiece
      · cases fault <;> rfl
      · rfl
  | scanAll =>
      rw [perform, EStateM.run_bind, run_scanAll sound]
      rfl
  | word =>
      rw [perform, EStateM.run_bind, run_word sound]
      rfl
  | string =>
      rw [perform, EStateM.run_bind, run_string sound]
      rfl
  | isDigit text | isLetter text | isLetterOrDigit text => rfl
  | addToken kind literal =>
      rw [perform, EStateM.run_bind, run_addToken sound]
      rfl

end Sound

theorem after_mark (sound : IsSoundIn source cursor) (call : SourceCall) :
    after call (cursor.mark source) = (cursor.perform call).2.mark (call.textAfter source) := by
  rw [after, run_perform sound]
  obtain ⟨fault | value, next⟩ := cursor.perform call
  · cases fault <;> rfl
  · rfl

/-- A row of calls by index leaves a text where the same calls leave the cursor. -/
theorem afterAll_mark (sound : IsSoundIn source cursor) (calls : List SourceCall) :
    afterAll calls (cursor.mark source) =
      (cursor.performAll calls).mark (calls.foldl SourceCall.textAfter source) := by
  induction calls generalizing source cursor with
  | nil => rfl
  | cons call calls ih =>
      rw [afterAll, List.foldl_cons, after_mark sound]
      exact ih (sound.perform call)

end TextM

namespace SourceCursor

variable {source : String} {cursor : SourceCursor}

theorem IsReached.isWithin (reached : IsReached source cursor) :
    (cursor.mark source).IsWithin where
  start_le := Nat.le_add_right _ _
  current_le := reached.sound.standsIn.position_le
  startLine_pos := reached.startLine_pos
  startLine_le := reached.startLine_le
  line_le := reached.line_le
  startLine_le_lineAt := reached.startLine_le_lineAt

theorem position_eq_length_iff (sound : IsSoundIn source cursor) :
    cursor.position = source.length ↔ cursor.rest = [] := by
  refine ⟨fun whole => ?_, fun ended => ?_⟩
  · rw [sound.standsIn.rest_eq, whole, ← String.length_toList, List.drop_length]
  · rw [sound.standsIn.position_eq ended, String.length_toList]

/-- All calls but two answer everywhere. -/
theorem exists_reply {call : SourceCall} (cursor : SourceCursor)
    (other : call ≠ .advance ∧ call ≠ .scanPiece) :
    ∃ reply, (cursor.perform call).1 = .ok reply := by
  cases call with
  | advance => exact absurd rfl other.1
  | scanPiece => exact absurd rfl other.2
  | accept expected =>
      rw [perform]
      split <;> exact ⟨_, rfl⟩
  | _ => exact ⟨_, rfl⟩

/-- A call meets the end of the text if it wants to pass a character and there is none. -/
theorem endOfText_iff (call : SourceCall) (cursor : SourceCursor) :
    (cursor.perform call).1 = .error .endOfText ↔
      (call = .advance ∨ call = .scanPiece) ∧ cursor.rest = [] := by
  refine ⟨fun fails => ?_, ?_⟩
  · have wants : call = .advance ∨ call = .scanPiece := by
      by_contra other
      obtain ⟨reply, answers⟩ := exists_reply cursor (not_or.mp other)
      cases answers.symm.trans fails
    refine ⟨wants, ?_⟩
    cases ahead : cursor.rest with
    | nil => rfl
    | cons c rest =>
        obtain rfl | rfl := wants
        · rw [perform, isAtEnd, ahead] at fails
          cases fails
        · rw [perform, scanPiece_of_cons ahead, scanOthers] at fails
          dsimp only at fails
          split at fails <;> cases fails
  · rintro ⟨rfl | rfl, ended⟩
    · rw [perform, isAtEnd, ended]
      rfl
    · rw [perform, scanPiece, ended]
      rfl

/-- A call that meets the end of the text changes nothing. -/
theorem perform_of_endOfText {call : SourceCall}
    (fails : (cursor.perform call).1 = .error .endOfText) : (cursor.perform call).2 = cursor := by
  obtain ⟨rfl | rfl, ended⟩ := (endOfText_iff call cursor).mp fails
  · rw [perform, isAtEnd, ended]
    rfl
  · rw [perform, scanPiece, ended]

/-- A failed lookup by index is the end of the text for the cursor. -/
theorem indexed_eq_outOfRange_iff {α : Type} (outcome : Except SourceFault α × SourceCursor)
    (source : String) (place : Nat) (stopped : TextIndex) :
    indexed source outcome = .error (.outOfRange place) stopped ↔
      outcome.1 = .error .endOfText ∧ place = source.length ∧ stopped = outcome.2.mark source := by
  obtain ⟨fault | value, next⟩ := outcome
  · cases fault with
    | endOfText =>
        rw [indexed, EStateM.Result.error.injEq, TextFailure.outOfRange.injEq]
        exact ⟨fun same => ⟨rfl, same.1.symm, same.2.symm⟩,
          fun same => ⟨same.2.1.symm, same.2.2.symm⟩⟩
    | notANumber text => exact iff_of_false (by rintro same; cases same) fun both => by cases both.1
  · exact iff_of_false (by rintro same; cases same) fun both => by cases both.1

/-- Only a call that wants to pass a character looks outside the text, and only at its end. -/
theorem run_eq_outOfRange_iff (sound : IsSoundIn source cursor) (call : SourceCall) (place : Nat)
    (stopped : TextIndex) :
    (TextM.perform call).run (cursor.mark source) = .error (.outOfRange place) stopped ↔
      ((call = .advance ∨ call = .scanPiece) ∧ cursor.position = source.length) ∧
        place = source.length ∧ stopped = cursor.mark source := by
  rw [TextM.run_perform sound, indexed_eq_outOfRange_iff, position_eq_length_iff sound,
    ← endOfText_iff]
  refine and_congr_right fun fails => ?_
  have inText : call.textAfter source = source := by
    obtain ⟨rfl | rfl, -⟩ := (endOfText_iff call cursor).mp fails <;> rfl
  rw [inText, perform_of_endOfText fails]

/-- The last stage of a call is not behind the cursor, and has lost nothing. -/
theorem IsReached.goesOn (reached : IsReached source cursor) {call : SourceCall}
    (inText : call.StaysInText) : GoesOn cursor (cursor.perform call).2 := by
  have chain := (reached.chain (isChain_stages inText cursor)).2
  have moves : (cursor :: cursor.stages call).IsChain GoesOn :=
    chain.imp fun _ _ grows => grows.toGoesOn
  exact List.rel_of_pairwise_cons (List.isChain_iff_pairwise.mp moves)
    (List.mem_of_getLast? (getLast?_stages cursor call))

/-- Errors are kept by every call, also by one that goes over to another text. -/
theorem IsReached.errors_perform (reached : IsReached source cursor) (call : SourceCall) :
    cursor.errors.toList <+: (cursor.perform call).2.errors.toList := by
  have goesOn (inText : call.StaysInText) := (reached.goesOn inText).errors
  cases call with
  | restart other => exact List.prefix_refl _
  | _ => exact goesOn trivial

/-- Any row of calls, whether they answer or fail, leaves the indices in the text and has counted
no line too many. The next call goes on from there, at each of its stages: nothing is lost of
what was found, and a token that is added spells the text between the two indices. Looked up by
index, the same calls do the same, and only a call that wants to pass a character looks outside
the text, where nothing is ahead, and then changes nothing. -/
theorem calls_stay_in_text (source : String) (calls : List SourceCall) (call : SourceCall) :
    let text := calls.foldl SourceCall.textAfter source
    let cursor := (ofText source).performAll calls
    let next := (cursor.perform call).2
    let index := TextM.afterAll calls (.ofText source)
    let outcome := (TextM.perform call).run index
    (index = cursor.mark text ∧ outcome = indexed (call.textAfter text) (cursor.perform call)) ∧
    index.IsWithin ∧
    cursor.errors.toList <+: next.errors.toList ∧
    (call.StaysInText → GoesOn cursor next ∧ (cursor.stages call).getLast? = some next ∧
      (cursor :: cursor.stages call).IsChain (Grows text) ∧
      ∀ stage ∈ cursor.stages call, (stage.mark text).IsWithin) ∧
    ∀ place stopped, outcome = .error (.outOfRange place) stopped ↔
      ((call = .advance ∨ call = .scanPiece) ∧ index.current = text.length) ∧
        place = text.length ∧ stopped = index := by
  intro text cursor next index outcome
  have reached : IsReached text cursor := (IsReached.ofText source).performAll calls
  have same : index = cursor.mark text := TextM.afterAll_mark (isSoundIn_ofText source) calls
  have answers : outcome = (TextM.perform call).run (cursor.mark text) := congrArg _ same
  rw [answers, same]
  refine ⟨⟨rfl, TextM.run_perform reached.sound call⟩, reached.isWithin,
    reached.errors_perform call, fun inText => ?_, run_eq_outOfRange_iff reached.sound call⟩
  obtain ⟨stand, grow⟩ := reached.chain (isChain_stages inText cursor)
  exact ⟨reached.goesOn inText, getLast?_stages cursor call, grow, fun stage isStage =>
    (stand stage (List.mem_cons_of_mem _ isStage)).isWithin⟩

/-- A line break has been passed without being counted, and what stands before the digit keeps
the whole text from being a number. Then a call for a piece finds nothing ahead. -/
theorem calls_stay_in_text_at_end :
    let calls : List SourceCall := [.advance, .advance, .scanPiece]
    let cursor := (ofText "a\n1").performAll calls
    let index := TextM.afterAll calls (.ofText "a\n1")
    (index.start = 0 ∧ index.current = 3 ∧ index.line = 1) ∧ index.IsWithin ∧
      GoesOn cursor (cursor.perform .scanPiece).2 ∧
      (TextM.perform .scanPiece).run index = .error (.outOfRange 3) index := by
  intro calls cursor index
  obtain ⟨⟨same, -⟩, within, -, goesOn, fails⟩ := calls_stay_in_text "a\n1" calls .scanPiece
  have stands : index.start = 0 ∧ index.current = 3 ∧ index.line = 1 := by
    rw [show index = cursor.mark "a\n1" from same]
    exact ⟨rfl, rfl, rfl⟩
  have three : (calls.foldl SourceCall.textAfter "a\n1").length = 3 := by decide
  rw [three] at fails
  exact ⟨stands, within, (goesOn trivial).1,
    (fails 3 index).mpr ⟨⟨.inr rfl, stands.2.1⟩, rfl, rfl⟩⟩

end SourceCursor

end LoxFront
