/-
# Pieces read by index

Each step of a call by index does what the source cursor does. The cursor finds the end of a row
of characters at once where the call by index goes from one to the next, so a loop passes as
many characters as there are before the first one of another sort. Past the end a look gives the
null character, which is neither a digit nor part of a word. So no step of a piece looks outside
the text but the first one, which does so where nothing is ahead.
-/

import Mathlib.Data.String.Basic
import LoxFront.Proofs.Source.Faultless
import LoxFront.Proofs.Source.Indexed
import LoxFront.Proofs.Source.Moves

namespace LoxFront

/-! ## Single characters as texts -/

theorem singleton_le_singleton (first second : Char) :
    String.singleton first ≤ String.singleton second ↔ first ≤ second := by
  rw [String.le_iff_toList_le, String.toList_singleton, String.toList_singleton, ← not_lt,
    List.cons_lt_cons_iff]
  simp

theorem TextM.isDigit_eq : isDigit = Char.isDigit := by
  funext character
  have zero : "0" = String.singleton '0' := rfl
  have nine : "9" = String.singleton '9' := rfl
  rw [isDigit, isDigitText, zero, nine]
  simp only [singleton_le_singleton]
  rfl

theorem TextM.isLetter_eq : isLetter = isWordStart := by
  funext character
  have same : (String.singleton character == "_") = (character == '_') := by
    rw [Bool.eq_iff_iff, beq_iff_eq, beq_iff_eq, ← String.toList_inj, String.toList_singleton]
    exact List.singleton_inj
  have lowerA : "a" = String.singleton 'a' := rfl
  have lowerZ : "z" = String.singleton 'z' := rfl
  have upperA : "A" = String.singleton 'A' := rfl
  have upperZ : "Z" = String.singleton 'Z' := rfl
  have lower : (decide ('a' ≤ character) && decide (character ≤ 'z')) = character.isLower := rfl
  have upper : (decide ('A' ≤ character) && decide (character ≤ 'Z')) = character.isUpper :=
    (Bool.decide_and _ _).symm
  rw [isLetter, isLetterText, same, lowerA, lowerZ, upperA, upperZ]
  simp only [singleton_le_singleton]
  rw [lower, upper, Bool.or_comm character.isLower]
  rfl

/-- The characters before a given one are followed by it, if there is one. -/
theorem exists_dropWhile_eq_cons {stop : Char} {text : List Char} (found : stop ∈ text) :
    ∃ later, text.dropWhile (· != stop) = stop :: later := by
  cases left : text.dropWhile (· != stop) with
  | nil =>
      have all := List.dropWhile_eq_nil_iff.mp left stop found
      exact absurd rfl (bne_iff_ne.mp all)
  | cons c later =>
      have stops := List.head?_dropWhile_not (· != stop) text
      rw [left] at stops
      have same : c = stop := by simpa using stops
      exact ⟨later, same ▸ rfl⟩

/-- The part of a numeral after its first row of digits. -/
def Piece.fractionTail : List Char → List Char
  | '.' :: fraction =>
    let fraction := fraction.takeWhile Char.isDigit
    if fraction.isEmpty then [] else '.' :: fraction
  | _ => []

theorem Piece.numeralTail_eq (rest : List Char) :
    numeralTail rest =
      rest.takeWhile Char.isDigit ++ fractionTail (rest.dropWhile Char.isDigit) := by
  unfold numeralTail
  dsimp only
  split
  · next fraction point =>
      rw [point, fractionTail]
      split
      · rw [List.append_nil]
      · rfl
  · next other =>
      rw [fractionTail, List.append_nil]
      exact other

/-! ## Cursors that go on -/

namespace SourceCursor

variable {source : String} {cursor : SourceCursor} {c : Char} {rest : List Char}

theorem pass_zero (cursor : SourceCursor) : cursor.pass 0 = cursor := by
  simp [pass]

theorem pass_add (cursor : SourceCursor) (first more : Nat) :
    cursor.pass (first + more) = (cursor.pass first).pass more := by
  simp only [pass, List.take_add, List.count_append, List.drop_drop, List.append_assoc,
    Nat.add_assoc]

theorem rest_pass_one (ahead : cursor.rest = c :: rest) : (cursor.pass 1).rest = rest := by
  rw [pass, ahead]
  rfl

theorem rest_pass_takeWhile (cursor : SourceCursor) (sort : Char → Bool) :
    (cursor.pass (cursor.rest.takeWhile sort).length).rest = cursor.rest.dropWhile sort := by
  have whole : cursor.rest = cursor.rest.takeWhile sort ++ cursor.rest.dropWhile sort :=
    List.takeWhile_append_dropWhile.symm
  exact (congrArg (List.drop (cursor.rest.takeWhile sort).length) whole).trans List.drop_left

/-- A character that ends no line can be passed without counting lines. -/
theorem advance_eq_pass (ahead : cursor.rest = c :: rest) (inside : c ≠ '\n') :
    cursor.advance = cursor.pass 1 := by
  have none : (cursor.rest.take 1).count '\n' = 0 := by
    rw [ahead, List.take_succ_cons, List.take_zero, List.count_singleton,
      beq_eq_false_iff_ne.mpr inside]
    rfl
  rw [advance, pass, none]
  rfl

theorem mark_advance (ahead : cursor.rest = c :: rest) :
    cursor.advance.mark source =
      { cursor.mark source with current := cursor.position + 1 } := by
  have moved : cursor.advance.position = cursor.position + 1 := by
    rw [position_advance, ahead]
    rfl
  rw [mark, moved]
  rfl

/-- A line that ends with a character is counted after the character has been passed. -/
theorem mark_pass_newline (ahead : cursor.rest = '\n' :: rest) :
    (cursor.pass 1).mark source =
      { cursor.advance.mark source with line := cursor.line + 1 } := by
  have one : (cursor.rest.take 1).count '\n' = 1 := by
    rw [ahead]
    rfl
  rw [pass, one]
  rfl

/-- Read what is left of a piece whose first character has been passed. -/
def scanOthers (cursor : SourceCursor) (piece : Piece) : Except SourceFault Unit × SourceCursor :=
  let passed := cursor.pass piece.others.length
  if piece.shape = .number ∧ Binary64.ofText? passed.span = none then
    (.error (.notANumber (String.ofList passed.span)), passed)
  else (.ok (), passed.record piece.shape)

theorem scanPiece_of_cons (ahead : cursor.rest = c :: rest) :
    cursor.scanPiece = (cursor.pass 1).scanOthers (Piece.longest c rest) := by
  rw [scanPiece, scanOthers, ahead]
  dsimp only
  rw [Piece.text, List.length_cons, Nat.add_comm, pass_add]

theorem scanOthers_of_ne_number {piece : Piece} (other : piece.shape ≠ .number) :
    cursor.scanOthers piece = (.ok (), (cursor.pass piece.others.length).record piece.shape) :=
  if_neg fun fails => other fails.1

theorem scanOthers_nil {shape : Shape} (other : shape ≠ .number) :
    cursor.scanOthers ⟨shape, c, []⟩ = (.ok (), cursor.record shape) := by
  have same : cursor.pass ([] : List Char).length = cursor := pass_zero cursor
  rw [scanOthers_of_ne_number other, same]

end SourceCursor

/-! ## Looking at characters -/

namespace TextM

open SourceCursor

variable {source : String} {cursor : SourceCursor} {c : Char} {rest : List Char}

theorem run_characterAt {index : Nat} (found : source.toList[index]? = some c)
    (cursor : SourceCursor) :
    (characterAt index).run (cursor.mark source) = .ok c (cursor.mark source) := by
  rw [characterAt, EStateM.run_bind, EStateM.run_get]
  simp only [mark, found]
  rfl

theorem run_characterAt_of_none {index : Nat} (missing : source.toList[index]? = none)
    (cursor : SourceCursor) :
    (characterAt index).run (cursor.mark source) =
      .error (.outOfRange index) (cursor.mark source) := by
  rw [characterAt, EStateM.run_bind, EStateM.run_get]
  simp only [mark, missing]
  rfl

section Sound

variable (sound : IsSoundIn source cursor)

include sound

theorem getElem?_source (distance : Nat) :
    source.toList[cursor.position + distance]? = cursor.rest[distance]? := by
  rw [sound.standsIn.rest_eq, List.getElem?_drop]

theorem run_characterAt_current (ahead : cursor.rest = c :: rest) :
    (characterAt (cursor.mark source).current).run (cursor.mark source) =
      .ok c (cursor.mark source) := by
  have next := getElem?_source sound 0
  rw [ahead, List.getElem?_cons_zero] at next
  exact run_characterAt next cursor

theorem length_le_iff (distance : Nat) :
    source.toList.length ≤ cursor.position + distance ↔ cursor.rest[distance]? = none := by
  rw [← getElem?_source sound, List.getElem?_eq_none_iff]

theorem run_isAtEnd :
    isAtEnd.run (cursor.mark source) = .ok cursor.isAtEnd (cursor.mark source) := by
  have same : decide (source.toList.length ≤ cursor.position) = cursor.isAtEnd := by
    rw [Bool.eq_iff_iff, decide_eq_true_iff, SourceCursor.isAtEnd, List.isEmpty_iff,
      ← List.head?_eq_none_iff, List.head?_eq_getElem?]
    exact length_le_iff sound 0
  rw [← same]
  rfl

theorem run_peek :
    peek.run (cursor.mark source) =
      .ok (cursor.rest[0]?.getD '\x00') (cursor.mark source) := by
  rw [peek, EStateM.run_bind, run_isAtEnd sound, SourceCursor.isAtEnd]
  dsimp only
  cases ahead : cursor.rest with
  | nil => rfl
  | cons c rest =>
      rw [List.isEmpty_cons, if_neg Bool.false_ne_true, EStateM.run_bind, EStateM.run_get]
      exact run_characterAt_current sound ahead

theorem run_peekNext :
    peekNext.run (cursor.mark source) =
      .ok (cursor.rest[1]?.getD '\x00') (cursor.mark source) := by
  rw [peekNext, EStateM.run_bind, EStateM.run_get]
  dsimp only [mark]
  cases next : cursor.rest[1]? with
  | none =>
      rw [if_pos ((length_le_iff sound 1).mpr next)]
      rfl
  | some c =>
      have inside : ¬ source.toList.length ≤ cursor.position + 1 := by
        rw [length_le_iff sound, next]
        exact Option.some_ne_none c
      rw [if_neg inside]
      exact run_characterAt ((getElem?_source sound 1).trans next) cursor

/-! ## Moving on -/

theorem run_advance_of_nil (ended : cursor.rest = []) :
    advance.run (cursor.mark source) =
      .error (.outOfRange source.length) (cursor.mark source) := by
  have missing := getElem?_source sound 0
  rw [ended, List.getElem?_nil] at missing
  have fails : (characterAt (cursor.mark source).current).run (cursor.mark source) =
      .error (.outOfRange cursor.position) (cursor.mark source) :=
    run_characterAt_of_none missing cursor
  rw [← String.length_toList, ← sound.standsIn.position_eq ended, advance, EStateM.run_bind,
    EStateM.run_get]
  dsimp only
  rw [EStateM.run_bind, fails]

theorem run_advance (ahead : cursor.rest = c :: rest) :
    advance.run (cursor.mark source) = .ok c (cursor.advance.mark source) := by
  rw [advance, EStateM.run_bind, EStateM.run_get, mark_advance ahead]
  dsimp only
  rw [EStateM.run_bind, run_characterAt_current sound ahead]
  rfl

theorem run_accept (expected : String) :
    (accept expected).run (cursor.mark source) =
      if !cursor.isAtEnd && cursor.lookAhead 0 == expected then
        .ok true (cursor.advance.mark source)
      else .ok false (cursor.mark source) := by
  rw [accept, EStateM.run_bind, run_isAtEnd sound, SourceCursor.isAtEnd]
  dsimp only
  cases ahead : cursor.rest with
  | nil => rfl
  | cons c rest =>
      have next : cursor.lookAhead 0 = String.singleton c := by
        rw [lookAhead, ahead]
        rfl
      rw [List.isEmpty_cons, if_neg Bool.false_ne_true, EStateM.run_bind, EStateM.run_get]
      dsimp only
      rw [EStateM.run_bind, run_characterAt_current sound ahead, next, mark_advance ahead]
      dsimp only
      by_cases same : (String.singleton c == expected) = true
      · rw [if_pos same, if_pos (by simpa using same)]
        rfl
      · rw [if_neg same, if_neg (by simpa using same)]
        rfl

theorem run_lexeme : lexeme.run (cursor.mark source) = .ok cursor.span (cursor.mark source) := by
  rw [sound.span_eq]
  rfl

theorem run_addToken (kind : TokenKind) (literal : Option Literal) :
    (addToken kind literal).run (cursor.mark source) =
      .ok () ((cursor.addToken kind literal).mark source) := by
  rw [addToken, EStateM.run_bind, run_lexeme sound]
  rfl

end Sound

/-! ## Loops -/

section Loops

variable {goesOn : TextM Bool} {body : TextM Unit} {sort : Char → Bool}

/-- A loop that asks for the sort of the next character, and passes it, stops at the first
character of another sort. -/
theorem run_loop
    (asks : ∀ cursor, IsSoundIn source cursor →
      goesOn.run (cursor.mark source) = .ok (cursor.rest.head?.any sort) (cursor.mark source))
    (passes : ∀ cursor c rest, IsSoundIn source cursor → cursor.rest = c :: rest → sort c = true →
      body.run (cursor.mark source) = .ok () ((cursor.pass 1).mark source))
    (sound : IsSoundIn source cursor) {count : Nat} (enough : cursor.rest.length < count) :
    (loop goesOn body count).run (cursor.mark source) =
      .ok () ((cursor.pass (cursor.rest.takeWhile sort).length).mark source) := by
  -- Each round uses up one of the count and one of the characters ahead.
  induction count generalizing cursor with
  | zero => exact absurd enough (Nat.not_lt_zero _)
  | succ count ih =>
      rw [loop, EStateM.run_bind, asks cursor sound]
      dsimp only
      cases ahead : cursor.rest with
      | nil =>
          rw [List.takeWhile_nil, List.length_nil, pass_zero]
          rfl
      | cons c rest =>
          rw [ahead, List.length_cons] at enough
          rw [List.head?_cons, Option.any_some]
          by_cases more : sort c = true
          · have shorter : (cursor.pass 1).rest.length < count := by
              rw [rest_pass_one ahead]
              exact Nat.lt_of_succ_lt_succ enough
            rw [if_pos more, EStateM.run_bind, passes cursor c rest sound ahead more]
            dsimp only
            rw [ih (sound.pass 1) shorter, rest_pass_one ahead, List.takeWhile_cons_of_pos more,
              List.length_cons, Nat.add_comm, pass_add]
          · rw [if_neg more, List.takeWhile_cons_of_neg more, List.length_nil, pass_zero]
            rfl

/-- The rounds of a loop are enough for all characters ahead. -/
theorem length_rest_lt (sound : IsSoundIn source cursor) :
    cursor.rest.length < source.toList.length - cursor.position + 1 := by
  rw [sound.standsIn.rest_eq, List.length_drop]
  exact Nat.lt_succ_self _

theorem run_rounds
    (asks : ∀ cursor, IsSoundIn source cursor →
      goesOn.run (cursor.mark source) = .ok (cursor.rest.head?.any sort) (cursor.mark source))
    (passes : ∀ cursor c rest, IsSoundIn source cursor → cursor.rest = c :: rest → sort c = true →
      body.run (cursor.mark source) = .ok () ((cursor.pass 1).mark source))
    (sound : IsSoundIn source cursor) :
    (rounds goesOn body).run (cursor.mark source) =
      .ok () ((cursor.pass (cursor.rest.takeWhile sort).length).mark source) :=
  run_loop asks passes sound (length_rest_lt sound)

end Loops

section Sound

variable (sound : IsSoundIn source cursor)

include sound

/-- The null character is of no sort that is passed, so it stops the loop at the end. -/
theorem run_passWhile {sort : Char → Bool} (noEnd : sort '\x00' = false)
    (noBreak : sort '\n' = false) :
    (passWhile sort).run (cursor.mark source) =
      .ok () ((cursor.pass (cursor.rest.takeWhile sort).length).mark source) := by
  refine run_rounds (fun cursor sound => ?_) (fun cursor c rest sound ahead isOf => ?_) sound
  · rw [EStateM.run_bind, run_peek sound]
    cases cursor.rest with
    | nil => exact congrArg (EStateM.Result.ok · _) noEnd
    | cons c rest => rfl
  · have inside : c ≠ '\n' := by
      rintro rfl
      exact Bool.false_ne_true (noBreak.symm.trans isOf)
    rw [EStateM.run_bind, run_advance sound ahead, advance_eq_pass ahead inside]
    rfl

theorem run_isBefore (stop : Char) :
    (isBefore stop).run (cursor.mark source) =
      .ok (cursor.rest.head?.any (· != stop)) (cursor.mark source) := by
  rw [isBefore, EStateM.run_bind, run_peek sound]
  dsimp only
  cases ahead : cursor.rest with
  | nil =>
      -- The first question is about the null character, so it may be answered with yes.
      by_cases other : ('\x00' != stop) = true
      · rw [List.getElem?_nil, Option.getD_none, if_pos other, EStateM.run_bind,
          run_isAtEnd sound, SourceCursor.isAtEnd, ahead]
        rfl
      · rw [List.getElem?_nil, Option.getD_none, if_neg other]
        rfl
  | cons c rest =>
      rw [List.getElem?_cons_zero, Option.getD_some, List.head?_cons, Option.any_some]
      by_cases other : (c != stop) = true
      · rw [if_pos other, EStateM.run_bind, run_isAtEnd sound, SourceCursor.isAtEnd, ahead, other]
        rfl
      · have same : (c != stop) = false := Bool.eq_false_iff.mpr other
        rw [if_neg other, same]
        rfl

theorem run_comment :
    comment.run (cursor.mark source) =
      .ok () ((cursor.pass (cursor.rest.takeWhile (· != '\n')).length).mark source) := by
  refine run_rounds (fun cursor sound => run_isBefore sound '\n')
    (fun cursor c rest sound ahead other => ?_) sound
  rw [EStateM.run_bind, run_advance sound ahead, advance_eq_pass ahead (bne_iff_ne.mp other)]
  rfl

theorem run_word : word.run (cursor.mark source) = .ok () (cursor.scanWord.mark source) := by
  have sorts : (fun character => isLetter character || isDigit character) = isWordPart := by
    rw [isLetter_eq, isDigit_eq]
    rfl
  have passed := sound.pass (cursor.rest.takeWhile isWordPart).length
  rw [word, sorts, EStateM.run_bind, run_passWhile sound (by decide) (by decide)]
  dsimp only
  rw [EStateM.run_bind, run_lexeme passed]
  exact run_addToken passed _ none

theorem run_fraction :
    fraction.run (cursor.mark source) =
      .ok () ((cursor.pass (Piece.fractionTail cursor.rest).length).mark source) := by
  have none : (cursor.pass ([] : List Char).length).mark source = cursor.mark source := by
    rw [List.length_nil, pass_zero]
  rw [fraction, EStateM.run_bind, run_peek sound, isDigit_eq]
  dsimp only
  cases ahead : cursor.rest with
  | nil => exact congrArg (EStateM.Result.ok ()) none.symm
  | cons c fraction =>
      rw [List.getElem?_cons_zero, Option.getD_some]
      by_cases point : c = '.'
      · subst point
        rw [if_pos (beq_self_eq_true '.'), EStateM.run_bind, run_peekNext sound, ahead,
          List.getElem?_cons_succ, Piece.fractionTail]
        cases fraction with
        | nil => exact congrArg (EStateM.Result.ok ()) none.symm
        | cons digit more =>
            dsimp only
            rw [List.getElem?_cons_zero, Option.getD_some]
            by_cases follows : digit.isDigit = true
            · rw [if_pos follows, EStateM.run_bind, run_advance sound ahead,
                advance_eq_pass ahead (by decide)]
              dsimp only
              rw [run_passWhile (sound.pass 1) (by decide) (by decide), rest_pass_one ahead,
                ← pass_add, List.takeWhile_cons_of_pos follows, List.isEmpty_cons,
                if_neg Bool.false_ne_true, List.length_cons (a := '.'), Nat.add_comm]
            · rw [if_neg follows, List.takeWhile_cons_of_neg follows]
              exact congrArg (EStateM.Result.ok ()) none.symm
      · have nothing : Piece.fractionTail (c :: fraction) = [] := by
          rw [Piece.fractionTail]
          rintro after same
          exact point (List.cons.inj same).1
        rw [if_neg (by simpa using point), nothing, none]
        rfl

theorem run_number :
    number.run (cursor.mark source) =
      let passed := cursor.pass (Piece.numeralTail cursor.rest).length
      if Binary64.ofText? passed.span = none then
        .error (.notANumber (String.ofList passed.span)) (passed.mark source)
      else .ok () ((passed.record .number).mark source) := by
  have digits := sound.pass (cursor.rest.takeWhile Char.isDigit).length
  have passed := sound.pass (Piece.numeralTail cursor.rest).length
  rw [number, isDigit_eq, EStateM.run_bind, run_passWhile sound (by decide) (by decide)]
  dsimp only
  rw [EStateM.run_bind, run_fraction digits, rest_pass_takeWhile, ← pass_add,
    ← List.length_append, ← Piece.numeralTail_eq]
  dsimp only
  rw [EStateM.run_bind, run_lexeme passed]
  dsimp only
  rw [record]
  cases reads : Binary64.ofText? (cursor.pass (Piece.numeralTail cursor.rest).length).span with
  | none => rfl
  | some value => exact run_addToken passed .number (some (.number value))

/-- A string counts the lines that end in it. -/
theorem run_advanceInString (ahead : cursor.rest = c :: rest) :
    advanceInString.run (cursor.mark source) = .ok () ((cursor.pass 1).mark source) := by
  rw [advanceInString, EStateM.run_bind, run_peek sound, ahead, List.getElem?_cons_zero,
    Option.getD_some]
  dsimp only
  by_cases ends : c = '\n'
  · subst ends
    -- The line is counted first, so the character is passed by a cursor that has counted it.
    have counted : IsSoundIn source { cursor with line := cursor.line + 1 } :=
      ⟨sound.splits, Nat.succ_pos _⟩
    have passes : advance.run { cursor.mark source with line := (cursor.mark source).line + 1 } =
        .ok '\n' ((cursor.pass 1).mark source) := by
      rw [mark_pass_newline ahead]
      exact run_advance counted ahead
    rw [if_pos (beq_self_eq_true '\n'), EStateM.run_bind, EStateM.run_modify]
    dsimp only
    rw [EStateM.run_bind, passes]
    rfl
  · rw [if_neg (by simpa using ends), EStateM.run_bind, run_advance sound ahead,
      advance_eq_pass ahead ends]
    rfl

/-- The text of a string is cut out between its quotes. -/
theorem contents_eq :
    (cursor.span.drop 1).dropLast =
      source.toList.extract (cursor.start + 1) (cursor.position - 1) := by
  have length : cursor.span.length = cursor.position - cursor.start :=
    (Nat.add_sub_cancel_left _ _).symm
  have inner : cursor.position - 1 - (cursor.start + 1) =
      cursor.position - cursor.start - 1 - 1 := by omega
  rw [List.dropLast_eq_take, List.length_drop, length, sound.span_eq, List.extract_eq_take_drop,
    List.extract_eq_take_drop, List.drop_take, List.drop_drop, List.take_take, inner,
    Nat.min_eq_left (Nat.sub_le _ _)]

theorem run_string : string.run (cursor.mark source) = .ok () (cursor.scanString.mark source) := by
  have after := rest_pass_takeWhile cursor (· != '"')
  have passed := sound.pass (cursor.rest.takeWhile (· != '"')).length
  rw [string, EStateM.run_bind, run_rounds (fun cursor sound => run_isBefore sound '"')
    (fun cursor c rest sound ahead _ => run_advanceInString sound ahead) sound]
  dsimp only
  rw [EStateM.run_bind, run_isAtEnd passed, SourceCursor.isAtEnd, scanString]
  dsimp only
  by_cases closed : '"' ∈ cursor.rest
  · obtain ⟨later, left⟩ := exists_dropWhile_eq_cons closed
    have closes := sound.pass ((cursor.rest.takeWhile (· != '"')).length + 1)
    rw [left] at after
    rw [if_pos closed, after, List.isEmpty_cons, if_neg Bool.false_ne_true, EStateM.run_bind,
      run_advance passed after, advance_eq_pass after (by decide), ← pass_add, record,
      contents_eq closes]
    exact run_addToken closes .string _
  · have all : ∀ c ∈ cursor.rest, (c != '"') = true := by
      rintro c found
      exact bne_iff_ne.mpr fun same => closed (same ▸ found)
    rw [if_neg closed, after, List.takeWhile_eq_self_iff.mpr all, List.dropWhile_eq_nil_iff.mpr all]
    rfl

/-! ## Pieces -/

theorem run_accept_singleton (expected : Char) :
    (accept (String.singleton expected)).run (cursor.mark source) =
      if cursor.rest.head? = some expected then .ok true (cursor.advance.mark source)
      else .ok false (cursor.mark source) := by
  have same : (!cursor.isAtEnd && cursor.lookAhead 0 == String.singleton expected) = true ↔
      cursor.rest.head? = some expected := by
    rw [SourceCursor.isAtEnd, lookAhead]
    cases cursor.rest with
    | nil => simp
    | cons c rest =>
        rw [List.isEmpty_cons, Bool.not_false, Bool.true_and, beq_iff_eq, ← String.toList_inj,
          String.toList_singleton, String.toList_singleton, List.singleton_inj, List.head?_cons,
          Option.some_inj]
        rfl
  rw [run_accept sound, if_congr same rfl rfl]

theorem run_mark (kind : TokenKind) (c : Char) :
    (addToken kind none).run (cursor.mark source) =
      indexed source (cursor.scanOthers ⟨.mark kind, c, []⟩) := by
  rw [scanOthers_nil Shape.noConfusion]
  exact run_addToken sound kind none

theorem run_markWithEqual (alone together : TokenKind) (c : Char) :
    (markWithEqual alone together).run (cursor.mark source) =
      indexed source (cursor.scanOthers (Piece.withEqual c cursor.rest alone together)) := by
  have equalsSign : "=" = String.singleton '=' := rfl
  rw [markWithEqual, equalsSign, EStateM.run_bind, run_accept_singleton sound, Piece.withEqual]
  by_cases follows : cursor.rest.head? = some '='
  · obtain ⟨rest, ahead⟩ := List.head?_eq_some_iff.mp follows
    rw [if_pos follows, if_pos follows, scanOthers_of_ne_number Shape.noConfusion,
      advance_eq_pass ahead (by decide)]
    exact run_addToken (sound.pass 1) together none
  · rw [if_neg follows, if_neg follows]
    exact run_mark sound alone c

theorem run_slash :
    (scanRest '/').run (cursor.mark source) =
      indexed source (cursor.scanOthers
        (if cursor.rest.head? = some '/' then ⟨.comment, '/', cursor.rest.takeWhile (· != '\n')⟩
        else ⟨.mark .slash, '/', []⟩)) := by
  have slash : "/" = String.singleton '/' := rfl
  rw [scanRest, slash, EStateM.run_bind, run_accept_singleton sound]
  by_cases follows : cursor.rest.head? = some '/'
  · obtain ⟨rest, ahead⟩ := List.head?_eq_some_iff.mp follows
    rw [if_pos follows, if_pos follows, scanOthers_of_ne_number Shape.noConfusion,
      advance_eq_pass ahead (by decide)]
    dsimp only
    rw [if_pos rfl, run_comment (sound.pass 1), rest_pass_one ahead, ← pass_add, ahead,
      List.takeWhile_cons_of_pos (by decide), List.length_cons, Nat.add_comm]
    rfl
  · rw [if_neg follows, if_neg follows]
    exact run_mark sound .slash '/'

theorem run_quote :
    (scanRest '"').run (cursor.mark source) =
      indexed source (cursor.scanOthers
        (if '"' ∈ cursor.rest then ⟨.string, '"', cursor.rest.takeWhile (· != '"') ++ ['"']⟩
        else ⟨.openString, '"', cursor.rest⟩)) := by
  rw [scanRest, run_string sound, scanString]
  by_cases closed : '"' ∈ cursor.rest
  · rw [if_pos closed, if_pos closed, scanOthers_of_ne_number Shape.noConfusion,
      List.length_append]
    rfl
  · rw [if_neg closed, if_neg closed, scanOthers_of_ne_number Shape.noConfusion]
    rfl

/-- What begins with none of the listed characters is a number, a word or a stray character. -/
theorem run_other (c : Char) :
    EStateM.run (if isDigit c then number
      else if isLetter c then word
      else addError fun line => .unexpectedCharacter line (String.singleton c))
        (cursor.mark source) =
      indexed source (cursor.scanOthers
        (if c.isDigit then ⟨.number, c, Piece.numeralTail cursor.rest⟩
        else if isWordStart c then ⟨.word, c, cursor.rest.takeWhile isWordPart⟩
        else ⟨.stray c, c, []⟩)) := by
  rw [isDigit_eq, isLetter_eq]
  by_cases digit : c.isDigit = true
  · rw [if_pos digit, if_pos digit, run_number sound, scanOthers]
    dsimp only
    by_cases fails :
        Binary64.ofText? (cursor.pass (Piece.numeralTail cursor.rest).length).span = none
    · rw [if_pos fails, if_pos ⟨rfl, fails⟩]
      rfl
    · rw [if_neg fails, if_neg fun both => fails both.2]
      rfl
  rw [if_neg digit, if_neg digit]
  by_cases letter : isWordStart c = true
  · rw [if_pos letter, if_pos letter, run_word sound, scanOthers_of_ne_number Shape.noConfusion]
    rfl
  · rw [if_neg letter, if_neg letter, scanOthers_nil Shape.noConfusion]
    rfl

/-- The rest of a piece is read in the same way wherever its first character ends no line. -/
theorem run_scanRest (inside : c ≠ '\n') :
    (scanRest c).run (cursor.mark source) =
      indexed source (cursor.scanOthers (Piece.longest c cursor.rest)) := by
  unfold Piece.longest
  split
  case h_11 | h_12 | h_13 | h_14 => exact run_markWithEqual sound _ _ _
  case h_15 => exact run_slash sound
  case h_16 | h_17 | h_18 =>
    rw [scanOthers_nil Shape.noConfusion]
    rfl
  case h_19 => exact absurd rfl inside
  case h_20 => exact run_quote sound
  case h_21 =>
    unfold scanRest
    split
    case h_21 => exact run_other sound c
    all_goals contradiction
  all_goals exact run_mark sound _ _

/-- A call for a piece fails at the end of the text, where there is no first character, or after
digits that make no number together with what stands before them. -/
theorem run_scanPiece :
    scanPiece.run (cursor.mark source) = indexed source cursor.scanPiece := by
  cases ahead : cursor.rest with
  | nil =>
      have fails : cursor.scanPiece = (.error .endOfText, cursor) := by
        rw [SourceCursor.scanPiece, ahead]
      rw [scanPiece, EStateM.run_bind, run_advance_of_nil sound ahead, fails]
      rfl
  | cons c rest =>
      rw [scanPiece, EStateM.run_bind, run_advance sound ahead, scanPiece_of_cons ahead]
      dsimp only
      by_cases ends : c = '\n'
      · subst ends
        have layout : Piece.longest '\n' rest = ⟨.layout, '\n', []⟩ := rfl
        rw [layout, scanOthers_nil Shape.noConfusion, record]
        exact congrArg (EStateM.Result.ok ()) (mark_pass_newline ahead).symm
      · rw [advance_eq_pass ahead ends, run_scanRest (sound.pass 1) ends, rest_pass_one ahead]

theorem run_takePiece (ahead : cursor.rest = c :: rest) :
    takePiece.run (cursor.mark source) =
      .ok () ((cursor.takePiece (Piece.longest c rest)).mark source) := by
  have reads := run_scanPiece sound.beginLexeme
  rw [scanPiece_beginLexeme ahead] at reads
  exact reads

/-- Pieces are read until the whole text has been read. -/
theorem run_loop_takePiece {count : Nat} (enough : cursor.rest.length < count) :
    (loop (return !(← isAtEnd)) takePiece count).run (cursor.mark source) =
      .ok () (cursor.final.mark source) := by
  induction count generalizing cursor with
  | zero => exact absurd enough (Nat.not_lt_zero _)
  | succ count ih =>
      rw [loop, EStateM.run_bind, EStateM.run_bind, run_isAtEnd sound, SourceCursor.isAtEnd]
      dsimp only
      cases ahead : cursor.rest with
      | nil =>
          rw [final_of_rest_eq_nil ahead]
          rfl
      | cons c rest =>
          have taken : IsSoundIn source (cursor.takePiece (Piece.longest c rest)) :=
            (sound.beginLexeme.pass _).record _
          have shorter := length_rest_of_scanPiece (scanPiece_beginLexeme ahead)
          rw [final_of_rest_eq_cons ahead, ← ih taken (by omega), List.isEmpty_cons]
          dsimp only [EStateM.run_pure]
          rw [Bool.not_false, if_pos rfl, EStateM.run_bind, run_takePiece sound ahead]

theorem run_scanAll :
    scanAll.run (cursor.mark source) =
      .ok cursor.scanAll.tokens.toList (cursor.scanAll.mark source) := by
  have reads : (rounds (return !(← isAtEnd)) takePiece).run (cursor.mark source) =
      .ok () (cursor.final.mark source) := run_loop_takePiece sound (length_rest_lt sound)
  rw [scanAll, EStateM.run_bind, reads]
  rfl

end Sound

end TextM

end LoxFront
