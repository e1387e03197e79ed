/-
# Both ways to end a line scan alike

A text may end its lines with a line break alone or with a carriage return before it. The
second way puts one more blank between lexemes, one more character into a comment, where
nothing looks at it, and one into a string, where it stays. Nothing else of a scan changes:
no piece begins or goes on with either of the two characters unless it does so with both, and
lines are counted by the line breaks alone.

Only the end of a comment tells the two apart. It leaves the line break to the next piece and
takes the carriage return, which otherwise is a piece of its own.
-/

import LoxFront.Diagnostic
import LoxFront.Proofs.Source.Meaning
import LoxFront.Proofs.Source.Separated

namespace LoxFront

/-- A text with a carriage return before each of its line breaks. -/
def crlf (text : List Char) : List Char :=
  text.flatMap fun c => if c = '\n' then ['\r', '\n'] else [c]

/-- A string with a carriage return before each of its line breaks. -/
def crlfString (text : String) : String :=
  String.ofList (crlf text.toList)

/-- The literal with a carriage return before each line break of its contents. -/
def Literal.crlf : Literal → Literal
  | .string contents => .string (crlfString contents)
  | .number value => .number value
  | .identifier spelling => .identifier spelling

/-- The token with a carriage return before each line break of its lexeme and its value. -/
def Token.crlf (token : Token) : Token :=
  { token with lexeme := crlfString token.lexeme, literal := token.literal.map Literal.crlf }

section Text

variable {c : Char} {text rest : List Char} {p : Char → Bool}

theorem crlf_cons_newline (rest : List Char) : crlf ('\n' :: rest) = '\r' :: '\n' :: crlf rest :=
  rfl

theorem crlf_cons (other : c ≠ '\n') (rest : List Char) : crlf (c :: rest) = c :: crlf rest := by
  rw [crlf, List.flatMap_cons, if_neg other]
  rfl

theorem crlf_append (text rest : List Char) : crlf (text ++ rest) = crlf text ++ crlf rest :=
  List.flatMap_append

theorem crlf_eq_nil_iff : crlf text = [] ↔ text = [] := by
  cases text with
  | nil => exact Iff.rfl
  | cons c text =>
      by_cases newline : c = '\n'
      · simp [newline, crlf_cons_newline]
      · simp [crlf_cons newline]

/-- A text without a line break stays as it is. -/
theorem crlf_eq_self (oneLine : '\n' ∉ text) : crlf text = text := by
  induction text with
  | nil => rfl
  | cons c text ih =>
      rw [List.mem_cons, not_or] at oneLine
      rw [crlf_cons (Ne.symm oneLine.1), ih oneLine.2]

/-- No line break is added. -/
theorem count_crlf (text : List Char) : (crlf text).count '\n' = text.count '\n' := by
  induction text with
  | nil => rfl
  | cons c text ih =>
      by_cases newline : c = '\n'
      · subst newline
        simp [crlf_cons_newline, ih]
      · simp [crlf_cons newline, newline, ih]

/-- What does not end a line is where it was. -/
theorem mem_crlf_iff (other : c ∉ layoutCharacters) : c ∈ crlf text ↔ c ∈ text := by
  have noReturn : c ≠ '\r' := by rintro rfl; exact other (by decide)
  have noBreak : c ≠ '\n' := by rintro rfl; exact other (by decide)
  induction text with
  | nil => exact Iff.rfl
  | cons d text ih =>
      by_cases newline : d = '\n'
      · subst newline
        simp [crlf_cons_newline, ih, noReturn, noBreak]
      · simp [crlf_cons newline, ih]

theorem head?_crlf_eq_iff (other : c ∉ layoutCharacters) :
    (crlf text).head? = some c ↔ text.head? = some c := by
  have noReturn : '\r' ≠ c := by rintro rfl; exact other (by decide)
  have noBreak : '\n' ≠ c := by rintro rfl; exact other (by decide)
  cases text with
  | nil => exact Iff.rfl
  | cons d text =>
      by_cases newline : d = '\n'
      · subst newline
        simp [crlf_cons_newline, noReturn, noBreak]
      · simp [crlf_cons newline]

/-- What goes on over line breaks and carriage returns, or ends at both, takes the same. -/
theorem takeWhile_crlf (same : p '\r' = p '\n') (text : List Char) :
    (crlf text).takeWhile p = crlf (text.takeWhile p) := by
  induction text with
  | nil => rfl
  | cons c text ih =>
      by_cases newline : c = '\n'
      · subst newline
        rw [crlf_cons_newline]
        by_cases goesOn : p '\n' = true
        · rw [List.takeWhile_cons_of_pos (same.trans goesOn), List.takeWhile_cons_of_pos goesOn,
            List.takeWhile_cons_of_pos goesOn, ih, crlf_cons_newline]
        · rw [List.takeWhile_cons_of_neg (by rwa [same]), List.takeWhile_cons_of_neg goesOn]
          rfl
      · rw [crlf_cons newline]
        by_cases goesOn : p c = true
        · rw [List.takeWhile_cons_of_pos goesOn, List.takeWhile_cons_of_pos goesOn, ih,
            crlf_cons newline]
        · rw [List.takeWhile_cons_of_neg goesOn, List.takeWhile_cons_of_neg goesOn]
          rfl

/-- What is left after it is the same as well. -/
theorem dropWhile_crlf (same : p '\r' = p '\n') (text : List Char) :
    (crlf text).dropWhile p = crlf (text.dropWhile p) := by
  have whole : crlf text = crlf (text.takeWhile p) ++ crlf (text.dropWhile p) := by
    rw [← crlf_append, List.takeWhile_append_dropWhile]
  rw [← List.takeWhile_append_dropWhile (p := p) (l := crlf text), takeWhile_crlf same] at whole
  exact List.append_cancel_left whole

end Text

namespace Piece

variable {c : Char} {rest : List Char} {piece : Piece}

/-- The piece with a carriage return before each line break after its first character. -/
def crlf (piece : Piece) : Piece :=
  { piece with others := LoxFront.crlf piece.others }

theorem text_crlf (other : piece.first ≠ '\n') : piece.crlf.text = LoxFront.crlf piece.text :=
  (crlf_cons other _).symm

/-! ## The piece in front -/

/-- A numeral ends before both characters. -/
theorem numeralTail_crlf (rest : List Char) :
    numeralTail (LoxFront.crlf rest) = LoxFront.crlf (numeralTail rest) := by
  have same : Char.isDigit '\r' = Char.isDigit '\n' := rfl
  unfold numeralTail
  rw [takeWhile_crlf same, dropWhile_crlf same]
  cases rest.dropWhile Char.isDigit with
  | nil => rfl
  | cons c fraction =>
      by_cases newline : c = '\n'
      · subst newline
        simp [crlf_cons_newline]
      · by_cases point : c = '.'
        · subst point
          simp [crlf_cons newline, takeWhile_crlf same, crlf_eq_nil_iff, apply_ite LoxFront.crlf,
            crlf_append]
        · simp [crlf_cons newline, point]

theorem withEqual_crlf (c : Char) (rest : List Char) (alone together : TokenKind) :
    withEqual c (LoxFront.crlf rest) alone together = (withEqual c rest alone together).crlf := by
  unfold withEqual
  simp only [head?_crlf_eq_iff (show '=' ∉ layoutCharacters by decide)]
  split <;> rfl

/-- The piece in front, unless it is a comment, takes the carriage returns before its line
breaks. -/
theorem longest_crlf (inCode : (longest c rest).shape ≠ .comment) :
    longest c (LoxFront.crlf rest) = (longest c rest).crlf := by
  unfold longest at inCode ⊢
  split at inCode
  case h_11 | h_12 | h_13 | h_14 => exact withEqual_crlf _ _ _ _
  case h_15 =>
    simp only [head?_crlf_eq_iff (show '/' ∉ layoutCharacters by decide)]
    split
    · next isComment => exact absurd (by rw [if_pos isComment]) inCode
    · rfl
  case h_20 =>
    simp only [mem_crlf_iff (show '"' ∉ layoutCharacters by decide)]
    rw [takeWhile_crlf rfl]
    split
    · rw [Piece.crlf, crlf_append]
      rfl
    · rfl
  case h_21 =>
    rw [numeralTail_crlf, takeWhile_crlf (p := isWordPart) (by decide)]
    split
    · rfl
    · split <;> rfl
  all_goals rfl

/-- A comment is two slashes and what follows on the line, all of it. -/
theorem exists_remark (isComment : (longest c rest).shape = .comment) :
    ∃ remark after, rest.drop (longest c rest).others.length = after ∧
      c :: rest = '/' :: '/' :: (remark ++ after) ∧ '\n' ∉ remark ∧
      ∀ d ∈ after.head?, d = '\n' := by
  have found := isLongestIn c rest
  obtain ⟨remark, same, oneLine⟩ := isComment ▸ found.admits
  have whole := text_longest_append_drop c rest
  rw [same] at whole
  refine ⟨remark, _, rfl, whole.symm, oneLine, fun d next => ?_⟩
  by_contra other
  obtain ⟨more, left⟩ := List.head?_eq_some_iff.mp next
  have goesOn : Shape.comment.Admits ('/' :: '/' :: (remark ++ [d])) :=
    ⟨remark ++ [d], rfl, by simp [oneLine, Ne.symm other]⟩
  have longer := found.longest .comment _ goesOn ⟨more, by rw [← whole, left]; simp⟩
  rw [same, List.length_cons, List.length_cons, List.length_cons, List.length_cons,
    List.length_append, List.length_singleton] at longer
  omega

/-- A comment goes on to the end of its line or of the text. -/
theorem split_comment {remark after : List Char} (oneLine : '\n' ∉ remark)
    (stops : ∀ c ∈ after.head?, c = '\n') :
    split ('/' :: '/' :: (remark ++ after)) = ⟨.comment, '/', '/' :: remark⟩ :: split after := by
  have inLine : ∀ d ∈ '/' :: remark, (d != '\n') = true :=
    forall_bne_of_not_mem (List.not_mem_cons_of_ne_of_not_mem (by decide) oneLine)
  have ends : after.takeWhile (· != '\n') = [] := by
    cases after with
    | nil => rfl
    | cons c after => simp [stops c rfl]
  have taken : ('/' :: (remark ++ after)).takeWhile (· != '\n') = '/' :: remark := by
    rw [← List.cons_append, List.takeWhile_append_of_pos inLine, ends, List.append_nil]
  rw [split, longest_slash_slash, taken, ← List.cons_append]
  dsimp only
  rw [List.drop_left]

/-! ## What the pieces mean -/

/-- A carriage return between lexemes means nothing. -/
theorem meaning_split_return (line : Nat) (after : List Char) :
    tokens line (split ('\r' :: after)) = tokens line (split after) ∧
      errors line (split ('\r' :: after)) = errors line (split after) := by
  rw [split_blank_cons (by decide), tokens_cons, errors_cons]
  exact ⟨rfl, rfl⟩

/-- Nor does a comment mean anything. -/
theorem meaning_split_comment {remark after : List Char} (oneLine : '\n' ∉ remark)
    (stops : ∀ c ∈ after.head?, c = '\n') (line : Nat) :
    tokens line (split ('/' :: '/' :: (remark ++ after))) = tokens line (split after) ∧
      errors line (split ('/' :: '/' :: (remark ++ after))) = errors line (split after) := by
  have none : (⟨.comment, '/', '/' :: remark⟩ : Piece).breaks = 0 := by
    simp [breaks, Piece.text, List.count_eq_zero, oneLine]
  rw [split_comment oneLine stops, tokens_cons, errors_cons, none]
  exact ⟨rfl, rfl⟩

theorem breaks_crlf (other : piece.first ≠ '\n') : piece.crlf.breaks = piece.breaks := by
  rw [breaks, text_crlf other, count_crlf, breaks]

/-- There is no line break in a numeral or in a word. -/
theorem crlf_text_longest (numeral : (longest c rest).shape = .number ∨
    (longest c rest).shape = .word) :
    LoxFront.crlf (longest c rest).text = (longest c rest).text := by
  have admits := longest_admits c rest
  apply crlf_eq_self
  intro newline
  rcases numeral with isNumber | isWord
  · rw [isNumber] at admits
    obtain ⟨whole, fraction, -, digits, spells⟩ := admits
    have inRow : '\n' ∉ whole ++ fraction := fun member => absurd (digits _ member) (by decide)
    rw [List.mem_append, not_or] at inRow
    rcases spells with ⟨same, -⟩ | ⟨same, -⟩ <;> simp [same, inRow] at newline
  · rw [isWord] at admits
    obtain ⟨start, others, same, starts, parts⟩ := admits
    rw [same] at newline
    rcases List.mem_cons.mp newline with rfl | later
    · exact absurd starts (by decide)
    · exact absurd (parts _ later) (by decide)

/-- With carriage returns in it, a piece means a token of the same kind, and the contents of a
string have them as well. -/
theorem meaning?_longest_crlf (other : c ≠ '\n') :
    (longest c rest).crlf.meaning? =
      (longest c rest).meaning?.map fun meaning => (meaning.1, meaning.2.map Literal.crlf) := by
  have admits := longest_admits c rest
  have first : (longest c rest).first ≠ '\n' := by rwa [first_longest]
  have text := text_crlf first
  have same := @crlf_text_longest c rest
  generalize longest c rest = piece at *
  have shape : piece.crlf.shape = piece.shape := rfl
  unfold meaning?
  rw [shape, text]
  cases found : piece.shape with
  | string =>
      rw [found] at admits
      obtain ⟨contents, whole, -⟩ := admits
      have others : piece.others = contents ++ ['"'] := (List.cons.inj whole).2
      have inner : piece.crlf.others = LoxFront.crlf contents ++ ['"'] := by
        rw [crlf, others, crlf_append]
        rfl
      simp [inner, others, Literal.crlf, crlfString]
  | number =>
      rw [same (.inl found)]
      cases Binary64.ofText? piece.text <;> rfl
  | word =>
      rw [same (.inr found)]
      rfl
  | mark | layout | comment | openString | stray => rfl

theorem token?_longest_crlf (other : c ≠ '\n') (line : Nat) :
    (longest c rest).crlf.token? line = ((longest c rest).token? line).map Token.crlf := by
  have first : (longest c rest).first ≠ '\n' := by rwa [first_longest]
  have text := text_crlf first
  rw [token?, token?, meaning?_longest_crlf other, text]
  cases (longest c rest).meaning? with
  | none => rfl
  | some meaning => simp [Token.crlf, crlfString]

theorem error?_crlf (other : piece.first ≠ '\n') (line : Nat) :
    piece.crlf.error? line = piece.error? line := by
  rw [error?, error?, breaks_crlf other]
  rfl

/-- The pieces of a text with carriage returns mean the same tokens with carriage returns, and
the same errors. -/
def MeansSame (text : List Char) : Prop :=
  ∀ line, tokens line (split (LoxFront.crlf text)) = (tokens line (split text)).map Token.crlf ∧
    errors line (split (LoxFront.crlf text)) = errors line (split text)

/-- The line break becomes two pieces, of which the second one counts the line. -/
theorem MeansSame.newline {after : List Char} (same : MeansSame after) :
    MeansSame ('\n' :: after) := by
  intro line
  obtain ⟨tokens, errors⟩ := meaning_split_return line ('\n' :: LoxFront.crlf after)
  obtain ⟨later, laterErrors⟩ := same (line + 1)
  rw [crlf_cons_newline, tokens, errors, split_blank_cons (by decide),
    split_blank_cons (by decide), tokens_cons, tokens_cons, errors_cons, errors_cons,
    List.map_append]
  exact ⟨congrArg ([] ++ ·) later, congrArg ([] ++ ·) laterErrors⟩

/-- A comment takes the carriage return before the line break that ends it. -/
theorem MeansSame.comment {remark after : List Char} (oneLine : '\n' ∉ remark)
    (stops : ∀ c ∈ after.head?, c = '\n') (same : MeansSame after) :
    MeansSame ('/' :: '/' :: (remark ++ after)) := by
  intro line
  obtain ⟨plain, plainErrors⟩ := meaning_split_comment oneLine stops line
  rw [plain, plainErrors, crlf_cons (by decide), crlf_cons (by decide), crlf_append,
    crlf_eq_self oneLine]
  cases after with
  | nil =>
      have ends : ∀ c ∈ ([] : List Char).head?, c = '\n' := by simp
      obtain ⟨ended, endedErrors⟩ := meaning_split_comment oneLine ends line
      rw [LoxFront.crlf, List.flatMap_nil, ended, endedErrors]
      exact same line
  | cons c after =>
      obtain rfl : c = '\n' := stops c rfl
      have longer : '\n' ∉ remark ++ ['\r'] := by simpa using oneLine
      have whole : remark ++ '\r' :: '\n' :: LoxFront.crlf after =
          (remark ++ ['\r']) ++ '\n' :: LoxFront.crlf after := by simp
      have ends : ∀ d ∈ ('\n' :: LoxFront.crlf after).head?, d = '\n' := by simp
      obtain ⟨taken, takenErrors⟩ := meaning_split_comment longer ends line
      obtain ⟨alone, aloneErrors⟩ := meaning_split_return line ('\n' :: LoxFront.crlf after)
      rw [crlf_cons_newline, whole, taken, takenErrors, ← alone, ← aloneErrors]
      exact same line

/-- Any other piece takes the carriage returns with it. -/
theorem MeansSame.code {c : Char} {rest : List Char} (other : c ≠ '\n')
    (inCode : (longest c rest).shape ≠ .comment)
    (same : MeansSame (rest.drop (longest c rest).others.length)) : MeansSame (c :: rest) := by
  intro line
  obtain ⟨after, whole⟩ := others_longest_isPrefix c rest
  have left : rest.drop (longest c rest).others.length = after :=
    (congrArg (List.drop (longest c rest).others.length) whole).symm.trans List.drop_left
  have wholeThere : (longest c rest).crlf.others ++ LoxFront.crlf after = LoxFront.crlf rest := by
    rw [← congrArg LoxFront.crlf whole, crlf_append]
    rfl
  have leftThere : (LoxFront.crlf rest).drop (longest c rest).crlf.others.length =
      LoxFront.crlf after :=
    (congrArg (List.drop (longest c rest).crlf.others.length) wholeThere).symm.trans List.drop_left
  have first : (longest c rest).first ≠ '\n' := by rwa [first_longest]
  rw [left] at same
  obtain ⟨tokens, errors⟩ := same (line + (longest c rest).breaks)
  rw [crlf_cons other, split, split, longest_crlf inCode, left, leftThere, tokens_cons, tokens_cons,
    errors_cons, errors_cons, token?_longest_crlf other, error?_crlf first, breaks_crlf first,
    tokens, errors, List.map_append, Option.toList_map]
  exact ⟨rfl, rfl⟩

theorem meansSame (text : List Char) : MeansSame text := by
  induction text using split.induct with
  | case1 => exact fun line => ⟨by simp [split, tokens, placed, LoxFront.crlf], rfl⟩
  | case2 c rest piece ih =>
      by_cases newline : c = '\n'
      · subst newline
        exact ih.newline
      · by_cases isComment : piece.shape = .comment
        · obtain ⟨remark, after, left, whole, oneLine, stops⟩ := exists_remark isComment
          rw [left] at ih
          rw [whole]
          exact ih.comment oneLine stops
        · exact .code newline isComment ih

end Piece

/-- How the lines of a text end makes no difference to a scan of it: with a carriage return
before each line break there are as many tokens, of the same kinds, on the same lines and with
the same numbers, and their lexemes and strings differ in the carriage returns alone. The errors
are the same, and so are their diagnostics. -/
theorem scan_crlf (source : String) :
    (scan (crlfString source)).tokens = (scan source).tokens.map Token.crlf ∧
      (scan (crlfString source)).errors = (scan source).errors ∧
      (scan (crlfString source)).errors.map Diagnostic.ofScanError =
        (scan source).errors.map Diagnostic.ofScanError := by
  obtain ⟨tokens, errors⟩ := Piece.meansSame source.toList 1
  have found : (scan (crlfString source)).errors = (scan source).errors := by
    rw [scan_eq_meaning, scan_eq_meaning source, crlfString, String.toList_ofList, errors]
  refine ⟨?_, found, by rw [found]⟩
  rw [scan_eq_meaning, scan_eq_meaning source, crlfString, String.toList_ofList, tokens,
    count_crlf, List.map_append]
  rfl

end LoxFront
