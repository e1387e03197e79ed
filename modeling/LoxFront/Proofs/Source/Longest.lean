/-
# Pieces are longest matches

`Piece.longest` looks at the first character of a text and at most two characters
beyond what it has read. `Shape.Admits` says which texts have a shape and knows nothing
of what follows them. This module shows that the first finds exactly what the second
asks for: the piece has its shape, no longer beginning of the text has any shape, and
the characters of a piece leave no choice between shapes.

The second and the third statement are proved shape by shape, from the text that is
admitted and not from the branches of `longest`, so that a branch is looked at only
where a text begins with its character.
-/

import LoxFront.Source.Partition

namespace LoxFront

namespace Piece

variable {c : Char} {rest others after : List Char}

/-! ## Words and numerals -/

/-- A digit begins a numeral. -/
theorem longest_of_isDigit (digit : c.isDigit = true) (rest : List Char) :
    longest c rest = ⟨.number, c, numeralTail rest⟩ := by
  unfold longest
  split
  case h_21 => rw [if_pos digit]
  all_goals exact absurd digit (by decide)

theorem isDigit_eq_false_of_isWordStart (starts : isWordStart c = true) :
    c.isDigit = false := by
  apply Bool.eq_false_iff.mpr
  intro digit
  have small : c.toNat ≤ 57 := (Char.isDigit_iff_toNat.mp digit).2
  rcases Bool.or_eq_true_iff.mp starts with letter | underscore
  · rcases Bool.or_eq_true_iff.mp letter with upper | lower
    · have large : 65 ≤ c.toNat := UInt32.le_iff_toNat_le.mp (of_decide_eq_true upper).1
      exact absurd (Nat.le_trans large small) (by decide)
    · have large : 97 ≤ c.toNat :=
        UInt32.le_iff_toNat_le.mp (of_decide_eq_true (Bool.and_eq_true_iff.mp lower).1)
      exact absurd (Nat.le_trans large small) (by decide)
  · rw [eq_of_beq underscore] at digit
    exact absurd digit (by decide)

/-- A letter or an underscore begins a word. -/
theorem longest_of_isWordStart (starts : isWordStart c = true) (rest : List Char) :
    longest c rest = ⟨.word, c, rest.takeWhile isWordPart⟩ := by
  unfold longest
  split
  case h_21 =>
    rw [isDigit_eq_false_of_isWordStart starts, if_neg Bool.false_ne_true, if_pos starts]
  all_goals exact absurd starts (by decide)

/-- A numeral takes all digits that follow its first one. -/
theorem takeWhile_isPrefix_numeralTail (rest : List Char) :
    rest.takeWhile Char.isDigit <+: numeralTail rest := by
  unfold numeralTail
  split
  · dsimp only
    split
    · exact List.prefix_refl _
    · exact List.prefix_append _ _
  · exact List.prefix_refl _

/-- A numeral takes a point before a digit, and the digits that follow. -/
theorem numeralTail_append_point {whole fraction : List Char} {digit : Char}
    (digits : ∀ d ∈ whole, d.isDigit = true) (starts : digit.isDigit = true) :
    numeralTail (whole ++ '.' :: digit :: fraction) =
      whole ++ '.' :: digit :: fraction.takeWhile Char.isDigit := by
  have taken : (whole ++ '.' :: digit :: fraction).takeWhile Char.isDigit = whole := by
    rw [List.takeWhile_append_of_pos digits, List.takeWhile_cons_of_neg (by decide),
      List.append_nil]
  have left : (whole ++ '.' :: digit :: fraction).dropWhile Char.isDigit =
      '.' :: digit :: fraction := by
    rw [List.dropWhile_append_of_pos digits, List.dropWhile_cons_of_neg (by decide)]
  unfold numeralTail
  rw [taken, left]
  simp [starts]

/-- The tail of a numeral is made of digits, perhaps with a point and digits after
them. -/
theorem numeralTail_spec (rest : List Char) :
    ∃ whole fraction, (∀ d ∈ whole ++ fraction, d.isDigit = true) ∧
      (numeralTail rest = whole ∧ fraction = [] ∨
        numeralTail rest = whole ++ '.' :: fraction ∧ fraction ≠ []) := by
  have digits : ∀ {text : List Char}, ∀ d ∈ text.takeWhile Char.isDigit, d.isDigit = true := by
    intro text
    exact List.all_eq_true.mp List.all_takeWhile
  unfold numeralTail
  split
  · next fraction _ =>
    dsimp only
    by_cases none : (fraction.takeWhile Char.isDigit).isEmpty = true
    · rw [if_pos none]
      exact ⟨_, [], by simpa using digits, .inl ⟨rfl, rfl⟩⟩
    · rw [if_neg none]
      refine ⟨_, fraction.takeWhile Char.isDigit, fun d member => ?_, .inr ⟨rfl, ?_⟩⟩
      · rcases List.mem_append.mp member with inWhole | inFraction
        · exact digits d inWhole
        · exact digits d inFraction
      · simpa using none
  · exact ⟨_, [], by simpa using digits, .inl ⟨rfl, rfl⟩⟩

/-! ## The piece has its shape -/

theorem comment_admits (next : rest.head? = some '/') :
    Shape.comment.Admits ('/' :: rest.takeWhile (· != '\n')) := by
  obtain ⟨remark, rfl⟩ := List.head?_eq_some_iff.mp next
  refine ⟨remark.takeWhile (· != '\n'), ?_, fun member => ?_⟩
  · rw [List.takeWhile_cons_of_pos (by decide)]
  · have other := List.all_eq_true.mp List.all_takeWhile '\n' member
    simp at other

theorem string_admits (rest : List Char) :
    Shape.string.Admits ('"' :: (rest.takeWhile (· != '"') ++ ['"'])) := by
  refine ⟨_, rfl, fun member => ?_⟩
  have other := List.all_eq_true.mp List.all_takeWhile '"' member
  simp at other

theorem number_admits (digit : c.isDigit = true) (rest : List Char) :
    Shape.number.Admits (c :: numeralTail rest) := by
  obtain ⟨whole, fraction, digits, spells⟩ := numeralTail_spec rest
  refine ⟨c :: whole, fraction, List.cons_ne_nil _ _, fun d member => ?_, ?_⟩
  · rcases List.mem_cons.mp member with rfl | later
    · exact digit
    · exact digits d later
  · rcases spells with ⟨same, none⟩ | ⟨same, some⟩
    · exact .inl ⟨congrArg (c :: ·) same, none⟩
    · exact .inr ⟨congrArg (c :: ·) same, some⟩

theorem word_admits (starts : isWordStart c = true) (rest : List Char) :
    Shape.word.Admits (c :: rest.takeWhile isWordPart) :=
  ⟨c, _, rfl, starts, List.all_eq_true.mp List.all_takeWhile⟩

/-- The piece in front of a text has its shape. -/
theorem longest_admits (c : Char) (rest : List Char) :
    (longest c rest).shape.Admits (longest c rest).text := by
  unfold longest withEqual
  repeat' split
  case h_15.isTrue next => exact comment_admits next
  case h_16 => exact .inl rfl
  case h_17 => exact .inr (.inl rfl)
  case h_18 => exact .inr (.inr (.inl rfl))
  case h_19 => exact .inr (.inr (.inr rfl))
  case h_20.isTrue => exact string_admits rest
  case h_20.isFalse noQuote => exact ⟨rest, rfl, noQuote⟩
  case h_21.isTrue digit => exact number_admits digit rest
  case h_21.isFalse.isTrue starts => exact word_admits starts rest
  case h_21.isFalse.isFalse noDigit noStart =>
    refine ⟨rfl, fun kind spells => ?_, ?_, noDigit, noStart⟩
    · have spelled := congrArg (Option.map String.toList) spells
      cases kind <;> simp [TokenKind.markSpelling?, text] at spelled
      all_goals
        subst spelled
        contradiction
    · simp only [List.mem_cons, List.not_mem_nil, or_false, not_or]
      and_intros <;> assumption
  all_goals rfl

/-! ## No other shape, and nothing longer -/

/-- A stray character has no other shape. -/
theorem eq_stray_of_admits {shape : Shape} (stray : (Shape.stray c).Admits [c])
    (admits : shape.Admits [c]) : shape = .stray c := by
  obtain ⟨-, noMark, noOther, noDigit, noStart⟩ := stray
  cases shape with
  | mark kind => exact absurd admits (noMark kind)
  | layout =>
      rcases admits with same | same | same | same
      all_goals
        cases same
        exact absurd (by decide) noOther
  | comment =>
      obtain ⟨remark, same, -⟩ := admits
      cases same
  | string =>
      obtain ⟨contents, same, -⟩ := admits
      exact absurd (congrArg List.length same) (by simp)
  | openString =>
      obtain ⟨contents, same, -⟩ := admits
      cases same
      exact absurd (by decide) noOther
  | number =>
      obtain ⟨whole, fraction, nonempty, digits, spells⟩ := admits
      obtain ⟨first, others, rfl⟩ := List.exists_cons_of_ne_nil nonempty
      have digit := digits first List.mem_cons_self
      rcases spells with ⟨same, -⟩ | ⟨same, -⟩
      all_goals
        obtain ⟨rfl, -⟩ := List.cons.inj same
        exact absurd digit noDigit
  | word =>
      obtain ⟨start, others, same, starts, -⟩ := admits
      cases same
      exact absurd starts noStart
  | stray character =>
      obtain ⟨same, -⟩ := admits
      cases same
      rfl

theorem longest_slash_slash (remark : List Char) :
    longest '/' ('/' :: remark) =
      ⟨.comment, '/', ('/' :: remark).takeWhile (· != '\n')⟩ := rfl

theorem longest_quote (rest : List Char) :
    longest '"' rest =
      if '"' ∈ rest then ⟨.string, '"', rest.takeWhile (· != '"') ++ ['"']⟩
      else ⟨.openString, '"', rest⟩ := rfl

/-- Up to a first occurrence, every character is another one. -/
theorem forall_bne_of_not_mem {stop : Char} {text : List Char} (absent : stop ∉ text) :
    ∀ d ∈ text, (d != stop) = true := by
  intro d member
  rw [bne_iff_ne]
  rintro rfl
  exact absent member

/-- What a shape admits is taken whole, whatever follows. If nothing follows, the piece
has this shape. -/
def TakesWhole (shape : Shape) (c : Char) (others after : List Char) : Prop :=
  others <+: (longest c (others ++ after)).others ∧
    (after = [] → (longest c (others ++ after)).shape = shape)

theorem takesWhole_mark {kind : TokenKind} (admits : (Shape.mark kind).Admits (c :: others))
    (after : List Char) : TakesWhole (.mark kind) c others after := by
  have spelled := congrArg (Option.map String.toList) admits
  cases kind <;> simp [TokenKind.markSpelling?] at spelled
  all_goals
    obtain ⟨rfl, rfl⟩ := spelled
    exact ⟨by simp [longest, withEqual], by rintro rfl; rfl⟩

theorem takesWhole_comment (admits : Shape.comment.Admits (c :: others)) (after : List Char) :
    TakesWhole .comment c others after := by
  obtain ⟨remark, same, oneLine⟩ := admits
  cases same
  have inLine : ∀ d ∈ '/' :: remark, (d != '\n') = true :=
    forall_bne_of_not_mem (List.not_mem_cons_of_ne_of_not_mem (by decide) oneLine)
  rw [TakesWhole, List.cons_append, longest_slash_slash, ← List.cons_append]
  dsimp only
  rw [List.takeWhile_append_of_pos inLine]
  exact ⟨List.prefix_append _ _, fun _ => rfl⟩

theorem takesWhole_string (admits : Shape.string.Admits (c :: others)) (after : List Char) :
    TakesWhole .string c others after := by
  obtain ⟨contents, same, noQuote⟩ := admits
  obtain ⟨rfl, rfl⟩ := List.cons.inj same
  have closed : '"' ∈ (contents ++ ['"']) ++ after :=
    List.mem_append_left _ List.mem_concat_self
  rw [TakesWhole, longest_quote, if_pos closed]
  dsimp only
  rw [List.append_assoc, List.takeWhile_append_of_pos (forall_bne_of_not_mem noQuote),
    List.singleton_append, List.takeWhile_cons_of_neg (by decide), List.append_nil]
  exact ⟨List.prefix_refl _, fun _ => rfl⟩

theorem takesWhole_openString (admits : Shape.openString.Admits (c :: others))
    (after : List Char) : TakesWhole .openString c others after := by
  obtain ⟨contents, same, noQuote⟩ := admits
  cases same
  rw [TakesWhole, longest_quote]
  by_cases closed : '"' ∈ others ++ after
  · rw [if_pos closed]
    dsimp only
    rw [List.takeWhile_append_of_pos (forall_bne_of_not_mem noQuote), List.append_assoc]
    refine ⟨List.prefix_append _ _, ?_⟩
    rintro rfl
    rw [List.append_nil] at closed
    exact absurd closed noQuote
  · rw [if_neg closed]
    exact ⟨List.prefix_append _ _, fun _ => rfl⟩

theorem takesWhole_number (admits : Shape.number.Admits (c :: others)) (after : List Char) :
    TakesWhole .number c others after := by
  obtain ⟨whole, fraction, nonempty, digits, spells⟩ := admits
  obtain ⟨first, whole, rfl⟩ := List.exists_cons_of_ne_nil nonempty
  have digit : first.isDigit = true := digits first List.mem_cons_self
  have inWhole : ∀ d ∈ whole, d.isDigit = true := fun d member =>
    digits d (List.mem_append_left _ (List.mem_cons_of_mem _ member))
  rcases spells with ⟨same, -⟩ | ⟨same, some⟩
  · obtain ⟨rfl, rfl⟩ := List.cons.inj same
    rw [TakesWhole, longest_of_isDigit digit]
    refine ⟨List.IsPrefix.trans ?_ (takeWhile_isPrefix_numeralTail _), fun _ => rfl⟩
    rw [List.takeWhile_append_of_pos inWhole]
    exact List.prefix_append _ _
  · rw [List.cons_append] at same
    obtain ⟨rfl, rfl⟩ := List.cons.inj same
    obtain ⟨next, fraction, rfl⟩ := List.exists_cons_of_ne_nil some
    have starts : next.isDigit = true :=
      digits next (List.mem_append_right _ List.mem_cons_self)
    have inFraction : ∀ d ∈ fraction, d.isDigit = true := fun d member =>
      digits d (List.mem_append_right _ (List.mem_cons_of_mem _ member))
    rw [TakesWhole, longest_of_isDigit digit, List.append_assoc, List.cons_append,
      List.cons_append, numeralTail_append_point inWhole starts,
      List.takeWhile_append_of_pos inFraction]
    refine ⟨⟨after.takeWhile Char.isDigit, ?_⟩, fun _ => rfl⟩
    rw [List.append_assoc, List.cons_append, List.cons_append]

theorem takesWhole_word (admits : Shape.word.Admits (c :: others)) (after : List Char) :
    TakesWhole .word c others after := by
  obtain ⟨start, parts, same, starts, inWord⟩ := admits
  cases same
  rw [TakesWhole, longest_of_isWordStart starts, List.takeWhile_append_of_pos inWord]
  exact ⟨List.prefix_append _ _, fun _ => rfl⟩

theorem takesWhole_stray {character : Char}
    (admits : (Shape.stray character).Admits (c :: others)) (after : List Char) :
    TakesWhole (.stray character) c others after := by
  have single := admits.1
  cases single
  refine ⟨List.nil_prefix, ?_⟩
  rintro rfl
  have alone : (longest c []).text = [c] := by
    rw [text, first_longest, List.prefix_nil.mp (others_longest_isPrefix c [])]
  have found := longest_admits c []
  rw [alone] at found
  exact eq_stray_of_admits admits found

theorem takesWhole_of_admits {shape : Shape} (admits : shape.Admits (c :: others))
    (after : List Char) : TakesWhole shape c others after := by
  cases shape with
  | mark kind => exact takesWhole_mark admits after
  | layout =>
      rcases admits with same | same | same | same
      all_goals
        cases same
        exact ⟨List.nil_prefix, fun _ => rfl⟩
  | comment => exact takesWhole_comment admits after
  | string => exact takesWhole_string admits after
  | openString => exact takesWhole_openString admits after
  | number => exact takesWhole_number admits after
  | word => exact takesWhole_word admits after
  | stray character => exact takesWhole_stray admits after

end Piece

namespace Shape

/-- A text has at most one shape. -/
theorem eq_of_admits {shape other : Shape} {c : Char} {others : List Char}
    (one : shape.Admits (c :: others)) (two : other.Admits (c :: others)) : shape = other := by
  have first := (Piece.takesWhole_of_admits one []).2 rfl
  have second := (Piece.takesWhole_of_admits two []).2 rfl
  exact first.symm.trans second

/-- A text is the longest one in front of a text that has a shape. -/
structure IsLongestIn (shape : Shape) (text source : List Char) : Prop where
  admits : shape.Admits text
  isPrefix : text <+: source
  longest : ∀ other longer, Admits other longer → longer <+: source →
    longer.length ≤ text.length

end Shape

/-- Only a whole text can be a string that is not closed. -/
theorem Piece.text_of_shape_eq_openString {c : Char} {rest : List Char}
    (isOpen : (longest c rest).shape = .openString) : (longest c rest).text = c :: rest := by
  obtain ⟨contents, same, -⟩ := isOpen ▸ longest_admits c rest
  rw [text, first_longest] at same
  obtain ⟨rfl, -⟩ := List.cons.inj same
  rw [longest_quote] at isOpen ⊢
  by_cases closed : '"' ∈ rest
  · rw [if_pos closed] at isOpen
    cases isOpen
  · rw [if_neg closed]
    rfl

/-- The piece in front of a text is the longest match of its shape, and no other shape
has a longer one. -/
theorem Piece.isLongestIn (c : Char) (rest : List Char) :
    (longest c rest).shape.IsLongestIn (longest c rest).text (c :: rest) where
  admits := longest_admits c rest
  isPrefix := by
    rw [text, first_longest, List.cons_prefix_cons]
    exact ⟨rfl, others_longest_isPrefix c rest⟩
  longest := by
    intro other longer admits ahead
    cases longer with
    | nil => exact Nat.zero_le _
    | cons first others =>
        obtain ⟨rfl, after, rfl⟩ := List.cons_prefix_cons.mp ahead
        have taken := (takesWhole_of_admits admits after).1.length_le
        rw [text, List.length_cons, List.length_cons]
        exact Nat.succ_le_succ taken

end LoxFront
