/-
# Numerals in a source text

A number token holds the correctly rounded value of its lexeme, however many digits this has.
In the other direction the text of a finite number can be scanned again. If the number is whole
or not too small, the text is a numeral, so there is one token, and its value is the number that
the text was made from.
-/

import LoxFront.Proofs.Binary64.Shortest
import LoxFront.Proofs.Binary64.Value
import LoxFront.Proofs.Source.Faultless
import LoxFront.Proofs.Source.Meaning

namespace LoxFront

open Binary64

/-! ## From texts to values -/

/-- The lexeme of a token is a numeral, and the token holds its correctly rounded value. -/
def Token.HoldsNumeral (token : Token) : Prop :=
  ∃ whole fraction magnitude, IsNumeral token.lexeme.toList whole fraction ∧
    token.literal = some (.number (.signed false magnitude)) ∧
    IsRounded (numeralValue whole fraction) magnitude

/-- Only numerals add number tokens, and such a token holds the value of the numeral. -/
theorem Shape.Records.holdsNumeral {text : List Char} {startLine line : Nat} {shape : Shape}
    {tokens : List Token} {errors : List ScanError}
    (records : shape.Records text startLine line tokens errors) (admits : shape.Admits text) :
    ∀ token ∈ tokens, token.kind = .number → token.HoldsNumeral := by
  cases records with
  | layout | comment | openString | stray => simp
  | string | identifier => simp
  | @mark kind =>
      refine List.forall_mem_singleton.mpr ?_
      rintro rfl
      cases admits
  | keyword listed =>
      have other : ∀ entry ∈ TokenKind.keywords, entry.2 ≠ .number := by decide
      exact List.forall_mem_singleton.mpr fun number => absurd number (other _ listed)
  | number reads =>
      obtain ⟨whole, fraction, nonempty, digits, rows⟩ := admits
      have isNumeral : IsNumeral text whole fraction := ⟨nonempty, digits, rows⟩
      obtain ⟨magnitude, same, isRounded⟩ := exists_isRounded_ofDigits whole fraction
      rw [isNumeral.ofNumeral?_eq, same] at reads
      cases reads
      refine List.forall_mem_singleton.mpr fun _ => ⟨whole, fraction, magnitude, ?_, rfl, isRounded⟩
      rwa [String.toList_ofList]

/-- A number token of a scan holds the correctly rounded value of its lexeme. -/
theorem holdsNumeral_of_mem_scan (source : String) {token : Token}
    (member : token ∈ (scan source).tokens) (number : token.kind = .number) :
    token.HoldsNumeral := by
  obtain ⟨before, line, tokens, holds⟩ :=
    exists_tokens_scan_of_records Shape.Records.holdsNumeral source
  rw [tokens, List.mem_append, List.mem_singleton] at member
  rcases member with earlier | rfl
  · exact holds token earlier number
  · cases number

/-- The numeral lies half way between two magnitudes, and the one of even rank is below it. -/
theorem holdsNumeral_of_mem_scan_midpoint :
    let token : Token := ⟨.number, "9007199254740993.0",
      some (.number (.signed false ⟨0x4340000000000000, by decide⟩)), 2⟩
    token ∈ (scan "// 2 ** 53 + 1\n9007199254740993.0").tokens ∧ token.kind = .number ∧
      token.HoldsNumeral := by
  have member : (⟨.number, "9007199254740993.0",
      some (.number (.signed false ⟨0x4340000000000000, by decide⟩)), 2⟩ : Token) ∈
      (scan "// 2 ** 53 + 1\n9007199254740993.0").tokens := by decide +kernel
  exact ⟨member, rfl, holdsNumeral_of_mem_scan _ member rfl⟩

/-! ## From values to texts -/

/-- A text that has a shape is one piece. -/
theorem Piece.split_of_admits {shape : Shape} {c : Char} {others : List Char}
    (admits : shape.Admits (c :: others)) : split (c :: others) = [⟨shape, c, others⟩] := by
  obtain ⟨taken, isShape⟩ := takesWhole_of_admits admits []
  rw [List.append_nil] at taken isShape
  have whole := (others_longest_isPrefix c others).eq_of_length_le taken.length_le
  have longest : longest c others = ⟨shape, c, others⟩ := calc
    longest c others
      = ⟨(longest c others).shape, (longest c others).first, (longest c others).others⟩ := rfl
    _ = ⟨shape, c, others⟩ := by rw [isShape rfl, first_longest, whole]
  rw [split, longest]
  dsimp only
  rw [List.drop_length, split]

/-- A text that is a numeral is scanned as one number token. -/
theorem scan_of_isNumeral {text : String} {whole fraction : List Char}
    (isNumeral : IsNumeral text.toList whole fraction) :
    scan text =
      ⟨[⟨.number, text, some (.number (ofDigits whole fraction)), 1⟩, ⟨.eof, "", none, 1⟩],
        []⟩ := by
  have admits : Shape.number.Admits text.toList :=
    ⟨whole, fraction, isNumeral.nonempty, isNumeral.digits, isNumeral.rows⟩
  have value : ofText? text.toList = some (ofDigits whole fraction) := by
    rw [ofText?, isNumeral.ofNumeral?_eq]
  have oneLine : text.toList.count '\n' = 0 := List.count_eq_zero.mpr fun member =>
    absurd (isNumeral.isDigit_or_eq_point '\n' member) (by decide)
  obtain ⟨c, others, letters⟩ := List.exists_cons_of_ne_nil isNumeral.ne_nil
  have lexeme : String.ofList (c :: others) = text := by rw [← letters, String.ofList_toList]
  rw [scan_eq_meaning, oneLine]
  rw [letters] at admits value ⊢
  rw [Piece.split_of_admits admits]
  simp only [Piece.tokens, Piece.errors, Piece.placed, Piece.token?, Piece.error?, Piece.meaning?,
    Piece.text, value, lexeme, List.filterMap_cons, List.filterMap_nil, Option.map_some]
  rfl

/-- The text of a number that is whole, or at least one ten-thousandth, is scanned as this number.
If it is whole, the text is that of a natural number. -/
theorem scan_toText_number (magnitude : Magnitude) (finite : magnitude ≠ Magnitude.infinity)
    (plain : (∃ number : Nat, magnitude.value = number) ∨ 1 / 10000 ≤ magnitude.value) :
    let literal := Literal.number (.signed false magnitude)
    scan literal.toText =
        ⟨[⟨.number, literal.toText, some literal, 1⟩, ⟨.eof, "", none, 1⟩], []⟩ ∧
      ∀ number : Nat, magnitude.value = number → literal.toText = toString number := by
  intro literal
  have text : literal.toText = magnitude.toText := by
    rw [Literal.toText, Binary64.toText, Bool.false_and, if_neg Bool.false_ne_true]
  have integral : ∀ number : Nat, magnitude.value = number → magnitude.isIntegral = true :=
    fun number same => Magnitude.isIntegral_iff.mpr
      ⟨finite, Dvd.intro_left number (Magnitude.value_eq_natCast_iff.mp same).symm⟩
  have large : magnitude.isIntegral = true ∨ unitsPerOne ≤ 10000 * magnitude.units := by
    rcases plain with ⟨number, same⟩ | least
    · exact .inl (integral number same)
    · exact .inr (Magnitude.ten_thousandth_le_value_iff.mp least)
  rw [text]
  constructor
  · obtain ⟨whole, fraction, isNumeral, value⟩ := Magnitude.isNumeral_toText finite large
    rw [scan_of_isNumeral isNumeral, value]
  · intro number same
    unfold Magnitude.toText
    rw [if_neg finite, if_pos (integral number same), Magnitude.integerPart_eq,
      Magnitude.value_eq_natCast_iff.mp same, Nat.mul_div_cancel _ unitsPerOne_pos]

/-- One tenth is not whole. Its text has a digit behind the point, and is not exact. -/
theorem scan_toText_number_tenth :
    let tenth : Magnitude := ⟨0x3FB999999999999A, by decide⟩
    tenth ≠ Magnitude.infinity ∧ 1 / 10000 ≤ tenth.value ∧
      scan "0.1" =
        ⟨[⟨.number, "0.1", some (.number (.signed false tenth)), 1⟩, ⟨.eof, "", none, 1⟩], []⟩ := by
  intro tenth
  have finite : tenth ≠ Magnitude.infinity := by decide
  have large : 1 / 10000 ≤ tenth.value :=
    Magnitude.ten_thousandth_le_value_iff.mpr (by decide +kernel)
  have text : (Literal.number (.signed false tenth)).toText = "0.1" := by decide +kernel
  have scanned := (scan_toText_number tenth finite (.inr large)).1
  rw [text] at scanned
  exact ⟨finite, large, scanned⟩

end LoxFront
