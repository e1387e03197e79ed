/-
# Expressions of texts are uniquely readable

The operators of an expression that is read from a text are marks, and marks are words. Its
constants are numbers and the words that name a value, unless they are strings. So the
printed form of an expression can be told from that of any other one, provided that there
are no strings in the text.

What the lexemes of each kind look like is known from the steps of a scan. The rest is an
induction on the grammar, in which the tokens of an expression become its nodes.
-/

import LoxFront.Proofs.Binary64.Spelling
import LoxFront.Proofs.Expr.Readability
import LoxFront.Proofs.Grammar.Frontier
import LoxFront.Proofs.Parse.Whole
import LoxFront.Proofs.Source.Faultless

namespace LoxFront

open TokenKind

/-- A token is printed as a word wherever it becomes a node of a tree. -/
structure Token.IsWorded (token : Token) : Prop where
  operator : token.kind ∈ unaryOperators ++ binaryOperators → Expr.IsOperatorWord token.lexeme
  valueWord : token.kind ∈ valueWords → IsWord token.lexeme
  constant : ∀ value, token.literal = some value → IsWord value.toText

/-- Of a token that is neither an operator nor a word for a value, only its own value can
become a node. -/
theorem Token.IsWorded.of_constant {token : Token}
    (other : token.kind ∉ unaryOperators ++ binaryOperators ++ valueWords)
    (constant : ∀ value, token.literal = some value → IsWord value.toText) : token.IsWorded where
  operator := fun operator => absurd (List.mem_append_left _ operator) other
  valueWord := fun word => absurd (List.mem_append_right _ word) other
  constant := constant

/-- A lexeme that is no string adds a token that is printed as a word. -/
theorem Shape.Records.isWorded {text : List Char} {startLine line : Nat} {shape : Shape}
    {tokens : List Token} {errors : List ScanError}
    (records : shape.Records text startLine line tokens errors) (admits : shape.Admits text) :
    ∀ token ∈ tokens, token.kind ≠ .string → token.IsWorded := by
  have marks : ∀ kind ∈ unaryOperators ++ binaryOperators,
      ∀ spelling ∈ kind.markSpelling?, IsWord spelling ∧ spelling ≠ "group" := by decide
  have names : ∀ kind ∈ valueWords, kind.markSpelling? = none := by decide
  have keywords : ∀ entry ∈ TokenKind.keywords,
      IsWord entry.1 ∧ entry.2 ∉ unaryOperators ++ binaryOperators := by decide
  cases records with
  | layout | comment | openString | stray => simp
  | string => exact List.forall_mem_singleton.mpr fun other => absurd rfl other
  | @mark kind =>
      refine List.forall_mem_singleton.mpr fun _ => ⟨fun operator => ?_, fun word => ?_, nofun⟩
      · obtain ⟨isWord, ne_group⟩ := marks kind operator _ admits
        exact ⟨isWord, ne_group⟩
      · exact absurd (names kind word) (by rw [show kind.markSpelling? = _ from admits]; simp)
  | number =>
      refine List.forall_mem_singleton.mpr fun _ =>
        .of_constant (show TokenKind.number ∉ _ by decide) ?_
      rintro value ⟨⟩
      exact Binary64.isWord_toText _
  | keyword listed =>
      obtain ⟨isWord, noOperator⟩ := keywords _ listed
      exact List.forall_mem_singleton.mpr fun _ =>
        ⟨fun operator => absurd operator noOperator, fun _ => isWord, nofun⟩
  | identifier =>
      exact List.forall_mem_singleton.mpr fun _ =>
        .of_constant (show TokenKind.identifier ∉ _ by decide) nofun

/-- Where there are no strings, every token of a scan is printed as a word. -/
theorem isWorded_of_mem_scan {source : String}
    (stringless : ∀ token ∈ (scan source).tokens, token.kind ≠ .string) :
    ∀ token ∈ (scan source).tokens, token.IsWorded := by
  obtain ⟨before, line, whole, worded⟩ :=
    exists_tokens_scan_of_records Shape.Records.isWorded source
  rw [whole] at stringless ⊢
  refine List.forall_mem_append.mpr ⟨fun token member => ?_, ?_⟩
  · exact worded token member (stringless token (List.mem_append_left _ member))
  · exact List.forall_mem_singleton.mpr (.of_constant (show TokenKind.eof ∉ _ by decide) nofun)

/-- The tree of a sentence has words where the tokens of the sentence have them. -/
theorem Sentence.hasWords {wanted : Rule} {tokens : List Token} {expr : Expr}
    (sentence : Sentence wanted tokens expr) (worded : ∀ token ∈ tokens, token.IsWorded) :
    expr.HasWords := by
  induction sentence with
  | start _ ih | expression _ ih | operand _ ih | primary _ ih => exact ih worded
  | binary _ kind _ ihLeft ihRight =>
      obtain ⟨before, more⟩ := List.forall_mem_append.mp worded
      obtain ⟨operator, after⟩ := List.forall_mem_cons.mp more
      have isOperator := mem_binaryOperators_of_mem_operators kind
      exact ⟨operator.operator (List.mem_append_right _ isOperator), ihLeft before, ihRight after⟩
  | unary sign _ ih =>
      obtain ⟨operator, after⟩ := List.forall_mem_cons.mp worded
      exact ⟨operator.operator (List.mem_append_left _ sign), ih after⟩
  | valueWord word => exact (List.forall_mem_singleton.mp worded).valueWord word
  | constant _ value => exact (List.forall_mem_singleton.mp worded).constant _ value
  | grouping _ _ _ ih =>
      obtain ⟨-, inner⟩ := List.forall_mem_cons.mp worded
      exact ih (List.forall_mem_append.mp inner).1

/-- Trees in which all operators and constants are words, and no operator is the word for a
group, are printed alike exactly if they look alike. Every tree that is read from a text
without strings is one of them. -/
theorem print_uniquely_readable :
    (∀ first second : Expr, first.HasWords → second.HasWords →
      (first.print = second.print ↔ first.LooksLike second)) ∧
    ∀ source expr, (∀ token ∈ (scan source).tokens, token.kind ≠ .string) →
      parse (scan source).tokens = .ok (.ok expr) → expr.HasWords := by
  refine ⟨fun first second words others => ⟨fun same => ?_, Expr.LooksLike.print_eq⟩, ?_⟩
  · exact (words.determined others endsWord_nil endsWord_nil (by rw [same])).1
  · intro source expr stringless reads
    obtain ⟨read, inside, sentence⟩ := exists_sentence_of_parse_eq_ok reads
    exact sentence.hasWords fun token member =>
      isWorded_of_mem_scan stringless token (inside.subset member)

/-- The tree of a difference looks like one that was put together by hand, although the kinds
and lines of their operators differ, and so do the sorts of their constants. -/
theorem print_uniquely_readable_difference :
    let source := "-(1 - nil) @)"
    let minus : Token := ⟨.minus, "-", none, 1⟩
    let read : Expr := .unary minus (.grouping (.binary
      (.literal (some (.number (Binary64.ofDigits ['1'] [])))) minus
      (.literal (some (.identifier "nil")))))
    let other : Expr := .unary ⟨.bang, "-", none, 2⟩ (.grouping (.binary
      (.literal (some (.string "1"))) ⟨.plus, "-", none, 3⟩ (.literal none)))
    (∀ token ∈ (scan source).tokens, token.kind ≠ .string) ∧
      parse (scan source).tokens = .ok (.ok read) ∧ read.HasWords ∧ other.HasWords ∧
      read.print = other.print ∧ read.LooksLike other := by
  intro source minus read other
  have stringless : ∀ token ∈ (scan source).tokens, token.kind ≠ .string := by decide +kernel
  have reads : parse (scan source).tokens = .ok (.ok read) := by decide +kernel
  have words : read.HasWords := print_uniquely_readable.2 source read stringless reads
  have bang : Expr.IsOperatorWord "-" := ⟨by decide, by decide⟩
  have others : other.HasWords :=
    ⟨bang, bang, (by decide : IsWord "1"), (by decide : IsWord "nil")⟩
  have one : Expr.constantText (some (.number (Binary64.ofDigits ['1'] []))) =
      Expr.constantText (some (.string "1")) := by decide +kernel
  have alike : read.LooksLike other :=
    .unary rfl (.grouping (.binary rfl (.literal one) (.literal rfl)))
  exact ⟨stringless, reads, words, others,
    (print_uniquely_readable.1 read other words others).mpr alike, alike⟩

end LoxFront
