/-
# Texts as operands of an operator

A text that is a whole expression becomes an operand of any operator when it is put
between parentheses. Nothing of it has to be looked at for that. A line break in front
of the closing parenthesis ends a comment, if the text ends with one; the parentheses
keep its lexemes from growing together with those around them and its operators from
binding to others; and what is printed for it is printed inside the whole as well.

It only has to leave room for one more level, because a group is a level of its own.
-/

import LoxFront.Proofs.Grammar.Embedding
import LoxFront.Proofs.Session.Reports

namespace LoxFront

open ParseM TokenCursor

namespace Piece

variable {operator : String} {kind : TokenKind} {pieces more : List Piece}

/-- The pieces of a text between parentheses, with a line break after it. -/
def group (pieces : List Piece) : List Piece :=
  ⟨.mark .leftParen, '(', []⟩ ::
    (pieces ++ [⟨.layout, '\n', []⟩, ⟨.mark .rightParen, ')', []⟩])

/-- A text whose strings are closed keeps its pieces between parentheses. -/
theorem split_group {source : String}
    (closed : ∀ line, .unterminatedString line ∉ (scan source).errors) (after : List Char) :
    split ('(' :: (source.toList ++ '\n' :: ')' :: after)) =
      group (split source.toList) ++ split after := by
  have inside := split_append_newline closed (String.ofList (')' :: after))
  have whole : (source ++ "\n" ++ String.ofList (')' :: after)).toList =
      source.toList ++ '\n' :: ')' :: after := by simp
  have closing : split (')' :: after) = ⟨.mark .rightParen, ')', []⟩ :: split after := by
    rw [split]
    rfl
  rw [whole, String.toList_ofList, closing] at inside
  rw [split, group]
  simp [longest, inside]

/-- A mark does not go on with a parenthesis. -/
theorem longest_mark_append_leftParen {c : Char} {others : List Char}
    (admits : (Shape.mark kind).Admits (c :: others)) (after : List Char) :
    longest c (others ++ '(' :: after) = ⟨.mark kind, c, others⟩ := by
  have spelled := congrArg (Option.map String.toList) admits
  cases kind <;> simp [TokenKind.markSpelling?] at spelled
  all_goals
    obtain ⟨rfl, rfl⟩ := spelled
    simp [longest, withEqual]

/-- A mark in front of a parenthesis is a piece of its own. -/
theorem exists_split_mark (spelled : kind.markSpelling? = some operator) (after : List Char) :
    ∃ piece : Piece, piece.shape = .mark kind ∧ piece.text = operator.toList ∧
      split (operator.toList ++ '(' :: after) = piece :: split ('(' :: after) := by
  cases text : operator.toList with
  | nil =>
      rw [String.toList_eq_nil_iff.mp text] at spelled
      cases kind <;> simp [TokenKind.markSpelling?] at spelled
  | cons c others =>
      have admits : (Shape.mark kind).Admits (c :: others) := by
        rw [Shape.Admits, ← text, String.ofList_toList, spelled]
      refine ⟨⟨.mark kind, c, others⟩, rfl, rfl, ?_⟩
      rw [List.cons_append, split, longest_mark_append_leftParen admits]
      simp

theorem tokens_group (line : Nat) (pieces more : List Piece) :
    let last := line + (pieces.flatMap text).count '\n' + 1
    tokens line (group pieces ++ more) =
      (⟨.leftParen, "(", none, line⟩ ::
        (tokens line pieces ++ [⟨.rightParen, ")", none, last⟩])) ++ tokens last more := by
  intro last
  have opening : (⟨.mark .leftParen, '(', []⟩ : Piece).breaks = 0 := by decide
  have closing : (⟨.mark .rightParen, ')', []⟩ : Piece).breaks = 0 := by decide
  have lineBreak : (⟨.layout, '\n', []⟩ : Piece).breaks = 1 := by decide
  simp only [group, List.cons_append, List.append_assoc, List.nil_append, tokens_cons,
    tokens_append, opening, closing, lineBreak, Nat.add_zero]
  rfl

theorem errors_group (line : Nat) (pieces more : List Piece) :
    errors line (group pieces ++ more) =
      errors line pieces ++ errors (line + (pieces.flatMap text).count '\n' + 1) more := by
  have opening : (⟨.mark .leftParen, '(', []⟩ : Piece).breaks = 0 := by decide
  have closing : (⟨.mark .rightParen, ')', []⟩ : Piece).breaks = 0 := by decide
  have lineBreak : (⟨.layout, '\n', []⟩ : Piece).breaks = 1 := by decide
  simp only [group, List.cons_append, List.append_assoc, List.nil_append, errors_cons,
    errors_append, opening, closing, lineBreak, Nat.add_zero]
  rfl

end Piece

/-- A text is closed and stands for a tree: its scan finds no error, its tokens are read
as that tree up to the one that ends the input, and there is room around the tree. -/
structure ClosedText (source : String) (expr : Expr) : Prop where
  faultless : (scan source).errors = []
  whole : ∃ start stopped, ofTokens? (scan source).tokens = some start ∧
    (readRule (some maxDepth) .start).run start = .ok expr stopped ∧ stopped.isAtEnd = true
  nesting_le : expr.nesting ≤ 63

namespace ClosedText

variable {source : String} {expr : Expr}

theorem not_mem_errors (closed : ClosedText source expr) (error : ScanError) :
    error ∉ (scan source).errors := by
  rw [closed.faultless]
  exact List.not_mem_nil

theorem parse_eq (closed : ClosedText source expr) :
    parse (scan source).tokens = .ok (.ok expr) := by
  obtain ⟨start, stopped, opened, result, -⟩ := closed.whole
  exact parse_eq_ok_of_run opened result

/-- The tokens of a closed text, up to the last one, are a sentence. -/
theorem sentence (closed : ClosedText source expr) :
    Sentence .expression (Piece.tokens 1 (Piece.split source.toList)) expr := by
  obtain ⟨start, stopped, opened, result, ended⟩ := closed.whole
  obtain ⟨before, line, found, stand⟩ := exists_tokens_scan source
  have others : ∀ token ∈ before, token.kind ≠ .eof := fun token member =>
    (stand token member).kind_ne_eof
  have tokens := congrArg Scan.tokens (scan_eq_meaning source)
  rw [found] at tokens
  obtain ⟨same, -⟩ := List.append_inj' tokens rfl
  rw [found, ofTokens?_concat others rfl, Option.some.injEq] at opened
  subst opened
  obtain ⟨sentence, -⟩ := (run_start_to_end_iff rfl).mp ⟨stopped, result, ended⟩
  rw [← same]
  cases sentence with
  | start sentence => exact sentence

/-- A text without errors whose tokens, up to the last one, are a sentence is closed if
there is room around the sentence. -/
theorem of_sentence {before : List Token} {line : Int}
    (scanned : scan source = ⟨before ++ [⟨.eof, "", none, line⟩], []⟩)
    (sentence : Sentence .start before expr) (room : expr.nesting ≤ 63) :
    ClosedText source expr where
  faultless := congrArg Scan.errors scanned
  whole := by
    have fits : expr.nesting ≤ maxDepth := by
      rw [maxDepth]
      omega
    have ends : (⟨.eof, "", none, line⟩ : Token).kind = .eof := rfl
    obtain ⟨stopped, result, ended⟩ := (run_start_to_end_iff ends).mpr ⟨sentence, fits⟩
    rw [scanned]
    exact ⟨_, stopped, ofTokens?_concat sentence.kind_ne_eof ends, result, ended⟩
  nesting_le := room

/-- Between parentheses, some lines further down and in front of anything else, a closed
text means a group with its tree. -/
theorem exists_group (closed : ClosedText source expr) (lines : Nat) (more : List Piece) :
    ∃ tokens tree last,
      Piece.tokens (1 + lines) (Piece.group (Piece.split source.toList) ++ more) =
        tokens ++ Piece.tokens (1 + last) more ∧
      Piece.errors (1 + lines) (Piece.group (Piece.split source.toList) ++ more) =
        Piece.errors (1 + last) more ∧
      Sentence .primary tokens (.grouping tree) ∧ tree.print = expr.print ∧
        tree.nesting = expr.nesting := by
  have faultless : Piece.errors 1 (Piece.split source.toList) = [] := by
    rw [← closed.faultless, scan_eq_meaning]
  have lines_eq : 1 + lines + (((Piece.split source.toList).flatMap Piece.text).count '\n') + 1 =
      1 + (lines + source.toList.count '\n' + 1) := by
    rw [Piece.flatMap_text_split]
    omega
  have tokens := Piece.tokens_group (1 + lines) (Piece.split source.toList) more
  have errors := Piece.errors_group (1 + lines) (Piece.split source.toList) more
  rw [Piece.tokens_add 1 lines (Piece.split _), lines_eq] at tokens
  rw [Piece.errors_add 1 lines (Piece.split _), faultless, lines_eq] at errors
  exact ⟨_, expr.movedDown lines, _, tokens, errors,
    .grouping rfl (closed.sentence.movedDown lines) rfl, expr.print_movedDown lines,
    expr.nesting_movedDown lines⟩

end ClosedText

/-- Two closed texts between parentheses, with an operator between the groups. -/
def operation (operator first second : String) : String :=
  "(" ++ first ++ "\n)" ++ operator ++ "(" ++ second ++ "\n)"

section Operation

variable {first second operator : String} {left right : Expr} {kind : TokenKind}
  (closedFirst : ClosedText first left) (closedSecond : ClosedText second right)
  (spelled : kind.markSpelling? = some operator)

include closedFirst closedSecond spelled

/-- The pieces of an operation are those of its operands, each in a group, and the
operator between them. -/
theorem exists_split_operation :
    ∃ piece : Piece, piece.shape = .mark kind ∧ piece.text = operator.toList ∧
      Piece.split (operation operator first second).toList =
        Piece.group (Piece.split first.toList) ++
          piece :: (Piece.group (Piece.split second.toList) ++ []) := by
  obtain ⟨piece, shape, text, next⟩ :=
    Piece.exists_split_mark spelled (second.toList ++ '\n' :: ')' :: [])
  have whole : (operation operator first second).toList =
      '(' :: (first.toList ++ '\n' :: ')' :: (operator.toList ++
        '(' :: (second.toList ++ '\n' :: ')' :: []))) := by
    simp [operation]
  have ended : Piece.split [] = [] := by rw [Piece.split]
  refine ⟨piece, shape, text, ?_⟩
  rw [whole, Piece.split_group fun line => closedFirst.not_mem_errors _, next,
    Piece.split_group fun line => closedSecond.not_mem_errors _, ended]

/-- An operation has no errors among its lexemes, and its tokens are the operator between
two groups with the trees of the operands. -/
theorem exists_scan_operation (isOperator : kind ∈ TokenKind.binaryOperators) :
    ∃ tokens tree last, scan (operation operator first second) =
        ⟨tokens ++ [⟨.eof, "", none, last⟩], []⟩ ∧
      Sentence .start tokens tree ∧ tree.nesting = max left.nesting right.nesting + 1 ∧
      tree.print =
        "(" ++ operator ++ " (group " ++ left.print ++ ") (group " ++ right.print ++ "))" := by
  obtain ⟨piece, shape, text, pieces⟩ := exists_split_operation closedFirst closedSecond spelled
  obtain ⟨before, leftTree, between, leftTokens, leftErrors, leftGroup, leftPrint, leftNesting⟩ :=
    closedFirst.exists_group 0 (piece :: (Piece.group (Piece.split second.toList) ++ []))
  -- The second group starts on the line on which the operator ends.
  obtain ⟨after, rightTree, last, rightTokens, rightErrors, rightGroup, rightPrint, rightNesting⟩ :=
    closedSecond.exists_group (between + piece.breaks) []
  let sign : Token := ⟨kind, operator, none, (1 + between : Nat)⟩
  have token : piece.token? (1 + between) = some sign := by
    simp [Piece.token?, Piece.meaning?, shape, text, sign]
  have faultless : piece.error? (1 + between) = none := by simp [Piece.error?, shape]
  have tokens : Piece.tokens 1 (Piece.split (operation operator first second).toList) =
      before ++ sign :: after := by
    rw [Piece.tokens_cons, Nat.add_assoc, rightTokens, token] at leftTokens
    rw [pieces]
    exact leftTokens.trans (by simp [Piece.tokens, Piece.placed])
  have errors : Piece.errors 1 (Piece.split (operation operator first second).toList) = [] := by
    rw [Piece.errors_cons, Nat.add_assoc, rightErrors, faultless] at leftErrors
    rw [pieces]
    exact leftErrors
  have scanned := scan_eq_meaning (operation operator first second)
  rw [tokens, errors] at scanned
  refine ⟨_, .binary (.grouping leftTree) sign (.grouping rightTree), _, scanned,
    .start (leftGroup.operation isOperator rightGroup), ?_, ?_⟩
  · simp [Expr.nesting, leftNesting, rightNesting]
  · simp [← String.toList_inj, sign, leftPrint, rightPrint]

end Operation

/-- An operation on closed texts, by any of the operators between operands, is printed
without an error, and what is printed for the operands alone is printed inside. -/
theorem run_operation {first second operator : String} {left right : Expr}
    (closedFirst : ClosedText first left) (closedSecond : ClosedText second right)
    (listed : operator ∈ ["!=", "==", ">", ">=", "<", "<=", "-", "+", "/", "*"]) :
    ∃ printedFirst printedSecond,
      (Session.fresh.run first).written.output = printedFirst ++ "\n" ∧
      (Session.fresh.run second).written.output = printedSecond ++ "\n" ∧
      Session.fresh.run ("(" ++ first ++ "\n)" ++ operator ++ "(" ++ second ++ "\n)") =
        ⟨true,
          { output := "(" ++ operator ++ " (group " ++ printedFirst ++ ") (group " ++
              printedSecond ++ "))" ++ "\n"
            errors := "" },
          Session.fresh⟩ := by
  have kinds : ∀ spelling ∈ ["!=", "==", ">", ">=", "<", "<=", "-", "+", "/", "*"],
      ∃ kind ∈ TokenKind.binaryOperators, kind.markSpelling? = some spelling := by decide
  obtain ⟨kind, isOperator, spelled⟩ := kinds operator listed
  obtain ⟨tokens, tree, last, scanned, sentence, nesting, printed⟩ :=
    exists_scan_operation closedFirst closedSecond spelled isOperator
  have fits : tree.nesting ≤ maxDepth := by
    have leftFits := closedFirst.nesting_le
    have rightFits := closedSecond.nesting_le
    rw [nesting, maxDepth]
    omega
  refine ⟨left.print, right.print, ?_, ?_, ?_⟩
  · rw [Session.run_fresh_of_tree closedFirst.faultless closedFirst.parse_eq]
  · rw [Session.run_fresh_of_tree closedSecond.faultless closedSecond.parse_eq]
  · have reads : parse (scan (operation operator first second)).tokens = .ok (.ok tree) := by
      rw [scanned]
      exact parse_concat_of_sentence sentence fits rfl
    rw [← printed]
    exact Session.run_fresh_of_tree (congrArg Scan.errors scanned) reads

/-- The first text nests as deeply as a closed text can, and ends with a comment in which
there is a quote. The second one has a line break in a string. -/
theorem run_operation_deepest :
    let first := String.ofList (List.replicate 63 '-') ++ "nil// (\""
    let second := "\"a\n\"\t== true"
    let minus : Token := ⟨.minus, "-", none, 1⟩
    let left := (List.replicate 63 minus).foldr Expr.unary (.literal (some (.identifier "nil")))
    let right : Expr := .binary (.literal (some (.string "a\n"))) ⟨.equalEqual, "==", none, 2⟩
      (.literal (some (.identifier "true")))
    ClosedText first left ∧ ClosedText second right ∧
      (Session.fresh.run ("(" ++ first ++ "\n)" ++ "/" ++ "(" ++ second ++ "\n)")).value =
        true := by
  intro first second minus left right
  have scannedFirst : scan first =
      ⟨List.replicate 63 minus ++ [⟨.kwNil, "nil", none, 1⟩] ++ [⟨.eof, "", none, 1⟩], []⟩ := by
    decide +kernel
  have scannedSecond : scan second =
      ⟨[⟨.string, "\"a\n\"", some (.string "a\n"), 1⟩, ⟨.equalEqual, "==", none, 2⟩,
        ⟨.kwTrue, "true", none, 2⟩] ++ [⟨.eof, "", none, 2⟩], []⟩ := by
    decide +kernel
  have signs : ∀ count, Sentence .unary (List.replicate count minus ++ [⟨.kwNil, "nil", none, 1⟩])
      ((List.replicate count minus).foldr Expr.unary (.literal (some (.identifier "nil")))) := by
    intro count
    induction count with
    | zero => exact .primary (.valueWord (by decide))
    | succ count ih => exact .unary (by decide) ih
  have closedFirst : ClosedText first left :=
    .of_sentence scannedFirst
      (.start (.expression (.operand (.operand (.operand (.operand (signs 63))))))) (by decide)
  have closedSecond : ClosedText second right :=
    .of_sentence scannedSecond
      (.start (.operation (.constant rfl rfl) (by decide) (.valueWord (by decide)))) (by decide)
  obtain ⟨_, _, -, -, result⟩ := run_operation closedFirst closedSecond
    (show "/" ∈ ["!=", "==", ">", ">=", "<", "<=", "-", "+", "/", "*"] by decide)
  exact ⟨closedFirst, closedSecond, by rw [result]⟩

end LoxFront
