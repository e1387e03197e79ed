/-
# Every sentence is read

Where the tokens ahead begin with a sentence that nests within the limit, and the
token after it could not go on the sentence, the reading passes exactly the
sentence and gives its tree.

The grammar groups a row of operands from the left, while the reading collects them
in a loop. The induction on the sentence therefore says of a level not what is read,
but that whatever the loop makes of the rest, with the sentence as its left operand,
is what the whole level gives. The tree of an operand is then handed to the loop
before the operator that follows it is looked at.
-/

import LoxFront.Proofs.Parse.Soundness

namespace LoxFront

open TokenCursor

namespace TokenCursor

/-- The cursor after some number of further tokens. -/
def pass (count : Nat) (cursor : TokenCursor) : TokenCursor :=
  { cursor with
    passed := (cursor.ahead.take count).reverse ++ cursor.passed
    ahead := cursor.ahead.drop count }

variable {cursor next : TokenCursor}

@[simp]
theorem ahead_pass (count : Nat) (cursor : TokenCursor) :
    (cursor.pass count).ahead = cursor.ahead.drop count := rfl

@[simp]
theorem depth_pass (count : Nat) (cursor : TokenCursor) :
    (cursor.pass count).depth = cursor.depth := rfl

@[simp]
theorem allowance_pass (count : Nat) (cursor : TokenCursor) :
    (cursor.pass count).allowance = cursor.allowance := rfl

/-- Passing the next token is advancing. -/
theorem advance_eq_pass (cursor : TokenCursor) : cursor.advance = cursor.pass 1 := by
  unfold advance
  split <;> rename_i ahead <;> simp [pass, ahead]
  cases cursor
  simp_all

theorem pass_pass (first second : Nat) (cursor : TokenCursor) :
    (cursor.pass first).pass second = cursor.pass (first + second) := by
  simp only [pass, List.drop_drop, ← List.append_assoc, ← List.reverse_append]
  rw [← List.take_add]

@[simp]
theorem pass_deeper (count : Nat) (cursor : TokenCursor) :
    cursor.deeper.pass count = (cursor.pass count).deeper := rfl

@[simp]
theorem shallower_deeper (cursor : TokenCursor) : cursor.deeper.shallower = cursor := by
  cases cursor
  simp [deeper, shallower]

theorem not_isFull_of_nestsWithin {limit : Option Int} {expr : Expr}
    (within : expr.NestsWithin limit cursor.depth) (nests : 0 < expr.nesting) :
    ¬ cursor.IsFull limit := by
  rw [IsFull, within.any_le_eq_false nests]
  exact Bool.false_ne_true

/-- Where nothing is spent, a cursor is determined by the tokens it has passed. -/
theorem Passes.eq_pass {read : List Token} (passes : Passes read cursor next)
    (depth : next.depth = cursor.depth) (unlimited : cursor.allowance = none) :
    next = cursor.pass read.length := by
  have same := passes.allowance unlimited
  obtain ⟨ahead, passed, stop, last, -⟩ := passes
  cases next
  simp_all [pass]

end TokenCursor

/-- What the induction on a sentence shows of it. Of a level it speaks about every
outcome of the loop that has the sentence for its left operand. -/
def ReadsThrough (limit : Option Int) (wanted : Rule) (tokens : List Token) (expr : Expr) :
    Prop :=
  ∀ (cursor : TokenCursor) (rest : List Token), cursor.ahead = tokens ++ rest →
    cursor.allowance = none → expr.NestsWithin limit cursor.depth →
    match wanted with
    | .binary level => ∀ outcome,
        (cursor.pass tokens.length).Avoids level.operand.continuations →
        Reads limit (.tail level expr) (cursor.pass tokens.length) outcome →
        Reads limit (.rule (.binary level)) cursor outcome
    | wanted => (cursor.pass tokens.length).Avoids wanted.continuations →
        Reads limit (.rule wanted) cursor (.ok expr (cursor.pass tokens.length))

namespace ReadsThrough

variable {limit : Option Int} {wanted : Rule} {tokens : List Token} {expr : Expr}

/-- Where the loop finds no operator, the sentence is all that is read. -/
theorem reads (through : ReadsThrough limit wanted tokens expr) {cursor : TokenCursor}
    {rest : List Token} (ahead : cursor.ahead = tokens ++ rest)
    (unlimited : cursor.allowance = none) (room : expr.NestsWithin limit cursor.depth)
    (avoids : (cursor.pass tokens.length).Avoids wanted.continuations) :
    Reads limit (.rule wanted) cursor (.ok expr (cursor.pass tokens.length)) := by
  have whole := through cursor rest ahead unlimited room
  cases wanted with
  | binary level =>
      rw [Rule.continuations_binary] at avoids
      refine whole _ (fun token member kind => ?_) (.noOperator fun token member kind => ?_)
      · exact avoids token member (List.mem_append_right _ kind)
      · exact avoids token member (List.mem_append_left _ kind)
  | start | expression | unary | primary => exact whole avoids

theorem start (through : ReadsThrough limit .expression tokens expr) :
    ReadsThrough limit .start tokens expr :=
  fun _ _ ahead unlimited room avoids => .start (through.reads ahead unlimited room avoids)

theorem expression (through : ReadsThrough limit (.binary .equality) tokens expr) :
    ReadsThrough limit .expression tokens expr := by
  intro cursor rest ahead unlimited room avoids
  have same : cursor.spent = cursor := by
    cases cursor
    simp_all [spent]
  refine .expression (by simp [unlimited]) ?_
  rw [same]
  exact through.reads ahead unlimited room avoids

theorem operand {level : BinaryLevel} (through : ReadsThrough limit level.operand tokens expr) :
    ReadsThrough limit (.binary level) tokens expr :=
  fun _ _ ahead unlimited room _ avoids tail =>
    .binary (through.reads ahead unlimited room avoids) tail

theorem binary {level : BinaryLevel} {before after : List Token} {operator : Token}
    {left right : Expr} (first : ReadsThrough limit (.binary level) before left)
    (kind : operator.kind ∈ level.operators)
    (second : ReadsThrough limit level.operand after right) :
    ReadsThrough limit (.binary level) (before ++ operator :: after)
      (.binary left operator right) := by
  intro cursor rest ahead unlimited room outcome avoids tail
  have next : (cursor.pass before.length).ahead = operator :: (after ++ rest) := by
    simp [ahead]
  have total : before.length + (1 + after.length) =
      (before ++ operator :: after).length := by
    rw [List.length_append, List.length_cons, Nat.add_comm 1]
  have arrives : (cursor.pass before.length).advance.pass after.length =
      cursor.pass (before ++ operator :: after).length := by
    rw [advance_eq_pass, pass_pass, pass_pass, total]
  refine first cursor _ (by rw [ahead, List.append_assoc]) unlimited ?_ outcome ?_ ?_
  · exact room.of_nesting_le (by simp only [Expr.nesting]; omega)
  · intro token member
    rw [next, List.head?_cons, Option.mem_some_iff] at member
    exact member ▸ BinaryLevel.not_mem_continuations_operand kind
  · rw [← arrives] at avoids tail
    have right : Reads limit (.rule level.operand) (cursor.pass before.length).advance
        (.ok right ((cursor.pass before.length).advance.pass after.length)) := by
      refine second.reads (ahead_advance next) ?_ ?_ avoids
      · simp [advance_eq_pass, unlimited]
      · refine room.of_nesting_le ?_
        simp only [depth_advance, depth_pass, Expr.nesting]
        omega
    exact .operator next kind right tail

theorem unary {operator : Token} (through : ReadsThrough limit .unary tokens expr)
    (sign : operator.kind ∈ TokenKind.unaryOperators) :
    ReadsThrough limit .unary (operator :: tokens) (.unary operator expr) := by
  intro cursor rest ahead unlimited room avoids
  have inner : Reads limit (.rule .unary) cursor.advance.deeper
      (.ok expr (cursor.advance.deeper.pass tokens.length)) := by
    refine through.reads (ahead_advance ahead) ?_ ?_ (avoids_nil _)
    · simp [deeper, advance_eq_pass, unlimited]
    · refine room.of_nesting_le ?_
      simp only [depth_deeper, depth_advance, Expr.nesting]
      omega
  have arrives : (cursor.advance.deeper.pass tokens.length).shallower =
      cursor.pass (operator :: tokens).length := by
    rw [pass_deeper, shallower_deeper, advance_eq_pass, pass_pass, List.length_cons,
      Nat.add_comm]
  rw [← arrives]
  exact .unary ahead sign (not_isFull_of_nestsWithin room (Nat.succ_pos _)) inner

theorem primary {first : Token} (starts : first.kind ∈ TokenKind.primaryStarts)
    (through : ReadsThrough limit .primary (first :: tokens) expr) :
    ReadsThrough limit .unary (first :: tokens) expr := by
  intro cursor rest ahead unlimited room avoids
  refine .primary ?_ (through.reads ahead unlimited room avoids)
  intro token member
  rw [ahead, List.cons_append, List.head?_cons, Option.mem_some_iff] at member
  exact member ▸ TokenKind.not_mem_unaryOperators_of_mem_primaryStarts starts

theorem valueWord {token : Token} (word : token.kind ∈ TokenKind.valueWords) :
    ReadsThrough limit .primary [token] (.literal (some (.identifier token.lexeme))) := by
  intro cursor rest ahead _ _ _
  rw [List.length_singleton, ← advance_eq_pass]
  exact .valueWord ahead word

theorem constant {token : Token} {value : Literal} (carries : token.kind.carriesLiteral = true)
    (literal : token.literal = some value) :
    ReadsThrough limit .primary [token] (.literal (some value)) := by
  intro cursor rest ahead _ _ _
  rw [List.length_singleton, ← advance_eq_pass]
  exact .constant ahead carries literal

theorem grouping {opening closing : Token} (opens : opening.kind = .leftParen)
    (through : ReadsThrough limit .expression tokens expr)
    (closes : closing.kind = .rightParen) :
    ReadsThrough limit .primary (opening :: (tokens ++ [closing])) (.grouping expr) := by
  intro cursor rest ahead unlimited room _
  have before : cursor.advance.deeper.ahead = tokens ++ closing :: rest := by
    rw [List.cons_append, List.append_assoc, List.singleton_append] at ahead
    exact ahead_advance ahead
  have after : (cursor.advance.deeper.pass tokens.length).ahead = closing :: rest := by
    rw [ahead_pass, before, List.drop_left]
  have inner : Reads limit (.rule .expression) cursor.advance.deeper
      (.ok expr (cursor.advance.deeper.pass tokens.length)) := by
    refine through.reads before ?_ ?_ ?_
    · simp [deeper, advance_eq_pass, unlimited]
    · refine room.of_nesting_le ?_
      simp only [depth_deeper, depth_advance, Expr.nesting]
      omega
    · intro token member
      rw [after, List.head?_cons, Option.mem_some_iff] at member
      rw [← member, closes]
      decide
  have arrives : (cursor.advance.deeper.pass tokens.length).shallower.advance =
      cursor.pass (opening :: (tokens ++ [closing])).length := by
    rw [pass_deeper, shallower_deeper, advance_eq_pass, advance_eq_pass, pass_pass, pass_pass]
    simp only [List.length_cons, List.length_append, List.length_nil]
    congr 1
    omega
  rw [← arrives]
  exact .grouping ahead opens (not_isFull_of_nestsWithin room (Nat.succ_pos _)) inner after closes

end ReadsThrough

/-- A sentence is read through by the rule that it is a sentence of. -/
theorem Sentence.readsThrough {limit : Option Int} {wanted : Rule} {tokens : List Token}
    {expr : Expr} (sentence : Sentence wanted tokens expr) :
    ReadsThrough limit wanted tokens expr := by
  induction sentence with
  | start _ ih => exact ih.start
  | expression _ ih => exact ih.expression
  | operand _ ih => exact ih.operand
  | binary _ kind _ ihLeft ihRight => exact ihLeft.binary kind ihRight
  | unary sign _ ih => exact ih.unary sign
  | primary sentence ih =>
      obtain ⟨token, rest, rfl, starts⟩ := sentence.exists_primaryStart
      exact ih.primary starts
  | valueWord word => exact .valueWord word
  | constant carries literal => exact .constant carries literal
  | grouping opens _ closes ih => exact .grouping opens ih closes

end LoxFront
