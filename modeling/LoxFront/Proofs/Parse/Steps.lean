/-
# One step of the descent

The descent looks at the next token and then does one of a few things. Each of the
equations below says what it does for one answer of that look: which tokens it
passes, which level it opens or closes, and what it reads next. Later arguments
about the descent rest on these equations alone.
-/

import LoxFront.Parse.Run
import LoxFront.Proofs.Parse.Reads

namespace LoxFront

open TokenCursor

namespace TokenCursor

variable {limit : Option Int} {cursor : TokenCursor}

theorem isFull_advance : cursor.advance.IsFull limit ↔ cursor.IsFull limit := by
  rw [IsFull, IsFull, depth_advance]

theorem any_check_eq_true {kinds : List TokenKind} {token : Token} {rest : List Token}
    (next : cursor.ahead = token :: rest) (kind : token.kind ∈ kinds) :
    kinds.any cursor.check = true :=
  List.any_eq_true.mpr ⟨token.kind, kind, by simp [check, isAtEnd, peek, next]⟩

theorem any_check_eq_false {kinds : List TokenKind} (avoids : cursor.Avoids kinds) :
    kinds.any cursor.check = false := by
  apply List.any_eq_false.mpr
  intro kind member
  cases next : cursor.ahead with
  | nil => simp [check, isAtEnd, next]
  | cons token rest =>
      have other : token.kind ≠ kind := fun same => avoids token (by simp [next]) (same ▸ member)
      simp [check, isAtEnd, peek, next, other]

end TokenCursor

namespace ParseM

variable {limit : Option Int} {frames : Nat} {cursor : TokenCursor}

theorem run_accept_of_mem {kinds : List TokenKind} {token : Token} {rest : List Token}
    (next : cursor.ahead = token :: rest) (kind : token.kind ∈ kinds) :
    (accept kinds).run cursor = .ok (some token) cursor.advance := by
  rw [run_accept, if_pos (any_check_eq_true next kind)]
  simp [peek, next]

theorem run_accept_of_avoids {kinds : List TokenKind} (avoids : cursor.Avoids kinds) :
    (accept kinds).run cursor = .ok none cursor := by
  rw [run_accept, any_check_eq_false avoids]
  rfl

/-- Beginning an expression spends the allowance, if there is any. -/
theorem run_spend :
    spend.run cursor =
      if cursor.allowance = some 0 then .error .exhausted cursor else .ok () cursor.spent := by
  rw [spend, EStateM.run_bind, EStateM.run_get]
  cases cursor with
  | mk passed ahead stop last depth allowance =>
      rcases allowance with _ | _ | left <;> rfl

theorem run_enter_of_full (full : cursor.IsFull limit) (token : Token) :
    (enter limit token).run cursor =
      .error (.problem (.expressionTooDeep token)) cursor :=
  (run_enter cursor limit token).trans (if_pos full)

theorem run_enter_of_not_full (free : ¬ cursor.IsFull limit) (token : Token) :
    (enter limit token).run cursor = .ok () cursor.deeper :=
  (run_enter cursor limit token).trans (if_neg free)

/-- A level is closed before the parenthesis that ends it is looked for. -/
theorem run_close_of_eq {kind : TokenKind} {message : String} {token : Token}
    {rest : List Token} {expr : Expr} (next : cursor.ahead = token :: rest)
    (same : token.kind = kind) :
    (do
      leave
      let _ ← consume kind message
      pure expr : ParseM Expr).run cursor = .ok expr cursor.shallower.advance := by
  have found : cursor.shallower.check kind = true := by
    simp [check, isAtEnd, peek, shallower, next, same]
  rw [EStateM.run_bind, show leave.run cursor = .ok () cursor.shallower from rfl]
  dsimp only
  rw [EStateM.run_bind, run_consume, if_pos found]
  rfl

theorem run_close_of_avoids {kind : TokenKind} {message : String} {expr : Expr}
    (avoids : cursor.Avoids [kind]) :
    (do
      leave
      let _ ← consume kind message
      pure expr : ParseM Expr).run cursor =
        .error (.problem (.expectedToken cursor.peek kind message)) cursor.shallower := by
  have missing : cursor.shallower.check kind = false :=
    (Bool.or_false _).symm.trans (any_check_eq_false avoids)
  rw [EStateM.run_bind, show leave.run cursor = .ok () cursor.shallower from rfl]
  dsimp only
  rw [EStateM.run_bind, run_consume, missing]
  rfl

/-! ## One step of the descent for each look at the next token -/

section Steps

variable {operators : List TokenKind} {operand expression : ParseM Expr} {left : Expr}
variable {token : Token} {rest : List Token}

/-- Where no operator follows, a chain has come to its end. -/
theorem run_chain_of_avoids (avoids : cursor.Avoids operators) (count : Nat) :
    (chain operators operand count left).run cursor = .ok left cursor := by
  cases count with
  | zero => rfl
  | succ count =>
      rw [chain, EStateM.run_bind, run_accept_of_avoids avoids]
      rfl

/-- Where an operator follows, a chain goes on with the operand after it. -/
theorem run_chain_of_mem (next : cursor.ahead = token :: rest) (kind : token.kind ∈ operators)
    (count : Nat) :
    (chain operators operand (count + 1) left).run cursor =
      (do
        let right ← operand
        chain operators operand count (.binary left token right) : ParseM Expr).run
          cursor.advance := by
  rw [chain, EStateM.run_bind, run_accept_of_mem next kind]

/-- Without an operator in front, an operand is a primary expression. -/
theorem run_unary_of_avoids (avoids : cursor.Avoids TokenKind.unaryOperators) :
    (descend limit (frames + 1) .unary).run cursor =
      (descend limit frames .primary).run cursor := by
  rw [descend, EStateM.run_bind, run_accept_of_avoids avoids]

/-- An operator in front of its operand opens a level for it. -/
theorem run_unary_of_mem (next : cursor.ahead = token :: rest)
    (kind : token.kind ∈ TokenKind.unaryOperators) (free : ¬ cursor.IsFull limit) :
    (descend limit (frames + 1) .unary).run cursor =
      (do
        let operand ← descend limit frames .unary
        leave
        pure (.unary token operand) : ParseM Expr).run cursor.advance.deeper := by
  rw [descend, EStateM.run_bind, run_accept_of_mem next kind]
  dsimp only
  rw [EStateM.run_bind, run_enter_of_not_full fun full => free (isFull_advance.mp full)]

theorem run_unary_of_full (next : cursor.ahead = token :: rest)
    (kind : token.kind ∈ TokenKind.unaryOperators) (full : cursor.IsFull limit) :
    (descend limit (frames + 1) .unary).run cursor =
      .error (.problem (.expressionTooDeep token)) cursor.advance := by
  rw [descend, EStateM.run_bind, run_accept_of_mem next kind]
  dsimp only
  rw [EStateM.run_bind, run_enter_of_full (isFull_advance.mpr full)]

/-- A primary expression is read by the kind of its first token. -/
theorem run_readPrimary :
    (readPrimary limit expression).run cursor =
      if cursor.peek.kind ∈ TokenKind.valueWords then
        .ok (.literal (some (.identifier cursor.peek.lexeme))) cursor.advance
      else if cursor.peek.kind.carriesLiteral then
        match cursor.peek.literal with
        | some value => .ok (.literal (some value)) cursor.advance
        | none => .error (.fault (.missingLiteral cursor.peek)) cursor.advance
      else if cursor.peek.kind = .leftParen then
        (do
          enter limit cursor.peek
          let inner ← expression
          leave
          let _ ← consume .rightParen "Expect ')' after expression."
          pure (.grouping inner) : ParseM Expr).run cursor.advance
      else .error (.problem (.expectedExpression cursor.peek)) cursor := by
  rw [readPrimary, EStateM.run_bind, EStateM.run_get]
  dsimp only
  cases cursor.peek with
  | mk kind lexeme literal line =>
      cases kind <;> first | rfl | (cases literal <;> rfl)

/-- A parenthesis in front of an expression opens a level for it. -/
theorem run_readPrimary_of_leftParen (next : cursor.ahead = token :: rest)
    (opens : token.kind = .leftParen) (free : ¬ cursor.IsFull limit) :
    (readPrimary limit expression).run cursor =
      (do
        let inner ← expression
        leave
        let _ ← consume .rightParen "Expect ')' after expression."
        pure (.grouping inner) : ParseM Expr).run cursor.advance.deeper := by
  rw [run_readPrimary, peek_eq next, opens, if_neg (by decide), if_neg (by decide), if_pos rfl,
    EStateM.run_bind, run_enter_of_not_full fun full => free (isFull_advance.mp full)]

theorem run_readPrimary_of_full (next : cursor.ahead = token :: rest)
    (opens : token.kind = .leftParen) (full : cursor.IsFull limit) :
    (readPrimary limit expression).run cursor =
      .error (.problem (.expressionTooDeep token)) cursor.advance := by
  rw [run_readPrimary, peek_eq next, opens, if_neg (by decide), if_neg (by decide), if_pos rfl,
    EStateM.run_bind, run_enter_of_full (isFull_advance.mpr full)]

/-- Where no primary expression begins, the next token is reported. -/
theorem run_readPrimary_of_avoids (ends : cursor.stop.kind = .eof)
    (avoids : cursor.Avoids TokenKind.primaryStarts) :
    (readPrimary limit expression).run cursor =
      .error (.problem (.expectedExpression cursor.peek)) cursor := by
  have other := (avoids_iff ends TokenKind.eof_not_mem_primaryStarts).mp avoids
  rw [TokenKind.mem_primaryStarts_iff, not_or, not_or] at other
  obtain ⟨noWord, noLiteral, noGroup⟩ := other
  rw [run_readPrimary, if_neg noWord, if_neg noLiteral, if_neg noGroup]

end Steps

end ParseM

end LoxFront
