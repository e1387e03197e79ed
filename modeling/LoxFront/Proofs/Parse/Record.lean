/-
# Readings that record the levels they open and close

The outcome of a reading shows where it ended and not how deep it was on the way. The
descent of this module is the one of `Descent` with a record beside it: a change for every
level that it opens or closes, in order, each with the cursor right after it. All other
steps are the plain ones, done silently.

What is to be shown of a recorded descent within one limit and a plain one within another
is shown step by step. `IsCompatible` lists the steps that a descent is made of, and a
relation that holds of each of them holds of the two descents.
-/

import LoxFront.Proofs.Parse.Steps

namespace LoxFront

open TokenCursor

/-- A level that is opened or closed, and the cursor right afterwards. -/
inductive LevelChange where
  /-- A level is opened at a token. -/
  | opened (token : Token) (cursor : TokenCursor)
  /-- The innermost level is closed. -/
  | closed (cursor : TokenCursor)
  deriving DecidableEq

namespace LevelChange

/-- The cursor right after a change. -/
def cursor : LevelChange → TokenCursor
  | opened _ cursor => cursor
  | closed cursor => cursor

/-- The tokens at which the open levels were opened, after a change. The innermost level
comes first. -/
def apply (levels : List Token) : LevelChange → List Token
  | opened token _ => token :: levels
  | closed _ => levels.tail

/-- The tokens at which levels were opened that have not been closed. -/
def openLevels (changes : List LevelChange) : List Token :=
  changes.foldl apply []

end LevelChange

/-- What a reading comes to and where it leaves the cursor, and the changes of levels on
the way. -/
abbrev Recorded (α : Type) := EStateM.Result ParseFailure TokenCursor α × List LevelChange

/-- A reading of tokens that records the changes of levels. -/
def RecordM (α : Type) : Type :=
  TokenCursor → Recorded α

namespace RecordM

variable {α β : Type}

/-- Read without a record. -/
def silently (reading : ParseM α) : RecordM α :=
  fun cursor => (reading.run cursor, [])

/-- Read, and record a change if the reading succeeds. -/
def recording (change : TokenCursor → LevelChange) (reading : ParseM α) : RecordM α :=
  fun cursor =>
    match reading.run cursor with
    | .ok value next => (.ok value next, [change next])
    | .error failure stopped => (.error failure stopped, [])

instance : Monad RecordM where
  pure value := silently (pure value)
  bind first rest := fun cursor =>
    match first cursor with
    | (.ok value next, changes) => ((rest value next).1, changes ++ (rest value next).2)
    | (.error failure stopped, changes) => (.error failure stopped, changes)

/-- Open a level, within a limit if there is one. -/
def enter (limit : Option Int) (token : Token) : RecordM Unit :=
  recording (.opened token) (ParseM.enter limit token)

/-- Close a level. -/
def leave : RecordM Unit :=
  recording .closed ParseM.leave

/-- Go on from a left operand, as `ParseM.chain` does. -/
def chain (operators : List TokenKind) (operand : RecordM Expr) : Nat → Expr → RecordM Expr
  | 0, left => pure left
  | count + 1, left => do
    match ← silently (ParseM.accept operators) with
    | none => pure left
    | some operator =>
      let right ← operand
      chain operators operand count (.binary left operator right)

/-- Read a constant or a group, as `ParseM.readPrimary` does. -/
def readPrimary (limit : Option Int) (expression : RecordM Expr) : RecordM Expr := do
  let token := (← silently get).peek
  match token.kind with
  | .kwFalse | .kwTrue | .kwNil =>
    let _ ← silently ParseM.advance
    pure (.literal (some (.identifier token.lexeme)))
  | .number | .string =>
    let _ ← silently ParseM.advance
    match token.value with
    | .ok value => pure (.literal (some value))
    | .error fault => silently (throw (.fault fault))
  | .leftParen =>
    let _ ← silently ParseM.advance
    enter limit token
    let inner ← expression
    leave
    let _ ← silently (ParseM.consume .rightParen "Expect ')' after expression.")
    pure (.grouping inner)
  | _ => silently (ParseM.reject (.expectedExpression token))

/-- Read what a rule describes with a bounded number of rules open, as `ParseM.descend`
does. -/
def descend (limit : Option Int) : Nat → Rule → RecordM Expr
  | 0, _ => silently (throw .exhausted)
  | frames + 1, .start => descend limit frames .expression
  | frames + 1, .expression => do
    silently ParseM.spend
    descend limit frames (.binary .equality)
  | frames + 1, .binary level => do
    let left ← descend limit frames level.operand
    let count := (← silently get).ahead.length
    chain level.operators (descend limit frames level.operand) count left
  | frames + 1, .unary => do
    match ← silently (ParseM.accept TokenKind.unaryOperators) with
    | none => descend limit frames .primary
    | some operator =>
      enter limit operator
      let operand ← descend limit frames .unary
      leave
      pure (.unary operator operand)
  | frames + 1, .primary => readPrimary limit (descend limit frames .expression)

/-- Read what a rule describes, and record the changes of levels. -/
def readRule (limit : Option Int) (rule : Rule) : RecordM Expr := do
  let cursor ← silently get
  descend limit (ParseM.framesFor cursor) rule

section Run

variable {first : RecordM α} {rest : α → RecordM β} {cursor next stopped : TokenCursor}
  {value : α} {failure : ParseFailure} {changes : List LevelChange}

theorem bind_of_ok (found : first cursor = (.ok value next, changes)) :
    (first >>= rest) cursor = ((rest value next).1, changes ++ (rest value next).2) := by
  simp only [bind, found]

theorem bind_of_error (found : first cursor = (.error failure stopped, changes)) :
    (first >>= rest) cursor = (.error failure stopped, changes) := by
  simp only [bind, found]

end Run

end RecordM

/-- A reading that opens and closes no level, and does not fail for want of a token that
was required. -/
def ParseM.KeepsLevel {α : Type} (reading : ParseM α) : Prop :=
  ∀ cursor, match reading.run cursor with
    | .ok _ next => next.depth = cursor.depth
    | .error failure stopped => stopped.depth = cursor.depth ∧
        ∀ token kind message, failure ≠ .problem (.expectedToken token kind message)

namespace ParseM.KeepsLevel

variable {α : Type}

theorem pure (value : α) : KeepsLevel (pure value) :=
  fun _ => rfl

theorem get : KeepsLevel get :=
  fun _ => rfl

theorem advance : KeepsLevel advance :=
  depth_advance

theorem accept (kinds : List TokenKind) : KeepsLevel (accept kinds) := by
  intro cursor
  rw [run_accept]
  by_cases found : kinds.any cursor.check = true
  · rw [if_pos found]
    exact depth_advance cursor
  · rw [if_neg found]

theorem throw {failure : ParseFailure}
    (other : ∀ token kind message, failure ≠ .problem (.expectedToken token kind message)) :
    KeepsLevel (throw failure : ParseM α) :=
  fun _ => ⟨rfl, other⟩

theorem spend : KeepsLevel spend := by
  intro cursor
  rw [run_spend]
  by_cases none : cursor.allowance = some 0
  · rw [if_pos none]
    exact ⟨rfl, fun _ _ _ => nofun⟩
  · rw [if_neg none]
    rfl

end ParseM.KeepsLevel

/-- A relation between recorded readings within one limit and plain readings within another
holds of the steps that a descent is made of, with the two levels as steps of their own. -/
structure IsCompatible (limit other : Option Int)
    (Related : ∀ {α : Type}, RecordM α → ParseM α → Prop) : Prop where
  keepsLevel {α : Type} {reading : ParseM α} :
    reading.KeepsLevel → Related (.silently reading) reading
  bind {α β : Type} {first : RecordM α} {second : ParseM α} {rest : α → RecordM β}
      {more : α → ParseM β} :
    Related first second → (∀ value, Related (rest value) (more value)) →
    Related (first >>= rest) (second >>= more)
  sign {operand : RecordM Expr} {reading : ParseM Expr} (operator : Token) :
    Related operand reading →
    Related
      (do
        RecordM.enter limit operator
        let tree ← operand
        RecordM.leave
        pure (Expr.unary operator tree))
      (do
        ParseM.enter other operator
        let tree ← reading
        ParseM.leave
        pure (Expr.unary operator tree))
  group {expression : RecordM Expr} {reading : ParseM Expr} (opening : Token) :
    Related expression reading →
    Related
      (do
        RecordM.enter limit opening
        let tree ← expression
        RecordM.leave
        let _ ← RecordM.silently (ParseM.consume .rightParen "Expect ')' after expression.")
        pure (Expr.grouping tree))
      (do
        ParseM.enter other opening
        let tree ← reading
        ParseM.leave
        let _ ← ParseM.consume .rightParen "Expect ')' after expression."
        pure (Expr.grouping tree))

namespace IsCompatible

variable {limit other : Option Int} {Related : ∀ {α : Type}, RecordM α → ParseM α → Prop}
  {recorded : RecordM Expr} {reading : ParseM Expr}

theorem chain (compatible : IsCompatible limit other Related)
    (related : Related recorded reading) (operators : List TokenKind) (count : Nat) (left : Expr) :
    Related (RecordM.chain operators recorded count left)
      (ParseM.chain operators reading count left) := by
  induction count generalizing left with
  | zero => exact compatible.keepsLevel (.pure left)
  | succ count ih =>
      refine compatible.bind (compatible.keepsLevel (.accept operators)) fun found => ?_
      cases found with
      | none => exact compatible.keepsLevel (.pure left)
      | some operator => exact compatible.bind related fun right => ih _

theorem readPrimary (compatible : IsCompatible limit other Related)
    (related : Related recorded reading) :
    Related (RecordM.readPrimary limit recorded) (ParseM.readPrimary other reading) := by
  refine compatible.bind (compatible.keepsLevel .get) fun cursor => ?_
  dsimp only
  generalize cursor.peek = token
  have word := compatible.bind (compatible.keepsLevel .advance) fun _ =>
    compatible.keepsLevel (.pure (Expr.literal (some (.identifier token.lexeme))))
  have value : ∀ found : Except TokenFault Literal, Related
      (do
        let _ ← RecordM.silently ParseM.advance
        match found with
        | .ok value => pure (Expr.literal (some value))
        | .error fault => RecordM.silently (throw (.fault fault)))
      (do
        let _ ← ParseM.advance
        match found with
        | .ok value => pure (Expr.literal (some value))
        | .error fault => throw (.fault fault)) := by
    intro found
    refine compatible.bind (compatible.keepsLevel .advance) fun _ => ?_
    cases found with
    | ok value => exact compatible.keepsLevel (.pure _)
    | error fault => exact compatible.keepsLevel (.throw fun _ _ _ => nofun)
  have group := compatible.bind (compatible.keepsLevel .advance) fun _ =>
    compatible.group token related
  have none : Related (RecordM.silently (ParseM.reject (.expectedExpression token)))
      (ParseM.reject (.expectedExpression token) : ParseM Expr) :=
    compatible.keepsLevel (.throw fun _ _ _ => nofun)
  cases token.kind <;> first | exact word | exact value _ | exact group | exact none

/-- The recorded descent within one limit is related to the plain one within the other. -/
theorem descend (compatible : IsCompatible limit other Related) (frames : Nat) (wanted : Rule) :
    Related (RecordM.descend limit frames wanted) (ParseM.descend other frames wanted) := by
  induction frames generalizing wanted with
  | zero => exact compatible.keepsLevel (.throw fun _ _ _ => nofun)
  | succ frames ih =>
      cases wanted with
      | start => exact ih .expression
      | expression =>
          exact compatible.bind (compatible.keepsLevel .spend) fun _ => ih (.binary .equality)
      | binary level =>
          refine compatible.bind (ih level.operand) fun left => ?_
          refine compatible.bind (compatible.keepsLevel .get) fun cursor => ?_
          exact compatible.chain (ih level.operand) level.operators cursor.ahead.length left
      | unary =>
          refine compatible.bind (compatible.keepsLevel (.accept _)) fun found => ?_
          cases found with
          | none => exact ih .primary
          | some operator => exact compatible.sign operator (ih .unary)
      | primary => exact compatible.readPrimary (ih .expression)

theorem readRule (compatible : IsCompatible limit other Related) (wanted : Rule) :
    Related (RecordM.readRule limit wanted) (ParseM.readRule other wanted) :=
  compatible.bind (compatible.keepsLevel .get) fun cursor =>
    compatible.descend (ParseM.framesFor cursor) wanted

end IsCompatible

end LoxFront
