/-
# The levels that a reading leaves open

A reading closes every level that it opens, in reverse order, unless it fails inside. So
the record of a reading that succeeds leaves no level open, and the depth of the cursor
after a reading that fails is the one before it and one more for each level left open. A
parenthesis that is missing is looked for after its group was closed.

The steps of the descent keep this account one by one, whatever the limit, and they do to
the cursor what the plain descent does.
-/

import LoxFront.Proofs.Parse.Record

namespace LoxFront

open TokenCursor

namespace LevelChange

/-- Some changes leave levels open that were opened at some tokens, on top of those that
were open before. -/
def LeavesOpen (changes : List LevelChange) (levels : List Token) : Prop :=
  ∀ outer, changes.foldl apply outer = levels ++ outer

variable {changes more : List LevelChange} {levels : List Token} {token : Token}
  {cursor next : TokenCursor}

theorem LeavesOpen.openLevels_eq (leaves : LeavesOpen changes levels) :
    openLevels changes = levels :=
  (leaves []).trans (List.append_nil levels)

theorem leavesOpen_nil : LeavesOpen [] [] :=
  fun _ => rfl

theorem LeavesOpen.append (closed : LeavesOpen changes []) (leaves : LeavesOpen more levels) :
    LeavesOpen (changes ++ more) levels := by
  intro outer
  rw [List.foldl_append, closed, leaves, List.nil_append]

/-- What is left open inside a level is left open together with that level. -/
theorem LeavesOpen.opened (leaves : LeavesOpen changes levels) :
    LeavesOpen (.opened token cursor :: changes) (levels ++ [token]) := by
  intro outer
  rw [List.foldl_cons, leaves, apply, List.append_assoc, List.singleton_append]

/-- A level that is closed again leaves nothing open. -/
theorem LeavesOpen.closed (closed : LeavesOpen changes []) :
    LeavesOpen (.opened token cursor :: (changes ++ [.closed next])) [] := by
  intro outer
  rw [List.foldl_cons, List.foldl_append, closed]
  rfl

end LevelChange

open LevelChange

/-- A recorded result is accounted for by its record, from the cursor at its beginning. -/
inductive IsAccount {α : Type} (start : TokenCursor) : Recorded α → Prop where
  | ok {value : α} {next : TokenCursor} {changes : List LevelChange} :
    LeavesOpen changes [] → next.depth = start.depth →
    IsAccount start (.ok value next, changes)
  | error {failure : ParseFailure} {stopped : TokenCursor} {changes : List LevelChange}
      {levels : List Token} :
    LeavesOpen changes levels → stopped.depth = start.depth + levels.length →
    (∀ token kind message, failure = .problem (.expectedToken token kind message) →
      changes.getLast? = some (.closed stopped)) →
    IsAccount start (.error failure stopped, changes)

/-- A recorded reading does what a plain one does, and its record accounts for it. -/
def Accounts {α : Type} (recorded : RecordM α) (reading : ParseM α) : Prop :=
  ∀ cursor, (recorded cursor).1 = reading.run cursor ∧ IsAccount cursor (recorded cursor)

namespace RecordM

variable {α β : Type} {limit : Option Int} {token : Token} {inner : RecordM α}
  {rest : α → RecordM β} {cursor next stopped : TokenCursor} {value : α}
  {failure : ParseFailure} {changes : List LevelChange}

theorem silently_bind (first : ParseM α) (more : α → ParseM β) :
    (silently first >>= fun value => silently (more value)) = silently (first >>= more) := by
  funext cursor
  have step : silently first cursor = (first.run cursor, []) := rfl
  change _ = ((first >>= more).run cursor, [])
  rw [EStateM.run_bind]
  cases found : first.run cursor with
  | ok value next => exact bind_of_ok (step.trans (by rw [found]))
  | error failure stopped => exact bind_of_error (step.trans (by rw [found]))

theorem enter_of_full (full : cursor.IsFull limit) (token : Token) :
    enter limit token cursor = (.error (.problem (.expressionTooDeep token)) cursor, []) := by
  rw [enter, recording, ParseM.run_enter_of_full full]

theorem enter_of_not_full (free : ¬ cursor.IsFull limit) (token : Token) :
    enter limit token cursor = (.ok () cursor.deeper, [.opened token cursor.deeper]) := by
  rw [enter, recording, ParseM.run_enter_of_not_full free]

theorem leave_eq (cursor : TokenCursor) :
    leave cursor = (.ok () cursor.shallower, [.closed cursor.shallower]) := rfl

/-- A level in which the reading fails is left open. -/
theorem level_of_error (free : ¬ cursor.IsFull limit)
    (found : inner cursor.deeper = (.error failure stopped, changes)) :
    (do
      enter limit token
      let value ← inner
      leave
      rest value : RecordM β) cursor =
        (.error failure stopped, .opened token cursor.deeper :: changes) := by
  rw [bind_of_ok (enter_of_not_full free token), bind_of_error found]
  rfl

/-- A level in which the reading succeeds is closed before anything else is done. -/
theorem level_of_ok {more : α → ParseM β} (free : ¬ cursor.IsFull limit)
    (found : inner cursor.deeper = (.ok value next, changes)) :
    (do
      enter limit token
      let value ← inner
      leave
      silently (more value) : RecordM β) cursor =
        ((more value).run next.shallower,
          .opened token cursor.deeper :: (changes ++ [.closed next.shallower])) := by
  rw [bind_of_ok (enter_of_not_full free token), bind_of_ok found, bind_of_ok (leave_eq next)]
  simp [silently]

end RecordM

/-- Reading from a cursor opens and closes no level, and passes nothing when it fails. -/
def StaysOnFailure {α : Type} (cursor : TokenCursor) :
    EStateM.Result ParseFailure TokenCursor α → Prop
  | .ok _ next => next.depth = cursor.depth
  | .error _ stopped => stopped = cursor

/-- Pass the parenthesis that a group has to end with. -/
def ParseM.closeGroup (tree : Expr) : ParseM Expr := do
  let _ ← consume .rightParen "Expect ')' after expression."
  pure (.grouping tree)

theorem ParseM.closeGroup_stays (tree : Expr) (cursor : TokenCursor) :
    StaysOnFailure cursor ((closeGroup tree).run cursor) := by
  rw [closeGroup, EStateM.run_bind, run_consume]
  by_cases found : cursor.check .rightParen = true
  · rw [if_pos found]
    exact depth_advance cursor
  · rw [if_neg found]
    rfl

namespace IsAccount

variable {α : Type} {start next : TokenCursor} {changes : List LevelChange} {later : Recorded α}

/-- What comes after changes that leave nothing open is accounted for from before them. -/
theorem after (closed : LeavesOpen changes []) (depth : next.depth = start.depth)
    (account : IsAccount next later) : IsAccount start (later.1, changes ++ later.2) := by
  cases account with
  | ok more same => exact .ok (closed.append more) (same.trans depth)
  | error leaves counts required =>
      refine .error (closed.append leaves) (depth ▸ counts) fun token kind message same => ?_
      rw [List.getLast?_append, required token kind message same]
      rfl

/-- Where a level has just been closed, what opens no other is accounted for. -/
theorem of_closed {outcome : EStateM.Result ParseFailure TokenCursor α}
    (closed : LeavesOpen changes []) (depth : next.depth = start.depth)
    (last : changes.getLast? = some (.closed next)) (stays : StaysOnFailure next outcome) :
    IsAccount start (outcome, changes) := by
  cases outcome with
  | ok value final => exact .ok closed (stays.trans depth)
  | error failure stopped =>
      obtain rfl : stopped = next := stays
      exact .error closed (depth.trans (Int.add_zero _).symm) fun _ _ _ _ => last

theorem of_eq_ok {recorded : Recorded α} {value : α} (account : IsAccount start recorded)
    (result : recorded.1 = .ok value next) :
    openLevels recorded.2 = [] ∧ next.depth = start.depth := by
  cases account with
  | ok closed same =>
      cases result
      exact ⟨closed.openLevels_eq, same⟩
  | error => cases result

/-- The depth after a failure is the one at the beginning and one more for each open level. -/
theorem of_eq_error {recorded : Recorded α} {failure : ParseFailure} {stopped : TokenCursor}
    (account : IsAccount start recorded) (result : recorded.1 = .error failure stopped) :
    stopped.depth = start.depth + (openLevels recorded.2).length ∧
      ∀ token kind message, failure = .problem (.expectedToken token kind message) →
        recorded.2.getLast? = some (.closed stopped) := by
  cases account with
  | ok => cases result
  | error leaves counts required =>
      cases result
      exact ⟨by rw [leaves.openLevels_eq, counts], required⟩

end IsAccount

namespace Accounts

open RecordM

variable {α β : Type} {limit : Option Int}

theorem keepsLevel {reading : ParseM α} (keeps : reading.KeepsLevel) :
    Accounts (silently reading) reading := by
  intro cursor
  refine ⟨rfl, ?_⟩
  have kept := keeps cursor
  rw [silently]
  cases found : reading.run cursor with
  | ok value next =>
      rw [found] at kept
      exact .ok leavesOpen_nil kept
  | error failure stopped =>
      rw [found] at kept
      exact .error leavesOpen_nil (kept.1.trans (Int.add_zero _).symm)
        fun token kind message same => absurd same (kept.2 token kind message)

theorem bind {first : RecordM α} {second : ParseM α} {rest : α → RecordM β}
    {more : α → ParseM β} (accounts : Accounts first second)
    (next : ∀ value, Accounts (rest value) (more value)) :
    Accounts (first >>= rest) (second >>= more) := by
  intro cursor
  obtain ⟨same, account⟩ := accounts cursor
  rw [EStateM.run_bind, ← same]
  cases found : first cursor with
  | mk outcome changes =>
      rw [found] at account
      cases account with
      | @ok value middle _ closed depth =>
          obtain ⟨sameLater, later⟩ := next value middle
          rw [bind_of_ok found]
          exact ⟨sameLater, later.after closed depth⟩
      | error leaves depth required =>
          rw [bind_of_error found]
          exact ⟨rfl, .error leaves depth required⟩

/-- A level is accounted for if what is read in it is, and if what follows it opens no
level and stays where it is when it fails. -/
theorem level {inner : RecordM α} {reading : ParseM α} {more : α → ParseM β} (token : Token)
    (accounts : Accounts inner reading)
    (stays : ∀ value cursor, StaysOnFailure cursor ((more value).run cursor)) :
    Accounts
      (do
        enter limit token
        let value ← inner
        leave
        silently (more value))
      (do
        ParseM.enter limit token
        let value ← reading
        ParseM.leave
        more value) := by
  intro cursor
  rw [EStateM.run_bind]
  by_cases full : cursor.IsFull limit
  · rw [bind_of_error (enter_of_full full token), ParseM.run_enter_of_full full]
    exact ⟨rfl, .error leavesOpen_nil (Int.add_zero _).symm fun _ _ _ => nofun⟩
  · rw [ParseM.run_enter_of_not_full full]
    dsimp only
    obtain ⟨same, account⟩ := accounts cursor.deeper
    rw [EStateM.run_bind, ← same]
    cases found : inner cursor.deeper with
    | mk outcome changes =>
        rw [found] at account
        cases account with
        | error leaves depth required =>
            rw [level_of_error full found]
            refine ⟨rfl, .error leaves.opened ?_ fun token kind message same => ?_⟩
            · rw [depth, depth_deeper, List.length_append, List.length_singleton]
              omega
            · rw [List.getLast?_cons, required token kind message same]
              rfl
        | @ok value next _ closed depth =>
            rw [level_of_ok full found]
            have back : next.shallower.depth = cursor.depth := by
              rw [depth_shallower, depth, depth_deeper]
              omega
            refine ⟨rfl, .of_closed closed.closed back ?_ (stays value next.shallower)⟩
            rw [← List.cons_append, List.getLast?_concat]

/-- The recorded descent accounts for the plain one within the same limit. -/
theorem isCompatible (limit : Option Int) : IsCompatible limit limit Accounts where
  keepsLevel := keepsLevel
  bind := bind
  sign operator related := related.level operator fun _ _ => rfl
  group {expression reading} opening related := by
    have closes (tree : Expr) :
        (do
          let _ ← silently (ParseM.consume .rightParen "Expect ')' after expression.")
          pure (.grouping tree) : RecordM Expr) = silently (ParseM.closeGroup tree) :=
      silently_bind _ _
    simp only [closes]
    exact related.level opening ParseM.closeGroup_stays

end Accounts

end LoxFront
