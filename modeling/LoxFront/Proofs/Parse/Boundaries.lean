/-
# Boundaries of statements

After an error a cursor can be moved on to a place where a statement ends or another one
begins. It passes one token unseen, so that it never stays before the token that stopped it,
and then goes to the first such place from there on. The loop that does so looks at the token
behind the cursor and at the one ahead, and so does `AtBoundary`, which says where it stops.
In a row the same is a property of a position.

Each round of reading and moving on passes at least one token. A caller who goes on like this
is at the end after as many rounds as there are tokens, whatever the readings come to.
-/

import LoxFront.Parse.Call
import LoxFront.Proofs.Parse.Lookahead
import LoxFront.Proofs.Parse.TooDeep

namespace LoxFront

open TokenCursor

namespace TokenCursor

/-- A cursor is at the end, after the end of a statement or before the beginning of one. -/
def AtBoundary (cursor : TokenCursor) : Prop :=
  cursor.ahead = [] ∨ (∃ token ∈ cursor.passed.head?, token.kind = .semicolon) ∨
    ∃ token ∈ cursor.ahead.head?, beginsStatement token = true

variable {cursor : TokenCursor}

theorem Passes.pass {count : Nat} (inside : count ≤ cursor.ahead.length) :
    Passes (cursor.ahead.take count) cursor (cursor.pass count) := by
  have passes := Passes.of_ahead (List.take_append_drop count cursor.ahead).symm
  rwa [List.length_take_of_le inside] at passes

/-- Passing one token more is passing as many after the next token. -/
theorem pass_succ (count : Nat) (cursor : TokenCursor) :
    cursor.pass (count + 1) = cursor.advance.pass count := by
  rw [advance_eq_pass, pass_pass, Nat.add_comm]

theorem skip_of_atBoundary (boundary : cursor.AtBoundary) :
    skip cursor.passed cursor.ahead = (cursor.passed, cursor.ahead) := by
  cases next : cursor.ahead with
  | nil => rfl
  | cons token rest =>
      rw [skip, if_pos]
      simpa [AtBoundary, next] using boundary

theorem skip_of_not_atBoundary (inside : ¬ cursor.AtBoundary) :
    skip cursor.passed cursor.ahead = skip cursor.advance.passed cursor.advance.ahead := by
  cases next : cursor.ahead with
  | nil => exact absurd (.inl next) inside
  | cons token rest =>
      have passes := Passes.advance next
      have ahead : cursor.advance.ahead = rest := passes.ahead_eq next
      rw [skip, if_neg, passes.passed, ahead]
      · rfl
      · simpa [AtBoundary, next] using inside

/-- Skipping leads to the first boundary, which may be where it begins. -/
theorem exists_skip_eq (cursor : TokenCursor) :
    ∃ count ≤ cursor.ahead.length,
      skip cursor.passed cursor.ahead = ((cursor.pass count).passed, (cursor.pass count).ahead) ∧
      (cursor.pass count).AtBoundary ∧ ∀ fewer < count, ¬ (cursor.pass fewer).AtBoundary := by
  generalize left : cursor.ahead.length = size
  induction size generalizing cursor with
  | zero =>
      have boundary : cursor.AtBoundary := .inl (List.length_eq_zero_iff.mp left)
      exact ⟨0, Nat.le_refl 0, skip_of_atBoundary boundary, boundary, fun _ => nofun⟩
  | succ size ih =>
      by_cases boundary : cursor.AtBoundary
      · exact ⟨0, Nat.zero_le _, skip_of_atBoundary boundary, boundary, fun _ => nofun⟩
      · have shorter : cursor.advance.ahead.length = size := by
          rw [advance_eq_pass, ahead_pass, List.length_drop]
          omega
        obtain ⟨count, inside, skipped, found, first⟩ := ih cursor.advance shorter
        simp only [← pass_succ] at skipped found first
        refine ⟨count + 1, Nat.succ_le_succ inside, ?_, found, fun fewer less => ?_⟩
        · rw [skip_of_not_atBoundary boundary, skipped]
        · cases fewer with
          | zero => exact boundary
          | succ fewer => exact first fewer (Nat.lt_of_succ_lt_succ less)

theorem synchronize_of_nil (ended : cursor.ahead = []) : cursor.synchronize = cursor := by
  rw [synchronize, ended]

@[simp]
theorem depth_synchronize (cursor : TokenCursor) : cursor.synchronize.depth = cursor.depth := by
  unfold synchronize
  split <;> rfl

/-- Moving on leads to the first boundary after the next token. -/
theorem exists_synchronize_eq (goesOn : cursor.ahead ≠ []) :
    ∃ count, 0 < count ∧ count ≤ cursor.ahead.length ∧ cursor.synchronize = cursor.pass count ∧
      (cursor.pass count).AtBoundary ∧
      ∀ fewer, 0 < fewer → fewer < count → ¬ (cursor.pass fewer).AtBoundary := by
  obtain ⟨token, rest, next⟩ := List.exists_cons_of_ne_nil goesOn
  obtain ⟨count, inside, skipped, found, first⟩ := exists_skip_eq cursor.advance
  have passes := Passes.advance next
  have shorter := Passes.length_advance next
  simp only [← pass_succ] at found first
  refine ⟨count + 1, Nat.succ_pos _, by omega, ?_, found, fun fewer positive less => ?_⟩
  · have ahead : cursor.advance.ahead = rest := passes.ahead_eq next
    rw [ahead, passes.passed, List.reverse_singleton, List.singleton_append] at skipped
    simp only [synchronize, next, skipped, ← pass_succ]
    rfl
  · obtain ⟨fewer, rfl⟩ := Nat.exists_eq_add_one_of_ne_zero (Nat.ne_of_gt positive)
    exact first fewer (Nat.lt_of_succ_lt_succ less)

end TokenCursor

/-- The position of the first token of a row that ends the input. -/
def firstEnd (tokens : List Token) : Nat :=
  tokens.findIdx (·.kind == .eof)

/-- A position of a row where the input ends, a statement has ended or one begins. -/
def IsBoundary (tokens : List Token) (index : Nat) : Prop :=
  index = firstEnd tokens ∨ (∃ token ∈ tokens[index - 1]?, token.kind = .semicolon) ∨
    ∃ token ∈ tokens[index]?, token.kind ∈
      [TokenKind.kwClass, .kwFun, .kwVar, .kwFor, .kwIf, .kwWhile, .kwPrint, .kwReturn]

namespace TokenCursor.IsStartOf

variable {tokens : List Token} {start : TokenCursor} {index : Nat}

theorem length_ahead (isStart : IsStartOf tokens start) :
    start.ahead.length = firstEnd tokens := by
  obtain ⟨after, whole⟩ := isStart.splits
  rw [firstEnd, whole, List.findIdx_append, List.findIdx_cons]
  have others : start.ahead.findIdx (·.kind == .eof) = start.ahead.length :=
    List.findIdx_eq_length_of_false (by simpa using isStart.ahead_ne_eof)
  simp [others, isStart.ends]

/-- A cursor is at a boundary if its position is one. -/
theorem atBoundary_iff (isStart : IsStartOf tokens start) (inside : index ≤ firstEnd tokens)
    (positive : 0 < index) (depth : Int) :
    (start.seek index depth).AtBoundary ↔ IsBoundary tokens index := by
  have length := isStart.length_ahead
  have none_iff : (start.seek index depth).ahead = [] ↔ index = firstEnd tokens := by
    rw [ahead_seek, List.drop_eq_nil_iff]
    omega
  rcases Nat.lt_or_eq_of_le inside with before | atEnd
  · obtain ⟨after, whole⟩ := isStart.splits
    have next : (start.seek index depth).ahead.head? = tokens[index]? := by
      rw [ahead_seek, List.head?_drop, whole, List.getElem?_append_left (by omega)]
    have behind : (start.seek index depth).passed.head? = tokens[index - 1]? := by
      have here : index - 1 < start.ahead.length := by omega
      simp [seek, pass, isStart.passed, whole, List.getElem?_append_left here,
        List.getElem?_eq_getElem here, List.getLast?_take, Nat.ne_of_gt positive]
    rw [AtBoundary, IsBoundary, none_iff, next, behind]
    simp only [beginsStatement, List.contains_iff_mem]
  · exact iff_of_true (.inl (none_iff.mpr atEnd)) (.inl atEnd)

end TokenCursor.IsStartOf

namespace ParseM

variable {cursor : TokenCursor}

theorem after_read (wanted : Rule) (cursor : TokenCursor) :
    after (perform (.read wanted)) cursor =
      ParseOutcome.cursor ((readRule (some maxDepth) wanted).run cursor) := by
  rw [after, perform, EStateM.run_bind]
  cases (readRule (some maxDepth) wanted).run cursor <;> rfl

theorem afterAll_append (calls more : List ParserCall) (cursor : TokenCursor) :
    afterAll (calls ++ more) cursor = afterAll more (afterAll calls cursor) :=
  List.foldl_append

/-- Reading a rule passes tokens, whatever comes of it. -/
theorem exists_passes_read (ends : cursor.stop.kind = .eof) (wanted : Rule) :
    ∃ read, Passes read cursor (after (perform (.read wanted)) cursor) := by
  rw [after_read]
  exact ((run_readRule_eq_iff ends).mp rfl).passes

theorem exists_passes_synchronize (cursor : TokenCursor) :
    ∃ read, Passes read cursor cursor.synchronize ∧
      cursor.synchronize.ahead.length ≤ cursor.ahead.length - 1 := by
  by_cases ended : cursor.ahead = []
  · rw [synchronize_of_nil ended, ended]
    exact ⟨[], .refl _, Nat.le_refl 0⟩
  · obtain ⟨count, positive, inside, same, -⟩ := exists_synchronize_eq ended
    rw [same, ahead_pass, List.length_drop]
    exact ⟨_, .pass inside, by omega⟩

/-- Rounds of reading an expression and moving on to the next boundary. -/
def rounds (count : Nat) : List ParserCall :=
  (List.replicate count [.read .start, .synchronize]).flatten

theorem rounds_succ (count : Nat) :
    rounds (count + 1) = [.read .start, .synchronize] ++ rounds count := by
  rw [rounds, List.replicate_succ, List.flatten_cons]
  rfl

/-- Every round passes a token as long as there is one. -/
theorem exists_passes_rounds (ends : cursor.stop.kind = .eof) (count : Nat) :
    ∃ read, Passes read cursor (afterAll (rounds count) cursor) ∧
      (afterAll (rounds count) cursor).ahead.length ≤ cursor.ahead.length - count := by
  induction count generalizing cursor with
  | zero => exact ⟨[], .refl _, Nat.le_refl _⟩
  | succ count ih =>
      obtain ⟨read, passes⟩ := exists_passes_read ends .start
      obtain ⟨skipped, passesOn, shorter⟩ :=
        exists_passes_synchronize (after (perform (.read .start)) cursor)
      have next := passes.trans passesOn
      obtain ⟨later, passesLater, less⟩ := ih (next.stop ▸ ends)
      rw [rounds_succ, afterAll_append]
      refine ⟨_, next.trans passesLater, Nat.le_trans less ?_⟩
      have fewer := passes.length_le
      omega

/-- From any position before the first token that ends the input, and at any depth, moving on
leads to the next boundary and changes nothing else. At the end it changes nothing at all. A
caller who reads and moves on in turn is at the end after as many rounds as there are tokens
ahead, whatever each reading comes to. -/
theorem synchronize_to_next_boundary {tokens : List Token} (ends : EndsInput tokens)
    {index : Nat} (notPast : index ≤ firstEnd tokens) (depth : Int) :
    ∃ start, ofTokens? tokens = some start ∧ (start.seek index depth).position = index ∧
      (index = firstEnd tokens →
        (start.seek index depth).synchronize = start.seek index depth) ∧
      (index < firstEnd tokens →
        ∃ stop, index < stop ∧ stop ≤ firstEnd tokens ∧ IsBoundary tokens stop ∧
          (∀ sooner, index < sooner → sooner < stop → ¬ IsBoundary tokens sooner) ∧
          (start.seek index depth).synchronize = start.seek stop depth) ∧
      ∀ count, firstEnd tokens ≤ index + count →
        (afterAll (rounds count) (start.seek index depth)).position = firstEnd tokens ∧
          (afterAll (rounds count) (start.seek index depth)).isAtEnd = true := by
  obtain ⟨final, isLast, isEnd⟩ := ends
  obtain ⟨start, opened⟩ := exists_ofTokens? isLast isEnd
  have isStart := isStartOf_of_ofTokens? opened
  have length := isStart.length_ahead
  have position : (start.seek index depth).position = index :=
    position_seek isStart (length ▸ notPast)
  have left : (start.seek index depth).ahead.length = firstEnd tokens - index := by
    rw [ahead_seek, List.length_drop, length]
  refine ⟨start, opened, position, fun atEnd => ?_, fun before => ?_, fun count enough => ?_⟩
  · exact synchronize_of_nil (List.length_eq_zero_iff.mp (by omega))
  · have goesOn : (start.seek index depth).ahead ≠ [] := List.ne_nil_of_length_pos (by omega)
    obtain ⟨count, positive, inside, same, found, first⟩ := exists_synchronize_eq goesOn
    simp only [pass_seek] at same found first
    refine ⟨index + count, by omega, by omega,
      (isStart.atBoundary_iff (by omega) (by omega) depth).mp found, fun sooner above below => ?_,
      same⟩
    rw [← isStart.atBoundary_iff (by omega) (by omega) depth]
    obtain ⟨fewer, rfl⟩ := Nat.exists_eq_add_of_lt above
    exact first (fewer + 1) (Nat.succ_pos _) (by omega)
  · have stop : (start.seek index depth).stop.kind = .eof := isStart.ends
    obtain ⟨read, passes, less⟩ := exists_passes_rounds stop count
    generalize afterAll (rounds count) (start.seek index depth) = last at passes less ⊢
    have ended : last.ahead = [] := List.length_eq_zero_iff.mp (by omega)
    have whole := congrArg List.length passes.ahead
    rw [left, ended, List.append_nil] at whole
    rw [position_eq_of_passes passes, position]
    exact ⟨by omega, List.isEmpty_iff.mpr ended⟩

/-- A statement ends behind the place that is found, and another one begins ahead of it. -/
theorem synchronize_to_next_boundary_print :
    let tokens : List Token :=
      [⟨.plus, "+", none, 1⟩, ⟨.semicolon, ";", none, 1⟩, ⟨.kwPrint, "print", none, 2⟩,
        ⟨.eof, "", none, 2⟩, ⟨.kwVar, "var", none, 3⟩, ⟨.eof, "", none, 3⟩]
    EndsInput tokens ∧ 0 ≤ firstEnd tokens ∧ ∃ start, ofTokens? tokens = some start ∧
      (start.seek 0 5).synchronize = start.seek 2 5 ∧
      (afterAll (rounds 3) (start.seek 0 5)).position = 3 := by
  intro tokens
  have ends : EndsInput tokens := ⟨_, rfl, rfl⟩
  have three : firstEnd tokens = 3 := rfl
  obtain ⟨start, opened, -, -, moves, reaches⟩ :=
    synchronize_to_next_boundary ends (Nat.zero_le _) 5
  obtain ⟨stop, above, below, found, first, same⟩ := moves (by decide)
  refine ⟨ends, Nat.zero_le _, start, opened, ?_, (reaches 3 (by decide)).1⟩
  have two : IsBoundary tokens 2 := .inr (.inl ⟨_, rfl, rfl⟩)
  have one : ¬ IsBoundary tokens 1 := by simp [IsBoundary, three, tokens]
  obtain rfl : stop = 2 := by
    rcases Nat.lt_trichotomy stop 2 with less | equal | more
    · obtain rfl : stop = 1 := by omega
      exact absurd found one
    · exact equal
    · exact absurd two (first 2 (by decide) more)
  exact same

end ParseM

end LoxFront
