/-
# The same reading elsewhere

A reading is determined by the tokens that it passes, by the kind of the one that it stops
before, and by the number of levels that the limit leaves. Wherever these are the same it
does the same: it does not matter what was passed before, what comes later, or how many
levels were open at the beginning if the limit is as much higher. Only a failure that names
the token ahead names the one that is ahead there.

A reading is put together from stretches between two cursors. `Recurs` says of a stretch
that it can be gone elsewhere. It holds of the single steps of a cursor and of two stretches
in a row, so that each way to read is the row of its steps.
-/

import LoxFront.Proofs.Parse.Outline
import LoxFront.Proofs.Parse.TooDeep

namespace LoxFront

open TokenCursor

/-- The failure with another token in place of the one that it finds ahead. A failure that is
about a token that has been passed keeps it. -/
def ParseFailure.facing (token : Token) : ParseFailure → ParseFailure
  | .problem (.expectedExpression _) => .problem (.expectedExpression token)
  | .problem (.expectedToken _ kind message) => .problem (.expectedToken token kind message)
  | failure => failure

namespace Complaint

/-- A complaint is about a token from a cursor: of the token ahead where something is missing,
and of the one that was passed last where that one cannot be read. -/
def IsAt (token : Token) (stopped : TokenCursor) : Complaint → Prop
  | noExpression | otherExpected _ _ => stopped.peek = token
  | tooDeep | noValue => stopped.passed.head? = some token

/-- The position of the token that a complaint is about, in a reading that stops at a position. -/
def place (position : Nat) : Complaint → Nat
  | noExpression | otherExpected _ _ => position
  | tooDeep | noValue => position - 1

variable {complaint : Complaint} {token other : Token} {stopped : TokenCursor}

theorem getElem?_place {tokens : List Token} (isAt : complaint.IsAt token stopped)
    (inRow : IsPlaceIn tokens stopped) :
    tokens[complaint.place stopped.position]? = some token := by
  have passed (last : stopped.passed.head? = some token) :
      tokens[stopped.position - 1]? = some token := by
    obtain ⟨after, rfl⟩ := inRow.splits
    obtain ⟨before, front⟩ := List.head?_eq_some_iff.mp last
    simp [position, front]
  cases complaint with
  | noExpression | otherExpected => exact isAt ▸ inRow.getElem?_position
  | tooDeep | noValue => exact passed isAt

/-- At another cursor after the same token, a complaint is the same one. -/
theorem exists_facing (isAt : complaint.IsAt token stopped) {next : TokenCursor}
    (passed : ∀ last ∈ stopped.passed.head?, next.passed.head? = some last) :
    ∃ other, (complaint.about token).facing next.peek = complaint.about other ∧
      complaint.IsAt other next := by
  cases complaint with
  | noExpression | otherExpected => exact ⟨next.peek, rfl, rfl⟩
  | tooDeep | noValue => exact ⟨token, rfl, passed token isAt⟩

end Complaint

/-- The outcome as it is where the reading stops at another cursor. -/
def ParseOutcome.endingAt (next : TokenCursor) : ParseOutcome → ParseOutcome
  | .ok expr _ => .ok expr next
  | .error failure _ => .error (failure.facing next.peek) next

@[simp]
theorem ParseOutcome.cursor_endingAt (next : TokenCursor) (outcome : ParseOutcome) :
    (outcome.endingAt next).cursor = next := by
  cases outcome <;> rfl

/-- Two rows of tokens begin with the same kind, or are both empty. -/
def SameNext (first second : List Token) : Prop :=
  first.head?.map Token.kind = second.head?.map Token.kind

theorem SameNext.append {first second : List Token} (same : SameNext first second)
    (front : List Token) : SameNext (front ++ first) (front ++ second) := by
  cases front with
  | nil => exact same
  | cons token front => rfl

/-- A cursor from which some tokens can be passed as between two others, with some more levels
open. What comes after them is of the same kind. -/
structure TokenCursor.Matches (there : TokenCursor) (levels : Int) (read : List Token)
    (first last : TokenCursor) : Prop where
  ahead : ∃ others, there.ahead = read ++ others ∧ SameNext others last.ahead
  depth : there.depth = first.depth + levels
  unlimited : there.allowance = none

namespace TokenCursor.Matches

variable {levels : Int} {limit : Option Int} {read : List Token} {token : Token}
  {kinds : List TokenKind} {first last there : TokenCursor}

/-- There is as much room for levels as there was, if the limit is as much higher. -/
theorem isFull_iff (like : there.Matches levels read first last) :
    there.IsFull (limit.map (· + levels)) ↔ first.IsFull limit := by
  cases limit with
  | none => exact Iff.rfl
  | some bound =>
      simp only [IsFull, Option.map_some, Option.any_some, decide_eq_true_eq, like.depth]
      omega

theorem avoids (like : there.Matches levels [] first first) (avoids : first.Avoids kinds) :
    there.Avoids kinds := by
  obtain ⟨others, ahead, same⟩ := like.ahead
  rw [List.nil_append] at ahead
  intro token member
  rw [SameNext, ← ahead, member, Option.map_some, eq_comm, Option.map_eq_some_iff] at same
  obtain ⟨original, isNext, kind⟩ := same
  exact kind ▸ avoids original isNext

theorem exists_next (like : there.Matches levels [token] first last) :
    ∃ rest, there.ahead = token :: rest := by
  obtain ⟨others, ahead, -⟩ := like.ahead
  exact ⟨others, ahead⟩

end TokenCursor.Matches

/-- A stretch between two cursors can be gone wherever the tokens that it passes are ahead. -/
def Recurs (levels : Int) (first last : TokenCursor) (Goes : TokenCursor → TokenCursor → Prop) :
    Prop :=
  ∃ read, Passes read first last ∧ ∀ there : TokenCursor, there.Matches levels read first last →
    ∃ next, Goes there next ∧ Passes read there next ∧ next.depth = last.depth + levels

namespace Recurs

variable {levels : Int} {limit : Option Int} {first middle last cursor : TokenCursor}
  {Goes Leads Whole : TokenCursor → TokenCursor → Prop} {read rest : List Token} {token : Token}
  {kinds : List TokenKind} {move : TokenCursor → TokenCursor}

theorem imp (one : Recurs levels first last Goes)
    (whole : ∀ there next, Goes there next → Whole there next) :
    Recurs levels first last Whole := by
  obtain ⟨read, passes, again⟩ := one
  refine ⟨read, passes, fun there like => ?_⟩
  obtain ⟨next, goes, rest⟩ := again there like
  exact ⟨next, whole there next goes, rest⟩

/-- Two stretches in a row. -/
theorem andThen (one : Recurs levels first middle Goes) (two : Recurs levels middle last Leads) :
    Recurs levels first last fun there next =>
      ∃ between, Goes there between ∧ Leads between next := by
  obtain ⟨read, passes, again⟩ := one
  obtain ⟨more, passesMore, againMore⟩ := two
  refine ⟨read ++ more, passes.trans passesMore, fun there like => ?_⟩
  obtain ⟨others, ahead, same⟩ := like.ahead
  rw [List.append_assoc] at ahead
  obtain ⟨between, goes, passesThere, depth⟩ :=
    again there ⟨⟨_, ahead, passesMore.ahead ▸ same.append more⟩, like.depth, like.unlimited⟩
  obtain ⟨next, leads, passesNext, depthNext⟩ := againMore between
    ⟨⟨others, passesThere.ahead_eq ahead, same⟩, depth, passesThere.allowance like.unlimited⟩
  exact ⟨next, ⟨between, goes, leads⟩, passesThere.trans passesNext, depthNext⟩

/-- A move is a stretch of its own if it changes the depth by the same wherever it is made. -/
theorem step (moves : Moves read move) (ahead : cursor.ahead = read ++ rest) (change : Int)
    (depth : ∀ cursor : TokenCursor, (move cursor).depth = cursor.depth + change) :
    Recurs levels cursor (move cursor) fun there next =>
      there.Matches levels read cursor (move cursor) ∧ next = move there := by
  refine ⟨read, moves.passes ahead, fun there like => ?_⟩
  obtain ⟨others, aheadThere, -⟩ := like.ahead
  refine ⟨move there, ⟨like, rfl⟩, moves.passes aheadThere, ?_⟩
  rw [depth, depth, like.depth]
  omega

/-- A look at the next token that is none of some kinds. -/
theorem avoids (avoids : cursor.Avoids kinds) :
    Recurs levels cursor cursor fun there next => there.Avoids kinds ∧ next = there :=
  (step .id rfl 0 fun _ => (Int.add_zero _).symm).imp fun _ _ => And.imp_left (·.avoids avoids)

theorem advance (ahead : cursor.ahead = token :: rest) :
    Recurs levels cursor cursor.advance fun there next =>
      (∃ rest, there.ahead = token :: rest) ∧ next = there.advance :=
  (step (.advance token) ahead 0 (by simp)).imp fun _ _ => And.imp_left (·.exists_next)

/-- The token at which no more level can be opened. -/
theorem refuse (ahead : cursor.ahead = token :: rest) (full : cursor.IsFull limit) :
    Recurs levels cursor cursor.advance fun there next =>
      (∃ rest, there.ahead = token :: rest) ∧ there.IsFull (limit.map (· + levels)) ∧
        next = there.advance :=
  (step (.advance token) ahead 0 (by simp)).imp fun _ _ ⟨like, same⟩ =>
    ⟨like.exists_next, like.isFull_iff.mpr full, same⟩

/-- The token that opens a level. -/
theorem deepen (ahead : cursor.ahead = token :: rest) (free : ¬ cursor.IsFull limit) :
    Recurs levels cursor cursor.advance.deeper fun there next =>
      (∃ rest, there.ahead = token :: rest) ∧ ¬ there.IsFull (limit.map (· + levels)) ∧
        next = there.advance.deeper :=
  (step (.advance_deeper token) ahead 1 (by simp)).imp fun _ _ ⟨like, same⟩ =>
    ⟨like.exists_next, mt like.isFull_iff.mp free, same⟩

theorem close : Recurs levels cursor cursor.shallower fun there next => next = there.shallower :=
  ⟨[], .shallower _, fun there like => ⟨_, rfl, .shallower _, by
    rw [depth_shallower, depth_shallower, like.depth]
    omega⟩⟩

theorem begin :
    Recurs levels cursor cursor.spent fun there next =>
      there.allowance = none ∧ next = there.spent :=
  (step .spent rfl 0 (by simp)).imp fun _ _ => And.imp_left (·.unlimited)

end Recurs

/-- A part is read elsewhere, up to a cursor, to what has come of it. -/
def ReadsAgain (limit : Option Int) (levels : Int) (part : Part) (outcome : ParseOutcome)
    (there next : TokenCursor) : Prop :=
  Reads (limit.map (· + levels)) part there (outcome.endingAt next)

namespace Reads

variable {limit : Option Int} {part : Part} {cursor : TokenCursor} {outcome : ParseOutcome}

/-- A free reading can be done wherever the tokens that it passes are ahead. The induction is on
the reading, which is the row of its steps. -/
theorem recurs (reads : Reads limit part cursor outcome) (unlimited : cursor.allowance = none)
    (levels : Int) :
    Recurs levels cursor outcome.cursor (ReadsAgain limit levels part outcome) := by
  induction reads with
  | start _ ih => exact (ih unlimited).imp fun _ _ reads => .start reads
  | noRoom none =>
      rw [unlimited] at none
      cases none
  | expression _ _ ih =>
      refine (Recurs.begin.andThen (ih (by simp [spent, unlimited]))).imp ?_
      rintro there next ⟨_, ⟨free, rfl⟩, reads⟩
      exact .expression (by simp [free]) reads
  | firstOperandFails _ ih => exact (ih unlimited).imp fun _ _ reads => .firstOperandFails reads
  | binary left _ ihLeft ihTail =>
      obtain ⟨read, passes⟩ := left.passes_of_ok
      refine ((ihLeft unlimited).andThen (ihTail (passes.allowance unlimited))).imp ?_
      rintro there next ⟨middle, first, tail⟩
      exact .binary first tail
  | noOperator avoids =>
      refine (Recurs.avoids avoids).imp ?_
      rintro there _ ⟨none, rfl⟩
      exact .noOperator none
  | rightOperandFails next operator _ ih =>
      refine ((Recurs.advance next).andThen (ih ((Passes.advance next).allowance unlimited))).imp ?_
      rintro there stopped ⟨_, ⟨⟨rest, ahead⟩, rfl⟩, reads⟩
      exact .rightOperandFails ahead operator reads
  | operator next operator right _ ihRight ihTail =>
      have moved := (Passes.advance next).allowance unlimited
      obtain ⟨read, passes⟩ := right.passes_of_ok
      refine ((Recurs.advance next).andThen
        ((ihRight moved).andThen (ihTail (passes.allowance moved)))).imp ?_
      rintro there stopped ⟨_, ⟨⟨rest, ahead⟩, rfl⟩, middle, first, tail⟩
      exact .operator ahead operator first tail
  | signTooDeep next sign full =>
      refine (Recurs.refuse next full).imp ?_
      rintro there _ ⟨⟨rest, ahead⟩, fullThere, rfl⟩
      exact .signTooDeep ahead sign fullThere
  | signedOperandFails next sign free _ ih =>
      have inside := ih (((Passes.advance next).trans (.deeper _)).allowance unlimited)
      refine ((Recurs.deepen next free).andThen inside).imp ?_
      rintro there stopped ⟨_, ⟨⟨rest, ahead⟩, room, rfl⟩, reads⟩
      exact .signedOperandFails ahead sign room reads
  | unary next sign free _ ih =>
      have inside := ih (((Passes.advance next).trans (.deeper _)).allowance unlimited)
      refine ((Recurs.deepen next free).andThen (inside.andThen .close)).imp ?_
      rintro there _ ⟨_, ⟨⟨rest, ahead⟩, room, rfl⟩, middle, reads, rfl⟩
      exact .unary ahead sign room reads
  | primary avoids _ ih =>
      refine ((Recurs.avoids avoids).andThen (ih unlimited)).imp ?_
      rintro there stopped ⟨_, ⟨none, rfl⟩, reads⟩
      exact .primary none reads
  | valueWord next word =>
      refine (Recurs.advance next).imp ?_
      rintro there _ ⟨⟨rest, ahead⟩, rfl⟩
      exact .valueWord ahead word
  | constant next carries value =>
      refine (Recurs.advance next).imp ?_
      rintro there _ ⟨⟨rest, ahead⟩, rfl⟩
      exact .constant ahead carries value
  | noValue next carries value =>
      refine (Recurs.advance next).imp ?_
      rintro there _ ⟨⟨rest, ahead⟩, rfl⟩
      exact .noValue ahead carries value
  | groupTooDeep next opens full =>
      refine (Recurs.refuse next full).imp ?_
      rintro there _ ⟨⟨rest, ahead⟩, fullThere, rfl⟩
      exact .groupTooDeep ahead opens fullThere
  | groupFails next opens free _ ih =>
      have inside := ih (((Passes.advance next).trans (.deeper _)).allowance unlimited)
      refine ((Recurs.deepen next free).andThen inside).imp ?_
      rintro there stopped ⟨_, ⟨⟨rest, ahead⟩, room, rfl⟩, reads⟩
      exact .groupFails ahead opens room reads
  | notClosed next opens free _ avoids ih =>
      have inside := ih (((Passes.advance next).trans (.deeper _)).allowance unlimited)
      refine ((Recurs.deepen next free).andThen
        (inside.andThen ((Recurs.avoids avoids).andThen .close))).imp ?_
      rintro there _ ⟨_, ⟨⟨rest, ahead⟩, room, rfl⟩, middle, reads, _, ⟨missing, rfl⟩, rfl⟩
      exact .notClosed ahead opens room reads missing
  | grouping next opens free _ closes kind ih =>
      have inside := ih (((Passes.advance next).trans (.deeper _)).allowance unlimited)
      refine ((Recurs.deepen next free).andThen
        (inside.andThen (Recurs.close.andThen (Recurs.advance closes)))).imp ?_
      rintro there _ ⟨_, ⟨⟨rest, ahead⟩, room, rfl⟩, middle, reads, _, rfl, ⟨after, closing⟩, rfl⟩
      exact .grouping ahead opens room reads closing kind
  | noExpression avoids =>
      refine (Recurs.avoids avoids).imp ?_
      rintro there _ ⟨none, rfl⟩
      exact .noExpression none

/-- A failure of a free reading complains of the token ahead or of the one passed last. -/
theorem exists_complaint {failure : ParseFailure} {stopped : TokenCursor}
    (reads : Reads limit part cursor (.error failure stopped))
    (unlimited : cursor.allowance = none) :
    ∃ (complaint : Complaint) (token : Token), failure = complaint.about token ∧
      complaint.IsAt token stopped := by
  generalize result : (.error failure stopped : ParseOutcome) = outcome at reads
  induction reads with
  | start _ ih | firstOperandFails _ ih | primary _ _ ih => exact ih unlimited result
  | noRoom none =>
      rw [unlimited] at none
      cases none
  | expression _ _ ih => exact ih (by simp [spent, unlimited]) result
  | binary left _ _ ihTail =>
      obtain ⟨read, passes⟩ := left.passes_of_ok
      exact ihTail (passes.allowance unlimited) result
  | rightOperandFails next _ _ ih => exact ih ((Passes.advance next).allowance unlimited) result
  | operator next _ right _ _ ihTail =>
      obtain ⟨read, passes⟩ := right.passes_of_ok
      exact ihTail (((Passes.advance next).trans passes).allowance unlimited) result
  | signedOperandFails next _ _ _ ih | groupFails next _ _ _ ih =>
      exact ih (((Passes.advance next).trans (.deeper _)).allowance unlimited) result
  | signTooDeep next | groupTooDeep next =>
      cases result
      exact ⟨.tooDeep, _, rfl, by rw [Complaint.IsAt, (Passes.advance next).passed]; rfl⟩
  | noValue next =>
      cases result
      exact ⟨.noValue, _, rfl, by rw [Complaint.IsAt, (Passes.advance next).passed]; rfl⟩
  | notClosed =>
      cases result
      exact ⟨.otherExpected _ _, _, rfl, rfl⟩
  | noExpression =>
      cases result
      exact ⟨.noExpression, _, rfl, rfl⟩
  | _ => cases result

/-- Before the same token, the tree or failure is the same elsewhere. -/
theorem result_endingAt (reads : Reads limit part cursor outcome)
    (unlimited : cursor.allowance = none) {next : TokenCursor}
    (same : next.peek = outcome.cursor.peek) : (outcome.endingAt next).result = outcome.result := by
  cases outcome with
  | ok expr stopped => rfl
  | error failure stopped =>
      obtain ⟨complaint, token, rfl, isAt⟩ := reads.exists_complaint unlimited
      have facing : (complaint.about token).facing next.peek = complaint.about token := by
        rw [same]
        cases complaint with
        | noExpression | otherExpected =>
            obtain rfl : stopped.peek = token := isAt
            rfl
        | tooDeep | noValue => rfl
      exact congrArg Except.error facing

/-- Readings of tokens that carry their values fail with a problem only. -/
theorem exists_problem_of_result (reads : Reads limit part cursor outcome)
    (readable : Readable cursor) {failure : ParseFailure}
    (failed : outcome.result = .error failure) : ∃ error, failure = .problem error := by
  cases outcome with
  | ok expr stopped => cases failed
  | error other stopped =>
      cases failed
      exact reads.exists_problem readable

end Reads

end LoxFront
