/-
# Lines at the prompt

One session serves all lines of the input. It is reset after each of them, so every
line meets a new session, and what it writes does not depend on the lines before it.

The prompt finds its lines one at a time in what is left of the input. Taken together
they are the fields between the line feeds, up to the first empty one. The end of the
input is no case of its own there: behind a last line feed stands an empty field.
-/

import Mathlib.Data.List.TakeWhile
import LoxFront.Console.Command

namespace LoxFront

/-- The lines that the prompt runs: what stands between the line feeds of the input, up
to the first line that is empty. -/
def promptLines (input : List Char) : List String :=
  ((input.splitOn '\n').map String.ofList).takeWhile (· ≠ "")

section Lines

variable {input line rest : List Char}

theorem eq_nil_of_nextLine? (ended : nextLine? input = none) : input = [] := by
  cases input with
  | nil => rfl
  | cons c others => cases ended

/-- A line that is read ends before a line feed or at the end of the input. -/
theorem eq_of_nextLine? (reads : nextLine? input = some (line, rest)) :
    '\n' ∉ line ∧ (input = line ∧ rest = [] ∨ input = line ++ '\n' :: rest) := by
  cases input with
  | nil => cases reads
  | cons c others =>
      cases reads
      have unbroken : '\n' ∉ (c :: others).takeWhile (· != '\n') := fun inLine => by
        simpa using List.mem_takeWhile_imp inLine
      have whole := List.takeWhile_append_dropWhile (p := (· != '\n')) (l := c :: others)
      refine ⟨unbroken, ?_⟩
      cases tail : (c :: others).dropWhile (· != '\n') with
      | nil =>
          rw [tail, List.append_nil] at whole
          exact .inl ⟨whole.symm, rfl⟩
      | cons feed following =>
          have isFeed := List.head?_dropWhile_not (· != '\n') (c :: others)
          simp only [tail, List.head?_cons, bne_eq_false_iff_eq] at isFeed
          rw [tail, isFeed] at whole
          exact .inr whole.symm

theorem promptLines_nil : promptLines [] = [] := rfl

/-- The lines of the prompt begin with the line that is read, unless it is empty. -/
theorem promptLines_of_nextLine? (reads : nextLine? input = some (line, rest)) :
    promptLines input =
      if String.ofList line = "" then [] else String.ofList line :: promptLines rest := by
  obtain ⟨unbroken, ⟨rfl, rfl⟩ | rfl⟩ := eq_of_nextLine? reads
  · rw [promptLines, List.splitOn_eq_singleton unbroken]
    simp [List.takeWhile_cons, promptLines_nil]
  · rw [promptLines, List.splitOn_append_cons_self_of_not_mem unbroken]
    simp [List.takeWhile_cons, promptLines]

end Lines

namespace Session

/-- Whatever has been reported before, the line after a line meets a new session. -/
theorem promptLine_eq (session : Session) {line : String} (filled : line ≠ "") :
    session.promptLine line = some ((session.run line).written, fresh) := by
  rw [promptLine, if_neg filled]
  rfl

/-- At the prompt every line is run as if it were the only one. -/
theorem prompt_fresh (input : List Char) :
    fresh.prompt input =
      ⟨String.join ((promptLines input).map fun line =>
          "> " ++ (fresh.run line).written.output) ++ "> ",
        String.join ((promptLines input).map fun line => (fresh.run line).written.errors)⟩ := by
  rw [prompt]
  split
  · next ended =>
    rw [eq_nil_of_nextLine? ended]
    simp [promptLines_nil]
  · next line rest reads =>
    rw [promptLines_of_nextLine? reads]
    by_cases filled : String.ofList line = ""
    · simp [promptLine, filled]
    · -- The session is a new one again, and only what is left of the input is shorter.
      rw [promptLine_eq fresh filled, if_neg filled]
      simp [prompt_fresh rest, String.append_assoc]
termination_by input.length
decreasing_by exact length_of_nextLine? ‹_›

end Session

/-- Without arguments, or with the one that names the prompt, every line of the input up to
the first empty one is run on its own. The mark stands before the output of each line and
once more at the end, and what a line writes does not depend on the others. The program
ends well. -/
theorem World.respond_at_prompt (world : World) (argv : List String)
    (asked : argv = [] ∨ ∃ program, argv = [program] ∨ argv = [program, "run_prompt"]) :
    let lines := promptLines world.input.toList
    let alone (line : String) := (Session.fresh.run line).written
    let outcome := world.respond (Command.ofArguments (argv.drop 1))
    outcome.written.output =
        String.join (lines.map fun line => "> " ++ (alone line).output) ++ "> " ∧
      outcome.written.errors = String.join (lines.map fun line => (alone line).errors) ∧
      outcome.ending.exitNumber? = some 0 := by
  intro lines alone outcome
  have prompted : outcome = ⟨Session.fresh.prompt world.input.toList, .finished⟩ := by
    rcases asked with rfl | ⟨program, rfl | rfl⟩ <;> rfl
  rw [prompted, Session.prompt_fresh]
  exact ⟨rfl, rfl, rfl⟩

/-- An error on the second of four lines. The first keeps its carriage return, the last
needs no line feed. -/
theorem World.respond_at_prompt_error :
    let world : World := ⟨fun _ => .missing, "1 + 2\r\n(\n-3\n4", false⟩
    let outcome := world.respond (Command.ofArguments ["run_prompt"])
    outcome.written.output = "> (+ 1 2)\n> > (- 3)\n> 4\n> " ∧
      outcome.written.errors = "[line 1] Error at end: Expect expression.\n" ∧
      outcome.ending.exitNumber? = some 0 := by
  intro world outcome
  obtain ⟨output, errors, number⟩ :=
    World.respond_at_prompt world ["loxi", "run_prompt"] (.inr ⟨"loxi", .inr rfl⟩)
  refine ⟨output.trans ?_, errors.trans ?_, number⟩
  · decide +kernel
  · decide +kernel

end LoxFront
