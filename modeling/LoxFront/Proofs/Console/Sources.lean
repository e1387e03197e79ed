/-
# Where a source text comes from

A text reaches the program in a file, on the command line or on the standard input, and
it is run in a new session in each case. So what it writes is the same wherever it comes
from. The number that the program gives back is not: a file that holds errors fails,
while a text given directly never does.
-/

import LoxFront.Console.Command
import LoxFront.Proofs.Session.Reports

namespace LoxFront

/-- The text of a file as it is run: its line ends are all alike. -/
def sourceOfFile (text : String) : String :=
  String.ofList (unifyLineEnds text.toList)

theorem decodeSource_toUTF8 (text : String) :
    decodeSource text.toUTF8 = some (sourceOfFile text) := by
  rw [decodeSource, String.fromUTF8?, String.toUTF8_eq_toByteArray, dif_pos text.isValidUTF8]
  rfl

namespace World

section Files

variable {world : World} {path text : String}

theorem withSource_of_file (found : world.look (.ofText path) = .file text.toUTF8)
    (use : String → Outcome) : world.withSource path use = use (sourceOfFile text) := by
  simp only [withSource, found, decodeSource_toUTF8]

/-- A file is run as its text is, and fails if anything is reported. -/
theorem respond_runFile (found : world.look (.ofText path) = .file text.toUTF8) :
    world.respond (.runFile path) =
      ⟨(Session.fresh.run (sourceOfFile text)).written,
        if reports (sourceOfFile text) = [] then .finished else .failed .dataError⟩ := by
  rw [respond, withSource_of_file found]
  simp [Session.hadError_run_fresh]

/-- The tokens of a file are listed, and the file fails if anything is reported on its
lexemes. -/
theorem respond_printTokens (found : world.look (.ofText path) = .file text.toUTF8) :
    world.respond (.printTokens path) =
      ⟨{ output := String.join
            ((scan (sourceOfFile text)).tokens.map fun token => token.toText ++ "\n")
         errors := Diagnostic.renderLines (lexicalReports (sourceOfFile text)) },
        if lexicalReports (sourceOfFile text) = [] then .finished else .failed .dataError⟩ := by
  rw [respond, withSource_of_file found, Session.printTokens_eq]
  simp [Session.fresh]

end Files

/-- A file does as well under its path alone as after the command for it, unless it is
named like the prompt. Its text writes the same on the standard input and on the command
line, where the program always ends well. A file ends well if nothing is written to the
output for errors, and only then is anything printed. Its tokens are listed one on each
line, and whenever that ends with an error, so does running the file. -/
theorem respond_to_file (world : World) (path text : String)
    (found : world.look (.ofText path) = .file text.toUTF8) :
    let source := sourceOfFile text
    let atInput : World := { world with input := source, interrupted := false }
    let ofFile := world.respond (.ofArguments ["run_file", path])
    let ofTokens := world.respond (.ofArguments ["tokens", path])
    let ofInput := atInput.respond (.ofArguments ["run", "-"])
    let ofText := world.respond (.ofArguments ["run", source])
    (path ≠ "run_prompt" → world.respond (.ofArguments [path]) = ofFile) ∧
    (ofInput.written = ofFile.written ∧ ofInput.ending.exitNumber? = some 0) ∧
    (source ≠ "-" → ofText.written = ofFile.written ∧ ofText.ending.exitNumber? = some 0) ∧
    ofFile.ending.exitNumber? = some (if ofFile.written.errors ≠ "" then 65 else 0) ∧
    (ofFile.written.output ≠ "" ↔ ofFile.ending.exitNumber? = some 0) ∧
    ofTokens.written.output =
      String.join ((scan source).tokens.map fun token => token.toText ++ "\n") ∧
    ofTokens.ending.exitNumber? = some (if (scan source).errors ≠ [] then 65 else 0) ∧
    (ofTokens.ending.exitNumber? = some 65 → ofFile.ending.exitNumber? = some 65) := by
  intro source atInput ofFile ofTokens ofInput ofText
  have file : ofFile = ⟨(Session.fresh.run source).written,
      if reports source = [] then .finished else .failed .dataError⟩ := respond_runFile found
  have listing : ofTokens = _ := respond_printTokens found
  have written : ofFile.written = (Session.fresh.run source).written := by rw [file]
  have fileNumber : ofFile.ending.exitNumber? = some (if reports source = [] then 0 else 65) := by
    rw [file]
    split <;> rfl
  have tokensNumber : ofTokens.ending.exitNumber? =
      some (if lexicalReports source = [] then 0 else 65) := by
    rw [listing]
    split <;> rfl
  have lexical : lexicalReports source = [] ↔ (scan source).errors = [] := List.map_eq_nil_iff
  -- Both files fail by what is reported, so their numbers are compared by the reports.
  refine ⟨fun other => ?alone, ⟨written.symm, rfl⟩, fun other => ?given, ?number, ?printed,
    ?listed, ?listedNumber, ?both⟩
  case alone =>
    have asked : Command.ofArguments [path] = .runFile path := if_neg other
    exact congrArg world.respond asked
  case given =>
    have asked : Command.ofArguments ["run", source] = .runText source := if_neg other
    have given : ofText = ⟨(Session.fresh.run source).written, .finished⟩ :=
      congrArg world.respond asked
    exact ⟨by rw [given, written], by rw [given]; rfl⟩
  case number =>
    rw [fileNumber, written, Session.errors_run]
    simp [Diagnostic.renderLines_eq_empty_iff]
  case printed =>
    rw [fileNumber, written, Session.output_run_fresh_ne_empty_iff]
    simp
  case listed => rw [listing]
  case listedNumber =>
    rw [tokensNumber]
    simp [lexical]
  case both =>
    rw [tokensNumber, fileNumber]
    simp +contextual [reports]

/-- A file with a carriage return before a line feed, a stray character on its second line,
and a group that is not closed. -/
theorem respond_to_file_unclosed :
    let text := "(1 +\r\n@2"
    let files : FileTree := ⟨[(["lox", "sum"], text.toUTF8)]⟩
    let world : World := ⟨files.look, "", false⟩
    let ofFile := world.respond (.ofArguments ["run_file", "lox/./sum"])
    let ofTokens := world.respond (.ofArguments ["tokens", "lox/./sum"])
    world.respond (.ofArguments ["lox/./sum"]) = ofFile ∧
      ofTokens.ending.exitNumber? = some 65 ∧ ofFile.ending.exitNumber? = some 65 := by
  intro text files world ofFile ofTokens
  have found : world.look (.ofText "lox/./sum") = .file text.toUTF8 := rfl
  obtain ⟨alone, -, -, -, -, -, listedNumber, both⟩ :=
    respond_to_file world "lox/./sum" text found
  have lexicalError : (scan (sourceOfFile text)).errors ≠ [] := by decide +kernel
  rw [if_pos lexicalError] at listedNumber
  exact ⟨alone (by decide), listedNumber, both listedNumber⟩

end World

end LoxFront
