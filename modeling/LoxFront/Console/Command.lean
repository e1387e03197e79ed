/-
# The command line

The arguments name a command, and the command is carried out against a world: the
files, the standard input, and whether the user breaks off where the input would
end. The outcome is what is written and how the program ends.

A text given on the command line or on the standard input is run as it is, and the
program ends well whatever is wrong with the text. A file is read as UTF-8, all its
line ends are made alike, and the exit code tells whether anything was wrong. At
the prompt every line is a text of its own, and an error in one line is forgotten
before the next.
-/

import LoxFront.Console.FileTree
import LoxFront.Session

namespace LoxFront

/-- What the arguments ask for. -/
inductive Command where
  /-- Read expressions line by line. -/
  | prompt
  /-- Run a text. -/
  | runText (source : String)
  /-- Run the whole standard input. -/
  | runInput
  /-- Run a file. -/
  | runFile (path : String)
  /-- Print the tokens of a file. -/
  | printTokens (path : String)
  /-- Two arguments of which the first is no command. -/
  | unrecognized (name : String)
  /-- More arguments than any command has. -/
  | tooManyArguments
  deriving DecidableEq

/-- The codes with which the program ends if something went wrong. -/
inductive ExitCode where
  | usage | dataError | noInput
  deriving DecidableEq

namespace ExitCode

/-- All exit codes, in the order of their numbers. -/
def all : List ExitCode := [.usage, .dataError, .noInput]

/-- The name of an exit code. -/
def name : ExitCode → String
  | .usage => "USAGE"
  | .dataError => "DATA_ERROR"
  | .noInput => "NO_INPUT"

/-- The number of an exit code. -/
def number : ExitCode → Nat
  | .usage => 64
  | .dataError => 65
  | .noInput => 66

end ExitCode

/-- How the program ends. -/
inductive Ending where
  /-- All went well. -/
  | finished
  /-- It ends with an exit code. -/
  | failed (code : ExitCode)
  /-- It breaks off because the path of a file leads to a directory. -/
  | brokenByDirectory
  /-- It breaks off because the contents of a file are not UTF-8. -/
  | brokenByEncoding
  /-- It breaks off because the path of a file is too long to be followed. -/
  | brokenByLength
  deriving DecidableEq

namespace Ending

/-- The number that the program gives back, unless it breaks off. -/
def exitNumber? : Ending → Option Nat
  | .finished => some 0
  | .failed code => some code.number
  | .brokenByDirectory => none
  | .brokenByEncoding => none
  | .brokenByLength => none

end Ending

/-- What the program wrote and how it ended. -/
structure Outcome where
  written : Transcript
  ending : Ending
  deriving DecidableEq

/-- What the program can see of its surroundings. -/
structure World where
  look : SourcePath → Reading
  input : String := ""
  interrupted : Bool := false

namespace Command

/-- The command that the arguments after the name of the program ask for. -/
def ofArguments : List String → Command
  | [] => .prompt
  | [argument] => if argument = "run_prompt" then .prompt else .runFile argument
  | [name, argument] =>
    if name = "run" then if argument = "-" then .runInput else .runText argument
    else if name = "run_file" then .runFile argument
    else if name = "tokens" then .printTokens argument
    else .unrecognized name
  | _ => .tooManyArguments

/-- The path that the command reads from, if it reads from one. -/
def path? : Command → Option SourcePath
  | .runFile path => some (.ofText path)
  | .printTokens path => some (.ofText path)
  | _ => none

end Command

/-- The source text that the contents of a file hold, if they are UTF-8. -/
def decodeSource (contents : ByteArray) : Option String :=
  (String.fromUTF8? contents).map fun text => String.ofList (unifyLineEnds text.toList)

namespace Session

/-- Run a line at the prompt and forget its errors. An empty line ends the prompt
instead. -/
def promptLine (session : Session) (line : String) : Option (Transcript × Session) :=
  if line = "" then none
  else
    let step := session.run line
    some (step.written, step.session.reset)

/-- Read lines from the input at the prompt until one is empty or there are no more of
them. The mark is written before each attempt to read. -/
def prompt (session : Session) (input : List Char) : Transcript :=
  match _reads : nextLine? input with
  | none => { output := "> " }
  | some (line, rest) =>
    match session.promptLine (String.ofList line) with
    | none => { output := "> " }
    | some (written, next) => { output := "> " } ++ written ++ next.prompt rest
termination_by input.length
decreasing_by exact length_of_nextLine? ‹_›

end Session

namespace World

/-- Read the source text at a path and go on with it. -/
def withSource (world : World) (path : String) (use : String → Outcome) : Outcome :=
  let path := SourcePath.ofText path
  match world.look path with
  | .missing => ⟨{ errors := "File at " ++ path.toText ++ " not found\n" }, .failed .noInput⟩
  | .directory => ⟨{}, .brokenByDirectory⟩
  | .tooLong => ⟨{}, .brokenByLength⟩
  | .file contents =>
    match decodeSource contents with
    | none => ⟨{}, .brokenByEncoding⟩
    | some source => use source

/-- Carry out a command. -/
def respond (world : World) : Command → Outcome
  | .prompt => ⟨Session.fresh.prompt world.input.toList, .finished⟩
  | .runText source => ⟨(Session.fresh.run source).written, .finished⟩
  | .runInput =>
    if world.interrupted then ⟨{}, .finished⟩
    else ⟨(Session.fresh.run world.input).written, .finished⟩
  | .runFile path =>
    world.withSource path fun source =>
      let step := Session.fresh.run source
      ⟨step.written, if step.session.hadError then .failed .dataError else .finished⟩
  | .printTokens path =>
    world.withSource path fun source =>
      let step := Session.fresh.printTokens source
      ⟨step.written, if step.value then .finished else .failed .dataError⟩
  | .unrecognized name =>
    ⟨{ errors := "unrecognized command: " ++ name ++ "\n" }, .failed .noInput⟩
  | .tooManyArguments =>
    ⟨{ output := "Usage: loxi [command] [script]\n" }, .failed .usage⟩

end World

end LoxFront
