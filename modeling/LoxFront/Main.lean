/-
# The program

The program finds out what its command needs from the world, lets the command be
carried out, and writes what came of it. At the prompt it reads and answers line
by line.
-/

import LoxFront.Console.Command

namespace LoxFront

/-- Write a transcript. -/
def write (written : Transcript) : IO Unit := do
  let output ← IO.getStdout
  output.putStr written.output
  output.flush
  (← IO.getStderr).putStr written.errors

/-- What is found at a path on the disk. A path that is too long is refused as an
argument. A directory can be opened, but nothing can be read from it. -/
def lookOnDisk (path : SourcePath) : IO Reading := do
  match ← (IO.FS.Handle.mk path.toText .read).toBaseIO with
  | .error (.invalidArgument _ _ _) => return .tooLong
  | .error _ => return .missing
  | .ok handle =>
    match ← handle.readBinToEnd.toBaseIO with
    | .error _ => return .directory
    | .ok contents => return .file contents

/-- Read and answer lines at the prompt. -/
partial def converse (session : Session) : IO Unit := do
  write { output := "> " }
  let line ← (← IO.getStdin).getLine
  match nextLine? line.toList with
  | none => pure ()
  | some (line, _) =>
    match session.promptLine (String.ofList line) with
    | none => pure ()
    | some (written, next) =>
      write written
      converse next

/-- The text of the whole standard input. -/
def readInput : IO String := do
  return (← (← IO.getStdin).readToEnd)

/-- Carry out a command and give the number that the program gives back. -/
def execute (command : Command) : IO UInt32 := do
  let reading ← match command.path? with
    | some path => lookOnDisk path
    | none => pure .missing
  let input ← if command = .runInput then readInput else pure ""
  let outcome := World.respond { look := fun _ => reading, input } command
  write outcome.written
  match outcome.ending.exitNumber? with
  | some number => return number.toUInt32
  | none =>
    (← IO.getStderr).putStr "The source file cannot be read.\n"
    return 1

end LoxFront

/-- The entry of the program. -/
def main (arguments : List String) : IO UInt32 := do
  match LoxFront.Command.ofArguments arguments with
  | .prompt =>
    LoxFront.converse LoxFront.Session.fresh
    return 0
  | command => LoxFront.execute command
