/-
# A session

A session runs source texts one after another, writes what they print, and
reports what is wrong with them. It remembers that something was reported until
it is reset: as long as it does, no tree is printed, not even of a good text.

Each step gives back what it wrote to the two outputs, so that the writing of a
row of steps is put together from the steps.
-/

import LoxFront.Diagnostic
import LoxFront.Expr.Printed
import LoxFront.Parse.Descent
import LoxFront.Source.Cursor

namespace LoxFront

/-- What is written to the standard output and to the output for errors. -/
structure Transcript where
  output : String := ""
  errors : String := ""
  deriving DecidableEq

namespace Transcript

/-- First one transcript, then another, on each of the two outputs. -/
def append (first second : Transcript) : Transcript :=
  ⟨first.output ++ second.output, first.errors ++ second.errors⟩

instance : Append Transcript := ⟨append⟩

@[simp]
theorem append_eq (first second : Transcript) :
    first ++ second = ⟨first.output ++ second.output, first.errors ++ second.errors⟩ := rfl

end Transcript

/-- The state of a session: whether an error has been reported since it was
opened or reset. -/
structure Session where
  hadError : Bool := false
  deriving DecidableEq

/-- A step of a session: its value, what it wrote, and the session after it. -/
structure Step (α : Type) where
  value : α
  written : Transcript
  session : Session
  deriving DecidableEq

namespace Session

/-- A session in which nothing has been reported. -/
def fresh : Session := {}

/-- Forget what has been reported. -/
def reset (_session : Session) : Session := fresh

/-- Report a diagnostic on a line of its own. -/
def report (_session : Session) (diagnostic : Diagnostic) : Step Unit :=
  ⟨(), { errors := diagnostic.render ++ "\n" }, ⟨true⟩⟩

/-- Report some diagnostics in order. -/
def reportAll (session : Session) : List Diagnostic → Step Unit
  | [] => ⟨(), {}, session⟩
  | diagnostic :: diagnostics =>
    let first := session.report diagnostic
    let others := first.session.reportAll diagnostics
    ⟨(), first.written ++ others.written, others.session⟩

/-- Scan a text and report the errors found in it. The value is the tokens. -/
def scanText (session : Session) (source : String) : Step (List Token) :=
  let found := scan source
  let reported := session.reportAll (found.errors.map Diagnostic.ofScanError)
  ⟨found.tokens, reported.written, reported.session⟩

/-- Scan a text and print its tokens, one on each line. The value says whether
nothing has been reported, in this step or before. -/
def printTokens (session : Session) (source : String) : Step Bool :=
  let scanned := session.scanText source
  let listing := String.join (scanned.value.map fun token => token.toText ++ "\n")
  ⟨!scanned.session.hadError, scanned.written ++ { output := listing }, scanned.session⟩

/-- Run a text: scan it, read an expression from its tokens even if there were
errors, report all that is wrong, and print the tree if nothing has been
reported, in this step or before. The value says whether it was printed. -/
def run (session : Session) (source : String) : Step Bool :=
  let scanned := session.scanText source
  match parse scanned.value with
  | .ok (.ok expr) =>
    if scanned.session.hadError then ⟨false, scanned.written, scanned.session⟩
    else ⟨true, scanned.written ++ { output := expr.print ++ "\n" }, scanned.session⟩
  | .ok (.error error) =>
    let reported := scanned.session.report (Diagnostic.ofSyntaxError error)
    ⟨false, scanned.written ++ reported.written, reported.session⟩
  | .error _ => ⟨false, scanned.written, scanned.session⟩

end Session

/-- A call on a session. -/
inductive SessionCall where
  | run (source : String)
  | printTokens (source : String)
  | scan (source : String)
  | reset
  | report (diagnostic : Diagnostic)
  | reportAll (diagnostics : List Diagnostic)
  deriving DecidableEq

/-- What a call on a session answers. -/
inductive SessionReply where
  | nothing
  | flag (value : Bool)
  | tokens (value : List Token)
  deriving DecidableEq

namespace Step

/-- The step with its value turned into an answer. -/
def reply {α : Type} (step : Step α) (answer : α → SessionReply) : Step SessionReply :=
  ⟨answer step.value, step.written, step.session⟩

end Step

namespace Session

/-- Perform a call. -/
def perform (session : Session) : SessionCall → Step SessionReply
  | .run source => (session.run source).reply .flag
  | .printTokens source => (session.printTokens source).reply .flag
  | .scan source => (session.scanText source).reply .tokens
  | .reset => ⟨.nothing, {}, session.reset⟩
  | .report diagnostic => (session.report diagnostic).reply fun _ => .nothing
  | .reportAll diagnostics => (session.reportAll diagnostics).reply fun _ => .nothing

/-- The session after a row of calls. -/
def performAll (session : Session) (calls : List SessionCall) : Session :=
  calls.foldl (fun session call => (session.perform call).session) session

end Session

end LoxFront
