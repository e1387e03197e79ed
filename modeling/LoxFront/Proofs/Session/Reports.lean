/-
# What a session reports and prints

A call on a session reports some diagnostics, and which ones does not depend on what
happened in the session before. What the session remembers is whether there were any
since it was last reset, and all that depends on this memory is whether a tree is
printed and whether a call answers that all is well.

So each step is described by the diagnostics of its call and by one bit of the past.
The equations for single steps come first, then what a row of calls leaves, and last
every step of every row.
-/

import Mathlib.Data.List.DropRight
import LoxFront.Proofs.FrontEnd
import LoxFront.Session

namespace LoxFront

/-- Some diagnostics as the user sees them, each on a line of its own. -/
def Diagnostic.renderLines (diagnostics : List Diagnostic) : String :=
  String.join (diagnostics.map fun diagnostic => diagnostic.render ++ "\n")

/-- Every diagnostic takes a line. -/
theorem Diagnostic.renderLines_eq_empty_iff (diagnostics : List Diagnostic) :
    renderLines diagnostics = "" ↔ diagnostics = [] := by
  cases diagnostics with
  | nil => simp [renderLines]
  | cons diagnostic diagnostics => simp [renderLines, String.append_eq_empty_iff]

/-- The diagnostics of the lexemes of a text. -/
def lexicalReports (source : String) : List Diagnostic :=
  (scan source).errors.map Diagnostic.ofScanError

/-- The diagnostics of the grammar of a text. Its tokens are read even if there were
errors among its lexemes. -/
def grammarReports (source : String) : List Diagnostic :=
  match parse (scan source).tokens with
  | .ok (.error error) => [Diagnostic.ofSyntaxError error]
  | .ok (.ok _) | .error _ => []

/-- The diagnostics of a text. -/
def reports (source : String) : List Diagnostic :=
  lexicalReports source ++ grammarReports source

namespace SessionCall

/-- The diagnostics that a call reports, in their order. -/
def reports : SessionCall → List Diagnostic
  | .run source => LoxFront.reports source
  | .printTokens source | .scan source => lexicalReports source
  | .reset => []
  | .report diagnostic => [diagnostic]
  | .reportAll diagnostics => diagnostics

/-- The calls after the last reset among some calls. -/
def sinceReset (calls : List SessionCall) : List SessionCall :=
  calls.rtakeWhile (· ≠ .reset)

end SessionCall

section Reports

variable {source : String} {expr : Expr} {error : SyntaxError}

theorem grammarReports_of_tree (reads : parse (scan source).tokens = .ok (.ok expr)) :
    grammarReports source = [] := by
  rw [grammarReports, reads]

theorem grammarReports_of_error (fails : parse (scan source).tokens = .ok (.error error)) :
    grammarReports source = [Diagnostic.ofSyntaxError error] := by
  rw [grammarReports, fails]

/-- A text about which nothing is reported is an expression. -/
theorem exists_tree_of_reports_eq_nil (silent : reports source = []) :
    ∃ expr, parse (scan source).tokens = .ok (.ok expr) := by
  rcases parse_scan_cases source with reads | ⟨error, fails⟩
  · exact reads
  · rw [reports, grammarReports_of_error fails] at silent
    exact absurd silent (List.append_ne_nil_of_right_ne_nil _ (List.cons_ne_nil _ _))

end Reports

namespace Session

variable {session : Session} {source : String}

/-! ## Single steps -/

/-- Reporting writes the diagnostics line by line, and the session remembers that there
were some. -/
theorem reportAll_eq (session : Session) (diagnostics : List Diagnostic) :
    session.reportAll diagnostics =
      ⟨(), { errors := Diagnostic.renderLines diagnostics },
        ⟨session.hadError || !diagnostics.isEmpty⟩⟩ := by
  induction diagnostics generalizing session with
  | nil => simp [reportAll, Diagnostic.renderLines]
  | cons diagnostic diagnostics ih =>
      rw [reportAll, ih]
      simp [report, Diagnostic.renderLines]

theorem scanText_eq (session : Session) (source : String) :
    session.scanText source =
      ⟨(scan source).tokens, { errors := Diagnostic.renderLines (lexicalReports source) },
        ⟨session.hadError || !(lexicalReports source).isEmpty⟩⟩ := by
  rw [scanText, reportAll_eq]
  rfl

/-- A text is listed whatever has been reported. -/
theorem printTokens_eq (session : Session) (source : String) :
    session.printTokens source =
      ⟨!(session.hadError || !(lexicalReports source).isEmpty),
        { output := String.join ((scan source).tokens.map fun token => token.toText ++ "\n")
          errors := Diagnostic.renderLines (lexicalReports source) },
        ⟨session.hadError || !(lexicalReports source).isEmpty⟩⟩ := by
  rw [printTokens, scanText_eq]
  simp

/-- In a session without errors, a text about which nothing is reported is printed. -/
theorem run_of_clean (unreported : session.hadError = false) (silent : reports source = []) :
    ∃ expr, parse (scan source).tokens = .ok (.ok expr) ∧
      session.run source = ⟨true, { output := expr.print ++ "\n" }, ⟨false⟩⟩ := by
  obtain ⟨expr, reads⟩ := exists_tree_of_reports_eq_nil silent
  have faultless : lexicalReports source = [] := (List.append_eq_nil_iff.mp silent).1
  refine ⟨expr, reads, ?_⟩
  rw [run, scanText_eq]
  simp [reads, unreported, faultless, Diagnostic.renderLines]

/-- On its own, an expression without errors among its lexemes is printed. -/
theorem run_fresh_of_tree {expr : Expr} (faultless : (scan source).errors = [])
    (reads : parse (scan source).tokens = .ok (.ok expr)) :
    fresh.run source = ⟨true, { output := expr.print ++ "\n" }, fresh⟩ := by
  have silent : reports source = [] := by
    rw [reports, lexicalReports, faultless, grammarReports_of_tree reads]
    rfl
  obtain ⟨printed, same, result⟩ := run_of_clean (show fresh.hadError = false from rfl) silent
  rw [reads] at same
  cases same
  exact result

/-- Otherwise nothing is printed, and the session has errors from then on. -/
theorem run_of_not_clean (unclean : ¬ (session.hadError = false ∧ reports source = [])) :
    session.run source =
      ⟨false, { errors := Diagnostic.renderLines (reports source) }, ⟨true⟩⟩ := by
  rw [run, scanText_eq]
  rcases parse_scan_cases source with ⟨expr, reads⟩ | ⟨error, fails⟩
  · -- The tree is not printed, because of the lexemes of this text or because of the past.
    have only : reports source = lexicalReports source := by
      rw [reports, grammarReports_of_tree reads, List.append_nil]
    have reported : (session.hadError || !(lexicalReports source).isEmpty) = true := by
      rw [← only]
      cases before : session.hadError <;> simp_all
    simp only [reads, reported, only, if_true]
  · simp [fails, reports, grammarReports_of_error fails, report, Diagnostic.renderLines]

/-! ## Rows of calls -/

/-- Whatever the session, a call writes what it reports. -/
theorem errors_perform (session : Session) (call : SessionCall) :
    (session.perform call).written.errors = Diagnostic.renderLines call.reports := by
  cases call with
  | run source =>
      by_cases clean : session.hadError = false ∧ reports source = []
      · obtain ⟨expr, -, result⟩ := run_of_clean clean.1 clean.2
        simp [perform, Step.reply, SessionCall.reports, result, clean.2, Diagnostic.renderLines]
      · simp [perform, Step.reply, SessionCall.reports, run_of_not_clean clean]
  | printTokens source => simp [perform, Step.reply, SessionCall.reports, printTokens_eq]
  | scan source => simp [perform, Step.reply, SessionCall.reports, scanText_eq]
  | reset => rfl
  | report diagnostic =>
      simp [perform, Step.reply, SessionCall.reports, report, Diagnostic.renderLines]
  | reportAll diagnostics => simp [perform, Step.reply, SessionCall.reports, reportAll_eq]

/-- After a call the session has errors if it had any before or the call reported some,
unless the call was a reset. -/
theorem hadError_perform (session : Session) (call : SessionCall) :
    (session.perform call).session.hadError = true ↔
      call ≠ .reset ∧ (session.hadError = true ∨ call.reports ≠ []) := by
  cases call with
  | run source =>
      by_cases clean : session.hadError = false ∧ reports source = []
      · obtain ⟨expr, -, result⟩ := run_of_clean clean.1 clean.2
        simp [perform, Step.reply, SessionCall.reports, result, clean]
      · have reported : session.hadError = true ∨ reports source ≠ [] := by
          rwa [not_and_or, Bool.not_eq_false] at clean
        simp [perform, Step.reply, SessionCall.reports, run_of_not_clean clean, reported]
  | printTokens source => simp [perform, Step.reply, SessionCall.reports, printTokens_eq]
  | scan source => simp [perform, Step.reply, SessionCall.reports, scanText_eq]
  | reset => simp [perform, reset, fresh]
  | report diagnostic => simp [perform, Step.reply, SessionCall.reports, report]
  | reportAll diagnostics => simp [perform, Step.reply, SessionCall.reports, reportAll_eq]

theorem errors_run (session : Session) (source : String) :
    (session.run source).written.errors = Diagnostic.renderLines (reports source) :=
  errors_perform session (.run source)

/-- After a text alone the session has errors if some were reported. -/
theorem hadError_run_fresh (source : String) :
    (fresh.run source).session.hadError = true ↔ reports source ≠ [] := by
  have after := hadError_perform fresh (.run source)
  simpa [perform, Step.reply, SessionCall.reports, fresh] using after

/-- A text alone is printed if nothing is reported. -/
theorem output_run_fresh_ne_empty_iff (source : String) :
    (fresh.run source).written.output ≠ "" ↔ reports source = [] := by
  by_cases silent : reports source = []
  · obtain ⟨expr, -, result⟩ := run_of_clean (show fresh.hadError = false from rfl) silent
    simp [result, silent, String.append_eq_empty_iff]
  · have unclean : ¬ (fresh.hadError = false ∧ reports source = []) := fun clean => silent clean.2
    simp [run_of_not_clean unclean, silent]

theorem performAll_concat (session : Session) (calls : List SessionCall) (call : SessionCall) :
    session.performAll (calls ++ [call]) =
      ((session.performAll calls).perform call).session := by
  rw [performAll, performAll, List.foldl_append]
  rfl

theorem sinceReset_concat (calls : List SessionCall) (call : SessionCall) :
    SessionCall.sinceReset (calls ++ [call]) =
      if call = .reset then [] else SessionCall.sinceReset calls ++ [call] := by
  rw [SessionCall.sinceReset, List.rtakeWhile_concat]
  by_cases isReset : call = .reset
  · simp [isReset]
  · simp [isReset, SessionCall.sinceReset]

/-- A session has errors if a call after the last reset reported some. -/
theorem hadError_performAll_iff (calls : List SessionCall) :
    (fresh.performAll calls).hadError = true ↔
      ∃ call ∈ SessionCall.sinceReset calls, call.reports ≠ [] := by
  induction calls using List.reverseRecOn with
  | nil => simp [performAll, fresh, SessionCall.sinceReset]
  | append_singleton calls call ih =>
      rw [performAll_concat, hadError_perform, ih, sinceReset_concat]
      by_cases isReset : call = .reset
      · simp [isReset]
      · simp [isReset, or_and_right, exists_or]

/-- After every row of calls on a new session, and for every next call: the session has
errors if diagnostics were reported since the last reset; what the call writes for the
errors is what it reports, line by line; a text is printed and the answer is yes if the
session had no errors and the text has none, and neither is so otherwise; tokens are
listed in any case, and the answer is yes if neither the session nor the scan has errors;
no other call prints anything. -/
theorem perform_after_calls (calls : List SessionCall) (call : SessionCall) :
    let session := fresh.performAll calls
    let step := session.perform call
    (step.session.hadError = true ↔
      ∃ earlier ∈ SessionCall.sinceReset (calls ++ [call]), earlier.reports ≠ []) ∧
    step.written.errors = Diagnostic.renderLines call.reports ∧
    match call with
    | .run source =>
      if session.hadError = false ∧ lexicalReports source = [] ∧ grammarReports source = [] then
        ∃ expr, parse (scan source).tokens = .ok (.ok expr) ∧
          step.written.output = expr.print ++ "\n" ∧ step.value = .flag true
      else step.written.output = "" ∧ step.value = .flag false
    | .printTokens source =>
      step.written.output =
          String.join ((scan source).tokens.map fun token => token.toText ++ "\n") ∧
        step.value = .flag (!session.hadError && (lexicalReports source).isEmpty)
    | .scan _ | .reset | .report _ | .reportAll _ => step.written.output = "" := by
  intro session step
  refine ⟨?_, errors_perform session call, ?_⟩
  · rw [← hadError_performAll_iff, performAll_concat]
  · cases call with
    | run source =>
        have silent_iff : reports source = [] ↔
            lexicalReports source = [] ∧ grammarReports source = [] := List.append_eq_nil_iff
        dsimp only
        split
        · next clean =>
          rw [← silent_iff] at clean
          obtain ⟨expr, reads, result⟩ := run_of_clean clean.1 clean.2
          exact ⟨expr, reads, by simp [step, perform, Step.reply, result]⟩
        · next unclean =>
          rw [← silent_iff] at unclean
          simp [step, perform, Step.reply, run_of_not_clean unclean]
    | printTokens source => simp [step, perform, Step.reply, printTokens_eq]
    | scan source => simp [step, perform, Step.reply, scanText_eq]
    | reset | report diagnostic => rfl
    | reportAll diagnostics => simp [step, perform, Step.reply, reportAll_eq]

end Session

end LoxFront
