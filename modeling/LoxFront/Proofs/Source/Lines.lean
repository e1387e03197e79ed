/-
# Every line number is right

The line of a place in a text is one more than the number of line breaks before it.
A scan does not count from the beginning: it adds, after each piece, the line breaks in
it. The count is right wherever the scan stands, so that tokens, which are placed where
they begin, and errors, which are placed where the scan has arrived, both get the line of
their place. A stray character is never a line break, and an unclosed string ends with
the text.

Line numbers that count something in an ever longer part of the text cannot decrease,
neither among the tokens nor among the errors.
-/

import LoxFront.Proofs.Source.Scanning

namespace LoxFront

/-- The line of a place in a text. -/
def lineAt (source : List Char) (offset : Nat) : Nat :=
  1 + (source.take offset).count '\n'

theorem lineAt_add (source : List Char) (offset count : Nat) :
    lineAt source (offset + count) =
      lineAt source offset + ((source.drop offset).take count).count '\n' := by
  rw [lineAt, lineAt, List.take_add, List.count_append, Nat.add_assoc]

/-- What a lexeme adds is one thing at most, placed on the line where it begins or on the
line where it ends. -/
theorem Shape.Records.lines {shape : Shape} {text : List Char} {startLine line : Nat}
    {tokens : List Token} {errors : List ScanError}
    (records : shape.Records text startLine line tokens errors) :
    tokens.length ≤ 1 ∧ errors.length ≤ 1 ∧
      (∀ token ∈ tokens, token.lexeme = String.ofList text ∧ token.line = startLine) ∧
      ∀ error ∈ errors, error.line = line := by
  cases records <;> simp [ScanError.line]

/-- Lines up to which a text has been read do not decrease. -/
def LinesSorted (lines : List Int) (line : Nat) : Prop :=
  lines.Pairwise (· ≤ ·) ∧ ∀ earlier ∈ lines, earlier ≤ line

theorem LinesSorted.append {lines more : List Int} {line later : Nat}
    (sorted : LinesSorted lines line) (single : more.length ≤ 1)
    (within : ∀ new ∈ more, line ≤ new ∧ new ≤ later) (forward : line ≤ later) :
    LinesSorted (lines ++ more) later := by
  obtain ⟨pairwise, bounded⟩ := sorted
  refine ⟨List.pairwise_append.mpr ⟨pairwise, ?_, fun earlier old new member => ?_⟩, ?_⟩
  · match more, single with
    | [], _ => exact .nil
    | [new], _ => exact List.pairwise_singleton _ _
  · exact Int.le_trans (bounded earlier old) (within new member).1
  · intro earlier member
    rcases List.mem_append.mp member with old | new
    · exact Int.le_trans (bounded earlier old) (Int.ofNat_le.mpr forward)
    · exact (within earlier new).2

namespace SourceCursor

variable {before after : SourceCursor} {source : List Char}

/-- What has been found up to a cursor stands on lines that do not decrease. -/
def FindsSorted (cursor : SourceCursor) : Prop :=
  LinesSorted (cursor.tokens.toList.map Token.line) cursor.line ∧
    LinesSorted (cursor.errors.toList.map ScanError.line) cursor.line

namespace IsScanStep

/-- A step keeps the count of lines right. -/
theorem line_eq_lineAt (step : IsScanStep source before after)
    (counts : before.line = lineAt source before.position) :
    after.line = lineAt source after.position := by
  have span : after.span = (source.drop after.start).take after.span.length := by
    have extracted := step.span_eq
    rwa [List.extract_eq_take_drop, position, Nat.add_sub_cancel_left] at extracted
  calc after.line
      = lineAt source after.start + after.span.count '\n' := by
        rw [step.line_eq, counts, step.start_eq]
    _ = lineAt source (after.start + after.span.length) := by
        rw [lineAt_add, ← span]

theorem findsSorted (step : IsScanStep source before after) (sorted : FindsSorted before) :
    FindsSorted after := by
  obtain ⟨shape, tokens, errors, -, -, -, records, addsTokens, addsErrors⟩ := step.adds
  obtain ⟨oneToken, oneError, tokenLines, errorLines⟩ := records.lines
  have forward : before.line ≤ after.line := step.line_eq ▸ Nat.le_add_right _ _
  constructor
  · rw [addsTokens, List.map_append]
    refine sorted.1.append (by rwa [List.length_map]) (fun new member => ?_) forward
    obtain ⟨token, added, rfl⟩ := List.mem_map.mp member
    rw [(tokenLines token added).2, step.startLine_eq]
    exact ⟨Int.le_refl _, Int.ofNat_le.mpr forward⟩
  · rw [addsErrors, List.map_append]
    refine sorted.2.append (by rwa [List.length_map]) (fun new member => ?_) forward
    obtain ⟨error, added, rfl⟩ := List.mem_map.mp member
    rw [errorLines error added]
    exact ⟨Int.ofNat_le.mpr forward, Int.le_refl _⟩

end IsScanStep

/-- What is found between two cursors stands on the line of its place: a token where it
begins, a stray character where it is, and an unclosed string where the text ends. -/
def FindsOnLines (source : List Char) (before after : SourceCursor) : Prop :=
  ∃ tokens errors, after.tokens.toList = before.tokens.toList ++ tokens ∧
    after.errors.toList = before.errors.toList ++ errors ∧
    (∀ token ∈ tokens,
      token.lexeme.toList = source.extract after.start after.position ∧
        token.line = lineAt source after.start) ∧
    ∀ error ∈ errors,
      (∃ character, source[after.start]? = some character ∧
        error = .unexpectedCharacter (lineAt source after.start) (String.singleton character)) ∨
      error = .unterminatedString (lineAt source source.length)

theorem IsScanStep.findsOnLines (step : IsScanStep source before after)
    (counts : before.line = lineAt source before.position) :
    FindsOnLines source before after := by
  have line := step.line_eq_lineAt counts
  have startLine : after.startLine = lineAt source after.start := by
    rw [step.startLine_eq, counts, step.start_eq]
  obtain ⟨shape, tokens, errors, found, -, toEnd, records, addsTokens, addsErrors⟩ := step.adds
  refine ⟨tokens, errors, addsTokens, addsErrors, fun token added => ?_, fun error added => ?_⟩
  · obtain ⟨lexeme, tokenLine⟩ := records.lines.2.2.1 token added
    rw [lexeme, tokenLine, startLine, String.toList_ofList, ← step.span_eq]
    exact ⟨rfl, rfl⟩
  · cases records with
    | openString =>
        right
        rw [List.mem_singleton.mp added, line, toEnd rfl]
    | @stray character =>
        left
        obtain ⟨single, -, noOther, -⟩ := found.admits
        have noBreak : after.span.count '\n' = 0 := by
          rw [single, List.count_eq_zero, List.mem_singleton]
          rintro rfl
          exact absurd (by decide) noOther
        refine ⟨character, ?_, ?_⟩
        · obtain ⟨more, whole⟩ := found.isPrefix
          rw [single] at whole
          rw [← List.head?_drop, ← whole]
          rfl
        · rw [List.mem_singleton.mp added, step.line_eq, noBreak, ← step.startLine_eq, startLine]
          rfl
    | _ => cases added

end SourceCursor

open SourceCursor

/-- Wherever a scan stands, it has counted the lines up to there. What it finds on the
way is on the line of its place, the end of the input is on the last line, and neither
the lines of the tokens nor those of the errors decrease. -/
theorem scan_lines (source : String) :
    (∀ cursor ∈ ofText source :: (ofText source).trace,
      cursor.line = lineAt source.toList cursor.position) ∧
    (ofText source :: (ofText source).trace).IsChain (FindsOnLines source.toList) ∧
    (∃ last, (ofText source :: (ofText source).trace).getLast? = some last ∧
      scan source =
        ⟨last.tokens.toList ++ [⟨.eof, "", none, lineAt source.toList source.length⟩],
          last.errors.toList⟩) ∧
    ((scan source).tokens.map Token.line).Pairwise (· ≤ ·) ∧
    ((scan source).errors.map ScanError.line).Pairwise (· ≤ ·) := by
  have counts : ∀ cursor ∈ ofText source :: (ofText source).trace,
      cursor.line = lineAt source.toList cursor.position :=
    holds_of_step source rfl fun before after step counts => step.line_eq_lineAt counts
  have last := List.mem_of_getLast? (getLast?_cons_trace (ofText source))
  have lastLine : (ofText source).final.line = lineAt source.toList source.length := by
    rw [counts _ last, position_final]
  have sorted : FindsSorted (ofText source).final :=
    holds_of_step source ⟨⟨.nil, nofun⟩, ⟨.nil, nofun⟩⟩
      (fun before after step held => step.findsSorted held) _ last
  refine ⟨counts, ?_, ⟨_, getLast?_cons_trace _, ?_⟩, ?_, ?_⟩
  · exact (isChain_trace _ (standsIn_ofText source)).imp_of_mem_imp
      fun before after here _ step => step.findsOnLines (counts before here)
  · rw [scan_eq, lastLine]
  · rw [scan_eq, List.map_append, List.map_singleton, List.pairwise_append]
    refine ⟨sorted.1.1, List.pairwise_singleton _ _, fun line earlier last final => ?_⟩
    rw [List.mem_singleton.mp final]
    exact sorted.1.2 line earlier
  · rw [scan_eq]
    exact sorted.2.1

end LoxFront
