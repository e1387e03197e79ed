/-
# The front end on a text

The tokens of a scan meet what the reader of tokens asks for: the last of them ends the
input, and constants carry their values. So nothing is left that could go wrong in a
reading but the grammar. Every text is scanned to its end, and its tokens either give a
tree or are reported with one syntax error, whatever errors the scan has found.
-/

import LoxFront.Proofs.Parse.Placement
import LoxFront.Proofs.Parse.Whole
import LoxFront.Proofs.Source.Faultless

namespace LoxFront

open SourceCursor ParseM

/-- Every value that a kind asks for is there among the tokens of a scan. -/
theorem literal_ne_none_of_mem_scan {source : String} {token : Token}
    (member : token ∈ (scan source).tokens) (carries : token.kind.carriesLiteral = true) :
    token.literal ≠ none := by
  obtain ⟨before, line, whole, stand⟩ := exists_tokens_scan source
  rw [whole, List.mem_append, List.mem_singleton] at member
  rcases member with earlier | rfl
  · intro missing
    have sort := (stand token earlier).kind_literal
    rw [← TokenKind.isSome_valueKind?, ← sort, missing] at carries
    cases carries
  · cases carries

/-- From a cursor before a row of tokens that carry their values, a reading gives a tree
or a problem, and ends at one of the tokens. -/
theorem ParseM.run_readRule_cases {tokens : List Token} {start : TokenCursor}
    (opened : TokenCursor.ofTokens? tokens = some start)
    (literals : ∀ token ∈ tokens, token.kind.carriesLiteral = true → token.literal ≠ none)
    (limit : Option Int) (wanted : Rule) :
    ∃ next : TokenCursor, tokens[next.position]? = some next.peek ∧
      ((∃ expr, (readRule limit wanted).run start = .ok expr next) ∨
        ∃ error, (readRule limit wanted).run start = .error (.problem error) next) := by
  have isStart := TokenCursor.isStartOf_of_ofTokens? opened
  have reads : Reads limit (.rule wanted) start ((readRule limit wanted).run start) :=
    (run_readRule_eq_iff isStart.ends).mp rfl
  obtain ⟨read, passes⟩ := reads.passes
  refine ⟨_, (isStart.isPlaceIn.of_passes passes).getElem?_position, ?_⟩
  generalize (readRule limit wanted).run start = outcome at reads
  cases outcome with
  | ok expr next => exact .inl ⟨expr, rfl⟩
  | error failure stopped =>
      obtain ⟨error, rfl⟩ := reads.exists_problem (isStart.readable literals)
      exact .inr ⟨error, rfl⟩

/-- The tokens of a text either are an expression or have a problem. -/
theorem parse_scan_cases (source : String) :
    (∃ expr, parse (scan source).tokens = .ok (.ok expr)) ∨
      ∃ error, parse (scan source).tokens = .ok (.error error) := by
  obtain ⟨before, line, whole, -⟩ := exists_tokens_scan source
  obtain ⟨start, opened⟩ := TokenCursor.exists_ofTokens?
    (show (scan source).tokens.getLast? = _ by rw [whole, List.getLast?_concat]) rfl
  obtain ⟨next, -, ends⟩ := run_readRule_cases opened
    (fun _ => literal_ne_none_of_mem_scan) (some maxDepth) .start
  rcases ends with ⟨expr, result⟩ | ⟨error, result⟩
  · exact .inl ⟨expr, parse_eq_ok_of_run opened result⟩
  · exact .inr ⟨error, parse_eq_error_of_run opened result⟩

/-- On every text, the calls of a scan all succeed. The scan finds one token that ends the
input, the last and without characters, and each token carries a value of exactly the sort
that its kind asks for. A reading of these tokens stays among them and ends with a tree or
with one syntax error. -/
theorem scan_and_parse_meet_no_fault (source : String) :
    (∃ cursor, (ofText source).scanByCalls = (.ok (), cursor) ∧
      scan source = ⟨cursor.tokens.toList, cursor.errors.toList⟩) ∧
    (∃ before line, (scan source).tokens = before ++ [⟨.eof, "", none, line⟩] ∧
      ∀ token ∈ before, token.kind ≠ .eof) ∧
    (∀ token ∈ (scan source).tokens,
      token.literal.map Literal.kind = token.kind.valueKind?) ∧
    ∃ start next, TokenCursor.ofTokens? (scan source).tokens = some start ∧
      (scan source).tokens[next.position]? = some next.peek ∧
      ((∃ expr, (readRule (some maxDepth) .start).run start = .ok expr next ∧
          parse (scan source).tokens = .ok (.ok expr)) ∨
        ∃ error, (readRule (some maxDepth) .start).run start = .error (.problem error) next ∧
          parse (scan source).tokens = .ok (.error error)) := by
  obtain ⟨before, line, whole, stand⟩ := exists_tokens_scan source
  refine ⟨⟨_, scanByCalls_eq _, rfl⟩, ⟨before, line, whole, fun token member =>
    (stand token member).kind_ne_eof⟩, ?_, ?_⟩
  · rw [whole]
    refine List.forall_mem_append.mpr ⟨fun token member => (stand token member).kind_literal, ?_⟩
    exact List.forall_mem_singleton.mpr rfl
  · obtain ⟨start, opened⟩ := TokenCursor.exists_ofTokens?
      (show (scan source).tokens.getLast? = _ by rw [whole, List.getLast?_concat]) rfl
    have isStart := TokenCursor.isStartOf_of_ofTokens? opened
    have same : { start with allowance := none } = start := by
      rw [← isStart.unlimited]
    obtain ⟨next, here, ends⟩ := run_readRule_cases opened
      (fun _ => literal_ne_none_of_mem_scan) (some maxDepth) .start
    refine ⟨start, next, opened, here, ?_⟩
    rcases ends with ⟨expr, result⟩ | ⟨error, result⟩
    · exact .inl ⟨expr, result, by simp only [parse, parseWithin, opened, same, result]⟩
    · exact .inr ⟨error, result, by simp only [parse, parseWithin, opened, same, result]⟩

end LoxFront
