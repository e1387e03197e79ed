/-
# Scanning goes on after a line break

A line break ends every piece but a string, and is a piece of its own. So where all
strings of a text are closed, what follows it after a line break is scanned as if it
stood alone, only further down. How the first text ends does not matter: with a comment,
with the point after a numeral, with half of a mark of two characters or inside a word.
-/

import LoxFront.Diagnostic
import LoxFront.Proofs.Source.Meaning
import LoxFront.Proofs.Source.Separated

namespace LoxFront

/-- The token some lines further down. -/
def Token.movedDown (lines : Nat) (token : Token) : Token :=
  { token with line := token.line + lines }

/-- The error some lines further down. -/
def ScanError.movedDown (lines : Nat) : ScanError → ScanError
  | .unexpectedCharacter line character => .unexpectedCharacter (line + lines) character
  | .unterminatedString line => .unterminatedString (line + lines)

/-- The diagnostic some lines further down. -/
def Diagnostic.movedDown (lines : Nat) (diagnostic : Diagnostic) : Diagnostic :=
  { diagnostic with line := diagnostic.line + lines }

theorem Diagnostic.ofScanError_movedDown (lines : Nat) (error : ScanError) :
    ofScanError (error.movedDown lines) = (ofScanError error).movedDown lines := by
  cases error <;> rfl

namespace Piece

variable {piece : Piece} {pieces : List Piece}

theorem token?_add (line lines : Nat) (piece : Piece) :
    piece.token? (line + lines) = (piece.token? line).map (Token.movedDown lines) := by
  simp [token?, Token.movedDown, Function.comp_def]

theorem error?_add (line lines : Nat) (piece : Piece) :
    piece.error? (line + lines) = (piece.error? line).map (ScanError.movedDown lines) := by
  unfold error?
  split <;> simp [ScanError.movedDown, Nat.add_right_comm _ lines]

/-- A row of pieces that begins further down means the same further down. -/
theorem tokens_add (line lines : Nat) (pieces : List Piece) :
    tokens (line + lines) pieces = (tokens line pieces).map (Token.movedDown lines) := by
  induction pieces generalizing line with
  | nil => rfl
  | cons piece pieces ih =>
      rw [tokens_cons, tokens_cons, List.map_append, ← Option.toList_map, token?_add,
        Nat.add_right_comm, ih]

theorem errors_add (line lines : Nat) (pieces : List Piece) :
    errors (line + lines) pieces = (errors line pieces).map (ScanError.movedDown lines) := by
  induction pieces generalizing line with
  | nil => rfl
  | cons piece pieces ih =>
      rw [errors_cons, errors_cons, List.map_append, ← Option.toList_map, error?_add,
        Nat.add_right_comm, ih]

/-- A string that is not closed is an error. -/
theorem exists_unterminatedString_mem_errors (member : piece ∈ pieces)
    (isOpen : piece.shape = .openString) (line : Nat) :
    ∃ last : Int, .unterminatedString last ∈ errors line pieces := by
  induction pieces generalizing line with
  | nil => exact absurd member List.not_mem_nil
  | cons front pieces ih =>
      rw [errors_cons]
      rcases List.mem_cons.mp member with rfl | later
      · refine ⟨(line + piece.breaks : Nat), List.mem_append_left _ ?_⟩
        rw [error?, isOpen]
        exact List.mem_singleton_self _
      · obtain ⟨last, found⟩ := ih later (line + front.breaks)
        exact ⟨last, List.mem_append_right _ found⟩

end Piece

/-- The pieces of a text whose strings are closed, a line break and the pieces of what
follows are the pieces of the whole. -/
theorem split_append_newline {first : String}
    (closed : ∀ line, .unterminatedString line ∉ (scan first).errors) (second : String) :
    Piece.split (first ++ "\n" ++ second).toList =
      Piece.split first.toList ++ ⟨.layout, '\n', []⟩ :: Piece.split second.toList := by
  have text : (first ++ "\n" ++ second).toList = first.toList ++ '\n' :: second.toList := by
    simp
  have isBlank : '\n' ∈ layoutCharacters := by decide
  have ends : ∀ piece ∈ Piece.split first.toList, piece.EndsBefore '\n' := by
    refine fun piece member => ⟨fun isOpen => ?_, fun _ => rfl⟩
    obtain ⟨line, found⟩ := Piece.exists_unterminatedString_mem_errors member isOpen 1
    rw [scan_eq_meaning] at closed
    exact closed line found
  rw [text, Piece.split_append_cons isBlank _ _ ends, Piece.split_blank_cons isBlank]

/-- What stands after a text and a line break is scanned as if it stood alone, on lines
that are further down by the lines of the text, unless the text ends inside a string. -/
theorem scan_append_newline (first second : String)
    (closed : ∀ line, .unterminatedString line ∉ (scan first).errors) :
    let lines := 1 + first.toList.count '\n'
    let whole := scan (first ++ "\n" ++ second)
    whole.tokens =
        (scan first).tokens.dropLast ++ (scan second).tokens.map (Token.movedDown lines) ∧
      whole.errors = (scan first).errors ++ (scan second).errors.map (ScanError.movedDown lines) ∧
      whole.errors.map Diagnostic.ofScanError =
        (scan first).errors.map Diagnostic.ofScanError ++
          ((scan second).errors.map Diagnostic.ofScanError).map (Diagnostic.movedDown lines) := by
  intro lines whole
  have pieces := split_append_newline closed second
  have below : 1 + first.toList.count '\n' + 1 = 1 + lines := Nat.add_comm _ 1
  have last : 1 + (first ++ "\n" ++ second).toList.count '\n' =
      1 + second.toList.count '\n' + lines := by
    simp [lines]
    omega
  have errors : whole.errors =
      (scan first).errors ++ (scan second).errors.map (ScanError.movedDown lines) := by
    simp only [whole, scan_eq_meaning]
    rw [pieces, Piece.errors_append, Piece.flatMap_text_split, Piece.errors_cons,
      ← Piece.errors_add, ← below]
    rfl
  refine ⟨?_, errors, ?_⟩
  · have ending : (⟨.eof, "", none, (1 + second.toList.count '\n' + lines : Nat)⟩ : Token) =
        Token.movedDown lines ⟨.eof, "", none, (1 + second.toList.count '\n' : Nat)⟩ := rfl
    simp only [whole, scan_eq_meaning]
    rw [pieces, last, ending, Piece.tokens_append, Piece.flatMap_text_split, Piece.tokens_cons,
      List.dropLast_concat, List.map_append, ← Piece.tokens_add, ← below, List.append_assoc]
    rfl
  · rw [errors, List.map_append, List.map_map, List.map_map]
    congr 1
    exact List.map_congr_left fun error _ => Diagnostic.ofScanError_movedDown lines error

/-- The first text ends with a comment in which there is a quote. The second one ends
inside a string, which is the last error, on the line after. -/
theorem scan_append_newline_comment :
    (∀ line, .unterminatedString line ∉ (scan "@ 10.// \"").errors) ∧
      (scan ("@ 10.// \"" ++ "\n" ++ "!\"a")).errors =
        [.unexpectedCharacter 1 "@", .unterminatedString 2] := by
  have first : (scan "@ 10.// \"").errors = [.unexpectedCharacter 1 "@"] := by decide +kernel
  have second : (scan "!\"a").errors = [.unterminatedString 1] := by decide +kernel
  have closed : ∀ line, .unterminatedString line ∉ (scan "@ 10.// \"").errors := by
    simp [first]
  have errors := (scan_append_newline _ "!\"a" closed).2.1
  rw [first, second] at errors
  exact ⟨closed, errors⟩

end LoxFront
