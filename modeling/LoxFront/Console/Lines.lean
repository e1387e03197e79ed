/-
# Lines and fields

Text is cut at every occurrence of a separator, so that one separator makes two
fields and an empty text is one empty field. Lines are read one after another from
what is left of a text. Line ends come in three spellings; in files all of them mean
the same.
-/

namespace LoxFront

/-- The fields of a text between the occurrences of a separator. -/
def fieldsBetween (separator : Char) : List Char → List (List Char)
  | [] => [[]]
  | c :: rest =>
    match fieldsBetween separator rest with
    | [] => [[c]]
    | field :: fields =>
      if c = separator then [] :: field :: fields else (c :: field) :: fields

/-- The next line of a text and what follows it, unless nothing is left. Only a line
feed ends a line, and at the end of the text a line needs none. -/
def nextLine? : List Char → Option (List Char × List Char)
  | [] => none
  | c :: rest =>
    let text := c :: rest
    some (text.takeWhile (· != '\n'), (text.dropWhile (· != '\n')).drop 1)

theorem length_of_nextLine? {text line rest : List Char}
    (reads : nextLine? text = some (line, rest)) : rest.length < text.length := by
  cases text with
  | nil => cases reads
  | cons c others =>
      cases reads
      have kept : ((c :: others).dropWhile (· != '\n')).length ≤ (c :: others).length :=
        (List.dropWhile_sublist _).length_le
      simp only [List.length_drop, List.length_cons] at kept ⊢
      omega

/-- The text with every carriage return, alone or before a line feed, replaced by
one line feed. -/
def unifyLineEnds : List Char → List Char
  | [] => []
  | '\r' :: '\n' :: rest => '\n' :: unifyLineEnds rest
  | '\r' :: rest => '\n' :: unifyLineEnds rest
  | c :: rest => c :: unifyLineEnds rest

end LoxFront
