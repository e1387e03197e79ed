/-
# Paths of source files

A path is kept and shown without the parts that lead nowhere: repeated slashes,
single dots and a slash at the end. Steps upwards are kept, because what they lead
to depends on the directories. A path with exactly two slashes in front is shown
with both, one with three or more with one of them. An empty path is a dot.
-/

import LoxFront.Console.Lines

namespace LoxFront

/-- A path: the slashes in front, and the names and steps upwards after them. -/
structure SourcePath where
  root : String
  parts : List String
  deriving DecidableEq

namespace SourcePath

/-- The path that a text names. -/
def ofText (text : String) : SourcePath :=
  let slashes := (text.toList.takeWhile (· == '/')).length
  let root := if slashes = 0 then "" else if slashes = 2 then "//" else "/"
  let parts := (fieldsBetween '/' text.toList).map String.ofList
  ⟨root, parts.filter fun part => part != "" && part != "."⟩

/-- The text under which a path is shown. -/
def toText (path : SourcePath) : String :=
  if path.root == "" && path.parts.isEmpty then "."
  else path.root ++ "/".intercalate path.parts

end SourcePath

end LoxFront
