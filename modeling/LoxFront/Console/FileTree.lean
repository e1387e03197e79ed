/-
# Files and directories

What a path leads to is a file with its contents, a directory, or nothing. A path
that is too long, or one that has too long a name looked up, cannot be followed at
all. Names and paths are measured in bytes.

A file tree is a working directory given by its files; the directories in it are
those that the paths of the files go through. Of the world around it only the
directories above are known. A path that names anything there leads to nothing.
-/

import LoxFront.Console.Path

namespace LoxFront

/-- What is found at a path. -/
inductive Reading where
  | missing
  | directory
  | file (contents : ByteArray)
  | tooLong

/-- The files of a working directory, each with its parts from there. -/
structure FileTree where
  files : List (List String × ByteArray)

namespace FileTree

/-- A place that a path leads to: below the working directory, or so many steps
above it. -/
inductive Place where
  | below (parts : List String)
  | above (levels : Nat)
  deriving DecidableEq

/-- What is at the given parts from the working directory. -/
def contents (tree : FileTree) (parts : List String) : Reading :=
  match tree.files.lookup parts with
  | some bytes => .file bytes
  | none =>
    if parts.isEmpty || tree.files.any (fun file => parts.isPrefixOf file.1) then .directory
    else .missing

/-- The greatest length of a name, in bytes. -/
def maxNameLength : Nat := 255

/-- The greatest length of a path, in bytes. -/
def maxPathLength : Nat := 4095

/-- Look up one part of a path in a directory. -/
def enter (place : Place) (part : String) : Except Reading Place :=
  if maxNameLength < part.utf8ByteSize then .error .tooLong
  else
    match place with
    | .above levels => if part = ".." then .ok (.above (levels + 1)) else .error .missing
    | .below parts =>
      if part = ".." then
        if parts.isEmpty then .ok (.above 1) else .ok (.below parts.dropLast)
      else .ok (.below (parts ++ [part]))

/-- Follow one part of a path. Only directories have anything below or above
them. -/
def follow (tree : FileTree) (place : Place) (part : String) : Except Reading Place :=
  match place with
  | .above levels => enter (.above levels) part
  | .below parts =>
    match tree.contents parts with
    | .directory => enter (.below parts) part
    | _ => .error .missing

/-- What a path leads to. The top of all directories counts as a place above the
working directory. A path with a null character leads to nothing. -/
def look (tree : FileTree) (path : SourcePath) : Reading :=
  let text := path.toText
  if '\x00' ∈ text.toList then .missing
  else if maxPathLength < text.utf8ByteSize then .tooLong
  else
    let start := if path.root = "" then Place.below [] else Place.above 1
    match path.parts.foldlM tree.follow start with
    | .error reading => reading
    | .ok (.above _) => .directory
    | .ok (.below parts) => tree.contents parts

end FileTree

end LoxFront
