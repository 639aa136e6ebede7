import Concord.Artifact.Path
import Concord.Files.Lookup

/-!
# Trees of files

A `FileTree` holds the files below a working directory, and below the directories around it.  The
places of the files are given by the parts of their paths, behind the number of directories that
one has to go up from the working directory.  Directories are there as far as files need them.
-/

set_option autoImplicit false

namespace Concord.Files

/-- A place below the working directory or below one of the directories around it. -/
structure Place where
  up : Nat
  parts : List (List Char)
deriving DecidableEq, Repr, Inhabited

/-- The working directory. -/
def Place.here : Place := ⟨0, []⟩

/-- The directory around a place. -/
def Place.parent (p : Place) : Place :=
  match p.parts with
  | [] => ⟨p.up + 1, []⟩
  | parts => ⟨p.up, parts.dropLast⟩

/-- The files with their places. -/
structure FileTree where
  files : List (Place × ByteArray)
deriving Inhabited

namespace FileTree

/-- What is at a place. -/
def at? (t : FileTree) (p : Place) : Entry :=
  match t.files.find? (·.1 == p) with
  | some f => .file f.2
  | none =>
    if p.parts.isEmpty || t.files.any fun f ↦ f.1.up == p.up && p.parts.isPrefixOf f.1.parts then
      .directory
    else .missing

/-- What is at the end of a walk through the parts of a path. -/
def walk (t : FileTree) (p : Place) : List (List Char) → Entry
  | [] => t.at? p
  | part :: parts =>
    match t.at? p with
    | .directory =>
      if part.isEmpty || part = ['.'] then walk t p parts
      else if part = ['.', '.'] then walk t p.parent parts
      else walk t ⟨p.up, p.parts ++ [part]⟩ parts
    | .file _ => .blocked
    | e => e

/-- What a path leads to from the working directory.  Outside of the directories around it there
are no files. -/
def entry (t : FileTree) (path : String) : Entry :=
  let cs := path.toList
  if cs.isEmpty then .missing
  else if Path.isAbsolute cs then
    if (Path.parts path).all (· == ['.', '.']) then .directory else .missing
  else t.walk .here (Path.partsFrom [] cs)

/-- The place that a path names, without a look at the files. -/
def placeOf (path : String) : Place :=
  (Path.parts path).foldl
    (fun p part ↦ if part = ['.', '.'] then p.parent else ⟨p.up, p.parts ++ [part]⟩) .here

/-- The tree with the given files. -/
def ofFiles (files : List (String × ByteArray)) : FileTree :=
  ⟨files.map fun f ↦ (placeOf f.1, f.2)⟩

end FileTree

end Concord.Files
