/-!
# Paths

A path is a text of parts with slashes between them.  Joining and looking at a path does not change
its parts: no part is left out because it is empty or goes up.
-/

set_option autoImplicit false

namespace Concord.Path

/-- Whether a path begins at the root of all files. -/
def isAbsolute (path : List Char) : Bool := path.head? == some '/'

/-- A path taken from a directory.  An absolute path stands by itself. -/
def joinChars (directory path : List Char) : List Char :=
  if isAbsolute path then path
  else if directory.isEmpty || directory.getLast? == some '/' then directory ++ path
  else directory ++ '/' :: path

/-- A path taken from a directory.  An absolute path stands by itself. -/
def join (directory path : String) : String :=
  String.ofList (joinChars directory.toList path.toList)

/-- The parts of a path; `part` is the part being read, latest character first. -/
def partsFrom (part : List Char) : List Char → List (List Char)
  | [] => [part.reverse]
  | c :: cs => if c = '/' then part.reverse :: partsFrom [] cs else partsFrom (c :: part) cs

/-- The parts of a path that name something: empty parts and dots stand for the directory that the
path has come to. -/
def parts (path : String) : List (List Char) :=
  (partsFrom [] path.toList).filter fun p ↦ !p.isEmpty && p != ['.']

/-- The characters behind the last dot, if there is a dot that is not the first character. -/
def extensionOf (name : List Char) : Option (List Char) :=
  let back := name.reverse
  match back.dropWhile (· != '.') with
  | [] | [_] => none
  | _ => some (back.takeWhile (· != '.')).reverse

/-- The extension of the file that a path names. -/
def extension (path : String) : Option (List Char) :=
  match (parts path).getLast? with
  | none => none
  | some name => if name = ['.', '.'] then none else extensionOf name

end Concord.Path
