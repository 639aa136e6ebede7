import Concord.Config.Value

/-!
# Settings by key paths

A key path names a place in a configuration: a name, and then names of entries behind dots and
numbers of items in brackets.  Names count without regard to capitals.  `Value.set` puts a value at
a place and makes the tables and lists on the way; a table is put over another entry by entry.
-/

set_option autoImplicit false

namespace Concord.Config

/-- A step from a value to one in it. -/
inductive Step where
  | entry (key : String)
  | item (index : Int)
deriving DecidableEq, Repr, Inhabited

/-- The place of a value in a configuration. -/
structure KeyPath where
  name : String
  steps : List Step := []
deriving DecidableEq, Repr, Inhabited

/-- Why a text is no key path. -/
inductive KeyPathFault where
  | noName
  | noStep
  | noDigit
  | tooGreat
deriving DecidableEq, Repr, Inhabited

/-- The reason in words. -/
def KeyPathFault.message : KeyPathFault → String
  | noName => "IsA"
  | noStep => "Char"
  | noDigit => "Digit"
  | tooGreat => "Map on Result"

namespace KeyPath

/-- Whether a character may stand in a name. -/
def isNameChar (c : Char) : Bool := c.isAlphanum || c == ' ' || c == '_' || c == '-'

/-- Whether a character is a blank. -/
def isBlank (c : Char) : Bool := c == ' ' || c == '\t'

/-- The number behind an opening bracket, and the text behind the closing one. -/
def takeIndex (cs : List Char) : Except KeyPathFault (Int × List Char) :=
  let cs := cs.dropWhile isBlank
  let negative := cs.head? == some '-'
  let cs := if negative then cs.tail else cs
  let ds := cs.takeWhile Char.isDigit
  if ds.isEmpty then .error .noDigit
  else
    let n : Int := ds.foldl (fun n c ↦ n * 10 + (c.toNat - '0'.toNat)) 0
    let n := if negative then -n else n
    if n < -0x8000000000000000 ∨ 0x8000000000000000 ≤ n then .error .tooGreat
    else
      match (cs.dropWhile Char.isDigit).dropWhile isBlank with
      | ']' :: rest => .ok (n, rest)
      | _ => .error .noStep

/-- The steps of a key path behind its name, at most as many as given. -/
def takeSteps : (most : Nat) → List Char → Except KeyPathFault (List Step)
  | _, [] => .ok []
  | 0, _ => .ok []
  | most + 1, '.' :: cs =>
    let key := cs.takeWhile isNameChar
    if key.isEmpty then .error .noStep
    else do return .entry (String.ofList key) :: (← takeSteps most (cs.dropWhile isNameChar))
  | most + 1, '[' :: cs => do
    let (index, rest) ← takeIndex cs
    return .item index :: (← takeSteps most rest)
  | _ + 1, _ :: _ => .error .noStep

/-- Reads a key path. -/
def parse (s : String) : Except KeyPathFault KeyPath :=
  let cs := s.toList
  let name := cs.takeWhile isNameChar
  if name.isEmpty then .error .noName
  else do return ⟨String.ofList name, ← takeSteps cs.length (cs.dropWhile isNameChar)⟩

end KeyPath

namespace Value

/-- Puts an entry in the place of the one with its key, or behind all entries. -/
def putEntry (key : String) (v : Value) : List (String × Value) → List (String × Value)
  | [] => [(key, v)]
  | (k, w) :: es => if k = key then (key, v) :: es else (k, w) :: putEntry key v es

mutual

/-- Puts a value at a key of a table.  What is no table gives way to one. -/
def setEntry (key : String) (target : Value) : Value → Value
  | table _ incoming =>
    let child := (target.entries.lookup key.toLower).getD empty
    withEntry key target (setEntries child incoming)
  | v => withEntry key target v
where
  /-- The table with an entry replaced. -/
  withEntry (key : String) (target v : Value) : Value :=
    match target with
    | table origin es => table origin (putEntry key.toLower v es)
    | _ => table none [(key.toLower, v)]

/-- Puts entries into a table, one after the other. -/
def setEntries (target : Value) : List (String × Value) → Value
  | [] => target
  | (k, v) :: es => setEntries (setEntry k target v) es

end

/-- The place of an item that is counted from the front, or from behind by a negative number. -/
def place (index : Int) (length : Nat) : Nat :=
  if 0 ≤ index then index.toNat else length - index.natAbs

/-- Changes the item at an index.  A list that is too short is filled up with nothing. -/
def changeItem (index : Int) (f : Value → Value) (v : Value) : Value :=
  let (origin, items) := match v with
    | list origin items => (origin, items)
    | _ => (none, [])
  let i := place index items.length
  let items := items ++ List.replicate (i + 1 - items.length) nil
  list origin (items.modify i f)

/-- Changes the entry at a key.  What is no table gives way to one. -/
def changeEntry (key : String) (f : Value → Value) (v : Value) : Value :=
  let (origin, es) := match v with
    | table origin es => (origin, es)
    | _ => (none, [])
  table origin (putEntry key.toLower (f ((es.lookup key.toLower).getD nil)) es)

/-- Puts a value at the end of steps from a value. -/
def setAt (value : Value) : (steps : List Step) → Value → Value
  | [], _ => value
  | [.entry key], v => setEntry key v value
  | .entry key :: steps, v => changeEntry key (setAt value steps) v
  | .item index :: steps, v => changeItem index (setAt value steps) v

/-- Puts a value at a place. -/
def set (root : Value) (path : KeyPath) (value : Value) : Value :=
  setAt value (.entry path.name :: path.steps) root

end Value

end Concord.Config
