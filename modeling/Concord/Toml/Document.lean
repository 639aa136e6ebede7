import Concord.Toml.Number

/-!
# TOML documents

`Toml.read` reads a document as a table, or answers nothing if it is not well formed.  A document
is read line by line: a header says to which table the following lines belong, and a line with a
key and a value adds to that table.

A key with dots leads through tables.  Tables that are not there yet are made on the way; which of
the others may be passed, and which may be added to, depends on how they were written.
-/

set_option autoImplicit false

namespace Concord.Toml

/-! ## Adding to tables -/

/-- In what part of a document a key with dots leads through tables. -/
inductive Route where
  /-- In a header. -/
  | header
  /-- In front of a value, in a line of its own. -/
  | line
  /-- In front of a value between braces. -/
  | braces
deriving DecidableEq, Repr

/-- The form of the tables that are made on the way. -/
def Route.newForm : Route → Form
  | header => .implied
  | line | braces => .dotted

/-- Whether a table of some form may be passed. -/
def Route.passes : Route → Form → Bool
  | header, form => form != .inline
  | line, form => form == .implied || form == .dotted
  | braces, _ => true

/-- Puts an entry in the place of the one with its key, or behind all entries. -/
def putEntry (key : String) (v : Value) : List (String × Value) → List (String × Value)
  | [] => [(key, v)]
  | (k, w) :: es => if k = key then (key, v) :: es else (k, w) :: putEntry key v es

/-- Changes the last of the values in a list. -/
def changeLast (f : Value → Option Value) : List Value → Option (List Value)
  | [] => none
  | [v] => do return [← f v]
  | v :: vs => do return v :: (← changeLast f vs)

/-- Changes the table at the end of a way.  A list of tables is passed through its last one. -/
def changeAt (route : Route) (f : Value → Option Value) :
    (keys : List String) → Value → Option Value
  | [], v => f v
  | k :: ks, .table form entries => do
    let child := (entries.lookup k).getD (.table route.newForm [])
    let child ← match child with
      | .list true items => do pure (.list true (← changeLast (changeAt route f ks) items))
      | .table form _ => if route.passes form then changeAt route f ks child else none
      | _ => none
    return .table form (putEntry k child entries)
  | _ :: _, _ => none

/-- Adds an entry to the table at the end of a way.  Only tables made by keys with dots are added to
by such keys. -/
def addEntry (way : List String) (key : String) (v : Value) : Value → Option Value
  | .table form entries =>
    if (form == .dotted) == way.isEmpty then none
    else if (entries.lookup key).isSome then none
    else some (.table form (entries ++ [(key, v)]))
  | _ => none

/-- Begins a table under a header. -/
def beginTable (key : String) : Value → Option Value
  | .table form entries =>
    match entries.lookup key with
    | none => some (.table form (entries ++ [(key, .table .header [])]))
    | some (.table .implied inner) =>
      some (.table form (putEntry key (.table .header inner) entries))
    | some _ => none
  | _ => none

/-- Begins one more table of a list under a header. -/
def beginItem (key : String) : Value → Option Value
  | .table form entries =>
    match entries.lookup key with
    | none => some (.table form (entries ++ [(key, .list true [.table .header []])]))
    | some (.list true items) =>
      some (.table form (putEntry key (.list true (items ++ [.table .header []])) entries))
    | some _ => none
  | _ => none

/-! ## Reading keys and values -/

/-- The text behind blanks. -/
def skipBlanks (cs : List Char) : List Char := cs.dropWhile isBlank

/-- Whether a character may stand in a key without quotes. -/
def isKeyChar (c : Char) : Bool := c.isAlphanum || c == '_' || c == '-'

/-- One part of a key. -/
def takeKeyPart (cs : List Char) : Option (String × List Char) :=
  let bare := cs.takeWhile isKeyChar
  if bare.isEmpty then takeLine cs else some (String.ofList bare, cs.dropWhile isKeyChar)

/-- A key and its parts, in a number of steps. -/
def takeKey : (steps : Nat) → List Char → Option (List String × List Char)
  | 0, _ => none
  | steps + 1, cs => do
    let (part, rest) ← takeKeyPart (skipBlanks cs)
    match skipBlanks rest with
    | '.' :: rest => do
      let (parts, rest) ← takeKey steps rest
      return (part :: parts, rest)
    | rest => return ([part], rest)

/-- The text behind a comment, if it is well formed. -/
def skipComment (cs : List Char) : Option (List Char) :=
  match cs with
  | '#' :: cs =>
    let rest := cs.dropWhile isTextChar
    if rest.isEmpty ∨ (takeNewline? rest).isSome then some rest else none
  | cs => some cs

/-- The text behind blanks, line breaks and comments, in a number of steps. -/
def skipLayout : (steps : Nat) → List Char → Option (List Char)
  | 0, cs => some cs
  | steps + 1, cs =>
    match skipSpace cs.length cs with
    | '#' :: rest => do skipLayout steps (← skipComment ('#' :: rest))
    | rest => some rest

/-- How many lists and tables may lie in one another, and how many parts a key may have. -/
def deepest : Nat := 79

mutual

/-- A value, in a number of steps; at most `room` lists and tables may lie in one another. -/
def takeValue : (steps room : Nat) → List Char → Option (Value × List Char)
  | 0, _, _ => none
  | steps + 1, room, cs =>
    match cs with
    | '[' :: rest =>
      match room with
      | 0 => none
      | room + 1 => do
        let (items, rest) ← takeItems steps room rest
        return (.list false items, rest)
    | '\x7b' :: rest =>
      match room with
      | 0 => none
      | room + 1 =>
        match skipBlanks rest with
        | '\x7d' :: rest => some (.table .inline [], rest)
        | rest => takeEntries steps room (.table .inline []) rest
    | c :: _ =>
      if c = '"' ∨ c = '\x27' then do
        let (s, rest) ← takeString cs
        return (.string s, rest)
      else
        let (word, rest) := takeWord cs
        (word? word).map (·, rest)
    | [] => none

/-- The items of a list behind its bracket. -/
def takeItems : (steps room : Nat) → List Char → Option (List Value × List Char)
  | 0, _, _ => none
  | steps + 1, room, cs => do
    match ← skipLayout cs.length cs with
    | ']' :: rest => return ([], rest)
    | cs =>
      let (v, rest) ← takeValue steps room cs
      match ← skipLayout rest.length rest with
      | ']' :: rest => return ([v], rest)
      | ',' :: rest =>
        let (vs, rest) ← takeItems steps room rest
        return (v :: vs, rest)
      | _ => none

/-- The entries of a table between braces, which are added to a table. -/
def takeEntries : (steps room : Nat) → (table : Value) → List Char → Option (Value × List Char)
  | 0, _, _, _ => none
  | steps + 1, room, table, cs => do
    let (keys, rest) ← takeKey deepest cs
    match rest with
    | '=' :: rest =>
      let (v, rest) ← takeValue steps room (skipBlanks rest)
      let key ← keys.getLast?
      let way := keys.dropLast
      let table ← changeAt .braces (addEntry way key v) way table
      match skipBlanks rest with
      | '\x7d' :: rest => return (table, rest)
      | ',' :: rest => takeEntries steps room table rest
      | _ => none
    | _ => none

end

/-! ## Reading lines -/

/-- The text behind the end of a line: blanks, a comment and a line break. -/
def skipLineEnd (cs : List Char) : Option (List Char) := do
  let rest ← skipComment (skipBlanks cs)
  if rest.isEmpty then some [] else takeNewline? rest

/-- What has been read: the whole document, and the way to the table to which lines add. -/
structure Progress where
  root : Value
  way : List String

/-- Reads a header behind its brackets. -/
def Progress.header (p : Progress) (close : List Char) (beginAt : String → Value → Option Value)
    (cs : List Char) : Option (Progress × List Char) := do
  let (keys, rest) ← takeKey deepest cs
  let key ← keys.getLast?
  let root ← changeAt .header (beginAt key) keys.dropLast p.root
  if close.isPrefixOf rest then
    return (⟨root, keys⟩, ← skipLineEnd (rest.drop close.length))
  else none

/-- Reads a key and a value. -/
def Progress.entry (p : Progress) (cs : List Char) : Option (Progress × List Char) := do
  let (keys, rest) ← takeKey deepest cs
  match rest with
  | '=' :: rest =>
    let (v, rest) ← takeValue (2 * rest.length + 2) deepest (skipBlanks rest)
    let rest ← skipLineEnd rest
    let key ← keys.getLast?
    let way := keys.dropLast
    let root ← changeAt .header (changeAt .line (addEntry way key v) way) p.way p.root
    return (⟨root, p.way⟩, rest)
  | _ => none

/-- Reads lines, in a number of steps. -/
def Progress.lines : (steps : Nat) → Progress → List Char → Option Value
  | 0, _, _ => none
  | steps + 1, p, cs =>
    match skipSpace cs.length cs with
    | [] => some p.root
    | '#' :: rest => do
      lines steps p (← skipLineEnd ('#' :: rest))
    | '[' :: '[' :: rest => do
      let (p, rest) ← p.header [']', ']'] beginItem rest
      lines steps p rest
    | '[' :: rest => do
      let (p, rest) ← p.header [']'] beginTable rest
      lines steps p rest
    | rest => do
      let (p, rest) ← p.entry rest
      lines steps p rest

/-- Reads the entries of a document.  A byte order mark in front of it does not count. -/
def read (source : String) : Option (List (String × Value)) :=
  let cs := source.toList
  let cs := if cs.head? = some '\ufeff' then cs.tail else cs
  match Progress.lines (cs.length + 1) ⟨.table .header [], []⟩ cs with
  | some (.table _ entries) => some entries
  | _ => none

end Concord.Toml
