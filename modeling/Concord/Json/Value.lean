import Concord.Json.Node

/-!
# Values of a JSON text

A `Value` is what a node stands for.  The members of an object are sorted by their keys, and of
repeated keys the last one counts.  Readers of nodes report the first thing that is wrong in the
order of the text, and turn down lists and objects that lie in too many others.
-/

set_option autoImplicit false

namespace Concord.Json

/-- What a node stands for. -/
inductive Value where
  | null
  | bool (b : Bool)
  | number (n : Number)
  | string (s : String)
  | list (items : List Value)
  | object (members : List (String × Value))
deriving Inhabited

namespace Value

/-- The shape of a value. -/
def shape : Value → Shape
  | null => .null
  | bool b => .bool b
  | number n => .number n
  | string s => .string s
  | list _ => .sequence
  | object _ => .map

/-- Puts a member where its key belongs among sorted keys, in place of one with the same key. -/
def putMember (key : String) (v : Value) : List (String × Value) → List (String × Value)
  | [] => [(key, v)]
  | (k, w) :: ms =>
    if k < key then (k, w) :: putMember key v ms
    else if k = key then (key, v) :: ms
    else (key, v) :: (k, w) :: ms

end Value

/-- The shape of a scalar, if it stands for anything. -/
def Scalar.shape : Scalar → Except Fault Shape
  | null => .ok .null
  | bool b => .ok (.bool b)
  | number n => n.map .number
  | string text => text.map .string

/-- The value of a scalar, if it stands for anything. -/
def Scalar.value : Scalar → Except Fault Value
  | null => .ok .null
  | bool b => .ok (.bool b)
  | number n => n.map .number
  | string text => text.map .string

/-- Turns down a list or an object that is broken. -/
def Finish.check : Finish → Except Fault Unit
  | closed _ => .ok ()
  | broken b => .error b.building

/-- How many lists and objects may lie in one another. -/
def deepest : Nat := 127

/-- Goes into a list or an object at offset `start`, given how many more may lie in one another
there. -/
def goInto (room start : Nat) : Except Fault Nat :=
  match room with
  | 0 => .error ⟨.tooDeep, start + 1⟩
  | room + 1 => .ok room

namespace Node

/-- What is wrong with a node that is not what the reader expects. -/
def mistyped (expected : String) : Node → Fault
  | scalar s stop =>
    match s.shape with
    | .ok found => ⟨.mistyped found expected, stop⟩
    | .error f => f
  | list start _ _ => ⟨.mistyped .sequence expected, start⟩
  | object start _ _ => ⟨.mistyped .map expected, start⟩
  | broken b => b.building

/-- Skips a node. -/
def skip (n : Node) : Except Fault Unit :=
  match n.skippingFault? with
  | some f => .error f
  | none => .ok ()

/-- The text of a string, or nothing for `null`. -/
def optionalText : Node → Except Fault (Option String)
  | scalar .null _ => .ok none
  | scalar (.string text) _ => text.map some
  | n => .error (n.mistyped "a string")

mutual

/-- What a node stands for; at most `room` lists and objects may lie in one another. -/
def value (room : Nat) : Node → Except Fault Value
  | scalar s _ => s.value
  | list start items finish => do
    let room ← goInto room start
    let vs ← values room items
    finish.check
    return .list vs
  | object start members finish => do
    let room ← goInto room start
    let ms ← memberValues room [] members
    finish.check
    return .object ms
  | broken b => .error b.building

/-- What the nodes of a list stand for. -/
def values (room : Nat) : List Node → Except Fault (List Value)
  | [] => .ok []
  | n :: ns => do
    let v ← value room n
    let vs ← values room ns
    return v :: vs

/-- What the members of an object stand for, together with members that were read before. -/
def memberValues (room : Nat) (before : List (String × Value)) :
    List (Key × Node) → Except Fault (List (String × Value))
  | [] => .ok before
  | (key, n) :: ms => do
    let k ← key.text
    let v ← value room n
    memberValues room (Value.putMember k v before) ms

end

end Node

/-- Reads a whole text by a reader of its root. -/
def Document.decode {α : Type} (read : Node → Except Fault α) (d : Document) : Except Fault α := do
  let a ← read d.root
  match d.trailing with
  | some f => .error f
  | none => .ok a

/-- Reads a text as a value. -/
def Value.read (source : String) : Except Fault Value :=
  (Document.read source).decode (Node.value deepest)

end Concord.Json
