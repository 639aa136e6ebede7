import Concord.Json.Token

/-!
# What is written in a JSON text

A `Node` is a value as it is written: members of an object stand in the order of the text, repeated
keys among them, and strings and numbers that stand for nothing are kept as such.  Where a text
cannot be read on, the node ends in a break, and so does every list and object around it; a reader
that walks the nodes in order meets that break after everything that is written before it.

The nodes are put together by a machine that sees one token at a time (`Machine.step`).
-/

set_option autoImplicit false

namespace Concord.Json

/-- How a list or an object ends. -/
inductive Finish where
  | closed (stop : Nat)
  | broken (b : Break)
deriving Inhabited

/-- A key of an object. -/
structure Key where
  text : Except Fault String
  /-- Where a reader stands who has turned down the key and has looked for the end of the
  object. -/
  refusal : Nat
deriving Inhabited

/-- A value as it is written. -/
inductive Node where
  | scalar (s : Scalar) (stop : Nat)
  | list (start : Nat) (items : List Node) (finish : Finish)
  | object (start : Nat) (members : List (Key × Node)) (finish : Finish)
  | broken (b : Break)
deriving Inhabited

/-- What is wrong with a value that is only skipped. -/
def Node.skippingFault? : Node → Option Fault
  | scalar _ _ => none
  | list _ _ (.broken b) | object _ _ (.broken b) | broken b => some b.skipping
  | list _ _ (.closed _) | object _ _ (.closed _) => none

/-- What a text holds: a value, and what is wrong with the text behind it. -/
structure Document where
  root : Node
  trailing : Option Fault
deriving Inhabited

/-- A list or an object that waits for a value to be read, with what was read of it, latest
first. -/
inductive Frame where
  | list (start : Nat) (items : List Node)
  | object (start : Nat) (members : List (Key × Node)) (key : Key)
deriving Inhabited

/-- What the machine has read, and what may come next.  `outer` are the lists and objects around
that, innermost first. -/
inductive Machine where
  | value (outer : List Frame)
  | firstItem (start : Nat) (outer : List Frame)
  | nextItem (start : Nat) (items : List Node) (outer : List Frame)
  | itemEnd (start : Nat) (items : List Node) (outer : List Frame)
  | firstKey (start : Nat) (outer : List Frame)
  | nextKey (start : Nat) (members : List (Key × Node)) (outer : List Frame)
  | colon (start : Nat) (members : List (Key × Node)) (key : Except Fault String)
    (outer : List Frame)
  | memberEnd (start : Nat) (members : List (Key × Node)) (outer : List Frame)
  | finished (document : Document)
deriving Inhabited

namespace Machine

/-- Goes on with a value that has been read. -/
def put (n : Node) : List Frame → Machine
  | [] => finished ⟨n, none⟩
  | .list start items :: outer => itemEnd start (n :: items) outer
  | .object start members key :: outer => memberEnd start ((key, n) :: members) outer

/-- The document that ends with a broken node. -/
def abandon (b : Break) (n : Node) : List Frame → Document
  | [] => ⟨n, none⟩
  | .list start items :: outer =>
    abandon b (.list start (n :: items).reverse (.broken b)) outer
  | .object start members key :: outer =>
    abandon b (.object start ((key, n) :: members).reverse (.broken b)) outer

/-- Breaks off where a value is read. -/
def breakValue (b : Break) (outer : List Frame) : Document := abandon b (.broken b) outer

/-- Breaks off within a list. -/
def breakList (b : Break) (start : Nat) (items : List Node) (outer : List Frame) : Document :=
  abandon b (.list start items.reverse (.broken b)) outer

/-- Breaks off within an object. -/
def breakObject (b : Break) (start : Nat) (members : List (Key × Node)) (outer : List Frame) :
    Document :=
  abandon b (.object start members.reverse (.broken b)) outer

/-- Closes a list. -/
def closeList (start stop : Nat) (items : List Node) (outer : List Frame) : Machine :=
  put (.list start items.reverse (.closed stop)) outer

/-- Closes an object. -/
def closeObject (start stop : Nat) (members : List (Key × Node)) (outer : List Frame) : Machine :=
  put (.object start members.reverse (.closed stop)) outer

/-- Begins to read a value. -/
def enter (t : Placed) (outer : List Frame) : Machine :=
  match t.token with
  | .scalar s => put (.scalar s t.stop) outer
  | .listStart => firstItem t.start outer
  | .objectStart => firstKey t.start outer
  | .brokenString b | .brokenValue b => finished (breakValue b outer)
  | .listEnd | .objectEnd | .comma | .colon =>
    finished (breakValue (.both .expectedValue (t.start + 1)) outer)

/-- Reads a key, which must be a string; `building` is what is wrong if it is not. -/
def enterKey (t : Placed) (building : Cause) (start : Nat) (members : List (Key × Node))
    (outer : List Frame) : Machine :=
  match t.token with
  | .scalar (.string text) => colon start members text outer
  | .brokenString b => finished (breakObject b start members outer)
  | _ =>
    finished (breakObject ⟨⟨building, t.start + 1⟩, ⟨.keyNotString, t.start + 1⟩⟩ start members
      outer)

/-- Reads one token. -/
def step (m : Machine) (t : Placed) : Machine :=
  match m with
  | value outer => enter t outer
  | firstItem start outer =>
    match t.token with
    | .listEnd => closeList start t.stop [] outer
    | _ => enter t (.list start [] :: outer)
  | nextItem start items outer =>
    match t.token with
    | .listEnd =>
      finished (breakList ⟨⟨.trailingComma, t.start + 1⟩, ⟨.expectedValue, t.start + 1⟩⟩ start
        items outer)
    | _ => enter t (.list start items :: outer)
  | itemEnd start items outer =>
    match t.token with
    | .listEnd => closeList start t.stop items outer
    | .comma => nextItem start items outer
    | _ => finished (breakList (.both .expectedListEnd (t.start + 1)) start items outer)
  | firstKey start outer =>
    match t.token with
    | .objectEnd => closeObject start t.stop [] outer
    | _ => enterKey t .keyNotString start [] outer
  | nextKey start members outer =>
    match t.token with
    | .objectEnd => enterKey t .trailingComma start members outer
    | _ => enterKey t .keyNotString start members outer
  | colon start members key outer =>
    match t.token with
    | .colon => value (.object start members ⟨key, t.start⟩ :: outer)
    | .objectEnd =>
      finished (breakValue (.both .expectedColon (t.start + 1))
        (.object start members ⟨key, t.stop⟩ :: outer))
    | _ =>
      finished (breakValue (.both .expectedColon (t.start + 1))
        (.object start members ⟨key, t.start⟩ :: outer))
  | memberEnd start members outer =>
    match t.token with
    | .objectEnd => closeObject start t.stop members outer
    | .comma => nextKey start members outer
    | _ => finished (breakObject (.both .expectedObjectEnd (t.start + 1)) start members outer)
  | finished d => finished { d with trailing := d.trailing <|> some ⟨.trailingText, t.start + 1⟩ }

/-- What has been read when the text of `size` bytes ends. -/
def document (size : Nat) : Machine → Document
  | value outer => breakValue (.both .endInValue size) outer
  | firstItem start outer => breakList (.both .endInList size) start [] outer
  | nextItem start items outer => breakList (.both .endInValue size) start items outer
  | itemEnd start items outer => breakList (.both .endInList size) start items outer
  | firstKey start outer => breakObject (.both .endInObject size) start [] outer
  | nextKey start members outer =>
    breakObject ⟨⟨.endInValue, size⟩, ⟨.endInObject, size⟩⟩ start members outer
  | colon start members key outer =>
    breakValue (.both .endInObject size) (.object start members ⟨key, size⟩ :: outer)
  | memberEnd start members outer => breakObject (.both .endInObject size) start members outer
  | finished d => d

end Machine

/-- Reads what is written in a text. -/
def Document.read (source : String) : Document :=
  ((tokenize source).foldl Machine.step (.value [])).document source.utf8ByteSize

end Concord.Json
