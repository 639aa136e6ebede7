import Concord.Files.Lookup

/-!
# Texts of files

A text is read from bytes in UTF-8.  `readText` refuses other bytes; `textOrReplacement` puts the
replacement character for every stretch of bytes that begins a character and does not go on as one.
-/

set_option autoImplicit false

namespace Concord.Files

/-- Why the text of a file could not be read. -/
inductive ReadFault where
  | missing
  | directory
  | blocked
  | notText
deriving DecidableEq, Repr, Inhabited

/-- The reason in words. -/
def ReadFault.message : ReadFault → String
  | missing => "No such file or directory (os error 2)"
  | directory => "Is a directory (os error 21)"
  | blocked => "Not a directory (os error 20)"
  | notText => "stream did not contain valid UTF-8"

/-- The text of what a path leads to. -/
def Entry.text : Entry → Except ReadFault String
  | file bytes =>
    match String.fromUTF8? bytes with
    | some s => .ok s
    | none => .error .notText
  | directory => .error .directory
  | missing => .error .missing
  | blocked => .error .blocked

/-- Reads the text of a file. -/
def readText (path : String) : Lookup (Except ReadFault String) :=
  Entry.text <$> Lookup.entry path

/-- Which bytes may follow the first byte of a character: how many, and the range of the first of
them. -/
def continuation? (b : Nat) : Option (Nat × Nat × Nat) :=
  if b < 0x80 then some (0, 0, 0)
  else if 0xC2 ≤ b ∧ b ≤ 0xDF then some (1, 0x80, 0xBF)
  else if b = 0xE0 then some (2, 0xA0, 0xBF)
  else if b = 0xED then some (2, 0x80, 0x9F)
  else if 0xE1 ≤ b ∧ b ≤ 0xEF then some (2, 0x80, 0xBF)
  else if b = 0xF0 then some (3, 0x90, 0xBF)
  else if 0xF1 ≤ b ∧ b ≤ 0xF3 then some (3, 0x80, 0xBF)
  else if b = 0xF4 then some (3, 0x80, 0x8F)
  else none

/-- The character whose last bytes are being read: its bits so far, how many bytes are to come, and
the range of the next one. -/
structure Unfinished where
  bits : Nat
  left : Nat
  low : Nat
  high : Nat

/-- The bits of the first byte of a character that has `left` bytes more. -/
def leadingBits (b left : Nat) : Nat := b % Nat.pow 2 (6 - left)

/-- Begins a character. -/
def beginCharacter (b : Nat) : List Char × Option Unfinished :=
  match continuation? b with
  | none => (['\ufffd'], none)
  | some (0, _, _) => ([Char.ofNat b], none)
  | some (left, low, high) => ([], some ⟨leadingBits b left, left, low, high⟩)

/-- The characters of bytes, given the character that is being read. -/
def decodeReplacing (u : Option Unfinished) : List UInt8 → List Char
  | [] => if u.isSome then ['\ufffd'] else []
  | b :: bs =>
    match u with
    | none =>
      let (cs, u) := beginCharacter b.toNat
      cs ++ decodeReplacing u bs
    | some u =>
      if u.low ≤ b.toNat ∧ b.toNat ≤ u.high then
        let bits := u.bits * 64 + b.toNat % 64
        if u.left = 1 then Char.ofNat bits :: decodeReplacing none bs
        else decodeReplacing (some ⟨bits, u.left - 1, 0x80, 0xBF⟩) bs
      else
        let (cs, u) := beginCharacter b.toNat
        '\ufffd' :: cs ++ decodeReplacing u bs

/-- The text of bytes, with replacement characters for what is no text. -/
def textOrReplacement (bytes : ByteArray) : String :=
  match String.fromUTF8? bytes with
  | some s => s
  | none => String.ofList (decodeReplacing none bytes.toList)

end Concord.Files
