import Concord.Command.Run

/-!
# The program

The program reads its arguments, carries out the command on the files of the machine, and prints
the response.
-/

set_option autoImplicit false

namespace Concord.Command

open Files (Entry Lookup)

/-- The number by which the machine says that a directory is no file. -/
def isDirectoryCode : UInt32 := 21

/-- What a path leads to on the machine. -/
def entryOnDisk (path : String) : IO Entry := do
  try
    return .file (← IO.FS.readBinFile path)
  catch
    | .inappropriateType _ code _ => return if code = isDirectoryCode then .directory else .blocked
    | _ => return .missing

/-- Carries out a computation on the files of the machine. -/
def runOnDisk {α : Type} : Lookup α → IO α
  | .done a => return a
  | .look path next => do runOnDisk (next (← entryOnDisk path))

/-- What is wrong with arguments, in words. -/
def UsageFault.message : UsageFault → String
  | invalidValue => "an option has no value or one that it cannot have"
  | unknownArgument => "an argument is not known"
  | argumentConflict => "an option is given more than once"
  | tooManyValues => "an option has a value but can have none"
  | invalidSubcommand => "a command is not known"
  | missingSubcommand => "a command is missing"
  | help | helpForNoArguments =>
    "commands: check, rules [FILE], scopes [FILE], captures [FILE]"
  | version => "grammar-parity 0.1.0"

/-- Whether the fault is a wish and not a mistake. -/
def UsageFault.isWish (f : UsageFault) : Bool := f == help || f == version

end Concord.Command

open Concord.Command in
/-- Runs the program. -/
def main (arguments : List String) : IO UInt32 := do
  match Invocation.parse arguments with
  | .error f =>
    if f.isWish then
      IO.println f.message
      return 0
    else
      IO.eprintln ("error: " ++ f.message)
      return fatalCode.toUInt32
  | .ok i =>
    let terminal := (← (← IO.getStdout).isTty) && (← (← IO.getStderr).isTty)
    let response ← runOnDisk (i.run terminal)
    response.messages.forM IO.eprintln
    (← IO.getStdout).putStr response.output
    return response.code.toUInt32
