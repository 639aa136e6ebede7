/-!
# Arguments of the command line

`Invocation.parse` reads the arguments of the program: which command is meant, and its options.
Arguments are read from left to right by `Reader.step`.  The value of an option may stand in the
next argument; such an option waits, and what is wrong with its value is noticed only when the next
option or the end is reached.
-/

set_option autoImplicit false

namespace Concord.Command

/-- What is wrong with arguments, or what they ask for instead of a command. -/
inductive UsageFault where
  | invalidValue
  | unknownArgument
  | argumentConflict
  | tooManyValues
  | invalidSubcommand
  | missingSubcommand
  | help
  | version
  | helpForNoArguments
deriving DecidableEq, Repr, Inhabited

/-- The commands. -/
inductive Name where
  | check | rules | scopes | captures
deriving DecidableEq, Repr, Inhabited

/-- The word for a command. -/
def Name.word : Name → String
  | check => "check"
  | rules => "rules"
  | scopes => "scopes"
  | captures => "captures"

/-- The command with a word. -/
def Name.ofWord? (w : String) : Option Name :=
  [check, rules, scopes, captures].find? (·.word == w)

/-- The options of commands. -/
inductive Opt where
  | config | root | grammar | highlights | reference
  | category | format | strict | color | front | node | file
  | verbose | help
deriving DecidableEq, Repr, Inhabited

namespace Opt

/-- The long name of an option, if it has one. -/
def long? : Opt → Option String
  | config => some "config"
  | root => some "root"
  | grammar => some "grammar"
  | highlights => some "highlights"
  | reference => some "reference"
  | category => some "category"
  | format => some "format"
  | strict => some "strict"
  | color => some "color"
  | front => some "prefix"
  | node => some "node"
  | help => some "help"
  | file | verbose => none

/-- The letter of an option, if it has one. -/
def letter? : Opt → Option Char
  | config => some 'c'
  | verbose => some 'v'
  | help => some 'h'
  | _ => none

/-- Whether an option has a value. -/
def hasValue : Opt → Bool
  | strict | verbose | help => false
  | _ => true

/-- Whether a text may be the value of an option. -/
def admits (o : Opt) (value : String) : Bool :=
  match o with
  | config | root | grammar | highlights | reference | file => !value.isEmpty
  | format => value == "text" || value == "json"
  | color => value == "auto" || value == "always" || value == "never"
  | _ => true

/-- Whether an option may be given again. -/
def repeatable (o : Opt) : Bool := o == category || o == verbose

end Opt

/-- The options of a command. -/
def Name.options (n : Name) : List Opt :=
  [.config, .root, .grammar, .highlights, .reference, .format, .color, .verbose, .help] ++
    match n with
    | check => [.category, .strict]
    | rules => [.file]
    | scopes => [.file, .front]
    | captures => [.file, .node]

/-! ## Reading the arguments of a command -/

/-- An option that has been given and whose values are complete or awaited. -/
structure Pending where
  opt : Opt
  values : List String
deriving DecidableEq, Repr, Inhabited

/-- What has been read of the arguments of a command. -/
structure Reader where
  /-- The options of the command. -/
  options : List Opt
  /-- The options that were given, with their values. -/
  given : List (Opt × String) := []
  /-- How often more messages were asked for. -/
  verbosity : Nat := 0
  /-- The option that was given last, if its value has not been looked at. -/
  pending : Option Pending := none
  /-- Whether the next argument may be the value of that option. -/
  awaiting : Bool := false
  /-- Whether all further arguments stand for themselves. -/
  plain : Bool := false
  /-- Whether the file has been given. -/
  fileGiven : Bool := false
deriving Repr, Inhabited

namespace Reader

/-- Takes in an option with its values. -/
def accept (r : Reader) (o : Opt) (values : List String) : Except UsageFault Reader :=
  match values with
  | [] =>
    if o.hasValue then .error .invalidValue
    else if o = .verbose then .ok { r with verbosity := min (r.verbosity + 1) 255 }
    else if r.given.any (·.1 == o) then .error .argumentConflict
    else .ok { r with given := r.given ++ [(o, "")] }
  | value :: _ =>
    if !o.repeatable ∧ r.given.any (·.1 == o) then .error .argumentConflict
    else if o.admits value then .ok { r with given := r.given ++ [(o, value)] }
    else .error .invalidValue

/-- Takes in the option that waits. -/
def settle (r : Reader) : Except UsageFault Reader :=
  match r.pending with
  | none => .ok r
  | some p => { r with pending := none }.accept p.opt p.values

/-- Takes in an option whose values are complete. -/
def take (r : Reader) (o : Opt) (values : List String) : Except UsageFault Reader := do
  let r ← r.settle
  if o = .help then .error .help
  else
    let r ← r.accept o values
    return { r with awaiting := false }

/-- Lets an option wait for its value. -/
def await (r : Reader) (o : Opt) : Except UsageFault Reader := do
  let r ← r.settle
  return { r with pending := some ⟨o, []⟩, awaiting := true }

/-- Reads an option with its long name and the value attached to it. -/
def long (r : Reader) (name : String) (value : Option String) : Except UsageFault Reader :=
  match r.options.find? (·.long? == some name) with
  | none => .error .unknownArgument
  | some o =>
    match o.hasValue, value with
    | true, some v => r.take o [v]
    | true, none => r.await o
    | false, some _ => .error .tooManyValues
    | false, none => r.take o []

/-- Reads options with their letters; the value of an option may follow its letter. -/
def letters (r : Reader) : List Char → Except UsageFault Reader
  | [] => .ok r
  | c :: cs =>
    match r.options.find? (·.letter? == some c) with
    | none => .error .unknownArgument
    | some o =>
      if o.hasValue then
        match cs with
        | [] => r.await o
        | '=' :: value => r.take o [String.ofList value]
        | value => r.take o [String.ofList value]
      else do
        let r ← r.take o []
        r.letters cs

/-- Reads an argument that is no option. -/
def plainArgument (r : Reader) (argument : String) : Except UsageFault Reader :=
  if r.options.contains .file ∧ !r.fileGiven then do
    let r ← r.settle
    return { r with pending := some ⟨.file, [argument]⟩, awaiting := false, fileGiven := true }
  else .error .unknownArgument

/-- Reads an argument that is the value of the option that waits for one, or no option. -/
def valueArgument (r : Reader) (argument : String) : Except UsageFault Reader :=
  match r.awaiting, r.pending with
  | true, some p => .ok { r with pending := some ⟨p.opt, [argument]⟩, awaiting := false }
  | _, _ => r.plainArgument argument

/-- The two parts of an argument on both sides of the first equals sign. -/
def splitValue (cs : List Char) : String × Option String :=
  match cs.dropWhile (· != '=') with
  | [] => (String.ofList cs, none)
  | _ :: value => (String.ofList (cs.takeWhile (· != '=')), some (String.ofList value))

/-- Reads one argument. -/
def step (r : Reader) (argument : String) : Except UsageFault Reader :=
  if r.plain then r.plainArgument argument
  else
    match argument.toList with
    | ['-', '-'] => .ok { r with plain := true }
    | '-' :: '-' :: cs =>
      let (name, value) := splitValue cs
      r.long name value
    | '-' :: c :: cs => r.letters (c :: cs)
    | _ => r.valueArgument argument

/-- The value of an option. -/
def value? (r : Reader) (o : Opt) : Option String := r.given.lookup o

/-- The values of an option that may be given again. -/
def values (r : Reader) (o : Opt) : List String :=
  (r.given.filter (·.1 == o)).map Prod.snd

end Reader

/-! ## Invocations -/

/-- The forms in which results are printed. -/
inductive Format where
  | text | json
deriving DecidableEq, Repr, Inhabited

/-- When results are coloured. -/
inductive ColorChoice where
  | auto | always | never
deriving DecidableEq, Repr, Inhabited

/-- Options that say where the configuration and the artifacts are. -/
structure ArtifactOptions where
  config : Option String := none
  root : Option String := none
  grammar : Option String := none
  highlights : Option String := none
  reference : Option String := none
deriving DecidableEq, Repr, Inhabited

/-- A command with what is special to it. -/
inductive Action where
  /-- Answers the checks of the categories. -/
  | check (categories : List String) (strict : Bool)
  /-- Lists the rules of a grammar. -/
  | rules (file : Option String)
  /-- Lists the scopes of a reference grammar under a scope. -/
  | scopes (file front : Option String)
  /-- Lists the captures on a node type. -/
  | captures (file node : Option String)
deriving DecidableEq, Repr, Inhabited

/-- What the program is asked to do. -/
structure Invocation where
  action : Action
  artifacts : ArtifactOptions := {}
  format : Format := .text
  color : ColorChoice := .auto
  verbosity : Nat := 0
deriving DecidableEq, Repr, Inhabited

namespace Invocation

/-- The action of a command. -/
def actionOf (n : Name) (r : Reader) : Action :=
  match n with
  | .check => .check (r.values .category) (r.value? .strict).isSome
  | .rules => .rules (r.value? .file)
  | .scopes => .scopes (r.value? .file) (r.value? .front)
  | .captures => .captures (r.value? .file) (r.value? .node)

/-- The invocation of a command whose arguments have been read.  The count of `outer` stands for
what was given before the command. -/
def ofReader (n : Name) (outer : Nat) (r : Reader) : Invocation where
  action := actionOf n r
  artifacts :=
    ⟨r.value? .config, r.value? .root, r.value? .grammar, r.value? .highlights,
      r.value? .reference⟩
  format := if r.value? .format = some "json" then .json else .text
  color :=
    match r.value? .color with
    | some "always" => .always
    | some "never" => .never
    | _ => .auto
  verbosity := if r.verbosity = 0 then outer else r.verbosity

/-- Reads the arguments behind a command. -/
def ofCommand (n : Name) (outer : Nat) (arguments : List String) :
    Except UsageFault Invocation := do
  let r ← arguments.foldlM Reader.step { options := n.options }
  let r ← r.settle
  return ofReader n outer r

/-- What is asked for by the word `help` and the arguments behind it: each must be a command of the
one before. -/
def helpFault : List String → UsageFault
  | [] => .help
  | [w] => if (Name.ofWord? w).isSome || w == "help" then .help else .invalidSubcommand
  | _ => .invalidSubcommand

/-- Reads letters before a command. -/
def outerLetters (outer : Nat) : List Char → Except UsageFault Nat
  | [] => .ok outer
  | 'v' :: cs => outerLetters (min (outer + 1) 255) cs
  | 'h' :: _ => .error .help
  | 'V' :: _ => .error .version
  | _ :: _ => .error .unknownArgument

/-- What is wrong with a long option before a command. -/
def outerLong (cs : List Char) : UsageFault :=
  match Reader.splitValue cs with
  | ("help", none) => .help
  | ("version", none) => .version
  | ("help", some _) | ("version", some _) => .tooManyValues
  | _ => .unknownArgument

/-- Whether an argument is the name of a command. -/
def isCommandWord (w : String) : Bool := (Name.ofWord? w).isSome || w == "help"

/-- Reads the arguments of the program; `outer` is how often more messages were asked for before. -/
def parseFrom (outer : Nat) : List String → Except UsageFault Invocation
  | [] => .error (if outer = 0 then .helpForNoArguments else .missingSubcommand)
  | a :: rest =>
    match Name.ofWord? a with
    | some n => ofCommand n outer rest
    | none =>
      if a = "help" then .error (helpFault rest)
      else
        match a.toList with
        | ['-', '-'] =>
          match rest with
          | [] => .error (if outer = 0 then .helpForNoArguments else .missingSubcommand)
          | b :: _ => .error (if isCommandWord b then .unknownArgument else .invalidSubcommand)
        | '-' :: '-' :: cs => .error (outerLong cs)
        | '-' :: c :: cs => do
          let outer ← outerLetters outer (c :: cs)
          parseFrom outer rest
        | _ => .error .invalidSubcommand

/-- Reads the arguments of the program. -/
def parse (arguments : List String) : Except UsageFault Invocation := parseFrom 0 arguments

end Invocation

end Concord.Command
