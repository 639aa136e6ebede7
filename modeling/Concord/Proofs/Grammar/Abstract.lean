import Concord.Grammar.Document
import Concord.Proofs.Json.Assembly
import Concord.Proofs.Script.Cutting

/-!
# Grammars as their authors mean them

`AbstractGrammar` is a grammar apart from how it is written: its name, and its rules with their
bodies.  `AbstractGrammar.names` and `AbstractGrammar.symbols` are what it declares and refers to.

It is written in two ways, each up to blanks and line breaks:

* `AbstractGrammar.WritesDocument` — as a JSON document (`AbstractGrammar.document`),
* `AbstractGrammar.WritesScript` — as a script that calls `grammar` (`AbstractGrammar.script`).
-/

set_option autoImplicit false

namespace Concord

open Json (Value Number)
open Script (Lexeme quote standalone_ident standalone_number standalone_quote standalone_dot
  standalone_operator standalone_comma standalone_colon standalone_opening standalone_closing)

/-! ## Abstract grammars -/

/-- Whether the characters are those of a name: letters, digits, `_` and `$`, of which a digit does
not come first. -/
def isIdentifier : List Char → Bool
  | [] => false
  | c :: cs => Script.isIdentStart c && cs.all Script.isIdentPart

/-- A name of a grammar or of a rule. -/
structure Identifier where
  text : String
  isIdentifier : isIdentifier text.toList = true
deriving DecidableEq

/-- How strongly a body binds: by a number, or by a name that is ranked elsewhere. -/
inductive Precedence where
  | number (n : Int64)
  | name (text : String)

/-- What a rule consists of. -/
inductive RuleBody where
  | symbol (rule : Identifier)
  | literal (text : String)
  | seq (parts : List RuleBody)
  | choice (parts : List RuleBody)
  | repetition (part : RuleBody)
  | field (name : String) (part : RuleBody)
  | prec (level : Precedence) (part : RuleBody)

/-- A grammar whose rules have different names. -/
structure AbstractGrammar where
  name : Identifier
  rules : List (Identifier × RuleBody)
  nodup : (rules.map fun r ↦ r.1.text).Nodup

namespace Precedence

/-- The number of an integer. -/
def numberOf : Int → Number
  | .ofNat n => .natural n
  | .negSucc n => .negative (n + 1)

/-- The precedence in a document. -/
def value : Precedence → Value
  | number n => .number (numberOf n.toInt)
  | name text => .string text

/-- An integer in a script. -/
def integer : Int → List Lexeme
  | .ofNat n => [⟨.number, Nat.toDigits 10 n⟩]
  | .negSucc n => [⟨.operator, ['-']⟩, ⟨.number, Nat.toDigits 10 (n + 1)⟩]

/-- The precedence in a script. -/
def lexemes : Precedence → List Lexeme
  | number n => integer n.toInt
  | name text => [⟨.string, quote text.toList⟩]

end Precedence

namespace RuleBody

mutual

/-- The names of the rules that a body refers to, in order and with repeats. -/
def symbols : RuleBody → List String
  | symbol rule => [rule.text]
  | literal _ => []
  | seq parts | choice parts => symbolsOfParts parts
  | repetition part | field _ part | prec _ part => symbols part

/-- The names of the rules that bodies refer to. -/
def symbolsOfParts : List RuleBody → List String
  | [] => []
  | b :: bs => symbols b ++ symbolsOfParts bs

end

/-! ### As JSON -/

/-- An object of some type. -/
def tagged (type : String) (members : List (String × Value)) : Value :=
  .object (("type", .string type) :: members)

mutual

/-- The body in a document. -/
def value : RuleBody → Value
  | symbol rule => tagged "SYMBOL" [("name", .string rule.text)]
  | literal text => tagged "STRING" [("value", .string text)]
  | seq parts => tagged "SEQ" [("members", .list (values parts))]
  | choice parts => tagged "CHOICE" [("members", .list (values parts))]
  | repetition part => tagged "REPEAT" [("content", value part)]
  | field name part => tagged "FIELD" [("name", .string name), ("content", value part)]
  | prec level part => tagged "PREC" [("value", level.value), ("content", value part)]

/-- Bodies in a document. -/
def values : List RuleBody → List Value
  | [] => []
  | b :: bs => value b :: values bs

end

/-! ### As a script -/

/-- A call of a function of the grammar language. -/
def call (function : String) (arguments : List Lexeme) : List Lexeme :=
  ⟨.ident, function.toList⟩ :: ⟨.opening .paren, ['(']⟩ :: (arguments ++ [⟨.closing .paren, [')']⟩])

mutual

/-- The body in a script. -/
def lexemes : RuleBody → List Lexeme
  | symbol rule => [⟨.ident, ['$']⟩, ⟨.dot, ['.']⟩, ⟨.ident, rule.text.toList⟩]
  | literal text => [⟨.string, quote text.toList⟩]
  | seq parts => call "seq" (lexemesOfParts parts)
  | choice parts => call "choice" (lexemesOfParts parts)
  | repetition part => call "repeat" (lexemes part)
  | field name part =>
    call "field" (⟨.string, quote name.toList⟩ :: ⟨.comma, [',']⟩ :: lexemes part)
  | prec level part => call "prec" (level.lexemes ++ ⟨.comma, [',']⟩ :: lexemes part)

/-- Bodies in a script, with commas between them. -/
def lexemesOfParts : List RuleBody → List Lexeme
  | [] => []
  | [b] => lexemes b
  | b :: c :: bs => lexemes b ++ ⟨.comma, [',']⟩ :: lexemesOfParts (c :: bs)

end

end RuleBody

namespace AbstractGrammar

/-- The names of the rules. -/
def names (g : AbstractGrammar) : List String := g.rules.map fun r ↦ r.1.text

/-- The names of the rules that the grammar refers to, in order and with repeats. -/
def symbols (g : AbstractGrammar) : List String := g.rules.flatMap fun r ↦ r.2.symbols

/-- The grammar as a document. -/
def document (g : AbstractGrammar) : Value :=
  .object [("name", .string g.name.text),
    ("rules", .object (g.rules.map fun r ↦ (r.1.text, r.2.value)))]

/-- A rule in a script: a function from the symbols to its body. -/
def rule (r : Identifier × RuleBody) : List Lexeme :=
  ⟨.ident, r.1.text.toList⟩ :: ⟨.colon, [':']⟩ :: ⟨.ident, ['$']⟩ :: ⟨.arrow, ['=', '>']⟩ ::
    r.2.lexemes

/-- Rules in a script, with commas between them. -/
def ruleLexemes : List (Identifier × RuleBody) → List Lexeme
  | [] => []
  | [r] => rule r
  | r :: s :: rs => rule r ++ ⟨.comma, [',']⟩ :: ruleLexemes (s :: rs)

/-- The call of `grammar` begins. -/
def calling : List Lexeme :=
  [⟨.ident, "module".toList⟩, ⟨.dot, ['.']⟩, ⟨.ident, "exports".toList⟩, ⟨.operator, ['=']⟩,
    ⟨.ident, "grammar".toList⟩, ⟨.opening .paren, ['(']⟩]

/-- The configuration begins, with the name. -/
def naming (g : AbstractGrammar) : List Lexeme :=
  [⟨.opening .brace, ['\x7b']⟩, ⟨.ident, "name".toList⟩, ⟨.colon, [':']⟩,
    ⟨.string, quote g.name.text.toList⟩, ⟨.comma, [',']⟩]

/-- The `rules` object begins. -/
def listing : List Lexeme :=
  [⟨.ident, "rules".toList⟩, ⟨.colon, [':']⟩, ⟨.opening .brace, ['\x7b']⟩]

/-- What stands behind the rules of a script. -/
def back : List Lexeme :=
  [⟨.closing .brace, ['\x7d']⟩, ⟨.closing .brace, ['\x7d']⟩, ⟨.closing .paren, [')']⟩]

/-- The grammar as a script. -/
def script (g : AbstractGrammar) : List Lexeme :=
  calling ++ (g.naming ++ (listing ++ (ruleLexemes g.rules ++ back)))

/-- The text is a way to write the grammar as a document. -/
def WritesDocument (g : AbstractGrammar) (text : String) : Prop :=
  Json.spelling.Writes g.document.lexemes text.toList

/-- The text is a way to write the grammar as a script. -/
def WritesScript (g : AbstractGrammar) (text : String) : Prop :=
  Script.spelling.Writes g.script text.toList

end AbstractGrammar

/-- What can begin a name can stand in it. -/
theorem isIdentPart_of_mem {cs : List Char} (h : isIdentifier cs = true) :
    ∀ c ∈ cs, Script.isIdentPart c = true := by
  cases cs with
  | nil => simp
  | cons c cs =>
    rw [isIdentifier, Bool.and_eq_true, List.all_eq_true] at h
    refine List.forall_mem_cons.mpr ⟨?_, h.2⟩
    have hc := h.1
    rw [Script.isIdentStart, Bool.or_eq_true, Bool.or_eq_true] at hc
    rcases hc with (hc | hc) | hc
    · simp [Script.isIdentPart, Char.isAlphanum, hc]
    · simp [Script.isIdentPart, hc]
    · simp [Script.isIdentPart, hc]

/-! ## All lexemes are read as they are written -/

theorem standalone_name {text : List Char} (h : isIdentifier text = true) :
    Lexeme.Standalone ⟨.ident, text⟩ := by
  cases text with
  | nil => contradiction
  | cons c cs =>
    rw [isIdentifier, Bool.and_eq_true, List.all_eq_true] at h
    exact standalone_ident h.1 h.2

namespace Precedence

theorem isExact_numberOf (level : Int64) : (numberOf level.toInt).isExact = true := by
  have hlt := level.toInt_lt
  have hle := level.le_toInt
  cases h : level.toInt with
  | ofNat n =>
    rw [h, Int.ofNat_eq_natCast] at hlt
    have hn : n ≤ Json.greatestNatural := by
      rw [Json.greatestNatural]
      omega
    simpa [numberOf, Number.isExact] using hn
  | negSucc n =>
    rw [h] at hle
    simp only [numberOf, Number.isExact, Bool.and_eq_true, decide_eq_true_eq]
    omega

theorem standalone_digits (n : Nat) : Lexeme.Standalone ⟨.number, Nat.toDigits 10 n⟩ := by
  have hdigits := Json.isDigit_of_mem_digits n
  obtain ⟨c, cs, hcs⟩ := List.exists_cons_of_ne_nil (@Nat.toDigits_ne_nil n 10)
  rw [hcs] at hdigits ⊢
  obtain ⟨hc, hcs⟩ := List.forall_mem_cons.mp hdigits
  refine standalone_number hc fun d hd ↦ ?_
  simp [Script.isNumberPart, Char.isAlphanum, hcs d hd]

theorem standalone_integer (n : Int) : ∀ l ∈ integer n, l.Standalone := by
  cases n with
  | ofNat n =>
    intro l hl
    rw [integer, List.mem_singleton] at hl
    exact hl ▸ standalone_digits n
  | negSucc n =>
    intro l hl
    rw [integer, List.mem_cons, List.mem_singleton] at hl
    rcases hl with rfl | rfl
    · exact standalone_operator (fun _ _ ↦ rfl) (by simp) (by simp)
    · exact standalone_digits (n + 1)

theorem standalone_lexemes (level : Precedence) : ∀ l ∈ level.lexemes, l.Standalone := by
  cases level with
  | number n => exact standalone_integer n.toInt
  | name text =>
    rw [lexemes]
    simpa using standalone_quote text.toList

theorem isExact_value (level : Precedence) : level.value.isExact = true := by
  cases level with
  | number n => exact isExact_numberOf n
  | name text => rfl

end Precedence

namespace RuleBody

mutual

theorem isExact_value : ∀ b : RuleBody, b.value.isExact = true
  | .symbol _ => rfl
  | .literal _ => rfl
  | .seq parts | .choice parts => by
    simp [value, tagged, Value.isExact, Value.membersExact, isExact_values parts]
  | .repetition part | .field _ part => by
    simp [value, tagged, Value.isExact, Value.membersExact, isExact_value part]
  | .prec level part => by
    simp [value, tagged, Value.isExact, Value.membersExact, isExact_value part,
      level.isExact_value]

theorem isExact_values : ∀ bs : List RuleBody, Value.itemsExact (values bs) = true
  | [] => rfl
  | b :: bs => by simp [values, Value.itemsExact, isExact_value b, isExact_values bs]

end

/-! ### Standing alone -/

theorem standalone_call {function : String} (hfunction : isIdentifier function.toList = true)
    {arguments : List Lexeme} (h : ∀ l ∈ arguments, l.Standalone) :
    ∀ l ∈ call function arguments, l.Standalone := by
  intro l hl
  rw [call, List.mem_cons, List.mem_cons, List.mem_append, List.mem_singleton] at hl
  rcases hl with rfl | rfl | hl | rfl
  · exact standalone_name hfunction
  · exact standalone_opening .paren
  · exact h l hl
  · exact standalone_closing .paren

mutual

theorem standalone_lexemes : ∀ b : RuleBody, ∀ l ∈ b.lexemes, l.Standalone
  | .symbol rule => by
    rw [lexemes]
    simp only [List.forall_mem_cons, List.not_mem_nil, false_imp_iff, implies_true, and_true]
    exact ⟨standalone_name rfl, standalone_dot, standalone_name rule.isIdentifier⟩
  | .literal text => by
    rw [lexemes]
    simpa using standalone_quote text.toList
  | .seq parts => standalone_call (by decide) (standalone_lexemesOfParts parts)
  | .choice parts => standalone_call (by decide) (standalone_lexemesOfParts parts)
  | .repetition part => standalone_call (by decide) (standalone_lexemes part)
  | .field name part => by
    refine standalone_call (by decide) ?_
    rw [List.forall_mem_cons, List.forall_mem_cons]
    exact ⟨standalone_quote name.toList, standalone_comma, standalone_lexemes part⟩
  | .prec level part => by
    refine standalone_call (by decide) ?_
    rw [List.forall_mem_append, List.forall_mem_cons]
    exact ⟨level.standalone_lexemes, standalone_comma, standalone_lexemes part⟩

theorem standalone_lexemesOfParts :
    ∀ bs : List RuleBody, ∀ l ∈ lexemesOfParts bs, l.Standalone
  | [] => by simp [lexemesOfParts]
  | [b] => by
    rw [lexemesOfParts]
    exact standalone_lexemes b
  | b :: c :: bs => by
    rw [lexemesOfParts, List.forall_mem_append, List.forall_mem_cons]
    exact ⟨standalone_lexemes b, standalone_comma, standalone_lexemesOfParts (c :: bs)⟩

end

end RuleBody

namespace AbstractGrammar

theorem isExact_document (g : AbstractGrammar) : g.document.isExact = true := by
  have hrules : ∀ rules : List (Identifier × RuleBody),
      Value.membersExact (rules.map fun r ↦ (r.1.text, r.2.value)) = true := by
    intro rules
    induction rules with
    | nil => rfl
    | cons r rs ih => simp [Value.membersExact, RuleBody.isExact_value, ih]
  simp [document, Value.isExact, Value.membersExact, hrules]

theorem standalone_rule (r : Identifier × RuleBody) : ∀ l ∈ rule r, l.Standalone := by
  rw [rule]
  simp only [List.forall_mem_cons]
  have harrow : Lexeme.Standalone ⟨.arrow, ['=', '>']⟩ :=
    standalone_operator (fun _ _ ↦ rfl) (by simp [Script.isOperatorChar]) (by simp)
  exact ⟨standalone_name r.1.isIdentifier, standalone_colon, standalone_name rfl, harrow,
    r.2.standalone_lexemes⟩

theorem standalone_ruleLexemes (rules : List (Identifier × RuleBody)) :
    ∀ l ∈ ruleLexemes rules, l.Standalone := by
  induction rules with
  | nil => simp [ruleLexemes]
  | cons r rs ih =>
    cases rs with
    | nil =>
      rw [ruleLexemes]
      exact standalone_rule r
    | cons s rs =>
      rw [ruleLexemes, List.forall_mem_append, List.forall_mem_cons]
      exact ⟨standalone_rule r, standalone_comma, ih⟩

theorem standalone_script (g : AbstractGrammar) : ∀ l ∈ g.script, l.Standalone := by
  have hequals : Lexeme.Standalone ⟨.operator, ['=']⟩ :=
    standalone_operator (fun _ _ ↦ rfl) (by simp) (by simp)
  have hword {word : String} (hword : isIdentifier word.toList = true) :=
    standalone_name hword
  simp only [script, calling, naming, listing, back, List.forall_mem_append,
    List.forall_mem_cons, List.not_mem_nil, false_imp_iff, implies_true, and_true]
  refine ⟨?_, ?_, ?_, standalone_ruleLexemes g.rules, ?_⟩
  · exact ⟨hword (by decide), standalone_dot, hword (by decide), hequals, hword (by decide),
      standalone_opening .paren⟩
  · exact ⟨standalone_opening .brace, hword (by decide), standalone_colon, standalone_quote _,
      standalone_comma⟩
  · exact ⟨hword (by decide), standalone_colon, standalone_opening .brace⟩
  · exact ⟨standalone_closing .brace, standalone_closing .brace, standalone_closing .paren⟩

end AbstractGrammar

end Concord
