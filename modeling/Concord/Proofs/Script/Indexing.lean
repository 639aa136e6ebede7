import Concord.Proofs.Script.Positions

/-!
# Scripts read by number

The scanner walks over a list of tokens.  Here it reads the tokens by their numbers and cuts their
texts out of the source, and each number, difference and slice is checked: where one is out of
bounds, there is no answer.  `Reader.scan?_eq` says that there always is one, the same as without
the checks.

* `Reader` are the checked operations of the scanner, and `Reader.Faithful` is what they need:
  slicing gives the texts of tokens, and strings have both of their quotes.
* Each operation `f?` has a lemma `f?_here`, for a token between the tokens before it and those
  behind it.  `Reader.step?_here` puts them together for one token, and `Reader.run?_eq` for all.
* `takeSlash?` reads a regular expression literal by its length in bytes, and `takeSlash?_eq` says
  that this stays within the text.
-/

set_option autoImplicit false

namespace Concord.Script

/-- The difference of two numbers, if the second one is not greater. -/
def less? (a b : Nat) : Option Nat := if b ≤ a then some (a - b) else none

theorem less?_add (a b : Nat) : less? (a + b) b = some a := by
  rw [less?, if_pos (Nat.le_add_left b a), Nat.add_sub_cancel]

/-! ## Regular expression literals -/

/-- The length in bytes of the literal that a slash begins in front of a text, if it begins one. -/
def regexLength? (cs : List Char) : Option (Option Nat) :=
  match regexBody false false cs with
  | none => some none
  | some (body, _) => (cut? (utf8Length ('/' :: body)) ('/' :: cs)).map fun (_, flags) ↦
      some (utf8Length ('/' :: body) + utf8Length (flags.takeWhile Char.isAlpha))

/-- A slash that divides or begins a literal; behind the slash of a literal, the lexer is moved to
its end. -/
def takeSlash? (previous : Option Lexeme) (cs : List Char) : Option (Lexeme × List Char) :=
  if allowsRegex previous then do
    match ← regexLength? cs with
    | none => return (⟨.slash, ['/']⟩, cs)
    | some length =>
      let (body, rest) ← cut? (← less? length 1) cs
      return (⟨.regex, '/' :: body⟩, rest)
  else some (⟨.slash, ['/']⟩, cs)

theorem regexLength?_eq (cs : List Char) :
    regexLength? cs = some ((regexRest cs).map fun (body, _) ↦ utf8Length body + 1) := by
  rw [regexLength?, regexRest]
  cases hbody : regexBody false false cs with
  | none => rfl
  | some found =>
    obtain ⟨body, rest⟩ := found
    obtain rfl := regexBody_append hbody
    have hslash : utf8Length ('/' :: body) = utf8Length body + 1 := Nat.add_comm _ _
    dsimp only
    rw [← List.cons_append, cut?_append, Option.map_some, Option.map_some, Option.map_some, hslash]
    dsimp only
    rw [utf8Length_append, Nat.add_right_comm]

/-- **The lexer is moved within the text**, to the end of the literal. -/
theorem takeSlash?_eq (previous : Option Lexeme) (cs : List Char) :
    takeSlash? previous cs = some (takeSlash previous cs) := by
  rw [takeSlash?, takeSlash, regexLength?_eq]
  split
  · cases hrest : regexRest cs with
    | none => rfl
    | some found =>
      obtain ⟨body, rest⟩ := found
      obtain rfl := regexRest_append hrest
      simp only [Option.map_some, Option.bind_eq_bind, Option.bind_some, less?_add, cut?_append]
      rfl
  · rfl

/-- Wherever the lexer stands, the rest of the source can be cut off. -/
theorem cut?_pieces {cs : List Char} {before after : List Lexeme}
    (h : pieces none cs = before ++ after) :
    cut? (utf8Length (before.flatMap Lexeme.text)) cs =
      some (before.flatMap Lexeme.text, after.flatMap Lexeme.text) := by
  have hcs := flatMap_text_pieces none cs
  rw [h, List.flatMap_append] at hcs
  conv_lhs => rw [← hcs]
  exact cut?_append _ _

/-! ## Tokens by their numbers -/

/-- Declares a rule at a place, and remarks on it if there is one of its name. -/
def ScanState.declared (s : ScanState) (key : List Char) (span : Span) : ScanState :=
  let name := String.ofList key
  let (grammar, previous) := s.grammar.declare ⟨name, some span⟩
  let s := { s with grammar }
  match previous with
  | none => s
  | some first => s.report
    { kind := .duplicateRule
      span := span
      message := "rule `" ++ name ++ "` is declared more than once"
      related := first.span.toList.map (⟨"previously declared here", ·⟩) }

theorem ScanState.declaration_eq (s : ScanState) (before : List Token) (t : Token)
    (after : List Token) :
    s.declaration before t after =
      if s.topRole = .rules ∧ atMemberStart before ∧
          (nearest? after = some .colon ∨ nearest? after = some (.opening .paren)) then
        match t.key? with
        | none => s
        | some key => s.declared key t.span
      else s := rfl

/-- A source, and the tokens that it has been cut into. -/
structure Reader where
  source : List Char
  tokens : List Token

/-- The text of a quoted string without its quotes. -/
def unquoted? (text : List Char) : Option (List Char) :=
  (less? (utf8Length text) 1).bind fun stop ↦ slice? text ⟨1, stop⟩

namespace Reader

section Operations

variable (r : Reader)

/-- The text of a token, cut out of the source. -/
def text? (t : Token) : Option (List Char) := slice? r.source t.span

/-- The text of token number `i`. -/
def textAt? (i : Nat) : Option (List Char) := r.tokens[i]?.bind r.text?

/-- The key that token number `i` stands for, if there is such a token and it stands for one. -/
def keyAt? (i : Nat) : Option (Option (List Char)) :=
  match r.tokens[i]? with
  | none => some none
  | some t => match t.kind with
    | .ident => (r.text? t).map some
    | .string => ((r.text? t).bind unquoted?).map some
    | _ => some none

/-- Whether token number `i` stands where a member of an object can begin. -/
def startsMember (i : Nat) : Bool :=
  match less? i 1 with
  | none => false
  | some j =>
    kindAt r.tokens j == some (.opening .brace) || kindAt r.tokens j == some .comma

/-- Whether a member's key and a colon stand right before token number `i`. -/
def followsKey? (key : String) (i : Nat) : Option Bool :=
  if i < 2 then some false
  else do
    if kindAt r.tokens (← less? i 1) = some .colon then
      let name ← less? i 2
      return (← r.keyAt? name) == some key.toList && r.startsMember name
    else return false

/-- Whether the name of a call stands right before token number `i`. -/
def followsName? (name : String) (i : Nat) : Option Bool :=
  match less? i 1 with
  | none => some false
  | some j =>
    if kindAt r.tokens j = some .ident then (r.textAt? j).map (· == name.toList) else some false

/-- The role of a delimiter that is opened by token number `i`. -/
def openingRole? (s : ScanState) (d : Delimiter) (i : Nat) : Option Role :=
  match d with
  | .paren =>
    if s.mode = .call ∧ !s.callSeen then
      (r.followsName? "grammar" i).map fun call ↦ if call then .call else .plain
    else some .plain
  | .brace =>
    if s.mode = .call ∧ s.topRole = .call ∧ !s.configSeen then some .config
    else if (s.mode = .call → s.topRole = .config) ∧ !s.rulesSeen then
      (r.followsKey? "rules" i).map fun rules ↦ if rules then .rules else .plain
    else some .plain
  | .bracket => some .plain

/-- Opens a delimiter at token number `i`. -/
def opened? (s : ScanState) (d : Delimiter) (i : Nat) : Option ScanState := do
  let role ← r.openingRole? s d i
  let t ← r.tokens[i]?
  return (s.note role).push d role t.span

/-- The number of the last element of which `p` holds. -/
def lastNumber? {α : Type} (p : α → Bool) (as : List α) : Option Nat :=
  (as.reverse.findIdx? p).map (as.length - 1 - ·)

/-- Closes a delimiter at token number `i`.  The open ones are numbered from the outermost on. -/
def closed? (s : ScanState) (d : Delimiter) (i : Nat) : Option ScanState := do
  let t ← r.tokens[i]?
  match lastNumber? (·.delimiter = d) s.stack.reverse with
  | none =>
    let text ← r.text? t
    return s.report
      { kind := .unbalancedDelimiter
        span := t.span
        message := "`" ++ String.ofList text ++ "` has no matching opener" }
  | some number =>
    let (kept, skipped) ← splitAt? (number + 1) s.stack.reverse
    let notes := skipped.map
      (ScanState.neverClosed · [⟨"enclosing delimiter closed here", t.span⟩])
    return { s with
      stack := kept.dropLast.reverse, diagnostics := s.diagnostics ++ notes.toArray }

/-- Declares a rule where token number `i` is a key of the `rules` object. -/
def declaration? (s : ScanState) (i : Nat) : Option ScanState :=
  if s.topRole = .rules ∧ r.startsMember i ∧
      (kindAt r.tokens (i + 1) = some .colon ∨
        kindAt r.tokens (i + 1) = some (.opening .paren)) then
    do match ← r.keyAt? i with
      | none => return s
      | some key => return s.declared key (← r.tokens[i]?).span
  else some s

/-- Names the grammar where token number `i` is the key `name` with a string behind it. -/
def grammarName? (s : ScanState) (i : Nat) : Option ScanState := do
  if s.topRole = .config then
    if (← r.tokens[i]?).kind = .ident then
      if (← r.textAt? i) = "name".toList ∧ r.startsMember i ∧
          kindAt r.tokens (i + 1) = some .colon ∧ kindAt r.tokens (i + 2) = some .string then
        let key ← r.keyAt? (i + 2)
        return { s with grammar := { s.grammar with name := key.map String.ofList } }
  return s

/-- Refers to a rule where `$.name` stands from token number `i` on. -/
def reference? (s : ScanState) (i : Nat) : Option ScanState := do
  if (← r.tokens[i]?).kind = .ident then
    if (← r.textAt? i) = ['$'] ∧ kindAt r.tokens (i + 1) = some .dot ∧
        kindAt r.tokens (i + 2) = some .ident then
      let name ← r.textAt? (i + 2)
      return { s with grammar := s.grammar.refer (String.ofList name) }
  return s

/-- Goes past token number `i`. -/
def step? (s : ScanState) (i : Nat) : Option ScanState := do
  match (← r.tokens[i]?).kind with
  | .opening d => r.opened? s d i
  | .closing d => r.closed? s d i
  | .ident | .string => do r.reference? (← r.grammarName? (← r.declaration? s i) i) i
  | _ => return s

/-- Goes past all tokens, by their numbers. -/
def run? (s : ScanState) : Option ScanState := (List.range r.tokens.length).foldlM r.step? s

/-- Walks over the tokens once, or twice if there is no call of `grammar`. -/
def scan? : Option ScanState := do
  let s ← r.run? { mode := .call }
  if s.callSeen then return s else r.run? { mode := .anywhere }

end Operations

/-- The checked operations have what they need: slicing gives the texts of the tokens, and strings
have both of their quotes. -/
structure Faithful (r : Reader) : Prop where
  text : ∀ t ∈ r.tokens, slice? r.source t.span = some t.text
  quoted : ∀ t ∈ r.tokens, t.kind = .string → Quoted t.text

end Reader

/-- **A quoted string has two quotes**, so that there is something between them. -/
theorem unquoted?_eq {text : List Char} (h : Quoted text) :
    unquoted? text = some (text.drop 1).dropLast := by
  obtain ⟨quote, body, hquote, rfl⟩ := h
  have hsize : quote.utf8Size = 1 := by rcases hquote with rfl | rfl <;> rfl
  have hlength : utf8Length (quote :: (body ++ [quote])) = (1 + utf8Length body) + 1 := by
    simp [hsize, Nat.add_assoc]
  rw [unquoted?, hlength, less?_add, Option.bind_some, List.drop_one, List.tail_cons,
    List.dropLast_concat]
  exact slice?_eq_some_iff.mpr ⟨[quote], [quote], rfl, by simp [hsize]⟩

namespace Reader

variable {r : Reader} {before after : List Token} {t : Token} {s : ScanState}

theorem step_on {ts : List Token} {a : Token} (hts : ts = before.reverse ++ t :: a :: after) :
    ts = (t :: before).reverse ++ a :: after := by
  simpa using hts

section Here

variable (hts : r.tokens = before.reverse ++ t :: after)
include hts

theorem startsMember_here : r.startsMember before.length = atMemberStart before := by
  cases before with
  | nil => rfl
  | cons b before =>
    have hkind := kindAt_here (step_back hts)
    rw [startsMember, List.length_cons, less?_add]
    dsimp only
    rw [hkind]
    rfl

variable (h : r.Faithful)
include h

theorem text?_here : r.text? t = some t.text := h.text t (by simp [hts])

theorem textAt?_here : r.textAt? before.length = some t.text := by
  rw [textAt?, getElem?_here hts, Option.bind_some, text?_here hts h]

theorem keyAt?_here : r.keyAt? before.length = some t.key? := by
  have htext := text?_here hts h
  rw [keyAt?, getElem?_here hts, Token.key?]
  dsimp only
  cases hkind : t.kind with
  | ident => rw [htext, Option.map_some]
  | string =>
    have hquoted := h.quoted t (by simp [hts]) hkind
    rw [htext, Option.bind_some, unquoted?_eq hquoted]
    rfl
  | _ => rfl

theorem followsName?_here (name : String) :
    r.followsName? name before.length = some (followsName name before) := by
  cases before with
  | nil => rfl
  | cons b before =>
    have hts := step_back hts
    rw [followsName?, List.length_cons, less?_add]
    dsimp only
    rw [kindAt_here hts, textAt?_here hts h, followsName, List.head?_cons]
    by_cases hkind : b.kind = .ident <;> simp [hkind]

theorem followsKey?_here (key : String) :
    r.followsKey? key before.length = some (followsKey key before) := by
  match before with
  | [] => rfl
  | [_] => rfl
  | colon :: name :: before =>
    have hcolon := step_back hts
    have hname := step_back hcolon
    have hlt : ¬ before.length + 1 + 1 < 2 := by omega
    have hless : less? (before.length + 1 + 1) 1 = some (before.length + 1) := less?_add _ 1
    have hless' : less? (before.length + 1 + 1) 2 = some before.length := less?_add _ 2
    have hkind := kindAt_here hcolon
    rw [List.length_cons] at hkind
    rw [followsKey?, List.length_cons, List.length_cons, if_neg hlt]
    simp only [hless, hless', Option.bind_eq_bind, Option.bind_some, hkind, keyAt?_here hname h,
      startsMember_here hname, followsKey]
    by_cases hcolon : colon.kind = .colon <;> simp [hcolon]

/-- The role of a delimiter. -/
theorem openingRole?_here (s : ScanState) (d : Delimiter) :
    r.openingRole? s d before.length = some (s.openingRole d before) := by
  cases d with
  | paren =>
    rw [openingRole?, ScanState.openingRole, followsName?_here hts h]
    split <;> simp_all
  | brace =>
    rw [openingRole?, ScanState.openingRole, followsKey?_here hts h]
    split
    · rfl
    · split <;> simp_all
  | bracket => rfl

theorem opened?_here (s : ScanState) (d : Delimiter) :
    r.opened? s d before.length = some (s.opened d before t) := by
  rw [opened?, openingRole?_here hts h, getElem?_here hts, ScanState.opened_eq]
  rfl

omit hts h

section Frames

variable {p : Frame → Bool} {front outer : List Frame} {f : Frame}

theorem lastNumber?_eq_none (h : ∀ g ∈ front, p g = false) :
    lastNumber? p front.reverse = none := by
  rw [lastNumber?, List.reverse_reverse, List.findIdx?_eq_none_iff.mpr h, Option.map_none]

/-- The innermost frame with `p` has as many frames around it as its number says. -/
theorem lastNumber?_eq_some (hfront : ∀ g ∈ front, p g = false) (hf : p f = true) :
    lastNumber? p (front ++ f :: outer).reverse = some outer.length := by
  have hfind : (front ++ f :: outer).findIdx? p = some front.length := by
    rw [List.findIdx?_append, List.findIdx?_eq_none_iff.mpr hfront]
    simp [List.findIdx?_cons, hf]
  rw [lastNumber?, List.reverse_reverse, hfind, Option.map_some, List.length_reverse,
    List.length_append, List.length_cons]
  congr 1
  omega

/-- The frames up to that one, and those within it. -/
theorem splitAt?_frames :
    splitAt? (outer.length + 1) (front ++ f :: outer).reverse =
      some (outer.reverse ++ [f], front.reverse) := by
  have happend : (front ++ f :: outer).reverse = (outer.reverse ++ [f]) ++ front.reverse := by simp
  have hlength : outer.length + 1 = (outer.reverse ++ [f]).length := by simp
  rw [happend, hlength, splitAt?_append]

end Frames

include hts h in
/-- **Closing a delimiter** drops the frames within the one that is closed. -/
theorem closed?_here (s : ScanState) (d : Delimiter) :
    r.closed? s d before.length = some (s.closed d t) := by
  have htext := text?_here hts h
  rw [closed?, getElem?_here hts, ScanState.closed]
  have hskipped : ∀ g ∈ s.stack.takeWhile (·.delimiter ≠ d), decide (g.delimiter = d) = false :=
    fun g hg ↦ by simpa using List.all_eq_true.mp List.all_takeWhile g hg
  have hstack := List.takeWhile_append_dropWhile (p := fun f : Frame ↦ decide (f.delimiter ≠ d))
    (l := s.stack)
  cases hdrop : s.stack.dropWhile (·.delimiter ≠ d) with
  | nil =>
    rw [hdrop, List.append_nil] at hstack
    rw [hstack] at hskipped
    simp only [Option.bind_eq_bind, Option.bind_some, lastNumber?_eq_none hskipped, htext]
    rfl
  | cons f outer =>
    have hf : decide (f.delimiter = d) = true := by
      have hhead := List.head?_dropWhile_not (fun f : Frame ↦ decide (f.delimiter ≠ d)) s.stack
      rw [hdrop] at hhead
      simpa using hhead
    rw [hdrop] at hstack
    have hlast : lastNumber? (fun f : Frame ↦ decide (f.delimiter = d)) s.stack.reverse =
        some outer.length :=
      (congrArg (lastNumber? _ ·.reverse) hstack).symm.trans (lastNumber?_eq_some hskipped hf)
    have hsplit : splitAt? (outer.length + 1) s.stack.reverse =
        some (outer.reverse ++ [f], (s.stack.takeWhile (·.delimiter ≠ d)).reverse) :=
      (congrArg (splitAt? _ ·.reverse) hstack).symm.trans splitAt?_frames
    simp only [Option.bind_eq_bind, Option.bind_some, hlast, hsplit, List.dropLast_concat,
      List.reverse_reverse]
    rfl

include hts h in
theorem declaration?_here (s : ScanState) :
    r.declaration? s before.length = some (s.declaration before t after) := by
  rw [declaration?, startsMember_here hts, kindAt_next hts, ScanState.declaration_eq]
  split
  · rw [keyAt?_here hts h, getElem?_here hts]
    cases t.key? <;> rfl
  · rfl

include hts in
theorem kindAt_second : kindAt r.tokens (before.length + 2) = nearest? after.tail := by
  cases after with
  | nil =>
    rw [hts, kindAt, List.getElem?_eq_none (by simp)]
    rfl
  | cons a after => exact kindAt_next (step_on hts)

include hts h in
theorem grammarName?_here (s : ScanState) :
    r.grammarName? s before.length = some (s.grammarName before t after) := by
  rw [grammarName?, getElem?_here hts, textAt?_here hts h, startsMember_here hts, kindAt_next hts,
    kindAt_second hts]
  unfold ScanState.grammarName
  simp only [Option.bind_eq_bind, Option.bind_some]
  match after with
  | [] => simp [nearest?]
  | [_] => simp [nearest?]
  | colon :: value :: after =>
    have hkey : r.keyAt? (before.length + 2) = some value.key? :=
      keyAt?_here (step_on (step_on hts)) h
    simp only [nearest?, List.head?_cons, List.tail_cons, Option.map_some, Option.some_inj, hkey,
      Option.bind_some]
    split
    · split
      · split <;> simp_all
      · simp_all
    · simp_all

include hts h in
theorem reference?_here (s : ScanState) :
    r.reference? s before.length = some (s.reference t after) := by
  rw [reference?, getElem?_here hts, textAt?_here hts h, kindAt_next hts, kindAt_second hts]
  unfold ScanState.reference
  simp only [Option.bind_eq_bind, Option.bind_some]
  match after with
  | [] => simp [nearest?]
  | [_] => simp [nearest?]
  | dot :: name :: after =>
    have hname : r.textAt? (before.length + 2) = some name.text :=
      textAt?_here (step_on (step_on hts)) h
    simp only [nearest?, List.head?_cons, List.tail_cons, Option.map_some, Option.some_inj, hname,
      Option.bind_some]
    split
    · split <;> simp_all
    · simp_all

include hts h in
/-- **One step by number** is one step of the scanner. -/
theorem step?_here (s : ScanState) :
    r.step? s before.length = some (s.step before t after) := by
  rw [step?, getElem?_here hts, ScanState.step]
  simp only [Option.bind_eq_bind, Option.bind_some, declaration?_here hts h,
    grammarName?_here hts h, reference?_here hts h]
  cases t.kind with
  | opening d => exact opened?_here hts h s d
  | closing d => exact closed?_here hts h s d
  | _ => rfl

end Here

/-- **Going past the tokens by their numbers** is going past the list of them. -/
theorem foldlM_step? (h : r.Faithful) (hts : r.tokens = before.reverse ++ after) (s : ScanState) :
    (List.range' before.length after.length).foldlM r.step? s = some (s.run before after) := by
  induction after generalizing before s with
  | nil => rfl
  | cons t after ih =>
    have hrest : r.tokens = (t :: before).reverse ++ after := by simpa using hts
    rw [List.length_cons, List.range'_succ, List.foldlM_cons, step?_here hts h]
    exact ih hrest _

theorem run?_eq (h : r.Faithful) (s : ScanState) : r.run? s = some (s.run [] r.tokens) := by
  rw [run?, List.range_eq_range']
  have hts : r.tokens = [].reverse ++ r.tokens := rfl
  exact foldlM_step? h hts s

/-- **Nothing is read out of bounds**, and what is found is the same. -/
theorem scan?_eq (h : r.Faithful) : r.scan? = some (scanTokens r.tokens) := by
  rw [scan?, scanTokens, run?_eq h, run?_eq h]
  dsimp only [Option.bind_eq_bind, Option.bind_some]
  split <;> rfl

/-- A source with its own tokens. -/
def ofSource (source : String) : Reader := ⟨source.toList, tokenize source⟩

theorem faithful_ofSource (source : String) : (ofSource source).Faithful :=
  ⟨fun _ ↦ slice?_of_mem_tokenize, fun _ ↦ quoted_of_mem_tokenize⟩

end Reader

end Concord.Script
