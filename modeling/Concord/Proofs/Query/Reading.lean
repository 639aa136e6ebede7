import Concord.Proofs.Query.Conservation
import Concord.Proofs.Run

/-!
# Reading what is well formed

Equations for the productions on lexemes that have the right form, so that a production takes
them without a report.  Each equation leaves open what follows.  Only two things about it matter:
a pattern takes every quantifier and every capture behind it, so a reading can be cut off only in
front of something else (`NoSuffix`), and a field is told from a bare name by its colon.

* `Reads p w ts` says that the production `p` takes exactly `w` and makes `ts` of it.
* `ReadsEach p w ts` says that `p` takes `w` word by word, and `ReadsEach.patterns_eq` that a list
  of patterns then reads `w` too.
* `captured_quantified_eq` says what the quantifier and the captures behind an atom become.
* `atom_tree`, `atom_group` and their like read one atom each.
* `ReadsArguments w ts` says it of the arguments of a predicate.
-/

set_option autoImplicit false

namespace Concord.Query

/-- The kinds that go on with the pattern in front of them. -/
def TokenKind.isSuffix (k : TokenKind) : Bool := k.isQuantifier || k = .captureName

namespace Production

/-! ## What stands ahead -/

/-- The next lexeme, if there is one, does not go on with a pattern. -/
def NoSuffix (ls : List Lexeme) : Prop := ∀ l ∈ ls.head?, l.kind.isSuffix = false

/-- The next lexeme, if there is one, begins a pattern. -/
def PatternAhead (ls : List Lexeme) : Prop := ∀ l ∈ ls.head?, l.kind.startsPattern = true

theorem noSuffix_cons {l : Lexeme} {ls : List Lexeme} :
    NoSuffix (l :: ls) ↔ l.kind.isSuffix = false := by
  simp [NoSuffix]

theorem noSuffix_nil : NoSuffix [] := by simp [NoSuffix]

theorem PatternAhead.noSuffix {ls tail : List Lexeme} (h : PatternAhead ls)
    (htail : NoSuffix tail) : NoSuffix (ls ++ tail) := by
  cases ls with
  | nil => exact htail
  | cons l ls =>
    have hl := h l rfl
    rw [List.cons_append, noSuffix_cons]
    revert hl
    cases l.kind <;> decide

/-! ## Sequences -/

theorem andThen_nothing {ts : List (Tree Lexeme)} {ls : List Lexeme} {next : Production}
    (h : next ls = ⟨[], [], ls⟩) : Parsed.andThen ⟨ts, [], ls⟩ next = ⟨ts, [], ls⟩ := by
  rw [Parsed.andThen, h]
  simp

/-- A sequence is clean if its parts are, one behind the other. -/
theorem seq_eq {p : Production} {ps : List Production} {ls mid rest : List Lexeme}
    {ts us : List (Tree Lexeme)} (hp : p ls = ⟨ts, [], mid⟩)
    (hps : seq ps mid = ⟨us, [], rest⟩) : seq (p :: ps) ls = ⟨ts ++ us, [], rest⟩ := by
  rw [seq_cons, hp, Parsed.andThen, hps]
  rfl

theorem seq_last {p : Production} {ls rest : List Lexeme} {ts : List (Tree Lexeme)}
    (hp : p ls = ⟨ts, [], rest⟩) : seq [p] ls = ⟨ts, [], rest⟩ := by
  rw [seq_eq hp (seq_nil rest), List.append_nil]

theorem node_eq {p : Production} {ls rest : List Lexeme} {ts : List (Tree Lexeme)}
    (kind : NodeKind) (hp : p ls = ⟨ts, [], rest⟩) :
    node kind p ls = ⟨[.node kind ts], [], rest⟩ := by
  rw [node, hp, Parsed.wrap]

theorem close_eq {kind : TokenKind} {c : Lexeme} (h : c.kind = kind) (problem : Nat → Problem)
    (opener ls : List Lexeme) : close kind problem opener (c :: ls) = ⟨[.leaf c], [], ls⟩ := by
  simp [close, h]

theorem expect_eq {kind : TokenKind} {l : Lexeme} (h : l.kind = kind) (problem : Problem)
    (ls : List Lexeme) : expect kind problem (l :: ls) = ⟨[.leaf l], [], ls⟩ := by
  simp [expect, h]

/-! ## Suffixes -/

/-- Puts trees into a quantifier, if there is one. -/
def inQuantifier (mark : Option Lexeme) (ts : List (Tree Lexeme)) : List (Tree Lexeme) :=
  match mark with
  | none => ts
  | some l => [.node .quantifier (ts ++ [.leaf l])]

/-- Puts trees into captures, if there are any. -/
def inCaptures (names : List Lexeme) (ts : List (Tree Lexeme)) : List (Tree Lexeme) :=
  if names.isEmpty then ts else [.node .capture (ts ++ names.map .leaf)]

theorem quantified_eq {mark : Option Lexeme} {ts : List (Tree Lexeme)} {rest : List Lexeme}
    (hmark : ∀ l ∈ mark, l.kind.isQuantifier = true)
    (hrest : mark = none → ∀ l ∈ rest.head?, l.kind.isQuantifier = false) :
    quantified ⟨ts, [], mark.toList ++ rest⟩ = ⟨inQuantifier mark ts, [], rest⟩ := by
  cases mark with
  | none =>
    cases rest with
    | nil => simp [quantified, inQuantifier]
    | cons l rest => simp [quantified, inQuantifier, hrest rfl l rfl]
  | some l => simp [quantified, inQuantifier, hmark l rfl, Parsed.andThen, Parsed.wrap]

theorem captured_eq {names : List Lexeme} {ts : List (Tree Lexeme)} {rest : List Lexeme}
    (hnames : ∀ l ∈ names, l.kind = .captureName)
    (hrest : ∀ l ∈ rest.head?, l.kind ≠ .captureName) :
    captured ⟨ts, [], names ++ rest⟩ = ⟨inCaptures names ts, [], rest⟩ := by
  obtain ⟨htake, hdrop⟩ : (names ++ rest).takeWhile (fun l ↦ decide (l.kind = .captureName)) =
        names ∧
      (names ++ rest).dropWhile (fun l ↦ decide (l.kind = .captureName)) = rest :=
    run_eq (by simpa using hnames) (by simpa using hrest)
  cases names with
  | nil =>
    rw [captured, if_neg]
    · rfl
    · cases rest with
      | nil => simp
      | cons l rest => simpa using hrest l rfl
  | cons n names =>
    rw [captured, if_pos (by simp [hnames n List.mem_cons_self]), htake, hdrop]
    rfl

/-- **What stands behind an atom**: a quantifier, then captures. -/
theorem captured_quantified_eq {mark : Option Lexeme} {names : List Lexeme}
    {ts : List (Tree Lexeme)} {rest : List Lexeme}
    (hmark : ∀ l ∈ mark, l.kind.isQuantifier = true)
    (hnames : ∀ l ∈ names, l.kind = .captureName)
    (hquant : mark = none → names = [] → ∀ l ∈ rest.head?, l.kind.isQuantifier = false)
    (hrest : ∀ l ∈ rest.head?, l.kind ≠ .captureName) :
    captured (quantified ⟨ts, [], mark.toList ++ (names ++ rest)⟩) =
      ⟨inCaptures names (inQuantifier mark ts), [], rest⟩ := by
  rw [quantified_eq hmark, captured_eq hnames hrest]
  intro hnone l hl
  cases names with
  | nil => exact hquant hnone rfl l hl
  | cons n names =>
    rw [List.cons_append, List.head?_cons, Option.mem_some_iff] at hl
    rw [← hl, hnames n List.mem_cons_self]
    rfl

/-! ## Patterns one behind the other -/

/-- The production takes exactly `w` and makes `ts` of it, whatever follows that does not go on
with a pattern. -/
def Reads (p : Production) (w : List Lexeme) (ts : List (Tree Lexeme)) : Prop :=
  ∀ tail, NoSuffix tail → p (w ++ tail) = ⟨ts, [], tail⟩

section Nested

variable {P : Production} {stop : TokenKind → Bool}

/-- Takes one pattern off the front of a list of patterns. -/
theorem patterns_append (hP : Advances P) (hstop : ∀ k, k.startsPattern = true → stop k = false)
    {w : List Lexeme} {ts : List (Tree Lexeme)} (hne : w ≠ []) (hw : PatternAhead w)
    (hreads : Reads P w ts) {tail : List Lexeme} (htail : NoSuffix tail) :
    patterns P stop (w ++ tail) = Parsed.andThen ⟨ts, [], tail⟩ (patterns P stop) := by
  obtain ⟨l, ls, rfl⟩ := List.exists_cons_of_ne_nil hne
  have hl := hw l rfl
  rw [List.cons_append, patterns_cons hP, if_neg (by simp [hstop _ hl]), if_pos hl,
    ← List.cons_append, hreads tail htail]

/-- A closing lexeme ends a list of patterns. -/
theorem patterns_closed (hP : Advances P) {c : Lexeme} (hc : stop c.kind = true)
    (ls : List Lexeme) : patterns P stop (c :: ls) = ⟨[], [], c :: ls⟩ := by
  rw [patterns_cons hP, if_pos hc]

/-- Words that the production reads one behind the other, and the trees that it makes of them. -/
inductive ReadsEach (P : Production) : List Lexeme → List (Tree Lexeme) → Prop where
  | nil : ReadsEach P [] []
  | cons {v w : List Lexeme} {ts us : List (Tree Lexeme)} (hne : v ≠ []) (hahead : PatternAhead v)
    (hreads : Reads P v ts) (h : ReadsEach P w us) : ReadsEach P (v ++ w) (ts ++ us)

theorem ReadsEach.patternAhead {w : List Lexeme} {ts : List (Tree Lexeme)}
    (h : ReadsEach P w ts) : PatternAhead w := by
  cases h with
  | nil => simp [PatternAhead]
  | @cons v w ts us hne hahead _ _ =>
    obtain ⟨l, v, rfl⟩ := List.exists_cons_of_ne_nil hne
    exact hahead

/-- A list of patterns reads such words. -/
theorem ReadsEach.patterns_eq (hP : Advances P)
    (hstop : ∀ k, k.startsPattern = true → stop k = false) {w : List Lexeme}
    {ts : List (Tree Lexeme)} (h : ReadsEach P w ts) {tail : List Lexeme} (htail : NoSuffix tail) :
    patterns P stop (w ++ tail) = Parsed.andThen ⟨ts, [], tail⟩ (patterns P stop) := by
  induction h with
  | nil => rfl
  | cons hne hahead hreads h ih =>
    have hnosuffix := h.patternAhead.noSuffix htail
    rw [List.append_assoc, patterns_append hP hstop hne hahead hreads hnosuffix, Parsed.andThen, ih]
    simp [Parsed.andThen]

/-- A list of patterns reads such words, up to what closes the list. -/
theorem ReadsEach.patterns_closed (hP : Advances P) {close : TokenKind}
    (hclose : close.startsPattern = false ∧ close.isSuffix = false) {w : List Lexeme}
    {ts : List (Tree Lexeme)} (h : ReadsEach P w ts) {c : Lexeme} (hc : c.kind = close)
    (tail : List Lexeme) :
    patterns P (· = close) (w ++ c :: tail) = ⟨ts, [], c :: tail⟩ := by
  have hstop : ∀ k : TokenKind, k.startsPattern = true → decide (k = close) = false := by
    intro k hk
    rw [decide_eq_false_iff_not]
    rintro rfl
    exact Bool.noConfusion (hk.symm.trans hclose.1)
  have hfollow : NoSuffix (c :: tail) := by
    rw [noSuffix_cons, hc]
    exact hclose.2
  rw [h.patterns_eq hP hstop hfollow,
    andThen_nothing (Production.patterns_closed hP (by simp [hc]) tail)]

/-! ## Atoms -/

/-- The subtype of a tree: nothing, or a slash and a name. -/
inductive SubtypeForm : List Lexeme → Prop where
  | absent : SubtypeForm []
  | present {slash name : Lexeme} (hslash : slash.kind = .slash) (hname : name.kind = .ident) :
    SubtypeForm [slash, name]

theorem subtype_eq {sub ls : List Lexeme} (hsub : SubtypeForm sub)
    (hls : kindAhead ls ≠ some .slash) :
    subtype (sub ++ ls) = ⟨sub.map .leaf, [], ls⟩ := by
  cases hsub with
  | absent => simp [subtype, hls, nothing]
  | present hslash hname =>
    rw [subtype, List.cons_append, kindAhead_cons, hslash, if_pos rfl]
    exact seq_eq (token_cons _ _) (seq_last (expect_eq hname _ ls))

/-- What stands in parentheses is read by the body that its first lexeme chooses. -/
theorem atom_paren (kind : NodeKind) (body : Production) {o c : Lexeme} {ls tail : List Lexeme}
    {ts : List (Tree Lexeme)} (ho : o.kind = .parenOpen) (hc : c.kind = .parenClose)
    (hbody : parenBody P ls = (kind, body)) (h : body ls = ⟨ts, [], c :: tail⟩) :
    atom P (o :: ls) = ⟨[.node kind (.leaf o :: (ts ++ [.leaf c]))], [], tail⟩ := by
  rw [atom, kindAhead_cons, ho]
  dsimp only [paren, List.tail_cons]
  rw [hbody]
  exact node_eq kind (seq_eq (token_cons o ls) (seq_eq h (seq_last (close_eq hc _ _ tail))))

theorem atom_tree {o n c : Lexeme} {sub body tail : List Lexeme} {ts : List (Tree Lexeme)}
    (ho : o.kind = .parenOpen) (hn : n.kind = .ident ∨ n.kind = .underscore)
    (hsub : SubtypeForm sub) (hc : c.kind = .parenClose) (hbody : PatternAhead body)
    (h : patterns P (· = .parenClose) (body ++ c :: tail) = ⟨ts, [], c :: tail⟩) :
    atom P (o :: n :: (sub ++ (body ++ c :: tail))) =
      ⟨[.node .tree (.leaf o :: (.leaf n :: (sub.map .leaf ++ ts) ++ [.leaf c]))], [], tail⟩ := by
  have hslash : kindAhead (body ++ c :: tail) ≠ some .slash := by
    cases body with
    | nil => simp [hc]
    | cons b body =>
      have hb := hbody b rfl
      intro heq
      rw [List.cons_append, kindAhead_cons, Option.some_inj] at heq
      rw [heq] at hb
      contradiction
  refine atom_paren .tree (seq [token, subtype, patterns P (· = .parenClose)]) ho hc ?_ ?_
  · obtain hn | hn := hn <;> simp [parenBody, hn]
  · exact seq_eq (token_cons n _) (seq_eq (subtype_eq hsub hslash) (seq_last h))

/-- A group is told from a tree by its first lexeme, which is no name. -/
theorem atom_group {o c l : Lexeme} {body tail : List Lexeme} {ts : List (Tree Lexeme)}
    (ho : o.kind = .parenOpen) (hc : c.kind = .parenClose) (hl : l.kind.startsPattern = true)
    (hname : l.kind ≠ .ident ∧ l.kind ≠ .underscore)
    (h : patterns P (· = .parenClose) (l :: body ++ c :: tail) = ⟨ts, [], c :: tail⟩) :
    atom P (o :: (l :: body ++ c :: tail)) =
      ⟨[.node .group (.leaf o :: (ts ++ [.leaf c]))], [], tail⟩ := by
  refine atom_paren .group (patterns P (· = .parenClose)) ho hc ?_ h
  rw [List.cons_append, parenBody, kindAhead_cons]
  revert hl hname
  cases l.kind <;> simp [TokenKind.startsPattern]

/-- A predicate reads its arguments, which the production of patterns has no part in. -/
theorem atom_predicate {o n c : Lexeme} {args tail : List Lexeme} {ts : List (Tree Lexeme)}
    (ho : o.kind = .parenOpen) (hn : n.kind = .predicateName) (hc : c.kind = .parenClose)
    (h : arguments (args ++ c :: tail) = ⟨ts, [], c :: tail⟩) :
    atom P (o :: n :: (args ++ c :: tail)) =
      ⟨[.node .predicate (.leaf o :: (.leaf n :: ts ++ [.leaf c]))], [], tail⟩ := by
  refine atom_paren .predicate (seq [token, arguments]) ho hc ?_ ?_
  · simp [parenBody, hn]
  · exact seq_eq (token_cons n _) (seq_last h)

theorem atom_alternation {o c : Lexeme} {body tail : List Lexeme} {ts : List (Tree Lexeme)}
    (ho : o.kind = .bracketOpen) (hc : c.kind = .bracketClose)
    (h : patterns P (· = .bracketClose) (body ++ c :: tail) = ⟨ts, [], c :: tail⟩) :
    atom P (o :: (body ++ c :: tail)) =
      ⟨[.node .alternation (.leaf o :: (ts ++ [.leaf c]))], [], tail⟩ := by
  rw [atom, kindAhead_cons, ho]
  exact node_eq .alternation
    (seq_eq (token_cons o _) (seq_eq h (seq_last (close_eq hc _ _ tail))))

/-- The lexemes between the quotes of a string: none, or its value. -/
inductive ValueForm : List Lexeme → Prop where
  | absent : ValueForm []
  | present {value : Lexeme} (hvalue : value.kind = .strVal) : ValueForm [value]

theorem str_eq {o c : Lexeme} {value : List Lexeme} (hvalue : ValueForm value)
    (hc : c.kind = .quote) (tail : List Lexeme) :
    str (o :: (value ++ c :: tail)) =
      ⟨[.node .str (.leaf o :: (value.map .leaf ++ [.leaf c]))], [], tail⟩ := by
  have hopt : optional .strVal (value ++ c :: tail) = ⟨value.map .leaf, [], c :: tail⟩ := by
    cases hvalue with
    | absent => simp [optional, hc, nothing]
    | present hvalue => simp [optional, hvalue]
  exact node_eq .str (seq_eq (token_cons o _) (seq_eq hopt (seq_last (expect_eq hc _ tail))))

theorem atom_str {o c : Lexeme} {value : List Lexeme} (ho : o.kind = .quote)
    (hvalue : ValueForm value) (hc : c.kind = .quote) (tail : List Lexeme) :
    atom P (o :: (value ++ c :: tail)) =
      ⟨[.node .str (.leaf o :: (value.map .leaf ++ [.leaf c]))], [], tail⟩ := by
  rw [atom, kindAhead_cons, ho]
  exact str_eq hvalue hc tail

theorem atom_wildcard {l : Lexeme} (hl : l.kind = .underscore) (tail : List Lexeme) :
    atom P (l :: tail) = ⟨[.node .wildcard [.leaf l]], [], tail⟩ := by
  simp [atom, hl, node, Parsed.wrap]

theorem atom_anchor {l : Lexeme} (hl : l.kind = .dot) (tail : List Lexeme) :
    atom P (l :: tail) = ⟨[.node .anchor [.leaf l]], [], tail⟩ := by
  simp [atom, hl, node, Parsed.wrap]

theorem atom_negatedField {l n : Lexeme} (hl : l.kind = .bang) (hn : n.kind = .ident)
    (tail : List Lexeme) :
    atom P (l :: n :: tail) = ⟨[.node .negatedField [.leaf l, .leaf n]], [], tail⟩ := by
  rw [atom, kindAhead_cons, hl]
  exact node_eq .negatedField (seq_eq (token_cons l _) (seq_last (expect_eq hn _ tail)))

/-- A field reads a pattern behind its colon, and leaves what that pattern leaves. -/
theorem atom_field {n c : Lexeme} {ls rest : List Lexeme} {ts : List (Tree Lexeme)}
    (hn : n.kind = .ident) (hc : c.kind = .colon) (hne : ls ≠ []) (hls : PatternAhead ls)
    (h : P ls = ⟨ts, [], rest⟩) :
    atom P (n :: c :: ls) = ⟨[.node .field (.leaf n :: .leaf c :: ts)], [], rest⟩ := by
  obtain ⟨l, ls, rfl⟩ := List.exists_cons_of_ne_nil hne
  have hl := hls l rfl
  have hcolon : kindAhead (n :: c :: l :: ls).tail = some .colon := by simp [hc]
  rw [atom, kindAhead_cons, hn]
  dsimp only
  rw [if_pos hcolon]
  refine node_eq .field (seq_eq (token_cons n _) (seq_eq (token_cons c _) (seq_last ?_)))
  rw [kindAhead_cons, Option.any_some, if_pos hl, h]

end Nested

theorem pattern_succ (levels : Nat) (ls : List Lexeme) :
    pattern (levels + 1) ls = captured (quantified (atom (pattern levels) ls)) := rfl

/-- Behind a pattern stands neither a quantifier nor a capture. -/
theorem NoSuffix.head {tail : List Lexeme} (h : NoSuffix tail) :
    (∀ l ∈ tail.head?, l.kind.isQuantifier = false) ∧
      ∀ l ∈ tail.head?, l.kind ≠ .captureName := by
  refine ⟨fun l hl ↦ (Bool.or_eq_false_iff.mp (h l hl)).1, fun l hl ↦ ?_⟩
  simpa using (Bool.or_eq_false_iff.mp (h l hl)).2

/-- An atom with a quantifier and captures behind it is a pattern. -/
theorem reads_suffixed {levels : Nat} {w names : List Lexeme} {mark : Option Lexeme}
    {ts : List (Tree Lexeme)} (hatom : ∀ tail, atom (pattern levels) (w ++ tail) = ⟨ts, [], tail⟩)
    (hmark : ∀ l ∈ mark, l.kind.isQuantifier = true)
    (hnames : ∀ l ∈ names, l.kind = .captureName) :
    Reads (pattern (levels + 1)) (w ++ (mark.toList ++ names))
      (inCaptures names (inQuantifier mark ts)) := by
  intro tail htail
  obtain ⟨hquantifier, hcapture⟩ := htail.head
  rw [pattern_succ, List.append_assoc, hatom, List.append_assoc]
  exact captured_quantified_eq hmark hnames (fun _ _ ↦ hquantifier) hcapture

/-- An atom is a pattern, if nothing follows that goes on with it. -/
theorem reads_unsuffixed {levels : Nat} {w : List Lexeme} {ts : List (Tree Lexeme)}
    (hatom : ∀ tail, NoSuffix tail → atom (pattern levels) (w ++ tail) = ⟨ts, [], tail⟩) :
    Reads (pattern (levels + 1)) w ts := by
  intro tail htail
  obtain ⟨hquantifier, hcapture⟩ := htail.head
  have hsuffix : captured (quantified ⟨ts, [], (none : Option Lexeme).toList ++ ([] ++ tail)⟩) =
      ⟨inCaptures [] (inQuantifier none ts), [], tail⟩ :=
    captured_quantified_eq (by simp) (by simp) (fun _ _ ↦ hquantifier) hcapture
  rw [pattern_succ, hatom tail htail]
  exact hsuffix

/-! ## Arguments of predicates -/

/-! ### Arguments -/

/-- In front of whatever follows, the list of arguments begins with exactly these lexemes. -/
def ReadsArguments (w : List Lexeme) (ts : List (Tree Lexeme)) : Prop :=
  ∀ ls, arguments (w ++ ls) = Parsed.andThen ⟨ts, [], ls⟩ arguments

theorem readsArguments_nil : ReadsArguments [] [] := fun _ ↦ rfl

theorem ReadsArguments.append {v w : List Lexeme} {ts us : List (Tree Lexeme)}
    (hv : ReadsArguments v ts) (hw : ReadsArguments w us) :
    ReadsArguments (v ++ w) (ts ++ us) := by
  intro ls
  rw [List.append_assoc, hv, Parsed.andThen, hw]
  simp [Parsed.andThen]

theorem arguments_closed {c : Lexeme} (hc : c.kind = .parenClose) (ls : List Lexeme) :
    arguments (c :: ls) = ⟨[], [], c :: ls⟩ := by
  rw [arguments, many_cons argument_advances, if_pos (by simp [hc])]

/-- A list of arguments ends in front of what closes the predicate. -/
theorem ReadsArguments.closed {w : List Lexeme} {ts : List (Tree Lexeme)}
    (h : ReadsArguments w ts) {c : Lexeme} (hc : c.kind = .parenClose) (tail : List Lexeme) :
    arguments (w ++ c :: tail) = ⟨ts, [], c :: tail⟩ := by
  rw [h, andThen_nothing (arguments_closed hc tail)]

/-- An argument that is a lexeme of its own. -/
theorem readsArguments_token {l : Lexeme}
    (hl : l.kind = .captureName ∨ l.kind = .ident ∨ l.kind = .underscore) :
    ReadsArguments [l] [.leaf l] := by
  intro ls
  rw [List.singleton_append, arguments, many_cons argument_advances]
  obtain hl | hl | hl := hl <;> simp [hl, argument]

/-- An argument that is a string. -/
theorem readsArguments_str {o c : Lexeme} {value : List Lexeme} (ho : o.kind = .quote)
    (hvalue : ValueForm value) (hc : c.kind = .quote) :
    ReadsArguments (o :: (value ++ [c]))
      [.node .str (.leaf o :: (value.map .leaf ++ [.leaf c]))] := by
  intro ls
  rw [List.cons_append, List.append_assoc, List.singleton_append, arguments,
    many_cons argument_advances, if_neg (by simp [ho])]
  rw [ho, argument, str_eq hvalue hc]

end Production

end Concord.Query
