import Mathlib.Data.List.Induction
import Concord.Proofs.Script.Passing
import Concord.Proofs.Script.Declarations
import Concord.Proofs.Script.Places

/-!
# Rules that are declared again

Of the keys that declare rules in a script, several may have one name.  The last of them counts, but
the rule keeps the position of the first; and each of them but the first is reported, together with
the one before it.

* `ScanState.accepted` — the keys at which the scanner declares a rule.
* `Recorded keys s` — what the scanner has kept of these keys.  `Recorded.step` keeps it, and
  `Recorded.run` carries it through the tokens.
* `scanScript_redeclared` — what is read off in the end.
-/

set_option autoImplicit false

namespace Concord.Script

/-! ## Keys and their names -/

/-- The name that a key stands for. -/
def Token.name (t : Token) : String := String.ofList (t.key?.getD [])

/-- The key of a token is its text, without the quotes if there are any. -/
theorem text_of_key? {source : String} {t : Token} (h : t ∈ tokenize source) {key : List Char}
    (hkey : t.key? = some key) :
    t.text = key ∨
      ∃ quote, (quote = '"' ∨ quote = '\x27') ∧ t.text = quote :: (key ++ [quote]) := by
  rw [Token.key?] at hkey
  split at hkey
  · exact .inl (Option.some.inj hkey)
  · rename_i hkind
    obtain ⟨quote, body, hquote, htext⟩ := quoted_of_mem_tokenize h hkind
    rw [htext, List.drop_one, List.tail_cons, List.dropLast_concat, Option.some_inj] at hkey
    exact .inr ⟨quote, hquote, hkey ▸ htext⟩
  · contradiction

/-- The last of the keys that have a name. -/
def lastNamed (keys : List Token) (name : String) : Option Token :=
  (keys.filter (·.name = name)).getLast?

/-- The keys whose names occur before, each with the last key before it that has its name. -/
def repeats (keys : List Token) : List (Token × Token) :=
  keys.zipIdx.filterMap fun (key, i) ↦ (lastNamed (keys.take i) key.name).map (key, ·)

/-- A report that a rule is declared again. -/
def redeclaration (key previous : Token) : Diagnostic where
  kind := .duplicateRule
  span := key.span
  message := "rule `" ++ key.name ++ "` is declared more than once"
  related := [⟨"previously declared here", previous.span⟩]

section Keys

variable {keys : List Token} {key : Token} {name : String}

theorem lastNamed_concat (keys : List Token) (key : Token) (name : String) :
    lastNamed (keys ++ [key]) name = if key.name = name then some key else lastNamed keys name := by
  rw [lastNamed, List.filter_append]
  split
  · simp [*]
  · simp [*, lastNamed]

theorem mem_of_lastNamed (h : lastNamed keys name = some key) : key ∈ keys ∧ key.name = name := by
  simpa using List.mem_filter.mp (List.mem_of_getLast? h)

theorem lastNamed_eq_none_iff : lastNamed keys name = none ↔ name ∉ keys.map Token.name := by
  simp [lastNamed]

theorem repeats_concat (keys : List Token) (key : Token) :
    repeats (keys ++ [key]) = repeats keys ++ (lastNamed keys key.name).toList.map (key, ·) := by
  rw [repeats, List.zipIdx_append, List.filterMap_append, List.zipIdx_singleton]
  congr 1
  · refine List.filterMap_congr fun ⟨k, i⟩ hk ↦ ?_
    have hi := (List.mem_zipIdx hk).2.1
    rw [Nat.zero_add] at hi
    simp only [List.take_append_of_le_length (Nat.le_of_lt hi)]
  · cases h : lastNamed keys key.name <;> simp [h]

/-- The keys are the ones that are not repeats, and the repeats. -/
theorem length_repeats (keys : List Token) :
    (repeats keys).length + (keys.map Token.name).eraseDups.length = keys.length := by
  induction keys using List.reverseRecOn with
  | nil => rfl
  | append_singleton keys key ih =>
    rw [repeats_concat, List.map_append, List.map_singleton, eraseDups_concat, List.length_append,
      List.length_append, ← ih, List.length_singleton]
    by_cases hkey : key.name ∈ keys.map Token.name
    · obtain ⟨previous, hprevious⟩ : ∃ previous, lastNamed keys key.name = some previous := by
        rw [← Option.ne_none_iff_exists', ne_eq, lastNamed_eq_none_iff, not_not]
        exact hkey
      rw [if_pos hkey, hprevious, Option.toList_some, List.map_singleton, List.length_singleton]
      omega
    · rw [if_neg hkey, lastNamed_eq_none_iff.mpr hkey, Option.toList_none, List.map_nil,
        List.length_nil, List.length_append, List.length_singleton]
      omega

end Keys

/-! ## What the scanner keeps of the keys -/

/-- The reports of rules that are declared again. -/
def redeclarations (ds : List Diagnostic) : List Diagnostic := ds.filter (·.kind = .duplicateRule)

theorem redeclarations_append (ds es : List Diagnostic) :
    redeclarations (ds ++ es) = redeclarations ds ++ redeclarations es :=
  List.filter_append ds es

theorem redeclarations_neverClosed (fs : List Frame) (related : List RelatedNote) :
    redeclarations (fs.map (ScanState.neverClosed · related)) = [] := by
  simp [redeclarations, ScanState.neverClosed]

namespace ScanState

/-- A token is a key at which the scanner declares a rule. -/
def Accepts (s : ScanState) (before : List Token) (t : Token) (after : List Token) : Prop :=
  Walk.Declares s before after ∧ t.key?.isSome = true

instance (s : ScanState) (before : List Token) (t : Token) (after : List Token) :
    Decidable (s.Accepts before t after) :=
  inferInstanceAs (Decidable ((_ ∧ _ ∧ (_ ∨ _)) ∧ _))

/-- The keys at which the scanner declares a rule on its way through the tokens. -/
def accepted (s : ScanState) (before : List Token) : List Token → List Token
  | [] => []
  | t :: after =>
    if s.Accepts before t after then t :: accepted (s.step before t after) (t :: before) after
    else accepted (s.step before t after) (t :: before) after

theorem accepted_sublist (s : ScanState) (before after : List Token) :
    (s.accepted before after).Sublist after := by
  induction after generalizing s before with
  | nil => exact .slnil
  | cons t after ih =>
    rw [accepted]
    split
    · exact (ih _ _).cons_cons t
    · exact (ih _ _).cons t

theorem isSome_key?_of_mem_accepted {s : ScanState} {before after : List Token} {t : Token}
    (h : t ∈ s.accepted before after) : t.key?.isSome = true := by
  induction after generalizing s before with
  | nil => exact absurd h List.not_mem_nil
  | cons u after ih =>
    rw [accepted] at h
    split at h
    · rename_i haccepts
      rcases List.mem_cons.mp h with rfl | h
      · exact haccepts.2
      · exact ih h
    · exact ih h

end ScanState

/-- What the scanner has kept of the keys at which it has declared rules. -/
structure Recorded (keys : List Token) (s : ScanState) : Prop where
  names : s.grammar.ruleNames = (keys.map Token.name).eraseDups
  rule? : ∀ name, s.grammar.rule? name =
    (lastNamed keys name).map fun key ↦ ⟨name, some key.span⟩
  reported : redeclarations s.diagnostics.toList =
    (repeats keys).map fun (key, previous) ↦ redeclaration key previous

/-- The states agree on the declared rules and on what is declared again. -/
structure SameRules (s s' : ScanState) : Prop where
  rules : s'.grammar.rules = s.grammar.rules
  reported : redeclarations s'.diagnostics.toList = redeclarations s.diagnostics.toList

namespace SameRules

variable {s s' s'' : ScanState}

theorem refl (s : ScanState) : SameRules s s := ⟨rfl, rfl⟩

theorem trans (h : SameRules s s') (h' : SameRules s' s'') : SameRules s s'' :=
  ⟨h'.rules.trans h.rules, h'.reported.trans h.reported⟩

end SameRules

namespace ScanState

variable (s : ScanState) (before after : List Token) (t : Token)

theorem sameRules_opened (d : Delimiter) : SameRules s (s.opened d before t) := by
  rw [opened_eq]
  cases s.openingRole d before <;> exact ⟨rfl, rfl⟩

theorem sameRules_closed (d : Delimiter) : SameRules s (s.closed d t) := by
  rw [closed]
  split
  · refine ⟨rfl, ?_⟩
    rw [report, Array.toList_push, redeclarations_append]
    exact List.append_nil _
  · refine ⟨rfl, ?_⟩
    rw [Array.toList_append, redeclarations_append, redeclarations_neverClosed, List.append_nil]

theorem sameRules_grammarName : SameRules s (s.grammarName before t after) := by
  unfold grammarName
  repeat' split
  all_goals exact ⟨rfl, rfl⟩

theorem sameRules_reference : SameRules s (s.reference t after) := by
  unfold reference
  repeat' split
  all_goals first
    | exact SameRules.refl s
    | exact ⟨Grammar.rules_refer _, rfl⟩

end ScanState

namespace Recorded

variable {keys : List Token} {s s' : ScanState} {before after : List Token} {t : Token}

theorem start (mode : Mode) : Recorded [] { mode } where
  names := rfl
  rule? _ := rfl
  reported := rfl

theorem of_sameRules (h : Recorded keys s) (hs : SameRules s s') : Recorded keys s' where
  names := by
    rw [Grammar.ruleNames, hs.rules]
    exact h.names
  rule? name := by
    rw [Grammar.rule?, hs.rules]
    exact h.rule? name
  reported := hs.reported.trans h.reported

/-- What a key does that is accepted: its rule is declared, and it is reported if its name was that
of a key before. -/
theorem declaration_eq (h : Recorded keys s) (haccepts : s.Accepts before t after) :
    s.declaration before t after =
      { s with
        grammar := (s.grammar.declare ⟨t.name, some t.span⟩).1
        diagnostics := s.diagnostics ++
          ((lastNamed keys t.name).toList.map (redeclaration t)).toArray } := by
  obtain ⟨hdeclares, hkey⟩ := haccepts
  obtain ⟨key, hkey⟩ := Option.isSome_iff_exists.mp hkey
  have hname : String.ofList key = t.name := by
    rw [Token.name, hkey]
    rfl
  rw [Walk.Declares] at hdeclares
  rw [ScanState.declaration, if_pos hdeclares, hkey]
  simp only [hname, Grammar.declare, h.rule? t.name]
  cases lastNamed keys t.name with
  | none => simp
  | some previous =>
    simp only [Option.map_some, ScanState.report, Array.push_eq_append]
    rfl

theorem declaration (h : Recorded keys s) (haccepts : s.Accepts before t after) :
    Recorded (keys ++ [t]) (s.declaration before t after) := by
  rw [h.declaration_eq haccepts]
  refine ⟨?_, fun name ↦ ?_, ?_⟩
  · rw [List.map_append]
    exact Grammar.ruleNames_declare h.names _
  · rw [Grammar.rule?_declare, lastNamed_concat, h.rule? name]
    split
    · rename_i heq
      rw [← heq]
      rfl
    · rfl
  · rw [Array.toList_append, redeclarations_append, h.reported, repeats_concat, List.map_append]
    cases lastNamed keys t.name <;> rfl

/-- **One step of the scanner** goes past one token. -/
theorem step (h : Recorded keys s) :
    Recorded (if s.Accepts before t after then keys ++ [t] else keys) (s.step before t after) := by
  cases hkey : t.key? with
  | none =>
    have hnot : ¬ s.Accepts before t after := by
      rw [ScanState.Accepts, hkey]
      rintro ⟨-, hkey⟩
      contradiction
    rw [if_neg hnot]
    cases ht : t.kind with
    | opening d =>
      rw [ScanState.step_opening ht]
      exact h.of_sameRules (s.sameRules_opened before t d)
    | closing d =>
      rw [ScanState.step_closing ht]
      exact h.of_sameRules (s.sameRules_closed t d)
    | _ =>
      rw [ScanState.step_mark (by rw [ht]; rfl) hkey]
      exact h
  | some key =>
    have hdeclaration : Recorded (if s.Accepts before t after then keys ++ [t] else keys)
        (s.declaration before t after) := by
      split
      · rename_i haccepts
        exact h.declaration haccepts
      · rename_i hnot
        have hdeclares : ¬ Walk.Declares s before after := fun hdeclares ↦
          hnot ⟨hdeclares, by rw [hkey]; rfl⟩
        rw [Walk.declaration_of_not hdeclares]
        exact h
    rw [ScanState.step_of_key hkey]
    exact hdeclaration.of_sameRules ((ScanState.sameRules_grammarName _ before after t).trans
      (ScanState.sameRules_reference _ after t))

/-- **The scanner goes past all tokens.** -/
theorem run (h : Recorded keys s) :
    Recorded (keys ++ s.accepted before after) (s.run before after) := by
  induction after generalizing keys s before with
  | nil => simpa [ScanState.accepted, ScanState.run] using h
  | cons t after ih =>
    have hstep : Recorded (if s.Accepts before t after then keys ++ [t] else keys)
        (s.step before t after) := h.step
    rw [ScanState.accepted, ScanState.run]
    split
    · rename_i haccepts
      rw [if_pos haccepts] at hstep
      rw [List.append_cons]
      exact ih hstep
    · rename_i hnot
      rw [if_neg hnot] at hstep
      exact ih hstep

end Recorded

/-! ## The whole script -/

/-- The keys at which rules are declared in a script. -/
def acceptedKeys (source : String) : List Token :=
  ScanState.accepted { mode := scanMode (tokenize source) } [] (tokenize source)

theorem recorded_scanTokens (source : String) :
    Recorded (acceptedKeys source) (scanTokens (tokenize source)) := by
  rw [scanTokens_eq_run]
  exact (Recorded.start _).run

/-- At the end no more rules are reported. -/
theorem redeclarations_finish (s : ScanState) :
    redeclarations s.finish = redeclarations s.diagnostics.toList := by
  have hmissing : redeclarations (if s.rulesSeen then [] else [ScanState.missingRules s.mode]) =
      [] := by
    split <;> rfl
  rw [ScanState.finish, redeclarations_append, redeclarations_append, redeclarations_neverClosed,
    hmissing, List.append_nil, List.append_nil]

/-- The place of an accepted key holds its name, with or without quotes. -/
theorem textAt_of_mem_acceptedKeys {source : String} {key : Token}
    (h : key ∈ acceptedKeys source) :
    TextAt source key.span key.name.toList ∨ ∃ quote, (quote = '"' ∨ quote = '\x27') ∧
      TextAt source key.span (quote :: (key.name.toList ++ [quote])) := by
  have hmem := (ScanState.accepted_sublist _ _ _).mem h
  obtain ⟨name, hkey⟩ := Option.isSome_iff_exists.mp (ScanState.isSome_key?_of_mem_accepted h)
  have hname : key.name.toList = name := by
    rw [Token.name, hkey]
    exact String.toList_ofList
  have htext := textAt_of_mem_tokenize hmem
  rw [hname]
  rcases text_of_key? hmem hkey with heq | ⟨quote, hquote, heq⟩
  · rw [heq] at htext
    exact .inl htext
  · rw [heq] at htext
    exact .inr ⟨quote, hquote, htext⟩

/-- **Of rules with one name the last one counts**, in the position of the first one, and all but
the first one are reported.  The place of a rule is that of the last key with its name, and holds
the name with or without quotes. -/
theorem scanScript_redeclared (source : String) :
    (acceptedKeys source).Sublist (tokenize source) ∧
      (scanScript source).1.ruleNames = ((acceptedKeys source).map Token.name).eraseDups ∧
      (∀ name, (scanScript source).1.rule? name =
        (lastNamed (acceptedKeys source) name).map fun key ↦ ⟨name, some key.span⟩) ∧
      (∀ name key, lastNamed (acceptedKeys source) name = some key →
        TextAt source key.span name.toList ∨ ∃ quote, (quote = '"' ∨ quote = '\x27') ∧
          TextAt source key.span (quote :: (name.toList ++ [quote]))) ∧
      redeclarations (scanScript source).2 =
        (repeats (acceptedKeys source)).map (fun (key, previous) ↦ redeclaration key previous) ∧
      (redeclarations (scanScript source).2).length + (scanScript source).1.rules.length =
        (acceptedKeys source).length := by
  have hrecorded := recorded_scanTokens source
  have hreported : redeclarations (scanScript source).2 =
      (repeats (acceptedKeys source)).map (fun (key, previous) ↦ redeclaration key previous) :=
    (redeclarations_finish _).trans hrecorded.reported
  have hnames : (scanScript source).1.ruleNames =
      ((acceptedKeys source).map Token.name).eraseDups := hrecorded.names
  refine ⟨ScanState.accepted_sublist _ _ _, hnames, hrecorded.rule?, fun name key hkey ↦ ?_,
    hreported, ?_⟩
  · obtain ⟨hmem, rfl⟩ := mem_of_lastNamed hkey
    exact textAt_of_mem_acceptedKeys hmem
  · rw [hreported, List.length_map, ← length_repeats, ← hnames, Grammar.ruleNames, List.length_map]

example :
    let source := "grammar(\x7brules:\x7ba:1,'b':2,\"a\":3,a:4\x7d\x7d)"
    (scanScript source).1.rules = [⟨"a", some ⟨32, 33⟩⟩, ⟨"b", some ⟨20, 23⟩⟩] ∧
      (repeats (acceptedKeys source)).map (fun (key, previous) ↦ (key.span, previous.span)) =
        [(⟨26, 29⟩, ⟨16, 17⟩), (⟨32, 33⟩, ⟨26, 29⟩)] := by
  decide +kernel

end Concord.Script
