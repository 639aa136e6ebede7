import Mathlib.Data.List.Forall2
import Concord.Proofs.Grammar.Names
import Concord.Proofs.Script.Roles

/-!
# Which keys of a script declare rules

The walk of the scanner over the tokens is followed with an invariant, `Walk`: the stack holds the
layers of delimiters that are open, each with the role that its number gives it, a flag is set once
the delimiter it is for has been passed, and the declared names are those of the keys that have been
passed.  `Walk.step` keeps it, and `scanScript_rules` reads the answer off the last state.
-/

set_option autoImplicit false

namespace Concord.Script

variable {mode : Mode} {ts : List Token}

/-! ## The walk -/

/-- The frame of a delimiter that is open, which stands at a number in the token list. -/
structure FrameAt (mode : Mode) (ts : List Token) (f : Frame) (j : Nat × Delimiter) : Prop where
  delimiter : f.delimiter = j.2
  role : ∀ r, r ≠ .plain → (f.role = r ↔ Marked mode ts r j.1)

/-- What holds when the scanner has gone past `i` tokens: `js` are the delimiters that are open, and
`keys` the keys that have declared a rule. -/
structure Walk (mode : Mode) (ts : List Token) (i : Nat) (js : List (Nat × Delimiter))
    (keys : List (Nat × String)) (s : ScanState) : Prop where
  mode_eq : s.mode = mode
  layers : Layers (ts.take i) js
  stack : List.Forall₂ (FrameAt mode ts) s.stack js
  seen : ∀ r, s.seen r = true ↔ ∃ j < i, Marked mode ts r j
  names : s.grammar.ruleNames = (keys.map Prod.snd).eraseDups
  sorted : keys.Pairwise (·.1 < ·.1)
  mem_iff : ∀ j name,
    (j, name) ∈ keys ↔ j < i ∧ ∃ r, Marked mode ts .rules r ∧ DeclaresAt ts r j name
  warnings : ∀ d ∈ s.diagnostics, d.kind ≠ .missingRulesObject

namespace Walk

variable {i : Nat} {js : List (Nat × Delimiter)} {keys : List (Nat × String)} {s : ScanState}

theorem start (mode : Mode) (ts : List Token) : Walk mode ts 0 [] [] { mode } where
  mode_eq := rfl
  layers := .base .nil
  stack := .nil
  seen r := by cases r <;> simp [ScanState.seen]
  names := rfl
  sorted := .nil
  mem_iff := by simp
  warnings := by simp

/-- The role of the innermost delimiter. -/
theorem topRole_iff (h : Walk mode ts i js keys s) {r : Role} (hr : r ≠ .plain) :
    s.topRole = r ↔ ∃ j, Innermost (ts.take i) j ∧ Marked mode ts r j := by
  have hstack := h.stack
  simp only [h.layers.innermost_iff]
  rw [ScanState.topRole]
  generalize s.stack = fs at hstack ⊢
  cases hstack with
  | nil => simp [hr.symm]
  | cons hf _ => simp [hf.role r hr]

/-- The role of a delimiter that is opened is the one that its number gives it. -/
theorem openingRole_iff {before after : List Token} {t : Token} {d : Delimiter}
    (h : Walk mode ts before.length js keys s) (hts : ts = before.reverse ++ t :: after)
    (ht : t.kind = .opening d) {r : Role} (hr : r ≠ .plain) :
    s.openingRole d before = r ↔ Marked mode ts r before.length := by
  have hkind := kindAt_here hts
  have hseen := h.seen r
  rw [Marked, isLeast_iff]
  simp only [Marked] at hseen
  rw [← hseen]
  by_cases hd : d = if r = .call then .paren else .brace
  · have hmode := h.mode_eq
    have hcall : mode = .call → (s.topRole = .call ↔
        ∃ g, IsCall ts g ∧ Innermost (ts.take before.length) g) := by
      rintro rfl
      simp only [h.topRole_iff (r := .call) (by decide), marked_call_iff, and_comm]
    have hconfig : mode = .call → (s.topRole = .config ↔
        ∃ c, IsConfig ts c ∧ Innermost (ts.take before.length) c) := by
      rintro rfl
      simp only [h.topRole_iff (r := .config) (by decide), marked_config_iff, and_comm]
    cases r with
    | plain => exact absurd rfl hr
    | call =>
      rw [if_pos rfl] at hd
      subst hd
      rw [ScanState.openingRole_eq_call_iff, Candidate, callAt_iff hts ht, hmode]
      rfl
    | config =>
      rw [if_neg (by decide)] at hd
      subst hd
      rw [ScanState.openingRole_eq_config_iff, Candidate, ConfigAt, hkind, ht, hmode]
      simp only [true_and, and_congr_right_iff.mpr hcall]
      rfl
    | rules =>
      rw [if_neg (by decide)] at hd
      subst hd
      rw [ScanState.openingRole_eq_rules_iff, Candidate, rulesKeyAt_iff hts ht, hmode,
        imp_congr_right hconfig]
      rfl
  · refine ⟨fun h ↦ absurd (ScanState.delimiter_of_openingRole h hr) hd, fun hmarked ↦ ?_⟩
    have hkind' := hmarked.1.kindAt_eq
    rw [hkind, ht, Option.some_inj] at hkind'
    exact absurd (TokenKind.opening.inj hkind') hd

/-! ### One step -/

section Step

variable {before after : List Token} {t : Token}

/-- A token that is no key declares nothing. -/
theorem mem_iff_next (h : Walk mode ts before.length js keys s)
    (hts : ts = before.reverse ++ t :: after) (ht : t.key? = none) (j : Nat) (name : String) :
    (j, name) ∈ keys ↔
      j < before.length + 1 ∧ ∃ r, Marked mode ts .rules r ∧ DeclaresAt ts r j name := by
  rw [h.mem_iff]
  refine ⟨fun ⟨hj, hr⟩ ↦ ⟨Nat.lt_succ_of_lt hj, hr⟩, fun ⟨hj, r, hr, hdeclares⟩ ↦ ?_⟩
  refine ⟨Nat.lt_of_le_of_ne (Nat.le_of_lt_succ hj) ?_, r, hr, hdeclares⟩
  rintro rfl
  have hkey := hdeclares.key
  rw [keyAt?_here hts, ht] at hkey
  contradiction

/-- A token that opens nothing has no role. -/
theorem seen_next (h : Walk mode ts before.length js keys s)
    (hts : ts = before.reverse ++ t :: after) (ht : ∀ d, t.kind ≠ .opening d) (r : Role) :
    s.seen r = true ↔ ∃ j < before.length + 1, Marked mode ts r j := by
  rw [h.seen, exists_lt_succ_iff]
  refine ⟨.inl, fun hj ↦ hj.resolve_right fun hmarked ↦ ?_⟩
  have hkind := Candidate.kindAt_eq hmarked.1
  rw [kindAt_here hts, Option.some_inj] at hkind
  exact ht _ hkind

theorem opening {d : Delimiter} (h : Walk mode ts before.length js keys s)
    (hts : ts = before.reverse ++ t :: after) (ht : t.kind = .opening d) :
    Walk mode ts (before.length + 1) ((before.length, d) :: js) keys (s.opened d before t) := by
  have hkey : t.key? = none := by rw [Token.key?, ht]
  have hrole := fun r (hr : r ≠ Role.plain) ↦ h.openingRole_iff hts ht hr
  have hlayers := h.layers
  have hnote : ∀ r, (s.note r).mode = s.mode ∧ (s.note r).stack = s.stack ∧
      (s.note r).grammar = s.grammar ∧ (s.note r).diagnostics = s.diagnostics := by
    intro r
    cases r <;> exact ⟨rfl, rfl, rfl, rfl⟩
  obtain ⟨hmode, hstack, hgrammar, hdiagnostics⟩ := hnote (s.openingRole d before)
  rw [ScanState.opened_eq]
  rw [take_here hts] at hlayers
  refine ⟨?_, ?_, ?_, ?_, ?_, h.sorted, h.mem_iff_next hts hkey, ?_⟩
  · rw [← h.mode_eq]
    exact hmode
  · have hnext := hlayers.opening ht
    rwa [← take_next hts, List.length_reverse] at hnext
  · simp only [ScanState.push, hstack]
    exact .cons ⟨rfl, hrole⟩ h.stack
  · intro r
    by_cases hr : r = .plain
    · subst hr
      simp [ScanState.seen, Marked, Candidate, IsLeast]
    · have hseen := ScanState.seen_note s (s.openingRole d before) r hr
      rw [h.seen, hrole r hr, ← exists_lt_succ_iff] at hseen
      rw [← hseen]
      cases r <;> rfl
  · rw [← h.names, ← hgrammar]
    rfl
  · simpa [ScanState.push, hdiagnostics] using h.warnings

theorem closing {d : Delimiter} (h : Walk mode ts before.length js keys s)
    (hts : ts = before.reverse ++ t :: after) (ht : t.kind = .closing d) (hts' : Balanced ts) :
    ∃ js', Walk mode ts (before.length + 1) js' keys (s.closed d t) := by
  have hkey : t.key? = none := by rw [Token.key?, ht]
  have hlayers := h.layers
  have hstack := h.stack
  rw [take_here hts] at hlayers
  rw [hts] at hts'
  obtain ⟨j, js, rfl⟩ := hlayers.exists_of_closing hts' ht
  obtain ⟨f, fs, hf, hfs, hcons⟩ := List.forall₂_cons_right_iff.mp hstack
  rw [ScanState.closed_eq hcons hf.delimiter]
  refine ⟨js, h.mode_eq, ?_, hfs, h.seen_next hts (by simp [ht]), h.names, h.sorted,
    h.mem_iff_next hts hkey, h.warnings⟩
  rw [take_next hts]
  exact hlayers.closing ht

theorem plain (h : Walk mode ts before.length js keys s)
    (hts : ts = before.reverse ++ t :: after) (ht : t.kind.isDelimiter = false)
    (hkey : t.key? = none) : Walk mode ts (before.length + 1) js keys s := by
  have hopening : ∀ d, t.kind ≠ .opening d := by
    intro d hd
    rw [hd] at ht
    contradiction
  refine ⟨h.mode_eq, ?_, h.stack, h.seen_next hts hopening, h.names, h.sorted,
    h.mem_iff_next hts hkey, h.warnings⟩
  rw [take_next hts, ← take_here hts]
  exact h.layers.plain ht

end Step

/-! ### Keys -/

/-- The states differ in nothing that the walk is about. -/
structure Agrees (s s' : ScanState) : Prop where
  mode_eq : s'.mode = s.mode
  stack : s'.stack = s.stack
  seen : ∀ r, s'.seen r = s.seen r
  names : s'.grammar.ruleNames = s.grammar.ruleNames
  diagnostics : s'.diagnostics = s.diagnostics

theorem Agrees.refl (s : ScanState) : Agrees s s := ⟨rfl, rfl, fun _ ↦ rfl, rfl, rfl⟩

theorem Agrees.walk {s' : ScanState} (hs : Agrees s s') (h : Walk mode ts i js keys s) :
    Walk mode ts i js keys s' where
  mode_eq := by rw [hs.mode_eq, h.mode_eq]
  layers := h.layers
  stack := by rw [hs.stack]; exact h.stack
  seen r := by rw [hs.seen, h.seen]
  names := by rw [hs.names, h.names]
  sorted := h.sorted
  mem_iff := h.mem_iff
  warnings := by rw [hs.diagnostics]; exact h.warnings

section Word

variable {before after : List Token} {t : Token}

theorem grammarName_agrees (s : ScanState) (before : List Token) (t : Token)
    (after : List Token) : Agrees s (s.grammarName before t after) := by
  unfold ScanState.grammarName
  split
  · split
    · split
      · exact ⟨rfl, rfl, fun r ↦ by cases r <;> rfl, rfl, rfl⟩
      · exact Agrees.refl s
    · exact Agrees.refl s
  · exact Agrees.refl s

theorem reference_agrees (s : ScanState) (t : Token) (after : List Token) :
    Agrees s (s.reference t after) := by
  unfold ScanState.reference
  split
  · split
    · split
      · exact ⟨rfl, rfl, fun r ↦ by cases r <;> rfl, Grammar.ruleNames_refer _, rfl⟩
      · exact Agrees.refl s
    · exact Agrees.refl s
  · exact Agrees.refl s

/-- What is asked of a key that declares a rule. -/
def Declares (s : ScanState) (before after : List Token) : Prop :=
  s.topRole = .rules ∧ atMemberStart before = true ∧
    (nearest? after = some .colon ∨ nearest? after = some (.opening .paren))

theorem declares_iff (h : Walk mode ts before.length js keys s)
    (hts : ts = before.reverse ++ t :: after) {key : List Char} (hkey : t.key? = some key)
    (name : String) :
    (∃ r, Marked mode ts .rules r ∧ DeclaresAt ts r before.length name) ↔
      Declares s before after ∧ name = String.ofList key := by
  rw [Declares, h.topRole_iff (by decide), ← memberAt_iff hts, ← kindAt_next hts]
  have hkeyAt := keyAt?_here hts
  rw [hkey] at hkeyAt
  constructor
  · rintro ⟨r, hr, hdeclares⟩
    have hname := hdeclares.key
    rw [hkeyAt, Option.some_inj] at hname
    exact ⟨⟨⟨r, hdeclares.within, hr⟩, hdeclares.member, hdeclares.follows⟩, by rw [hname]; simp⟩
  · rintro ⟨⟨⟨r, hwithin, hr⟩, hmember, hfollows⟩, rfl⟩
    exact ⟨r, hr, hwithin, hmember, by rw [hkeyAt]; simp, hfollows⟩

/-- What a key does that declares a rule: it is reported if its name was declared before. -/
theorem declaration_of (h : Declares s before after) {key : List Char} (hkey : t.key? = some key) :
    ∃ ds : List Diagnostic, (∀ d ∈ ds, d.kind = .duplicateRule) ∧
      ds.length = (if String.ofList key ∈ s.grammar.ruleNames then 1 else 0) ∧
        s.declaration before t after =
          { s with
            grammar := (s.grammar.declare ⟨String.ofList key, some t.span⟩).1
            diagnostics := s.diagnostics ++ ds.toArray } := by
  have hprevious : (s.grammar.declare ⟨String.ofList key, some t.span⟩).2 =
      s.grammar.rule? (String.ofList key) := rfl
  rw [Declares] at h
  rw [ScanState.declaration, if_pos h, hkey]
  dsimp only
  rw [hprevious]
  cases hfound : s.grammar.rule? (String.ofList key) with
  | none =>
    have hnew : String.ofList key ∉ s.grammar.ruleNames := Grammar.rule?_eq_none_iff.mp hfound
    exact ⟨[], by simp, by rw [if_neg hnew]; rfl, by simp⟩
  | some first =>
    have hdeclared : String.ofList key ∈ s.grammar.ruleNames :=
      List.mem_map.mpr ⟨first, Grammar.of_rule?_eq_some hfound⟩
    dsimp only
    refine ⟨[_], ?_, by rw [if_pos hdeclared]; rfl, by rw [ScanState.report, Array.push_eq_append]⟩
    simp

theorem declaration_of_not (h : ¬ Declares s before after) :
    s.declaration before t after = s := by
  rw [Declares] at h
  rw [ScanState.declaration, if_neg h]

/-- A key is added if it declares a rule. -/
theorem mem_iff_key (h : Walk mode ts before.length js keys s)
    (hts : ts = before.reverse ++ t :: after) {key : List Char} (hkey : t.key? = some key) (j : Nat)
    (name : String) :
    ((j, name) ∈ keys ∨ Declares s before after ∧ j = before.length ∧ name = String.ofList key) ↔
      j < before.length + 1 ∧ ∃ r, Marked mode ts .rules r ∧ DeclaresAt ts r j name := by
  have hlast := h.declares_iff hts hkey name
  rw [h.mem_iff, Nat.lt_succ_iff_lt_or_eq]
  by_cases hj : j = before.length
  · subst hj
    simp only [Nat.lt_irrefl, false_and, false_or, true_and, or_true, hlast]
  · simp only [hj, or_false, false_and, and_false]

/-- A key is no delimiter, and opens nothing. -/
theorem isDelimiter_of_key {key : List Char} (hkey : t.key? = some key) :
    t.kind.isDelimiter = false := by
  rw [Token.key?] at hkey
  split at hkey
  · simp [*, TokenKind.isDelimiter]
  · simp [*, TokenKind.isDelimiter]
  · contradiction

theorem declaration (h : Walk mode ts before.length js keys s)
    (hts : ts = before.reverse ++ t :: after) {key : List Char} (hkey : t.key? = some key) :
    ∃ keys', Walk mode ts (before.length + 1) js keys' (s.declaration before t after) := by
  have hplain := isDelimiter_of_key hkey
  have hopening : ∀ d, t.kind ≠ .opening d := by
    intro d hd
    rw [hd] at hplain
    contradiction
  have hlayers : Layers (ts.take (before.length + 1)) js := by
    rw [take_next hts, ← take_here hts]
    exact h.layers.plain hplain
  have hmem := h.mem_iff_key hts hkey
  by_cases hdeclares : Declares s before after
  · obtain ⟨ds, hds, -, heq⟩ := declaration_of hdeclares hkey
    rw [heq]
    refine ⟨keys ++ [(before.length, String.ofList key)], h.mode_eq, hlayers, h.stack,
      h.seen_next hts hopening, ?_, ?_, ?_, ?_⟩
    · rw [Grammar.ruleNames_declare h.names]
      simp
    · refine List.pairwise_append.mpr ⟨h.sorted, List.pairwise_singleton _ _, ?_⟩
      rintro ⟨j, name⟩ hj _ hlast
      rw [List.mem_singleton.mp hlast]
      exact ((h.mem_iff j name).mp hj).1
    · intro j name
      rw [← hmem, List.mem_append, List.mem_singleton, Prod.mk.injEq]
      simp only [hdeclares, true_and]
    · intro d hd
      rcases Array.mem_append.mp hd with hd | hd
      · exact h.warnings d hd
      · rw [hds d (List.mem_toArray.mp hd)]
        decide
  · rw [declaration_of_not hdeclares]
    refine ⟨keys, h.mode_eq, hlayers, h.stack, h.seen_next hts hopening, h.names, h.sorted, ?_,
      h.warnings⟩
    intro j name
    rw [← hmem]
    simp only [hdeclares, false_and, or_false]

end Word

/-! ### The whole walk -/

/-- **One step of the scanner** goes past one token. -/
theorem step {before after : List Token} {t : Token} (h : Walk mode ts before.length js keys s)
    (hts : ts = before.reverse ++ t :: after) (hbalanced : Balanced ts) :
    ∃ js' keys', Walk mode ts (before.length + 1) js' keys' (s.step before t after) := by
  have hword {key : List Char} (hkey : t.key? = some key) : ∃ js' keys',
      Walk mode ts (before.length + 1) js' keys'
        (((s.declaration before t after).grammarName before t after).reference t after) := by
    obtain ⟨keys', hwalk⟩ := h.declaration hts hkey
    exact ⟨js, keys', (reference_agrees _ t after).walk
      ((grammarName_agrees _ before t after).walk hwalk)⟩
  unfold ScanState.step
  split
  case h_1 d ht => exact ⟨_, keys, h.opening hts ht⟩
  case h_2 d ht =>
    obtain ⟨js', hwalk⟩ := h.closing hts ht hbalanced
    exact ⟨js', keys, hwalk⟩
  case h_3 ht => exact hword (by rw [Token.key?, ht])
  case h_4 ht => exact hword (by rw [Token.key?, ht])
  case h_5 =>
    refine ⟨js, keys, h.plain hts ?_ ?_⟩
    · cases hkind : t.kind <;> simp_all [TokenKind.isDelimiter]
    · rw [Token.key?]
      split <;> simp_all

/-- **The scanner goes past all tokens.** -/
theorem run {before after : List Token} (h : Walk mode ts before.length js keys s)
    (hts : ts = before.reverse ++ after) (hbalanced : Balanced ts) :
    ∃ js' keys', Walk mode ts ts.length js' keys' (s.run before after) := by
  induction after generalizing before js keys s with
  | nil =>
    have hlength : ts.length = before.length := by simp [hts]
    rw [hlength]
    exact ⟨js, keys, h⟩
  | cons t after ih =>
    obtain ⟨js', keys', hstep⟩ := h.step hts hbalanced
    rw [ScanState.run]
    exact ih hstep (by simpa using hts)

end Walk

/-! ## The whole script -/

/-- The `rules` object is looked for as the mode says. -/
theorem marked_rules_iff (hmode : mode = .call ↔ ∃ g, IsCall ts g) {r : Nat} :
    Marked mode ts .rules r ↔ IsRules ts r := by
  simp only [Marked, IsRules, Candidate, hmode]
  rfl

theorem lt_length_of_kindAt {i : Nat} {k : TokenKind} (h : kindAt ts i = some k) :
    i < ts.length := by
  obtain ⟨t, ht, -⟩ := Option.map_eq_some_iff.mp h
  exact (List.getElem?_eq_some_iff.mp ht).1

/-- A delimiter with a role is one of the tokens. -/
theorem Marked.lt_length {r : Role} {i : Nat} (h : Marked mode ts r i) : i < ts.length :=
  lt_length_of_kindAt h.1.kindAt_eq

namespace Walk

variable {js : List (Nat × Delimiter)} {keys : List (Nat × String)} {s : ScanState}

/-- In the end every delimiter with a role has been passed. -/
theorem seen_end (h : Walk mode ts ts.length js keys s) (r : Role) :
    s.seen r = true ↔ ∃ j, Marked mode ts r j := by
  rw [h.seen]
  exact ⟨fun ⟨j, _, hj⟩ ↦ ⟨j, hj⟩, fun ⟨j, hj⟩ ↦ ⟨j, hj.lt_length, hj⟩⟩

/-- The report that is made at the end is the only one of its kind. -/
theorem filter_finish (h : Walk mode ts ts.length js keys s) (hbalanced : Balanced ts) :
    s.finish.filter (·.kind = .missingRulesObject) =
      if s.seen .rules then [] else [ScanState.missingRules s.mode] := by
  have hlayers := h.layers
  rw [List.take_length] at hlayers
  have hstack := h.stack
  rw [hlayers.eq_nil hbalanced, List.forall₂_nil_right_iff] at hstack
  have hwarnings : s.diagnostics.toList.filter (·.kind = .missingRulesObject) = [] := by
    simpa using h.warnings
  rw [ScanState.finish, ScanState.seen, hstack, List.filter_append, List.filter_append, hwarnings]
  split
  · rfl
  · simp [ScanState.missingRules]

/-- The keys that have declared a rule are those of the `rules` object. -/
theorem listsKeys (h : Walk mode ts ts.length js keys s) {r : Nat}
    (hr : Marked mode ts .rules r) : ListsKeys ts r keys where
  sorted := h.sorted
  mem_iff i name := by
    rw [h.mem_iff]
    constructor
    · rintro ⟨-, r', hr', hdeclares⟩
      rwa [hr.unique hr']
    · intro hdeclares
      obtain ⟨t, ht, -⟩ := Option.bind_eq_some_iff.mp hdeclares.key
      exact ⟨(List.getElem?_eq_some_iff.mp ht).1, r, hr, hdeclares⟩

/-- Without a `rules` object there are no keys. -/
theorem keys_eq_nil (h : Walk mode ts ts.length js keys s) (hr : ∀ r, ¬ Marked mode ts .rules r) :
    keys = [] := by
  refine List.eq_nil_iff_forall_not_mem.mpr fun ⟨i, name⟩ hi ↦ ?_
  obtain ⟨-, r, hmarked, -⟩ := (h.mem_iff i name).mp hi
  exact hr r hmarked

end Walk

/-- The scanner walks in the mode that the script calls for. -/
theorem exists_walk (hbalanced : Balanced ts) :
    ∃ mode js keys, (mode = .call ↔ ∃ g, IsCall ts g) ∧
      Walk mode ts ts.length js keys (scanTokens ts) := by
  have hrun (mode : Mode) := Walk.run
    (show Walk mode ts ([] : List Token).length [] [] { mode } from .start mode ts) rfl hbalanced
  obtain ⟨js, keys, hcall⟩ := hrun .call
  have hseen := hcall.seen_end .call
  simp only [marked_call_iff] at hseen
  rw [scanTokens]
  split
  · rename_i h
    exact ⟨.call, js, keys, by simpa using hseen.mp h, hcall⟩
  · rename_i h
    obtain ⟨js, keys, hanywhere⟩ := hrun .anywhere
    exact ⟨.anywhere, js, keys, by simpa using fun g hg ↦ h (hseen.mpr ⟨g, hg⟩), hanywhere⟩

/-- **The scanner declares exactly the keys of the `rules` object**, whose braces `IsRules` finds
by nesting alone; it warns, once, exactly if the script has no such object. -/
theorem scanScript_rules (source : String) (h : Balanced (tokenize source)) :
    (∀ r, IsRules (tokenize source) r → ∃ keys, ListsKeys (tokenize source) r keys ∧
        (scanScript source).1.ruleNames = (keys.map Prod.snd).eraseDups ∧
        (scanScript source).2.filter (·.kind = .missingRulesObject) = []) ∧
      ((∀ r, ¬ IsRules (tokenize source) r) → (scanScript source).1.ruleNames = [] ∧
        ∃ d, d.severity = .warning ∧
          (scanScript source).2.filter (·.kind = .missingRulesObject) = [d]) := by
  obtain ⟨mode, js, keys, hmode, hwalk⟩ := exists_walk h
  have hseen := hwalk.seen_end .rules
  have hfilter := hwalk.filter_finish h
  constructor
  · intro r hr
    have hmarked := (marked_rules_iff hmode).mpr hr
    rw [if_pos (hseen.mpr ⟨r, hmarked⟩)] at hfilter
    exact ⟨keys, hwalk.listsKeys hmarked, hwalk.names, hfilter⟩
  · intro hr
    have hmarked : ∀ r, ¬ Marked mode (tokenize source) .rules r :=
      fun r hm ↦ hr r ((marked_rules_iff hmode).mp hm)
    have hnames := hwalk.names
    rw [hwalk.keys_eq_nil hmarked] at hnames
    rw [if_neg fun hs ↦ (hseen.mp hs).elim hmarked] at hfilter
    exact ⟨hnames, _, rfl, hfilter⟩

/-- A script that declares one rule by a name and one by a quoted name. -/
theorem scanScript_rules_quoted :
    let source :=
      "grammar(\x7b name: 'sums', rules: \x7b sum: $ => $.num, 'num': _ => /[(]/ \x7d \x7d)"
    Balanced (tokenize source) ∧ ∃ r keys, IsRules (tokenize source) r ∧
      ListsKeys (tokenize source) r keys ∧ (keys.map Prod.snd).eraseDups = ["sum", "num"] := by
  intro source
  have hbalanced : Balanced (tokenize source) := by decide +kernel
  have hnames : (scanScript source).1.ruleNames = ["sum", "num"] := by decide +kernel
  obtain ⟨hrules, hnone⟩ := scanScript_rules source hbalanced
  refine ⟨hbalanced, ?_⟩
  by_cases hr : ∃ r, IsRules (tokenize source) r
  · obtain ⟨r, hr⟩ := hr
    obtain ⟨keys, hkeys, heq, -⟩ := hrules r hr
    exact ⟨r, keys, hr, hkeys, by rw [← heq, hnames]⟩
  · rw [(hnone fun r h ↦ hr ⟨r, h⟩).1] at hnames
    contradiction

end Concord.Script
