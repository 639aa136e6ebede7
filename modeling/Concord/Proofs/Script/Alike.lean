import Concord.Proofs.Script.Passing
import Concord.Proofs.Script.Unbalanced

/-!
# Two walks that find the same

Two scripts that differ in places, and in quotes around a key, are walked side by side.  The scanner
asks at a name for what follows it (`SameAhead`), and at a brace for what is behind it
(`SameBehind`).

* `Alike` — the two walks have found the same, places apart.
* `Alike.step` — a step keeps them alike.
* `Alike.run` — so does a run over the same lexemes.
-/

set_option autoImplicit false

namespace Concord.Script

/-! ## What a name sees of what follows -/

/-- The string that stands behind a colon. -/
def stringAhead? : List Token → Option String
  | colon :: value :: _ =>
    if colon.kind = .colon ∧ value.kind = .string then value.key?.map String.ofList else none
  | _ => none

/-- The name that stands behind a dot. -/
def nameAhead? : List Token → Option String
  | dot :: name :: _ =>
    if dot.kind = .dot ∧ name.kind = .ident then some (String.ofList name.text) else none
  | _ => none

/-- A name in front of the one list of tokens cannot tell it from the other. -/
structure SameAhead (after after' : List Token) : Prop where
  nearest : nearest? after' = nearest? after
  string : stringAhead? after' = stringAhead? after
  name : nameAhead? after' = nameAhead? after

namespace ScanState

variable (s : ScanState) (before after : List Token) (t : Token)

theorem grammarName_eq : s.grammarName before t after =
    if s.topRole = .config ∧ t.kind = .ident ∧ t.text = "name".toList ∧ atMemberStart before then
      { s with grammar := { s.grammar with name := (stringAhead? after).or s.grammar.name } }
    else s := by
  unfold grammarName
  split
  · match after with
    | [] => rfl
    | [_] => rfl
    | colon :: value :: _ =>
      rw [stringAhead?]
      dsimp only
      split
      · rename_i hkinds
        obtain ⟨key, hkey⟩ : ∃ key, value.key? = some key := by
          simp [Token.key?, hkinds.2]
        rw [hkey]
        rfl
      · rfl
  · rfl

theorem reference_eq : s.reference t after =
    if t.kind = .ident ∧ t.text = ['$'] then
      { s with grammar := (nameAhead? after).elim s.grammar s.grammar.refer }
    else s := by
  unfold reference
  split
  · match after with
    | [] => rfl
    | [_] => rfl
    | dot :: name :: _ =>
      rw [nameAhead?]
      dsimp only
      split <;> rfl
  · rfl

end ScanState

/-! ## Tokens that are told apart by nothing but quotes -/

/-- The second token stands for the same key, and is of the same kind, or a string in place of a
name. -/
structure SameKey (t t' : Token) : Prop where
  key : t'.key? = t.key?
  kind : t'.kind = t.kind ∨ t.kind = .ident ∧ t'.kind = .string

theorem sameKey_of_toLexeme_eq {t t' : Token} (h : t'.toLexeme = t.toLexeme) : SameKey t t' where
  key := by rw [Token.key?, Token.key?, h]
  kind := .inl (congrArg Lexeme.kind h)

/-- In front of the one place and of the other one, the scanner finds the same. -/
structure SameBehind (before before' : List Token) : Prop where
  keys : List.Forall₂ SameKey before before'
  named : followsName "grammar" before' = followsName "grammar" before

theorem SameBehind.cons {before before' : List Token} (h : SameBehind before before') {t t' : Token}
    (ht : t'.toLexeme = t.toLexeme) : SameBehind (t :: before) (t' :: before') where
  keys := .cons (sameKey_of_toLexeme_eq ht) h.keys
  named := by simp only [followsName, List.head?_cons, Option.any_some, ht]

theorem atMemberStart_eq {before before' : List Token} (h : List.Forall₂ SameKey before before') :
    atMemberStart before' = atMemberStart before := by
  cases h with
  | nil => rfl
  | @cons t t' _ _ ht _ =>
    rcases ht.kind with hkind | ⟨hident, hstring⟩
    · simp [atMemberStart, nearest?, hkind]
    · simp only [atMemberStart, nearest?, List.head?_cons, Option.map_some, hident, hstring]
      rfl

theorem followsKey_eq {before before' : List Token} (h : List.Forall₂ SameKey before before')
    (key : String) : followsKey key before' = followsKey key before := by
  cases h with
  | nil => rfl
  | cons hcolon h =>
    cases h with
    | nil => rfl
    | cons hname h =>
      rw [followsKey, followsKey, hname.key, atMemberStart_eq h]
      rcases hcolon.kind with hkind | ⟨hident, hstring⟩
      · rw [hkind]
      · rw [hident, hstring]
        rfl

/-! ## Two walks -/

/-- What a frame is about, whatever its place. -/
def Frame.shape (f : Frame) : Delimiter × Role := (f.delimiter, f.role)

/-- The states have found the same, and only places differ; but if something is `lost`, the second
one may still have the name `kept`. -/
structure Alike (lost : Prop) (kept : Option String) (s s' : ScanState) : Prop where
  mode_eq : s'.mode = s.mode
  stack : s'.stack.map Frame.shape = s.stack.map Frame.shape
  callSeen : s'.callSeen = s.callSeen
  configSeen : s'.configSeen = s.configSeen
  rulesSeen : s'.rulesSeen = s.rulesSeen
  ruleNames : s'.grammar.ruleNames = s.grammar.ruleNames
  references : s'.grammar.references = s.grammar.references
  kinds : s'.diagnostics.toList.map (·.kind) = s.diagnostics.toList.map (·.kind)
  name : s'.grammar.name = s.grammar.name ∨ lost ∧ s'.grammar.name = kept

namespace Alike

variable {lost : Prop} {kept : Option String} {s s' : ScanState}
  {before before' after after' : List Token} {t t' : Token}

theorem refl (s : ScanState) : Alike lost kept s s :=
  ⟨rfl, rfl, rfl, rfl, rfl, rfl, rfl, rfl, .inl rfl⟩

theorem topRole (h : Alike lost kept s s') : s'.topRole = s.topRole := by
  have hhead := congrArg (fun fs ↦ (fs.head?.map Prod.snd).getD .plain) h.stack
  simpa [ScanState.topRole, Frame.shape, Function.comp_def] using hhead

theorem openingRole (h : Alike lost kept s s') (hbefore : SameBehind before before')
    (d : Delimiter) : s'.openingRole d before' = s.openingRole d before := by
  cases d with
  | paren => simp only [ScanState.openingRole, h.mode_eq, h.callSeen, hbefore.named]
  | brace =>
    simp only [ScanState.openingRole, h.mode_eq, h.topRole, h.configSeen, h.rulesSeen,
      followsKey_eq hbefore.keys]
  | bracket => rfl

theorem opened (h : Alike lost kept s s') (hbefore : SameBehind before before') (d : Delimiter) :
    Alike lost kept (s.opened d before t) (s'.opened d before' t') := by
  rw [ScanState.opened_eq, ScanState.opened_eq, h.openingRole hbefore]
  have hstack : ∀ r : Role, (⟨d, r, t'.span⟩ :: s'.stack : List Frame).map Frame.shape =
      (⟨d, r, t.span⟩ :: s.stack : List Frame).map Frame.shape := fun r ↦ by
    rw [List.map_cons, List.map_cons, h.stack]
    rfl
  cases s.openingRole d before with
  | plain => exact { h with stack := hstack _ }
  | call => exact { h with stack := hstack _, callSeen := rfl }
  | config => exact { h with stack := hstack _, configSeen := rfl }
  | rules => exact { h with stack := hstack _, rulesSeen := rfl }

theorem map_kind_neverClosed (fs : List Frame) (related : List RelatedNote) :
    (fs.map (ScanState.neverClosed · related)).map (·.kind) =
      List.replicate fs.length .unbalancedDelimiter := by
  rw [List.map_map, List.eq_replicate_iff]
  refine ⟨by rw [List.length_map], fun k hk ↦ ?_⟩
  obtain ⟨f, -, rfl⟩ := List.mem_map.mp hk
  rfl

theorem closed (h : Alike lost kept s s') (d : Delimiter) :
    Alike lost kept (s.closed d t) (s'.closed d t') := by
  -- both stacks are cut at the same depth
  have hdrop : (s'.stack.dropWhile (·.delimiter ≠ d)).map Frame.shape =
      (s.stack.dropWhile (·.delimiter ≠ d)).map Frame.shape := by
    have hshape := congrArg (List.dropWhile fun x : Delimiter × Role ↦ x.1 ≠ d) h.stack
    rwa [List.dropWhile_map, List.dropWhile_map] at hshape
  have htake : (s'.stack.takeWhile (·.delimiter ≠ d)).length =
      (s.stack.takeWhile (·.delimiter ≠ d)).length := by
    have hshape := congrArg (List.length ∘ List.takeWhile fun x : Delimiter × Role ↦ x.1 ≠ d)
      h.stack
    simp only [Function.comp_apply, List.takeWhile_map, List.length_map] at hshape
    exact hshape
  rw [ScanState.closed, ScanState.closed]
  cases hs : s.stack.dropWhile (·.delimiter ≠ d) with
  | nil =>
    rw [hs, List.map_nil, List.map_eq_nil_iff] at hdrop
    rw [hdrop]
    refine { h with kinds := ?_ }
    simp only [ScanState.report, Array.toList_push, List.map_append, h.kinds]
    rfl
  | cons f outer =>
    rw [hs, List.map_cons] at hdrop
    obtain ⟨f', outer', hs', -, houter⟩ := List.map_eq_cons_iff.mp hdrop
    rw [hs']
    refine { h with stack := houter, kinds := ?_ }
    simp only [Array.toList_append, List.map_append, h.kinds, map_kind_neverClosed,
      List.length_reverse, htake]

/-! ### Keys -/

theorem declaration (h : Alike lost kept s s') (hbefore : List.Forall₂ SameKey before before')
    {key : List Char} (hkey : t.key? = some key) (hkey' : t'.key? = some key)
    (hafter : nearest? after' = nearest? after) :
    Alike lost kept (s.declaration before t after) (s'.declaration before' t' after') := by
  have hdeclares : Walk.Declares s' before' after' ↔ Walk.Declares s before after := by
    rw [Walk.Declares, Walk.Declares, h.topRole, atMemberStart_eq hbefore, hafter]
  by_cases hd : Walk.Declares s before after
  · obtain ⟨ds, hds, hlength, heq⟩ := Walk.declaration_of hd hkey
    obtain ⟨ds', hds', hlength', heq'⟩ := Walk.declaration_of (hdeclares.mpr hd) hkey'
    have hkinds : ∀ ds : List Diagnostic, (∀ d ∈ ds, d.kind = .duplicateRule) →
        ds.map (·.kind) = List.replicate ds.length .duplicateRule := by
      intro ds hds
      rw [List.eq_replicate_iff]
      exact ⟨List.length_map _, fun k hk ↦ by
        obtain ⟨d, hd, rfl⟩ := List.mem_map.mp hk
        exact hds d hd⟩
    rw [heq, heq']
    refine { h with ruleNames := ?_, kinds := ?_ }
    · rw [Grammar.ruleNames_declare_eq, Grammar.ruleNames_declare_eq, h.ruleNames]
    · rw [Array.toList_append, Array.toList_append, List.map_append, List.map_append, h.kinds,
        List.toList_toArray, List.toList_toArray, hkinds ds hds, hkinds ds' hds', hlength, hlength',
        h.ruleNames]
  · rw [Walk.declaration_of_not hd, Walk.declaration_of_not (mt hdeclares.mp hd)]
    exact h

theorem grammarName (h : Alike lost kept s s') (hbefore : List.Forall₂ SameKey before before')
    (ht : t'.toLexeme = t.toLexeme) (hafter : stringAhead? after' = stringAhead? after) :
    Alike lost kept (s.grammarName before t after) (s'.grammarName before' t' after') := by
  rw [ScanState.grammarName_eq, ScanState.grammarName_eq, h.topRole, atMemberStart_eq hbefore, ht,
    hafter]
  split
  · refine { h with name := ?_ }
    cases stringAhead? after with
    | none => exact h.name
    | some name => exact .inl rfl
  · exact h

theorem reference (h : Alike lost kept s s') (ht : t'.toLexeme = t.toLexeme)
    (hafter : nameAhead? after' = nameAhead? after) :
    Alike lost kept (s.reference t after) (s'.reference t' after') := by
  rw [ScanState.reference_eq, ScanState.reference_eq, ht, hafter]
  split
  · cases nameAhead? after with
    | none => exact h
    | some name =>
      have hrefer := fun g : Grammar ↦ g.references_refer_eq name
      refine { h with ruleNames := ?_, references := ?_, name := ?_ }
      · exact (Grammar.ruleNames_refer name).trans (h.ruleNames.trans
          (Grammar.ruleNames_refer name).symm)
      · exact (hrefer _).trans (by rw [h.references]; exact (hrefer _).symm)
      · simpa using h.name
  · exact h

/-! ### Steps -/

/-- **One step** keeps what the two walks have found alike. -/
theorem step (h : Alike lost kept s s') (hbefore : SameBehind before before')
    (ht : t'.toLexeme = t.toLexeme) (hafter : SameAhead after after') :
    Alike lost kept (s.step before t after) (s'.step before' t' after') := by
  have hkind : t'.kind = t.kind := congrArg Lexeme.kind ht
  cases hkey : t.key? with
  | some key =>
    have hkey' : t'.key? = some key := by rw [(sameKey_of_toLexeme_eq ht).key, hkey]
    rw [ScanState.step_of_key hkey, ScanState.step_of_key hkey']
    exact ((h.declaration hbefore.keys hkey hkey' hafter.nearest).grammarName hbefore.keys ht
      hafter.string).reference ht hafter.name
  | none =>
    cases hdelimiter : t.kind.isDelimiter with
    | false =>
      have hkey' : t'.key? = none := by rw [(sameKey_of_toLexeme_eq ht).key, hkey]
      have hdelimiter' : t'.kind.isDelimiter = false := by rw [hkind, hdelimiter]
      rw [ScanState.step_mark hdelimiter hkey, ScanState.step_mark hdelimiter' hkey']
      exact h
    | true =>
      cases hopening : t.kind with
      | opening d =>
        rw [ScanState.step_opening hopening, ScanState.step_opening (hkind.trans hopening)]
        exact h.opened hbefore d
      | closing d =>
        rw [ScanState.step_closing hopening, ScanState.step_closing (hkind.trans hopening)]
        exact h.closed d
      | _ => simp [hopening, TokenKind.isDelimiter] at hdelimiter

theorem sameAhead_of_map_eq {after after' : List Token}
    (h : after'.map Token.toLexeme = after.map Token.toLexeme) : SameAhead after after' := by
  match after with
  | [] =>
    rw [List.map_nil, List.map_eq_nil_iff] at h
    rw [h]
    exact ⟨rfl, rfl, rfl⟩
  | [t] =>
    obtain ⟨t', _, rfl, ht, hnil⟩ := List.map_eq_cons_iff.mp h
    rw [List.map_nil, List.map_eq_nil_iff] at hnil
    rw [hnil]
    exact ⟨by simp [nearest?, ht], rfl, rfl⟩
  | t :: u :: after =>
    obtain ⟨t', _, rfl, ht, htail⟩ := List.map_eq_cons_iff.mp h
    obtain ⟨u', after', rfl, hu, -⟩ := List.map_eq_cons_iff.mp htail
    constructor
    · simp [nearest?, ht]
    · simp [stringAhead?, Token.key?, ht, hu]
    · simp [nameAhead?, ht, hu]

/-- **The whole walk** keeps what the two walks have found alike. -/
theorem run (h : Alike lost kept s s') (hbefore : SameBehind before before')
    (hafter : after'.map Token.toLexeme = after.map Token.toLexeme) :
    Alike lost kept (s.run before after) (s'.run before' after') := by
  induction after generalizing before before' after' s s' with
  | nil =>
    rw [List.map_nil, List.map_eq_nil_iff] at hafter
    rw [hafter]
    exact h
  | cons t after ih =>
    obtain ⟨t', after', rfl, ht, hafter⟩ := List.map_eq_cons_iff.mp hafter
    rw [ScanState.run, ScanState.run]
    exact ih (h.step hbefore ht (sameAhead_of_map_eq hafter)) (hbefore.cons ht) hafter

/-- In the end the same kinds of problems are told. -/
theorem finish (h : Alike lost kept s s') :
    s'.finish.map (·.kind) = s.finish.map (·.kind) := by
  have hlength := congrArg List.length h.stack
  rw [List.length_map, List.length_map] at hlength
  simp only [ScanState.finish, List.map_append, h.kinds, map_kind_neverClosed, List.length_reverse,
    hlength, h.rulesSeen]
  split <;> rfl

end Alike

end Concord.Script
