import Mathlib.Logic.Relation
import Concord.Proofs.Scope.Shape

/-!
# The scopes of a reference grammar

Which scopes a document declares can be said of its tree alone: `Holds` leads from a grammar or a
rule to the rules in its containers, and a scope is declared if it is a word of the root's
`scopeName`, or of the `name` or `contentName` of a rule that is reached from there.

* `words_spec` — the words of a text are what stands between its white space.
* `ofMembers_spec` — what has been read of the members of an object.
* `mem_declaredTexts_iff` — what a rule and the rules in it declare.
* `ScopeGrammar.ofJson_spec` — which texts are read as a grammar, and which scopes it then has.
-/

set_option autoImplicit false

namespace Concord

open Json Relation

/-! ## Words -/

theorem wordsFrom_eq (word cs : List Char) :
    wordsFrom word cs =
      (List.splitOnPPrepend Unicode.isSpace cs word).filter fun part ↦ !part.isEmpty := by
  induction cs generalizing word with
  | nil =>
    rw [wordsFrom]
    cases word <;> simp [List.splitOnPPrepend]
  | cons c cs ih =>
    rw [wordsFrom, List.splitOnPPrepend]
    split
    · cases word <;> simp [ih]
    · exact ih _

/-- The words of a text are the parts between its white space, as far as they are not empty. -/
theorem mem_words_iff {s text : String} :
    s ∈ words text ↔ s ≠ "" ∧ s.toList ∈ text.toList.splitOnP Unicode.isSpace := by
  rw [words, wordsFrom_eq, List.mem_map]
  constructor
  · rintro ⟨cs, hcs, rfl⟩
    rw [List.mem_filter] at hcs
    rw [String.toList_ofList]
    refine ⟨?_, hcs.1⟩
    rintro hempty
    rw [String.ofList_eq_empty_iff.mp hempty] at hcs
    exact absurd hcs.2 (by simp)
  · rintro ⟨hs, hmem⟩
    refine ⟨s.toList, List.mem_filter.mpr ⟨hmem, ?_⟩, String.ofList_toList⟩
    simpa using hs

/-! ## Rules in one another -/

/-- The string at a key of an object. -/
def GivesText (n : Node) (k text : String) : Prop :=
  ∃ stop, HasMember n.members k (.scalar (.string (.ok text)) stop)

/-- A rule is in a container: it is an item of a list, or the last member of a map at its key. -/
inductive InContainer : Form → Node → Node → Prop
  | item {start : Nat} {items : List Node} {finish : Finish} {r : Node} (h : r ∈ items) :
      InContainer .list (.list start items finish) r
  | entry {start : Nat} {members : List (Key × Node)} {finish : Finish} {k : String} {r : Node}
      (h : LastMember members k r) : InContainer .map (.object start members finish) r

/-- A rule is in one of the containers of a grammar or a rule. -/
def Holds (level : Level) (n r : Node) : Prop :=
  ∃ k form c, (k, form) ∈ knownKeys level ∧ HasMember n.members k c ∧ InContainer form c r

/-- A text is the `name` or the `contentName` of a rule or of one that is reached from it. -/
def DeclaresWithin (n : Node) (text : String) : Prop :=
  ∃ r, ReflTransGen (Holds .rule) n r ∧ (GivesText r "name" text ∨ GivesText r "contentName" text)

/-- A text declares scopes: it is the `scopeName` of the root, or a name of a rule that is reached
from the root. -/
def DeclaresText (root : Node) (text : String) : Prop :=
  GivesText root "scopeName" text ∨ ∃ r, Holds .root root r ∧ DeclaresWithin r text

theorem declaresWithin_iff {n : Node} {text : String} :
    DeclaresWithin n text ↔ (GivesText n "name" text ∨ GivesText n "contentName" text) ∨
      ∃ r, Holds .rule n r ∧ DeclaresWithin r text := by
  constructor
  · rintro ⟨r, hr, htext⟩
    rcases hr.cases_head with rfl | ⟨r', hr', hrest⟩
    · exact .inl htext
    · exact .inr ⟨r', hr', r, hrest, htext⟩
  · rintro (htext | ⟨r', hr', r, hr, htext⟩)
    · exact ⟨n, .refl, htext⟩
    · exact ⟨r, .head hr' hr, htext⟩

/-! ## What is read of an object -/

@[simp]
theorem ScopeNames.get?_empty (key : ScopeKey) : ({} : ScopeNames).get? key = none := by
  cases key <;> rfl

theorem ScopeNames.get?_set (names : ScopeNames) (value : Option String) (key key' : ScopeKey) :
    (names.set value key').get? key = if key = key' then value else names.get? key := by
  cases key <;> cases key' <;> rfl

theorem perm_putGroup (g : Group) (gs : List Group) : (putGroup g gs).Perm (g :: gs) := by
  induction gs with
  | nil => exact .refl _
  | cons h hs ih =>
    rw [putGroup]
    split
    · exact (ih.cons h).trans (.swap g h hs)
    · exact .refl _

theorem mem_putGroup {g g' : Group} {gs : List Group} :
    g ∈ putGroup g' gs ↔ g = g' ∨ g ∈ gs := by
  rw [(perm_putGroup g' gs).mem_iff, List.mem_cons]

/-- A node stands at a field of an object. -/
def AtField (level : Level) (ms : List (Key × Node)) (field : Field) (n : Node) : Prop :=
  level.field? field.label = some field ∧ HasMember ms field.label n

theorem not_atField_nil {level : Level} {field : Field} {n : Node} : ¬ AtField level [] field n :=
  fun h ↦ not_hasMember_nil h.2

theorem atField_cons {level : Level} {ms : List (Key × Node)} {key : Key} {k : String}
    {field : Field} {m n : Node} (hkey : key.text = .ok k) :
    AtField level ((key, m) :: ms) field n ↔
      (level.field? k = some field ∧ n = m) ∨ AtField level ms field n := by
  simp only [AtField, hasMember_cons hkey]
  constructor
  · rintro ⟨hfield, ⟨rfl, rfl⟩ | hn⟩
    · exact .inl ⟨hfield, rfl⟩
    · exact .inr ⟨hfield, hn⟩
  · rintro (⟨hfield, rfl⟩ | ⟨hfield, hn⟩)
    · obtain rfl := label_of_field? hfield
      exact ⟨hfield, .inl ⟨rfl, rfl⟩⟩
    · exact ⟨hfield, .inr hn⟩

namespace ScopeTree

/-- **What has been read of the members of an object**: the names that stand at the keys of names,
and the rules that stand at the keys of containers. -/
theorem ofMembers_spec {level : Level} {room : Nat} {seen : List String}
    {names names' : ScopeNames} {groups groups' : List Group} {ms : List (Key × Node)}
    (hseen : ∀ key text, names.get? key = some text → key.label ∈ seen)
    (h : ofMembers level room seen names groups ms = .ok (.node names' groups')) :
    (∀ key text, names'.get? key = some text ↔ names.get? key = some text ∨
        ∃ n, AtField level ms (.name key) n ∧ n.optionalText = .ok (some text)) ∧
      ∀ c rules, (c, rules) ∈ groups' ↔ (c, rules) ∈ groups ∨
        ∃ n, AtField level ms (.group c) n ∧ rulesOf room c n = .ok rules := by
  induction ms generalizing seen names groups with
  | nil =>
    rw [ofMembers] at h
    cases h
    simp [not_atField_nil]
  | cons m ms ih =>
    obtain ⟨key, n⟩ := m
    obtain ⟨k, hkey, ⟨hfield, -, h⟩ | ⟨nameKey, value, hfield, hk, hvalue, h⟩ |
      ⟨c₀, rules₀, hfield, hk, hrules, h⟩⟩ := ofMembers_cons_cases h
    all_goals simp only [atField_cons hkey, hfield]
    · simpa using ih hseen h
    · have hlabel := label_of_field? hfield
      have hseen' : ∀ key text, (names.set value nameKey).get? key = some text →
          key.label ∈ k :: seen := by
        intro key text hget
        rw [ScopeNames.get?_set] at hget
        split at hget
        · rename_i heq
          rw [heq]
          exact List.mem_cons.mpr (.inl hlabel)
        · exact List.mem_cons_of_mem _ (hseen key text hget)
      obtain ⟨hnames, hgroups⟩ := ih hseen' h
      refine ⟨fun key text ↦ ?_, by simpa using hgroups⟩
      rw [hnames, ScopeNames.get?_set]
      simp only [Option.some_inj, Field.name.injEq]
      by_cases heq : key = nameKey
      · subst heq
        -- nothing had this name before
        have hget : names.get? key ≠ some text :=
          fun hget ↦ hk (hlabel ▸ hseen key text hget)
        simp only [if_true, hget, false_or, true_and, or_and_right, exists_or,
          exists_eq_left, hvalue, Except.ok.injEq]
      · simp only [if_neg heq, Ne.symm heq, false_and, false_or]
    · have hseen' : ∀ key text, names.get? key = some text → key.label ∈ k :: seen :=
        fun key text hget ↦ List.mem_cons_of_mem _ (hseen key text hget)
      obtain ⟨hnames, hgroups⟩ := ih hseen' h
      refine ⟨by simpa using hnames, fun c rules ↦ ?_⟩
      rw [hgroups, mem_putGroup]
      simp only [Option.some_inj, Field.group.injEq, Prod.mk.injEq, or_and_right, exists_or,
        and_assoc, exists_and_left, exists_eq_left]
      have hthis : (c = c₀ ∧ rules = rules₀) ↔ (c₀ = c ∧ rulesOf room c n = .ok rules) := by
        constructor
        · rintro ⟨rfl, rfl⟩
          exact ⟨rfl, hrules⟩
        · rintro ⟨rfl, h⟩
          rw [hrules, Except.ok.injEq] at h
          exact ⟨rfl, h.symm⟩
      rw [hthis, or_assoc, or_left_comm]

/-! ## What is read of a list or a map of rules -/

theorem mem_ofItems {room i : Nat} {ns : List Node} {rules : List (Slot × ScopeTree)}
    (h : ofItems room i ns = .ok rules) (t : ScopeTree) :
    t ∈ rules.map Prod.snd ↔ ∃ n ∈ ns, ofNode .rule room n = .ok t := by
  induction ns generalizing i rules with
  | nil =>
    rw [ofItems] at h
    cases h
    simp
  | cons n ns ih =>
    rw [ofItems, bind_eq_ok_iff] at h
    obtain ⟨t₀, ht₀, h⟩ := h
    obtain ⟨rules', hrules', h⟩ := bind_eq_ok_iff.mp h
    cases h
    simp only [List.map_cons, List.mem_cons, ih hrules', or_and_right, exists_or, exists_eq_left,
      ht₀, Except.ok.injEq, @eq_comm _ t₀ t]

theorem mem_putRule {slot slot' : Slot} {t t' : ScopeTree} {rules : List (Slot × ScopeTree)}
    (h : (rules.map Prod.fst).Nodup) :
    (slot, t) ∈ putRule slot' t' rules ↔
      (slot = slot' ∧ t = t') ∨ (slot ≠ slot' ∧ (slot, t) ∈ rules) := by
  induction rules with
  | nil => simp [putRule]
  | cons r rs ih =>
    obtain ⟨s, u⟩ := r
    rw [List.map_cons, List.nodup_cons] at h
    rw [putRule]
    split
    · rename_i heq
      subst heq
      have hnot : ∀ u, (s, u) ∉ rs := fun u hu ↦ h.1 (List.mem_map.mpr ⟨_, hu, rfl⟩)
      simp only [List.mem_cons, Prod.mk.injEq]
      grind
    · simp only [List.mem_cons, Prod.mk.injEq, ih h.2]
      grind

theorem nodup_putRule {slot : Slot} {t : ScopeTree} {rules : List (Slot × ScopeTree)}
    (h : (rules.map Prod.fst).Nodup) : ((putRule slot t rules).map Prod.fst).Nodup := by
  induction rules with
  | nil => simp [putRule]
  | cons r rs ih =>
    obtain ⟨s, u⟩ := r
    rw [List.map_cons, List.nodup_cons] at h
    rw [putRule]
    split
    · simpa using h
    · rename_i hne
      rw [List.map_cons, List.nodup_cons]
      refine ⟨fun hmem ↦ ?_, ih h.2⟩
      obtain ⟨⟨s', u'⟩, hr, rfl⟩ := List.mem_map.mp hmem
      rcases (mem_putRule h.2).mp hr with ⟨rfl, -⟩ | ⟨-, hr⟩
      · exact hne rfl
      · exact h.1 (List.mem_map.mpr ⟨_, hr, rfl⟩)

/-- Of rules with the same key, the last one counts. -/
theorem mem_ofEntries {room : Nat} {before rules : List (Slot × ScopeTree)}
    {ms : List (Key × Node)} (hbefore : (before.map Prod.fst).Nodup)
    (h : ofEntries room before ms = .ok rules)
    (slot : Slot) (t : ScopeTree) :
    (slot, t) ∈ rules ↔
      (∃ k n, slot = .key k ∧ LastMember ms k n ∧ ofNode .rule room n = .ok t) ∨
        ((slot, t) ∈ before ∧ ∀ k, slot = .key k → ∀ n, ¬ HasMember ms k n) := by
  induction ms generalizing before with
  | nil =>
    rw [ofEntries] at h
    cases h
    simp [not_lastMember_nil, not_hasMember_nil]
  | cons m ms ih =>
    obtain ⟨key, n₀⟩ := m
    obtain ⟨k₀, hkey⟩ := Key.text_of_isWhole (isWhole_of_ofEntries h (key, n₀) List.mem_cons_self)
    rw [ofEntries_cons hkey, bind_eq_ok_iff] at h
    obtain ⟨t₀, ht₀, h⟩ := h
    rw [ih (nodup_putRule hbefore) h, mem_putRule hbefore]
    simp only [lastMember_cons hkey, hasMember_cons hkey]
    grind

/-! ## What is declared -/

/-- The texts that a rule and the rules in it declare scopes by. -/
def texts (t : ScopeTree) : List String := (declarations "" t).map ScopeDecl.value

theorem map_value_declare (names : ScopeNames) (path : String) (key : ScopeKey) :
    (declare names path key).map ScopeDecl.value = (names.get? key).toList := by
  rw [declare]
  split <;> simp [*]

mutual

/-- What is declared does not depend on the place. -/
theorem map_value_declarations (path : String) :
    ∀ t, (declarations path t).map ScopeDecl.value = texts t
  | .node names groups => by
    rw [texts, declarations, declarations]
    simp only [List.map_append, map_value_declare,
      map_value_groupDeclarations (path ++ ".") ("" ++ ".") groups]

theorem map_value_groupDeclarations (front front' : String) :
    ∀ groups : List Group, (groupDeclarations front groups).map ScopeDecl.value =
      (groupDeclarations front' groups).map ScopeDecl.value
  | [] => by rw [groupDeclarations, groupDeclarations]
  | (c, rules) :: gs => by
    rw [groupDeclarations, groupDeclarations, List.map_append, List.map_append,
      map_value_groupDeclarations front front' gs,
      map_value_ruleDeclarations (front ++ c.label) (front' ++ c.label) rules]

theorem map_value_ruleDeclarations (path path' : String) :
    ∀ rules : List (Slot × ScopeTree), (ruleDeclarations path rules).map ScopeDecl.value =
      (ruleDeclarations path' rules).map ScopeDecl.value
  | [] => by rw [ruleDeclarations, ruleDeclarations]
  | (slot, t) :: rs => by
    rw [ruleDeclarations, ruleDeclarations, List.map_append, List.map_append,
      map_value_declarations (path ++ slot.label) t,
      map_value_declarations (path' ++ slot.label) t, map_value_ruleDeclarations path path' rs]

end

/-- The texts of the rules in a container. -/
theorem mem_map_value_ruleDeclarations {path text : String} {rules : List (Slot × ScopeTree)} :
    text ∈ (ruleDeclarations path rules).map ScopeDecl.value ↔
      ∃ t ∈ rules.map Prod.snd, text ∈ texts t := by
  induction rules with
  | nil => simp [ruleDeclarations]
  | cons r rs ih =>
    obtain ⟨slot, t⟩ := r
    rw [ruleDeclarations, List.map_append, List.mem_append, map_value_declarations, ih,
      List.map_cons]
    simp only [List.mem_cons, or_and_right, exists_or, exists_eq_left]

/-- The texts of the rules in all containers. -/
theorem mem_map_value_groupDeclarations {front text : String} {groups : List Group} :
    text ∈ (groupDeclarations front groups).map ScopeDecl.value ↔
      ∃ c rules, (c, rules) ∈ groups ∧ ∃ t ∈ rules.map Prod.snd, text ∈ texts t := by
  induction groups with
  | nil => simp [groupDeclarations]
  | cons g gs ih =>
    obtain ⟨c, rules⟩ := g
    rw [groupDeclarations, List.map_append, List.mem_append, mem_map_value_ruleDeclarations, ih]
    simp only [List.mem_cons, Prod.mk.injEq, or_and_right, exists_or, and_assoc, exists_and_left,
      exists_eq_left]

theorem mem_texts_node {names : ScopeNames} {groups : List Group} {text : String} :
    text ∈ texts (.node names groups) ↔
      (names.get? .name = some text ∨ names.get? .contentName = some text) ∨
        ∃ c rules, (c, rules) ∈ groups ∧ ∃ t ∈ rules.map Prod.snd, text ∈ texts t := by
  rw [texts, declarations]
  simp only [List.map_append, List.mem_append, map_value_declare, Option.mem_toList,
    mem_map_value_groupDeclarations]

/-! ## What is read one level further in -/

theorem exists_of_listedRules {room : Nat} {n : Node} {rules : List (Slot × ScopeTree)}
    (h : listedRules room n = .ok rules) :
    ∃ room' start items finish, room = room' + 1 ∧ n = .list start items finish ∧
      ofItems room' 0 items = .ok rules := by
  unfold listedRules at h
  split at h
  · rename_i start items finish
    obtain ⟨room', hroom, h⟩ := bind_eq_ok_iff.mp h
    obtain ⟨rules', hrules, h⟩ := bind_eq_ok_iff.mp h
    obtain ⟨_, -, h⟩ := bind_eq_ok_iff.mp h
    cases h
    exact ⟨room', start, items, finish, eq_succ_of_goInto hroom, rfl, hrules⟩
  · contradiction

theorem exists_of_keyedRules {room : Nat} {n : Node} {rules : List (Slot × ScopeTree)}
    (h : keyedRules room n = .ok rules) :
    ∃ room' start members finish, room = room' + 1 ∧ n = .object start members finish ∧
      ofEntries room' [] members = .ok rules := by
  unfold keyedRules at h
  split at h
  · rename_i start members finish
    obtain ⟨room', hroom, h⟩ := bind_eq_ok_iff.mp h
    obtain ⟨rules', hrules, h⟩ := bind_eq_ok_iff.mp h
    obtain ⟨_, -, h⟩ := bind_eq_ok_iff.mp h
    cases h
    exact ⟨room', start, members, finish, eq_succ_of_goInto hroom, rfl, hrules⟩
  · contradiction

theorem exists_of_ofNode {level : Level} {room : Nat} {n : Node} {t : ScopeTree}
    (h : ofNode level room n = .ok t) :
    ∃ room' start members finish, room = room' + 1 ∧ n = .object start members finish ∧
      ofMembers level room' [] {} [] members = .ok t := by
  unfold ofNode at h
  split at h
  · rename_i start members finish
    obtain ⟨room', hroom, h⟩ := bind_eq_ok_iff.mp h
    obtain ⟨t', ht, h⟩ := bind_eq_ok_iff.mp h
    obtain ⟨_, -, h⟩ := bind_eq_ok_iff.mp h
    cases h
    exact ⟨room', start, members, finish, eq_succ_of_goInto hroom, rfl, ht⟩
  · contradiction

section Level

variable {room : Nat} {text : String} {n : Node}
  (ih : ∀ room' < room, ∀ {r : Node} {t : ScopeTree}, r.isWhole = true →
    ofNode .rule room' r = .ok t → (text ∈ texts t ↔ DeclaresWithin r text))
include ih

theorem exists_mem_listedRules_iff {rules : List (Slot × ScopeTree)} (hwhole : n.isWhole = true)
    (h : listedRules room n = .ok rules) :
    (∃ t ∈ rules.map Prod.snd, text ∈ texts t) ↔
      ∃ r, InContainer .list n r ∧ DeclaresWithin r text := by
  obtain ⟨room, start, items, finish, rfl, rfl, hitem⟩ := exists_of_listedRules h
  obtain ⟨hitems, -⟩ := Node.of_list_isWhole hwhole
  have ih {r : Node} (hr : r ∈ items) {t : ScopeTree} (ht : ofNode .rule room r = .ok t) :=
    ih room (Nat.lt_succ_self room) (hitems r hr) ht
  simp only [mem_ofItems hitem]
  constructor
  · rintro ⟨t, ⟨r, hr, ht⟩, htext⟩
    exact ⟨r, .item hr, (ih hr ht).mp htext⟩
  · rintro ⟨r, ⟨hr⟩, htext⟩
    obtain ⟨t, ht⟩ := ofItems_ok_iff.mp ⟨rules, hitem⟩ r hr
    exact ⟨t, ⟨r, hr, ht⟩, (ih hr ht).mpr htext⟩

theorem exists_mem_keyedRules_iff {rules : List (Slot × ScopeTree)} (hwhole : n.isWhole = true)
    (h : keyedRules room n = .ok rules) :
    (∃ t ∈ rules.map Prod.snd, text ∈ texts t) ↔
      ∃ r, InContainer .map n r ∧ DeclaresWithin r text := by
  obtain ⟨room, start, members, finish, rfl, rfl, hentries⟩ := exists_of_keyedRules h
  obtain ⟨hmembers, -⟩ := Node.of_object_isWhole hwhole
  have ih {m : Key × Node} (hm : m ∈ members) {t : ScopeTree}
      (ht : ofNode .rule room m.2 = .ok t) :=
    ih room (Nat.lt_succ_self room) (hmembers m hm).2 ht
  have hrules := mem_ofEntries (by simp) hentries
  simp only [List.not_mem_nil, false_and, or_false] at hrules
  constructor
  · rintro ⟨t, ht, htext⟩
    obtain ⟨⟨slot, t⟩, hmem, rfl⟩ := List.mem_map.mp ht
    obtain ⟨k, r, rfl, hlast, hread⟩ := (hrules slot t).mp hmem
    obtain ⟨key, -, hr⟩ := hlast.hasMember
    exact ⟨r, .entry hlast, (ih hr hread).mp htext⟩
  · rintro ⟨r, hr, htext⟩
    obtain ⟨k, hlast⟩ : ∃ k, LastMember members k r := by
      cases hr with
      | entry hlast => exact ⟨_, hlast⟩
    obtain ⟨key, -, hr⟩ := hlast.hasMember
    obtain ⟨t, ht⟩ := (ofEntries_ok_iff (isWhole_of_ofEntries hentries)).mp ⟨_, hentries⟩ _ hr
    refine ⟨t, List.mem_map.mpr ⟨(.key k, t), ?_, rfl⟩, (ih hr ht).mpr htext⟩
    exact (hrules _ _).mpr ⟨k, r, rfl, hlast, ht⟩

theorem exists_mem_rulesOf_iff {c : Container} {rules : List (Slot × ScopeTree)}
    (hwhole : n.isWhole = true) (h : rulesOf room c n = .ok rules) :
    (∃ t ∈ rules.map Prod.snd, text ∈ texts t) ↔
      ∃ r, InContainer (Field.group c).form n r ∧ DeclaresWithin r text := by
  cases c with
  | patterns => exact exists_mem_listedRules_iff ih hwhole h
  | _ => exact exists_mem_keyedRules_iff ih hwhole h

end Level

theorem optionalText_eq_some_iff {n : Node} {text : String} :
    n.optionalText = .ok (some text) ↔ ∃ stop, n = .scalar (.string (.ok text)) stop := by
  constructor
  · intro h
    unfold Node.optionalText at h
    split at h
    · cases h
    · rename_i s stop
      cases s with
      | error f => contradiction
      | ok s =>
        cases h
        exact ⟨stop, rfl⟩
    · contradiction
  · rintro ⟨stop, rfl⟩
    rfl

section Members

variable {level : Level} {room : Nat} {ms : List (Key × Node)} {names : ScopeNames}
  {groups : List Group} (h : ofMembers level room [] {} [] ms = .ok (.node names groups))
include h

/-- The names of an object are the texts at the keys of names. -/
theorem get?_of_ofMembers {key : ScopeKey} {text : String} :
    names.get? key = some text ↔ level.field? key.label = some (.name key) ∧
      ∃ stop, HasMember ms key.label (.scalar (.string (.ok text)) stop) := by
  obtain ⟨hnames, -⟩ := ofMembers_spec (by simp) h
  simp only [hnames, ScopeNames.get?_empty, optionalText_eq_some_iff, reduceCtorEq, false_or]
  constructor
  · rintro ⟨_, ⟨hfield, hmem⟩, stop, rfl⟩
    exact ⟨hfield, stop, hmem⟩
  · rintro ⟨hfield, stop, hmem⟩
    exact ⟨_, ⟨hfield, hmem⟩, stop, rfl⟩

/-- The groups of an object hold the rules in its containers. -/
theorem mem_groups_of_ofMembers {c : Container} {rules : List (Slot × ScopeTree)} :
    (c, rules) ∈ groups ↔ ∃ n, AtField level ms (.group c) n ∧ rulesOf room c n = .ok rules := by
  obtain ⟨-, hgroups⟩ := ofMembers_spec (by simp) h
  rw [hgroups]
  simp

end Members

/-- **What is read of a grammar or a rule**: its names, and in its groups what the rules in its
containers declare. -/
theorem ofNode_spec {level : Level} {room : Nat} {n : Node} {names : ScopeNames}
    {groups : List Group} {text : String}
    (ih : ∀ room' < room, ∀ {r : Node} {t : ScopeTree}, r.isWhole = true →
      ofNode .rule room' r = .ok t → (text ∈ texts t ↔ DeclaresWithin r text))
    (hwhole : n.isWhole = true) (h : ofNode level room n = .ok (.node names groups)) :
    (∀ key, names.get? key = some text ↔
        level.field? key.label = some (.name key) ∧ GivesText n key.label text) ∧
      ((∃ c rules, (c, rules) ∈ groups ∧ ∃ t ∈ rules.map Prod.snd, text ∈ texts t) ↔
        ∃ r, Holds level n r ∧ DeclaresWithin r text) := by
  obtain ⟨room, start, members, finish, rfl, rfl, hobject⟩ := exists_of_ofNode h
  obtain ⟨hmembers, -⟩ := Node.of_object_isWhole hwhole
  refine ⟨fun key ↦ get?_of_ofMembers hobject, ?_⟩
  have hrules {k : String} {c : Node} (hc : HasMember members k c) {container : Container}
      {rules : List (Slot × ScopeTree)} (hread : rulesOf room container c = .ok rules) :
      (∃ t ∈ rules.map Prod.snd, text ∈ texts t) ↔
        ∃ r, InContainer (Field.group container).form c r ∧ DeclaresWithin r text := by
    obtain ⟨key, -, hmem⟩ := hc
    exact exists_mem_rulesOf_iff (fun room' hlt ↦ @ih room' (Nat.lt_succ_of_lt hlt))
      (hmembers _ hmem).2 hread
  simp only [mem_groups_of_ofMembers hobject]
  constructor
  · rintro ⟨container, rules, ⟨c, ⟨hfield, hc⟩, hread⟩, htext⟩
    obtain ⟨r, hr, hdeclares⟩ := (hrules hc hread).mp htext
    exact ⟨r, ⟨_, _, c, mem_knownKeys_iff.mpr ⟨_, hfield, rfl⟩, hc, hr⟩, hdeclares⟩
  · rintro ⟨r, ⟨k, form, c, hk, hc, hr⟩, hdeclares⟩
    obtain ⟨field, hfield, rfl⟩ := mem_knownKeys_iff.mp hk
    obtain rfl := label_of_field? hfield
    have hreads := (of_ofMembers hobject hfield).2 c hc
    cases field with
    | name key => cases hr
    | group container =>
      obtain ⟨rules, hread⟩ := reads_group_iff.mp hreads
      exact ⟨container, rules, ⟨c, ⟨hfield, hc⟩, hread⟩, (hrules hc hread).mpr ⟨r, hr, hdeclares⟩⟩

/-- **What a rule declares**: the names of the rules that are reached from it. -/
theorem mem_texts_iff {room : Nat} {n : Node} {t : ScopeTree} {text : String}
    (hwhole : n.isWhole = true) (h : ofNode .rule room n = .ok t) :
    text ∈ texts t ↔ DeclaresWithin n text := by
  induction room using Nat.strongRecOn generalizing n t with
  | ind room ih =>
    obtain ⟨names, groups⟩ := t
    obtain ⟨hnames, hgroups⟩ := ofNode_spec (fun room' hlt _ _ hw ht ↦ ih room' hlt hw ht) hwhole h
    rw [mem_texts_node, hnames, hnames, hgroups, declaresWithin_iff]
    simp [Level.field?, ScopeKey.label]

/-- What a grammar declares. -/
theorem mem_map_value_grammar_iff {room : Nat} {n : Node} {t : ScopeTree} {text : String}
    (hwhole : n.isWhole = true) (h : ofNode .root room n = .ok t) :
    text ∈ t.grammar.declarations.map ScopeDecl.value ↔ DeclaresText n text := by
  obtain ⟨names, groups⟩ := t
  obtain ⟨hnames, hgroups⟩ := ofNode_spec (fun _ _ _ _ hw ht ↦ mem_texts_iff hw ht) hwhole h
  rw [grammar, List.map_append, List.mem_append, map_value_declare, Option.mem_toList, hnames,
    mem_map_value_groupDeclarations, hgroups, DeclaresText]
  simp [Level.field?, ScopeKey.label]

end ScopeTree

/-! ## Whole documents -/

theorem ScopeGrammar.hasScope_iff {g : ScopeGrammar} {scope : String} :
    g.hasScope scope = true ↔ ∃ text ∈ g.declarations.map ScopeDecl.value, scope ∈ words text := by
  simp only [hasScope, ScopeDecl.declares, ScopeDecl.scopes, List.any_eq_true,
    List.contains_iff_mem, List.mem_map]
  constructor
  · rintro ⟨d, hd, hscope⟩
    exact ⟨d.value, ⟨d, hd, rfl⟩, hscope⟩
  · rintro ⟨_, ⟨d, hd, rfl⟩, hscope⟩
    exact ⟨d, hd, hscope⟩

/-- **Exactly the documents of the right shape are read**, and a grammar has exactly the scopes that
are words of the texts that its document declares them by. -/
theorem ScopeGrammar.ofJson_spec (source : String)
    (hwhole : (Document.read source).isWhole = true)
    (hdepth : (Document.read source).root.depth ≤ Json.deepest) :
    ((∃ g, ScopeGrammar.ofJson source = .ok g) ↔
        Fits (.object .root) (Document.read source).root) ∧
      ∀ g, ScopeGrammar.ofJson source = .ok g → ∀ scope, g.hasScope scope = true ↔
        scope ≠ "" ∧ ∃ text, DeclaresText (Document.read source).root text ∧
          scope.toList ∈ text.toList.splitOnP Unicode.isSpace := by
  have hroot : (Document.read source).root.isWhole = true := (Bool.and_eq_true_iff.mp hwhole).1
  have hread : ScopeGrammar.ofJson source =
      ScopeTree.grammar <$> ScopeTree.ofNode .root Json.deepest (Document.read source).root := by
    rw [ofJson, Document.decode_of_isWhole hwhole]
  rw [hread, ← ScopeTree.reads_iff_fits hroot hdepth]
  constructor
  · constructor
    · rintro ⟨g, hg⟩
      obtain ⟨t, ht, -⟩ := exists_of_map_eq_ok hg
      exact ⟨t, ht⟩
    · rintro ⟨t, ht⟩
      exact ⟨t.grammar, by rw [ht]; rfl⟩
  · intro g hg scope
    obtain ⟨t, ht, rfl⟩ := exists_of_map_eq_ok hg
    rw [hasScope_iff]
    simp only [ScopeTree.mem_map_value_grammar_iff hroot ht, mem_words_iff]
    rw [← exists_and_left]
    simp only [and_left_comm]

/-- A document with a member that is ignored and two captures that have the same key. -/
theorem ScopeGrammar.ofJson_spec_nested :
    let source :=
      "\x7b \"scopeName\": \"source.sums\", \"comment\": [1], \"patterns\": [\x7b \"captures\":" ++
      " \x7b \"1\": \x7b\x7d, \"1\": \x7b \"name\":" ++
      " \"keyword.plus  keyword.minus\" \x7d \x7d \x7d] \x7d"
    (Document.read source).isWhole = true ∧ (Document.read source).root.depth ≤ Json.deepest ∧
      Fits (.object .root) (Document.read source).root ∧
        ∃ text, DeclaresText (Document.read source).root text ∧
          "keyword.minus".toList ∈ text.toList.splitOnP Unicode.isSpace := by
  intro source
  have hwhole : (Document.read source).isWhole = true := by decide +kernel
  have hdepth : (Document.read source).root.depth ≤ Json.deepest := by decide +kernel
  have hscope : (ofJson source).toOption.map (·.hasScope "keyword.minus") = some true := by
    decide +kernel
  obtain ⟨hfits, hscopes⟩ := ofJson_spec source hwhole hdepth
  obtain ⟨g, hg, hhas⟩ := Option.map_eq_some_iff.mp hscope
  have hread : ofJson source = .ok g := by
    cases h : ofJson source with
    | error f => simp [h, Except.toOption] at hg
    | ok g' => simpa [h, Except.toOption] using hg
  exact ⟨hwhole, hdepth, hfits.mp ⟨g, hread⟩, ((hscopes g hread _).mp hhas).2⟩

end Concord
