import Mathlib.Data.List.Nodup
import Concord.Proofs.Scope.Declared
import Concord.Proofs.Scope.Path

/-!
# Where scopes are declared

`Leads` says of a document which steps lead from its root to which object.  A declaration can be
found again by its path: the steps of the path lead to one object only, which has the declared value
at the declared key, and no other steps have that path.  For this no key of a map may have a dot
(`mapKeys`).

* `ScopeTree.sites` — the declarations of a rule and the rules in it, with the steps to each.
* `ScopeTree.grammar_declarations_eq` — the declarations of a grammar have the paths of its sites.
* `Located` — the steps of sites lead to the objects that declare, and with the keys they tell all
  declarations apart.  `located_rootSites` says so of what has been read.
* `Leads.unique` and `Leads.isPlain` — the steps lead to one object only, and can be read back.
* `ScopeGrammar.declarations_located` — these put together with the reading of paths.
-/

set_option autoImplicit false

namespace Concord

open Json

/-! ## Steps in a document -/

/-- A rule is in a slot of a container: it is an item of a list, or the last member of a map at its
key. -/
inductive InSlot : Form → Node → Slot → Node → Prop
  | item {start : Nat} {items : List Node} {finish : Finish} {i : Nat} {r : Node}
      (h : items[i]? = some r) : InSlot .list (.list start items finish) (.index i) r
  | entry {start : Nat} {members : List (Key × Node)} {finish : Finish} {k : String} {r : Node}
      (h : LastMember members k r) : InSlot .map (.object start members finish) (.key k) r

theorem InSlot.unique {form : Form} {n r r' : Node} {slot : Slot} (h : InSlot form n slot r)
    (h' : InSlot form n slot r') : r = r' := by
  cases h with
  | item hr =>
    cases h' with
    | item hr' => exact Option.some.inj (hr.symm.trans hr')
  | entry hr =>
    cases h' with
    | entry hr' => exact hr.unique hr'

/-- Steps lead from an object to another one. -/
inductive Leads : Level → Node → List PathStep → Node → Prop
  | here (level : Level) (n : Node) : Leads level n [] n
  | into {level : Level} {n m r n' : Node} {c : Container} {form : Form} {slot : Slot}
      {steps : List PathStep} (hc : (c.label, form) ∈ knownKeys level)
      (hm : HasMember n.members c.label m) (hr : InSlot form m slot r)
      (h : Leads .rule r steps n') : Leads level n (⟨c, slot⟩ :: steps) n'

mutual

/-- The keys of all maps of rules in a value that is to have a form. -/
def mapKeys : Form → Node → List String
  | .list, .list _ items _ => itemKeys items
  | .map, .object _ members _ => entryKeys members
  | .object level, .object _ members _ => fieldKeys level members
  | _, _ => []

/-- The keys of all maps in the rules of a list. -/
def itemKeys : List Node → List String
  | [] => []
  | n :: ns => mapKeys (.object .rule) n ++ itemKeys ns

/-- The keys of a map of rules, and of all maps in its rules. -/
def entryKeys : List (Key × Node) → List String
  | [] => []
  | (key, n) :: ms => key.text.toOption.toList ++ mapKeys (.object .rule) n ++ entryKeys ms

/-- The keys of all maps at the known keys of an object. -/
def fieldKeys (level : Level) : List (Key × Node) → List String
  | [] => []
  | (key, n) :: ms =>
    (match key.text.toOption.bind level.field? with
      | some field => mapKeys field.form n
      | none => []) ++ fieldKeys level ms

end

/-! ## Sites -/

/-- A declaration, and the steps to it. -/
structure Site where
  steps : List PathStep
  key : ScopeKey
  value : String

/-- The site as it is seen from one step further out. -/
def Site.within (s : PathStep) (p : Site) : Site := { p with steps := s :: p.steps }

/-- What tells a site from others. -/
def Site.place (p : Site) : List PathStep × ScopeKey := (p.steps, p.key)

namespace ScopeTree

/-- The declarations by keys of an object itself. -/
def ownSites (names : ScopeNames) (keys : List ScopeKey) : List Site :=
  keys.filterMap fun key ↦ (names.get? key).map fun value ↦ ⟨[], key, value⟩

mutual

/-- The declarations of a rule and the rules in it. -/
def sites : ScopeTree → List Site
  | node names groups => ownSites names [.name, .contentName] ++ groupSites groups

/-- The declarations of the rules in containers. -/
def groupSites : List (Container × List (Slot × ScopeTree)) → List Site
  | [] => []
  | (c, rules) :: gs => ruleSites c rules ++ groupSites gs

/-- The declarations of the rules in a container. -/
def ruleSites (c : Container) : List (Slot × ScopeTree) → List Site
  | [] => []
  | (slot, t) :: rs => (sites t).map (Site.within ⟨c, slot⟩) ++ ruleSites c rs

end

/-- The declarations of a grammar. -/
def rootSites : ScopeTree → List Site
  | node names groups => ownSites names [.scopeName] ++ groupSites groups

theorem mem_ownSites {names : ScopeNames} {keys : List ScopeKey} {p : Site} :
    p ∈ ownSites names keys ↔ p.steps = [] ∧ p.key ∈ keys ∧ names.get? p.key = some p.value := by
  obtain ⟨steps, key, value⟩ := p
  simp only [ownSites, List.mem_filterMap, Option.map_eq_some_iff, Site.mk.injEq]
  constructor
  · rintro ⟨key', hkey', value', hvalue', rfl, rfl, rfl⟩
    exact ⟨rfl, hkey', hvalue'⟩
  · rintro ⟨rfl, hkey, hvalue⟩
    exact ⟨key, hkey, value, hvalue, rfl, rfl, rfl⟩

theorem groupSites_eq (groups : List Group) :
    groupSites groups = groups.flatMap fun g ↦ ruleSites g.1 g.2 := by
  induction groups with
  | nil => rfl
  | cons g gs ih => rw [groupSites, ih, List.flatMap_cons]

theorem ruleSites_eq (c : Container) (rules : List (Slot × ScopeTree)) :
    ruleSites c rules = rules.flatMap fun r ↦ (sites r.2).map (Site.within ⟨c, r.1⟩) := by
  induction rules with
  | nil => rfl
  | cons r rs ih => rw [ruleSites, ih, List.flatMap_cons]

theorem mem_ruleSites {c : Container} {rules : List (Slot × ScopeTree)} {p : Site} :
    p ∈ ruleSites c rules ↔
      ∃ slot t, (slot, t) ∈ rules ∧ ∃ q ∈ sites t, Site.within ⟨c, slot⟩ q = p := by
  simp only [ruleSites_eq, List.mem_flatMap, List.mem_map, Prod.exists]

theorem mem_groupSites {groups : List Group} {p : Site} :
    p ∈ groupSites groups ↔ ∃ c rules, (c, rules) ∈ groups ∧ p ∈ ruleSites c rules := by
  simp only [groupSites_eq, List.mem_flatMap, Prod.exists]

/-! ## The declarations at sites -/

theorem declare_eq (names : ScopeNames) (path : String) (key : ScopeKey) :
    declare names path key = (names.get? key).toList.map fun value ↦ ⟨value, key, path⟩ := by
  rw [declare]
  split <;> simp [*]

/-- An object's own declarations have the path of the object. -/
theorem map_ownSites (names : ScopeNames) (keys : List ScopeKey) (path : List PathStep → String) :
    (ownSites names keys).map (fun p ↦ (⟨p.value, p.key, path p.steps⟩ : ScopeDecl)) =
      keys.flatMap (declare names (path [])) := by
  induction keys with
  | nil => rfl
  | cons key keys ih =>
    rw [List.flatMap_cons, ← ih, declare_eq, ownSites, ownSites, List.filterMap_cons]
    cases names.get? key <;> rfl

theorem exists_step_of_mem_ruleSites {c : Container} {rules : List (Slot × ScopeTree)} {p : Site}
    (hp : p ∈ ruleSites c rules) : ∃ slot steps, p.steps = ⟨c, slot⟩ :: steps := by
  obtain ⟨slot, t, -, q, -, rfl⟩ := mem_ruleSites.mp hp
  exact ⟨slot, q.steps, rfl⟩

mutual

/-- A declaration has the path of its site. -/
theorem declarations_eq (path : String) :
    ∀ t, declarations path t = (sites t).map fun p ↦ ⟨p.value, p.key, path ++ pathOn p.steps⟩
  | .node names groups => by
    have hown := map_ownSites names [.name, .contentName] fun steps ↦ path ++ pathOn steps
    have hgroups : (groupSites groups).map
          (fun p ↦ (⟨p.value, p.key, path ++ "." ++ pathTo p.steps⟩ : ScopeDecl)) =
        (groupSites groups).map fun p ↦ ⟨p.value, p.key, path ++ pathOn p.steps⟩ := by
      refine List.map_congr_left fun p hp ↦ ?_
      obtain ⟨c, rules, -, hp⟩ := mem_groupSites.mp hp
      obtain ⟨slot, steps, hsteps⟩ := exists_step_of_mem_ruleSites hp
      simp [hsteps, pathTo, pathOn, String.append_assoc]
    rw [declarations, sites, List.map_append, hown, groupDeclarations_eq, hgroups]
    simp [pathOn]

theorem groupDeclarations_eq (front : String) :
    ∀ groups : List Group, groupDeclarations front groups =
      (groupSites groups).map fun p ↦ ⟨p.value, p.key, front ++ pathTo p.steps⟩
  | [] => by rw [groupDeclarations, groupSites, List.map_nil]
  | (c, rules) :: gs => by
    rw [groupDeclarations, groupSites, List.map_append, ruleDeclarations_eq front c rules,
      groupDeclarations_eq front gs]

theorem ruleDeclarations_eq (front : String) (c : Container) :
    ∀ rules : List (Slot × ScopeTree), ruleDeclarations (front ++ c.label) rules =
      (ruleSites c rules).map fun p ↦ ⟨p.value, p.key, front ++ pathTo p.steps⟩
  | [] => by rw [ruleDeclarations, ruleSites, List.map_nil]
  | (slot, t) :: rs => by
    rw [ruleDeclarations, ruleSites, List.map_append, ruleDeclarations_eq front c rs,
      declarations_eq _ t, List.map_map]
    simp [Function.comp_def, Site.within, pathTo, PathStep.label, String.append_assoc]

end

/-- The declarations of a grammar have the paths of their sites. -/
theorem grammar_declarations_eq (t : ScopeTree) :
    t.grammar.declarations = (rootSites t).map fun p ↦ ⟨p.value, p.key, pathTo p.steps⟩ := by
  obtain ⟨names, groups⟩ := t
  rw [grammar, rootSites, List.map_append, map_ownSites, groupDeclarations_eq]
  simp [pathTo]

/-! ## What is read of a container -/

/-- The rules that have been read of a container: each stands in its slot, no slot repeats, and the
rule in every slot has been read. -/
structure RulesRead (room : Nat) (form : Form) (n : Node) (rules : List (Slot × ScopeTree)) :
    Prop where
  nodup : (rules.map Prod.fst).Nodup
  inSlot : ∀ slot t, (slot, t) ∈ rules → ∃ r, InSlot form n slot r ∧ ofNode .rule room r = .ok t
  read : ∀ slot r, InSlot form n slot r → ∃ t, ofNode .rule room r = .ok t

theorem map_fst_ofItems {room i : Nat} {ns : List Node} {rules : List (Slot × ScopeTree)}
    (h : ofItems room i ns = .ok rules) :
    rules.map Prod.fst = (List.range' i ns.length).map Slot.index := by
  induction ns generalizing i rules with
  | nil =>
    rw [ofItems] at h
    cases h
    rfl
  | cons n ns ih =>
    rw [ofItems, bind_eq_ok_iff] at h
    obtain ⟨t, -, h⟩ := h
    obtain ⟨rules', hrules, h⟩ := bind_eq_ok_iff.mp h
    cases h
    rw [List.map_cons, ih hrules, List.length_cons, List.range'_succ, List.map_cons]

theorem exists_getElem?_of_ofItems {room i : Nat} {ns : List Node}
    {rules : List (Slot × ScopeTree)} (h : ofItems room i ns = .ok rules) {slot : Slot}
    {t : ScopeTree} (hmem : (slot, t) ∈ rules) :
    ∃ j r, slot = .index (i + j) ∧ ns[j]? = some r ∧ ofNode .rule room r = .ok t := by
  induction ns generalizing i rules with
  | nil =>
    rw [ofItems] at h
    cases h
    exact absurd hmem List.not_mem_nil
  | cons n ns ih =>
    rw [ofItems, bind_eq_ok_iff] at h
    obtain ⟨t₀, ht₀, h⟩ := h
    obtain ⟨rules', hrules, h⟩ := bind_eq_ok_iff.mp h
    cases h
    rcases List.mem_cons.mp hmem with heq | hmem
    · obtain ⟨rfl, rfl⟩ := Prod.mk.inj heq
      exact ⟨0, n, rfl, rfl, ht₀⟩
    · obtain ⟨j, r, rfl, hr, ht⟩ := ih hrules hmem
      exact ⟨j + 1, r, by rw [Nat.add_assoc, Nat.add_comm 1 j], by simpa using hr, ht⟩

theorem rulesRead_of_listedRules {room : Nat} {n : Node} {rules : List (Slot × ScopeTree)}
    (h : listedRules room n = .ok rules) : ∃ room' < room, RulesRead room' .list n rules := by
  obtain ⟨room, start, items, finish, rfl, rfl, hitems⟩ := exists_of_listedRules h
  refine ⟨room, Nat.lt_succ_self room, ?_, fun slot t ht ↦ ?_, ?_⟩
  · rw [map_fst_ofItems hitems]
    exact (List.nodup_range').map fun i j hij ↦ Slot.index.inj hij
  · obtain ⟨j, r, rfl, hr, ht⟩ := exists_getElem?_of_ofItems hitems ht
    rw [Nat.zero_add]
    exact ⟨r, .item hr, ht⟩
  · rintro _ r ⟨hr⟩
    exact ofItems_ok_iff.mp ⟨rules, hitems⟩ r (List.mem_of_getElem? hr)

theorem nodup_ofEntries {room : Nat} {before rules : List (Slot × ScopeTree)}
    {ms : List (Key × Node)} (hbefore : (before.map Prod.fst).Nodup)
    (h : ofEntries room before ms = .ok rules) : (rules.map Prod.fst).Nodup := by
  induction ms generalizing before with
  | nil =>
    rw [ofEntries] at h
    cases h
    exact hbefore
  | cons m ms ih =>
    rw [ofEntries, bind_eq_ok_iff] at h
    obtain ⟨k, -, h⟩ := h
    obtain ⟨t, -, h⟩ := bind_eq_ok_iff.mp h
    exact ih (nodup_putRule hbefore) h

theorem rulesRead_of_keyedRules {room : Nat} {n : Node} {rules : List (Slot × ScopeTree)}
    (h : keyedRules room n = .ok rules) : ∃ room' < room, RulesRead room' .map n rules := by
  obtain ⟨room, start, members, finish, rfl, rfl, hentries⟩ := exists_of_keyedRules h
  refine ⟨room, Nat.lt_succ_self room, nodup_ofEntries (by simp) hentries, fun slot t ht ↦ ?_, ?_⟩
  · rcases (mem_ofEntries (by simp) hentries slot t).mp ht with ⟨k, r, rfl, hr, ht⟩ | ⟨hmem, -⟩
    · exact ⟨r, .entry hr, ht⟩
    · exact absurd hmem List.not_mem_nil
  · intro slot r hr
    obtain ⟨k, hlast⟩ : ∃ k, LastMember members k r := by
      cases hr with
      | entry hlast => exact ⟨_, hlast⟩
    obtain ⟨key, -, hmem⟩ := hlast.hasMember
    exact (ofEntries_ok_iff (isWhole_of_ofEntries hentries)).mp ⟨rules, hentries⟩ _ hmem

theorem rulesRead_of_rulesOf {room : Nat} {c : Container} {n : Node}
    {rules : List (Slot × ScopeTree)} (h : rulesOf room c n = .ok rules) :
    ∃ room' < room, RulesRead room' (Field.group c).form n rules := by
  cases c with
  | patterns => exact rulesRead_of_listedRules h
  | _ => exact rulesRead_of_keyedRules h

/-! ## What is read of an object -/

/-- No container of an object has two groups. -/
theorem nodup_ofMembers {level : Level} {room : Nat} {seen : List String}
    {names names' : ScopeNames} {groups groups' : List Group} {ms : List (Key × Node)}
    (hgroups : (groups.map Prod.fst).Nodup) (hseen : ∀ c ∈ groups.map Prod.fst, c.label ∈ seen)
    (h : ofMembers level room seen names groups ms = .ok (.node names' groups')) :
    (groups'.map Prod.fst).Nodup := by
  induction ms generalizing seen names groups with
  | nil =>
    rw [ofMembers] at h
    cases h
    exact hgroups
  | cons m ms ih =>
    obtain ⟨k, -, ⟨-, -, h⟩ | ⟨nameKey, value, -, -, -, h⟩ | ⟨c, rules, hfield, hk, -, h⟩⟩ :=
      ofMembers_cons_cases h
    · exact ih hgroups hseen h
    · exact ih hgroups (fun c hc ↦ List.mem_cons_of_mem k (hseen c hc)) h
    · obtain rfl : c.label = k := label_of_field? hfield
      have hperm := (perm_putGroup (c, rules) groups).map Prod.fst
      refine ih (hperm.nodup_iff.mpr (List.nodup_cons.mpr ⟨fun hc ↦ hk (hseen c hc), hgroups⟩))
        (fun c' hc' ↦ ?_) h
      rcases List.mem_cons.mp (hperm.mem_iff.mp hc') with rfl | hc'
      · exact List.mem_cons_self
      · exact List.mem_cons_of_mem _ (hseen c' hc')

/-- Lists of distinct elements have no element in common if the elements of each have its tag. -/
theorem nodup_flatMap_of_tag {α β γ : Type} (tag : β → Option γ) {own : α → γ} {f : α → List β}
    {as : List α} (hown : (as.map own).Nodup) (htag : ∀ a ∈ as, ∀ b ∈ f a, tag b = some (own a))
    (h : ∀ a ∈ as, (f a).Nodup) : (as.flatMap f).Nodup := by
  rw [List.nodup_flatMap]
  refine ⟨h, (List.pairwise_map.mp hown).imp_of_mem fun {a a'} ha ha' hne ↦ ?_⟩
  show List.Disjoint (f a) (f a')
  rw [List.disjoint_left]
  intro b hb hb'
  exact hne (Option.some_inj.mp ((htag a ha b hb).symm.trans (htag a' ha' b hb')))

/-! ## From sites to the document -/

/-- The sites below an object: their places are distinct, and the steps of each lead to an object
that has the declared value at the declared key. -/
structure Located (level : Level) (n : Node) (ps : List Site) : Prop where
  nodup : (ps.map Site.place).Nodup
  leads : ∀ p ∈ ps, ∃ m, Leads level n p.steps m ∧ GivesText m p.key.label p.value

theorem nodup_place_within {s : PathStep} {ps : List Site} (h : (ps.map Site.place).Nodup) :
    ((ps.map (Site.within s)).map Site.place).Nodup := by
  have hinj : Function.Injective fun place : List PathStep × ScopeKey ↦
      (s :: place.1, place.2) := by
    rintro ⟨steps, key⟩ ⟨steps', key'⟩ heq
    simpa using heq
  have hnodup := h.map hinj
  rw [List.map_map] at hnodup ⊢
  exact hnodup

theorem nodup_place_ownSites (names : ScopeNames) {keys : List ScopeKey} (h : keys.Nodup) :
    ((ownSites names keys).map Site.place).Nodup := by
  rw [ownSites, List.map_filterMap]
  refine h.filterMap fun key key' place hplace hplace' ↦ ?_
  simp only [Option.map_map, Option.mem_def, Option.map_eq_some_iff, Function.comp_def,
    Site.place] at hplace hplace'
  obtain ⟨value, -, rfl⟩ := hplace
  obtain ⟨value', -, heq⟩ := hplace'
  exact (Prod.mk.inj heq).2.symm

section Level

variable {room : Nat}
  (ih : ∀ room' < room, ∀ {r : Node} {t : ScopeTree}, ofNode .rule room' r = .ok t →
    Located .rule r (sites t))
include ih

theorem nodup_place_ruleSites {c : Container} {n : Node} {rules : List (Slot × ScopeTree)}
    (h : rulesOf room c n = .ok rules) : ((ruleSites c rules).map Site.place).Nodup := by
  obtain ⟨room', hlt, hread⟩ := rulesRead_of_rulesOf h
  rw [ruleSites_eq, List.map_flatMap]
  refine nodup_flatMap_of_tag (fun place ↦ place.1.head?.map PathStep.slot) hread.nodup ?_ ?_
  · rintro ⟨slot, t⟩ - place hplace
    simp only [List.mem_map] at hplace
    obtain ⟨-, ⟨q, -, rfl⟩, rfl⟩ := hplace
    rfl
  · rintro ⟨slot, t⟩ ht
    obtain ⟨r, -, ht⟩ := hread.inSlot slot t ht
    exact nodup_place_within (ih room' hlt ht).nodup

variable {level : Level} {ms : List (Key × Node)} {names : ScopeNames} {groups : List Group}
  (h : ofMembers level room [] {} [] ms = .ok (.node names groups))
include h

theorem nodup_place_groupSites : ((groupSites groups).map Site.place).Nodup := by
  rw [groupSites_eq, List.map_flatMap]
  refine nodup_flatMap_of_tag (fun place ↦ place.1.head?.map PathStep.container)
    (nodup_ofMembers (by simp) (by simp) h) ?_ ?_
  · rintro ⟨c, rules⟩ - place hplace
    obtain ⟨p, hp, rfl⟩ := List.mem_map.mp hplace
    obtain ⟨slot, steps, hsteps⟩ := exists_step_of_mem_ruleSites hp
    simp [Site.place, hsteps]
  · rintro ⟨c, rules⟩ hmem
    obtain ⟨n, -, hread⟩ := (mem_groups_of_ofMembers h).mp hmem
    exact nodup_place_ruleSites ih hread

theorem exists_leads_of_mem_groupSites {start : Nat} {finish : Finish} {p : Site}
    (hp : p ∈ groupSites groups) :
    ∃ m, Leads level (.object start ms finish) p.steps m ∧ GivesText m p.key.label p.value := by
  obtain ⟨c, rules, hmem, hp⟩ := mem_groupSites.mp hp
  obtain ⟨slot, t, ht, q, hq, rfl⟩ := mem_ruleSites.mp hp
  obtain ⟨n, ⟨hfield, hn⟩, hread⟩ := (mem_groups_of_ofMembers h).mp hmem
  obtain ⟨room', hlt, hread⟩ := rulesRead_of_rulesOf hread
  obtain ⟨r, hr, ht⟩ := hread.inSlot slot t ht
  obtain ⟨m, hm, htext⟩ := (ih room' hlt ht).leads q hq
  exact ⟨m, .into (mem_knownKeys_iff.mpr ⟨_, hfield, rfl⟩) hn hr hm, htext⟩

/-- The sites of an object are its own and those in its containers. -/
theorem located_of_ofMembers {start : Nat} {finish : Finish} {keys : List ScopeKey}
    (hkeys : keys.Nodup) :
    Located level (.object start ms finish) (ownSites names keys ++ groupSites groups) where
  nodup := by
    rw [List.map_append]
    refine List.nodup_append'.mpr
      ⟨nodup_place_ownSites names hkeys, nodup_place_groupSites ih h, ?_⟩
    -- the object itself is no step away, and all others are
    rw [List.disjoint_left]
    intro place hplace hplace'
    obtain ⟨p, hp, rfl⟩ := List.mem_map.mp hplace
    obtain ⟨p', hp', heq⟩ := List.mem_map.mp hplace'
    obtain ⟨c, rules, -, hp'⟩ := mem_groupSites.mp hp'
    obtain ⟨slot, steps, hsteps⟩ := exists_step_of_mem_ruleSites hp'
    obtain ⟨hnil, -, -⟩ := mem_ownSites.mp hp
    rw [Site.place, Site.place, hsteps, hnil] at heq
    exact absurd (Prod.mk.inj heq).1 (List.cons_ne_nil _ _)
  leads p hp := by
    rcases List.mem_append.mp hp with hp | hp
    · obtain ⟨hsteps, -, hvalue⟩ := mem_ownSites.mp hp
      obtain ⟨-, stop, htext⟩ := (get?_of_ofMembers h).mp hvalue
      rw [hsteps]
      exact ⟨_, .here level _, stop, htext⟩
    · exact exists_leads_of_mem_groupSites ih h hp

end Level

/-- The sites in a rule that has been read. -/
theorem located_sites {room : Nat} {n : Node} {t : ScopeTree} (h : ofNode .rule room n = .ok t) :
    Located .rule n (sites t) := by
  induction room using Nat.strongRecOn generalizing n t with
  | ind room ih =>
    obtain ⟨names, groups⟩ := t
    obtain ⟨room, start, members, finish, rfl, rfl, hobject⟩ := exists_of_ofNode h
    rw [sites]
    exact located_of_ofMembers (fun room' hlt _ _ ht ↦ ih room' (Nat.lt_succ_of_lt hlt) ht) hobject
      (by decide)

/-- The sites in a grammar that has been read. -/
theorem located_rootSites {room : Nat} {n : Node} {t : ScopeTree}
    (h : ofNode .root room n = .ok t) : Located .root n (rootSites t) := by
  obtain ⟨names, groups⟩ := t
  obtain ⟨room, start, members, finish, rfl, rfl, hobject⟩ := exists_of_ofNode h
  rw [rootSites]
  exact located_of_ofMembers (fun _ _ _ _ ht ↦ located_sites ht) hobject (by decide)

end ScopeTree

/-! ## Keys without dots -/

theorem mem_itemKeys {ns : List Node} {k : String} :
    k ∈ itemKeys ns ↔ ∃ n ∈ ns, k ∈ mapKeys (.object .rule) n := by
  induction ns with
  | nil => simp [itemKeys]
  | cons n ns ih => simp [itemKeys, ih]

theorem mem_entryKeys {ms : List (Key × Node)} {k : String} :
    k ∈ entryKeys ms ↔ ∃ m ∈ ms, m.1.text = .ok k ∨ k ∈ mapKeys (.object .rule) m.2 := by
  induction ms with
  | nil => simp [entryKeys]
  | cons m ms ih =>
    obtain ⟨key, n⟩ := m
    cases htext : key.text <;> simp [entryKeys, ih, htext, Except.toOption, @eq_comm _ k, or_assoc]

theorem mem_fieldKeys {level : Level} {ms : List (Key × Node)} {k : String} :
    k ∈ fieldKeys level ms ↔ ∃ m ∈ ms, ∃ k' field, m.1.text = .ok k' ∧
      level.field? k' = some field ∧ k ∈ mapKeys field.form m.2 := by
  induction ms with
  | nil => simp [fieldKeys]
  | cons m ms ih =>
    obtain ⟨key, n⟩ := m
    rw [fieldKeys, List.mem_append, ih, List.exists_mem_cons_iff]
    refine or_congr_left ?_
    cases htext : key.text with
    | error f => simp [Except.toOption]
    | ok k' => cases hfield : level.field? k' <;> simp [Except.toOption, hfield]

/-- A container of an object has one form. -/
theorem field?_of_mem_knownKeys {level : Level} {c : Container} {form : Form}
    (h : (c.label, form) ∈ knownKeys level) :
    level.field? c.label = some (.group c) ∧ (Field.group c).form = form := by
  obtain ⟨field, hfield, rfl⟩ := mem_knownKeys_iff.mp h
  have hlabel := label_of_field? hfield
  have hgroup : field = .group c := by
    cases field with
    | name key => cases key <;> cases c <;> exact absurd hlabel (by decide)
    | group c' => cases c' <;> cases c <;> first | rfl | exact absurd hlabel (by decide)
  exact ⟨hgroup ▸ hfield, hgroup ▸ rfl⟩

section Keys

variable {level : Level} {form : Form} {n m r : Node} {slot : Slot} {k : String}

theorem mem_mapKeys_of_hasMember (hk : (k, form) ∈ knownKeys level)
    (hm : HasMember n.members k m) {k' : String} (h : k' ∈ mapKeys form m) :
    k' ∈ mapKeys (.object level) n := by
  obtain ⟨field, hfield, rfl⟩ := mem_knownKeys_iff.mp hk
  cases n with
  | object start members finish =>
    obtain ⟨key, hkey, hm⟩ := hm
    rw [mapKeys]
    exact mem_fieldKeys.mpr ⟨_, hm, k, field, hkey, hfield, h⟩
  | _ => exact absurd hm not_hasMember_nil

theorem mem_mapKeys_of_inSlot (hr : InSlot form n slot r) {k' : String}
    (h : k' ∈ mapKeys (.object .rule) r) : k' ∈ mapKeys form n := by
  cases hr with
  | item hr =>
    rw [mapKeys]
    exact mem_itemKeys.mpr ⟨r, List.mem_of_getElem? hr, h⟩
  | entry hr =>
    obtain ⟨key, -, hmem⟩ := hr.hasMember
    rw [mapKeys]
    exact mem_entryKeys.mpr ⟨_, hmem, .inr h⟩

/-- A step in a document with no dots in its keys can be read back. -/
theorem isPlain_of_inSlot {c : Container} (hc : (c.label, form) ∈ knownKeys level)
    (hr : InSlot form n slot r) (h : ∀ k ∈ mapKeys form n, '.' ∉ k.toList) :
    PathStep.IsPlain ⟨c, slot⟩ := by
  obtain ⟨-, hform⟩ := field?_of_mem_knownKeys hc
  cases hr with
  | item hr =>
    obtain rfl : c = .patterns := by
      cases c <;> first | rfl | contradiction
    exact .index _
  | entry hr =>
    refine .key c _ (fun heq ↦ ?_) (h _ ?_)
    · rw [heq] at hform
      contradiction
    · obtain ⟨key, hkey, hmem⟩ := hr.hasMember
      rw [mapKeys]
      exact mem_entryKeys.mpr ⟨_, hmem, .inl hkey⟩

end Keys

namespace Leads

variable {level : Level} {n m : Node} {steps : List PathStep}

/-- All steps in a document with no dots in its keys can be read back. -/
theorem isPlain (h : Leads level n steps m)
    (hkeys : ∀ k ∈ mapKeys (.object level) n, '.' ∉ k.toList) : ∀ s ∈ steps, s.IsPlain := by
  induction h with
  | here => exact fun s hs ↦ absurd hs List.not_mem_nil
  | into hc hm hr _ ih =>
    have hkeys' := fun k hk ↦ hkeys k (mem_mapKeys_of_hasMember hc hm hk)
    exact List.forall_mem_cons.mpr ⟨isPlain_of_inSlot hc hr hkeys',
      ih fun k hk ↦ hkeys' k (mem_mapKeys_of_inSlot hr hk)⟩

/-- Steps lead to one object only. -/
theorem unique {room : Nat} {t : ScopeTree} {m' : Node}
    (hread : ScopeTree.ofNode level room n = .ok t) (h : Leads level n steps m)
    (h' : Leads level n steps m') : m = m' := by
  induction h generalizing room t with
  | here =>
    cases h'
    rfl
  | into hc hm hr _ ih =>
    cases h' with
    | into hc' hm' hr' h' =>
      obtain ⟨hfield, rfl⟩ := field?_of_mem_knownKeys hc
      obtain ⟨-, rfl⟩ := field?_of_mem_knownKeys hc'
      obtain ⟨names, groups⟩ := t
      obtain ⟨room, start, members, finish, rfl, rfl, hobject⟩ := ScopeTree.exists_of_ofNode hread
      obtain ⟨honce, hreads⟩ := ScopeTree.of_ofMembers hobject hfield
      obtain rfl := honce.unique hm hm'
      obtain ⟨rules, hrules⟩ := ScopeTree.reads_group_iff.mp (hreads _ hm)
      obtain ⟨room', -, hread⟩ := ScopeTree.rulesRead_of_rulesOf hrules
      obtain rfl := hr.unique hr'
      obtain ⟨t, ht⟩ := hread.read _ _ hr
      exact ih ht h'

end Leads

/-! ## Reading paths back -/

/-- **A declaration can be found again by its path** in a document with no dots in the keys of its
maps: no other declaration has this path and key, and the steps that are read from the path are the
only ones with the path; they lead to one object, which has the declared value at the declared
key. -/
theorem ScopeGrammar.declarations_located {source : String} {g : ScopeGrammar}
    (h : ScopeGrammar.ofJson source = .ok g)
    (hkeys : ∀ k ∈ mapKeys (.object .root) (Document.read source).root, '.' ∉ k.toList) :
    (g.declarations.map fun d ↦ (d.path, d.key)).Nodup ∧
      ∀ d ∈ g.declarations, ∃ steps n, readPath d.path = some steps ∧ pathTo steps = d.path ∧
        (∀ n', Leads .root (Document.read source).root steps n' ↔ n' = n) ∧
        GivesText n d.key.label d.value ∧
        ∀ steps' n', Leads .root (Document.read source).root steps' n' → pathTo steps' = d.path →
          steps' = steps := by
  obtain ⟨t, ht, rfl⟩ := exists_of_map_eq_ok h
  have hread := Document.read_root_of_decode ht
  have hlocated := ScopeTree.located_rootSites hread
  have hback : ∀ steps n, Leads .root (Document.read source).root steps n →
      readPath (pathTo steps) = some steps :=
    fun steps n hn ↦ readPath_pathTo (hn.isPlain hkeys)
  -- what can be read back is told apart by its path
  have hunique : ∀ steps n, Leads .root (Document.read source).root steps n →
      ∀ steps' n', Leads .root (Document.read source).root steps' n' →
        pathTo steps = pathTo steps' → steps = steps' := by
    intro steps n hn steps' n' hn' hpath
    have heq := congrArg readPath hpath
    rw [hback steps n hn, hback steps' n' hn'] at heq
    exact Option.some.inj heq
  rw [ScopeTree.grammar_declarations_eq, List.map_map]
  constructor
  · have hinj : ∀ x ∈ (ScopeTree.rootSites t).map Site.place,
        ∀ y ∈ (ScopeTree.rootSites t).map Site.place,
          (pathTo x.1, x.2) = (pathTo y.1, y.2) → x = y := by
      intro x hx y hy heq
      obtain ⟨p, hp, rfl⟩ := List.mem_map.mp hx
      obtain ⟨p', hp', rfl⟩ := List.mem_map.mp hy
      obtain ⟨hpath, hkey⟩ := Prod.mk.inj heq
      obtain ⟨n, hn, -⟩ := hlocated.leads p hp
      obtain ⟨n', hn', -⟩ := hlocated.leads p' hp'
      exact Prod.ext (hunique _ n hn _ n' hn' hpath) hkey
    have hnodup := hlocated.nodup.map_on hinj
    rw [List.map_map] at hnodup
    exact hnodup
  · intro d hd
    obtain ⟨p, hp, rfl⟩ := List.mem_map.mp hd
    obtain ⟨n, hn, htext⟩ := hlocated.leads p hp
    refine ⟨p.steps, n, hback _ n hn, rfl, fun n' ↦ ⟨fun hn' ↦ hn'.unique hread hn, ?_⟩, htext,
      fun steps' n' hn' hpath ↦ ?_⟩
    · rintro rfl
      exact hn
    · exact hunique _ n' hn' _ n hn hpath

/-- A document with a key that looks like a pattern, one that looks like a container and one that is
empty. -/
theorem ScopeGrammar.declarations_located_nested :
    let source := "\x7b\"repository\":\x7b\"patterns[3]\":\x7b\"patterns\":[\x7b\"captures\":" ++
      "\x7b\"\":\x7b\"name\":\"plus\"\x7d\x7d\x7d]\x7d," ++
      "\"captures\":\x7b\"name\":\"term\"\x7d\x7d\x7d"
    ∃ g, ScopeGrammar.ofJson source = .ok g ∧
      (∀ k ∈ mapKeys (.object .root) (Document.read source).root, '.' ∉ k.toList) ∧
        (⟨"plus", .name, "repository.patterns[3].patterns[0].captures."⟩ : ScopeDecl) ∈
            g.declarations ∧
          ∃ n, Leads .root (Document.read source).root
              [⟨.repository, .key "patterns[3]"⟩, ⟨.patterns, .index 0⟩, ⟨.captures, .key ""⟩] n ∧
            GivesText n "name" "plus" := by
  intro source
  have hdeclarations : (ofJson source).toOption.map (·.declarations) = some
      [⟨"plus", .name, "repository.patterns[3].patterns[0].captures."⟩,
        ⟨"term", .name, "repository.captures"⟩] := by
    decide +kernel
  have hkeys : ∀ k ∈ mapKeys (.object .root) (Document.read source).root, '.' ∉ k.toList := by
    decide +kernel
  obtain ⟨g, hg, hlist⟩ := Option.map_eq_some_iff.mp hdeclarations
  have hread : ofJson source = .ok g := eq_ok_of_toOption hg
  have hmem : (⟨"plus", .name, "repository.patterns[3].patterns[0].captures."⟩ : ScopeDecl) ∈
      g.declarations := by
    rw [hlist]
    exact List.mem_cons_self
  obtain ⟨steps, n, hsteps, -, hn, htext, -⟩ := (declarations_located hread hkeys).2 _ hmem
  have hpath : readPath "repository.patterns[3].patterns[0].captures." = some
      [⟨.repository, .key "patterns[3]"⟩, ⟨.patterns, .index 0⟩, ⟨.captures, .key ""⟩] := by
    decide +kernel
  rw [hpath] at hsteps
  exact ⟨g, hread, hkeys, hmem, n, Option.some.inj hsteps ▸ (hn n).mpr rfl, htext⟩

-- where keys have dots, two rules can have one path
example :
    let source := "\x7b \"repository\": \x7b \"a\": \x7b \"captures\": \x7b \"1\": \x7b" ++
      " \"name\": \"x\" \x7d \x7d \x7d, \"a.captures.1\": \x7b \"name\": \"y\" \x7d \x7d \x7d"
    (ScopeGrammar.ofJson source).toOption.map (·.declarations) = some
      [⟨"x", .name, "repository.a.captures.1"⟩, ⟨"y", .name, "repository.a.captures.1"⟩] := by
  decide +kernel

end Concord
