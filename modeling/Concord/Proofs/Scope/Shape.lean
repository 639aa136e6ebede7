import Concord.Proofs.Json.Tree
import Concord.Scope.Document

/-!
# The shape of a reference grammar

Which documents are reference grammars can be said of their trees alone: `knownKeys` lists the keys
that an object has to do with and what stands at them, and `Fits` says that a node has a form.

The reader is followed one level of nesting at a time.  `Reads` says that it reads a node as a form,
and `ofMembers_cons_cases` what it can do at one member of an object.  `ofMembers_ok_iff` says when
it reads all members, given what it reads at each of them, and `reads_iff_fits` that it reads
exactly the nodes that fit.
-/

set_option autoImplicit false

namespace Concord

open Json

/-- What a value can be asked to be. -/
inductive Form where
  /-- A text, or `null`. -/
  | text
  /-- A list of rules. -/
  | list
  /-- An object whose members are rules. -/
  | map
  /-- A grammar or a rule. -/
  | object (level : Level)

/-- The keys that count, and what must stand at them.  All other keys are ignored. -/
def knownKeys : Level → List (String × Form)
  | .root =>
    [("name", .text), ("scopeName", .text), ("patterns", .list), ("repository", .map),
      ("injections", .map)]
  | .rule =>
    [("name", .text), ("contentName", .text), ("patterns", .list), ("repository", .map),
      ("captures", .map), ("beginCaptures", .map), ("endCaptures", .map), ("whileCaptures", .map)]

/-- A node has a form: no known key repeats, and everything at a known key has the form it must
have.  All members of a map must be rules, also those that a later one with their key replaces. -/
inductive Fits : Form → Node → Prop
  | null (stop : Nat) : Fits .text (.scalar .null stop)
  | string (s : String) (stop : Nat) : Fits .text (.scalar (.string (.ok s)) stop)
  | list (start : Nat) (items : List Node) (finish : Finish)
      (h : ∀ r ∈ items, Fits (.object .rule) r) : Fits .list (.list start items finish)
  | map (start : Nat) (members : List (Key × Node)) (finish : Finish)
      (h : ∀ m ∈ members, Fits (.object .rule) m.2) : Fits .map (.object start members finish)
  | object (level : Level) (start : Nat) (members : List (Key × Node)) (finish : Finish)
      (once : ∀ k form, (k, form) ∈ knownKeys level → AtMostOnce members k)
      (known : ∀ k form n, (k, form) ∈ knownKeys level → HasMember members k n → Fits form n) :
      Fits (.object level) (.object start members finish)

/-! ## The fields that are read -/

namespace Field

/-- The key of the field. -/
def label : Field → String
  | name key => key.label
  | group c => c.label

/-- The form of what stands at the field. -/
def form : Field → Form
  | name _ => .text
  | group .patterns => .list
  | group _ => .map

end Field

/-- The fields that are read are the known keys. -/
theorem mem_knownKeys_iff {level : Level} {k : String} {form : Form} :
    (k, form) ∈ knownKeys level ↔ ∃ field, level.field? k = some field ∧ field.form = form := by
  constructor
  · intro h
    cases level with
    | root =>
      simp only [knownKeys, List.mem_cons, Prod.mk.injEq, List.not_mem_nil, or_false] at h
      rcases h with ⟨rfl, rfl⟩ | ⟨rfl, rfl⟩ | ⟨rfl, rfl⟩ | ⟨rfl, rfl⟩ | ⟨rfl, rfl⟩ <;>
        exact ⟨_, rfl, rfl⟩
    | rule =>
      simp only [knownKeys, List.mem_cons, Prod.mk.injEq, List.not_mem_nil, or_false] at h
      rcases h with ⟨rfl, rfl⟩ | ⟨rfl, rfl⟩ | ⟨rfl, rfl⟩ | ⟨rfl, rfl⟩ | ⟨rfl, rfl⟩ | ⟨rfl, rfl⟩ |
        ⟨rfl, rfl⟩ | ⟨rfl, rfl⟩ <;> exact ⟨_, rfl, rfl⟩
  · rintro ⟨field, h, rfl⟩
    cases level <;> unfold Level.field? at h <;> split at h <;> cases h <;>
      first | contradiction | simp [knownKeys, Field.form]

theorem label_of_field? {level : Level} {k : String} {field : Field}
    (h : level.field? k = some field) : field.label = k := by
  unfold Level.field? at h
  split at h <;> cases h <;> rfl

/-! ## Reading the members of an object -/

namespace ScopeTree

/-- Reads the rules in a container. -/
def rulesOf (room : Nat) : Container → Node → Except Fault (List (Slot × ScopeTree))
  | .patterns => listedRules room
  | _ => keyedRules room

/-- The reader reads a node as a form. -/
def Reads (room : Nat) : Form → Node → Prop
  | .text, n => ∃ value, n.optionalText = .ok value
  | .list, n => ∃ rules, listedRules room n = .ok rules
  | .map, n => ∃ rules, keyedRules room n = .ok rules
  | .object level, n => ∃ t, ofNode level room n = .ok t

theorem reads_group_iff {room : Nat} {c : Container} {n : Node} :
    Reads room (Field.group c).form n ↔ ∃ rules, rulesOf room c n = .ok rules := by
  cases c <;> rfl

section Members

variable {level : Level} {room : Nat} {seen : List String} {names : ScopeNames}
  {groups : List Group} {key : Key} {k : String} {n : Node} {ms : List (Key × Node)}

theorem ofMembers_unknown (hkey : key.text = .ok k) (hfield : level.field? k = none)
    (hskip : n.skip = .ok ()) :
    ofMembers level room seen names groups ((key, n) :: ms) =
      ofMembers level room seen names groups ms := by
  rw [ofMembers, hkey]
  simp only [bind, Except.bind, hfield, hskip]

theorem ofMembers_repeated (hkey : key.text = .ok k) {field : Field}
    (hfield : level.field? k = some field) (hseen : k ∈ seen) :
    ofMembers level room seen names groups ((key, n) :: ms) =
      .error ⟨.repeated k, key.refusal⟩ := by
  rw [ofMembers, hkey]
  simp only [bind, Except.bind, hfield, if_pos hseen]

theorem ofMembers_name (hkey : key.text = .ok k) {nameKey : ScopeKey}
    (hfield : level.field? k = some (.name nameKey)) (hseen : k ∉ seen) :
    ofMembers level room seen names groups ((key, n) :: ms) =
      n.optionalText >>= fun value ↦
        ofMembers level room (k :: seen) (names.set value nameKey) groups ms := by
  rw [ofMembers, hkey]
  simp only [bind, Except.bind, hfield, if_neg hseen]

theorem ofMembers_group (hkey : key.text = .ok k) {c : Container}
    (hfield : level.field? k = some (.group c)) (hseen : k ∉ seen) :
    ofMembers level room seen names groups ((key, n) :: ms) =
      rulesOf room c n >>= fun rules ↦
        ofMembers level room (k :: seen) names (putGroup (c, rules) groups) ms := by
  rw [ofMembers, hkey]
  cases c <;> simp only [bind, Except.bind, hfield, if_neg hseen, rulesOf]

/-- Reading goes on behind a known key if what stands at the key is read. -/
theorem ofMembers_known (hkey : key.text = .ok k) {field : Field}
    (hfield : level.field? k = some field) (hseen : k ∉ seen) {P : Prop}
    (hrest : ∀ names groups,
      (∃ t, ofMembers level room (k :: seen) names groups ms = .ok t) ↔ P) :
    (∃ t, ofMembers level room seen names groups ((key, n) :: ms) = .ok t) ↔
      Reads room field.form n ∧ P := by
  cases field with
  | name nameKey =>
    rw [ofMembers_name hkey hfield hseen]
    simp only [bind_eq_ok_iff]
    constructor
    · rintro ⟨t, value, hvalue, ht⟩
      exact ⟨⟨value, hvalue⟩, (hrest _ _).mp ⟨t, ht⟩⟩
    · rintro ⟨⟨value, hvalue⟩, hP⟩
      obtain ⟨t, ht⟩ := (hrest (names.set value nameKey) groups).mpr hP
      exact ⟨t, value, hvalue, ht⟩
  | group c =>
    rw [ofMembers_group hkey hfield hseen, reads_group_iff]
    simp only [bind_eq_ok_iff]
    constructor
    · rintro ⟨t, rules, hrules, ht⟩
      exact ⟨⟨rules, hrules⟩, (hrest _ _).mp ⟨t, ht⟩⟩
    · rintro ⟨⟨rules, hrules⟩, hP⟩
      obtain ⟨t, ht⟩ := (hrest names (putGroup (c, rules) groups)).mpr hP
      exact ⟨t, rules, hrules, ht⟩

/-- What reading the first member comes to, if all members are read: it is skipped, or it is the
first one at its key and gives a name or the rules of a container. -/
theorem ofMembers_cons_cases {t : ScopeTree}
    (h : ofMembers level room seen names groups ((key, n) :: ms) = .ok t) :
    ∃ k, key.text = .ok k ∧
      ((level.field? k = none ∧ n.skip = .ok () ∧
          ofMembers level room seen names groups ms = .ok t) ∨
        (∃ nameKey value, level.field? k = some (.name nameKey) ∧ k ∉ seen ∧
          n.optionalText = .ok value ∧
            ofMembers level room (k :: seen) (names.set value nameKey) groups ms = .ok t) ∨
        ∃ c rules, level.field? k = some (.group c) ∧ k ∉ seen ∧ rulesOf room c n = .ok rules ∧
          ofMembers level room (k :: seen) names (putGroup (c, rules) groups) ms = .ok t) := by
  have hread := h
  rw [ofMembers, bind_eq_ok_iff] at hread
  obtain ⟨k, hkey, hread⟩ := hread
  refine ⟨k, hkey, ?_⟩
  cases hfield : level.field? k with
  | none =>
    simp only [hfield, bind_eq_ok_iff] at hread
    obtain ⟨_, hskip, hread⟩ := hread
    exact .inl ⟨rfl, hskip, hread⟩
  | some field =>
    by_cases hseen : k ∈ seen
    · rw [ofMembers_repeated hkey hfield hseen] at h
      contradiction
    · cases field with
      | name nameKey =>
        rw [ofMembers_name hkey hfield hseen, bind_eq_ok_iff] at h
        obtain ⟨value, hvalue, h⟩ := h
        exact .inr (.inl ⟨nameKey, value, rfl, hseen, hvalue, h⟩)
      | group c =>
        rw [ofMembers_group hkey hfield hseen, bind_eq_ok_iff] at h
        obtain ⟨rules, hrules, h⟩ := h
        exact .inr (.inr ⟨c, rules, rfl, hseen, hrules, h⟩)

/-- A reader of an object can pass a member: the key stands for a text, and a member that is only
skipped can be skipped. -/
def Passable (level : Level) (m : Key × Node) : Prop :=
  ∃ k, m.1.text = .ok k ∧ (level.field? k = none → m.2.skip = .ok ())

theorem passable_of_isWhole {m : Key × Node} (h : m.1.isWhole = true ∧ m.2.isWhole = true) :
    Passable level m := by
  obtain ⟨k, hkey⟩ := Key.text_of_isWhole h.1
  exact ⟨k, hkey, fun _ ↦ Node.skip_of_isWhole h.2⟩

/-- What is read has been passed. -/
theorem passable_of_ofMembers {t : ScopeTree}
    (h : ofMembers level room seen names groups ms = .ok t) : ∀ m ∈ ms, Passable level m := by
  induction ms generalizing seen names groups with
  | nil => exact fun m hm ↦ absurd hm List.not_mem_nil
  | cons m ms ih =>
    obtain ⟨key, n⟩ := m
    rw [List.forall_mem_cons]
    obtain ⟨k, hkey, ⟨-, hskip, h⟩ | ⟨_, _, hfield, -, -, h⟩ | ⟨_, _, hfield, -, -, h⟩⟩ :=
      ofMembers_cons_cases h
    · exact ⟨⟨k, hkey, fun _ ↦ hskip⟩, ih h⟩
    · exact ⟨⟨k, hkey, by simp [hfield]⟩, ih h⟩
    · exact ⟨⟨k, hkey, by simp [hfield]⟩, ih h⟩

/-- **When the members of an object are read**: no known key repeats, and what stands at each is
read. -/
theorem ofMembers_ok_iff (hms : ∀ m ∈ ms, Passable level m) :
    (∃ t, ofMembers level room seen names groups ms = .ok t) ↔
      ∀ k field, level.field? k = some field → AtMostOnce ms k ∧
        (k ∈ seen → ∀ n, ¬ HasMember ms k n) ∧
          ∀ n, HasMember ms k n → Reads room field.form n := by
  induction ms generalizing seen names groups with
  | nil =>
    refine ⟨fun _ k field _ ↦ ⟨.nil, fun _ n ↦ not_hasMember_nil, fun n hn ↦ ?_⟩,
      fun _ ↦ ⟨.node names groups, by rw [ofMembers]⟩⟩
    exact absurd hn not_hasMember_nil
  | cons m ms ih =>
    obtain ⟨key, n⟩ := m
    obtain ⟨⟨k₀, hkey, hskip⟩, hms⟩ := List.forall_mem_cons.mp hms
    have ih := fun seen names groups ↦ @ih seen names groups hms
    simp only [hasMember_cons hkey, atMostOnce_cons hkey]
    cases hfield : level.field? k₀ with
    | none =>
      -- a member that is skipped stands at no key that counts
      rw [ofMembers_unknown hkey hfield (hskip hfield), ih]
      refine forall_congr' fun k ↦ forall_congr' fun field ↦ imp_congr_right fun hk ↦ ?_
      have hne : k ≠ k₀ := by
        rintro rfl
        rw [hfield] at hk
        contradiction
      simp [hne]
    | some field₀ =>
      by_cases hseen : k₀ ∈ seen
      · rw [ofMembers_repeated hkey hfield hseen]
        refine ⟨fun ⟨t, ht⟩ ↦ by contradiction, fun h ↦ ?_⟩
        exact absurd (.inl ⟨rfl, rfl⟩) ((h k₀ field₀ hfield).2.1 hseen n)
      · rw [ofMembers_known hkey hfield hseen (ih (k₀ :: seen))]
        constructor
        · rintro ⟨hreads, h⟩ k field hk
          obtain ⟨honce, hnot, hall⟩ := h k field hk
          refine ⟨⟨fun heq ↦ hnot (heq ▸ List.mem_cons_self), honce⟩, fun hmem n' ↦ ?_, ?_⟩
          · rintro (⟨rfl, -⟩ | hn')
            · exact hseen hmem
            · exact hnot (List.mem_cons_of_mem _ hmem) n' hn'
          · rintro n' (⟨rfl, rfl⟩ | hn')
            · rw [hfield, Option.some_inj] at hk
              exact hk ▸ hreads
            · exact hall n' hn'
        · intro h
          refine ⟨(h k₀ field₀ hfield).2.2 n (.inl ⟨rfl, rfl⟩), fun k field hk ↦ ?_⟩
          obtain ⟨⟨hnot, honce⟩, hnot', hall⟩ := h k field hk
          refine ⟨honce, fun hmem n' hn' ↦ ?_, fun n' hn' ↦ hall n' (.inr hn')⟩
          rcases List.mem_cons.mp hmem with heq | hmem
          · exact hnot heq n' hn'
          · exact hnot' hmem n' (.inr hn')

/-- What is known of the members of an object that has been read. -/
theorem of_ofMembers {t : ScopeTree} (h : ofMembers level room [] names groups ms = .ok t)
    {field : Field} (hfield : level.field? k = some field) :
    AtMostOnce ms k ∧ ∀ n, HasMember ms k n → Reads room field.form n := by
  obtain ⟨honce, -, hreads⟩ := (ofMembers_ok_iff (passable_of_ofMembers h)).mp ⟨t, h⟩ k field hfield
  exact ⟨honce, hreads⟩

end Members

/-! ## Reading lists and maps of rules -/

section Rules

variable {room : Nat}

theorem ofItems_ok_iff {ns : List Node} {i : Nat} :
    (∃ rules, ofItems room i ns = .ok rules) ↔ ∀ n ∈ ns, Reads room (.object .rule) n := by
  induction ns generalizing i with
  | nil => simp [ofItems]
  | cons n ns ih =>
    rw [ofItems, List.forall_mem_cons, ← @ih (i + 1)]
    simp only [bind_eq_ok_iff]
    constructor
    · rintro ⟨_, t, ht, rules, hrules, -⟩
      exact ⟨⟨t, ht⟩, rules, hrules⟩
    · rintro ⟨⟨t, ht⟩, rules, hrules⟩
      exact ⟨_, t, ht, rules, hrules, rfl⟩

theorem ofEntries_cons {before : List (Slot × ScopeTree)} {key : Key} {k : String} {n : Node}
    {ms : List (Key × Node)} (hkey : key.text = .ok k) :
    ofEntries room before ((key, n) :: ms) =
      ofNode .rule room n >>= fun t ↦ ofEntries room (putRule (.key k) t before) ms := by
  rw [ofEntries, hkey]
  rfl

theorem isWhole_of_ofEntries {before rules : List (Slot × ScopeTree)} {ms : List (Key × Node)}
    (h : ofEntries room before ms = .ok rules) : ∀ m ∈ ms, m.1.isWhole = true := by
  induction ms generalizing before with
  | nil => exact fun m hm ↦ absurd hm List.not_mem_nil
  | cons m ms ih =>
    obtain ⟨key, n⟩ := m
    rw [ofEntries, bind_eq_ok_iff] at h
    obtain ⟨k, hkey, h⟩ := h
    obtain ⟨t, -, h⟩ := bind_eq_ok_iff.mp h
    refine List.forall_mem_cons.mpr ⟨?_, ih h⟩
    rw [Key.isWhole, hkey]
    rfl

theorem ofEntries_ok_iff {before : List (Slot × ScopeTree)} {ms : List (Key × Node)}
    (hms : ∀ m ∈ ms, m.1.isWhole = true) :
    (∃ rules, ofEntries room before ms = .ok rules) ↔
      ∀ m ∈ ms, Reads room (.object .rule) m.2 := by
  induction ms generalizing before with
  | nil => simp [ofEntries]
  | cons m ms ih =>
    obtain ⟨key, n⟩ := m
    obtain ⟨hwhole, hms⟩ := List.forall_mem_cons.mp hms
    obtain ⟨k, hkey⟩ := Key.text_of_isWhole hwhole
    rw [ofEntries_cons hkey, List.forall_mem_cons]
    simp only [bind_eq_ok_iff]
    constructor
    · rintro ⟨rules, t, ht, hrules⟩
      exact ⟨⟨t, ht⟩, (ih hms).mp ⟨rules, hrules⟩⟩
    · rintro ⟨⟨t, ht⟩, h⟩
      obtain ⟨rules, hrules⟩ := (@ih (putRule (.key k) t before) hms).mpr h
      exact ⟨rules, t, ht, hrules⟩

theorem listedRules_eq {start : Nat} {items : List Node} {finish : Finish}
    (hfinish : finish.check = .ok ()) :
    listedRules (room + 1) (.list start items finish) = ofItems room 0 items := by
  rw [listedRules, goInto_succ, hfinish]
  cases h : ofItems room 0 items with
  | error fault => simp [bind, Except.bind, h]
  | ok value =>
    simp [bind, Except.bind, h]
    rfl

theorem keyedRules_eq {start : Nat} {members : List (Key × Node)} {finish : Finish}
    (hfinish : finish.check = .ok ()) :
    keyedRules (room + 1) (.object start members finish) = ofEntries room [] members := by
  rw [keyedRules, goInto_succ, hfinish]
  cases h : ofEntries room [] members with
  | error fault => simp [bind, Except.bind, h]
  | ok value =>
    simp [bind, Except.bind, h]
    rfl

theorem ofNode_eq {level : Level} {start : Nat} {members : List (Key × Node)} {finish : Finish}
    (hfinish : finish.check = .ok ()) :
    ofNode level (room + 1) (.object start members finish) =
      ofMembers level room [] {} [] members := by
  rw [ofNode, goInto_succ, hfinish]
  cases h : ofMembers level room [] {} [] members with
  | error fault => simp [bind, Except.bind, h]
  | ok value =>
    simp [bind, Except.bind, h]
    rfl

end Rules

/-! ## What is read -/

theorem optionalText_ok_iff {n : Node} : (∃ value, n.optionalText = .ok value) ↔ Fits .text n := by
  constructor
  · rintro ⟨value, h⟩
    unfold Node.optionalText at h
    split at h
    · exact .null _
    · rename_i text stop
      cases text with
      | error f => contradiction
      | ok s => exact .string s stop
    · contradiction
  · intro h
    cases h with
    | null stop => exact ⟨none, rfl⟩
    | string s stop => exact ⟨some s, rfl⟩

/-- Whether a node is a scalar, a list or an object as a form wants it. -/
def admits : Form → Node → Bool
  | .text, .scalar _ _ | .list, .list _ _ _ | .map, .object _ _ _ | .object _, .object _ _ _ => true
  | _, _ => false

theorem admits_of_fits {form : Form} {n : Node} (h : Fits form n) : admits form n = true := by
  cases h <;> rfl

theorem admits_of_reads {room : Nat} {form : Form} {n : Node} (h : Reads room form n) :
    admits form n = true := by
  cases form with
  | text => exact admits_of_fits (optionalText_ok_iff.mp h)
  | list =>
    obtain ⟨rules, h⟩ := h
    unfold listedRules at h
    split at h
    · rfl
    · contradiction
  | map =>
    obtain ⟨rules, h⟩ := h
    unfold keyedRules at h
    split at h
    · rfl
    · contradiction
  | object level =>
    obtain ⟨t, h⟩ := h
    unfold ofNode at h
    split at h
    · rfl
    · contradiction

theorem reads_iff_fits_of_admits_eq {room : Nat} {form : Form} {n : Node}
    (h : admits form n = false) : Reads room form n ↔ Fits form n := by
  constructor
  · intro hreads
    rw [admits_of_reads hreads] at h
    contradiction
  · intro hfits
    rw [admits_of_fits hfits] at h
    contradiction

section Level

variable {room : Nat}
  (ih : ∀ {form : Form} {n : Node}, n.isWhole = true → n.depth ≤ room →
    (Reads room form n ↔ Fits form n))
include ih

/-- One more list around the nodes that are read. -/
theorem reads_list_iff {start : Nat} {items : List Node} {finish : Finish}
    (hwhole : (Node.list start items finish).isWhole = true)
    (hdepth : (Node.list start items finish).depth ≤ room + 1) :
    Reads (room + 1) .list (.list start items finish) ↔ Fits .list (.list start items finish) := by
  obtain ⟨hitems, hfinish⟩ := Node.of_list_isWhole hwhole
  rw [Node.depth, Nat.add_le_add_iff_right, Node.itemsDepth_le_iff] at hdepth
  rw [Reads, listedRules_eq hfinish, ofItems_ok_iff]
  constructor
  · exact fun h ↦ .list _ _ _ fun r hr ↦ (ih (hitems r hr) (hdepth r hr)).mp (h r hr)
  · rintro (_ | _ | ⟨_, _, _, h⟩) r hr
    exact (ih (hitems r hr) (hdepth r hr)).mpr (h r hr)

/-- One more map around the nodes that are read. -/
theorem reads_map_iff {start : Nat} {members : List (Key × Node)} {finish : Finish}
    (hwhole : (Node.object start members finish).isWhole = true)
    (hdepth : (Node.object start members finish).depth ≤ room + 1) :
    Reads (room + 1) .map (.object start members finish) ↔
      Fits .map (.object start members finish) := by
  obtain ⟨hmembers, hfinish⟩ := Node.of_object_isWhole hwhole
  rw [Node.depth, Nat.add_le_add_iff_right, Node.membersDepth_le_iff] at hdepth
  rw [Reads, keyedRules_eq hfinish, ofEntries_ok_iff fun m hm ↦ (hmembers m hm).1]
  constructor
  · exact fun h ↦ .map _ _ _ fun m hm ↦ (ih (hmembers m hm).2 (hdepth m hm)).mp (h m hm)
  · rintro (_ | _ | _ | ⟨_, _, _, h⟩) m hm
    exact (ih (hmembers m hm).2 (hdepth m hm)).mpr (h m hm)

/-- One more object around the nodes that are read. -/
theorem reads_object_iff {level : Level} {start : Nat} {members : List (Key × Node)}
    {finish : Finish} (hwhole : (Node.object start members finish).isWhole = true)
    (hdepth : (Node.object start members finish).depth ≤ room + 1) :
    Reads (room + 1) (.object level) (.object start members finish) ↔
      Fits (.object level) (.object start members finish) := by
  obtain ⟨hmembers, hfinish⟩ := Node.of_object_isWhole hwhole
  rw [Node.depth, Nat.add_le_add_iff_right, Node.membersDepth_le_iff] at hdepth
  have hread {k : String} {form : Form} {n : Node} (hn : HasMember members k n) :
      Reads room form n ↔ Fits form n := by
    obtain ⟨key, -, hmem⟩ := hn
    exact ih (hmembers _ hmem).2 (hdepth _ hmem)
  rw [Reads, ofNode_eq hfinish, ofMembers_ok_iff fun m hm ↦ passable_of_isWhole (hmembers m hm)]
  constructor
  · intro h
    refine .object _ _ _ _ (fun k form hk ↦ ?_) fun k form n hk hn ↦ ?_
    · obtain ⟨field, hfield, -⟩ := mem_knownKeys_iff.mp hk
      exact (h k field hfield).1
    · obtain ⟨field, hfield, rfl⟩ := mem_knownKeys_iff.mp hk
      exact (hread hn).mp ((h k field hfield).2.2 n hn)
  · rintro (_ | _ | _ | _ | ⟨_, _, _, _, honce, hknown⟩) k field hfield
    have hk := mem_knownKeys_iff.mpr ⟨field, hfield, rfl⟩
    exact ⟨honce k _ hk, fun hmem ↦ absurd hmem List.not_mem_nil,
      fun n hn ↦ (hread hn).mpr (hknown k _ n hk hn)⟩

end Level

/-- **The reader reads exactly the nodes that fit**, as far as they are not nested too deep. -/
theorem reads_iff_fits {room : Nat} {form : Form} {n : Node} (hwhole : n.isWhole = true)
    (hdepth : n.depth ≤ room) : Reads room form n ↔ Fits form n := by
  induction room generalizing form n with
  | zero =>
    cases form with
    | text => exact optionalText_ok_iff
    | _ => cases n <;> first | exact reads_iff_fits_of_admits_eq rfl | simp [Node.depth] at hdepth
  | succ room ih =>
    cases form with
    | text => exact optionalText_ok_iff
    | list =>
      cases n with
      | list start items finish => exact reads_list_iff ih hwhole hdepth
      | _ => exact reads_iff_fits_of_admits_eq rfl
    | map =>
      cases n with
      | object start members finish => exact reads_map_iff ih hwhole hdepth
      | _ => exact reads_iff_fits_of_admits_eq rfl
    | object level =>
      cases n with
      | object start members finish => exact reads_object_iff ih hwhole hdepth
      | _ => exact reads_iff_fits_of_admits_eq rfl

end ScopeTree

end Concord
