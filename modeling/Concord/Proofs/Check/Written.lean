import Mathlib.Data.List.Forall2
import Concord.Check.Reading
import Concord.Check.Report
import Concord.Proofs.Json.Lines
import Concord.Proofs.Json.Sorting

/-!
# Checks in JSON

A check is written as an object whose members are its kind and its values, all of them strings.
It is read back by their names alone, so neither their order nor members with other names matter.

* `Check.texts c` — the names of these members and their strings.
* `Check.StatedIn c ms` — each of the strings stands among members, and nothing else under its name.
  It does not depend on order (`StatedIn.of_perm`), and sorting keeps it (`StatedIn.sortedMembers`).
* `Check.ofJson_of_statedIn` — the check is read from such members.
* `Check.of_ofJson` — what has to stand in an object if any check is read from it.
* `Outcome.ToldBy o ms` — members tell an outcome, as those that are read from the text of a report
  do (`Report.exists_toldBy_pretty`).
* `Check.ofJson_written` — checks survive being written, and what is no check is turned down.
-/

set_option autoImplicit false

namespace Concord

open Json (Value)

/-! ## What stands under a name -/

theorem lookup_eq_some_of_mem {ms : List (String × Value)} {k : String} {v : Value}
    (hmem : (k, v) ∈ ms) (hunique : ∀ w, (k, w) ∈ ms → w = v) : ms.lookup k = some v := by
  induction ms with
  | nil => contradiction
  | cons m ms ih =>
    obtain ⟨key, w⟩ := m
    rw [Value.lookup_cons_eq_ite]
    by_cases hk : k = key
    · subst hk
      rw [if_pos rfl, hunique w List.mem_cons_self]
    · have hmem : (k, v) ∈ ms := by simpa [hk] using hmem
      rw [if_neg hk]
      exact ih hmem fun u hu ↦ hunique u (List.mem_cons_of_mem _ hu)

namespace CheckKind

variable {k : CheckKind} {ms : List (String × Value)}

theorem read_key (k : CheckKind) : read (.string k.key) = .ok k := by
  rw [read, ofKey?_key]

/-- Only the name of a kind is read as a kind. -/
theorem read_eq_ok_iff {v : Value} : read v = .ok k ↔ v = .string k.key := by
  constructor
  · intro h
    cases v with
    | string name =>
      rw [read] at h
      cases hfind : ofKey? name with
      | none => simp [hfind] at h
      | some k' =>
        rw [hfind, Except.ok.injEq] at h
        have hname := List.find?_some hfind
        rw [← h, beq_iff_eq.mp hname]
    | _ => contradiction
  · rintro rfl
    exact read_key k

/-- The members that are fields, with their texts. -/
theorem readMembers_eq {text : String → String}
    (h : ∀ m ∈ ms, m.1 ∈ k.fields → readField m.1 m.2 = .ok (text m.1)) :
    k.readMembers ms =
      .ok (((ms.filter (·.1 ∈ k.fields)).map Prod.fst).map fun name ↦ (name, text name)) := by
  induction ms with
  | nil => rfl
  | cons m ms ih =>
    obtain ⟨hm, hms⟩ := List.forall_mem_cons.mp h
    rw [readMembers]
    split
    · rename_i hfield
      rw [hm hfield, ih hms, List.filter_cons_of_pos (by simpa using hfield)]
      rfl
    · rename_i hfield
      rw [ih hms, List.filter_cons_of_neg (by simpa using hfield)]

/-- The texts of the fields are found by their names. -/
theorem fieldValue_readMembers {text : String → String}
    (h : ∀ m ∈ ms, m.1 ∈ k.fields → readField m.1 m.2 = .ok (text m.1)) :
    ∃ texts, k.readMembers ms = .ok texts ∧
      ∀ f ∈ k.fields, f ∈ ms.map Prod.fst → fieldValue texts f = .ok (text f) := by
  refine ⟨_, readMembers_eq h, fun f hf hmem ↦ ?_⟩
  obtain ⟨m, hm, rfl⟩ := List.mem_map.mp hmem
  have hfilter : m.1 ∈ (ms.filter (·.1 ∈ k.fields)).map Prod.fst :=
    List.mem_map_of_mem (List.mem_filter.mpr ⟨hm, by simpa using hf⟩)
  rw [fieldValue, Value.lookup_map_pair text hfilter]

end CheckKind

namespace Check

open CheckKind (readField fieldValue)

/-! ## The members of a check -/

variable {c : Check} {ms : List (String × Value)}

/-- The names of the members of a check. -/
def names (c : Check) : List String := "kind" :: c.kind.fields

/-- The string of a member of a check. -/
def text (c : Check) (name : String) : String :=
  ((c.names.zip (c.kind.key :: c.values)).lookup name).getD ""

/-- The members of a check. -/
def members (c : Check) : List (String × Value) :=
  c.names.map fun name ↦ (name, .string (c.text name))

theorem toJson_eq (c : Check) : c.toJson = .object c.members := by
  cases c <;> rfl

/-- The strings of the fields are read as what they are. -/
theorem readField_text {f : String} (hf : f ∈ c.kind.fields) :
    readField f (.string (c.text f)) = .ok (c.text f) := by
  rw [readField]
  split
  · rename_i hartifact
    subst hartifact
    cases c with
    | contains a t =>
      have ha : (contains a t).text "artifact" = a.key := rfl
      rw [ha, readRole, readRoleName, Role.ofKey?_key]
      rfl
    | _ => simp [kind, CheckKind.fields] at hf
  · rfl

/-- A check is built from its strings. -/
theorem build_text {value : String → Except Mismatch String}
    (h : ∀ f ∈ c.kind.fields, value f = .ok (c.text f)) : c.kind.build value = .ok c := by
  cases c with
  | scope s =>
    have hs : value "scope" = .ok s := h "scope" (by simp [kind, CheckKind.fields])
    simp [kind, CheckKind.build, hs, bind, Except.bind, pure, Except.pure]
  | rule r =>
    have hr : value "rule" = .ok r := h "rule" (by simp [kind, CheckKind.fields])
    simp [kind, CheckKind.build, hr, bind, Except.bind, pure, Except.pure]
  | capture n c =>
    have hn : value "node" = .ok n := h "node" (by simp [kind, CheckKind.fields])
    have hc : value "capture" = .ok c := h "capture" (by simp [kind, CheckKind.fields])
    simp [kind, CheckKind.build, hn, hc, bind, Except.bind, pure, Except.pure]
  | predicate c p a =>
    have hc : value "capture" = .ok c := h "capture" (by simp [kind, CheckKind.fields])
    have hp : value "predicate" = .ok p := h "predicate" (by simp [kind, CheckKind.fields])
    have ha : value "argument" = .ok a := h "argument" (by simp [kind, CheckKind.fields])
    simp [kind, CheckKind.build, hc, hp, ha, bind, Except.bind, pure, Except.pure]
  | accepts c t =>
    have hc : value "capture" = .ok c := h "capture" (by simp [kind, CheckKind.fields])
    have ht : value "text" = .ok t := h "text" (by simp [kind, CheckKind.fields])
    simp [kind, CheckKind.build, hc, ht, bind, Except.bind, pure, Except.pure]
  | contains a t =>
    have ha : value "artifact" = .ok a.key := h "artifact" (by simp [kind, CheckKind.fields])
    have ht : value "text" = .ok t := h "text" (by simp [kind, CheckKind.fields])
    simp [kind, CheckKind.build, ha, ht, readRoleName, Role.ofKey?_key, bind, Except.bind, pure,
      Except.pure]

/-! ## Checks among members -/

/-- The members of the check stand among others, and nothing else does under their names. -/
def StatedIn (c : Check) (ms : List (String × Value)) : Prop :=
  ∀ name ∈ c.names, (name, .string (c.text name)) ∈ ms ∧
    ∀ v, (name, v) ∈ ms → v = .string (c.text name)

/-- The order of members does not matter, and neither do members with other names. -/
theorem StatedIn.of_perm {extras : List (String × Value)} (hextras : ∀ m ∈ extras, m.1 ∉ c.names)
    (hperm : ms.Perm (c.members ++ extras)) : c.StatedIn ms := by
  intro name hname
  refine ⟨hperm.mem_iff.mpr (List.mem_append_left _ (List.mem_map_of_mem hname)), fun v hv ↦ ?_⟩
  rcases List.mem_append.mp (hperm.mem_iff.mp hv) with hv | hv
  · obtain ⟨name', -, heq⟩ := List.mem_map.mp hv
    obtain ⟨rfl, rfl⟩ := Prod.mk.inj heq
    rfl
  · exact absurd hname (hextras _ hv)

/-- Sorting members keeps those of the check, since their strings have nothing to sort. -/
theorem StatedIn.sortedMembers (h : c.StatedIn ms) : c.StatedIn (Value.sortedMembers [] ms) := by
  intro name hname
  obtain ⟨hmem, hunique⟩ := h name hname
  refine ⟨Value.mem_sortedMembers_iff.mpr ?_, fun w hw ↦ ?_⟩
  · cases hlast : Value.lastAt? name ms with
    | none => exact absurd (List.mem_map_of_mem hmem) (Value.lastAt?_eq_none_iff.mp hlast)
    | some v =>
      obtain rfl := hunique v (Value.mem_of_lastAt? hlast)
      exact ⟨_, rfl, rfl⟩
  · obtain ⟨v, hlast, rfl⟩ := Value.mem_sortedMembers_iff.mp hw
    rw [hunique v (Value.mem_of_lastAt? hlast)]
    rfl

/-- **A check is read from its members.** -/
theorem ofJson_of_statedIn (h : c.StatedIn ms) : ofJson (.object ms) = .ok c := by
  have hkind : ms.lookup "kind" = some (.string c.kind.key) := by
    obtain ⟨hmem, hunique⟩ := h "kind" List.mem_cons_self
    exact lookup_eq_some_of_mem hmem hunique
  have hread : ∀ m ∈ ms, m.1 ∈ c.kind.fields → readField m.1 m.2 = .ok (c.text m.1) := by
    intro m hm hfield
    rw [(h m.1 (List.mem_cons_of_mem _ hfield)).2 m.2 hm]
    exact readField_text hfield
  obtain ⟨texts, htexts, hvalue⟩ := CheckKind.fieldValue_readMembers hread
  have hbuild : c.kind.build (fieldValue texts) = .ok c := build_text fun f hf ↦
    hvalue f hf (List.mem_map_of_mem (h f (List.mem_cons_of_mem _ hf)).1)
  rw [ofJson, hkind]
  simp [bind, Except.bind, CheckKind.read_key, htexts, hbuild]

/-! ## What is no check -/

/-- A check that is built has all values of its kind. -/
theorem of_build {k : CheckKind} {value : String → Except Mismatch String}
    (h : k.build value = .ok c) : ∀ f ∈ k.fields, ∃ t, value f = .ok t := by
  cases k with
  | scope =>
    obtain ⟨s, hs, -⟩ := Json.bind_eq_ok_iff.mp h
    simp [CheckKind.fields, hs]
  | rule =>
    obtain ⟨r, hr, -⟩ := Json.bind_eq_ok_iff.mp h
    simp [CheckKind.fields, hr]
  | capture =>
    obtain ⟨n, hn, h⟩ := Json.bind_eq_ok_iff.mp h
    obtain ⟨c, hc, -⟩ := Json.bind_eq_ok_iff.mp h
    simp [CheckKind.fields, hn, hc]
  | predicate =>
    obtain ⟨c, hc, h⟩ := Json.bind_eq_ok_iff.mp h
    obtain ⟨p, hp, h⟩ := Json.bind_eq_ok_iff.mp h
    obtain ⟨a, ha, -⟩ := Json.bind_eq_ok_iff.mp h
    simp [CheckKind.fields, hc, hp, ha]
  | accepts =>
    obtain ⟨c, hc, h⟩ := Json.bind_eq_ok_iff.mp h
    obtain ⟨t, ht, -⟩ := Json.bind_eq_ok_iff.mp h
    simp [CheckKind.fields, hc, ht]
  | contains =>
    obtain ⟨a, ha, h⟩ := Json.bind_eq_ok_iff.mp h
    obtain ⟨r, -, h⟩ := Json.bind_eq_ok_iff.mp h
    obtain ⟨t, ht, -⟩ := Json.bind_eq_ok_iff.mp h
    simp [CheckKind.fields, ha, ht]

/-- Texts are read from members only, and from every member that is a field. -/
theorem of_readMembers {k : CheckKind} {texts : List (String × String)}
    (h : k.readMembers ms = .ok texts) :
    (∀ p ∈ texts, p.1 ∈ ms.map Prod.fst) ∧
      ∀ m ∈ ms, m.1 ∈ k.fields → ∃ t, readField m.1 m.2 = .ok t := by
  induction ms generalizing texts with
  | nil =>
    cases h
    exact ⟨List.forall_mem_nil _, List.forall_mem_nil _⟩
  | cons m ms ih =>
    rw [CheckKind.readMembers] at h
    split at h
    · obtain ⟨t, ht, h⟩ := Json.bind_eq_ok_iff.mp h
      obtain ⟨rest, hrest, h⟩ := Json.bind_eq_ok_iff.mp h
      obtain rfl := Except.ok.inj h
      obtain ⟨hnames, hread⟩ := ih hrest
      refine ⟨List.forall_mem_cons.mpr ⟨List.mem_cons_self, fun p hp ↦ ?_⟩,
        List.forall_mem_cons.mpr ⟨fun _ ↦ ⟨t, ht⟩, hread⟩⟩
      exact List.mem_cons_of_mem _ (hnames p hp)
    · rename_i hfield
      obtain ⟨hnames, hread⟩ := ih h
      exact ⟨fun p hp ↦ List.mem_cons_of_mem _ (hnames p hp),
        List.forall_mem_cons.mpr ⟨fun hf ↦ absurd hf hfield, hread⟩⟩

theorem mem_of_fieldValue {texts : List (String × String)} {f t : String}
    (h : fieldValue texts f = .ok t) : (f, t) ∈ texts := by
  rw [fieldValue] at h
  split at h
  · rename_i text hlookup
    obtain rfl := Except.ok.inj h
    obtain ⟨before, after, rfl, -⟩ := List.lookup_eq_some_iff.mp hlookup
    simp
  · contradiction

/-- Only a string is read as a text. -/
theorem eq_string_of_readField {f t : String} {v : Value} (hf : f ≠ "artifact")
    (h : readField f v = .ok t) : v = .string t := by
  rw [readField, if_neg hf] at h
  cases v with
  | string s => rw [Except.ok.inj h]
  | _ => contradiction

/-- **What an object has from which a check is read**: the name of a kind under `kind`, every field
of that kind, and only strings under these, but for the role of an artifact. -/
theorem of_ofJson (h : ofJson (.object ms) = .ok c) :
    ∃ k : CheckKind, ms.lookup "kind" = some (.string k.key) ∧
      (∀ f ∈ k.fields, f ∈ ms.map Prod.fst) ∧
      ∀ m ∈ ms, m.1 ∈ k.fields → m.1 ≠ "artifact" → ∃ s, m.2 = .string s := by
  rw [ofJson] at h
  cases hkind : ms.lookup "kind" with
  | none =>
    rw [hkind] at h
    contradiction
  | some v =>
    simp only [hkind] at h
    obtain ⟨k, hk, h⟩ := Json.bind_eq_ok_iff.mp h
    obtain ⟨texts, htexts, h⟩ := Json.bind_eq_ok_iff.mp h
    obtain ⟨hnames, hread⟩ := of_readMembers htexts
    refine ⟨k, congrArg some (CheckKind.read_eq_ok_iff.mp hk), fun f hf ↦ ?_, fun m hm hf hne ↦ ?_⟩
    · obtain ⟨t, ht⟩ := of_build h f hf
      exact hnames _ (mem_of_fieldValue ht)
    · obtain ⟨t, ht⟩ := hread m hm hf
      exact ⟨t, eq_string_of_readField hne ht⟩

/-- Anything that is not read as a check is turned down with a reason. -/
theorem exists_error_of_ne {v : Value} (h : ∀ c, ofJson v ≠ .ok c) : ∃ e, ofJson v = .error e := by
  cases hread : ofJson v with
  | error e => exact ⟨e, rfl⟩
  | ok c => exact absurd hread (h c)

/-- An object without the name of a kind is no check. -/
theorem exists_error_of_kind (h : ∀ k : CheckKind, ms.lookup "kind" ≠ some (.string k.key)) :
    ∃ e, ofJson (.object ms) = .error e := by
  refine exists_error_of_ne fun c hc ↦ ?_
  obtain ⟨k, hk, -⟩ := of_ofJson hc
  exact h k hk

section Kind

variable {k : CheckKind} (hkind : ms.lookup "kind" = some (.string k.key))

include hkind

theorem of_ofJson_of_kind (h : ofJson (.object ms) = .ok c) :
    (∀ f ∈ k.fields, f ∈ ms.map Prod.fst) ∧
      ∀ m ∈ ms, m.1 ∈ k.fields → m.1 ≠ "artifact" → ∃ s, m.2 = .string s := by
  obtain ⟨k', hk', hrest⟩ := of_ofJson h
  have hread : Except.ok k' = Except.ok (ε := Mismatch) k := by
    rw [← CheckKind.read_key k', ← CheckKind.read_key k]
    exact congrArg CheckKind.read (Option.some.inj (hk'.symm.trans hkind))
  exact Except.ok.inj hread ▸ hrest

/-- An object that lacks a field of its kind is no check. -/
theorem exists_error_of_field {f : String} (hf : f ∈ k.fields) (hmissing : f ∉ ms.map Prod.fst) :
    ∃ e, ofJson (.object ms) = .error e :=
  exists_error_of_ne fun _ hc ↦ hmissing ((of_ofJson_of_kind hkind hc).1 f hf)

/-- An object in which a field is not a string is no check, but for the role of an artifact. -/
theorem exists_error_of_member {m : String × Value} (hm : m ∈ ms) (hf : m.1 ∈ k.fields)
    (hne : m.1 ≠ "artifact") (hvalue : ∀ s, m.2 ≠ .string s) :
    ∃ e, ofJson (.object ms) = .error e := by
  refine exists_error_of_ne fun c hc ↦ ?_
  obtain ⟨s, hs⟩ := (of_ofJson_of_kind hkind hc).2 m hm hf hne
  exact hvalue s hs

end Kind

/-! ## Texts -/

/-- A text that holds an object in which the check is stated is read as the check. -/
theorem exists_read_of_holds {source : String} (h : c.StatedIn ms)
    (hsource : (Json.Document.read source).Holds (.object ms))
    (hdepth : (Value.object ms).depth ≤ Json.deepest) :
    ∃ v, Value.read source = .ok v ∧ ofJson v = .ok c :=
  ⟨_, hsource.read hdepth, ofJson_of_statedIn h.sortedMembers⟩

theorem statedIn_members (c : Check) : c.StatedIn c.members :=
  .of_perm (List.forall_mem_nil _) (by rw [List.append_nil])

theorem ofJson_sorted (c : Check) : ofJson c.toJson.sorted = .ok c := by
  rw [toJson_eq, Value.sorted]
  exact ofJson_of_statedIn c.statedIn_members.sortedMembers

theorem isExact_toJson (c : Check) : c.toJson.isExact = true := by
  cases c <;> rfl

theorem depth_toJson (c : Check) : c.toJson.depth = 1 := by
  cases c <;> rfl

end Check

/-! ## Reports -/

namespace Outcome

theorem isExact_toJson (o : Outcome) : o.toJson.isExact = true := by
  cases hhint : o.hint <;>
    simp [toJson, hhint, Value.isExact, Value.membersExact, o.check.isExact_toJson]

theorem depth_toJson (o : Outcome) : o.toJson.depth = 2 := by
  cases hhint : o.hint <;>
    simp [toJson, hhint, Value.depth, Value.membersDepth, o.check.depth_toJson]

/-- The members of an object tell an outcome: its category, a value from which its check is read,
whether it passed, and its hint if it has one. -/
structure ToldBy (o : Outcome) (ms : List (String × Value)) : Prop where
  category : ms.lookup "category" = some (.string o.category)
  check : ∃ v, ms.lookup "check" = some v ∧ Check.ofJson v = .ok o.check
  passed : ms.lookup "passed" = some (.bool o.passed)
  hint : ms.lookup "hint" = o.hint.map .string

/-- An outcome is told by what is read where it was written. -/
theorem exists_toldBy_sorted (o : Outcome) : ∃ ms, o.toJson.sorted = .object ms ∧ o.ToldBy ms := by
  refine ⟨_, rfl, ?_, ⟨o.check.toJson.sorted, ?_, o.check.ofJson_sorted⟩, ?_, ?_⟩
  all_goals
    rw [Value.lookup_sortedMembers]
    cases o.hint <;> simp [Value.lastAt?_cons, Value.lastAt?_nil, Value.sorted]

end Outcome

namespace Report

theorem isExact_toJson (r : Report) : r.toJson.isExact = true := by
  have hitems (os : List Outcome) : Value.itemsExact (os.map Outcome.toJson) = true := by
    induction os with
    | nil => rfl
    | cons o os ih => simp [Value.itemsExact, o.isExact_toJson, ih]
  simp [toJson, Value.isExact, Value.membersExact, hitems]

theorem depth_toJson_le (r : Report) : r.toJson.depth ≤ 4 := by
  have hitems (os : List Outcome) : Value.itemsDepth (os.map Outcome.toJson) ≤ 2 := by
    induction os with
    | nil => exact Nat.zero_le _
    | cons o os ih =>
      rw [List.map_cons, Value.itemsDepth, o.depth_toJson]
      exact Nat.max_le.mpr ⟨Nat.le_refl 2, ih⟩
  have hos := hitems r.outcomes
  rw [toJson, Value.depth, Value.membersDepth, Value.membersDepth, Value.depth]
  omega

/-- The outcomes of a report are told by what is read where it was written. -/
theorem exists_toldBy_pretty (r : Report) :
    ∃ items, Value.read (r.toJson.pretty 0) = .ok (.object [("outcomes", .list items)]) ∧
      List.Forall₂ (fun o item ↦ ∃ ms, item = .object ms ∧ o.ToldBy ms) r.outcomes items := by
  refine ⟨r.outcomes.map fun o ↦ o.toJson.sorted, ?_, ?_⟩
  · have hdepth : r.toJson.depth ≤ Json.deepest := Nat.le_trans r.depth_toJson_le (by decide)
    rw [(Json.Document.holds_pretty r.isExact_toJson 0).read hdepth]
    simp [toJson, Value.sorted, Value.sortedMembers, Value.putMember, Value.sortedItems_eq]
  · rw [List.forall₂_map_right_iff, List.forall₂_same]
    exact fun o _ ↦ o.exists_toldBy_sorted

/-- The checks of a report are read from where they were written. -/
theorem exists_read_pretty (r : Report) :
    ∃ items, Value.read (r.toJson.pretty 0) = .ok (.object [("outcomes", .list items)]) ∧
      List.Forall₂ (fun o item ↦ ∃ ms v, item = .object ms ∧ ms.lookup "check" = some v ∧
        Check.ofJson v = .ok o.check) r.outcomes items := by
  obtain ⟨items, hread, htold⟩ := r.exists_toldBy_pretty
  refine ⟨items, hread, htold.imp fun o item h ↦ ?_⟩
  obtain ⟨ms, hitem, h⟩ := h
  obtain ⟨v, hlookup, hcheck⟩ := h.check
  exact ⟨ms, v, hitem, hlookup, hcheck⟩

end Report

/-! ## The JSON form -/

/-- **Checks survive being written.**  A check is read from the texts that are printed of it, on one
line or over several at any indentation, and from its place in the text of a report.

It is read from its members in any order, with any members of other names among them; and so from
any text of such an object, such as those that are printed of it, unless lists and objects lie in
too many others for a text to be read at all.

An object is turned down if it does not have the name of a kind under `kind`, if a field of that
kind is missing, or if the value of one is not a string, but for the role of an artifact. -/
theorem Check.ofJson_written :
    (∀ (c : Check) (level : Nat), ∃ v, Value.read c.toJson.compact = .ok v ∧
      Value.read (c.toJson.pretty level) = .ok v ∧ ofJson v = .ok c) ∧
    (∀ r : Report, ∃ items,
      Value.read (r.toJson.pretty 0) = .ok (.object [("outcomes", .list items)]) ∧
      List.Forall₂ (fun o item ↦ ∃ ms v, item = .object ms ∧ ms.lookup "check" = some v ∧
        ofJson v = .ok o.check) r.outcomes items) ∧
    (∀ c : Check, ∃ members, c.toJson = .object members ∧
      ∀ extras ms : List (String × Value), (∀ m ∈ extras, m.1 ∉ members.map Prod.fst) →
        ms.Perm (members ++ extras) →
        ofJson (.object ms) = .ok c ∧
        (Value.membersExact extras = true → ∀ level,
          (Json.Document.read (Value.object ms).compact).Holds (.object ms) ∧
            (Json.Document.read ((Value.object ms).pretty level)).Holds (.object ms)) ∧
        ∀ source, (Json.Document.read source).Holds (.object ms) →
          if (Value.object ms).depth ≤ Json.deepest then
            ∃ v, Value.read source = .ok v ∧ ofJson v = .ok c
          else ∃ stop, Value.read source = .error ⟨.tooDeep, stop⟩) ∧
    (∀ ms : List (String × Value), (∀ k : CheckKind, ms.lookup "kind" ≠ some (.string k.key)) →
      ∃ e, ofJson (.object ms) = .error e) ∧
    ∀ (ms : List (String × Value)) (k : CheckKind), ms.lookup "kind" = some (.string k.key) →
      (∀ f ∈ k.fields, f ∉ ms.map Prod.fst → ∃ e, ofJson (.object ms) = .error e) ∧
      ∀ m ∈ ms, m.1 ∈ k.fields → m.1 ≠ "artifact" → (∀ s, m.2 ≠ .string s) →
        ∃ e, ofJson (.object ms) = .error e := by
  refine ⟨fun c level ↦ ?_, Report.exists_read_pretty, fun c ↦ ?_,
    fun _ ↦ exists_error_of_kind, fun ms k hkind ↦ ⟨fun _ ↦ exists_error_of_field hkind,
      fun _ ↦ exists_error_of_member hkind⟩⟩
  · have hdepth : c.toJson.depth ≤ Json.deepest := by
      rw [c.depth_toJson]
      decide
    exact ⟨_, (Json.Document.holds_compact c.isExact_toJson).read hdepth,
      (Json.Document.holds_pretty c.isExact_toJson level).read hdepth, c.ofJson_sorted⟩
  · refine ⟨c.members, c.toJson_eq, fun extras ms hextras hperm ↦ ?_⟩
    have hnames : c.members.map Prod.fst = c.names := by
      rw [members, List.map_map]
      exact List.map_id _
    have hstated : c.StatedIn ms := .of_perm (hnames ▸ hextras) hperm
    refine ⟨ofJson_of_statedIn hstated, fun hexact level ↦ ?_, fun source hsource ↦ ?_⟩
    · have hmembers : Value.membersExact c.members = true := by
        rw [← Value.isExact, ← toJson_eq]
        exact c.isExact_toJson
      have hms : (Value.object ms).isExact = true := by
        rw [Value.isExact, Value.membersExact_iff]
        intro m hm
        rcases List.mem_append.mp (hperm.mem_iff.mp hm) with hm | hm
        · exact Value.membersExact_iff.mp hmembers m hm
        · exact Value.membersExact_iff.mp hexact m hm
      exact ⟨Json.Document.holds_compact hms, Json.Document.holds_pretty hms level⟩
    split
    · rename_i hdepth
      exact exists_read_of_holds hstated hsource hdepth
    · rename_i hdepth
      exact hsource.read_of_depth_lt (Nat.not_le.mp hdepth)

end Concord
