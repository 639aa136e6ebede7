import Mathlib.Data.List.Basic
import Mathlib.Data.List.Induction
import Concord.Grammar.Basic

/-!
# The names of a grammar

A grammar is filled one declaration and one reference at a time.  What that comes to can be said
about the names alone: the declared names are the names of all declarations without repeats
(`ruleNames_declare`), and the references are the names of all uses without repeats
(`references_refer`).  What is left without repeats stands in the order of first occurrence
(`pairwise_idxOf_eraseDups`).
-/

set_option autoImplicit false

namespace Concord

/-- One more element comes last, unless it was there before. -/
theorem eraseDups_concat {α : Type} [BEq α] [LawfulBEq α] (as : List α) (a : α) :
    (as ++ [a]).eraseDups = if a ∈ as then as.eraseDups else as.eraseDups ++ [a] := by
  rw [List.eraseDups_append]
  by_cases h : a ∈ as
  · simp [List.removeAll, h]
  · simp [List.removeAll, h, List.eraseDups_cons]

/-- Nothing is left out of elements that differ. -/
theorem eraseDups_of_nodup {α : Type} [BEq α] [LawfulBEq α] {as : List α} (h : as.Nodup) :
    as.eraseDups = as := by
  induction as with
  | nil => rfl
  | cons a as ih =>
    obtain ⟨ha, h⟩ := List.nodup_cons.mp h
    have hfilter : as.filter (fun b ↦ !b == a) = as := by
      rw [List.filter_eq_self]
      rintro b hb
      have hne : b ≠ a := fun heq ↦ ha (heq ▸ hb)
      simp [hne]
    rw [List.eraseDups_cons, hfilter, ih h]

/-- What is left without repeats stands in the order of first occurrence. -/
theorem pairwise_idxOf_eraseDups {α : Type} [BEq α] [LawfulBEq α] (as : List α) :
    as.eraseDups.Pairwise fun a b ↦ as.idxOf a < as.idxOf b := by
  induction as using List.reverseRecOn with
  | nil => exact .nil
  | append_singleton as a ih =>
    have hfront : as.eraseDups.Pairwise fun b c ↦ (as ++ [a]).idxOf b < (as ++ [a]).idxOf c := by
      refine ih.imp_of_mem fun hb hc hlt ↦ ?_
      rwa [List.idxOf_append_of_mem (List.mem_eraseDups.mp hb),
        List.idxOf_append_of_mem (List.mem_eraseDups.mp hc)]
    rw [eraseDups_concat]
    split
    · exact hfront
    · rename_i ha
      refine List.pairwise_append.mpr ⟨hfront, List.pairwise_singleton _ _, fun b hb c hc ↦ ?_⟩
      have hb := List.mem_eraseDups.mp hb
      rw [List.mem_singleton.mp hc, List.idxOf_append_of_mem hb, List.idxOf_append_of_notMem ha]
      exact Nat.lt_of_lt_of_le (List.idxOf_lt_length_of_mem hb) (Nat.le_add_right _ _)

theorem nodup_eraseDups {α : Type} [BEq α] [LawfulBEq α] (as : List α) : as.eraseDups.Nodup := by
  refine (pairwise_idxOf_eraseDups as).imp fun hlt heq ↦ ?_
  rw [heq] at hlt
  exact Nat.lt_irrefl _ hlt

/-- A declaration keeps its name where that was declared before, and adds it where it was not. -/
theorem Rule.map_name_insertInto (r : Rule) (rs : List Rule) :
    (r.insertInto rs).map Rule.name =
      if r.name ∈ rs.map Rule.name then rs.map Rule.name else rs.map Rule.name ++ [r.name] := by
  induction rs with
  | nil => simp [insertInto]
  | cons q qs ih =>
    rw [insertInto]
    by_cases hq : q.name = r.name
    · simp [hq]
    · have hq' : r.name ≠ q.name := fun h ↦ hq h.symm
      rw [if_neg hq, List.map_cons, ih, List.map_cons]
      simp only [List.mem_cons, hq', false_or]
      split <;> rfl

/-- A declaration is found by its name, and all others as before. -/
theorem Rule.find?_insertInto (r : Rule) (rs : List Rule) (name : String) :
    (r.insertInto rs).find? (·.name == name) =
      if r.name = name then some r else rs.find? (·.name == name) := by
  induction rs with
  | nil =>
    rw [insertInto, List.find?_singleton]
    simp only [beq_iff_eq, List.find?_nil]
  | cons q qs ih =>
    rw [insertInto]
    by_cases hr : r.name = name
    · by_cases hq : q.name = r.name
      · simp [hq, hr]
      · have hne : q.name ≠ name := fun h ↦ hq (h.trans hr.symm)
        simp [hne, hr, ih]
    · by_cases hq : q.name = r.name
      · simp [hq, hr]
      · simp [hq, hr, ih, List.find?_cons]

namespace Grammar

variable {g : Grammar} {names : List String}

theorem mem_ruleNames_iff {name : String} : name ∈ g.ruleNames ↔ g.hasRule name = true := by
  simp [ruleNames, hasRule]

theorem rule?_eq_none_iff {name : String} : g.rule? name = none ↔ name ∉ g.ruleNames := by
  simp [rule?, ruleNames]

theorem of_rule?_eq_some {name : String} {r : Rule} (h : g.rule? name = some r) :
    r ∈ g.rules ∧ r.name = name :=
  ⟨List.mem_of_find?_eq_some h, by simpa using List.find?_some h⟩

theorem ruleNames_declare_eq (g : Grammar) (r : Rule) : (g.declare r).1.ruleNames =
    if r.name ∈ g.ruleNames then g.ruleNames else g.ruleNames ++ [r.name] :=
  r.map_name_insertInto g.rules

/-- **The declared names** are those of all declarations, without repeats. -/
theorem ruleNames_declare (h : g.ruleNames = names.eraseDups) (r : Rule) :
    (g.declare r).1.ruleNames = (names ++ [r.name]).eraseDups := by
  rw [eraseDups_concat, ruleNames_declare_eq, h]
  simp only [List.mem_eraseDups]

theorem rule?_declare (g : Grammar) (r : Rule) (name : String) :
    (g.declare r).1.rule? name = if r.name = name then some r else g.rule? name :=
  r.find?_insertInto g.rules name

theorem references_refer_eq (g : Grammar) (name : String) : (g.refer name).references =
    if name ∈ g.references then g.references else g.references ++ [name] := by
  rw [refer]
  simp only [List.contains_iff_mem]
  split <;> rfl

/-- **The references** are the names of all uses, without repeats. -/
theorem references_refer (h : g.references = names.eraseDups) (name : String) :
    (g.refer name).references = (names ++ [name]).eraseDups := by
  rw [eraseDups_concat, references_refer_eq, h]
  simp only [List.mem_eraseDups]

@[simp] theorem references_declare (r : Rule) : (g.declare r).1.references = g.references := rfl

@[simp] theorem name_declare (r : Rule) : (g.declare r).1.name = g.name := rfl

@[simp] theorem rules_refer (name : String) : (g.refer name).rules = g.rules := by
  rw [refer]
  split <;> rfl

@[simp] theorem ruleNames_refer (name : String) : (g.refer name).ruleNames = g.ruleNames := by
  rw [ruleNames, rules_refer, ruleNames]

@[simp] theorem name_refer (name : String) : (g.refer name).name = g.name := by
  rw [refer]
  split <;> rfl

/-- The undeclared names, said of the names alone. -/
theorem undeclared_eq (g : Grammar) :
    g.undeclared = g.references.filter fun name ↦ !g.ruleNames.contains name := by
  rw [undeclared]
  refine List.filter_congr fun name _ ↦ ?_
  rw [hasRule, ruleNames, Bool.eq_iff_iff]
  simp

/-- What is listed of a grammar in which these names are declared and used, in this order and with
repeats. -/
structure Lists (g : Grammar) (name : Option String) (declared used : List String) : Prop where
  name_eq : g.name = name
  ruleNames_eq : g.ruleNames = declared.eraseDups
  references_eq : g.references = used.eraseDups

namespace Lists

variable {name : Option String} {declared used : List String}

theorem declare (h : g.Lists name declared used) (r : Rule) :
    (g.declare r).1.Lists name (declared ++ [r.name]) used where
  name_eq := by rw [name_declare, h.name_eq]
  ruleNames_eq := ruleNames_declare h.ruleNames_eq r
  references_eq := by rw [references_declare, h.references_eq]

theorem refer (h : g.Lists name declared used) (use : String) :
    (g.refer use).Lists name declared (used ++ [use]) where
  name_eq := by rw [name_refer, h.name_eq]
  ruleNames_eq := by rw [ruleNames_refer, h.ruleNames_eq]
  references_eq := references_refer h.references_eq use

/-- More declarations, one after the other. -/
theorem foldl_declare (h : g.Lists name declared used) (rules : List Rule) :
    (rules.foldl (fun g r ↦ (g.declare r).1) g).Lists name (declared ++ rules.map Rule.name)
      used := by
  induction rules generalizing g declared with
  | nil => simpa using h
  | cons r rs ih =>
    rw [List.foldl_cons, List.map_cons, List.append_cons]
    exact ih (h.declare r)

/-- More uses, one after the other. -/
theorem foldl_refer (h : g.Lists name declared used) (uses : List String) :
    (uses.foldl Grammar.refer g).Lists name declared (used ++ uses) := by
  induction uses generalizing g used with
  | nil => simpa using h
  | cons use uses ih =>
    rw [List.foldl_cons, List.append_cons]
    exact ih (h.refer use)

/-- The undeclared names are those of the uses that are not declared. -/
theorem undeclared_eq (h : g.Lists name declared used) :
    g.undeclared = used.eraseDups.filter fun use ↦ !declared.eraseDups.contains use := by
  rw [Grammar.undeclared_eq, h.references_eq, h.ruleNames_eq]

theorem isReferenced_iff (h : g.Lists name declared used) {x : String} :
    g.isReferenced x = true ↔ x ∈ used := by
  rw [isReferenced, h.references_eq, List.contains_iff_mem, List.mem_eraseDups]

theorem mem_undeclared_iff (h : g.Lists name declared used) {x : String} :
    x ∈ g.undeclared ↔ x ∈ used ∧ x ∉ declared := by
  rw [h.undeclared_eq, List.mem_filter, List.mem_eraseDups]
  simp

/-- The undeclared names stand in the order of first use. -/
theorem pairwise_undeclared (h : g.Lists name declared used) :
    g.undeclared.Pairwise fun x y ↦ used.idxOf x < used.idxOf y := by
  rw [h.undeclared_eq]
  exact (pairwise_idxOf_eraseDups used).filter _

theorem nodup_undeclared (h : g.Lists name declared used) : g.undeclared.Nodup := by
  rw [h.undeclared_eq]
  exact (nodup_eraseDups used).filter _

end Lists

end Grammar

end Concord
