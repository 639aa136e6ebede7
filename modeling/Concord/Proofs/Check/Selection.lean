import Mathlib.Data.List.Perm.Basic
import Concord.Check.Report

/-!
# Categories that are selected or reordered

Every check is answered by itself, so a report on some of the categories is a part of the report on
all of them.

* `selectCategories_eq_error_iff` and `selectCategories_eq_ok` — selecting refuses the first name
  that no category has, and else keeps the categories with the names.
* `outcomes_filter` — to answer the categories that are kept is to keep their answers.
* `outcomes_perm` — in another order, the categories have the same answers in another order, and the
  lemmas on `Report` say that the counts do not depend on it.

`selectCategories_report` puts these together.
-/

set_option autoImplicit false

namespace Concord

/-! ## Selecting -/

/-- A category is asked for by its name, or because no name is given. -/
def Chosen (names : List String) (name : String) : Prop := names = [] ∨ name ∈ names

instance (names : List String) (name : String) : Decidable (Chosen names name) :=
  inferInstanceAs (Decidable (_ ∨ _))

/-- The name is that of a category. -/
def IsKnown (categories : List Category) (name : String) : Prop := ∃ c ∈ categories, c.name = name

/-- The first of the names that no category has. -/
def FirstUnknown (categories : List Category) (names : List String) (name : String) : Prop :=
  ∃ before after, names = before ++ name :: after ∧ (∀ n ∈ before, IsKnown categories n) ∧
    ¬ IsKnown categories name

section Selecting

variable {categories : List Category} {names names' : List String}

theorem isKnown_iff {name : String} :
    IsKnown categories name ↔ name ∈ categories.map Category.name :=
  List.mem_map.symm

/-- Names that are given in another order, or more than once, choose the same. -/
theorem chosen_congr (h : ∀ n, n ∈ names' ↔ n ∈ names) (name : String) :
    Chosen names' name ↔ Chosen names name := by
  simp only [Chosen, List.eq_nil_iff_forall_not_mem, h]

/-- Selecting refuses the first name that no category has. -/
theorem selectCategories_eq (categories : List Category) (names : List String) :
    selectCategories categories names =
      match names.find? (· ∉ categories.map Category.name) with
      | some name => .error ⟨name, suggest name (categories.map Category.name)⟩
      | none => .ok (categories.filter fun c ↦ names.isEmpty || names.contains c.name) := by
  have hfind : names.find? (fun n ↦ !(categories.map Category.name).contains n) =
      names.find? (· ∉ categories.map Category.name) := by
    refine congrArg (List.find? · names) (funext fun n ↦ ?_)
    rw [List.contains_eq_mem, decide_not]
  rewrite [selectCategories, hfind]
  rfl

theorem find?_unknown_iff {name : String} :
    names.find? (· ∉ categories.map Category.name) = some name ↔
      FirstUnknown categories names name := by
  rw [List.find?_eq_some_iff_append]
  constructor
  · rintro ⟨hname, before, after, hnames, hbefore⟩
    refine ⟨before, after, hnames, fun n hn ↦ ?_, ?_⟩
    · simpa [isKnown_iff] using hbefore n hn
    · simpa [isKnown_iff] using hname
  · rintro ⟨before, after, hnames, hbefore, hname⟩
    refine ⟨by simpa [isKnown_iff] using hname, before, after, hnames, fun n hn ↦ ?_⟩
    simpa [isKnown_iff] using hbefore n hn

/-- **Selecting fails** for the first name that no category has. -/
theorem selectCategories_eq_error_iff {u : UnknownCategory} :
    selectCategories categories names = .error u ↔
      FirstUnknown categories names u.name ∧
        u.suggestion = suggest u.name (categories.map Category.name) := by
  rw [selectCategories_eq, ← find?_unknown_iff]
  cases names.find? (· ∉ categories.map Category.name) with
  | none => simp
  | some name =>
    obtain ⟨unknown, suggestion⟩ := u
    simp only [Except.error.injEq, UnknownCategory.mk.injEq, Option.some.injEq]
    constructor
    · rintro ⟨rfl, rfl⟩
      exact ⟨rfl, rfl⟩
    · rintro ⟨rfl, rfl⟩
      exact ⟨rfl, rfl⟩

theorem exists_firstUnknown_iff :
    (∃ name, FirstUnknown categories names name) ↔ ∃ n ∈ names, ¬ IsKnown categories n := by
  simp only [← find?_unknown_iff, ← Option.isSome_iff_exists, List.find?_isSome, isKnown_iff,
    decide_eq_true_eq]

/-- **Where all names are known**, the categories with the names are kept. -/
theorem selectCategories_eq_ok (h : ∀ n ∈ names, IsKnown categories n) :
    selectCategories categories names =
      .ok (categories.filter fun c ↦ Chosen names c.name) := by
  have hfind : names.find? (· ∉ categories.map Category.name) = none := by
    rw [List.find?_eq_none]
    intro n hn
    simpa using isKnown_iff.mp (h n hn)
  rw [selectCategories_eq, hfind]
  refine congrArg (Except.ok ∘ (List.filter · categories)) (funext fun c ↦ ?_)
  rw [Bool.eq_iff_iff, decide_eq_true_eq, Chosen]
  simp

end Selecting

/-! ## Answers to some of the categories -/

/-- **To answer the categories that are kept is to keep their answers.** -/
theorem outcomes_filter (a : Artifacts) (categories : List Category) (p : String → Bool) :
    (Report.ofCategories a (categories.filter fun c ↦ p c.name)).outcomes =
      (Report.ofCategories a categories).outcomes.filter fun o ↦ p o.category := by
  induction categories with
  | nil => rfl
  | cons c categories ih =>
    have hown : (c.checks.map (Outcome.ofCheck a c.name)).filter (fun o ↦ p o.category) =
        if p c.name then c.checks.map (Outcome.ofCheck a c.name) else [] := by
      rw [List.filter_map]
      cases hp : p c.name <;> simp [Function.comp_def, Outcome.ofCheck, hp]
    simp only [Report.ofCategories] at ih ⊢
    rw [List.flatMap_cons, List.filter_append, hown, ← ih, List.filter_cons]
    cases p c.name <;> rfl

/-! ## Answers in another order -/

/-- In another order, the categories have the same answers in another order. -/
theorem outcomes_perm (a : Artifacts) {categories categories' : List Category}
    (h : categories'.Perm categories) :
    (Report.ofCategories a categories').outcomes.Perm
      (Report.ofCategories a categories).outcomes :=
  h.flatMap_right _

namespace Report

variable {r r' : Report}

theorem success_congr (h : r'.outcomes.Perm r.outcomes) : r'.success = r.success :=
  h.all_eq

theorem passedCount_congr (h : r'.outcomes.Perm r.outcomes) : r'.passedCount = r.passedCount :=
  (h.filter _).length_eq

theorem failedCount_congr (h : r'.outcomes.Perm r.outcomes) : r'.failedCount = r.failedCount :=
  (h.filter _).length_eq

end Report

/-! ## Both -/

/-- **Selecting and reordering categories** selects and reorders the report.  Selecting fails
exactly if there is a name that no category has, and names the first of them.  Otherwise the
answers to the selected categories are those of the answers to all categories whose category is
asked for, however often and in whichever order the names are given.  The order of the categories
does not matter to whether all checks passed, and how many of them did. -/
theorem selectCategories_report (a : Artifacts) (categories : List Category)
    (names : List String) :
    ((∃ u, selectCategories categories names = .error u) ↔
        ∃ n ∈ names, ¬ IsKnown categories n) ∧
      (∀ u, selectCategories categories names = .error u →
        FirstUnknown categories names u.name ∧
          ∃ more, u.message = "unknown category `" ++ u.name ++ "`" ++ more) ∧
      ((∀ n ∈ names, IsKnown categories n) → ∀ names', (∀ n, n ∈ names' ↔ n ∈ names) →
        ∃ selected, selectCategories categories names' = .ok selected ∧
          (Report.ofCategories a selected).outcomes =
            (Report.ofCategories a categories).outcomes.filter fun o ↦ Chosen names o.category) ∧
      ∀ categories' : List Category, categories'.Perm categories →
        (Report.ofCategories a categories').outcomes.Perm
            (Report.ofCategories a categories).outcomes ∧
          (Report.ofCategories a categories').success =
            (Report.ofCategories a categories).success ∧
          (Report.ofCategories a categories').passedCount =
            (Report.ofCategories a categories).passedCount ∧
          (Report.ofCategories a categories').failedCount =
            (Report.ofCategories a categories).failedCount := by
  refine ⟨?_, fun u hu ↦ ?_, fun hknown names' hnames ↦ ?_, fun categories' hperm ↦ ?_⟩
  · rw [← exists_firstUnknown_iff]
    constructor
    · rintro ⟨u, hu⟩
      exact ⟨u.name, (selectCategories_eq_error_iff.mp hu).1⟩
    · rintro ⟨name, hname⟩
      exact ⟨⟨name, suggest name (categories.map Category.name)⟩,
        selectCategories_eq_error_iff.mpr ⟨hname, rfl⟩⟩
  · exact ⟨(selectCategories_eq_error_iff.mp hu).1, _, rfl⟩
  · have hknown' : ∀ n ∈ names', IsKnown categories n := fun n hn ↦
      hknown n ((hnames n).mp hn)
    refine ⟨_, selectCategories_eq_ok hknown', ?_⟩
    simp only [chosen_congr hnames]
    exact outcomes_filter a categories (Chosen names ·)
  · have houtcomes := outcomes_perm a hperm
    exact ⟨houtcomes, Report.success_congr houtcomes, Report.passedCount_congr houtcomes,
      Report.failedCount_congr houtcomes⟩

/-- Two categories with one name, an empty one and one that is not asked for, in artifacts with
nothing in them: the answers to the two are kept, and another order has the same counts. -/
theorem selectCategories_report_repeated :
    let a : Artifacts :=
      { grammar := ⟨"", {}, []⟩
        highlights := Query.Document.parse ""
        reference := {}
        referenceSource := "" }
    let first : Category := { name := "words", checks := [.rule "if", .rule "if"] }
    let second : Category := { name := "words", checks := [.contains .grammar ""] }
    let other : Category := { name := "marks", checks := [.rule "dot"] }
    let categories := [first, { name := "none" }, other, second]
    (∀ n ∈ ["none", "words"], IsKnown categories n) ∧
      (∀ n, n ∈ ["words", "none", "words"] ↔ n ∈ ["none", "words"]) ∧
      categories.reverse.Perm categories ∧
      (∃ selected, selectCategories categories ["words", "none", "words"] = .ok selected ∧
        (Report.ofCategories a selected).outcomes =
          [.ofCheck a "words" (.rule "if"), .ofCheck a "words" (.rule "if"),
            .ofCheck a "words" (.contains .grammar "")]) ∧
      (Report.ofCategories a categories.reverse).failedCount = 3 := by
  intro a first second other categories
  obtain ⟨-, -, hselect, horder⟩ := selectCategories_report a categories ["none", "words"]
  have hknown : ∀ n ∈ ["none", "words"], IsKnown categories n := by
    simp [IsKnown, categories, first, second]
  have hnames : ∀ n, n ∈ ["words", "none", "words"] ↔ n ∈ ["none", "words"] := by
    simp only [List.mem_cons, List.not_mem_nil, or_false]
    grind
  have hperm : categories.reverse.Perm categories := List.reverse_perm _
  obtain ⟨selected, hok, houtcomes⟩ := hselect hknown _ hnames
  refine ⟨hknown, hnames, hperm, ⟨selected, hok, houtcomes.trans rfl⟩, ?_⟩
  rw [(horder _ hperm).2.2.2]
  decide +kernel

end Concord
