import Mathlib.Data.List.Nodup
import Concord.Proofs.Grammar.Names

/-!
# Declarations and references that alternate

A grammar is filled by calls, which declare a rule or refer to one.  They come in any order and with
repeats on both sides, but how the two kinds alternate leaves no trace: of the declarations of a
name the last one is kept in the position of the first, and of the references the first one.

* `run` — makes calls one after the other, and collects what the declarations answer.
* `Records` — what a grammar holds of the rules that were declared and of the names that were used,
  each with repeats.  `Records.declare` and `Records.refer` say what one call adds, and
  `Records.run` what all of them do.
* `Records.unique` — two grammars that hold the same are the same.

`calls_kept_apart` says what there is to see of a grammar after its calls.
-/

set_option autoImplicit false

namespace Concord.Grammar

/-! ## Calls -/

/-- A call that fills a grammar. -/
inductive Call where
  | declare (r : Rule)
  | refer (name : String)
deriving DecidableEq, Repr

/-- The rule that a call declares. -/
def Call.declared? : Call → Option Rule
  | declare r => some r
  | refer _ => none

/-- The name that a call refers to. -/
def Call.used? : Call → Option String
  | declare _ => none
  | refer name => some name

/-- The rules that are declared, each time that they are. -/
def declarations (calls : List Call) : List Rule := calls.filterMap Call.declared?

/-- The names that are referred to, each time that they are. -/
def uses (calls : List Call) : List String := calls.filterMap Call.used?

/-- Makes calls one after the other.  Also answers, for each declaration, which one it replaces. -/
def run (g : Grammar) : List Call → Grammar × List (Option Rule)
  | [] => (g, [])
  | .declare r :: calls =>
    let (g, previous) := g.declare r
    let (g, answers) := run g calls
    (g, previous :: answers)
  | .refer name :: calls => run (g.refer name) calls

section Cons

variable (g : Grammar) (r : Rule) (name : String) (calls : List Call)

@[simp] theorem run_declare : g.run (.declare r :: calls) =
    (((g.declare r).1.run calls).1, (g.declare r).2 :: ((g.declare r).1.run calls).2) :=
  rfl

@[simp] theorem run_refer : g.run (.refer name :: calls) = (g.refer name).run calls := rfl

@[simp] theorem declarations_declare :
    declarations (.declare r :: calls) = r :: declarations calls :=
  rfl

@[simp] theorem declarations_refer : declarations (.refer name :: calls) = declarations calls := rfl

@[simp] theorem uses_declare : uses (.declare r :: calls) = uses calls := rfl

@[simp] theorem uses_refer : uses (.refer name :: calls) = name :: uses calls := rfl

end Cons

theorem mem_declarations_iff {r : Rule} {calls : List Call} :
    r ∈ declarations calls ↔ .declare r ∈ calls := by
  rw [declarations, List.mem_filterMap]
  constructor
  · rintro ⟨_ | _, hcall, heq⟩
    · cases heq
      exact hcall
    · cases heq
  · exact fun hcall ↦ ⟨_, hcall, rfl⟩

theorem mem_uses_iff {name : String} {calls : List Call} :
    name ∈ uses calls ↔ .refer name ∈ calls := by
  rw [uses, List.mem_filterMap]
  constructor
  · rintro ⟨_ | _, hcall, heq⟩
    · cases heq
    · cases heq
      exact hcall
  · exact fun hcall ↦ ⟨_, hcall, rfl⟩

/-! ## What a grammar holds -/

/-- What is found from the end is the last rule, if it has the name. -/
theorem findRev?_concat (rules : List Rule) (r : Rule) (x : String) :
    (rules ++ [r]).findRev? (·.name == x) =
      if r.name = x then some r else rules.findRev? (·.name == x) := by
  rw [List.findRev?_eq_find?_reverse, List.findRev?_eq_find?_reverse, List.reverse_concat]
  by_cases hx : r.name = x
  · rw [if_pos hx]
    exact List.find?_cons_of_pos (beq_iff_eq.mpr hx)
  · rw [if_neg hx]
    exact List.find?_cons_of_neg (mt beq_iff_eq.mp hx)

/-- If no name stands twice, the rules are what is found by the names. -/
theorem rules_eq_filterMap {g : Grammar} (h : g.ruleNames.Nodup) :
    g.rules = g.ruleNames.filterMap g.rule? := by
  have hfound : ∀ r ∈ g.rules, g.rule? r.name = some r := by
    intro r hr
    cases hrule : g.rule? r.name with
    | none => exact absurd (List.mem_map_of_mem hr) (rule?_eq_none_iff.mp hrule)
    | some q =>
      obtain ⟨hq, hname⟩ := of_rule?_eq_some hrule
      rw [List.inj_on_of_nodup_map h hq hr hname]
  calc g.rules = g.rules.filterMap some := List.filterMap_some.symm
    _ = g.rules.filterMap (g.rule? ∘ Rule.name) := (List.filterMap_congr hfound).symm
    _ = g.ruleNames.filterMap g.rule? := List.filterMap_map.symm

/-- What a grammar holds of declarations and of names that were used. -/
structure Records (g : Grammar) (name : Option String) (declared : List Rule)
    (used : List String) : Prop extends Lists g name (declared.map Rule.name) used where
  rule?_eq : ∀ x, g.rule? x = declared.findRev? (·.name == x)

namespace Records

variable {g g' : Grammar} {name : Option String} {declared : List Rule} {used : List String}

theorem start (name : Option String) : Records { name } name [] [] where
  name_eq := rfl
  ruleNames_eq := rfl
  references_eq := rfl
  rule?_eq _ := rfl

theorem declare (h : g.Records name declared used) (r : Rule) :
    (g.declare r).1.Records name (declared ++ [r]) used where
  toLists := by
    rw [List.map_append]
    exact h.toLists.declare r
  rule?_eq x := by rw [rule?_declare, findRev?_concat, h.rule?_eq]

theorem refer (h : g.Records name declared used) (use : String) :
    (g.refer use).Records name declared (used ++ [use]) where
  toLists := h.toLists.refer use
  rule?_eq x := by rw [rule?, rules_refer, ← rule?, h.rule?_eq]

/-- **All calls are recorded**, one after the other. -/
theorem run (h : g.Records name declared used) (calls : List Call) :
    (g.run calls).1.Records name (declared ++ declarations calls) (used ++ uses calls) := by
  induction calls generalizing g declared used with
  | nil => simpa [declarations, uses, Grammar.run] using h
  | cons call calls ih =>
    cases call with
    | declare r =>
      rw [run_declare, declarations_declare, uses_declare, List.append_cons declared]
      exact ih (h.declare r)
    | refer use =>
      rw [run_refer, declarations_refer, uses_refer, List.append_cons used]
      exact ih (h.refer use)

/-- **A declaration answers the last one of its name** among all that were made before it. -/
theorem answers_run (h : g.Records name declared used) (calls : List Call) :
    (g.run calls).2 = (declarations calls).mapIdx fun i r ↦
      (declared ++ (declarations calls).take i).findRev? (·.name == r.name) := by
  induction calls generalizing g declared used with
  | nil => rfl
  | cons call calls ih =>
    cases call with
    | declare r =>
      have hfirst : (g.declare r).2 = declared.findRev? (·.name == r.name) := h.rule?_eq r.name
      rw [run_declare, hfirst, ih (h.declare r), declarations_declare, List.mapIdx_cons]
      simp only [List.take_zero, List.append_nil, List.take_succ_cons, List.append_assoc,
        List.singleton_append]
    | refer use =>
      rw [run_refer, declarations_refer]
      exact ih (h.refer use)

theorem nodup_ruleNames (h : g.Records name declared used) : g.ruleNames.Nodup := by
  rw [h.ruleNames_eq]
  exact nodup_eraseDups _

/-- **Nothing is left open** by the declarations and the uses. -/
theorem unique (h : g.Records name declared used) (h' : g'.Records name declared used) :
    g = g' := by
  have hnames : g.ruleNames = g'.ruleNames := h.ruleNames_eq.trans h'.ruleNames_eq.symm
  have hrule? : g.rule? = g'.rule? := by
    funext x
    rw [h.rule?_eq, h'.rule?_eq]
  have hrules : g.rules = g'.rules := by
    rw [rules_eq_filterMap h.nodup_ruleNames, rules_eq_filterMap h'.nodup_ruleNames, hnames,
      hrule?]
  have hname : g.name = g'.name := h.name_eq.trans h'.name_eq.symm
  have hreferences : g.references = g'.references := h.references_eq.trans h'.references_eq.symm
  calc g = ⟨g.name, g.rules, g.references⟩ := rfl
    _ = ⟨g'.name, g'.rules, g'.references⟩ := by rw [hname, hrules, hreferences]
    _ = g' := rfl

end Records

/-! ## What there is to see -/

/-- The grammar that is filled by calls. -/
def ofCalls (name : Option String) (calls : List Call) : Grammar := (run { name } calls).1

/-- What the declarations among calls answer. -/
def answers (name : Option String) (calls : List Call) : List (Option Rule) :=
  (run { name } calls).2

theorem records_ofCalls (name : Option String) (calls : List Call) :
    (ofCalls name calls).Records name (declarations calls) (uses calls) :=
  (Records.start name).run calls

/-- **Declarations and references are kept apart**, in whatever order the calls are made.  The
declared names stand in the order of first declaration, each with its last rule, and a declaration
answers the last one before it of its name.  The names that are referred to are those of the
references, and those of them that are never declared stand in the order of first use.  Calls that
agree in their declarations and in their references have the same answers and fill the same
grammar. -/
theorem calls_kept_apart (name : Option String) (calls : List Call) :
    ((ofCalls name calls).ruleNames.Nodup ∧
      (∀ x, x ∈ (ofCalls name calls).ruleNames ↔ ∃ r, .declare r ∈ calls ∧ r.name = x) ∧
      (ofCalls name calls).ruleNames.Pairwise (fun x y ↦
        ((declarations calls).map Rule.name).idxOf x <
          ((declarations calls).map Rule.name).idxOf y) ∧
      (∀ x, (ofCalls name calls).rule? x = (declarations calls).findRev? (·.name == x)) ∧
      answers name calls = (declarations calls).mapIdx fun i r ↦
        ((declarations calls).take i).findRev? (·.name == r.name)) ∧
    ((∀ x, (ofCalls name calls).isReferenced x = true ↔ .refer x ∈ calls) ∧
      (ofCalls name calls).undeclared.Nodup ∧
      (∀ x, x ∈ (ofCalls name calls).undeclared ↔
        .refer x ∈ calls ∧ ∀ r, .declare r ∈ calls → r.name ≠ x) ∧
      (ofCalls name calls).undeclared.Pairwise (fun x y ↦
        (uses calls).idxOf x < (uses calls).idxOf y)) ∧
    ∀ calls', declarations calls' = declarations calls → uses calls' = uses calls →
      ofCalls name calls' = ofCalls name calls ∧ answers name calls' = answers name calls := by
  have h := records_ofCalls name calls
  have hanswers (calls : List Call) : answers name calls = (declarations calls).mapIdx fun i r ↦
      ((declarations calls).take i).findRev? (·.name == r.name) :=
    (Records.start name).answers_run calls
  refine ⟨⟨h.nodup_ruleNames, fun x ↦ ?_, ?_, h.rule?_eq, hanswers calls⟩,
    ⟨fun x ↦ ?_, h.nodup_undeclared, fun x ↦ ?_, h.pairwise_undeclared⟩, ?_⟩
  · rw [h.ruleNames_eq, List.mem_eraseDups, List.mem_map]
    simp only [mem_declarations_iff]
  · rw [h.ruleNames_eq]
    exact pairwise_idxOf_eraseDups _
  · rw [h.isReferenced_iff, mem_uses_iff]
  · rw [h.mem_undeclared_iff, mem_uses_iff, List.mem_map]
    simp only [mem_declarations_iff, not_exists, not_and, ne_eq]
  · intro calls' hdeclarations huses
    have h' := records_ofCalls name calls'
    rw [hdeclarations, huses] at h'
    refine ⟨h'.unique h, ?_⟩
    rw [hanswers, hanswers, hdeclarations]

/-- A rule that is declared twice, and names that are used before and after their declarations. -/
theorem calls_kept_apart_shuffled :
    let calls : List Call :=
      [.refer "word", .declare ⟨"text", some ⟨0, 4⟩⟩, .refer "text", .refer "blank",
        .declare ⟨"word", some ⟨9, 13⟩⟩, .declare ⟨"text", some ⟨20, 24⟩⟩, .refer "word"]
    let calls' : List Call :=
      [.declare ⟨"text", some ⟨0, 4⟩⟩, .declare ⟨"word", some ⟨9, 13⟩⟩,
        .declare ⟨"text", some ⟨20, 24⟩⟩, .refer "word", .refer "text", .refer "blank",
        .refer "word"]
    declarations calls' = declarations calls ∧ uses calls' = uses calls ∧
      ofCalls none calls' = ofCalls none calls ∧
      ofCalls none calls =
        ⟨none, [⟨"text", some ⟨20, 24⟩⟩, ⟨"word", some ⟨9, 13⟩⟩], ["word", "text", "blank"]⟩ ∧
      answers none calls' = [none, none, some ⟨"text", some ⟨0, 4⟩⟩] ∧
      (ofCalls none calls').undeclared = ["blank"] := by
  intro calls calls'
  have hdeclarations : declarations calls' = declarations calls := rfl
  have huses : uses calls' = uses calls := rfl
  obtain ⟨-, -, hsame⟩ := calls_kept_apart none calls
  obtain ⟨hgrammar, hanswers⟩ := hsame calls' hdeclarations huses
  refine ⟨hdeclarations, huses, hgrammar, by decide, ?_, ?_⟩
  · rw [hanswers]
    decide
  · rw [hgrammar]
    decide

end Concord.Grammar
