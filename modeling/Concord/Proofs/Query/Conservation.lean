import Concord.Query.Production

/-!
# Productions account for every lexeme

A production that recovers from errors must not lose what it does not understand.  Here every
production is shown to account for the lexemes that it reads: the leaves of the trees that it
built, followed by the lexemes that it left, are the lexemes that it was given.

* `Parsed.Accounts` says this of one result, and also that no node was built around nothing.
* `Steady` productions account for whatever stands in front of them.  `Advances` is said of those
  that also take at least one lexeme, if there is one; it is what lets a repetition end.
* `many_cons` unrolls a repetition of productions that advance, so that no later proof has to look
  at its fuel.
* `leavesAll_trees_root` and `solidAll_trees_root` say it of a whole text: nothing is left over,
  and nothing is lost.
-/

set_option autoImplicit false

namespace Concord.Query

/-! ## Trees without hollow nodes -/

namespace Tree

variable {α : Type}

mutual

/-- Every node of the tree has a leaf below it. -/
def Solid : Tree α → Prop
  | leaf _ => True
  | node _ children => leavesAll children ≠ [] ∧ SolidAll children

/-- Every node of the trees has a leaf below it. -/
def SolidAll : List (Tree α) → Prop
  | [] => True
  | t :: ts => t.Solid ∧ SolidAll ts

end

theorem solidAll_append {ts us : List (Tree α)} :
    SolidAll (ts ++ us) ↔ SolidAll ts ∧ SolidAll us := by
  induction ts with
  | nil => simp [SolidAll]
  | cons t ts ih => rw [List.cons_append, SolidAll, SolidAll, ih, and_assoc]

theorem solidAll_map_leaf (as : List α) : SolidAll (as.map leaf) := by
  induction as with
  | nil => trivial
  | cons a as ih => exact ⟨trivial, ih⟩

end Tree

/-! ## What one result accounts for -/

/-- The result of reading `ls` has lost nothing, and has no hollow nodes. -/
structure Parsed.Accounts (p : Parsed) (ls : List Lexeme) : Prop where
  /-- The leaves and what is left are the lexemes that were read. -/
  leaves : Tree.leavesAll p.trees ++ p.rest = ls
  /-- Every node has a leaf below it. -/
  solid : Tree.SolidAll p.trees

namespace Parsed

theorem Accounts.length_rest_le {p : Parsed} {ls : List Lexeme} (h : p.Accounts ls) :
    p.rest.length ≤ ls.length := by
  rw [← h.leaves, List.length_append]
  omega

theorem Accounts.andThen {p : Parsed} {ls : List Lexeme} {next : Production}
    (hp : p.Accounts ls) (hnext : (next p.rest).Accounts p.rest) :
    (p.andThen next).Accounts ls where
  leaves := by
    rw [Parsed.andThen, Tree.leavesAll_append, List.append_assoc, hnext.leaves, hp.leaves]
  solid := Tree.solidAll_append.mpr ⟨hp.solid, hnext.solid⟩

/-- A node may be put around what took at least one lexeme. -/
theorem Accounts.wrap {p : Parsed} {ls : List Lexeme} (kind : NodeKind) (h : p.Accounts ls)
    (hlt : p.rest.length < ls.length) : (p.wrap kind).Accounts ls where
  leaves := by simpa [Parsed.wrap, Tree.leavesAll, Tree.leaves] using h.leaves
  solid := by
    refine ⟨⟨fun hnil ↦ ?_, h.solid⟩, trivial⟩
    have hrest := h.leaves
    rw [hnil, List.nil_append] at hrest
    rw [hrest] at hlt
    exact Nat.lt_irrefl _ hlt

end Parsed

namespace Production

/-- The production accounts for whatever stands in front of it. -/
def Steady (p : Production) : Prop := ∀ ls, (p ls).Accounts ls

/-- The production accounts for what stands in front of it, and takes at least one lexeme of
that. -/
def Advances (p : Production) : Prop :=
  ∀ l ls, (p (l :: ls)).Accounts (l :: ls) ∧ (p (l :: ls)).rest.length ≤ ls.length

/-! ## Building blocks -/

@[simp] theorem kindAhead_nil : kindAhead [] = none := rfl

@[simp] theorem kindAhead_cons (l : Lexeme) (ls : List Lexeme) :
    kindAhead (l :: ls) = some l.kind := rfl

@[simp] theorem token_cons (l : Lexeme) (ls : List Lexeme) :
    token (l :: ls) = ⟨[.leaf l], [], ls⟩ := rfl

@[simp] theorem seq_nil (ls : List Lexeme) : seq [] ls = ⟨[], [], ls⟩ := rfl

theorem seq_cons (p : Production) (ps : List Production) (ls : List Lexeme) :
    seq (p :: ps) ls = (p ls).andThen (seq ps) := rfl

theorem nothing_steady : Steady nothing := fun _ ↦ ⟨rfl, trivial⟩

theorem token_steady : Steady token
  | [] => ⟨rfl, trivial⟩
  | _ :: _ => ⟨rfl, trivial, trivial⟩

theorem token_advances : Advances token := fun l ls ↦ ⟨token_steady (l :: ls), Nat.le_refl _⟩

theorem report_steady (problem : Problem) : Steady (report problem) := fun _ ↦ ⟨rfl, trivial⟩

theorem optional_steady (kind : TokenKind) : Steady (optional kind) := by
  intro ls
  rw [optional]
  split
  · exact token_steady ls
  · exact nothing_steady ls

theorem expect_steady (kind : TokenKind) (problem : Problem) : Steady (expect kind problem) := by
  intro ls
  rw [expect]
  split
  · exact token_steady ls
  · exact report_steady problem ls

theorem close_steady (kind : TokenKind) (problem : Nat → Problem) (opener : List Lexeme) :
    Steady (close kind problem opener) := by
  intro ls
  rw [close]
  split
  · exact token_steady ls
  · exact report_steady _ ls

theorem seq_steady {ps : List Production} (h : ∀ p ∈ ps, Steady p) : Steady (seq ps) := by
  induction ps with
  | nil => exact nothing_steady
  | cons p ps ih =>
    intro ls
    exact (h p List.mem_cons_self ls).andThen
      (ih (fun q hq ↦ h q (List.mem_cons_of_mem p hq)) _)

/-- A sequence advances if its first part does. -/
theorem seq_advances {p : Production} {ps : List Production} (hp : Advances p)
    (hps : ∀ q ∈ ps, Steady q) : Advances (seq (p :: ps)) := by
  intro l ls
  have hrest := seq_steady hps (p (l :: ls)).rest
  exact ⟨(hp l ls).1.andThen hrest, Nat.le_trans hrest.length_rest_le (hp l ls).2⟩

theorem node_advances {p : Production} (kind : NodeKind) (hp : Advances p) :
    Advances (node kind p) :=
  fun l ls ↦ ⟨(hp l ls).1.wrap kind (Nat.lt_succ_of_le (hp l ls).2), (hp l ls).2⟩

/-- A report takes nothing, so the token behind it is the one that a stray token is. -/
theorem stray_advances (problem : Problem) : Advances (stray problem) := by
  intro l ls
  have herror := node_advances .error token_advances l ls
  refine ⟨(report_steady problem (l :: ls)).andThen (herror.1.andThen (nothing_steady _)), ?_⟩
  exact herror.2

/-! ## Repetition -/

section Many

variable {stop : TokenKind → Bool} {item : TokenKind → Production}

theorem manyWithin_steady (h : ∀ kind, Advances (item kind)) (fuel : List Lexeme) :
    Steady (manyWithin stop item fuel) := by
  induction fuel with
  | nil => exact nothing_steady
  | cons l fuel ih =>
    intro ls
    cases ls with
    | nil => exact nothing_steady []
    | cons l ls =>
      rw [manyWithin]
      dsimp only
      split
      · exact nothing_steady (l :: ls)
      · exact (h l.kind l ls).1.andThen (ih _)

theorem many_steady (h : ∀ kind, Advances (item kind)) : Steady (many stop item) :=
  fun ls ↦ manyWithin_steady h ls ls

/-- Any fuel will do that is as long as what there is to read. -/
theorem manyWithin_eq (h : ∀ kind, Advances (item kind)) :
    ∀ (fuel fuel' ls : List Lexeme), ls.length ≤ fuel.length → ls.length ≤ fuel'.length →
      manyWithin stop item fuel ls = manyWithin stop item fuel' ls
  | [], [], _, _, _ => rfl
  | [], _ :: _, [], _, _ => rfl
  | _ :: _, [], [], _, _ => rfl
  | _ :: _, _ :: _, [], _, _ => rfl
  | _ :: fuel, _ :: fuel', l :: ls, hf, hf' => by
    rw [manyWithin, manyWithin]
    dsimp only
    split
    · rfl
    · have hle := (h l.kind l ls).2
      rw [List.length_cons, List.length_cons] at hf hf'
      rw [Parsed.andThen, Parsed.andThen, manyWithin_eq h fuel fuel' _ (by omega) (by omega)]

/-- **A repetition unrolls**: it stops, or reads an item and goes on. -/
theorem many_cons (h : ∀ kind, Advances (item kind)) (l : Lexeme) (ls : List Lexeme) :
    many stop item (l :: ls) =
      if stop l.kind then ⟨[], [], l :: ls⟩
      else (item l.kind (l :: ls)).andThen (many stop item) := by
  rw [many, manyWithin]
  dsimp only
  split
  · rfl
  · rw [Parsed.andThen, Parsed.andThen, many,
      manyWithin_eq h ls _ _ (h l.kind l ls).2 (Nat.le_refl _)]

/-- What a repetition keeps, given what one of its items keeps. -/
theorem many_induction (h : ∀ kind, Advances (item kind)) {motive : List Lexeme → Parsed → Prop}
    (nil : motive [] ⟨[], [], []⟩)
    (halt : ∀ l ls, stop l.kind = true → motive (l :: ls) ⟨[], [], l :: ls⟩)
    (step : ∀ l ls, stop l.kind = false →
      motive (item l.kind (l :: ls)).rest (many stop item (item l.kind (l :: ls)).rest) →
        motive (l :: ls) ((item l.kind (l :: ls)).andThen (many stop item)))
    (ls : List Lexeme) : motive ls (many stop item ls) := by
  induction hn : ls.length using Nat.strongRecOn generalizing ls with
  | ind n ih =>
    cases ls with
    | nil => exact nil
    | cons l ls =>
      rw [many_cons h]
      split
      · rename_i hstop
        exact halt l ls hstop
      · rename_i hstop
        have hle := (h l.kind l ls).2
        rw [List.length_cons] at hn
        exact step l ls (by simpa using hstop) (ih _ (by omega) _ rfl)

/-- What a repetition leaves is nothing, or begins with a lexeme that stops it. -/
theorem rest_many (h : ∀ kind, Advances (item kind)) (ls : List Lexeme) :
    ∀ l ∈ (many stop item ls).rest.head?, stop l.kind = true := by
  refine many_induction h (motive := fun _ p ↦ ∀ l ∈ p.rest.head?, stop l.kind = true)
    ?_ ?_ ?_ ls
  · simp
  · intro l ls hstop m hm
    rw [← Option.some_inj.mp hm]
    exact hstop
  · intro l ls _ ih
    exact ih

end Many

/-! ## Atoms -/

theorem garbage_advances : Advances garbage := by
  intro l ls
  rw [garbage]
  split <;> exact stray_advances _ l ls

theorem strayToken_advances (kind : TokenKind) : Advances (strayToken kind) := by
  rw [strayToken.eq_def]
  split
  all_goals first
    | exact stray_advances _
    | exact garbage_advances

theorem str_advances : Advances str := by
  refine node_advances .str (seq_advances token_advances fun q hq ↦ ?_)
  rcases List.mem_cons.mp hq with rfl | hq
  · exact optional_steady _
  · rw [List.mem_singleton.mp hq]
    exact expect_steady _ _

theorem negatedField_advances : Advances negatedField := by
  refine node_advances .negatedField (seq_advances token_advances fun q hq ↦ ?_)
  rw [List.mem_singleton.mp hq]
  exact expect_steady _ _

theorem bareName_advances : Advances bareName := fun l ls ↦ stray_advances _ l ls

theorem argument_advances (kind : TokenKind) : Advances (argument kind) := by
  rw [argument.eq_def]
  split
  all_goals first
    | exact token_advances
    | exact str_advances
    | exact garbage_advances
    | exact stray_advances _

theorem arguments_steady : Steady arguments := many_steady argument_advances

section Nested

variable {pattern : Production}

/-- What stands at one place of a list of patterns. -/
theorem item_advances (hp : Advances pattern) (kind : TokenKind) :
    Advances (if kind.startsPattern then pattern else strayToken kind) := by
  split
  · exact hp
  · exact strayToken_advances kind

theorem patterns_steady (hp : Advances pattern) (stop : TokenKind → Bool) :
    Steady (patterns pattern stop) :=
  many_steady (item_advances hp)

theorem patterns_cons (hp : Advances pattern) (stop : TokenKind → Bool) (l : Lexeme)
    (ls : List Lexeme) :
    patterns pattern stop (l :: ls) =
      if stop l.kind then ⟨[], [], l :: ls⟩
      else ((if l.kind.startsPattern then pattern else strayToken l.kind) (l :: ls)).andThen
        (patterns pattern stop) :=
  many_cons (item_advances hp) l ls

theorem subtype_steady : Steady subtype := by
  intro ls
  rw [subtype]
  split
  · refine seq_steady (fun q hq ↦ ?_) ls
    rcases List.mem_cons.mp hq with rfl | hq
    · exact token_steady
    · rw [List.mem_singleton.mp hq]
      exact expect_steady _ _
  · exact nothing_steady ls

/-- What stands behind the colon of a field. -/
theorem fieldValue_steady (hp : Advances pattern) :
    Steady fun ls ↦ if (kindAhead ls).any TokenKind.startsPattern then pattern ls
      else report .expectedFieldValue ls := by
  intro ls
  dsimp only
  split
  · cases ls with
    | nil => contradiction
    | cons l ls => exact (hp l ls).1
  · exact report_steady _ ls

theorem field_advances (hp : Advances pattern) : Advances (field pattern) := by
  refine node_advances .field (seq_advances token_advances fun q hq ↦ ?_)
  rcases List.mem_cons.mp hq with rfl | hq
  · exact token_steady
  · rw [List.mem_singleton.mp hq]
    exact fieldValue_steady hp

theorem parenBody_steady (hp : Advances pattern) (ls : List Lexeme) :
    Steady (parenBody pattern ls).2 := by
  have hpatterns := patterns_steady hp (· = .parenClose)
  rw [parenBody]
  split
  · exact nothing_steady
  · exact report_steady _
  · refine seq_steady (by simp [token_steady, subtype_steady, hpatterns])
  · refine seq_steady (by simp [token_steady, subtype_steady, hpatterns])
  · refine seq_steady (by simp [token_steady, arguments_steady])
  · split
    · exact hpatterns
    · refine seq_steady (by simp [report_steady, hpatterns])

theorem paren_advances (hp : Advances pattern) : Advances (paren pattern) := by
  intro l ls
  refine node_advances _ (seq_advances token_advances fun q hq ↦ ?_) l ls
  rcases List.mem_cons.mp hq with rfl | hq
  · exact parenBody_steady hp _
  · rw [List.mem_singleton.mp hq]
    exact close_steady _ _ _

theorem alternation_advances (hp : Advances pattern) : Advances (alternation pattern) := by
  intro l ls
  refine node_advances _ (seq_advances token_advances fun q hq ↦ ?_) l ls
  rcases List.mem_cons.mp hq with rfl | hq
  · exact patterns_steady hp _
  · rw [List.mem_singleton.mp hq]
    exact close_steady _ _ _

theorem atom_advances (hp : Advances pattern) : Advances (atom pattern) := by
  intro l ls
  rw [atom]
  split
  · exact paren_advances hp l ls
  · exact alternation_advances hp l ls
  · exact str_advances l ls
  · exact node_advances _ token_advances l ls
  · exact node_advances _ token_advances l ls
  · exact negatedField_advances l ls
  · split
    · exact field_advances hp l ls
    · exact bareName_advances l ls
  · exact stray_advances _ l ls

end Nested

/-! ## Patterns -/

theorem quantified_accounts {p : Parsed} {ls : List Lexeme} (h : p.Accounts ls)
    (hlt : p.rest.length < ls.length) :
    (quantified p).Accounts ls ∧ (quantified p).rest.length < ls.length := by
  rw [quantified]
  split
  · have htoken := token_steady p.rest
    have hlt' : (p.andThen token).rest.length < ls.length :=
      Nat.lt_of_le_of_lt htoken.length_rest_le hlt
    exact ⟨(h.andThen htoken).wrap .quantifier hlt', hlt'⟩
  · exact ⟨h, hlt⟩

/-- Takes the capture names that are next. -/
def captureNames : Production := fun ls ↦
  ⟨(ls.takeWhile (·.kind = .captureName)).map .leaf, [], ls.dropWhile (·.kind = .captureName)⟩

theorem captureNames_steady : Steady captureNames := fun ls ↦
  ⟨by rw [captureNames, Tree.leavesAll_map_leaf, List.takeWhile_append_dropWhile],
    Tree.solidAll_map_leaf _⟩

/-- Captures read on behind the pattern, and are put around it. -/
theorem captured_of_ahead {p : Parsed} (h : kindAhead p.rest = some .captureName) :
    captured p = (p.andThen captureNames).wrap .capture := by
  rw [captured, if_pos h, Parsed.andThen, captureNames, List.append_nil]

theorem captured_accounts {p : Parsed} {ls : List Lexeme} (h : p.Accounts ls)
    (hlt : p.rest.length < ls.length) :
    (captured p).Accounts ls ∧ (captured p).rest.length < ls.length := by
  by_cases hahead : kindAhead p.rest = some .captureName
  · have hnames := captureNames_steady p.rest
    have hlt' : (p.andThen captureNames).rest.length < ls.length :=
      Nat.lt_of_le_of_lt hnames.length_rest_le hlt
    rw [captured_of_ahead hahead]
    exact ⟨(h.andThen hnames).wrap .capture hlt', hlt'⟩
  · rw [captured, if_neg hahead]
    exact ⟨h, hlt⟩

theorem swallow_advances : Advances swallow := by
  intro l ls
  refine ⟨⟨?_, ⟨?_, Tree.solidAll_map_leaf (l :: ls)⟩, trivial⟩, Nat.zero_le _⟩
  · rw [swallow, Tree.leavesAll, Tree.leaves, Tree.leavesAll_map_leaf, Tree.leavesAll,
      List.append_nil, List.append_nil]
  · rw [Tree.leavesAll_map_leaf]
    exact List.cons_ne_nil l ls

/-- A pattern takes at least one lexeme, however deep it may nest. -/
theorem pattern_advances (levels : Nat) : Advances (pattern levels) := by
  induction levels with
  | zero => exact swallow_advances
  | succ levels ih =>
    intro l ls
    obtain ⟨hatom, hle⟩ := atom_advances ih l ls
    obtain ⟨hquant, hlt⟩ := quantified_accounts hatom (Nat.lt_succ_of_le hle)
    obtain ⟨hcap, hlt⟩ := captured_accounts hquant hlt
    exact ⟨hcap, Nat.le_of_lt_succ hlt⟩

/-! ## A whole text -/

@[simp] theorem root_nil : root [] = ⟨[], [], []⟩ := rfl

theorem root_accounts (ls : List Lexeme) : (root ls).Accounts ls :=
  patterns_steady (pattern_advances maxDepth) _ ls

@[simp] theorem rest_root (ls : List Lexeme) : (root ls).rest = [] := by
  have hrest : ∀ l ∈ (root ls).rest.head?, false = true :=
    rest_many (item_advances (pattern_advances maxDepth)) ls
  cases h : (root ls).rest with
  | nil => rfl
  | cons l rest =>
    rw [h] at hrest
    exact absurd (hrest l rfl) Bool.false_ne_true

/-- **Nothing is lost**: the leaves of the trees of a text are its significant lexemes. -/
theorem leavesAll_trees_root (ls : List Lexeme) : Tree.leavesAll (root ls).trees = ls := by
  have h := (root_accounts ls).leaves
  rwa [rest_root, List.append_nil] at h

theorem solidAll_trees_root (ls : List Lexeme) : Tree.SolidAll (root ls).trees :=
  (root_accounts ls).solid

end Production

end Concord.Query
