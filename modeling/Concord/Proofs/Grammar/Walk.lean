import Concord.Grammar.Document
import Concord.Proofs.Grammar.Names
import Concord.Proofs.Json.Sorting

/-!
# The walk over the values of a grammar document

The walk over a value collects the names that its symbols refer to.  It goes over the members of an
object in the order of their keys, which need not be that of the document.

* `UsedAt` — where a name is used, said of the document as it is written: the places of a value are
  told by the steps that lead to them.
* `Precedes` — which of two places the walk comes to first.
* `Listing` — names are those of all uses, in the order of their places.  `listing_symbols` says so
  of the names that the walk collects.
* `Listing.pairwise_eraseDups` — without repeats, they stand in the order of first use.
-/

set_option autoImplicit false

namespace Concord.GrammarDocument

open Json (Value)
open Json.Value (lastAt? lookup_eq_some_iff_mem mem_of_lastAt? mem_sortedMembers_iff
  pairwise_sortedMembers sortedItems_eq sortedMembers)

/-! ## Places -/

/-- One step further into a value. -/
inductive Step where
  | item (i : Nat)
  | key (k : String)

/-- Items stand in their order, and members in that of their keys. -/
inductive Step.Before : Step → Step → Prop
  | item {i j : Nat} (h : i < j) : Before (item i) (item j)
  | key {k l : String} (h : k < l) : Before (key k) (key l)

/-- An object comes in front of all that is in it. -/
def Precedes : List Step → List Step → Prop := List.Lex Step.Before

/-- A symbol of this name stands where the steps lead to.  Of the members with one key, only the
last one counts. -/
inductive UsedAt (name : String) : List Step → Value → Prop
  | here {members : List (String × Value)}
      (htype : lastAt? "type" members = some (.string "SYMBOL"))
      (hname : lastAt? "name" members = some (.string name)) : UsedAt name [] (.object members)
  | item {items : List Value} {i : Nat} {v : Value} {steps : List Step} (hv : items[i]? = some v)
      (h : UsedAt name steps v) : UsedAt name (.item i :: steps) (.list items)
  | entry {members : List (String × Value)} {k : String} {v : Value} {steps : List Step}
      (hv : lastAt? k members = some v) (h : UsedAt name steps v) :
      UsedAt name (.key k :: steps) (.object members)

/-! ## Names in the order of their places -/

/-- The names are those that are used at any place, in the order of the places. -/
def Listing (used : String → List Step → Prop) (names : List String) : Prop :=
  ∃ uses : List (String × List Step), (∀ use, use ∈ uses ↔ used use.1 use.2) ∧
    uses.Pairwise (fun use later ↦ Precedes use.2 later.2) ∧ uses.map Prod.fst = names

namespace Listing

variable {used used' : String → List Step → Prop} {names names' : List String}

theorem mem_iff (h : Listing used names) {name : String} :
    name ∈ names ↔ ∃ steps, used name steps := by
  obtain ⟨uses, hmem, -, rfl⟩ := h
  simp [hmem]

theorem congr (h : Listing used names) (heq : ∀ name steps, used name steps ↔ used' name steps) :
    Listing used' names := by
  obtain ⟨uses, hmem, horder, hnames⟩ := h
  exact ⟨uses, fun use ↦ (hmem use).trans (heq use.1 use.2), horder, hnames⟩

theorem append (h : Listing used names) (h' : Listing used' names')
    (hbefore : ∀ name steps name' steps', used name steps → used' name' steps' →
      Precedes steps steps') :
    Listing (fun name steps ↦ used name steps ∨ used' name steps) (names ++ names') := by
  obtain ⟨uses, hmem, horder, rfl⟩ := h
  obtain ⟨uses', hmem', horder', rfl⟩ := h'
  refine ⟨uses ++ uses', fun use ↦ ?_, ?_, List.map_append⟩
  · rw [List.mem_append, hmem, hmem']
  · refine List.pairwise_append.mpr ⟨horder, horder', fun use huse later hlater ↦ ?_⟩
    exact hbefore _ _ _ _ ((hmem use).mp huse) ((hmem' later).mp hlater)

/-- What is found behind one step. -/
theorem cons (h : Listing used names) (s : Step) :
    Listing (fun name steps ↦ ∃ tail, steps = s :: tail ∧ used name tail) names := by
  obtain ⟨uses, hmem, horder, rfl⟩ := h
  refine ⟨uses.map fun use ↦ (use.1, s :: use.2), fun use ↦ ?_, ?_, ?_⟩
  · obtain ⟨name, steps⟩ := use
    simp only [List.mem_map, Prod.exists, Prod.mk.injEq]
    constructor
    · rintro ⟨name, tail, huse, rfl, rfl⟩
      exact ⟨tail, rfl, (hmem _).mp huse⟩
    · rintro ⟨tail, rfl, huse⟩
      exact ⟨name, tail, (hmem (name, tail)).mpr huse, rfl, rfl⟩
  · exact List.pairwise_map.mpr (horder.imp List.Lex.cons)
  · rw [List.map_map]
    rfl

theorem nil : Listing (fun _ _ ↦ False) [] :=
  ⟨[], fun _ ↦ by simp, .nil, rfl⟩

/-- What is found behind several steps, each before the next. -/
theorem flatMap {ι : Type} {as : List ι} {step : ι → Step} {used : ι → String → List Step → Prop}
    {names : ι → List String} (h : ∀ a ∈ as, Listing (used a) (names a))
    (horder : as.Pairwise fun a b ↦ (step a).Before (step b)) :
    Listing (fun name steps ↦ ∃ a ∈ as, ∃ tail, steps = step a :: tail ∧ used a name tail)
      (as.flatMap names) := by
  induction as with
  | nil => exact nil.congr fun name steps ↦ by simp
  | cons a as ih =>
    obtain ⟨ha, h⟩ := List.forall_mem_cons.mp h
    obtain ⟨hfirst, horder⟩ := List.pairwise_cons.mp horder
    refine ((ha.cons (step a)).append (ih h horder) ?_).congr fun name steps ↦ ?_
    · rintro name _ name' _ ⟨tail, rfl, -⟩ ⟨b, hb, tail', rfl, -⟩
      exact .rel (hfirst b hb)
    · simp only [List.mem_cons, exists_eq_or_imp]

/-- **Without repeats, names stand in the order of first use**: in front of a name is used another
one that stands in front of it. -/
theorem pairwise_eraseDups (h : Listing used names) :
    names.eraseDups.Pairwise fun name later ↦
      ∃ steps, used name steps ∧ ∀ steps', used later steps' → Precedes steps steps' := by
  obtain ⟨uses, hmem, horder, rfl⟩ := h
  refine (pairwise_idxOf_eraseDups (uses.map Prod.fst)).imp_of_mem fun {name later} hname _ hlt ↦ ?_
  have hi := List.idxOf_lt_length_of_mem (List.mem_eraseDups.mp hname)
  have hi' := hi
  rw [List.length_map] at hi'
  have hfst : uses[(uses.map Prod.fst).idxOf name].1 = name := by
    have hget := List.getElem_idxOf hi
    rwa [List.getElem_map] at hget
  refine ⟨uses[(uses.map Prod.fst).idxOf name].2, ?_, fun steps' hlater ↦ ?_⟩
  · have huse := (hmem _).mp (List.getElem_mem hi')
    rwa [hfst] at huse
  · obtain ⟨j, hj, huse⟩ := List.getElem_of_mem ((hmem (later, steps')).mpr hlater)
    -- the first use of the later name is not behind this one
    have hle : (uses.map Prod.fst).idxOf later ≤ j := by
      by_contra hgt
      have hne := List.not_of_lt_findIdx (Nat.lt_of_not_le hgt)
      simp [huse] at hne
    have hlast := List.pairwise_iff_getElem.mp horder _ j hi' hj (by omega)
    rwa [huse] at hlast

end Listing

/-! ## The names that are collected -/

theorem symbolsOfItems_eq (vs : List Value) : symbolsOfItems vs = vs.flatMap symbols := by
  induction vs with
  | nil => rfl
  | cons v vs ih => rw [symbolsOfItems, ih, List.flatMap_cons]

theorem symbolsOfMembers_eq (ms : List (String × Value)) :
    symbolsOfMembers ms = ms.flatMap fun m ↦ symbols m.2 := by
  induction ms with
  | nil => rfl
  | cons m ms ih => rw [symbolsOfMembers, ih, List.flatMap_cons]

/-- The symbol that an object is itself. -/
theorem mem_ownSymbol_iff {name : String} {ms : List (String × Value)} :
    name ∈ ownSymbol ms ↔
      ms.lookup "type" = some (.string "SYMBOL") ∧ ms.lookup "name" = some (.string name) := by
  unfold ownSymbol
  split
  · rename_i htype hname
    simp [htype, hname, eq_comm]
  · rename_i hnot
    simp only [List.not_mem_nil, false_iff, not_and]
    exact fun htype hname ↦ hnot name htype hname

theorem ownSymbol_eq_nil_or (ms : List (String × Value)) :
    ownSymbol ms = [] ∨ ∃ name, ownSymbol ms = [name] := by
  unfold ownSymbol
  split
  · exact .inr ⟨_, rfl⟩
  · exact .inl rfl

theorem sorted_eq_string_iff {v : Value} {s : String} : v.sorted = .string s ↔ v = .string s := by
  cases v <;> simp [Value.sorted]

theorem lookup_eq_string_iff {members : List (String × Value)} {k s : String} :
    (sortedMembers [] members).lookup k = some (.string s) ↔
      lastAt? k members = some (.string s) := by
  rw [lookup_eq_some_iff_mem (pairwise_sortedMembers .nil members), mem_sortedMembers_iff]
  simp [sorted_eq_string_iff]

/-- An object is a symbol in the document if it is one with its members sorted. -/
theorem usedAt_nil_iff {name : String} {members : List (String × Value)} :
    UsedAt name [] (.object members) ↔ name ∈ ownSymbol (sortedMembers [] members) := by
  rw [mem_ownSymbol_iff, lookup_eq_string_iff, lookup_eq_string_iff]
  constructor
  · rintro ⟨htype, hname⟩
    exact ⟨htype, hname⟩
  · rintro ⟨htype, hname⟩
    exact .here htype hname

/-- The name that an object refers to itself. -/
theorem listing_ownSymbol (members : List (String × Value)) :
    Listing (fun name steps ↦ steps = [] ∧ UsedAt name [] (.object members))
      (ownSymbol (sortedMembers [] members)) := by
  refine ⟨(ownSymbol (sortedMembers [] members)).map fun name ↦ (name, []), fun use ↦ ?_, ?_, ?_⟩
  · obtain ⟨name, steps⟩ := use
    simp only [List.mem_map, Prod.mk.injEq, ← usedAt_nil_iff]
    constructor
    · rintro ⟨_, huse, rfl, rfl⟩
      exact ⟨rfl, huse⟩
    · rintro ⟨rfl, huse⟩
      exact ⟨name, huse, rfl, rfl⟩
  · rcases ownSymbol_eq_nil_or (sortedMembers [] members) with hnone | ⟨name, hname⟩
    · rw [hnone]
      exact .nil
    · rw [hname]
      exact List.pairwise_singleton _ _
  · rw [List.map_map]
    exact List.map_id _

/-- The names that are collected from a list. -/
theorem listing_list {items : List Value}
    (h : ∀ v ∈ items, Listing (fun name steps ↦ UsedAt name steps v) (symbols v.sorted)) :
    Listing (fun name steps ↦ UsedAt name steps (.list items))
      (symbols (Value.list items).sorted) := by
  have hitems : ∀ p ∈ items.zipIdx,
      Listing (fun name steps ↦ UsedAt name steps p.1) (symbols p.1.sorted) :=
    fun p hp ↦ h p.1 (List.fst_mem_of_mem_zipIdx hp)
  have horder : items.zipIdx.Pairwise fun p q ↦ (Step.item p.2).Before (Step.item q.2) := by
    have hindices := List.pairwise_lt_range' (s := 0) (n := items.length)
    rw [← List.zipIdx_map_snd, List.pairwise_map] at hindices
    exact hindices.imp .item
  have hnames : symbols (Value.list items).sorted =
      items.zipIdx.flatMap fun p ↦ symbols p.1.sorted := by
    rw [← List.flatMap_map Prod.fst fun v : Value ↦ symbols v.sorted, List.zipIdx_map_fst,
      Value.sorted, symbols, symbolsOfItems_eq, sortedItems_eq, List.flatMap_map]
  rw [hnames]
  refine (Listing.flatMap hitems horder).congr fun name steps ↦ ?_
  constructor
  · rintro ⟨⟨v, i⟩, hp, tail, rfl, huse⟩
    exact .item (List.mk_mem_zipIdx_iff_getElem?.mp hp) huse
  · rintro (_ | ⟨hv, huse⟩)
    exact ⟨_, List.mk_mem_zipIdx_iff_getElem?.mpr hv, _, rfl, huse⟩

/-- The names that are collected from an object. -/
theorem listing_object {members : List (String × Value)}
    (h : ∀ m ∈ members, Listing (fun name steps ↦ UsedAt name steps m.2) (symbols m.2.sorted)) :
    Listing (fun name steps ↦ UsedAt name steps (.object members))
      (symbols (Value.object members).sorted) := by
  have hmembers : ∀ m ∈ sortedMembers [] members, Listing
      (fun name steps ↦ ∃ v, lastAt? m.1 members = some v ∧ UsedAt name steps v)
      (symbols m.2) := by
    rintro ⟨k, w⟩ hm
    obtain ⟨v, hv, rfl⟩ := mem_sortedMembers_iff.mp hm
    refine (h (k, v) (mem_of_lastAt? hv)).congr fun name steps ↦ ?_
    simp [hv]
  have horder : (sortedMembers [] members).Pairwise fun m m' ↦
      (Step.key m.1).Before (Step.key m'.1) :=
    (pairwise_sortedMembers .nil members).imp .key
  rw [Value.sorted, symbols, symbolsOfMembers_eq]
  have hwalk := Listing.flatMap hmembers horder
  refine ((listing_ownSymbol members).append hwalk ?_).congr fun name steps ↦ ?_
  · rintro name _ name' _ ⟨rfl, -⟩ ⟨m, -, tail, rfl, -⟩
    exact .nil
  · constructor
    · rintro (⟨rfl, huse⟩ | ⟨m, -, tail, rfl, v, hv, huse⟩)
      · exact huse
      · exact .entry hv huse
    · rintro (⟨htype, hname⟩ | _ | ⟨hv, huse⟩)
      · exact .inl ⟨rfl, .here htype hname⟩
      · exact .inr ⟨_, mem_sortedMembers_iff.mpr ⟨_, hv, rfl⟩, _, rfl, _, hv, huse⟩

mutual

/-- **The walk collects the names of all uses**, in the order of their places. -/
theorem listing_symbols : ∀ v : Value,
    Listing (fun name steps ↦ UsedAt name steps v) (symbols v.sorted)
  | .null | .bool _ | .number _ | .string _ =>
    Listing.nil.congr fun _ _ ↦ ⟨False.elim, fun h ↦ nomatch h⟩
  | .list items => listing_list (listing_items items)
  | .object members => listing_object (listing_members members)

theorem listing_items : ∀ items : List Value, ∀ v ∈ items,
    Listing (fun name steps ↦ UsedAt name steps v) (symbols v.sorted)
  | [] => by simp
  | v :: vs => List.forall_mem_cons.mpr ⟨listing_symbols v, listing_items vs⟩

theorem listing_members : ∀ members : List (String × Value), ∀ m ∈ members,
    Listing (fun name steps ↦ UsedAt name steps m.2) (symbols m.2.sorted)
  | [] => by simp
  | (_, v) :: ms => List.forall_mem_cons.mpr ⟨listing_symbols v, listing_members ms⟩

end

end Concord.GrammarDocument
