import Concord.Proofs.Json.Assembly

/-!
# Sorted members

The members of an object are sorted by their keys, and of repeated keys the last one counts.

* `Value.lastAt?` — the last value at a key.
* `Value.pairwise_sortedMembers` — the keys of sorted members increase, so that none repeats.
* `Value.mem_sortedMembers_iff` — the sorted members are the last values at the keys of an object.
-/

set_option autoImplicit false

namespace Concord.Json.Value

/-- The last value at a key. -/
def lastAt? (k : String) (members : List (String × Value)) : Option Value :=
  members.reverse.lookup k

theorem lastAt?_nil (k : String) : lastAt? k [] = none := rfl

/-- A member counts if none with its key stands behind it. -/
theorem lastAt?_cons (k key : String) (v : Value) (ms : List (String × Value)) :
    lastAt? k ((key, v) :: ms) = (lastAt? k ms).or (if k = key then some v else none) := by
  rw [lastAt?, List.reverse_cons, List.lookup_append, lookup_cons_eq_ite]
  rfl

theorem lastAt?_concat (k key : String) (v : Value) (ms : List (String × Value)) :
    lastAt? k (ms ++ [(key, v)]) = if k = key then some v else lastAt? k ms := by
  rw [lastAt?, List.reverse_append, List.reverse_singleton, List.singleton_append,
    lookup_cons_eq_ite]
  rfl

theorem mem_of_lastAt? {k : String} {v : Value} {ms : List (String × Value)}
    (h : lastAt? k ms = some v) : (k, v) ∈ ms := by
  obtain ⟨front, back, heq, -⟩ := List.lookup_eq_some_iff.mp h
  rw [← List.mem_reverse, heq]
  exact List.mem_append_right front List.mem_cons_self

theorem lastAt?_eq_none_iff {k : String} {ms : List (String × Value)} :
    lastAt? k ms = none ↔ k ∉ ms.map Prod.fst := by
  rw [lastAt?, List.lookup_eq_none_iff]
  constructor
  · intro h hmem
    obtain ⟨m, hm, rfl⟩ := List.mem_map.mp hmem
    simpa using h m (List.mem_reverse.mpr hm)
  · intro h m hm
    have hne : k ≠ m.1 := fun heq ↦ h (heq ▸ List.mem_map_of_mem (List.mem_reverse.mp hm))
    simpa using hne

/-- What stands at a key that does not repeat is the last value there. -/
theorem lastAt?_of_count_le_one {ms : List (String × Value)} {k : String} {v : Value}
    (honce : (ms.map Prod.fst).count k ≤ 1) (hmem : (k, v) ∈ ms) : lastAt? k ms = some v := by
  induction ms with
  | nil => exact absurd hmem List.not_mem_nil
  | cons m ms ih =>
    obtain ⟨key, w⟩ := m
    rw [lastAt?_cons]
    rw [List.map_cons] at honce
    rcases List.mem_cons.mp hmem with heq | hmem
    · obtain ⟨rfl, rfl⟩ := Prod.mk.inj heq
      rw [List.count_cons_self] at honce
      have hnot : k ∉ ms.map Prod.fst := List.count_eq_zero.mp (by omega)
      rw [lastAt?_eq_none_iff.mpr hnot, if_pos rfl]
      rfl
    · rw [ih (Nat.le_trans List.count_le_count_cons honce) hmem]
      rfl

/-! ## The sort -/

theorem sortedItems_eq (vs : List Value) : sortedItems vs = vs.map sorted := by
  induction vs with
  | nil => rfl
  | cons v vs ih => rw [sortedItems, ih, List.map_cons]

theorem lookup_sortedMembers (before ms : List (String × Value)) (k : String) :
    (sortedMembers before ms).lookup k = ((lastAt? k ms).map sorted).or (before.lookup k) := by
  induction ms generalizing before with
  | nil => rw [sortedMembers, lastAt?_nil, Option.map_none, Option.none_or]
  | cons m ms ih =>
    obtain ⟨key, v⟩ := m
    rw [sortedMembers, ih, lookup_putMember, lastAt?_cons]
    cases lastAt? k ms with
    | some w => rfl
    | none => by_cases hk : k = key <;> simp [hk]

theorem lt_of_not_lt_of_ne {k key : String} (hlt : ¬ k < key) (hne : k ≠ key) : key < k :=
  String.not_le.mp fun hle ↦ hne (String.le_antisymm hle (String.not_lt.mp hlt))

theorem mem_putMember {key : String} {v : Value} {ms : List (String × Value)} {m : String × Value}
    (h : m ∈ putMember key v ms) : m = (key, v) ∨ m ∈ ms := by
  induction ms with
  | nil => exact .inl (List.mem_singleton.mp h)
  | cons e ms ih =>
    rw [putMember] at h
    split at h
    · rcases List.mem_cons.mp h with rfl | h
      · exact .inr List.mem_cons_self
      · exact (ih h).imp id (List.mem_cons_of_mem _)
    · split at h
      · exact (List.mem_cons.mp h).imp id (List.mem_cons_of_mem _)
      · exact List.mem_cons.mp h

/-- A member is put where the keys go on to increase. -/
theorem pairwise_putMember {ms : List (String × Value)} (h : ms.Pairwise (·.1 < ·.1))
    (key : String) (v : Value) : (putMember key v ms).Pairwise (·.1 < ·.1) := by
  induction ms with
  | nil => exact List.pairwise_singleton _ _
  | cons m ms ih =>
    obtain ⟨k, w⟩ := m
    obtain ⟨hfirst, hrest⟩ := List.pairwise_cons.mp h
    rw [putMember]
    split
    · rename_i hlt
      refine List.pairwise_cons.mpr ⟨fun m hm ↦ ?_, ih hrest⟩
      rcases mem_putMember hm with rfl | hm
      · exact hlt
      · exact hfirst m hm
    · rename_i hlt
      split
      · rename_i heq
        subst heq
        exact List.pairwise_cons.mpr ⟨hfirst, hrest⟩
      · rename_i hne
        have hkey := lt_of_not_lt_of_ne hlt hne
        refine List.pairwise_cons.mpr ⟨List.forall_mem_cons.mpr ⟨hkey, fun m hm ↦ ?_⟩, h⟩
        exact String.lt_trans hkey (hfirst m hm)

/-- **The keys of sorted members increase.** -/
theorem pairwise_sortedMembers {before : List (String × Value)} (h : before.Pairwise (·.1 < ·.1))
    (ms : List (String × Value)) : (sortedMembers before ms).Pairwise (·.1 < ·.1) := by
  induction ms generalizing before with
  | nil => exact h
  | cons m ms ih => exact ih (pairwise_putMember h m.1 m.2.sorted)

/-- What stands among members whose keys increase is found by its key. -/
theorem lookup_eq_some_iff_mem {ms : List (String × Value)} (h : ms.Pairwise (·.1 < ·.1))
    {k : String} {v : Value} : ms.lookup k = some v ↔ (k, v) ∈ ms := by
  induction ms with
  | nil => simp
  | cons m ms ih =>
    obtain ⟨key, w⟩ := m
    obtain ⟨hfirst, hrest⟩ := List.pairwise_cons.mp h
    rw [lookup_cons_eq_ite, List.mem_cons, Prod.mk.injEq]
    by_cases hk : k = key
    · have hnot : (k, v) ∉ ms := fun hmem ↦ String.lt_irrefl k (hk ▸ hfirst (k, v) hmem)
      simp [hk, eq_comm, hk ▸ hnot]
    · simp [hk, ih hrest]

/-- Members whose keys increase are those that are found by their keys. -/
theorem eq_of_lookup_eq {ms ns : List (String × Value)} (hms : ms.Pairwise (·.1 < ·.1))
    (hns : ns.Pairwise (·.1 < ·.1)) (h : ∀ k, ms.lookup k = ns.lookup k) : ms = ns := by
  have hnodup {ms : List (String × Value)} (h : ms.Pairwise (·.1 < ·.1)) : ms.Nodup := by
    refine h.imp ?_
    rintro m n hlt rfl
    exact String.lt_irrefl _ hlt
  have hperm : ms.Perm ns := (List.perm_ext_iff_of_nodup (hnodup hms) (hnodup hns)).mpr fun m ↦ by
    rw [← lookup_eq_some_iff_mem hms, ← lookup_eq_some_iff_mem hns, h]
  refine hperm.eq_of_pairwise (fun m n _ _ hlt hlt' ↦ ?_) hms hns
  exact absurd (String.lt_trans hlt hlt') (String.lt_irrefl _)

/-- **The sorted members** are the last values at the keys of an object, with their own members
sorted. -/
theorem mem_sortedMembers_iff {ms : List (String × Value)} {k : String} {w : Value} :
    (k, w) ∈ sortedMembers [] ms ↔ ∃ v, lastAt? k ms = some v ∧ v.sorted = w := by
  rw [← lookup_eq_some_iff_mem (pairwise_sortedMembers .nil ms), lookup_sortedMembers,
    List.lookup_nil, Option.or_none, Option.map_eq_some_iff]

end Concord.Json.Value
