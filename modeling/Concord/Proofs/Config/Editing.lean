import Concord.Config.Setting
import Concord.Proofs.Json.Assembly

/-!
# Editing configurations

Putting a value at a key path edits one entry of a table after the other, and leaves all others as
they are.  So two edits can be made in either order if their key paths part: the tables that come
out differ at most in the order of their entries.

* `Value.edit` — changes the entry at one key.  `setEntry` and `changeEntry` are such edits.
* `Value.Same` — two values are the same but for the order of entries.
* `Value.same_setAt` — an edit keeps this.
* `Value.setAt_comm` — edits at key paths that part can be made in either order.
-/

set_option autoImplicit false

namespace Concord.Config

open Json.Value (lookup_cons_eq_ite)

namespace Value

/-! ## Edits -/

section Entries

variable {key k : String} {v : Value} {es : List (String × Value)}

theorem lookup_putEntry (key k : String) (v : Value) (es : List (String × Value)) :
    (putEntry key v es).lookup k = if k = key then some v else es.lookup k := by
  induction es with
  | nil => rw [putEntry, lookup_cons_eq_ite]
  | cons e es ih =>
    obtain ⟨k', w⟩ := e
    rw [putEntry]
    split
    · rename_i hkey
      subst hkey
      by_cases hk : k = k' <;> simp [lookup_cons_eq_ite, hk]
    · rename_i hkey
      by_cases hk : k = k'
      · subst hk
        simp [hkey]
      · simp [lookup_cons_eq_ite, hk, ih]

theorem putEntry_putEntry (key : String) (v w : Value) (es : List (String × Value)) :
    putEntry key w (putEntry key v es) = putEntry key w es := by
  induction es with
  | nil => simp [putEntry]
  | cons e es ih =>
    obtain ⟨k, u⟩ := e
    by_cases hkey : k = key
    · simp [putEntry, hkey]
    · simp [putEntry, hkey, ih]

end Entries

/-- Changes the entry at a key.  What is no table gives way to one. -/
def edit (key : String) (g : Option Value → Value) : Value → Value
  | table origin es => table origin (putEntry key (g (es.lookup key)) es)
  | _ => table none [(key, g none)]

/-- What a value makes of the entry at which it is put: a table is put over it, and any other value
takes its place. -/
def merged (v : Value) (old : Option Value) : Value :=
  match v with
  | table _ incoming => setEntries (old.getD empty) incoming
  | v => v

theorem setEntry_eq_edit (key : String) (target v : Value) :
    setEntry key target v = edit key.toLower (merged v) target := by
  cases v <;> cases target <;> simp [setEntry, setEntry.withEntry, edit, merged, entries]

theorem changeEntry_eq_edit (key : String) (f : Value → Value) (v : Value) :
    changeEntry key f v = edit key.toLower (fun old ↦ f (old.getD nil)) v := by
  cases v <;> rfl

/-- A value is put at a place by an edit of the whole configuration. -/
theorem set_eq_edit (root : Value) (path : KeyPath) (v : Value) :
    root.set path v = edit path.name.toLower
      (if path.steps = [] then merged v else fun old ↦ setAt v path.steps (old.getD nil)) root := by
  obtain ⟨name, steps⟩ := path
  cases steps with
  | nil => exact setEntry_eq_edit name root v
  | cons step steps =>
    rw [set, setAt.eq_def]
    exact changeEntry_eq_edit name _ root

/-- An edit changes nothing but the entry at its key. -/
theorem lookup_edit (key k : String) (g : Option Value → Value) (v : Value) :
    (edit key g v).entries.lookup k =
      if k = key then some (g (v.entries.lookup key)) else v.entries.lookup k := by
  cases v with
  | table origin es => exact lookup_putEntry key k _ es
  | _ => exact lookup_cons_eq_ite k key _ []

theorem edit_edit (key : String) (g h : Option Value → Value) (v : Value) :
    edit key g (edit key h v) = edit key (fun old ↦ g (some (h old))) v := by
  cases v with
  | table origin es => simp [edit, lookup_putEntry, putEntry_putEntry]
  | _ => simp [edit, putEntry]

/-! ## The same but for order -/

/-- Two values are the same but for the order of the entries in tables. -/
inductive Same : Value → Value → Prop
  | refl (v : Value) : Same v v
  | list {origin : Option String} {vs ws : List Value} (hlength : vs.length = ws.length)
    (hitems : ∀ (n : Nat) (v w : Value), vs[n]? = some v → ws[n]? = some w → Same v w) :
    Same (list origin vs) (list origin ws)
  | table {origin : Option String} {es fs : List (String × Value)}
    (hkeys : ∀ k, (es.lookup k).isSome = (fs.lookup k).isSome)
    (hentries : ∀ (k : String) (v w : Value), es.lookup k = some v → fs.lookup k = some w →
      Same v w) :
    Same (table origin es) (table origin fs)

/-- The items of a list. -/
def items : Value → List Value
  | list _ vs => vs
  | _ => []

/-- The file that a table comes from. -/
def tableOrigin : Value → Option String
  | table origin _ => origin
  | _ => none

/-- The file that a list comes from. -/
def listOrigin : Value → Option String
  | list origin _ => origin
  | _ => none

section Same

variable {origin : Option String} {u v w : Value} {vs ws : List Value}
  {es fs : List (String × Value)} {old new : Option Value}

theorem rel_refl (old : Option Value) : Option.Rel Same old old := by
  cases old with
  | none => exact .none
  | some v => exact .some (.refl v)

theorem rel_iff : Option.Rel Same old new ↔ old.isSome = new.isSome ∧
    ∀ v w, old = some v → new = some w → Same v w := by
  constructor
  · rintro (h | _)
    · exact ⟨rfl, fun v w hv hw ↦ Option.some.inj hv ▸ Option.some.inj hw ▸ h⟩
    · exact ⟨rfl, fun v w hv ↦ nomatch hv⟩
  · rintro ⟨hsome, h⟩
    cases old <;> cases new
    · exact .none
    · contradiction
    · contradiction
    · exact .some (h _ _ rfl rfl)

theorem Same.of_lookup (h : ∀ k, Option.Rel Same (es.lookup k) (fs.lookup k)) :
    Same (.table origin es) (.table origin fs) :=
  .table (fun k ↦ (rel_iff.mp (h k)).1) fun k ↦ (rel_iff.mp (h k)).2

theorem Same.of_getElem? (h : ∀ n : Nat, Option.Rel Same vs[n]? ws[n]?) :
    Same (.list origin vs) (.list origin ws) := by
  refine .list ?_ fun n ↦ (rel_iff.mp (h n)).2
  have hle : ∀ n, vs.length ≤ n ↔ ws.length ≤ n := by
    intro n
    rw [← List.getElem?_eq_none_iff, ← List.getElem?_eq_none_iff, ← Option.not_isSome_iff_eq_none,
      ← Option.not_isSome_iff_eq_none, (rel_iff.mp (h n)).1]
  exact Nat.le_antisymm ((hle _).mpr (Nat.le_refl _)) ((hle _).mp (Nat.le_refl _))

theorem Same.lookup (h : Same v w) (k : String) :
    Option.Rel Same (v.entries.lookup k) (w.entries.lookup k) := by
  cases h with
  | refl => exact rel_refl _
  | list => exact .none
  | table hkeys hentries => exact rel_iff.mpr ⟨hkeys k, hentries k⟩

theorem Same.getElem? (h : Same v w) (n : Nat) : Option.Rel Same v.items[n]? w.items[n]? := by
  cases h with
  | refl => exact rel_refl _
  | table => exact .none
  | @list _ vs ws hlength hitems =>
    refine rel_iff.mpr ⟨?_, hitems n⟩
    show vs[n]?.isSome = ws[n]?.isSome
    rw [Bool.eq_iff_iff, isSome_getElem?, isSome_getElem?, hlength]

theorem Same.length_items (h : Same v w) : v.items.length = w.items.length := by
  cases h with
  | refl => rfl
  | table => rfl
  | list hlength => exact hlength

theorem Same.tableOrigin (h : Same v w) : v.tableOrigin = w.tableOrigin := by
  cases h <;> rfl

theorem Same.listOrigin (h : Same v w) : v.listOrigin = w.listOrigin := by
  cases h <;> rfl

theorem Same.trans (h : Same u v) (h' : Same v w) : Same u w := by
  induction h generalizing w with
  | refl => exact h'
  | @list origin us vs hlength hitems ih =>
    cases h' with
    | refl => exact .list hlength hitems
    | @list _ _ ws hlength' hitems' =>
      refine .list (hlength.trans hlength') fun n u w hu hw ↦ ?_
      have hn : n < vs.length := hlength ▸ (List.getElem?_eq_some_iff.mp hu).1
      exact ih n u vs[n] hu (List.getElem?_eq_getElem hn)
        (hitems' n vs[n] w (List.getElem?_eq_getElem hn) hw)
  | @table origin es fs hkeys hentries ih =>
    cases h' with
    | refl => exact .table hkeys hentries
    | table hkeys' hentries' =>
      refine .table (fun k ↦ (hkeys k).trans (hkeys' k)) fun k u w hu hw ↦ ?_
      obtain ⟨v, hv⟩ := Option.isSome_iff_exists.mp ((hkeys k).symm.trans (by rw [hu]; rfl))
      exact ih k u v hu hv (hentries' k v w hv hw)

theorem same_getD {absent : Value} (h : Option.Rel Same old new) :
    Same (old.getD absent) (new.getD absent) := by
  cases h with
  | none => exact .refl _
  | some h => exact h

end Same

/-! ## Edits of what is the same -/

section Edit

variable {v w : Value} {key : String} {g g' : Option Value → Value}

/-- The table that an edit comes to. -/
theorem exists_edit_eq (key : String) (g : Option Value → Value) (v : Value) :
    ∃ es, edit key g v = table v.tableOrigin es ∧
      ∀ k, es.lookup k = if k = key then some (g (v.entries.lookup key))
        else v.entries.lookup k := by
  refine ⟨(edit key g v).entries, ?_, fun k ↦ lookup_edit key k g v⟩
  cases v <;> rfl

/-- Edits that do the same keep what is the same. -/
theorem same_edit (hg : ∀ old new, Option.Rel Same old new → Same (g old) (g' new))
    (h : Same v w) : Same (edit key g v) (edit key g' w) := by
  obtain ⟨es, hes, hlookup⟩ := exists_edit_eq key g v
  obtain ⟨fs, hfs, hlookup'⟩ := exists_edit_eq key g' w
  rw [hes, hfs, h.tableOrigin]
  refine .of_lookup fun k ↦ ?_
  rw [hlookup, hlookup']
  split
  · exact .some (hg _ _ (h.lookup key))
  · exact h.lookup k

/-- **Edits at two keys** can be made in either order. -/
theorem edit_comm {k : String} (hne : key ≠ k) (g g' : Option Value → Value) (v : Value) :
    Same (edit key g (edit k g' v)) (edit k g' (edit key g v)) := by
  have horigin (key : String) (g : Option Value → Value) (v : Value) :
      (edit key g v).tableOrigin = v.tableOrigin := by
    cases v <;> rfl
  obtain ⟨es, hes, hlookup⟩ := exists_edit_eq key g (edit k g' v)
  obtain ⟨fs, hfs, hlookup'⟩ := exists_edit_eq k g' (edit key g v)
  rw [hes, hfs, horigin, horigin]
  refine .of_lookup fun k' ↦ ?_
  rw [hlookup, hlookup', lookup_edit, lookup_edit, lookup_edit, lookup_edit, if_neg hne,
    if_neg hne.symm]
  by_cases hkey : k' = key
  · rw [if_pos hkey, if_neg (hkey ▸ hne), if_pos hkey]
    exact rel_refl _
  · rw [if_neg hkey, if_neg hkey]
    exact rel_refl _

end Edit

mutual

/-- Putting a value at a key keeps what is the same. -/
theorem same_setEntry : ∀ (v : Value) (key : String) {t t' : Value}, Same t t' →
    Same (setEntry key t v) (setEntry key t' v)
  | .table _ incoming, key, t, t', h => by
    rw [setEntry_eq_edit, setEntry_eq_edit]
    exact same_edit (fun old new hold ↦ same_setEntries incoming (same_getD hold)) h
  | .nil, key, t, t', h | .boolean _, key, t, t', h | .integer _, key, t, t', h
  | .float _, key, t, t', h | .string _, key, t, t', h | .list _ _, key, t, t', h => by
    rw [setEntry_eq_edit, setEntry_eq_edit]
    exact same_edit (fun _ _ _ ↦ .refl _) h

theorem same_setEntries : ∀ (es : List (String × Value)) {t t' : Value}, Same t t' →
    Same (setEntries t es) (setEntries t' es)
  | [], _, _, h => h
  | (key, v) :: es, _, _, h => same_setEntries es (same_setEntry v key h)

end

/-! ## Edits of items -/

section Items

variable {v w : Value} {index : Int} {f f' : Value → Value}

/-- A list that is filled up to a place, and changed there. -/
theorem getElem?_modify_fill (us : List Value) (i : Nat) (f : Value → Value) (n : Nat) :
    ((us ++ List.replicate (i + 1 - us.length) nil).modify i f)[n]? =
      if n = i then some (f (us[n]?.getD nil))
      else if n < i then some (us[n]?.getD nil)
      else us[n]? := by
  rw [List.getElem?_modify, List.getElem?_append, List.getElem?_replicate]
  by_cases hn : n < us.length
  · by_cases hi : n = i
    · simp [hn, hi.symm]
    · by_cases hlt : n < i <;> simp [hn, hi, Ne.symm hi, hlt]
  · by_cases hi : n = i
    · have hfilled : n - us.length < n + 1 - us.length := by omega
      simp [hn, hi.symm, hfilled]
    · by_cases hlt : n < i
      · have hfilled : n - us.length < i + 1 - us.length := by omega
        simp [hn, hi, Ne.symm hi, hlt, hfilled]
      · have hbehind : ¬ n - us.length < i + 1 - us.length := by omega
        simp [hn, hi, Ne.symm hi, hlt, hbehind]

/-- The list that a change of an item comes to. -/
theorem exists_changeItem_eq (index : Int) (f : Value → Value) (v : Value) :
    ∃ vs, changeItem index f v = list v.listOrigin vs ∧
      vs.length = max v.items.length (place index v.items.length + 1) ∧
      ∀ n : Nat, vs[n]? =
        if n = place index v.items.length then some (f (v.items[n]?.getD nil))
        else if n < place index v.items.length then some (v.items[n]?.getD nil)
        else v.items[n]? := by
  refine ⟨(v.items ++ List.replicate (place index v.items.length + 1 - v.items.length) nil).modify
    (place index v.items.length) f, ?_, ?_, fun n ↦ getElem?_modify_fill _ _ f n⟩
  · cases v <;> rfl
  · rw [List.length_modify, List.length_append, List.length_replicate]
    omega

/-- Changes that do the same keep what is the same. -/
theorem same_changeItem (hf : ∀ v w, Same v w → Same (f v) (f' w)) (h : Same v w) :
    Same (changeItem index f v) (changeItem index f' w) := by
  obtain ⟨vs, hvs, -, hget⟩ := exists_changeItem_eq index f v
  obtain ⟨ws, hws, -, hget'⟩ := exists_changeItem_eq index f' w
  rw [hvs, hws, h.listOrigin]
  refine .of_getElem? fun n ↦ ?_
  rw [hget, hget', h.length_items]
  split
  · exact .some (hf _ _ (same_getD (h.getElem? n)))
  · split
    · exact .some (same_getD (h.getElem? n))
    · exact h.getElem? n

/-- Two changes of one item. -/
theorem changeItem_changeItem (index : Int) (f f' : Value → Value) (v : Value) :
    changeItem index f (changeItem index f' v) = changeItem index (fun u ↦ f (f' u)) v := by
  obtain ⟨us, hus, hlength, hget⟩ := exists_changeItem_eq index f' v
  obtain ⟨vs, hvs, -, hget'⟩ := exists_changeItem_eq index f (list v.listOrigin us)
  obtain ⟨ws, hws, -, hget''⟩ := exists_changeItem_eq index (fun u ↦ f (f' u)) v
  rw [hus, hvs, hws]
  have hplace : place index us.length = place index v.items.length := by
    rw [hlength]
    unfold place
    split <;> omega
  refine congrArg _ (List.ext_getElem? fun n ↦ ?_)
  rw [hget', hget'', items, hplace, hget]
  split
  · rfl
  · split
    · rfl
    · rfl

/-- **Changes of two items** that are counted from the front can be made in either order. -/
theorem changeItem_comm {other : Int} (hindex : 0 ≤ index) (hother : 0 ≤ other)
    (hne : index ≠ other) (f f' : Value → Value) (v : Value) :
    changeItem index f (changeItem other f' v) = changeItem other f' (changeItem index f v) := by
  obtain ⟨us, hus, -, hget⟩ := exists_changeItem_eq other f' v
  obtain ⟨vs, hvs, -, hget'⟩ := exists_changeItem_eq index f (list v.listOrigin us)
  obtain ⟨us', hus', -, hget₁⟩ := exists_changeItem_eq index f v
  obtain ⟨vs', hvs', -, hget₂⟩ := exists_changeItem_eq other f' (list v.listOrigin us')
  rw [hus, hvs, hus', hvs']
  have hplace {i : Int} (hi : 0 ≤ i) (length : Nat) : place i length = i.toNat := if_pos hi
  have htoNat : index.toNat ≠ other.toNat := by omega
  refine congrArg _ (List.ext_getElem? fun n ↦ ?_)
  rw [hget', hget₂, items, items, hget, hget₁]
  simp only [hplace hindex, hplace hother]
  by_cases hi : n = index.toNat
  · have hn : n ≠ other.toNat := hi ▸ htoNat
    by_cases hlt : n < other.toNat <;> simp [hi.symm, hn, hlt]
  · by_cases hj : n = other.toNat
    · by_cases hlt : n < index.toNat <;> simp [hj.symm, hi, hlt]
    · by_cases hlt : n < index.toNat <;> by_cases hlt' : n < other.toNat <;>
        simp [hi, hj, hlt, hlt']

end Items

/-! ## Edits at key paths -/

/-- Two ways part: at some step they go on to entries with different keys, or to different items
that are counted from the front.  So neither of them leads into the place of the other. -/
def Parted : List Step → List Step → Prop
  | .entry key :: steps, .entry key' :: steps' =>
    key.toLower ≠ key'.toLower ∨ Parted steps steps'
  | .item index :: steps, .item index' :: steps' =>
    index ≠ index' ∧ 0 ≤ index ∧ 0 ≤ index' ∨ index = index' ∧ Parted steps steps'
  | _, _ => False

theorem Parted.symm : ∀ {steps steps' : List Step}, Parted steps steps' → Parted steps' steps
  | .entry _ :: _, .entry _ :: _, h => h.imp Ne.symm symm
  | .item _ :: _, .item _ :: _, h =>
    h.imp (fun ⟨hne, hi, hj⟩ ↦ ⟨hne.symm, hj, hi⟩) fun ⟨heq, h⟩ ↦ ⟨heq.symm, h.symm⟩

theorem Parted.ne_nil {steps steps' : List Step} (h : Parted steps steps') : steps ≠ [] := by
  rintro rfl
  exact h

/-- An edit at a way keeps what is the same. -/
theorem same_setAt (x : Value) (steps : List Step) {v w : Value} (h : Same v w) :
    Same (setAt x steps v) (setAt x steps w) := by
  induction steps generalizing v w with
  | nil => exact .refl x
  | cons step steps ih =>
    cases step with
    | item index => exact same_changeItem (fun _ _ ↦ ih) h
    | entry key =>
      cases steps with
      | nil => exact same_setEntry x key h
      | cons step steps =>
        rw [setAt.eq_def, setAt.eq_def]
        dsimp only
        rw [changeEntry_eq_edit, changeEntry_eq_edit]
        exact same_edit (fun _ _ hold ↦ ih (same_getD hold)) h

theorem setAt_entry_of_ne_nil {steps : List Step} (h : steps ≠ []) (x : Value) (key : String)
    (v : Value) :
    setAt x (.entry key :: steps) v =
      edit key.toLower (fun old ↦ setAt x steps (old.getD nil)) v := by
  cases steps with
  | nil => contradiction
  | cons step steps =>
    rw [setAt.eq_def]
    exact changeEntry_eq_edit key _ v

theorem exists_setAt_entry (x : Value) (key : String) (steps : List Step) :
    ∃ g, ∀ v, setAt x (.entry key :: steps) v = edit key.toLower g v := by
  cases steps with
  | nil => exact ⟨_, fun v ↦ setEntry_eq_edit key v x⟩
  | cons step steps => exact ⟨_, setAt_entry_of_ne_nil (List.cons_ne_nil step steps) x key⟩

/-- **Edits at ways that part** can be made in either order. -/
theorem setAt_comm (x y : Value) : ∀ {steps steps' : List Step}, Parted steps steps' →
    ∀ v, Same (setAt x steps (setAt y steps' v)) (setAt y steps' (setAt x steps v))
  | .entry key :: steps, .entry key' :: steps', h, v => by
    by_cases hkey : key.toLower = key'.toLower
    · have hsteps : Parted steps steps' := h.resolve_left (not_not_intro hkey)
      rw [setAt_entry_of_ne_nil hsteps.ne_nil, setAt_entry_of_ne_nil hsteps.ne_nil,
        setAt_entry_of_ne_nil hsteps.symm.ne_nil, setAt_entry_of_ne_nil hsteps.symm.ne_nil,
        hkey, edit_edit, edit_edit]
      refine same_edit (fun old new hold ↦ ?_) (.refl v)
      exact (setAt_comm x y hsteps (old.getD nil)).trans
        (same_setAt y steps' (same_setAt x steps (same_getD hold)))
    · obtain ⟨g, hg⟩ := exists_setAt_entry x key steps
      obtain ⟨g', hg'⟩ := exists_setAt_entry y key' steps'
      rw [hg, hg', hg, hg']
      exact edit_comm hkey g g' v
  | .item index :: steps, .item index' :: steps', h, v => by
    rw [setAt, setAt, setAt, setAt]
    rcases h with ⟨hne, hindex, hindex'⟩ | ⟨rfl, hsteps⟩
    · rw [changeItem_comm hindex hindex' hne]
      exact .refl _
    · rw [changeItem_changeItem, changeItem_changeItem]
      refine same_changeItem (fun u u' hu ↦ ?_) (.refl v)
      exact (setAt_comm x y hsteps u).trans (same_setAt y steps' (same_setAt x steps hu))

end Value

end Concord.Config
