import Mathlib.Data.List.Forall2
import Mathlib.Data.List.Nodup
import Mathlib.Data.List.Perm.Basic
import Concord.Config.Layer
import Concord.Proofs.Config.Editing
import Concord.Proofs.Json.Sorting

/-!
# Documents and settings among layers

What is built from layers does not depend on how documents and settings follow one another: only the
order of the documents counts, and of the settings the last one for each key path.

* `ofValue_eq_of_same` — the order of entries makes no difference to the configuration that is read.
* `lastOf? path ss` — the last of the values that are set at a key path.
* `same_applySettings` — settings at key paths that part can be put in any order.
* `build_eq_of_lastOf` — layers with the same documents in order and the same last settings build
  the same.
-/

set_option autoImplicit false

namespace Concord.Config

open Value (Same Parted)

/-! ## Reading what is the same -/

namespace Value

variable {v w : Value}

theorem toJsonItems_eq (vs : List Value) : toJsonItems vs = vs.map toJson := by
  induction vs with
  | nil => rfl
  | cons v vs ih => rw [toJsonItems, ih, List.map_cons]

theorem lookup_toJsonEntries (es : List (String × Value)) (k : String) :
    (toJsonEntries es).lookup k = (es.lookup k).map toJson := by
  induction es with
  | nil => rfl
  | cons e es ih =>
    obtain ⟨key, v⟩ := e
    rw [toJsonEntries, Json.Value.lookup_putMember, Json.Value.lookup_cons_eq_ite, ih]
    split <;> rfl

/-- The keys of entries increase in JSON. -/
theorem pairwise_toJsonEntries (es : List (String × Value)) :
    (toJsonEntries es).Pairwise (·.1 < ·.1) := by
  induction es with
  | nil => exact .nil
  | cons e es ih => exact Json.Value.pairwise_putMember ih e.1 e.2.toJson

/-- The order of entries does not show in JSON. -/
theorem Same.toJson (h : Same v w) : v.toJson = w.toJson := by
  induction h with
  | refl => rfl
  | @list origin vs ws hlength hitems ih =>
    rw [Value.toJson, Value.toJson, toJsonItems_eq, toJsonItems_eq]
    refine congrArg _ (List.ext_getElem (by simpa using hlength) fun n hn hn' ↦ ?_)
    rw [List.getElem_map, List.getElem_map]
    exact ih n _ _ (List.getElem?_eq_getElem (by simpa using hn))
      (List.getElem?_eq_getElem (by simpa using hn'))
  | @table origin es fs hkeys hentries ih =>
    rw [Value.toJson, Value.toJson]
    refine congrArg _ (Json.Value.eq_of_lookup_eq (pairwise_toJsonEntries es)
      (pairwise_toJsonEntries fs) fun k ↦ ?_)
    rw [lookup_toJsonEntries, lookup_toJsonEntries]
    cases hes : es.lookup k with
    | none =>
      have hfs : fs.lookup k = none := by simpa [hes] using hkeys k
      rw [hfs]
    | some v =>
      obtain ⟨w, hfs⟩ := Option.isSome_iff_exists.mp ((hkeys k).symm.trans (by rw [hes]; rfl))
      rw [hfs, Option.map_some, Option.map_some, ih k v w hes hfs]

theorem Same.forall₂_items (h : Same v w) : List.Forall₂ Same v.items w.items := by
  refine List.forall₂_iff_get.mpr ⟨h.length_items, fun n hn hn' ↦ ?_⟩
  have hget := h.getElem? n
  rw [List.getElem?_eq_getElem hn, List.getElem?_eq_getElem hn'] at hget
  cases hget with
  | some h => exact h

end Value

section Reading

variable {α : Type} {v w : Value} {read : Value → Except Fault α}

theorem field_eq_of_same (hread : ∀ v w, Same v w → read v = read w) (h : Same v w) (key : String)
    (absent : Except Fault α) :
    field v.entries key read absent = field w.entries key read absent := by
  have hrel := h.lookup key
  unfold field
  generalize v.entries.lookup key = old, w.entries.lookup key = new at hrel
  cases hrel with
  | none => rfl
  | some h => exact congrArg (Except.mapError (Fault.under key)) (hread _ _ h)

theorem item_eq_of_same (hread : ∀ v w, Same v w → read v = read w) (h : Same v w) (index : Nat)
    (absent : Except Fault α) :
    item v.items index read absent = item w.items index read absent := by
  have hrel := h.getElem? index
  unfold item
  generalize v.items[index]? = old, w.items[index]? = new at hrel
  cases hrel with
  | none => rfl
  | some h => exact congrArg (Except.mapError (Fault.underItem index)) (hread _ _ h)

theorem readText_eq_of_same (h : Same v w) : readText v = readText w := by
  cases h <;> rfl

theorem readOptionalText_eq_of_same (h : Same v w) : readOptionalText v = readOptionalText w := by
  cases h <;> rfl

/-- What is read from the items of lists. -/
theorem readList_bind_eq_of_same {next : List Value → Except Fault α}
    (hnext : ∀ vs ws, List.Forall₂ Same vs ws → next vs = next ws) (h : Same v w) :
    readList v >>= next = readList w >>= next := by
  have hitems := h.forall₂_items
  have hshape : v.shape = w.shape := congrArg Json.Value.shape h.toJson
  cases h with
  | refl => rfl
  | list => exact hnext _ _ hitems
  | table =>
    unfold readList
    dsimp only
    rw [hshape]

theorem mapM_eq_of_same {vs ws : List Value} (hread : ∀ v w, Same v w → read v = read w)
    (h : List.Forall₂ Same vs ws) : vs.mapM read = ws.mapM read := by
  induction h with
  | nil => rfl
  | cons hvw _ ih => rw [List.mapM_cons, List.mapM_cons, hread _ _ hvw, ih]

theorem readChecks_eq_of_same (h : Same v w) : readChecks v = readChecks w := by
  refine readList_bind_eq_of_same (fun vs ws hvs ↦ mapM_eq_of_same (fun v w h ↦ ?_) hvs) h
  rw [h.toJson]

theorem some_readText_eq_of_same (v w : Value) (h : Same v w) :
    some <$> readText v = some <$> readText w := by
  rw [readText_eq_of_same h]

theorem readPaths_eq_of_same (h : Same v w) : readPaths v = readPaths w := by
  have hgiven := field_eq_of_same some_readText_eq_of_same h
  have hfield := field_eq_of_same (fun _ _ ↦ readText_eq_of_same) h
  have hitem := item_eq_of_same (fun _ _ ↦ readText_eq_of_same) h
  cases h with
  | refl => rfl
  | list =>
    simp only [Value.items] at hitem
    rw [readPaths, readPaths]
    simp only [hitem]
  | table =>
    simp only [Value.entries] at hfield hgiven
    rw [readPaths, readPaths]
    simp only [hfield, hgiven]

theorem readCategory_eq_of_same (h : Same v w) : readCategory v = readCategory w := by
  have hgiven := field_eq_of_same some_readText_eq_of_same h
  have hdescription := field_eq_of_same (fun _ _ ↦ readOptionalText_eq_of_same) h
  have hchecks := field_eq_of_same (fun _ _ ↦ readChecks_eq_of_same) h
  have hitem := item_eq_of_same (fun _ _ ↦ readText_eq_of_same) h
  have hitem' := item_eq_of_same (fun _ _ ↦ readOptionalText_eq_of_same) h
  have hitem'' := item_eq_of_same (fun _ _ ↦ readChecks_eq_of_same) h
  cases h with
  | refl => rfl
  | list =>
    simp only [Value.items] at hitem hitem' hitem''
    rw [readCategory, readCategory]
    simp only [hitem, hitem', hitem'']
  | table =>
    simp only [Value.entries] at hgiven hdescription hchecks
    rw [readCategory, readCategory]
    simp only [hgiven, hdescription, hchecks]

theorem readCategoriesFrom_eq_of_same {vs ws : List Value} (h : List.Forall₂ Same vs ws) (i : Nat) :
    readCategoriesFrom i vs = readCategoriesFrom i ws := by
  induction h generalizing i with
  | nil => rfl
  | cons hvw _ ih =>
    rw [readCategoriesFrom, readCategoriesFrom, readCategory_eq_of_same hvw]
    simp only [ih]

theorem readCategories_eq_of_same (h : Same v w) : readCategories v = readCategories w :=
  readList_bind_eq_of_same (fun _ _ hvs ↦ readCategoriesFrom_eq_of_same hvs 0) h

/-- **The order of entries** makes no difference to a configuration. -/
theorem ofValue_eq_of_same (h : Same v w) : ofValue v = ofValue w := by
  have hpaths := field_eq_of_same (fun _ _ h ↦ congrArg (some <$> ·) (readPaths_eq_of_same h)) h
  have hcategories := field_eq_of_same (fun _ _ ↦ readCategories_eq_of_same) h
  simp only [ofValue, hpaths, hcategories]

end Reading

/-! ## Settings -/

/-- The last of the values that are set at a key path. -/
def lastOf? (path : KeyPath) (ss : List (KeyPath × Value)) : Option Value := ss.reverse.lookup path

/-- Two key paths part, so that neither leads into the place of the other. -/
def KeyPath.Apart (p q : KeyPath) : Prop :=
  Parted (.entry p.name :: p.steps) (.entry q.name :: q.steps)

section Settings

variable {ss ss' : List (KeyPath × Value)} {root : Value}

theorem lastOf?_nil (path : KeyPath) : lastOf? path [] = none := rfl

theorem lastOf?_cons (path : KeyPath) (s : KeyPath × Value) (ss : List (KeyPath × Value)) :
    lastOf? path (s :: ss) = (lastOf? path ss).or (if path = s.1 then some s.2 else none) := by
  rw [lastOf?, List.reverse_cons, List.lookup_append, List.lookup_cons]
  by_cases hpath : path = s.1
  · simp [hpath, lastOf?]
  · simp [hpath, beq_false_of_ne hpath, lastOf?]

theorem lastOf?_eq_none_iff {path : KeyPath} : lastOf? path ss = none ↔ path ∉ ss.map Prod.fst := by
  induction ss with
  | nil => simp [lastOf?]
  | cons s ss ih =>
    rw [lastOf?_cons, Option.or_eq_none_iff, ih, List.map_cons, List.mem_cons, not_or, and_comm]
    simp

theorem lastSettings_cons (s : KeyPath × Value) (ss : List (KeyPath × Value)) :
    lastSettings (s :: ss) =
      if s.1 ∈ ss.map Prod.fst then lastSettings ss else s :: lastSettings ss := by
  have hany : ss.any (·.1 == s.1) = true ↔ s.1 ∈ ss.map Prod.fst := by simp
  rw [lastSettings]
  by_cases hs : s.1 ∈ ss.map Prod.fst
  · rw [if_pos (hany.mpr hs), if_pos hs]
  · rw [if_neg (hany.not.mpr hs), if_neg hs]

/-- What is kept of settings are the last values at their key paths. -/
theorem mem_lastSettings_iff {path : KeyPath} {v : Value} :
    (path, v) ∈ lastSettings ss ↔ lastOf? path ss = some v := by
  induction ss with
  | nil => simp [lastSettings, lastOf?]
  | cons s ss ih =>
    obtain ⟨p, w⟩ := s
    rw [lastSettings_cons, lastOf?_cons]
    by_cases hpath : path = p
    · subst hpath
      split
      · rename_i hmem
        cases hlast : lastOf? path ss with
        | none => exact absurd hmem (lastOf?_eq_none_iff.mp hlast)
        | some u => rw [ih, hlast, Option.some_or]
      · rename_i hmem
        have hlast : lastOf? path ss = none := lastOf?_eq_none_iff.mpr hmem
        simp [ih, hlast, eq_comm]
    · split <;> simp [ih, hpath]

theorem mem_of_mem_lastSettings {s : KeyPath × Value} (h : s ∈ lastSettings ss) :
    s.1 ∈ ss.map Prod.fst := by
  by_contra hnot
  have hlast : lastOf? s.1 ss = some s.2 := mem_lastSettings_iff.mp h
  rw [lastOf?_eq_none_iff.mpr hnot] at hlast
  contradiction

/-- No key path is kept twice. -/
theorem nodup_lastSettings (ss : List (KeyPath × Value)) :
    ((lastSettings ss).map Prod.fst).Nodup := by
  induction ss with
  | nil => exact List.nodup_nil
  | cons s ss ih =>
    rw [lastSettings_cons]
    split
    · exact ih
    · rename_i hmem
      refine List.nodup_cons.mpr ⟨fun hkept ↦ hmem ?_, ih⟩
      obtain ⟨t, ht, hkey⟩ := List.mem_map.mp hkept
      exact hkey ▸ mem_of_mem_lastSettings ht

/-- Settings with the same last values are the same up to order. -/
theorem perm_lastSettings (h : ∀ path, lastOf? path ss = lastOf? path ss') :
    (lastSettings ss).Perm (lastSettings ss') := by
  refine (List.perm_ext_iff_of_nodup (.of_map Prod.fst (nodup_lastSettings ss))
    (.of_map Prod.fst (nodup_lastSettings ss'))).mpr fun s ↦ ?_
  rw [mem_lastSettings_iff, mem_lastSettings_iff, h]

theorem same_applySettings (ss : List (KeyPath × Value)) {root root' : Value}
    (h : Same root root') : Same (applySettings root ss) (applySettings root' ss) := by
  induction ss generalizing root root' with
  | nil => exact h
  | cons s ss ih => exact ih (Value.same_setAt s.2 _ h)

/-- **Settings at key paths that part** can be put in any order. -/
theorem same_applySettings_of_perm (hperm : ss.Perm ss')
    (hapart : ss.Pairwise fun s t ↦ s.1.Apart t.1) (root : Value) :
    Same (applySettings root ss) (applySettings root ss') := by
  induction hperm generalizing root with
  | nil => exact .refl root
  | cons s hperm ih => exact ih (List.pairwise_cons.mp hapart).2 _
  | swap s t ss =>
    have hst : t.1.Apart s.1 := (List.pairwise_cons.mp hapart).1 s List.mem_cons_self
    exact same_applySettings ss (Value.setAt_comm s.2 t.2 hst.symm root)
  | trans hperm hperm' ih ih' =>
    have hapart' := (hperm.pairwise_iff fun h ↦ Value.Parted.symm h).mp hapart
    exact (ih hapart root).trans (ih' hapart' root)

end Settings

/-! ## Layers -/

/-- Whether a layer is a document. -/
def Layer.isDocument : Layer → Bool
  | .setting _ _ => false
  | _ => true

/-- The documents among layers. -/
def documents (ls : List Layer) : List Layer := ls.filter Layer.isDocument

/-- Settings do not show before all documents are there. -/
theorem applyLayers_documents (ls : List Layer) (root : Value) :
    applyLayers root (documents ls) = applyLayers root ls := by
  induction ls generalizing root with
  | nil => rfl
  | cons l ls ih =>
    cases l with
    | setting key v => exact ih root
    | text source =>
      simp only [documents, List.filter_cons, Layer.isDocument, if_true, applyLayers]
      exact congrArg _ (funext fun es ↦ ih _)
    | file path required =>
      simp only [documents, List.filter_cons, Layer.isDocument, if_true, applyLayers]
      refine congrArg _ (funext fun found ↦ ?_)
      cases found with
      | none =>
        cases required with
        | true => rfl
        | false => exact ih root
      | some found =>
        exact congrArg (ExceptT.mk (pure (documentEntries _ _)) >>= ·) (funext fun es ↦ ih _)

/-- What is built if all settings have key paths. -/
theorem build_eq {ls : List Layer} {ss : List (KeyPath × Value)} (h : settings ls = .ok ss)
    (first : Value) :
    build first ls = applyLayers first ls >>= fun root ↦
      ExceptT.mk (pure (ofValue (applySettings root (lastSettings ss)))) := by
  rw [build, h]
  rfl

/-- **Layers build the same** if they have the same documents in order and the same last settings,
and the key paths of the settings part. -/
theorem build_eq_of_lastOf {ls ls' : List Layer} {ss ss' : List (KeyPath × Value)}
    (hdocuments : documents ls = documents ls') (hss : settings ls = .ok ss)
    (hss' : settings ls' = .ok ss') (hlast : ∀ path, lastOf? path ss = lastOf? path ss')
    (hapart : ∀ p ∈ ss.map Prod.fst, ∀ q ∈ ss.map Prod.fst, p ≠ q → p.Apart q) (first : Value) :
    build first ls = build first ls' := by
  have hkept : (lastSettings ss).Pairwise fun s t ↦ s.1.Apart t.1 := by
    refine (List.pairwise_map.mp (nodup_lastSettings ss)).imp_of_mem fun {s t} hs ht hne ↦ ?_
    exact hapart _ (mem_of_mem_lastSettings hs) _ (mem_of_mem_lastSettings ht) hne
  have hread (root : Value) : ofValue (applySettings root (lastSettings ss)) =
      ofValue (applySettings root (lastSettings ss')) :=
    ofValue_eq_of_same (same_applySettings_of_perm (perm_lastSettings hlast) hkept root)
  rw [build_eq hss, build_eq hss', ← applyLayers_documents ls, hdocuments, applyLayers_documents]
  simp only [hread]

end Concord.Config
