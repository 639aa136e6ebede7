import Concord.Proofs.Check.Written
import Concord.Proofs.Config.Overrides
import Concord.Proofs.Toml.Keys

/-!
# What a configuration says

A configuration says where the artifacts are, and which categories there are.  A document or a
setting that is put over it changes what it speaks of, and nothing else.

* `Value.Gives root path categories` — what a configuration says, and that it is read so
  (`ofValue_of_gives`).
* `gives_defaults` — what is built in.
* `gives_applyDocument` — a project file that is put over a configuration, if it is `WellFormed`.
* `gives_applySettings` — flags that are put over a configuration.
-/

set_option autoImplicit false

namespace Concord

namespace Config

open Value (edit merged)

/-! ## What a configuration says -/

/-- The keys of the paths in a configuration. -/
def pathKeys : List String := ["root", "grammar", "highlights", "reference"]

/-- A configuration that says where the artifacts are, and which categories there are. -/
structure Value.Gives (root : Value) (path : String → String) (categories : List Category) :
    Prop where
  artifacts : ∃ origin es, root.entries.lookup "artifacts" = some (.table origin es) ∧
    ∀ key ∈ pathKeys, es.lookup key = some (.string (path key))
  categories : ∃ v, root.entries.lookup "categories" = some v ∧ readCategories v = .ok categories

section Gives

variable {root : Value} {path : String → String} {categories : List Category}

/-- Such a configuration is read as what it says. -/
theorem ofValue_of_gives (h : root.Gives path categories) :
    ofValue root =
      .ok ⟨⟨path "root", ⟨path "grammar", path "highlights", path "reference"⟩⟩, categories⟩ := by
  obtain ⟨⟨origin, es, hartifacts, hes⟩, v, hlookup, hread⟩ := h
  have hfield {α : Type} {key : String} (hkey : key ∈ pathKeys) (read : Value → Except Fault α)
      (absent : Except Fault α) :
      field es key read absent = (read (.string (path key))).mapError (.under key) := by
    rw [field, hes key hkey]
  have hpaths : readPaths (.table origin es) =
      .ok ⟨path "root", ⟨path "grammar", path "highlights", path "reference"⟩⟩ := by
    rw [readPaths]
    simp only [hfield (show "root" ∈ pathKeys by decide),
      hfield (show "grammar" ∈ pathKeys by decide), hfield (show "highlights" ∈ pathKeys by decide),
      hfield (show "reference" ∈ pathKeys by decide)]
    rfl
  rw [ofValue, field, hartifacts, field, hlookup]
  simp only [hpaths, hread]
  rfl

end Gives

/-! ## What is built in -/

section Defaults

open Json.Value (lookup_map_pair)

theorem toJson_ofCheck (c : Check) :
    ∃ ms, (Value.ofCheck c).toJson = .object ms ∧ c.StatedIn ms := by
  have hentries : Value.ofCheck c =
      .table none (c.names.map fun name ↦ (name, .string (c.text name))) := by
    cases c <;> rfl
  refine ⟨_, by rw [hentries]; rfl, fun name hname ↦ ?_⟩
  have hlookup := Value.lookup_toJsonEntries
    (c.names.map fun name ↦ (name, Value.string (c.text name))) name
  rw [lookup_map_pair (fun name ↦ Value.string (c.text name)) hname] at hlookup
  have hmem (v : Json.Value) := Json.Value.lookup_eq_some_iff_mem (k := name) (v := v)
    (Value.pairwise_toJsonEntries (c.names.map fun name ↦ (name, Value.string (c.text name))))
  refine ⟨(hmem _).mp hlookup, fun v hv ↦ ?_⟩
  exact (Option.some.inj (hlookup.symm.trans ((hmem v).mpr hv))).symm

theorem readChecks_ofCheck (cs : List Check) :
    readChecks (.list none (cs.map Value.ofCheck)) = .ok cs := by
  show (cs.map Value.ofCheck).mapM _ = _
  induction cs with
  | nil => rfl
  | cons c cs ih =>
    obtain ⟨ms, hms, hstated⟩ := toJson_ofCheck c
    rw [List.map_cons, List.mapM_cons, ih, hms, Check.ofJson_of_statedIn hstated]
    rfl

theorem readCategory_ofCategory (c : Category) : readCategory (Value.ofCategory c) = .ok c := by
  obtain ⟨name, description, checks⟩ := c
  have hread : readCategory (Value.ofCategory ⟨name, description, checks⟩) =
      ((readChecks (.list none (checks.map Value.ofCheck))).mapError (.under "checks")).map
        fun checks ↦ ⟨name, description, checks⟩ := by
    cases description <;> rfl
  rw [hread, readChecks_ofCheck]
  rfl

/-- Categories that are put in a configuration are read from it. -/
theorem readCategories_ofCategory (cs : List Category) :
    readCategories (.list none (cs.map Value.ofCategory)) = .ok cs := by
  have hfrom (i : Nat) : readCategoriesFrom i (cs.map Value.ofCategory) = .ok cs := by
    induction cs generalizing i with
    | nil => rfl
    | cons c cs ih =>
      rw [List.map_cons, readCategoriesFrom, readCategory_ofCategory, ih]
      rfl
  exact hfrom 0

/-- The paths that are built in. -/
def defaultPath : String → String
  | "root" => "."
  | "grammar" => "grammar.js"
  | "highlights" => "queries/highlights.scm"
  | _ => "../sight/client/syntaxes/stata.tmLanguage.json"

theorem gives_defaults : defaults.Gives defaultPath defaultCategories :=
  ⟨⟨none, pathKeys.map fun key ↦ (key, .string (defaultPath key)), rfl, fun _ ↦ lookup_map_pair _⟩,
    _, rfl, readCategories_ofCategory defaultCategories⟩

end Defaults

/-! ## What a document says -/

theorem toLower_eq_self {s : String} (h : s.toList.map Char.toLower = s.toList) :
    s.toLower = s := by
  have htoList : s.toLower.toList = s.toList.map Char.toLower := String.toList_map
  rw [← String.toList_inj, htoList, h]

section Lookup

variable {key : String} {root : Value}

theorem lookup_ofTomlEntries (origin : Option String) (es : List (String × Toml.Value))
    (key : String) :
    (Value.ofTomlEntries origin es).lookup key = (es.lookup key).map (Value.ofToml origin) := by
  induction es with
  | nil => rfl
  | cons e es ih =>
    obtain ⟨k, v⟩ := e
    rw [Value.ofTomlEntries, Json.Value.lookup_cons_eq_ite, Json.Value.lookup_cons_eq_ite, ih]
    split <;> rfl

theorem map_fst_ofTomlEntries (origin : Option String) (es : List (String × Toml.Value)) :
    (Value.ofTomlEntries origin es).map Prod.fst = es.map Prod.fst := by
  induction es with
  | nil => rfl
  | cons e es ih =>
    obtain ⟨k, v⟩ := e
    rw [Value.ofTomlEntries, List.map_cons, List.map_cons, ih]

/-- Entries with distinct keys that are put one after the other, where each of them changes only the
entry at its own key. -/
theorem lookup_foldl {step : Value → String × Value → Value} {es : List (String × Value)}
    (hstep : ∀ e ∈ es, ∀ t, (step t e).entries.lookup key =
      if e.1 = key then some (merged e.2 (t.entries.lookup key)) else t.entries.lookup key)
    (hkeys : (es.map Prod.fst).Nodup) (t : Value) :
    (es.foldl step t).entries.lookup key =
      ((es.lookup key).map fun v ↦ merged v (t.entries.lookup key)).or (t.entries.lookup key) := by
  induction es generalizing t with
  | nil => rfl
  | cons e es ih =>
    obtain ⟨k, v⟩ := e
    obtain ⟨hnew, hkeys⟩ := List.nodup_cons.mp hkeys
    obtain ⟨hfirst, hrest⟩ := List.forall_mem_cons.mp hstep
    rw [List.foldl_cons, ih hrest hkeys, hfirst, Json.Value.lookup_cons_eq_ite]
    by_cases hkey : k = key
    · subst hkey
      have hnone : es.lookup k = none := List.lookup_eq_none_iff.mpr fun e he ↦ by
        have hne : k ≠ e.1 := by
          rintro heq
          exact hnew (List.mem_map.mpr ⟨e, he, heq.symm⟩)
        simpa using hne
      simp [hnone]
    · simp [hkey, Ne.symm hkey]

theorem setEntries_eq_foldl (es : List (String × Value)) (t : Value) :
    Value.setEntries t es = es.foldl (fun t e ↦ Value.setEntry e.1 t e.2) t := by
  induction es generalizing t with
  | nil => rfl
  | cons e es ih => exact ih _

/-- An entry with a key in small letters that is put into a table. -/
theorem lookup_setEntry {e : String × Value} (hlower : e.1.toLower = e.1) (t : Value)
    (key : String) :
    (Value.setEntry e.1 t e.2).entries.lookup key =
      if e.1 = key then some (merged e.2 (t.entries.lookup key)) else t.entries.lookup key := by
  rw [Value.setEntry_eq_edit, Value.lookup_edit, hlower]
  by_cases hkey : e.1 = key
  · rw [if_pos hkey.symm, if_pos hkey, hkey]
  · rw [if_neg (Ne.symm hkey), if_neg hkey]

/-- Entries with distinct keys in small letters that are put into a table. -/
theorem lookup_setEntries {es : List (String × Value)} (hlower : ∀ e ∈ es, e.1.toLower = e.1)
    (hkeys : (es.map Prod.fst).Nodup) (t : Value) (key : String) :
    (Value.setEntries t es).entries.lookup key =
      ((es.lookup key).map fun v ↦ merged v (t.entries.lookup key)).or (t.entries.lookup key) := by
  rw [setEntries_eq_foldl]
  exact lookup_foldl (fun e he t ↦ lookup_setEntry (hlower e he) t key) hkeys t

/-- Entries of a document that are put into a table. -/
theorem lookup_setEntries_ofToml (origin : Option String) {es : List (String × Toml.Value)}
    (hlower : ∀ e ∈ es, e.1.toLower = e.1) (hkeys : (es.map Prod.fst).Nodup) (t : Value)
    (key : String) :
    (Value.setEntries t (Value.ofTomlEntries origin es)).entries.lookup key =
      ((es.lookup key).map fun v ↦ merged (.ofToml origin v) (t.entries.lookup key)).or
        (t.entries.lookup key) := by
  rw [lookup_setEntries, lookup_ofTomlEntries, Option.map_map]
  · rfl
  · intro e he
    obtain ⟨e', he', hname⟩ :=
      List.mem_map.mp (map_fst_ofTomlEntries origin es ▸ List.mem_map_of_mem he)
    exact hname ▸ hlower e' he'
  · rwa [map_fst_ofTomlEntries]

theorem exists_setEntries_eq_table (es : List (String × Value)) (t : Value)
    (ht : ∃ origin fs, t = .table origin fs) :
    ∃ origin fs, Value.setEntries t es = .table origin fs := by
  induction es generalizing t with
  | nil => exact ht
  | cons e es ih =>
    refine ih _ ?_
    obtain ⟨fs, hfs, -⟩ := Value.exists_edit_eq e.1.toLower (merged e.2) t
    exact ⟨_, fs, (Value.setEntry_eq_edit e.1 t e.2).trans hfs⟩

end Lookup

section Keys

/-- A key of a document does not lead into the entry at another key. -/
def Direct (key : String) (k : String) : Prop :=
  ∀ path, KeyPath.parse k = .ok path → path.steps ≠ [] → path.name.toLower ≠ key

theorem eq_nil_of_takeSteps {most : Nat} {cs : List Char} (h : KeyPath.takeSteps most cs = .ok []) :
    cs = [] ∨ most = 0 := by
  unfold KeyPath.takeSteps at h
  split at h
  · exact .inl rfl
  · exact .inr rfl
  · dsimp only at h
    split at h
    · contradiction
    · obtain ⟨steps, -, h⟩ := Json.bind_eq_ok_iff.mp h
      exact absurd (Except.ok.inj h) (List.cons_ne_nil _ _)
  · obtain ⟨found, -, h⟩ := Json.bind_eq_ok_iff.mp h
    obtain ⟨steps, -, h⟩ := Json.bind_eq_ok_iff.mp h
    exact absurd (Except.ok.inj h) (List.cons_ne_nil _ _)
  · contradiction

/-- A key path without steps is its name. -/
theorem name_eq_of_parse {k : String} {path : KeyPath} (h : KeyPath.parse k = .ok path)
    (hsteps : path.steps = []) : path.name = k := by
  unfold KeyPath.parse at h
  dsimp only at h
  split at h
  · contradiction
  · rename_i hname
    obtain ⟨steps, htake, h⟩ := Json.bind_eq_ok_iff.mp h
    obtain rfl := Except.ok.inj h
    obtain rfl : steps = [] := hsteps
    have hcs : k.toList.dropWhile KeyPath.isNameChar = [] := by
      rcases eq_nil_of_takeSteps htake with hrest | hlength
      · exact hrest
      · rw [List.length_eq_zero_iff.mp hlength]
        rfl
    have hwhole := List.takeWhile_append_dropWhile (p := KeyPath.isNameChar) (l := k.toList)
    rw [hcs, List.append_nil] at hwhole
    show String.ofList (k.toList.takeWhile KeyPath.isNameChar) = k
    rw [hwhole, String.ofList_toList]

/-- An entry of a document changes only the entry at its key. -/
theorem lookup_applyEntry {key : String} (hkey : KeyPath.parse key = .ok ⟨key, []⟩)
    {e : String × Value} (hlower : e.1.toLower = e.1) (hdirect : Direct key e.1) (root : Value) :
    (applyEntry root e).entries.lookup key =
      if e.1 = key then some (merged e.2 (root.entries.lookup key))
      else root.entries.lookup key := by
  have hplain : (root.set ⟨e.1, []⟩ e.2).entries.lookup key =
      if e.1 = key then some (merged e.2 (root.entries.lookup key))
      else root.entries.lookup key := lookup_setEntry hlower root key
  rw [applyEntry]
  split
  · rename_i path hparse
    by_cases hsteps : path.steps = []
    · have hpath : path = ⟨e.1, []⟩ := by
        obtain ⟨name, steps⟩ := path
        obtain rfl : steps = [] := hsteps
        rw [← name_eq_of_parse hparse rfl]
      rw [hpath, hplain]
    · have hname : path.name.toLower ≠ key := hdirect path hparse hsteps
      have hother : e.1 ≠ key := by
        rintro rfl
        rw [hkey] at hparse
        exact hsteps (Except.ok.inj hparse ▸ rfl)
      rw [Value.set_eq_edit, Value.lookup_edit, if_neg hname.symm, if_neg hother]
  · exact hplain

end Keys

/-- The value of a path in a project file. -/
def pathIn? (es : List (String × Toml.Value)) (key : String) : Option String :=
  match es.lookup "artifacts" with
  | some (.table _ as) =>
    match as.lookup key with
    | some (.string s) => some s
    | _ => none
  | _ => none

/-- The categories of a project file. -/
def categoriesIn? (origin : Option String) (es : List (String × Toml.Value)) :
    Option (List Category) :=
  (es.lookup "categories").bind fun v ↦ (readCategories (.ofToml origin v)).toOption

/-- What is expected of a project file: its keys are in small letters, none of them is a key path
into the artifacts or the categories, the paths of the artifacts are strings in a table, and the
categories can be read. -/
structure WellFormed (origin : Option String) (es : List (String × Toml.Value)) : Prop where
  lower : ∀ e ∈ es, e.1.toLower = e.1
  direct : ∀ e ∈ es, Direct "artifacts" e.1 ∧ Direct "categories" e.1
  artifacts : ∀ v, es.lookup "artifacts" = some v → ∃ form as, v = .table form as ∧
    (∀ e ∈ as, e.1.toLower = e.1) ∧
    ∀ key ∈ pathKeys, ∀ w, as.lookup key = some w → ∃ s, w = .string s
  categories : ∀ v, es.lookup "categories" = some v →
    ∃ cs, readCategories (.ofToml origin v) = .ok cs

section Documents

variable {root : Value} {path : String → String} {categories : List Category}
  {origin : Option String} {es : List (String × Toml.Value)}

/-- What is at a key after a document is put over a configuration. -/
theorem lookup_applyDocument (origin : Option String) {key : String}
    (hkey : KeyPath.parse key = .ok ⟨key, []⟩) (hkeys : (es.map Prod.fst).Nodup)
    (hlower : ∀ e ∈ es, e.1.toLower = e.1) (hdirect : ∀ e ∈ es, Direct key e.1) (root : Value) :
    (applyDocument root (Value.ofTomlEntries origin es)).entries.lookup key =
      ((es.lookup key).map fun v ↦
        merged (.ofToml origin v) (root.entries.lookup key)).or (root.entries.lookup key) := by
  have hmem : ∀ e ∈ Value.ofTomlEntries origin es, e.1 ∈ es.map Prod.fst := fun e he ↦
    map_fst_ofTomlEntries origin es ▸ List.mem_map_of_mem he
  rw [applyDocument, lookup_foldl, lookup_ofTomlEntries, Option.map_map]
  · rfl
  · intro e he t
    obtain ⟨e', he', hname⟩ := List.mem_map.mp (hmem e he)
    exact lookup_applyEntry hkey (hname ▸ hlower e' he') (hname ▸ hdirect e' he') t
  · rw [map_fst_ofTomlEntries]
    exact hkeys

/-- What categories are read from takes the place of others. -/
theorem merged_of_readCategories {v : Value} (h : readCategories v = .ok categories)
    (old : Option Value) : merged v old = v := by
  cases v with
  | table =>
    obtain ⟨items, hitems, -⟩ := Json.bind_eq_ok_iff.mp h
    contradiction
  | _ => rfl

/-- **A project file** that is put over a configuration: what it says counts, and of what it does
not say, what the configuration says. -/
theorem gives_applyDocument (h : root.Gives path categories) (hes : WellFormed origin es)
    (hkeys : (es.map Prod.fst).Nodup) (hdistinct : ∀ e ∈ es, e.2.Distinct) :
    (applyDocument root (Value.ofTomlEntries origin es)).Gives
      (fun key ↦ (pathIn? es key).getD (path key))
      ((categoriesIn? origin es).getD categories) := by
  obtain ⟨⟨o, fs, hartifacts, hfs⟩, v, hlookup, hread⟩ := h
  have hafter := lookup_applyDocument origin (show KeyPath.parse "artifacts" = _ by rfl)
    hkeys hes.lower (fun e he ↦ (hes.direct e he).1) root
  have hafter' := lookup_applyDocument origin (show KeyPath.parse "categories" = _ by rfl)
    hkeys hes.lower (fun e he ↦ (hes.direct e he).2) root
  constructor
  · rw [hafter, hartifacts]
    cases hfile : es.lookup "artifacts" with
    | none => exact ⟨o, fs, rfl, fun key hkey ↦ by simp [pathIn?, hfile, hfs key hkey]⟩
    | some w =>
      obtain ⟨form, as, rfl, hlower, hstrings⟩ := hes.artifacts w hfile
      obtain ⟨o', gs, hgs⟩ := exists_setEntries_eq_table (Value.ofTomlEntries origin as)
        (.table o fs) ⟨o, fs, rfl⟩
      refine ⟨o', gs, congrArg some hgs, fun key hkey ↦ ?_⟩
      have hinner : (as.map Prod.fst).Nodup := by
        cases Toml.distinct_of_lookup hdistinct hfile with
        | table hinner => exact hinner
      have hgiven := lookup_setEntries_ofToml origin hlower hinner (.table o fs) key
      rw [hgs] at hgiven
      refine hgiven.trans ?_
      cases hinside : as.lookup key with
      | none => simp [pathIn?, hfile, hinside, Value.entries, hfs key hkey]
      | some w =>
        obtain ⟨s, rfl⟩ := hstrings key hkey w hinside
        simp [pathIn?, hfile, hinside, Value.ofToml, merged]
  · rw [hafter', hlookup]
    cases hfile : es.lookup "categories" with
    | none => exact ⟨v, rfl, by simp [categoriesIn?, hfile, hread]⟩
    | some w =>
      obtain ⟨cs, hcs⟩ := hes.categories w hfile
      refine ⟨.ofToml origin w, congrArg some (merged_of_readCategories hcs _), ?_⟩
      simp [categoriesIn?, hfile, hcs, Except.toOption]

end Documents

/-! ## What settings say -/

/-- The key path of a path in a configuration. -/
def pathOfKey (key : String) : KeyPath := ⟨"artifacts", [.entry key]⟩

/-- A setting of a path, if one is given. -/
def flagSetting (key : String) (given : Option String) : List (KeyPath × Value) :=
  (given.map fun s ↦ (pathOfKey key, Value.string s)).toList

/-- The settings of the paths that are given for keys. -/
def flagSettings (given : String → Option String) (keys : List String) : List (KeyPath × Value) :=
  keys.flatMap fun key ↦ flagSetting key (given key)

section Flags

variable {root : Value} {path : String → String} {categories : List Category}

theorem toLower_of_mem_pathKeys {key : String} (h : key ∈ pathKeys) : key.toLower = key := by
  have hletters : ∀ key ∈ pathKeys, key.toList.map Char.toLower = key.toList := by decide
  exact toLower_eq_self (hletters key h)

/-- A path that is set is put in the table of the paths. -/
theorem set_pathOfKey (root : Value) {key : String} (hkey : key ∈ pathKeys) (s : String) :
    root.set (pathOfKey key) (.string s) =
      edit "artifacts" (fun old ↦ edit key (merged (.string s)) (old.getD .nil)) root := by
  have hsteps : (pathOfKey key).steps ≠ [] := List.cons_ne_nil _ _
  have hentry (old : Option Value) :
      Value.setAt (.string s) (pathOfKey key).steps (old.getD .nil) =
        edit key (merged (.string s)) (old.getD .nil) := by
    rw [pathOfKey, Value.setAt, Value.setEntry_eq_edit, toLower_of_mem_pathKeys hkey]
  have hname : (pathOfKey key).name.toLower = "artifacts" :=
    toLower_eq_self (s := "artifacts") (by decide)
  rw [Value.set_eq_edit, if_neg hsteps, hname]
  simp only [hentry]

theorem gives_set (h : root.Gives path categories) {key : String} (hkey : key ∈ pathKeys)
    (s : String) :
    (root.set (pathOfKey key) (.string s)).Gives (fun k ↦ if k = key then s else path k)
      categories := by
  obtain ⟨⟨o, fs, hartifacts, hfs⟩, v, hlookup, hread⟩ := h
  rw [set_pathOfKey root hkey]
  constructor
  · refine ⟨o, Value.putEntry key (.string s) fs, ?_, fun k hk ↦ ?_⟩
    · rw [Value.lookup_edit, if_pos rfl, hartifacts]
      rfl
    · rw [Value.lookup_putEntry]
      split
      · rfl
      · exact hfs k hk
  · refine ⟨v, ?_, hread⟩
    rw [Value.lookup_edit, if_neg (by decide), hlookup]

theorem gives_flagSetting (h : root.Gives path categories) {key : String} (hkey : key ∈ pathKeys)
    (given : Option String) :
    (applySettings root (flagSetting key given)).Gives
      (fun k ↦ if k = key then given.getD (path key) else path k) categories := by
  cases given with
  | some s => exact gives_set h hkey s
  | none =>
    have hpath : (fun k ↦ if k = key then path key else path k) = path := by
      funext k
      split
      · rename_i hk
        rw [hk]
      · rfl
    exact hpath.symm ▸ h

/-- **Flags** that are put over a configuration: what they say counts, and of what they do not say,
what the configuration says. -/
theorem gives_applySettings (given : String → Option String) {keys : List String}
    (hkeys : ∀ key ∈ keys, key ∈ pathKeys) (h : root.Gives path categories) :
    (applySettings root (flagSettings given keys)).Gives
      (fun k ↦ (if k ∈ keys then given k else none).getD (path k)) categories := by
  induction keys generalizing root path with
  | nil => simpa [flagSettings, applySettings] using h
  | cons key keys ih =>
    obtain ⟨hkey, hkeys⟩ := List.forall_mem_cons.mp hkeys
    have hrest := ih hkeys (gives_flagSetting h hkey (given key))
    have hpath : (fun k ↦ (if k ∈ key :: keys then given k else none).getD (path k)) =
        fun k ↦ (if k ∈ keys then given k else none).getD
          (if k = key then (given key).getD (path key) else path k) := by
      funext k
      by_cases hk : k = key
      · subst hk
        by_cases hmem : k ∈ keys
        · cases given k <;> simp [hmem]
        · simp [hmem]
      · simp [hk]
    rw [hpath, flagSettings, List.flatMap_cons, applySettings, List.foldl_append]
    exact hrest

end Flags

end Config

end Concord
