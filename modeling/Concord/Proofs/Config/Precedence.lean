import Concord.Proofs.Command.Check
import Concord.Proofs.Config.Contents

/-!
# Flags, the project file and what is built in

The configuration of a command comes from three layers.  Each path is the one that is given as a
flag, or else the one in the project file, or else the one that is built in, whatever is said of
the other paths; and the categories are those of the project file, or else those that are built in.

* `ProjectDocument files o origin es` — the entries of the project file, or none if it may be
  missing and is.  Nothing is said of a tree in which another file stands in its place.
* `ArtifactOptions.layered` — the configuration of the three layers.
* `loadConfig_precedence` — a command has this configuration, and the order of settings among
  documents does not matter.
* `exists_config_beside_layers` — why keys of the project file may not be key paths, and key paths
  of settings may not lead into one another.
-/

set_option autoImplicit false

namespace Concord

namespace Command

open Config (Layer Value KeyPath WellFormed pathIn? categoriesIn? pathKeys pathOfKey flagSetting
  flagSettings lastOf?)
open Files (Entry Lookup FileTree)
open Files.Lookup (outcome)

/-! ## The project file -/

/-- The path of the project file: the one that is named, or else the usual one in the root. -/
def ArtifactOptions.projectPath (o : ArtifactOptions) : String :=
  o.config.getD (Path.join (o.root.getD ".") projectFile)

/-- The entries of the project file.  There are none if it is not named and not there, and neither
is a file with the extension of documents behind its path, which would be looked at next. -/
inductive ProjectDocument (files : String → Entry) (o : ArtifactOptions) :
    Option String → List (String × Toml.Value) → Prop
  | absent (hconfig : o.config = none) (hfile : ∀ bytes, files o.projectPath ≠ .file bytes)
    (hother : ∀ bytes, files (o.projectPath ++ ".toml") ≠ .file bytes) :
    ProjectDocument files o none []
  | found {bytes : ByteArray} {es : List (String × Toml.Value)}
    (hfile : files o.projectPath = .file bytes)
    (hread : Toml.read (Config.fileText bytes) = some es) :
    ProjectDocument files o (some (Config.originOf o.projectPath)) es

/-! ## Where the project file is looked for -/

section Path

/-- What stands in front of a slash is cut apart from what stands behind it. -/
theorem partsFrom_append_slash (part cs ds : List Char) :
    Path.partsFrom part (cs ++ '/' :: ds) = Path.partsFrom part cs ++ Path.partsFrom [] ds := by
  induction cs generalizing part with
  | nil => simp [Path.partsFrom]
  | cons c cs ih =>
    rw [List.cons_append, Path.partsFrom, Path.partsFrom]
    split
    · rw [ih, List.cons_append]
    · exact ih _

/-- A path that is taken from a directory stands at the end, with its own parts. -/
theorem exists_joinChars_eq {directory path : List Char} (hpath : Path.isAbsolute path = false) :
    ∃ front before, Path.joinChars directory path = front ++ path ∧
      Path.partsFrom [] (front ++ path) = before ++ Path.partsFrom [] path := by
  rw [Path.joinChars, hpath, if_neg Bool.false_ne_true]
  split
  · rename_i hend
    refine ⟨directory, ?_⟩
    rcases List.eq_nil_or_concat' directory with rfl | ⟨front, c, rfl⟩
    · exact ⟨[], rfl, rfl⟩
    · obtain rfl : c = '/' := by simpa using hend
      rw [List.append_assoc]
      exact ⟨_, rfl, partsFrom_append_slash [] front path⟩
  · exact ⟨directory ++ ['/'], _, by simp,
      by simpa using partsFrom_append_slash [] directory path⟩

/-- Behind the usual path of the project file, the other one has only the extension more. -/
theorem otherPath?_projectPath {o : ArtifactOptions} (hconfig : o.config = none) :
    Config.otherPath? o.projectPath = some (o.projectPath ++ ".toml") := by
  obtain ⟨front, before, hjoin, hparts⟩ :=
    @exists_joinChars_eq (o.root.getD ".").toList projectFile.toList rfl
  have hpath : o.projectPath.toList = front ++ projectFile.toList := by
    rw [← hjoin, ArtifactOptions.projectPath, hconfig, Option.getD_none, Path.join,
      String.toList_ofList]
  have hfile : Path.partsFrom [] projectFile.toList = [projectFile.toList] := by decide
  have hlast : (Path.parts o.projectPath).getLast? = some projectFile.toList := by
    rw [Path.parts, hpath, hparts, hfile, List.filter_append]
    simp [projectFile]
  have htrim : Config.trimBack o.projectPath.toList.reverse = o.projectPath.toList.reverse := by
    rw [hpath, List.reverse_append]
    rfl
  rw [Config.otherPath?, hlast, htrim, List.reverse_reverse, String.ofList_toList]
  rfl

end Path

section Project

variable {files : String → Entry} {o : ArtifactOptions} {origin : Option String}
  {es : List (String × Toml.Value)}

theorem run_fileAt (files : String → Entry) (path : String) :
    Lookup.run files (Config.fileAt path) =
      match files path with
      | .file bytes => some (path, bytes)
      | _ => none := by
  rw [Config.fileAt, Lookup.run_bind, Lookup.run_entry]
  cases files path <;> rfl

theorem run_fileAt_eq_none {path : String} (h : ∀ bytes, files path ≠ .file bytes) :
    Lookup.run files (Config.fileAt path) = none := by
  rw [run_fileAt]
  split
  · rename_i bytes hfile
    exact absurd hfile (h bytes)
  · rfl

/-- A file at a path is found there. -/
theorem run_findFile_of_file {path : String} {bytes : ByteArray} (h : files path = .file bytes) :
    Lookup.run files (Config.findFile path) = some (path, bytes) := by
  rw [Config.findFile, Lookup.run_bind, run_fileAt, h]
  rfl

/-- Nothing is found where there is no file at a path and none at the other one. -/
theorem run_findFile_eq_none {path other : String} (h : ∀ bytes, files path ≠ .file bytes)
    (hpath : Config.otherPath? path = some other) (hother : ∀ bytes, files other ≠ .file bytes) :
    Lookup.run files (Config.findFile path) = none := by
  rw [Config.findFile, Lookup.run_bind, run_fileAt_eq_none h, hpath]
  exact run_fileAt_eq_none hother

theorem layers_eq (o : ArtifactOptions) :
    o.layers = [.file o.projectPath o.config.isSome] ++
      (o.root.map fun v ↦ Layer.setting "artifacts.root" (.string v)).toList ++
      (o.grammar.map fun v ↦ Layer.setting "artifacts.grammar" (.string v)).toList ++
      (o.highlights.map fun v ↦ Layer.setting "artifacts.highlights" (.string v)).toList ++
      (o.reference.map fun v ↦ Layer.setting "artifacts.reference" (.string v)).toList := by
  obtain ⟨config, root, grammar, highlights, reference⟩ := o
  cases config <;> rfl

/-- The only document among the layers is the project file. -/
theorem documents_layers (o : ArtifactOptions) :
    Config.documents o.layers = [.file o.projectPath o.config.isSome] := by
  have hflag (text : String) (given : Option String) :
      (given.map fun v ↦ Layer.setting text (.string v)).toList.filter Layer.isDocument = [] := by
    cases given <;> rfl
  simp only [layers_eq, Config.documents, List.filter_append, hflag, List.append_nil]
  rfl

theorem settings_append {ls ls' : List Layer} {ss ss' : List (KeyPath × Value)}
    (h : Config.settings ls = .ok ss) (h' : Config.settings ls' = .ok ss') :
    Config.settings (ls ++ ls') = .ok (ss ++ ss') := by
  induction ls generalizing ss with
  | nil =>
    obtain rfl := Except.ok.inj h
    exact h'
  | cons l ls ih =>
    cases l with
    | text source => exact ih h
    | file path required => exact ih h
    | setting key v =>
      obtain ⟨path, hpath, h⟩ := Json.bind_eq_ok_iff.mp h
      obtain ⟨rest, hrest, h⟩ := Json.bind_eq_ok_iff.mp h
      obtain rfl := Except.ok.inj h
      rw [List.cons_append, Config.settings, hpath, ih hrest]
      rfl

theorem settings_flag (text key : String) (hparse : KeyPath.parse text = .ok (pathOfKey key))
    (given : Option String) :
    Config.settings (given.map fun v ↦ Layer.setting text (.string v)).toList =
      .ok (flagSetting key given) := by
  cases given with
  | none => rfl
  | some s =>
    rw [Option.map_some, Option.toList_some, Config.settings, hparse]
    rfl

/-- The path that is given by a flag. -/
def ArtifactOptions.flag (o : ArtifactOptions) : String → Option String
  | "root" => o.root
  | "grammar" => o.grammar
  | "highlights" => o.highlights
  | "reference" => o.reference
  | _ => none

/-- The settings among the layers are the flags that are given. -/
theorem settings_layers (o : ArtifactOptions) :
    Config.settings o.layers = .ok (flagSettings o.flag pathKeys) := by
  have hfile : Config.settings [Layer.file o.projectPath o.config.isSome] = .ok [] := rfl
  have hflags := settings_append (settings_append (settings_append (settings_append hfile
    (settings_flag "artifacts.root" "root" rfl o.root))
    (settings_flag "artifacts.grammar" "grammar" rfl o.grammar))
    (settings_flag "artifacts.highlights" "highlights" rfl o.highlights))
    (settings_flag "artifacts.reference" "reference" rfl o.reference)
  rw [layers_eq, hflags]
  simp [flagSettings, pathKeys, ArtifactOptions.flag]

/-- No flag is given twice. -/
theorem lastSettings_flags (o : ArtifactOptions) :
    Config.lastSettings (flagSettings o.flag pathKeys) = flagSettings o.flag pathKeys := by
  obtain ⟨config, root, grammar, highlights, reference⟩ := o
  cases root <;> cases grammar <;> cases highlights <;> cases reference <;> rfl

/-- The project file is put over what is built in. -/
theorem outcome_applyLayers (h : ProjectDocument files o origin es) (root : Value) :
    outcome files (Config.applyLayers root o.layers) =
      .ok (Config.applyDocument root (Value.ofTomlEntries origin es)) := by
  have hlook (found : Option (String × ByteArray))
      (hfound : Lookup.run files (Config.findFile o.projectPath) = found) :
      outcome files (liftM (Config.findFile o.projectPath) : ExceptT Config.Fault _ _) =
        .ok found := by
    rw [Lookup.outcome_lift, hfound]
  rw [← Config.applyLayers_documents, documents_layers]
  cases h with
  | absent hconfig hfile hother =>
    have hnone := run_findFile_eq_none hfile (otherPath?_projectPath hconfig) hother
    refine (Lookup.outcome_bind_ok (hlook _ hnone) _).trans ?_
    rw [hconfig]
    rfl
  | found hfile hread =>
    refine (Lookup.outcome_bind_ok (hlook _ (run_findFile_of_file hfile)) _).trans ?_
    dsimp only
    rw [Config.documentEntries, hread]
    rfl

/-- The configuration of the three layers: of each path the flag, or else what the project file
says, or else what is built in; and the categories of the project file, or else those that are built
in. -/
def ArtifactOptions.layered (o : ArtifactOptions) (origin : Option String)
    (es : List (String × Toml.Value)) : Config where
  artifacts :=
    { root := (o.root.or (pathIn? es "root")).getD "."
      paths :=
        { grammar := (o.grammar.or (pathIn? es "grammar")).getD "grammar.js"
          highlights := (o.highlights.or (pathIn? es "highlights")).getD "queries/highlights.scm"
          reference := (o.reference.or (pathIn? es "reference")).getD
            "../sight/client/syntaxes/stata.tmLanguage.json" } }
  categories := (categoriesIn? origin es).getD Config.defaultCategories

theorem outcome_loadConfig_eq (h : ProjectDocument files o origin es) (hes : WellFormed origin es) :
    outcome files o.loadConfig = .ok (o.layered origin es) := by
  have hdistinct : (es.map Prod.fst).Nodup ∧ ∀ e ∈ es, e.2.Distinct := by
    cases h with
    | absent => exact ⟨List.nodup_nil, List.forall_mem_nil _⟩
    | found hfile hread => exact Toml.distinct_of_read hread
  have hfile := Config.gives_applyDocument Config.gives_defaults hes hdistinct.1 hdistinct.2
  have hall := Config.gives_applySettings o.flag (fun _ hkey ↦ hkey) hfile
  rw [outcome_loadConfig, configOn, Config.build_eq (settings_layers o),
    Lookup.outcome_bind_ok (outcome_applyLayers h _), Lookup.outcome_mk, Lookup.run_pure,
    lastSettings_flags, Config.ofValue_of_gives hall]
  simp [Except.mapError, ArtifactOptions.layered, Config.defaultPath, Option.getD_or, pathKeys,
    ArtifactOptions.flag]

end Project

/-- **Flags come before the project file, and that before what is built in**, field by field, for
all flags and all files among which there is a well-formed project file or none.

And among the layers of a configuration it does not matter where settings stand: only the order of
the documents counts, and the last setting of each key path, if none of the key paths leads into
the place of another. -/
theorem loadConfig_precedence :
    (∀ (files : String → Entry) (o : ArtifactOptions) (origin : Option String)
      (es : List (String × Toml.Value)), ProjectDocument files o origin es →
      WellFormed origin es → outcome files o.loadConfig = .ok (o.layered origin es)) ∧
    ∀ (first : Value) (ls ls' : List Layer) (ss ss' : List (KeyPath × Value)),
      Config.documents ls = Config.documents ls' → Config.settings ls = .ok ss →
      Config.settings ls' = .ok ss' → (∀ path, lastOf? path ss = lastOf? path ss') →
      (∀ p ∈ ss.map Prod.fst, ∀ q ∈ ss.map Prod.fst, p ≠ q → p.Apart q) →
      Config.build first ls = Config.build first ls' :=
  ⟨fun _ _ _ _ ↦ outcome_loadConfig_eq,
    fun first _ _ _ _ hdocuments hss hss' hlast hapart ↦
      Config.build_eq_of_lastOf hdocuments hss hss' hlast hapart first⟩

/-- Two different paths of a configuration are at key paths that part. -/
theorem apart_pathOfKey {key key' : String} (hkey : key ∈ pathKeys) (hkey' : key' ∈ pathKeys)
    (hne : key ≠ key') : (pathOfKey key).Apart (pathOfKey key') := by
  refine .inr (.inl ?_)
  rw [Config.toLower_of_mem_pathKeys hkey, Config.toLower_of_mem_pathKeys hkey']
  exact hne

section Instance

/-- A tree with a single file. -/
def singleFile (path source : String) : String → Entry :=
  (FileTree.ofFiles [(path, source.toUTF8)]).entry

/-- The text of a project file that says where one artifact is. -/
def grammarLine : String := "[artifacts]\ngrammar = \"x.js\"\n"

/-- The entries of such a file. -/
def grammarEntries : List (String × Toml.Value) :=
  [("artifacts", .table .header [("grammar", .string "x.js")])]

/-- The text of a project file with a key path in quotes. -/
def quotedLine : String := "\"artifacts.grammar\" = \"x.js\"\n"

/-- Settings of which one leads into the place of the other. -/
def overlapping : List Layer :=
  [.setting "categories" (.string "x"), .setting "categories[0].name" (.string "y")]

theorem exists_of_toOption {ε α β : Type} {x : Except ε α} {f : α → β} {b : β}
    (h : x.toOption.map f = some b) : ∃ a, x = .ok a ∧ f a = b := by
  cases x with
  | error e => contradiction
  | ok a => exact ⟨a, rfl, Option.some.inj h⟩

/-- The table, the key and the string of a document that says a single thing. -/
def onlyString? : List (String × Toml.Value) → Option (String × String × String)
  | [(k, .table .header [(k', .string s)])] => some (k, k', s)
  | _ => none

theorem eq_of_onlyString? {es : List (String × Toml.Value)} {k k' s : String}
    (h : onlyString? es = some (k, k', s)) : es = [(k, .table .header [(k', .string s)])] := by
  unfold onlyString? at h
  split at h
  · simp only [Option.some.injEq, Prod.mk.injEq] at h
    obtain ⟨rfl, rfl, rfl⟩ := h
    rfl
  · contradiction

theorem read_grammarLine : Toml.read grammarLine = some grammarEntries := by
  have honly :
      (Toml.read grammarLine).bind onlyString? = some ("artifacts", "grammar", "x.js") := by
    decide +kernel
  obtain ⟨es, hread, hes⟩ := Option.bind_eq_some_iff.mp honly
  rw [hread, eq_of_onlyString? hes, grammarEntries]

theorem wellFormed_grammarEntries (origin : Option String) : WellFormed origin grammarEntries := by
  have hartifacts : "artifacts".toLower = "artifacts" := Config.toLower_eq_self (by decide)
  have hdirect (key : String) : Config.Direct key "artifacts" := by
    intro path hpath hsteps
    obtain rfl : (⟨"artifacts", []⟩ : KeyPath) = path := Except.ok.inj hpath
    contradiction
  refine ⟨?_, ?_, fun v hv ↦ ⟨.header, [("grammar", .string "x.js")], ?_, ?_, ?_⟩, fun v hv ↦ ?_⟩
  · simpa [grammarEntries] using hartifacts
  · simpa [grammarEntries] using ⟨hdirect _, hdirect _⟩
  · exact (Option.some.inj hv).symm
  · simpa using Config.toLower_of_mem_pathKeys (show "grammar" ∈ pathKeys by decide)
  · intro key hkey w hw
    rw [Json.Value.lookup_cons_eq_ite] at hw
    split at hw
    · exact ⟨_, (Option.some.inj hw).symm⟩
    · contradiction
  · contradiction

theorem wellFormed_nil (origin : Option String) : WellFormed origin [] :=
  ⟨by simp, by simp, by simp, by simp⟩

/-- A flag without a project file and with one, and settings before and behind a document. -/
theorem loadConfig_precedence_grammarLine :
    outcome (fun _ ↦ .missing) (ArtifactOptions.loadConfig { root := some "r" }) =
      .ok ⟨⟨"r", ⟨"grammar.js", "queries/highlights.scm",
        "../sight/client/syntaxes/stata.tmLanguage.json"⟩⟩, Config.defaultCategories⟩ ∧
    outcome (singleFile "p.toml" grammarLine)
        (ArtifactOptions.loadConfig { config := some "p.toml", root := some "r" }) =
      .ok ⟨⟨"r", ⟨"x.js", "queries/highlights.scm",
        "../sight/client/syntaxes/stata.tmLanguage.json"⟩⟩, Config.defaultCategories⟩ ∧
    Config.build Config.defaults [.setting "artifacts.root" (.string "a"), .text grammarLine,
        .setting "artifacts.grammar" (.string "g"), .setting "artifacts.root" (.string "b")] =
      Config.build Config.defaults [.setting "artifacts.root" (.string "b"),
        .setting "artifacts.grammar" (.string "g"), .text grammarLine] := by
  refine ⟨?_, ?_, ?_⟩
  · have hmissing : ∀ bytes, Entry.missing ≠ .file bytes := fun _ h ↦ Entry.noConfusion h
    exact loadConfig_precedence.1 _ _ none [] (.absent rfl hmissing hmissing) (wellFormed_nil _)
  · have hfile : singleFile "p.toml" grammarLine "p.toml" = .file grammarLine.toUTF8 := rfl
    have htext : Config.fileText grammarLine.toUTF8 = grammarLine := by decide +kernel
    exact loadConfig_precedence.1 _ _ _ grammarEntries
      (.found hfile (htext.symm ▸ read_grammarLine)) (wellFormed_grammarEntries _)
  · refine loadConfig_precedence.2 Config.defaults _ _ [(pathOfKey "root", .string "a"),
      (pathOfKey "grammar", .string "g"), (pathOfKey "root", .string "b")]
      [(pathOfKey "root", .string "b"), (pathOfKey "grammar", .string "g")] rfl rfl rfl
      (fun path ↦ ?_) fun p hp q hq hne ↦ ?_
    · have hne : pathOfKey "root" ≠ pathOfKey "grammar" := by decide
      by_cases hroot : path = pathOfKey "root"
      · simp [Config.lastOf?_cons, Config.lastOf?_nil, hroot, hne]
      · simp [Config.lastOf?_cons, Config.lastOf?_nil, hroot]
    · have hkeys : ∀ p ∈ [pathOfKey "root", pathOfKey "grammar", pathOfKey "root"],
          ∃ key ∈ pathKeys, p = pathOfKey key := by simp [pathKeys]
      obtain ⟨key, hkey, rfl⟩ := hkeys p hp
      obtain ⟨key', hkey', rfl⟩ := hkeys q hq
      exact apart_pathOfKey hkey hkey' fun heq ↦ hne (congrArg pathOfKey heq)

/-- What counts although it is no entry for a path, and what the order of settings may change.  A
key of the project file that is a key path leads to the place of an artifact; and with one key path
in the place of another, the order of settings shows. -/
theorem exists_config_beside_layers :
    ((∃ origin es, ProjectDocument (singleFile "parity.toml" quotedLine) {} origin es ∧
        es.lookup "artifacts" = none) ∧
      ∃ config, outcome (singleFile "parity.toml" quotedLine) (ArtifactOptions.loadConfig {}) =
        .ok config ∧ config.artifacts.paths.grammar = "x.js") ∧
    (∀ path, (Config.settings overlapping).map (lastOf? path) =
        (Config.settings overlapping.reverse).map (lastOf? path)) ∧
      Config.build Config.defaults overlapping ≠
        Config.build Config.defaults overlapping.reverse := by
  refine ⟨⟨?_, ?_⟩, fun path ↦ ?_, fun heq ↦ ?_⟩
  · have hfile : singleFile "parity.toml" quotedLine "./parity.toml" =
        .file quotedLine.toUTF8 := rfl
    have hnone : (Toml.read (Config.fileText quotedLine.toUTF8)).map
        (fun es ↦ (es.lookup "artifacts").isNone) = some true := by decide +kernel
    obtain ⟨es, hread, hes⟩ := Option.map_eq_some_iff.mp hnone
    exact ⟨_, es, .found hfile hread, Option.isNone_iff_eq_none.mp hes⟩
  · exact exists_of_toOption (by decide +kernel)
  · have hss : Config.settings overlapping = .ok [(⟨"categories", []⟩, .string "x"),
        (⟨"categories", [.item 0, .entry "name"]⟩, .string "y")] := rfl
    have hss' : Config.settings overlapping.reverse =
        .ok [(⟨"categories", [.item 0, .entry "name"]⟩, .string "y"),
          (⟨"categories", []⟩, .string "x")] := rfl
    rw [hss, hss']
    refine congrArg Except.ok ?_
    by_cases hcategories : path = ⟨"categories", []⟩
    · simp [Config.lastOf?_cons, Config.lastOf?_nil, hcategories]
    · simp [Config.lastOf?_cons, Config.lastOf?_nil, hcategories]
  · have hcategories :
        (outcome (fun _ ↦ .missing) (Config.build Config.defaults overlapping)).toOption.isSome ≠
          (outcome (fun _ ↦ .missing)
            (Config.build Config.defaults overlapping.reverse)).toOption.isSome := by
      decide +kernel
    exact hcategories (by rw [heq])

end Instance

end Command

end Concord
