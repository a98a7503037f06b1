import Keybind.Proofs.Reading
import Mathlib.Data.List.Induction

/-!
# Which layer decides

A configuration is loaded from layers: files, and single settings that go over
all files. There are five settings, in three sections. Whatever the layers, each
setting is decided for itself: by the last single setting of its key, or else by
the last file that gives it, or else by the defaults.

The tree of settings is looked at through `List.lookup` only. `Holds` says that a tree
gives a configuration: it has the three sections, and in each the fields that the
configuration asks for. A section with some fields laid on it gives what it gave
before, with these fields changed (`SectionHolds.layEntries`); a section that
nothing is laid on stays (`Holds.editKey`). A file and a single setting both come
down to this.
-/

namespace Keybind

/-! ## Settings -/

/-- The settings of a configuration. -/
inductive Setting where
  | matchTable (name : String)
  | scopeConstructor (name : String)
  | rejectUnterminated (reject : Bool)
  | format (format : Format)
  | filter (filter : String)
  deriving DecidableEq, Repr

namespace Setting

/-- The section of a setting. -/
def part : Setting → ConfigSection
  | matchTable _ | scopeConstructor _ | rejectUnterminated _ => .transpile
  | format _ => .output
  | filter _ => .log

/-- The name of a setting within its section. -/
def name : Setting → String
  | matchTable _ => "match_table"
  | scopeConstructor _ => "scope_constructor"
  | rejectUnterminated _ => "reject_unterminated"
  | format _ => "format"
  | filter _ => "filter"

/-- The key of a setting. -/
def key (setting : Setting) : String :=
  setting.part.key ++ "." ++ setting.name

/-- The scalars that a setting is written as. A format is named in any letter case. -/
inductive Written : Setting → Scalar → Prop where
  | matchTable (name : String) : Written (.matchTable name) (.text name)
  | scopeConstructor (name : String) : Written (.scopeConstructor name) (.text name)
  | rejectUnterminated (reject : Bool) : Written (.rejectUnterminated reject) (.bool reject)
  | format {format : Format} {name : String} : Text.lower name = format.name →
      Written (.format format) (.text name)
  | filter (filter : String) : Written (.filter filter) (.text filter)

/-- The configuration with a setting changed. -/
def apply (config : Config) : Setting → Config
  | matchTable name => { config with options := { config.options with matchTable := name } }
  | scopeConstructor name =>
    { config with options := { config.options with scopeConstructor := name } }
  | rejectUnterminated reject =>
    { config with options := { config.options with rejectUnterminated := reject } }
  | format value => { config with format := value }
  | filter value => { config with filter := value }

/-- The name of the match table, if it is what is set. -/
def matchTable? : Setting → Option String
  | matchTable name => some name
  | _ => none

/-- The scope constructor, if it is what is set. -/
def scopeConstructor? : Setting → Option String
  | scopeConstructor name => some name
  | _ => none

/-- Whether open brackets are rejected, if it is what is set. -/
def rejectUnterminated? : Setting → Option Bool
  | rejectUnterminated reject => some reject
  | _ => none

/-- The format, if it is what is set. -/
def format? : Setting → Option Format
  | format value => some value
  | _ => none

/-- The filter, if it is what is set. -/
def filter? : Setting → Option String
  | filter value => some value
  | _ => none

end Setting

/-- The settings of a configuration. -/
def Config.toList (config : Config) : List Setting :=
  [.matchTable config.options.matchTable, .scopeConstructor config.options.scopeConstructor,
   .rejectUnterminated config.options.rejectUnterminated, .format config.format,
   .filter config.filter]

/-- Changing a setting leaves those of other sections and other names. -/
theorem Setting.mem_toList_apply {config : Config} {changed setting : Setting}
    (h : setting ∈ (changed.apply config).toList) :
    setting = changed ∨ setting ∈ config.toList
      ∧ (setting.part = changed.part → setting.name ≠ changed.name) := by
  simp only [Config.toList, List.mem_cons, List.not_mem_nil, or_false] at h ⊢
  cases changed <;> rcases h with rfl | rfl | rfl | rfl | rfl <;>
    simp [Setting.apply, Setting.part, Setting.name]

/-! ## Looking into a tree -/

theorem lookup_map_edit (entries : List (String × Value)) (key other : String)
    (edit : Value → Value) :
    (entries.map fun entry => if entry.1 = key then (key, edit entry.2) else entry).lookup other
      = if other = key then (entries.lookup key).map edit else entries.lookup other := by
  induction entries with
  | nil => exact (ite_self _).symm
  | cons entry entries ih =>
      obtain ⟨name, value⟩ := entry
      rw [List.map_cons]
      by_cases hname : name = key
      · subst hname
        rw [if_pos rfl, List.lookup_cons, List.lookup_cons_self, List.lookup_cons, ih]
        by_cases hother : other = name
        · simp [hother]
        · simp [hother, beq_eq_false_iff_ne.mpr hother]
      · rw [if_neg hname, List.lookup_cons, List.lookup_cons, List.lookup_cons,
          beq_eq_false_iff_ne.mpr (Ne.symm hname), ih]
        by_cases hother : other = key
        · simp [hother, beq_eq_false_iff_ne.mpr (Ne.symm hname)]
        · simp [hother]

/-- **An edit changes its key and no other.** -/
theorem lookup_editEntry (entries : List (String × Value)) (key other : String) (missing : Value)
    (edit : Value → Value) :
    (editEntry key missing edit entries).lookup other
      = if other = key then some (edit ((entries.lookup key).getD missing))
        else entries.lookup other := by
  unfold editEntry
  split
  · rename_i hany
    rw [lookup_map_edit]
    cases hlookup : entries.lookup key with
    | none =>
        obtain ⟨entry, hmem, hkey⟩ := List.any_eq_true.mp hany
        have hother := List.lookup_eq_none_iff.mp hlookup entry hmem
        exact absurd (of_decide_eq_true hkey).symm (bne_iff_ne.mp hother)
    | some value => rfl
  · rename_i hany
    have hnone : entries.lookup key = none := by
      refine List.lookup_eq_none_iff.mpr fun entry hmem => bne_iff_ne.mpr ?_
      rintro rfl
      exact hany (List.any_eq_true.mpr ⟨entry, hmem, decide_eq_true rfl⟩)
    rw [List.lookup_append]
    by_cases hother : other = key
    · rw [if_pos hother, hother, hnone, List.lookup_cons_self]
      rfl
    · rw [if_neg hother, List.lookup_cons, beq_eq_false_iff_ne.mpr hother]
      exact Option.or_none

theorem Value.lookup_editKey {key : String} (hkey : Text.lower key = key) (value missing : Value)
    (edit : Value → Value) (other : String) :
    (value.editKey key missing edit).asTable.2.lookup other
      = if other = key then some (edit ((value.asTable.2.lookup key).getD missing))
        else value.asTable.2.lookup other := by
  rw [editKey, hkey]
  exact lookup_editEntry _ _ _ _ _

/-- Only a table has entries. -/
theorem Value.table_of_lookup {value found : Value} {key : String}
    (h : value.asTable.2.lookup key = some found) :
    ∃ origin entries, value = .table origin entries := by
  cases value with
  | table origin entries => exact ⟨origin, entries, rfl⟩
  | scalar origin s => cases h
  | array origin items => cases h

/-! ## Trees that give a configuration -/

/-- A section that has the fields that the configuration asks for. -/
def SectionHolds (part : ConfigSection) (value : Value) (config : Config) : Prop :=
  ∀ setting ∈ config.toList, setting.part = part →
    ∃ origin scalar, value.asTable.2.lookup setting.name = some (.scalar origin scalar)
      ∧ setting.Written scalar

/-- A tree that has all sections. -/
def Holds (tree : Value) (config : Config) : Prop :=
  ∀ part : ConfigSection, ∃ value, tree.asTable.2.lookup part.key = some value
    ∧ SectionHolds part value config

theorem ConfigSection.key_inj {part other : ConfigSection} (h : part.key = other.key) :
    part = other := by
  cases part <;> cases other <;> first | rfl | exact absurd h (by decide)

theorem Setting.lower_name (setting : Setting) : Text.lower setting.name = setting.name := by
  cases setting <;>
  · dsimp only [name]
    decide

theorem Format.lower_name (format : Format) : Text.lower format.name = format.name := by
  cases format <;> decide

/-- A configuration is given by the tree that it is written as. -/
theorem holds_toSettings (config : Config) : Holds config.toSettings config := by
  have hformat := config.format.lower_name
  intro part
  cases part with
  | transpile =>
      refine ⟨_, rfl, ?_⟩
      intro setting hsetting hpart
      simp only [Config.toList, List.mem_cons, List.not_mem_nil, or_false] at hsetting
      rcases hsetting with rfl | rfl | rfl | rfl | rfl
      · exact ⟨none, _, rfl, .matchTable _⟩
      · exact ⟨none, _, rfl, .scopeConstructor _⟩
      · exact ⟨none, _, rfl, .rejectUnterminated _⟩
      · cases hpart
      · cases hpart
  | output =>
      refine ⟨_, rfl, ?_⟩
      intro setting hsetting hpart
      simp only [Config.toList, List.mem_cons, List.not_mem_nil, or_false] at hsetting
      rcases hsetting with rfl | rfl | rfl | rfl | rfl
      · cases hpart
      · cases hpart
      · cases hpart
      · exact ⟨none, _, rfl, .format hformat⟩
      · cases hpart
  | log =>
      refine ⟨_, rfl, ?_⟩
      intro setting hsetting hpart
      simp only [Config.toList, List.mem_cons, List.not_mem_nil, or_false] at hsetting
      rcases hsetting with rfl | rfl | rfl | rfl | rfl
      · cases hpart
      · cases hpart
      · cases hpart
      · cases hpart
      · exact ⟨none, _, rfl, .filter _⟩

/-! ## Laying settings on a tree -/

/-- The fields of a section are these settings, in order. -/
inductive FieldsSet (part : ConfigSection) : List (String × Value) → List Setting → Prop where
  | nil : FieldsSet part [] []
  | cons {setting : Setting} {scalar : Scalar} {fields : List (String × Value)}
      {settings : List Setting} (origin : Option String) : setting.part = part →
      setting.Written scalar → FieldsSet part fields settings →
      FieldsSet part ((setting.name, .scalar origin scalar) :: fields) (setting :: settings)

/-- One field laid on its section changes one setting. -/
theorem SectionHolds.layKey {part : ConfigSection} {value : Value} {config : Config}
    (h : SectionHolds part value config) {changed : Setting} {scalar : Scalar}
    (hpart : changed.part = part) (hwritten : changed.Written scalar) (origin : Option String) :
    SectionHolds part (Value.layKey changed.name (.scalar origin scalar) value)
      (changed.apply config) := by
  intro setting hsetting hsame
  rw [Value.layKey, Value.lookup_editKey changed.lower_name]
  rcases Setting.mem_toList_apply hsetting with rfl | ⟨hold, hother⟩
  · exact ⟨origin, scalar, if_pos rfl, hwritten⟩
  · rw [if_neg (hother (hsame.trans hpart.symm))]
    exact h setting hold hsame

/-- **Fields laid on their section** change the settings that they give. -/
theorem SectionHolds.layEntries {part : ConfigSection} {value : Value} {config : Config}
    (h : SectionHolds part value config) {fields : List (String × Value)}
    {settings : List Setting} (hfields : FieldsSet part fields settings) :
    SectionHolds part (Value.layEntries fields value) (settings.foldl Setting.apply config) := by
  induction hfields generalizing value config with
  | nil =>
      rw [Value.layEntries]
      exact h
  | cons origin hpart hwritten _ ih =>
      rw [Value.layEntries]
      exact ih (h.layKey hpart hwritten origin)

/-- Another section does not mind. -/
theorem SectionHolds.apply_other {part other : ConfigSection} {value : Value} {config : Config}
    (h : SectionHolds other value config) (hne : other ≠ part) {fields : List (String × Value)}
    {settings : List Setting} (hfields : FieldsSet part fields settings) :
    SectionHolds other value (settings.foldl Setting.apply config) := by
  induction hfields generalizing config with
  | nil => exact h
  | cons origin hpart hwritten _ ih =>
      refine ih fun setting hsetting hsame => ?_
      rcases Setting.mem_toList_apply hsetting with rfl | ⟨hold, -⟩
      · exact absurd (hsame.symm.trans hpart) hne
      · exact h setting hold hsame

/-- **Fields laid on one section of a tree** change the settings that they give, and nothing
else. -/
theorem Holds.editKey {tree : Value} {config : Config} (h : Holds tree config)
    {part : ConfigSection} {fields : List (String × Value)} {settings : List Setting}
    (hfields : FieldsSet part fields settings) (missing : Value) :
    Holds (tree.editKey part.key missing (Value.layEntries fields))
      (settings.foldl Setting.apply config) := by
  intro other
  obtain ⟨value, hvalue, hholds⟩ := h other
  rw [Value.lookup_editKey part.lower_key]
  by_cases hother : other = part
  · subst hother
    rw [if_pos rfl, hvalue]
    exact ⟨_, rfl, hholds.layEntries hfields⟩
  · have hne : other.key ≠ part.key := fun heq => hother (ConfigSection.key_inj heq)
    rw [if_neg hne]
    exact ⟨value, hvalue, hholds.apply_other hother hfields⟩

/-- The document gives these settings, in order. -/
inductive DocumentSets : List (String × Value) → List Setting → Prop where
  | nil : DocumentSets [] []
  | cons {part : ConfigSection} {fields entries : List (String × Value)}
      {settings others : List Setting} (origin : Option String) :
      FieldsSet part fields settings → DocumentSets entries others →
      DocumentSets ((part.key, .table origin fields) :: entries) (settings ++ others)

/-- **A file laid on a tree** changes the settings that it gives. -/
theorem Holds.layFile {tree : Value} {config : Config} (h : Holds tree config)
    {entries : List (String × Value)} {settings : List Setting}
    (hentries : DocumentSets entries settings) :
    Holds (tree.layFile entries) (settings.foldl Setting.apply config) := by
  induction hentries generalizing tree config with
  | nil => exact h
  | @cons part fields entries settings others origin hfields _ ih =>
      rw [Value.layFile, List.foldl_cons, part.layEntry_eq, List.foldl_append]
      exact ih (h.editKey hfields _)

/-- **A single setting laid on a tree** changes that setting. -/
theorem Holds.lay {tree : Value} {config : Config} (h : Holds tree config) {setting : Setting}
    {scalar : Scalar} (hwritten : setting.Written scalar) (origin : Option String) :
    Holds (Value.lay (.scalar origin scalar) [.key setting.part.key, .key setting.name] tree)
      (setting.apply config) := by
  have hfields : FieldsSet setting.part [(setting.name, .scalar origin scalar)] [setting] :=
    .cons origin rfl hwritten .nil
  have hlay : Value.lay (.scalar origin scalar) [.key setting.name]
      = Value.layEntries [(setting.name, .scalar origin scalar)] := by
    funext value
    rw [Value.lay, Value.layEntries, Value.layEntries]
  rw [Value.lay, hlay]
  · exact h.editKey hfields _
  · exact List.cons_ne_nil _ _

/-! ## Reading a tree -/

/-- A format is found by its name in any letter case. -/
theorem formatOfName_lower {format : Format} {name : String}
    (h : Text.lower name = format.name) : Config.formatOfName name = .ok format := by
  unfold Config.formatOfName
  rw [h]
  cases format <;> rfl

theorem readOptions_of_holds {value : Value} {config : Config}
    (h : SectionHolds .transpile value config) :
    Config.readOptions value = .ok config.options := by
  obtain ⟨_, _, htable, hwritten⟩ :=
    h (.matchTable config.options.matchTable) (by simp [Config.toList]) rfl
  cases hwritten
  obtain ⟨_, _, hconstructor, hwritten⟩ :=
    h (.scopeConstructor config.options.scopeConstructor) (by simp [Config.toList]) rfl
  cases hwritten
  obtain ⟨_, _, hreject, hwritten⟩ :=
    h (.rejectUnterminated config.options.rejectUnterminated) (by simp [Config.toList]) rfl
  cases hwritten
  obtain ⟨origin, entries, rfl⟩ := Value.table_of_lookup htable
  dsimp only [Value.asTable, Setting.name] at htable hconstructor hreject
  unfold Config.readOptions Config.fields
  simp only [List.map_cons, List.map_nil, bind, Except.bind]
  rw [htable, hconstructor, hreject]
  rfl

theorem readFormat_of_holds {value : Value} {config : Config}
    (h : SectionHolds .output value config) :
    Config.readSingle .output "format" (fun _ => Config.readFormat) value = .ok config.format := by
  obtain ⟨_, _, hformat, hwritten⟩ := h (.format config.format) (by simp [Config.toList]) rfl
  cases hwritten with
  | format hname =>
      obtain ⟨origin, entries, rfl⟩ := Value.table_of_lookup hformat
      dsimp only [Value.asTable, Setting.name] at hformat
      unfold Config.readSingle Config.fields
      simp only [List.map_cons, List.map_nil, bind, Except.bind]
      rw [hformat]
      exact formatOfName_lower hname

theorem readFilter_of_holds {value : Value} {config : Config}
    (h : SectionHolds .log value config) :
    Config.readSingle .log "filter" Config.readText value = .ok config.filter := by
  obtain ⟨_, _, hfilter, hwritten⟩ := h (.filter config.filter) (by simp [Config.toList]) rfl
  cases hwritten
  obtain ⟨origin, entries, rfl⟩ := Value.table_of_lookup hfilter
  dsimp only [Value.asTable, Setting.name] at hfilter
  unfold Config.readSingle Config.fields
  simp only [List.map_cons, List.map_nil, bind, Except.bind]
  rw [hfilter]
  rfl

/-- **A tree that gives a configuration is read as it.** -/
theorem ofSettings_of_holds {tree : Value} {config : Config} (h : Holds tree config) :
    Config.ofSettings tree = .ok config := by
  have hsection : ∀ {α : Type} (part : ConfigSection) (read : Value → Except ConfigError α)
      (result : α), (∀ value, SectionHolds part value config → read value = .ok result) →
      Config.readSection tree part read = .ok result := by
    intro α part read result hread
    obtain ⟨value, hvalue, hholds⟩ := h part
    rw [Config.readSection, hvalue]
    exact hread value hholds
  unfold Config.ofSettings
  rw [hsection .transpile _ _ fun _ => readOptions_of_holds,
    hsection .output _ _ fun _ => readFormat_of_holds,
    hsection .log _ _ fun _ => readFilter_of_holds]
  rfl

/-! ## Layers -/

/-- Layers that give settings: those of the files and those given singly, each in order. A file is
there and sets some of the settings, or is absent and not required. -/
inductive LayersSet (disk : Disk) : List Layer → List Setting → List Setting → Prop where
  | nil : LayersSet disk [] [] []
  | file {path shown text : String} {required : Bool} {entries : List (String × Value)}
      {settings fromFiles single : List Setting} {layers : List Layer} :
      Files.answer (ConfigFile.fetch Disk.files path) disk = .ok (shown, text) →
      Toml.read? (some shown) text = some entries → DocumentSets entries settings →
      LayersSet disk layers fromFiles single →
      LayersSet disk (.file path required :: layers) (settings ++ fromFiles) single
  | absent {path : String} {fromFiles single : List Setting} {layers : List Layer} :
      Files.answer (ConfigFile.find? Disk.files path) disk = none →
      LayersSet disk layers fromFiles single →
      LayersSet disk (.file path false :: layers) fromFiles single
  | setting {setting : Setting} {scalar : Scalar} {fromFiles single : List Setting}
      {layer : Layer} {layers : List Layer} (origin : Option String) :
      Layer.ofKey setting.key (.scalar origin scalar) = .ok layer → setting.Written scalar →
      LayersSet disk layers fromFiles single →
      LayersSet disk (layer :: layers) fromFiles (setting :: single)

theorem Setting.plain_name (setting : Setting) : KeyPath.Plain setting.name := by
  cases setting <;>
  · dsimp only [name]
    exact ⟨by decide, by decide⟩

theorem Setting.parse_key (setting : Setting) :
    KeyPath.parse? setting.key = some [.key setting.part.key, .key setting.name] :=
  KeyPath.parse?_dotted setting.part.plain_key setting.plain_name

/-- A layer that is made from the key of a setting. -/
theorem Setting.ofKey_eq {setting : Setting} {value : Value} {layer : Layer}
    (h : Layer.ofKey setting.key value = .ok layer) :
    layer = .setting [.key setting.part.key, .key setting.name] value := by
  rw [Layer.ofKey, setting.parse_key] at h
  exact (Except.ok.inj h).symm

namespace LayersSet

variable {disk : Disk} {layers : List Layer} {fromFiles single : List Setting}

/-- A file that is there is read as its document. -/
theorem read_file {path shown text : String} {entries : List (String × Value)}
    (hfetch : Files.answer (ConfigFile.fetch Disk.files path) disk = .ok (shown, text))
    (hread : Toml.read? (some shown) text = some entries) (required : Bool) :
    Files.answer (ConfigFile.read Disk.files path required) disk = .ok entries := by
  rw [ConfigFile.read, (Disk.steady.fetch path).answer_bind, hfetch]
  dsimp only
  rw [hread]
  rfl

/-- An absent file that is not required is read as nothing. -/
theorem read_absent {path : String}
    (hfind : Files.answer (ConfigFile.find? Disk.files path) disk = none) :
    Files.answer (ConfigFile.read Disk.files path false) disk = .ok [] := by
  have hfetch : Files.answer (ConfigFile.fetch Disk.files path) disk
      = .error (.fileNotFound path) := by
    rw [ConfigFile.fetch, (Disk.steady.find path).answer_bind, hfind]
    rfl
  rw [ConfigFile.read, (Disk.steady.fetch path).answer_bind, hfetch]
  rfl

theorem readAll_cons {path : String} {required : Bool} {entries : List (String × Value)}
    {rest : List (String × Bool)} {others : List (List (String × Value))}
    (hfirst : Files.answer (ConfigFile.read Disk.files path required) disk = .ok entries)
    (hrest : Files.answer (ConfigFile.readAll Disk.files rest) disk = .ok others) :
    Files.answer (ConfigFile.readAll Disk.files ((path, required) :: rest)) disk
      = .ok (entries :: others) := by
  rw [ConfigFile.readAll, (Disk.steady.readFile path required).answer_bind, hfirst]
  dsimp only
  rw [(Disk.steady.readAll rest).answer_bind, hrest]
  rfl

/-- **All files are read**, and laid on a tree they change the settings that they give. -/
theorem files (h : LayersSet disk layers fromFiles single) :
    ∃ documents,
      Files.answer (ConfigFile.readAll Disk.files (layers.filterMap Layer.file?)) disk
        = .ok documents
      ∧ ∀ tree config, Holds tree config →
        Holds (documents.foldl Value.layFile tree) (fromFiles.foldl Setting.apply config) := by
  induction h with
  | nil => exact ⟨[], rfl, fun _ _ hholds => hholds⟩
  | file hfetch hread hentries _ ih =>
      obtain ⟨documents, hall, hlay⟩ := ih
      refine ⟨_, readAll_cons (read_file hfetch hread _) hall, ?_⟩
      intro tree config hholds
      rw [List.foldl_cons, List.foldl_append]
      exact hlay _ _ (hholds.layFile hentries)
  | absent hfind _ ih =>
      obtain ⟨documents, hall, hlay⟩ := ih
      exact ⟨_, readAll_cons (read_absent hfind) hall, hlay⟩
  | setting origin hkey _ _ ih =>
      rw [Setting.ofKey_eq hkey]
      exact ih

/-- **All single settings**, laid on a tree, change what they set. -/
theorem settings (h : LayersSet disk layers fromFiles single) {tree : Value} {config : Config}
    (hholds : Holds tree config) :
    Holds ((layers.filterMap Layer.setting?).foldl
        (fun settings (path, value) => Value.lay value path settings) tree)
      (single.foldl Setting.apply config) := by
  induction h generalizing tree config with
  | nil => exact hholds
  | file _ _ _ _ ih => exact ih hholds
  | absent _ _ ih => exact ih hholds
  | setting origin hkey hwritten _ ih =>
      rw [Setting.ofKey_eq hkey]
      exact ih (hholds.lay hwritten origin)

/-- **The layers are loaded**: files in order, and then the single settings in order. -/
theorem load (h : LayersSet disk layers fromFiles single) :
    Files.answer (Config.load Disk.files layers) disk
      = .ok ((fromFiles ++ single).foldl Setting.apply {}) := by
  obtain ⟨documents, hall, hlay⟩ := h.files
  rw [Config.load_eq, Config.loadOver, (Disk.steady.readAll _).answer_bind, hall]
  refine ofSettings_of_holds ?_
  rw [Config.settings_defaults, List.foldl_append]
  exact h.settings (hlay _ _ (holds_toSettings {}))

end LayersSet

/-! ## The last one decides -/

/-- What is decided by the last single setting, or else by the last setting of the files, or else
by the default. -/
def decided {α : Type} (pick : Setting → Option α) (fromFiles single : List Setting)
    (default : α) : α :=
  match (single.filterMap pick).getLast?, (fromFiles.filterMap pick).getLast? with
  | some value, _ => value
  | none, some value => value
  | none, none => default

/-- A field of a configuration that one kind of setting decides. -/
theorem foldl_apply {α : Type} {f : Config → α} {pick : Setting → Option α}
    (hf : ∀ config (setting : Setting),
      f (setting.apply config) = (pick setting).getD (f config))
    (settings : List Setting) (config : Config) :
    f (settings.foldl Setting.apply config)
      = ((settings.filterMap pick).getLast?).getD (f config) := by
  -- from the end, where the setting stands that decides
  induction settings using List.reverseRecOn with
  | nil => rfl
  | append_singleton settings setting ih =>
      rw [List.foldl_append, List.foldl_cons, List.foldl_nil, hf, ih, List.filterMap_append]
      cases hpick : pick setting with
      | none => simp [hpick]
      | some value => simp [hpick]

theorem foldl_apply_append {α : Type} {f : Config → α} {pick : Setting → Option α}
    (hf : ∀ config (setting : Setting),
      f (setting.apply config) = (pick setting).getD (f config))
    (fromFiles single : List Setting) (config : Config) :
    f ((fromFiles ++ single).foldl Setting.apply config)
      = decided pick fromFiles single (f config) := by
  rw [List.foldl_append, foldl_apply hf, foldl_apply hf, decided]
  cases (single.filterMap pick).getLast? with
  | some value => rfl
  | none => cases (fromFiles.filterMap pick).getLast? <;> rfl

/-- **Each setting is decided for itself.** Layers that give settings load, and each of the five
settings is what was set last singly, or else last in a file, or else the default. -/
theorem layers_decide_each_setting {disk : Disk} {layers : List Layer}
    {fromFiles single : List Setting} (h : LayersSet disk layers fromFiles single) :
    ∃ config, Files.answer (Config.load Disk.files layers) disk = .ok config
      ∧ config.options.matchTable = decided Setting.matchTable? fromFiles single "__match"
      ∧ config.options.scopeConstructor
        = decided Setting.scopeConstructor? fromFiles single "MatchScope.new"
      ∧ config.options.rejectUnterminated
        = decided Setting.rejectUnterminated? fromFiles single true
      ∧ config.format = decided Setting.format? fromFiles single .lua
      ∧ config.filter = decided Setting.filter? fromFiles single "warn" := by
  refine ⟨_, h.load, ?_, ?_, ?_, ?_, ?_⟩
  · refine foldl_apply_append (f := fun config => config.options.matchTable) ?_ _ _ {}
    intro config setting
    cases setting <;> rfl
  · refine foldl_apply_append (f := fun config => config.options.scopeConstructor) ?_ _ _ {}
    intro config setting
    cases setting <;> rfl
  · refine foldl_apply_append (f := fun config => config.options.rejectUnterminated) ?_ _ _ {}
    intro config setting
    cases setting <;> rfl
  · refine foldl_apply_append (f := fun config => config.format) ?_ _ _ {}
    intro config setting
    cases setting <;> rfl
  · refine foldl_apply_append (f := fun config => config.filter) ?_ _ _ {}
    intro config setting
    cases setting <;> rfl

/-- Two files that set the match table, the second one named without its extension, a file that is
absent, and filters set singly before and between them. -/
theorem layers_decide_each_setting_files :
    let upper := "[transpile]\nmatch_table = \"m\"\n"
    let lower := "transpile.match_table = \"n\"\n"
    let disk : Disk :=
      ⟨[(["d", "u.toml"], .file upper.toUTF8), (["d", "v.toml"], .file lower.toUTF8)], ["d"]⟩
    let filter (name : String) : Layer :=
      .setting [.key "log", .key "filter"] (.scalar none (.text name))
    ∃ config, Files.answer (Config.load Disk.files [filter "debug", .file "u.toml" true,
          filter "trace", .file "w" false, .file "v" true]) disk = .ok config
      ∧ config.options.matchTable = "n" ∧ config.options.scopeConstructor = "MatchScope.new"
      ∧ config.options.rejectUnterminated = true ∧ config.format = .lua
      ∧ config.filter = "trace" := by
  intro upper lower disk filter
  have hfilter : ∀ name, Layer.ofKey (Setting.filter name).key (.scalar none (.text name))
      = .ok (filter name) := by
    intro name
    rw [Layer.ofKey, Setting.parse_key]
    rfl
  have htable : ∀ origin name, DocumentSets
      [("transpile", .table origin [("match_table", .scalar origin (.text name))])]
      ([.matchTable name] ++ []) := by
    intro origin name
    have hfields : FieldsSet .transpile [("match_table", .scalar origin (.text name))]
        [.matchTable name] := .cons origin rfl (.matchTable name) .nil
    exact .cons origin hfields .nil
  have hupper : Files.answer (ConfigFile.fetch Disk.files "u.toml") disk
      = .ok ("u.toml", upper) := by
    have hfound : Files.answer (ConfigFile.find? Disk.files "u.toml") disk = some "u.toml" := rfl
    have hshown : ConfigFile.shownPath ("/" ++ "/".intercalate ["d"]) "u.toml" = "u.toml" := by
      decide
    rw [Disk.steady.answer_fetch hfound rfl]
    exact congrArg (fun shown => (.ok (shown, upper) : Except ConfigError _)) hshown
  have hlower : Files.answer (ConfigFile.fetch Disk.files "v") disk = .ok ("v.toml", lower) := by
    have hfound : Files.answer (ConfigFile.find? Disk.files "v") disk = some "v.toml" := rfl
    have hshown : ConfigFile.shownPath ("/" ++ "/".intercalate ["d"]) "v.toml" = "v.toml" := by
      decide
    rw [Disk.steady.answer_fetch hfound rfl]
    exact congrArg (fun shown => (.ok (shown, lower) : Except ConfigError _)) hshown
  have htranspile : Toml.Bare "transpile".toList := ⟨by decide, by decide⟩
  have hname : Toml.Bare "match_table".toList := ⟨by decide, by decide⟩
  have hreadUpper : Toml.read? (some "u.toml") upper = some [("transpile",
      .table (some "u.toml") [("match_table", .scalar (some "u.toml") (.text "m"))])] := by
    have hupper : upper
        = ("[" ++ "transpile" ++ "]\n") ++ ("match_table" ++ " = \"" ++ "m" ++ "\"\n") := by decide
    rw [hupper]
    exact Toml.read?_header htranspile hname (by decide) (by decide)
  have hreadLower : Toml.read? (some "v.toml") lower = some [("transpile",
      .table (some "v.toml") [("match_table", .scalar (some "v.toml") (.text "n"))])] := by
    have hlower : lower
        = "transpile" ++ "." ++ "match_table" ++ " = \"" ++ "n" ++ "\"\n" := by decide
    rw [hlower]
    exact Toml.read?_dotted htranspile hname (by decide) (by decide)
  have hlayers : LayersSet disk [filter "debug", .file "u.toml" true, filter "trace",
      .file "w" false, .file "v" true] [.matchTable "m", .matchTable "n"]
      [.filter "debug", .filter "trace"] := by
    refine .setting none (hfilter _) (.filter _) ?_
    refine LayersSet.file hupper hreadUpper (htable _ _) ?_
    refine .setting none (hfilter _) (.filter _) ?_
    refine .absent rfl ?_
    exact LayersSet.file hlower hreadLower (htable _ _) .nil
  exact layers_decide_each_setting hlayers

end Keybind
