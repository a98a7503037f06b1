import Keybind.CommandLine.Run
import Keybind.Proofs.Precedence
import Keybind.Proofs.Storage

/-!
# What a run of the command line leaves behind

A run reads its arguments, its configuration and its script before it does
anything that others can see. If one of these fails, or if the output cannot be
written, it leaves an exit code and a complaint and nothing else. `Ends` lists
the ways in which a run can end; what holds of every run is read off from them.
Of the files no more is asked than that they are lawful, so that they may also
refuse to be read or written.

A run that only checks fails exactly if the run that transpiles does. It reads
the same options: a format that is given on the command line is laid on the
settings of the output, and these are not looked at for the options.
-/

namespace Keybind

namespace CommandLine

open Files (answer)

variable {σ : Type} {files : Files (StateM σ)} {Stored : σ → String → ByteArray → σ → Prop}

/-! ## The ways in which a run ends -/

/-- The script that a run works on, in the format that the run asks for. -/
def rendered (files : Files (StateM σ)) (arguments : Arguments) (config : Config) (path : String)
    (state : σ) : Except OutputError (List Char) :=
  (answer (renderFile files config.options
    (if arguments.check then .lua else config.format) path) state).outcome

/-- The ways in which a run ends that has its configuration and its path. -/
inductive ScriptEnds (files : Files (StateM σ)) (arguments : Arguments) (config : Config)
    (path : String) (state : σ) : Outcome → σ → Prop where
  /-- The script cannot be read, or cannot be turned into Lua. -/
  | fault {error : OutputError} (filter : LogFilter) (events : List Event) :
      rendered files arguments config path state = .error error →
      ScriptEnds files arguments config path state
        (.failed (logLines filter events ++ ["Error: " ++ error.message])) state
  | checked {text : List Char} (filter : LogFilter) (events : List Event) :
      rendered files arguments config path state = .ok text → arguments.check = true →
      ScriptEnds files arguments config path state { stderr := logLines filter events } state
  | shown {text : List Char} (filter : LogFilter) (events : List Event) :
      rendered files arguments config path state = .ok text → arguments.check = false →
      arguments.output = none →
      ScriptEnds files arguments config path state
        { stdout := String.ofList text, stderr := logLines filter events } state
  | unwritable {text : List Char} {target : String} {error : FileError} (filter : LogFilter)
      (events : List Event) :
      rendered files arguments config path state = .ok text → arguments.check = false →
      arguments.output = some target →
      (files.write target (String.ofList text).toUTF8).run state = (.error error, state) →
      ScriptEnds files arguments config path state
        (.failed (logLines filter events
          ++ ["Error writing " ++ target ++ ": " ++ error.message])) state
  | written {text : List Char} {target : String} {after : σ} (filter : LogFilter)
      (events : List Event) :
      rendered files arguments config path state = .ok text → arguments.check = false →
      arguments.output = some target →
      (files.write target (String.ofList text).toUTF8).run state = (.ok (), after) →
      ScriptEnds files arguments config path state { stderr := logLines filter events } after

/-- The ways in which a run ends. -/
inductive Ends (files : Files (StateM σ)) (args : List String) (state : σ) :
    Outcome → σ → Prop where
  /-- The arguments are not read to their end. -/
  | halted {halt : Halt} : Arguments.read args = .error halt →
      Ends files args state (CommandLine.halted halt) state
  | formats {arguments : Arguments} : Arguments.read args = .ok arguments →
      arguments.listFormats = true → Ends files args state { stdout := formatsText } state
  | unconfigured {arguments : Arguments} {error : ConfigError} :
      Arguments.read args = .ok arguments → arguments.listFormats = false →
      answer (Config.load files (layers arguments)) state = .error error →
      Ends files args state (.failed ["Configuration error: " ++ error.message]) state
  | pathless {arguments : Arguments} : Arguments.read args = .ok arguments →
      arguments.listFormats = false → arguments.path = none →
      Ends files args state (.failed ["Error: missing <path>"]) state
  | script {arguments : Arguments} {config : Config} {path : String} {outcome : Outcome}
      {after : σ} :
      Arguments.read args = .ok arguments → arguments.listFormats = false →
      answer (Config.load files (layers arguments)) state = .ok config →
      arguments.path = some path → ScriptEnds files arguments config path state outcome after →
      Ends files args state outcome after

theorem runScript_ends (h : files.Lawful Stored) (environment : Option String)
    (arguments : Arguments) (config : Config) (path : String) (state : σ) :
    ScriptEnds files arguments config path state
      ((runScript files environment arguments config path).run state).1
      ((runScript files environment arguments config path).run state).2 := by
  unfold runScript
  dsimp only
  rw [(h.renderFile config.options _ path).run_bind]
  generalize hrun : answer (renderFile files config.options
    (if arguments.check then .lua else config.format) path) state = run
  have hrendered : rendered files arguments config path state = run.outcome :=
    congrArg Traced.outcome hrun
  cases houtcome : run.outcome with
  | error error => exact .fault _ _ (hrendered.trans houtcome)
  | ok text =>
      have hok := hrendered.trans houtcome
      dsimp only
      split
      · rename_i hcheck
        exact .checked _ _ hok hcheck
      · rename_i hcheck
        have hcheck : arguments.check = false := by simpa using hcheck
        unfold deliver
        dsimp only
        cases houtput : arguments.output with
        | none => exact .shown _ _ hok hcheck houtput
        | some target =>
            have hbind : ∀ next : Except FileError Unit → StateM σ Outcome,
                (files.write target (String.ofList text).toUTF8 >>= next).run state
                  = (next ((files.write target (String.ofList text).toUTF8).run state).1).run
                    ((files.write target (String.ofList text).toUTF8).run state).2 :=
              fun _ => rfl
            dsimp only
            rw [hbind]
            rcases hwrite : (files.write target (String.ofList text).toUTF8).run state
              with ⟨error | ⟨⟩, after⟩
            · obtain rfl := h.unwritten hwrite
              exact .unwritable _ _ hok hcheck houtput hwrite
            · exact .written _ _ hok hcheck houtput hwrite

/-- **A run ends in one of these ways.** -/
theorem run_ends (h : files.Lawful Stored) (environment : Option String) (args : List String)
    (state : σ) :
    Ends files args state ((run files environment args).run state).1
      ((run files environment args).run state).2 := by
  unfold run
  cases hread : Arguments.read args with
  | error halt => exact .halted hread
  | ok arguments =>
      dsimp only
      cases hformats : arguments.listFormats with
      | true => exact .formats hread hformats
      | false =>
          have hload : ∀ next : Except ConfigError Config → StateM σ Outcome,
              (Config.load files (layers arguments) >>= next).run state
                = (next (answer (Config.load files (layers arguments)) state)).run state :=
            fun next => (h.load (layers arguments)).run_bind next state
          rw [if_neg Bool.false_ne_true, hload]
          cases hconfig : answer (Config.load files (layers arguments)) state with
          | error error => exact .unconfigured hread hformats hconfig
          | ok config =>
              dsimp only
              cases hpath : arguments.path with
              | none => exact .pathless hread hformats hpath
              | some path =>
                  exact .script hread hformats hconfig hpath
                    (runScript_ends h environment arguments config path state)

/-! ## Checking -/

/-- A configuration is read section by section. -/
theorem ofSettings_ok {tree : Value} {config : Config} (h : Config.ofSettings tree = .ok config) :
    Config.readSection tree .transpile Config.readOptions = .ok config.options
      ∧ Config.readSection tree .output
          (Config.readSingle .output "format" fun _ => Config.readFormat) = .ok config.format := by
  unfold Config.ofSettings at h
  cases hoptions : Config.readSection tree .transpile Config.readOptions with
  | error e => rw [hoptions] at h; cases h
  | ok options =>
      cases hformat : Config.readSection tree .output
          (Config.readSingle .output "format" fun _ => Config.readFormat) with
      | error e => rw [hoptions, hformat] at h; cases h
      | ok format =>
          rw [hoptions, hformat] at h
          cases hfilter : Config.readSection tree .log (Config.readSingle .log "filter"
              Config.readText) with
          | error e => rw [hfilter] at h; cases h
          | ok filter =>
              rw [hfilter] at h
              cases h
              exact ⟨rfl, rfl⟩

/-- The settings with the format that the arguments give. -/
def withFormat (tree : Value) : Option Format → Value
  | none => tree
  | some format => Value.lay (.scalar none (.text format.name)) [.key "output", .key "format"] tree

/-- The only setting among the layers of a run is its format. -/
theorem foldl_layers (arguments : Arguments) (tree : Value) :
    ((layers arguments).filterMap Layer.setting?).foldl
        (fun settings (path, value) => Value.lay value path settings) tree
      = withFormat tree arguments.format := by
  unfold layers
  cases arguments.config <;> cases arguments.format <;> rfl

/-- A format that is given is laid on what the configuration file leaves. -/
theorem load_layers (h : files.Steady) {arguments : Arguments} {state : σ} {config : Config}
    (hload : answer (Config.load files (layers arguments)) state = .ok config) :
    ∃ documents, answer (ConfigFile.readAll files
          (arguments.config.map fun path => (path, true)).toList) state = .ok documents
      ∧ Config.ofSettings (withFormat (documents.foldl Value.layFile ({} : Config).toSettings)
        arguments.format) = .ok config := by
  have hfiles : (layers arguments).filterMap Layer.file?
      = (arguments.config.map fun path => (path, true)).toList := by
    unfold layers
    cases arguments.config <;> cases arguments.format <;> rfl
  rw [Config.load_eq, Config.loadOver, (h.readAll _).answer_bind, hfiles] at hload
  cases hdocuments : answer (ConfigFile.readAll files
      (arguments.config.map fun path => (path, true)).toList) state with
  | error e => rw [hdocuments] at hload; cases hload
  | ok documents =>
      rw [hdocuments] at hload
      refine ⟨documents, rfl, ?_⟩
      rw [← foldl_layers, ← Config.settings_defaults]
      exact hload

/-- A format that is given is what is read, and the options do not mind. -/
theorem lookup_withFormat (tree : Value) (format : Format) (key : String) :
    (withFormat tree (some format)).asTable.2.lookup key
      = if key = "output" then
          some (Value.layKey "format" (.scalar none (.text format.name))
            ((tree.asTable.2.lookup "output").getD .nil))
        else tree.asTable.2.lookup key := by
  have hlay : withFormat tree (some format)
      = tree.editKey "output" .nil (Value.layKey "format" (.scalar none (.text format.name))) := by
    rw [withFormat, Value.lay]
    · rfl
    · intro heq
      cases heq
  rw [hlay, Value.lookup_editKey (by decide)]

theorem readOptions_withFormat (tree : Value) (format : Option Format) :
    Config.readSection (withFormat tree format) .transpile Config.readOptions
      = Config.readSection tree .transpile Config.readOptions := by
  cases format with
  | none => rfl
  | some format =>
      unfold Config.readSection
      rw [lookup_withFormat, if_neg (by decide)]

/-- A section of the output with its format laid on it. -/
theorem sectionHolds_layKey (format : Format) (value : Value) :
    SectionHolds .output (Value.layKey "format" (.scalar none (.text format.name)) value)
      { format := format } := by
  intro setting hmem hpart
  have hsetting : setting = .format format := by
    simp only [Config.toList, List.mem_cons, List.not_mem_nil, or_false] at hmem
    rcases hmem with rfl | rfl | rfl | rfl | rfl
    · cases hpart
    · cases hpart
    · cases hpart
    · rfl
    · cases hpart
  subst hsetting
  refine ⟨none, .text format.name, ?_, .format format.lower_name⟩
  rw [Value.layKey, Value.lookup_editKey (by decide), if_pos (by rfl)]

theorem readFormat_withFormat (tree : Value) (format : Format) :
    Config.readSection (withFormat tree (some format)) .output
        (Config.readSingle .output "format" fun _ => Config.readFormat) = .ok format := by
  unfold Config.readSection
  rw [lookup_withFormat, if_pos (by rfl)]
  exact readFormat_of_holds (sectionHolds_layKey format _)

/-- The arguments of the run that transpiles what another one checks: it asks for Lua and for no
file, with the same script and the same configuration file. -/
structure Transpiles (plain checking : Arguments) : Prop where
  runs : plain.listFormats = false ∧ plain.check = false
  checks : checking.listFormats = false ∧ checking.check = true
  format : plain.format = some .lua
  output : plain.output = none
  path : plain.path = checking.path
  config : plain.config = checking.config

/-- **A run that checks has the options of the run that transpiles**, and both turn the script into
Lua. -/
theorem Transpiles.rendered_eq {plain checking : Arguments} (htwin : Transpiles plain checking)
    (h : files.Steady) {state : σ} {config config' : Config}
    (hplain : answer (Config.load files (layers plain)) state = .ok config)
    (hchecking : answer (Config.load files (layers checking)) state = .ok config')
    (path : String) :
    rendered files plain config path state = rendered files checking config' path state := by
  obtain ⟨documents, hdocuments, hsettings⟩ := load_layers h hplain
  obtain ⟨documents', hdocuments', hsettings'⟩ := load_layers h hchecking
  rw [htwin.config, hdocuments'] at hdocuments
  cases hdocuments
  rw [htwin.format] at hsettings
  have hoptions : config.options = config'.options := by
    have hread := (ofSettings_ok hsettings).1
    have hread' := (ofSettings_ok hsettings').1
    rw [readOptions_withFormat] at hread hread'
    exact Except.ok.inj (hread.symm.trans hread')
  have hformat : config.format = .lua := by
    have hread := (ofSettings_ok hsettings).2
    rw [readFormat_withFormat] at hread
    exact (Except.ok.inj hread).symm
  unfold rendered
  rw [hoptions, hformat, htwin.runs.2, htwin.checks.2]
  rfl

/-- The lines about the script on the error stream. -/
def errorLines (outcome : Outcome) : List String :=
  outcome.stderr.filter fun line => "Error: ".toList.isPrefixOf line.toList

/-- The fields of a log line stand behind what is there. -/
theorem exists_fields_eq (fields : List (String × Field)) (line : String) :
    ∃ rest, (fields.foldl (fun line (name, field) => line ++ " " ++ name ++ "=" ++ field.render)
        line).toList = line.toList ++ rest := by
  induction fields generalizing line with
  | nil => exact ⟨[], (List.append_nil _).symm⟩
  | cons field fields ih =>
      obtain ⟨rest, hrest⟩ := ih (line ++ " " ++ field.1 ++ "=" ++ field.2.render)
      rw [List.foldl_cons, hrest]
      simp only [String.toList_append, List.append_assoc]
      exact ⟨_, rfl⟩

/-- A log line starts with the level of its event. -/
theorem exists_line_eq (event : Event) :
    ∃ rest, event.line.toList = event.level.label.toList ++ rest := by
  obtain ⟨rest, hrest⟩ := exists_fields_eq event.fields (event.level.label ++ " " ++ event.message)
  rw [Event.line, hrest]
  simp only [String.toList_append, List.append_assoc]
  exact ⟨_, rfl⟩

/-- No log line is about the script. -/
theorem filter_logLines (filter : LogFilter) (events : List Event) (lines : List String) :
    (logLines filter events ++ lines).filter (fun line => "Error: ".toList.isPrefixOf line.toList)
      = lines.filter fun line => "Error: ".toList.isPrefixOf line.toList := by
  have hnone : (logLines filter events).filter
      (fun line => "Error: ".toList.isPrefixOf line.toList) = [] := by
    refine List.filter_eq_nil_iff.mpr fun line hline => ?_
    obtain ⟨event, -, rfl⟩ := List.mem_map.mp hline
    obtain ⟨rest, hrest⟩ := exists_line_eq event
    rw [hrest]
    cases event.level <;> exact Bool.false_ne_true
  rw [List.filter_append, hnone, List.nil_append]

/-- A complaint about the script is such a line. -/
theorem errorLines_complaint (filter : LogFilter) (events : List Event) (message : String) :
    errorLines (.failed (logLines filter events ++ ["Error: " ++ message]))
      = ["Error: " ++ message] := by
  refine (filter_logLines filter events _).trans (List.filter_cons_of_pos ?_)
  rw [String.toList_append]
  exact List.isPrefixOf_iff_prefix.mpr (List.prefix_append _ _)

/-- Nothing else that is logged is. -/
theorem errorLines_log (filter : LogFilter) (events : List Event) (code : Nat) (stdout : String) :
    errorLines ⟨code, stdout, logLines filter events⟩ = [] := by
  have hnone := filter_logLines filter events []
  rw [List.append_nil] at hnone
  exact hnone

namespace ScriptEnds

variable {arguments : Arguments} {config : Config} {path : String} {state after : σ}
  {outcome : Outcome}

/-- A run on a script that cannot be had complains about it. -/
theorem of_error (h : ScriptEnds files arguments config path state outcome after)
    {error : OutputError} (herror : rendered files arguments config path state = .error error) :
    outcome.code = 1 ∧ errorLines outcome = ["Error: " ++ error.message] := by
  cases h with
  | fault filter events herror' =>
      rw [herror] at herror'
      cases herror'
      exact ⟨rfl, errorLines_complaint filter events _⟩
  | checked _ _ hok => rw [herror] at hok; cases hok
  | shown _ _ hok => rw [herror] at hok; cases hok
  | unwritable _ _ hok => rw [herror] at hok; cases hok
  | written _ _ hok => rw [herror] at hok; cases hok

/-- A run that has its script, and is to write no file, ends well and has no complaint. -/
theorem of_ok (h : ScriptEnds files arguments config path state outcome after) {text : List Char}
    (hok : rendered files arguments config path state = .ok text)
    (hwrites : arguments.check = true ∨ arguments.output = none) :
    outcome.code = 0 ∧ errorLines outcome = [] := by
  cases h with
  | fault _ _ herror => rw [hok] at herror; cases herror
  | checked filter events => exact ⟨rfl, errorLines_log filter events _ _⟩
  | shown filter events => exact ⟨rfl, errorLines_log filter events _ _⟩
  | unwritable _ _ _ hcheck houtput =>
      rw [hcheck, houtput] at hwrites
      rcases hwrites with hyes | hnone
      · cases hyes
      · cases hnone
  | written _ _ _ hcheck houtput =>
      rw [hcheck, houtput] at hwrites
      rcases hwrites with hyes | hnone
      · cases hyes
      · cases hnone

end ScriptEnds

/-- **Checking fails as transpiling does.** -/
theorem ScriptEnds.agree {plain checking : Arguments} (htwin : Transpiles plain checking)
    {config config' : Config} {path : String} {state after after' : σ}
    {outcome outcome' : Outcome}
    (hrendered : rendered files plain config path state
      = rendered files checking config' path state)
    (hplain : ScriptEnds files plain config path state outcome after)
    (hchecking : ScriptEnds files checking config' path state outcome' after') :
    outcome'.code = outcome.code ∧ errorLines outcome' = errorLines outcome := by
  cases hscript : rendered files checking config' path state with
  | error error =>
      obtain ⟨hcode, hlines⟩ := hplain.of_error (hrendered.trans hscript)
      obtain ⟨hcode', hlines'⟩ := hchecking.of_error hscript
      exact ⟨hcode'.trans hcode.symm, hlines'.trans hlines.symm⟩
  | ok text =>
      obtain ⟨hcode, hlines⟩ := hplain.of_ok (hrendered.trans hscript) (.inr htwin.output)
      obtain ⟨hcode', hlines'⟩ := hchecking.of_ok hscript (.inl htwin.checks.2)
      exact ⟨hcode'.trans hcode.symm, hlines'.trans hlines.symm⟩

/-! ## Whole runs -/

/-- The output that the arguments ask for: the script in the configured format. -/
def Asks (files : Files (StateM σ)) (arguments : Arguments) (state : σ) (text : String) : Prop :=
  ∃ config path, answer (Config.load files (layers arguments)) state = .ok config
    ∧ arguments.path = some path
    ∧ (answer (renderFile files config.options config.format path) state).outcome
      = .ok text.toList

/-- What a run that ends well leaves behind. -/
structure Leaves (files : Files (StateM σ)) (Stored : σ → String → ByteArray → σ → Prop)
    (arguments : Arguments) (state : σ) (outcome : Outcome) (after : σ) : Prop where
  unchanged : arguments.listFormats = true ∨ arguments.check = true → after = state
  silent : arguments.listFormats = false → arguments.check = true → outcome.stdout = ""
  delivered : arguments.listFormats = false → arguments.check = false →
    ∃ text, Asks files arguments state text
      ∧ match arguments.output with
        | none => outcome.stdout = text ∧ after = state
        | some target => outcome.stdout = "" ∧ Stored state target text.toUTF8 after

/-- A run on a script that fails leaves nothing, and one that ends well leaves what was asked
for. -/
theorem ScriptEnds.effects (h : files.Lawful Stored) {arguments : Arguments} {config : Config}
    {path : String} {state after : σ} {outcome : Outcome} (hformats : arguments.listFormats = false)
    (hload : answer (Config.load files (layers arguments)) state = .ok config)
    (hpath : arguments.path = some path)
    (hends : ScriptEnds files arguments config path state outcome after) :
    outcome.code = 1 ∧ outcome.stdout = "" ∧ after = state
      ∨ outcome.code = 0 ∧ Leaves files Stored arguments state outcome after := by
  have hasks : ∀ text, rendered files arguments config path state = .ok text →
      arguments.check = false → Asks files arguments state (String.ofList text) := by
    intro text hok hcheck
    refine ⟨config, path, hload, hpath, ?_⟩
    rw [rendered, hcheck] at hok
    rw [String.toList_ofList]
    exact hok
  cases hends with
  | fault => exact .inl ⟨rfl, rfl, rfl⟩
  | unwritable => exact .inl ⟨rfl, rfl, rfl⟩
  | checked _ _ _ hcheck =>
      refine .inr ⟨rfl, fun _ => rfl, fun _ _ => rfl, fun _ hno => ?_⟩
      rw [hcheck] at hno
      cases hno
  | shown _ _ hok hcheck houtput =>
      refine .inr ⟨rfl, fun _ => rfl, fun _ hyes => ?_, fun _ _ => ⟨_, hasks _ hok hcheck, ?_⟩⟩
      · rw [hcheck] at hyes
        cases hyes
      · rw [houtput]
        exact ⟨rfl, rfl⟩
  | written _ _ hok hcheck houtput hwrite =>
      refine .inr ⟨rfl, fun hyes => ?_, fun _ _ => rfl, fun _ _ => ⟨_, hasks _ hok hcheck, ?_⟩⟩
      · rcases hyes with hyes | hyes
        · rw [hformats] at hyes
          cases hyes
        · rw [hcheck] at hyes
          cases hyes
      · rw [houtput]
        exact ⟨rfl, h.written hwrite⟩

/-- The same of every run that is not asked for help or for its version. -/
theorem Ends.effects (h : files.Lawful Stored) {args : List String} {state after : σ}
    {outcome : Outcome} (hends : Ends files args state outcome after)
    (hhelp : Arguments.read args ≠ .error .help)
    (hversion : Arguments.read args ≠ .error .version) :
    outcome.code = 1 ∧ outcome.stdout = "" ∧ after = state
      ∨ outcome.code = 0 ∧ ∃ arguments, Arguments.read args = .ok arguments
        ∧ Leaves files Stored arguments state outcome after := by
  cases hends with
  | @halted halt hread =>
      cases halt with
      | usage error => exact .inl ⟨rfl, rfl, rfl⟩
      | help => exact absurd hread hhelp
      | version => exact absurd hread hversion
  | formats hread hformats =>
      refine .inr ⟨rfl, _, hread, fun _ => rfl, fun hno => ?_, fun hno => ?_⟩
      · rw [hformats] at hno
        cases hno
      · rw [hformats] at hno
        cases hno
  | unconfigured => exact .inl ⟨rfl, rfl, rfl⟩
  | pathless => exact .inl ⟨rfl, rfl, rfl⟩
  | script hread hformats hload hpath hends =>
      rcases hends.effects h hformats hload hpath with hfailed | ⟨hcode, hleaves⟩
      · exact .inl hfailed
      · exact .inr ⟨hcode, _, hread, hleaves⟩

/-- A run that has its configuration works on its script, if it has a path. -/
theorem Ends.of_load {args : List String} {state after : σ} {outcome : Outcome}
    (hends : Ends files args state outcome after) {arguments : Arguments} {config : Config}
    (hread : Arguments.read args = .ok arguments) (hformats : arguments.listFormats = false)
    (hload : answer (Config.load files (layers arguments)) state = .ok config) :
    arguments.path = none ∧ outcome = .failed ["Error: missing <path>"]
      ∨ ∃ path, arguments.path = some path
        ∧ ScriptEnds files arguments config path state outcome after := by
  cases hends with
  | halted hhalt => rw [hread] at hhalt; cases hhalt
  | formats hread' hyes =>
      rw [hread] at hread'
      cases hread'
      rw [hformats] at hyes
      cases hyes
  | unconfigured hread' _ herror =>
      rw [hread] at hread'
      cases hread'
      rw [hload] at herror
      cases herror
  | pathless hread' _ hpath =>
      rw [hread] at hread'
      cases hread'
      exact .inl ⟨hpath, rfl⟩
  | script hread' _ hload' hpath hends =>
      rw [hread] at hread'
      cases hread'
      rw [hload] at hload'
      cases hload'
      exact .inr ⟨_, hpath, hends⟩

/-- A run that checks and the run that transpiles end alike, with or without a script. -/
theorem Ends.agree (h : files.Steady) {args args' : List String} {plain checking : Arguments}
    (htwin : Transpiles plain checking) {config config' : Config} {state after after' : σ}
    {outcome outcome' : Outcome} (hchecking : Ends files args state outcome after)
    (hplain : Ends files args' state outcome' after')
    (hread : Arguments.read args = .ok checking) (hread' : Arguments.read args' = .ok plain)
    (hload : answer (Config.load files (layers checking)) state = .ok config)
    (hload' : answer (Config.load files (layers plain)) state = .ok config') :
    outcome.code = outcome'.code ∧ errorLines outcome = errorLines outcome' := by
  rcases hchecking.of_load hread htwin.checks.1 hload with
    ⟨hpath, rfl⟩ | ⟨path, hpath, hends⟩ <;>
  rcases hplain.of_load hread' htwin.runs.1 hload' with
    ⟨hpath', rfl⟩ | ⟨path', hpath', hends'⟩ <;>
  rw [htwin.path, hpath] at hpath' <;>
  cases hpath'
  · exact ⟨rfl, rfl⟩
  · exact hends'.agree htwin (htwin.rendered_eq h hload' hload path) hends

/-- **A run has its effects only if it ends well**, whatever the files are. It ends with one or with
zero. With one, it has put out nothing and changed nothing. With zero it has changed nothing if it
only lists formats or checks, has put out nothing if it checks, and else has either put out what was
asked for, or put out nothing and stored it in the file that was asked for. A run that checks ends
with the same code and the same complaint as the run that transpiles. -/
theorem effects_of_lawful (h : files.Lawful Stored) (environment : Option String)
    {args : List String} (state : σ) (hhelp : Arguments.read args ≠ .error .help)
    (hversion : Arguments.read args ≠ .error .version) :
    let result := (run files environment args).run state
    (result.1.code = 0 ∨ result.1.code = 1)
      ∧ (result.1.code = 1 → result.1.stdout = "" ∧ result.2 = state)
      ∧ (result.1.code = 0 → ∃ arguments, Arguments.read args = .ok arguments
          ∧ Leaves files Stored arguments state result.1 result.2)
      ∧ ∀ (environment' : Option String) (args' : List String) (checking plain : Arguments)
          (config config' : Config),
        Arguments.read args = .ok checking → Arguments.read args' = .ok plain →
        Transpiles plain checking →
        answer (Config.load files (layers checking)) state = .ok config →
        answer (Config.load files (layers plain)) state = .ok config' →
        result.1.code = ((run files environment' args').run state).1.code
          ∧ errorLines result.1 = errorLines ((run files environment' args').run state).1 := by
  intro result
  have heffects := (run_ends h environment args state).effects h hhelp hversion
  refine ⟨?_, ?_, ?_, ?_⟩
  · rcases heffects with ⟨hcode, -⟩ | ⟨hcode, -⟩
    · exact .inr hcode
    · exact .inl hcode
  · intro hone
    rcases heffects with ⟨-, hnothing⟩ | ⟨hcode, -⟩
    · exact hnothing
    · exact absurd (hcode.symm.trans hone) Nat.zero_ne_one
  · intro hzero
    rcases heffects with ⟨hcode, -⟩ | ⟨-, hleaves⟩
    · exact absurd (hzero.symm.trans hcode) Nat.zero_ne_one
    · exact hleaves
  · intro environment' args' checking plain config config' hread hread' htwin hload hload'
    exact Ends.agree h.toSteady htwin (run_ends h environment args state)
      (run_ends h environment' args' state) hread hread' hload hload'

/-- Where the machine refuses every file that is to be written, as on a full device, no run changes
anything. -/
theorem run_unwritable (h : files.Lawful Stored) (reading : String → Option FileError)
    (fault : FileError) (environment : Option String) (args : List String) (state : σ) :
    ((run (files.withFaults reading fun _ => some fault) environment args).run state).2
      = state := by
  have hends := run_ends (h.withFaults reading fun _ => some fault) environment args state
  generalize ((run (files.withFaults reading fun _ => some fault) environment args).run state).1
    = outcome at hends
  generalize ((run (files.withFaults reading fun _ => some fault) environment args).run state).2
    = after at hends ⊢
  cases hends with
  | script _ _ _ _ hends =>
      cases hends with
      | written _ _ _ _ _ hwrite => cases congrArg Prod.fst hwrite
      | _ => rfl
  | _ => rfl

/-- **A run on a disk has its effects only if it ends well**: as above, and where the output is
stored in a file nothing else on the disk has changed. -/
theorem run_effects (environment : Option String) {args : List String} (disk : Disk)
    (hhelp : Arguments.read args ≠ .error .help) (hversion : Arguments.read args ≠ .error .version) :
    let result := (run Disk.files environment args).run disk
    (result.1.code = 0 ∨ result.1.code = 1)
      ∧ (result.1.code = 1 → result.1.stdout = "" ∧ result.2 = disk)
      ∧ (result.1.code = 0 → ∃ arguments, Arguments.read args = .ok arguments
          ∧ Leaves Disk.files Disk.Stored arguments disk result.1 result.2)
      ∧ ∀ (environment' : Option String) (args' : List String) (checking plain : Arguments)
          (config config' : Config),
        Arguments.read args = .ok checking → Arguments.read args' = .ok plain →
        Transpiles plain checking →
        answer (Config.load Disk.files (layers checking)) disk = .ok config →
        answer (Config.load Disk.files (layers plain)) disk = .ok config' →
        result.1.code = ((run Disk.files environment' args').run disk).1.code
          ∧ errorLines result.1 = errorLines ((run Disk.files environment' args').run disk).1 :=
  effects_of_lawful Disk.lawful environment disk hhelp hversion

/-- A script that is written to a file next to it, and one with a brace that is not closed, of which
a run that checks complains as the run that transpiles does. -/
theorem run_effects_written :
    let disk : Disk := ⟨[(["d", "k.hwk"], .file "a => b".toUTF8),
      (["d", "open.hwk"], .file "a => \x7b".toUTF8)], ["d"]⟩
    let arguments : Arguments := { path := some "k.hwk", output := some "k.lua" }
    let checking : Arguments := { path := some "open.hwk", check := true }
    let plain : Arguments := { path := some "open.hwk", format := some .lua }
    let writes := (run Disk.files none ["k.hwk", "-o", "k.lua"]).run disk
    let checks := ((run Disk.files none ["open.hwk", "--check"]).run disk).1
    let shows := ((run Disk.files none ["open.hwk", "-f", "lua"]).run disk).1
    (Arguments.read ["k.hwk", "-o", "k.lua"] = .ok arguments
        ∧ writes.1.code = 0 ∧ writes.1.stdout = ""
        ∧ ∃ text, Asks Disk.files arguments disk text
          ∧ Disk.Stored disk "k.lua" text.toUTF8 writes.2)
      ∧ Arguments.read ["open.hwk", "--check"] = .ok checking
      ∧ Arguments.read ["open.hwk", "-f", "lua"] = .ok plain
      ∧ Transpiles plain checking
      ∧ answer (Config.load Disk.files (layers checking)) disk = .ok {}
      ∧ answer (Config.load Disk.files (layers plain)) disk = .ok {}
      ∧ (checks.code = shows.code ∧ errorLines checks = errorLines shows)
      ∧ checks.code = 1
      ∧ errorLines checks = ["Error: unclosed `\x7b` opened at line 1, column 6"] := by
  intro disk arguments checking plain
  dsimp only
  have hread : Arguments.read ["k.hwk", "-o", "k.lua"] = .ok arguments := by rfl
  have hreadChecks : Arguments.read ["open.hwk", "--check"] = .ok checking := by rfl
  have hreadShows : Arguments.read ["open.hwk", "-f", "lua"] = .ok plain := by rfl
  have hasked : ∀ args (arguments : Arguments), Arguments.read args = .ok arguments →
      Arguments.read args ≠ .error .help ∧ Arguments.read args ≠ .error .version := by
    intro args arguments h
    rw [h]
    exact ⟨nofun, nofun⟩
  have hload : answer (Config.load Disk.files []) disk = .ok {} := LayersSet.load .nil
  have hformat : Layer.ofKey (Setting.format .lua).key (.scalar none (.text "lua"))
      = .ok (.setting [.key "output", .key "format"] (.scalar none (.text "lua"))) := by
    rw [Layer.ofKey, Setting.parse_key]
    rfl
  have hloadShows : answer (Config.load Disk.files (layers plain)) disk = .ok {} :=
    LayersSet.load (.setting none hformat (.format (by decide)) .nil)
  have htwin : Transpiles plain checking := ⟨⟨rfl, rfl⟩, ⟨rfl, rfl⟩, rfl, rfl, rfl, rfl⟩
  -- the script that is written
  have hsource : answer (Disk.files.read "k.hwk") disk = .ok "a => b".toUTF8 := rfl
  have hrendered : rendered Disk.files arguments {} "k.hwk" disk = .ok "__match[a] = b".toList := by
    rw [rendered, Disk.steady.answer_renderFile hsource]
    rfl
  have hwrite : ∀ bytes, (Disk.files.write "k.lua" bytes).run disk
      = (.ok (), disk.put ["d", "k.lua"] bytes) := fun _ => rfl
  have hcode : ((run Disk.files none ["k.hwk", "-o", "k.lua"]).run disk).1.code = 0 := by
    rcases (run_ends Disk.lawful none ["k.hwk", "-o", "k.lua"] disk).of_load hread rfl hload with
      ⟨hpath, -⟩ | ⟨path, hpath, hends⟩
    · cases hpath
    · cases hpath
      generalize ((run Disk.files none ["k.hwk", "-o", "k.lua"]).run disk).1 = outcome at hends ⊢
      generalize ((run Disk.files none ["k.hwk", "-o", "k.lua"]).run disk).2 = after at hends
      cases hends with
      | fault _ _ herror => rw [hrendered] at herror; cases herror
      | unwritable _ _ _ _ houtput herror =>
          cases houtput
          rw [hwrite] at herror
          cases congrArg Prod.fst herror
      | checked => rfl
      | shown => rfl
      | written => rfl
  obtain ⟨-, -, hzero, -⟩ := run_effects none disk (hasked _ _ hread).1 (hasked _ _ hread).2
  obtain ⟨arguments', hread', hleaves⟩ := hzero hcode
  rw [hread] at hread'
  cases hread'
  obtain ⟨text, hasks, hstdout, hstored⟩ := hleaves.delivered rfl rfl
  -- the script that is checked
  obtain ⟨-, -, -, hagree⟩ :=
    run_effects none disk (hasked _ _ hreadChecks).1 (hasked _ _ hreadChecks).2
  have hsourceOpen : answer (Disk.files.read "open.hwk") disk = .ok "a => \x7b".toUTF8 := rfl
  have hopen : rendered Disk.files checking {} "open.hwk" disk
      = .error (.transpile (.unbalancedOpen ⟨1, 6⟩)) := by
    rw [rendered, Disk.steady.answer_renderFile hsourceOpen]
    rfl
  have hcomplains : ((run Disk.files none ["open.hwk", "--check"]).run disk).1.code = 1
      ∧ errorLines ((run Disk.files none ["open.hwk", "--check"]).run disk).1
        = ["Error: unclosed `\x7b` opened at line 1, column 6"] := by
    rcases (run_ends Disk.lawful none ["open.hwk", "--check"] disk).of_load hreadChecks rfl hload
      with ⟨hpath, -⟩ | ⟨path, hpath, hends⟩
    · cases hpath
    · cases hpath
      exact hends.of_error hopen
  exact ⟨⟨hread, hcode, hstdout, text, hasks, hstored⟩, hreadChecks, hreadShows, htwin, hload,
    hloadShows, hagree none _ checking plain {} {} hreadChecks hreadShows htwin hload hloadShows,
    hcomplains⟩

end CommandLine

end Keybind
