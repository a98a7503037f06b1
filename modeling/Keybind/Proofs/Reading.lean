import Keybind.Output
import Keybind.Proofs.Defaults

/-!
# Actions that only read

A run looks at many files before it writes one, and where looking leaves the state
of all files as it is (`Files.Steady`) all of these looks leave it as it is. `Reads`
says so of an action, and is shown once for each action that a run is made of;
after that such an action is no more than its answer (`Reads.run_bind`).
-/

namespace Keybind

namespace Files

variable {σ α β : Type}

/-- The action leaves the state as it is. -/
def Reads (action : StateM σ α) : Prop :=
  ∀ state, (action.run state).2 = state

/-- What an action that only reads answers. -/
def answer (action : StateM σ α) (state : σ) : α :=
  (action.run state).1

theorem Reads.pure (a : α) : Reads (pure a : StateM σ α) :=
  fun _ => rfl

theorem Reads.bind {action : StateM σ α} {next : α → StateM σ β} (h : Reads action)
    (hnext : ∀ a, Reads (next a)) : Reads (action >>= next) := by
  intro state
  calc ((action >>= next).run state).2
      = ((next (action.run state).1).run (action.run state).2).2 := rfl
    _ = (action.run state).2 := hnext _ _
    _ = state := h state

/-- **What follows an action that only reads** starts from the same state. -/
theorem Reads.run_bind {action : StateM σ α} (h : Reads action) (next : α → StateM σ β)
    (state : σ) : (action >>= next).run state = (next (answer action state)).run state := by
  have hrun : (action >>= next).run state
      = (next (action.run state).1).run (action.run state).2 := rfl
  rw [hrun, h state]
  rfl

theorem Reads.answer_bind {action : StateM σ α} (h : Reads action) (next : α → StateM σ β)
    (state : σ) : answer (action >>= next) state = answer (next (answer action state)) state := by
  unfold answer
  rw [h.run_bind]
  rfl

/-- Looking at files leaves the state as it is, whatever it answers. -/
structure Steady (files : Files (StateM σ)) : Prop where
  read : ∀ path, Reads (files.read path)
  isFile : ∀ path, Reads (files.isFile path)
  here : Reads files.here

namespace Steady

variable {files : Files (StateM σ)}

/-! ### Texts -/

theorem readText (h : files.Steady) (path : String) : Reads (files.readText path) := by
  refine (h.read path).bind fun result => ?_
  cases result with
  | error e => exact .pure _
  | ok bytes =>
      dsimp only
      split
      · exact .pure _
      · exact .pure _

theorem fromUTF8?_toUTF8 (text : String) : String.fromUTF8? text.toUTF8 = some text := by
  unfold String.fromUTF8?
  exact dif_pos text.isValidUTF8

/-- A file that holds a text is read as that text. -/
theorem answer_readText (h : files.Steady) {state : σ} {path text : String}
    (hread : answer (files.read path) state = .ok text.toUTF8) :
    answer (files.readText path) state = .ok text := by
  rw [Files.readText, (h.read path).answer_bind, hread]
  dsimp only
  rw [fromUTF8?_toUTF8]
  rfl

/-! ### Configuration files -/

theorem find (h : files.Steady) (path : String) : Reads (ConfigFile.find? files path) := by
  refine (h.isFile path).bind fun found => ?_
  split
  · exact .pure _
  · split
    · exact .pure _
    · refine (h.isFile _).bind fun found => ?_
      split
      · exact .pure _
      · exact .pure _

theorem fetch (h : files.Steady) (path : String) : Reads (ConfigFile.fetch files path) := by
  refine (h.find path).bind fun found => ?_
  split
  · exact .pure _
  · refine (h.readText _).bind fun result => ?_
    split
    · exact .pure _
    · exact h.here.bind fun _ => .pure _

/-- A configuration file that is found is fetched with its text. -/
theorem answer_fetch (h : files.Steady) {state : σ} {path found text : String}
    (hfound : answer (ConfigFile.find? files path) state = some found)
    (hread : answer (files.read found) state = .ok text.toUTF8) :
    answer (ConfigFile.fetch files path) state
      = .ok (ConfigFile.shownPath (answer files.here state) found, text) := by
  rw [ConfigFile.fetch, (h.find path).answer_bind, hfound]
  dsimp only
  rw [(h.readText found).answer_bind, h.answer_readText hread]
  dsimp only
  rw [h.here.answer_bind]
  rfl

theorem readFile (h : files.Steady) (path : String) (required : Bool) :
    Reads (ConfigFile.read files path required) := by
  refine (h.fetch path).bind fun result => ?_
  split
  · exact .pure _
  · split
    · exact .pure _
    · exact .pure _

theorem readAll (h : files.Steady) (paths : List (String × Bool)) :
    Reads (ConfigFile.readAll files paths) := by
  induction paths with
  | nil => exact .pure _
  | cons first rest ih =>
      refine (h.readFile first.1 first.2).bind fun result => ?_
      split
      · exact .pure _
      · refine ih.bind fun others => ?_
        split
        · exact .pure _
        · exact .pure _

/-- **Loading a configuration only reads.** -/
theorem load (h : files.Steady) (layers : List Layer) : Reads (Config.load files layers) := by
  rw [Config.load_eq, Config.loadOver]
  refine (h.readAll _).bind fun result => ?_
  split
  · exact .pure _
  · exact .pure _

/-! ### Scripts -/

theorem script (h : files.Steady) (path : String) : Reads (Script.load files path) := by
  refine (h.readText path).bind fun result => ?_
  split
  · exact .pure _
  · exact .pure _

/-- **Rendering a script only reads.** -/
theorem renderFile (h : files.Steady) (options : Options) (format : Format) (path : String) :
    Reads (renderFile files options format path) := by
  refine (h.script path).bind fun loaded => ?_
  split
  · exact .pure _
  · exact .pure _

/-- The script of a file that holds a text is rendered from that text. -/
theorem answer_renderFile (h : files.Steady) {state : σ} {path source : String}
    (hread : answer (files.read path) state = .ok source.toUTF8) (options : Options)
    (format : Format) :
    (answer (Keybind.renderFile files options format path) state).outcome
      = ((Script.ofPath path source).render options format).outcome.mapError .transpile := by
  rw [Keybind.renderFile, (h.script path).answer_bind, Script.load, (h.readText path).answer_bind,
    h.answer_readText hread]
  rfl

end Steady

end Files

/-- Looking at the files of a disk leaves the disk as it is. -/
theorem Disk.steady : Disk.files.Steady where
  read _ _ := rfl
  isFile _ _ := rfl
  here _ := rfl

end Keybind
