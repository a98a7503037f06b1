import Keybind.Proofs.Reading
import Mathlib.Data.List.Infix

/-!
# Writing a file

A file is written by putting it at the place where its path leads. All places on
the way there are directories, before and after (`walk_put`), so the path leads
to the new file and no other place has changed (`write_stored`).

What else is asked of access to files is little: looking changes nothing, a write
that fails changes nothing either, and one that does not fail has stored the whole
file (`Files.Lawful`). The files of a disk are like this, and still are where the
machine refuses to read or to write some of them (`Files.Lawful.withFaults`).
-/

namespace Keybind

namespace Disk

/-! ## Places of a disk -/

/-- There is something at a place if something is listed there or further down, or relative paths
start there or further down. -/
theorem there_iff (disk : Disk) (place : List String) :
    disk.entry? place ≠ none
      ↔ (∃ listed ∈ disk.entries, place <+: listed.1) ∨ place <+: disk.here := by
  unfold entry?
  split
  · rename_i found entry hfind
    have hplace := List.find?_some hfind
    have hmem := List.mem_of_find?_eq_some hfind
    refine ⟨fun _ => .inl ⟨_, hmem, ?_⟩, fun _ => Option.some_ne_none entry⟩
    exact of_decide_eq_true hplace ▸ List.prefix_rfl
  · split
    · rename_i hdirectory
      simp only [Bool.or_eq_true, List.any_eq_true, List.isPrefixOf_iff_prefix] at hdirectory
      exact ⟨fun _ => hdirectory.symm, fun _ => Option.some_ne_none _⟩
    · rename_i hnothing
      simp only [Bool.or_eq_true, List.any_eq_true, List.isPrefixOf_iff_prefix] at hnothing
      exact ⟨fun h => absurd rfl h, fun h => absurd h.symm hnothing⟩

/-- What lies above something is something. -/
theorem there_above {disk : Disk} {place above : List String} (h : disk.entry? place ≠ none)
    (habove : above <+: place) : disk.entry? above ≠ none := by
  rw [there_iff] at h ⊢
  rcases h with ⟨listed, hmem, hprefix⟩ | hhere
  · exact .inl ⟨listed, hmem, habove.trans hprefix⟩
  · exact .inr (habove.trans hhere)

/-- All that lies above the place is there. -/
def Reachable (disk : Disk) (place : List String) : Prop :=
  ∀ above, above <+: place → above ≠ place → disk.entry? above ≠ none

theorem reachable_here (disk : Disk) : disk.Reachable disk.here :=
  fun above habove _ => (there_iff disk above).mpr (.inr habove)

theorem reachable_root (disk : Disk) : disk.Reachable [] :=
  fun _ habove hne => absurd (List.prefix_nil.mp habove) hne

theorem Reachable.dropLast {disk : Disk} {place : List String} (h : disk.Reachable place) :
    disk.Reachable place.dropLast := by
  intro above habove hne
  refine h above (habove.trans (List.dropLast_prefix place)) ?_
  rintro rfl
  exact hne (habove.eq_of_length (Nat.le_antisymm habove.length_le (by simp)))

theorem Reachable.child {disk : Disk} {place : List String} (h : disk.entry? place ≠ none)
    (part : String) : disk.Reachable (place ++ [part]) := by
  intro above habove hne
  rcases List.prefix_concat_iff.mp habove with heq | hprefix
  · exact absurd heq hne
  · exact there_above h hprefix

/-! ## Where a path leads -/

/-- A place where a file may be put: nothing or a file is there, and all that lies above is. -/
structure Free (disk : Disk) (place : List String) : Prop where
  reachable : disk.Reachable place
  notDirectory : disk.entry? place ≠ some .directory

/-- The place to which a path leads, unless that is a directory. -/
def Target.file? : Target → Option (List String)
  | found place (.file _) => some place
  | found _ .directory => none
  | absent place => some place

/-- The end of a way that leads to no directory. -/
theorem walk_nil {disk : Disk} {start : List String} {target : Target} {place : List String}
    (h : disk.walk start [] = .ok target) (hfile : target.file? = some place) :
    start = place ∧ disk.entry? start ≠ some .directory := by
  rw [walk] at h
  split at h
  · rename_i entry hentry
    cases h
    cases entry with
    | directory => cases hfile
    | file bytes => exact ⟨Option.some.inj hfile, by rw [hentry]; exact fun heq => nomatch heq⟩
  · rename_i hentry
    cases h
    exact ⟨Option.some.inj hfile, by rw [hentry]; exact fun heq => nomatch heq⟩

/-- **One step of a way** starts in a directory, and goes to the same place on every disk that has
a directory there. -/
theorem walk_cons {disk : Disk} {start : List String} {part : String} {parts : List String}
    {target : Target} (h : disk.walk start (part :: parts) = .ok target) :
    disk.entry? start = some .directory
      ∧ ∃ next, disk.walk next parts = .ok target
        ∧ (disk.Reachable start → disk.Reachable next)
        ∧ ∀ other : Disk, other.entry? start = some .directory →
          other.walk start (part :: parts) = other.walk next parts := by
  rw [walk] at h
  split at h
  · cases h
  · cases h
  rename_i hentry
  refine ⟨hentry, ?_⟩
  by_cases hstay : part = "."
  · rw [if_pos hstay] at h
    refine ⟨start, h, id, fun other hother => ?_⟩
    rw [walk, hother]
    exact if_pos hstay
  rw [if_neg hstay] at h
  by_cases hup : part = ".."
  · rw [if_pos hup] at h
    refine ⟨start.dropLast, h, Reachable.dropLast, fun other hother => ?_⟩
    rw [walk, hother]
    exact (if_neg hstay).trans (if_pos hup)
  rw [if_neg hup] at h
  split at h
  · cases h
  · rename_i hlong
    refine ⟨start ++ [part], h, fun _ => .child (by rw [hentry]; exact Option.some_ne_none _) part,
      fun other hother => ?_⟩
    rw [walk, hother]
    exact (if_neg hstay).trans ((if_neg hup).trans (if_neg hlong))

/-- A path that leads to no directory leads to a place where a file may be put. -/
theorem free_of_walk {disk : Disk} {start parts : List String} {target : Target}
    {place : List String} (h : disk.walk start parts = .ok target)
    (hfile : target.file? = some place) (hstart : disk.Reachable start) : disk.Free place := by
  induction parts generalizing start with
  | nil =>
      obtain ⟨rfl, hentry⟩ := walk_nil h hfile
      exact ⟨hstart, hentry⟩
  | cons part parts ih =>
      obtain ⟨-, next, hnext, hreachable, -⟩ := walk_cons h
      exact ih hnext (hreachable hstart)

/-- What is listed at another place stays listed. -/
theorem find?_put (disk : Disk) {place other : List String} (hne : other ≠ place)
    (bytes : ByteArray) :
    (disk.put place bytes).entries.find? (·.1 = other) = disk.entries.find? (·.1 = other) := by
  rw [put, List.find?_cons_of_neg (by simpa using Ne.symm hne), List.find?_filter]
  refine congrArg (disk.entries.find? ·) (funext fun listed => ?_)
  by_cases hlisted : listed.1 = other
  · simp [hlisted, hne]
  · simp [hlisted]

/-- There is something at another place if there was something before. -/
theorem there_put {disk : Disk} {place : List String} (h : disk.Reachable place)
    (bytes : ByteArray) {other : List String} (hne : other ≠ place) :
    Disk.entry? (disk.put place bytes) other ≠ none ↔ disk.entry? other ≠ none := by
  rw [there_iff]
  constructor
  · rintro (⟨listed, hmem, hprefix⟩ | hhere)
    · rcases List.mem_cons.mp hmem with rfl | hmem
      · -- what lies above the new file was there already
        exact h other hprefix hne
      · exact (disk.there_iff other).mpr (.inl ⟨listed, (List.mem_filter.mp hmem).1, hprefix⟩)
    · exact (disk.there_iff other).mpr (.inr hhere)
  · intro hold
    rcases (disk.there_iff other).mp hold with ⟨listed, hmem, hprefix⟩ | hhere
    · by_cases hplace : listed.1 = place
      · exact .inl ⟨_, List.mem_cons_self, hplace ▸ hprefix⟩
      · exact .inl ⟨listed, List.mem_cons_of_mem _ (List.mem_filter.mpr
          ⟨hmem, by simpa using hplace⟩), hprefix⟩
    · exact .inr hhere

/-- **A file that is put at a place** is there, and no other place changes. -/
theorem entry?_put {disk : Disk} {place : List String} (h : disk.Reachable place)
    (bytes : ByteArray) (other : List String) :
    Disk.entry? (disk.put place bytes) other
      = if other = place then some (.file bytes) else disk.entry? other := by
  split
  · rename_i heq
    unfold entry?
    rw [put, List.find?_cons_of_pos (by simpa using heq.symm)]
  · rename_i hne
    have hthere := there_put h bytes hne
    unfold entry? at hthere ⊢
    rw [find?_put disk hne] at hthere ⊢
    cases hlisted : disk.entries.find? (·.1 = other) with
    | some listed => rfl
    | none =>
        rw [hlisted] at hthere
        dsimp only at hthere ⊢
        -- the place is not listed, so it is a directory or nothing, before and after
        generalize (other.isPrefixOf (disk.put place bytes).here
          || (disk.put place bytes).entries.any (other.isPrefixOf ·.1)) = isThere at hthere ⊢
        generalize (other.isPrefixOf disk.here
          || disk.entries.any (other.isPrefixOf ·.1)) = wasThere at hthere ⊢
        cases isThere <;> cases wasThere <;> simp_all

/-- **The way to a place** goes through directories, so it is the same once a file is there. -/
theorem walk_put {disk : Disk} {start parts : List String} {target : Target}
    {place : List String} (hfree : disk.Free place) (h : disk.walk start parts = .ok target)
    (hfile : target.file? = some place) (bytes : ByteArray) :
    (disk.put place bytes).walk start parts = .ok (.found place (.file bytes)) := by
  induction parts generalizing start with
  | nil =>
      obtain ⟨rfl, -⟩ := walk_nil h hfile
      rw [walk, entry?_put hfree.reachable, if_pos rfl]
  | cons part parts ih =>
      obtain ⟨hentry, next, hnext, -, hsame⟩ := walk_cons h
      -- the file is put where no directory is, so not on the way
      have hne : start ≠ place := by
        rintro rfl
        exact hfree.notDirectory hentry
      have hentry' : Disk.entry? (disk.put place bytes) start = some .directory := by
        rw [entry?_put hfree.reachable, if_neg hne, hentry]
      rw [hsame _ hentry']
      exact ih hnext

/-! ## Writing -/

/-- The disk once a file has been written: its path leads to it, and nothing has changed at any
other place. -/
def Stored (disk : Disk) (path : String) (bytes : ByteArray) (after : Disk) : Prop :=
  after.read path = .ok bytes
    ∧ ∃ place, after.target path = .ok (.found place (.file bytes))
      ∧ ∀ other, other ≠ place → after.entry? other = disk.entry? other

/-- A path is walked from the root or from the working directory, in the same way on every disk. -/
theorem target_walk {disk : Disk} {path : String} {target : Target}
    (h : disk.target path = .ok target) :
    ∃ start parts, disk.Reachable start ∧ disk.walk start parts = .ok target
      ∧ ∀ other : Disk, other.here = disk.here → other.target path = other.walk start parts := by
  have hstart : disk.Reachable (if path.toList.head? = some '/' then [] else disk.here) := by
    split
    · exact disk.reachable_root
    · exact disk.reachable_here
  unfold Disk.target at h
  dsimp only at h
  split at h
  · cases h
  rename_i hnul
  split at h
  · cases h
  rename_i hempty
  split at h
  · cases h
  rename_i hlong
  refine ⟨_, _, hstart, h, fun other hhere => ?_⟩
  unfold Disk.target
  rw [if_neg hnul, if_neg hempty, if_neg hlong, hhere]

/-- The path of a file that has been put where it leads leads to it. -/
theorem target_put {disk : Disk} {path : String} {target : Target} {place : List String}
    (h : disk.target path = .ok target) (hfile : target.file? = some place) (bytes : ByteArray) :
    disk.Reachable place
      ∧ (disk.put place bytes).target path = .ok (.found place (.file bytes)) := by
  obtain ⟨start, parts, hstart, hwalk, hsame⟩ := target_walk h
  have hfree := free_of_walk hwalk hfile hstart
  refine ⟨hfree.reachable, ?_⟩
  rw [hsame (disk.put place bytes) rfl]
  exact walk_put hfree hwalk hfile bytes

/-- Writing puts a file where its path leads. -/
theorem put_of_write {disk after : Disk} {path : String} {bytes : ByteArray}
    (h : disk.write path bytes = .ok after) :
    ∃ target place, disk.target path = .ok target ∧ target.file? = some place
      ∧ endsInSlash path = false ∧ after = disk.put place bytes := by
  unfold write at h
  cases htarget : disk.target path with
  | error e => rw [htarget] at h; cases h
  | ok target =>
      rw [htarget] at h
      cases target with
      | absent place =>
          dsimp only [bind, Except.bind] at h
          split at h
          · cases h
          · rename_i hslash
            cases h
            exact ⟨_, place, rfl, rfl, by simpa using hslash, rfl⟩
      | found place entry =>
          cases entry with
          | directory => cases h
          | file _ =>
              dsimp only [bind, Except.bind] at h
              split at h
              · cases h
              · rename_i hslash
                cases h
                exact ⟨_, place, rfl, rfl, by simpa using hslash, rfl⟩

/-- **A file that is written** is found under its path, and nothing else has changed. -/
theorem write_stored {disk after : Disk} {path : String} {bytes : ByteArray}
    (h : disk.write path bytes = .ok after) : Stored disk path bytes after := by
  obtain ⟨target, place, htarget, hfile, hslash, rfl⟩ := put_of_write h
  obtain ⟨hreachable, hleads⟩ := target_put htarget hfile bytes
  refine ⟨?_, place, hleads, fun other hne => ?_⟩
  · rw [read, hleads]
    dsimp only [bind, Except.bind]
    rw [hslash]
    rfl
  · rw [entry?_put hreachable, if_neg hne]

/-- Writing, as an action on the disk. -/
theorem run_write (path : String) (bytes : ByteArray) (disk : Disk) :
    (files.write path bytes).run disk
      = match disk.write path bytes with
        | .error e => (.error e, disk)
        | .ok after => (.ok (), after) := by
  have hrun : (files.write path bytes).run disk
      = (match disk.write path bytes with
        | .error e => (pure (.error e) : StateM Disk (Except FileError Unit))
        | .ok after => do set after; return .ok ()).run disk := rfl
  rw [hrun]
  cases disk.write path bytes with
  | error e => rfl
  | ok after => rfl

end Disk

/-! ## Access to files -/

namespace Files

variable {σ : Type}

/-- Access to files that changes nothing but by writing, and writes a file as a whole or not at all.
What it is for a file to be stored depends on what the files are. -/
structure Lawful (files : Files (StateM σ)) (Stored : σ → String → ByteArray → σ → Prop) : Prop
    extends files.Steady where
  unwritten : ∀ {path bytes error state after},
    (files.write path bytes).run state = (.error error, after) → after = state
  written : ∀ {path bytes state after},
    (files.write path bytes).run state = (.ok (), after) → Stored state path bytes after

/-- The same files, some of which the machine refuses to read or to write for reasons of its own. -/
def withFaults {m : Type → Type} [Monad m] (files : Files m)
    (reading writing : String → Option FileError) : Files m where
  read path :=
    match reading path with
    | some error => return .error error
    | none => files.read path
  isFile := files.isFile
  write path bytes :=
    match writing path with
    | some error => return .error error
    | none => files.write path bytes
  here := files.here

/-- **Faults of the machine** are no more than further ways to fail. -/
theorem Lawful.withFaults {files : Files (StateM σ)} {Stored : σ → String → ByteArray → σ → Prop}
    (h : files.Lawful Stored) (reading writing : String → Option FileError) :
    (files.withFaults reading writing).Lawful Stored where
  read path := by
    unfold Files.withFaults
    dsimp only
    cases reading path with
    | some error => exact .pure _
    | none => exact h.read path
  isFile := h.isFile
  here := h.here
  unwritten {path bytes error state after} hrun := by
    unfold Files.withFaults at hrun
    dsimp only at hrun
    cases hfault : writing path with
    | some fault =>
        rw [hfault] at hrun
        exact (congrArg Prod.snd hrun).symm
    | none =>
        rw [hfault] at hrun
        exact h.unwritten hrun
  written {path bytes state after} hrun := by
    unfold Files.withFaults at hrun
    dsimp only at hrun
    cases hfault : writing path with
    | some fault =>
        rw [hfault] at hrun
        cases congrArg Prod.fst hrun
    | none =>
        rw [hfault] at hrun
        exact h.written hrun

end Files

/-- **The files of a disk** are written as a whole or not at all. -/
theorem Disk.lawful : Disk.files.Lawful Disk.Stored where
  toSteady := Disk.steady
  unwritten {path bytes error disk after} hrun := by
    rw [run_write] at hrun
    cases hwrite : disk.write path bytes with
    | error fault =>
        rw [hwrite] at hrun
        exact (congrArg Prod.snd hrun).symm
    | ok stored =>
        rw [hwrite] at hrun
        cases congrArg Prod.fst hrun
  written {path bytes disk after} hrun := by
    rw [run_write] at hrun
    cases hwrite : disk.write path bytes with
    | error fault =>
        rw [hwrite] at hrun
        cases congrArg Prod.fst hrun
    | ok stored =>
        rw [hwrite] at hrun
        obtain rfl : stored = after := congrArg Prod.snd hrun
        exact write_stored hwrite

end Keybind
