import Keybind.Script.Path
import Mathlib.Data.List.Basic

/-!
# Names of scripts

Three rules look at the path of a script: whether the daemon loads it, which
language it is in, and what it is called. The first looks at how the file name
ends, the other two at where it is cut. They are tied together by two facts.

* The file name of a path is its last part, where slashes and single dots at the
  end do not count (`fileName?_eq_some_iff`).
* A file name is cut at its last dot if there is something in front of that dot
  (`splitName_eq_iff`).

A name that ends in `.lua` or `.hwk` and does not start with a dot has its last
dot there, with something in front of it, so all three rules cut it alike.
-/

namespace Keybind

namespace Path

/-! ## The last part of a path -/

/-- The end of a path that does not count: slashes, and single dots with a slash before each. -/
inductive Ignored : List Char → Prop where
  | nil : Ignored []
  | slash {tail : List Char} : Ignored tail → Ignored ('/' :: tail)
  | dot {tail : List Char} : Ignored tail → Ignored ('/' :: '.' :: tail)

/-- The last part of the path that counts is `name`, and it does not lead upwards. -/
structure EndsIn (path name : List Char) : Prop where
  split : ∃ directory tail, path = directory ++ name ++ tail
    ∧ (directory = [] ∨ ∃ above, directory = above ++ ['/']) ∧ Ignored tail
  no_slash : '/' ∉ name
  ne_nil : name ≠ []
  ne_here : name ≠ ['.']
  ne_above : name ≠ ['.', '.']

theorem split_ne_nil (path : List Char) : split path ≠ [] := by
  induction path with
  | nil => simp [split]
  | cons c path ih =>
      rw [split]
      split
      · split <;> simp
      · rename_i hnil
        exact absurd hnil ih

theorem split_slash (path : List Char) : split ('/' :: path) = [] :: split path := by
  rw [split]
  split
  · rename_i part parts hsplit
    simp [hsplit]
  · rename_i hnil
    exact absurd hnil (split_ne_nil path)

/-- A path is split at every slash. -/
theorem split_append_slash (directory path : List Char) :
    split (directory ++ '/' :: path) = split directory ++ split path := by
  induction directory with
  | nil => rw [List.nil_append, split_slash]; rfl
  | cons c directory ih =>
      obtain ⟨part, parts, hsplit⟩ := List.exists_cons_of_ne_nil (split_ne_nil directory)
      rw [List.cons_append, split, split, ih, hsplit]
      dsimp only [List.cons_append]
      split <;> rfl

/-- And nowhere else. -/
theorem split_of_no_slash {part : List Char} (h : '/' ∉ part) : split part = [part] := by
  induction part with
  | nil => rfl
  | cons c part ih =>
      rw [List.mem_cons, not_or] at h
      rw [split, ih h.2]
      exact if_neg fun hc => h.1 hc.symm

theorem parts_append_slash (directory path : List Char) :
    parts (directory ++ '/' :: path) = parts directory ++ parts path := by
  rw [parts, split_append_slash, List.filter_append]
  rfl

theorem parts_of_no_slash {part : List Char} (h : '/' ∉ part) :
    parts part = if counts part then [part] else [] := by
  rw [parts, split_of_no_slash h, List.filter_singleton]
  cases counts part <;> rfl

theorem Ignored.append {tail rest : List Char} (h : Ignored tail) (hrest : Ignored rest) :
    Ignored (tail ++ rest) := by
  induction h with
  | nil => exact hrest
  | slash _ ih => exact ih.slash
  | dot _ ih => exact ih.dot

/-- What does not count adds no part. -/
theorem parts_append_ignored (path : List Char) {tail : List Char} (h : Ignored tail) :
    parts (path ++ tail) = parts path := by
  -- a slash closes the part before it, so the path in front may grow by a slash or a dot
  induction h generalizing path with
  | nil => rw [List.append_nil]
  | @slash tail _ ih =>
      have hslash : path ++ '/' :: tail = (path ++ '/' :: []) ++ tail := by simp
      rw [hslash, ih, parts_append_slash]
      exact List.append_nil _
  | @dot tail _ ih =>
      have hdot : path ++ '/' :: '.' :: tail = (path ++ '/' :: ['.']) ++ tail := by simp
      rw [hdot, ih, parts_append_slash]
      exact List.append_nil _

theorem counts_iff {part : List Char} : counts part = true ↔ part ≠ [] ∧ part ≠ ['.'] := by
  simp [counts]

/-- The part behind the last slash, if there is one. -/
theorem exists_last_slash {path : List Char} (h : '/' ∈ path) :
    ∃ above part, path = above ++ '/' :: part ∧ '/' ∉ part := by
  obtain ⟨part, above, hsplit, hpart⟩ := List.eq_append_cons_of_mem (List.mem_reverse.mpr h)
  refine ⟨above.reverse, part.reverse, ?_, fun hmem => hpart (List.mem_reverse.mp hmem)⟩
  rw [← List.reverse_reverse path, hsplit]
  simp

/-- The last part that counts is followed by nothing that does. -/
theorem exists_of_getLast?_parts {path name : List Char} (h : (parts path).getLast? = some name) :
    counts name = true ∧ '/' ∉ name ∧ ∃ directory tail, path = directory ++ name ++ tail
      ∧ (directory = [] ∨ ∃ above, directory = above ++ ['/']) ∧ Ignored tail := by
  -- from the end of the path, one part at a time
  induction hlength : path.length using Nat.strongRecOn generalizing path with
  | ind n ih =>
    by_cases hslash : '/' ∈ path
    · obtain ⟨above, part, rfl, hpart⟩ := exists_last_slash hslash
      rw [parts_append_slash, parts_of_no_slash hpart] at h
      by_cases hcounts : counts part = true
      · rw [if_pos hcounts, List.getLast?_concat] at h
        cases h
        refine ⟨hcounts, hpart, above ++ ['/'], [], ?_, .inr ⟨above, rfl⟩, .nil⟩
        simp
      · rw [if_neg hcounts, List.append_nil] at h
        have hshorter : above.length < n := by
          rw [← hlength, List.length_append, List.length_cons]
          omega
        obtain ⟨hname, hno, directory, tail, rfl, hdirectory, htail⟩ := ih _ hshorter h rfl
        refine ⟨hname, hno, directory, tail ++ '/' :: part, by simp, hdirectory, htail.append ?_⟩
        rw [counts_iff, not_and_or, not_not, not_not] at hcounts
        rcases hcounts with rfl | rfl
        · exact Ignored.nil.slash
        · exact Ignored.nil.dot
    · rw [parts_of_no_slash hslash] at h
      by_cases hcounts : counts path = true
      · rw [if_pos hcounts] at h
        cases h
        exact ⟨hcounts, hslash, [], [], by simp, .inl rfl, .nil⟩
      · rw [if_neg hcounts] at h
        cases h

/-- **The file name is the last part of the path.** -/
theorem fileName?_eq_some_iff {path name : List Char} :
    fileName? path = some name ↔ EndsIn path name := by
  constructor
  · intro h
    unfold fileName? at h
    split at h
    · cases h
    · rename_i last hlast
      split at h
      · cases h
      · rename_i habove
        cases h
        obtain ⟨hcounts, hno, hsplit⟩ := exists_of_getLast?_parts hlast
        obtain ⟨hnil, hhere⟩ := counts_iff.mp hcounts
        exact ⟨hsplit, hno, hnil, hhere, habove⟩
  · rintro ⟨⟨directory, tail, rfl, hdirectory, htail⟩, hno, hnil, hhere, habove⟩
    have hname : parts name = [name] := by
      rw [parts_of_no_slash hno, if_pos (counts_iff.mpr ⟨hnil, hhere⟩)]
    have hlast : (parts (directory ++ name ++ tail)).getLast? = some name := by
      rw [parts_append_ignored _ htail]
      rcases hdirectory with rfl | ⟨above, rfl⟩
      · rw [List.nil_append, hname]
        rfl
      · rw [List.append_assoc, List.singleton_append, parts_append_slash, hname,
          List.getLast?_concat]
    rw [fileName?, hlast]
    exact if_neg habove

/-! ## The last dot of a file name -/

/-- A name is cut at its last dot if there is something in front. -/
theorem splitName_dot {stem extension : List Char} (hstem : stem ≠ []) (hdot : '.' ∉ extension) :
    splitName (stem ++ '.' :: extension) = (stem, some extension) := by
  have hreverse : (stem ++ '.' :: extension).reverse
      = extension.reverse ++ '.' :: stem.reverse := by
    simp
  have hplain : ∀ c ∈ extension.reverse, decide (c ≠ '.') = true := by
    intro c hc
    rw [decide_eq_true_eq]
    rintro rfl
    exact hdot (List.mem_reverse.mp hc)
  have hafter : ((stem ++ '.' :: extension).reverse.takeWhile (· ≠ '.')).reverse = extension := by
    rw [hreverse, List.takeWhile_append_of_pos hplain, List.takeWhile_cons_of_neg (by simp)]
    simp
  have hbefore : ((stem ++ '.' :: extension).reverse.dropWhile (· ≠ '.')).reverse.dropLast
      = stem := by
    rw [hreverse, List.dropWhile_append_of_pos hplain, List.dropWhile_cons_of_neg (by simp),
      List.reverse_cons, List.reverse_reverse, List.dropLast_concat]
  rw [splitName, hafter, hbefore]
  split
  · exact absurd rfl hstem
  · rfl

/-- A name whose only dot is its first character, or that has none, is not cut. -/
theorem splitName_whole {name : List Char} (h : '.' ∉ name.tail) :
    splitName name = (name, none) := by
  have hshort : (name.reverse.dropWhile (· ≠ '.')).reverse.dropLast = [] := by
    cases name with
    | nil => rfl
    | cons c tail =>
        have hplain : ∀ d ∈ tail.reverse, decide (d ≠ '.') = true := by
          intro d hd
          rw [decide_eq_true_eq]
          rintro rfl
          exact h (List.mem_reverse.mp hd)
        rw [List.reverse_cons, List.dropWhile_append_of_pos hplain]
        by_cases hc : c = '.' <;> simp [hc]
  rw [splitName, hshort]

/-- **Where a file name is cut.** -/
theorem splitName_eq_iff {name stem extension : List Char} :
    splitName name = (stem, some extension)
      ↔ name = stem ++ '.' :: extension ∧ stem ≠ [] ∧ '.' ∉ extension := by
  constructor
  · intro h
    by_cases hdot : '.' ∈ name.tail
    · cases name with
      | nil => cases hdot
      | cons c tail =>
          obtain ⟨after, before, hsplit, hafter⟩ :=
            List.eq_append_cons_of_mem (List.mem_reverse.mpr hdot)
          have hname : c :: tail = c :: before.reverse ++ '.' :: after.reverse := by
            have htail : tail = (after ++ '.' :: before).reverse := by
              rw [← hsplit, List.tail_cons, List.reverse_reverse]
            rw [htail]
            simp
          have hlast : '.' ∉ after.reverse := fun hmem => hafter (List.mem_reverse.mp hmem)
          rw [hname, splitName_dot (List.cons_ne_nil _ _) hlast] at h
          cases h
          exact ⟨hname, List.cons_ne_nil _ _, hlast⟩
    · rw [splitName_whole hdot] at h
      cases h
  · rintro ⟨rfl, hstem, hdot⟩
    exact splitName_dot hstem hdot

end Path

/-! ## The three rules -/

/-- How the file name of a script of the kind ends. -/
def ScriptKind.ending : ScriptKind → List Char
  | hwk => ".hwk".toList
  | lua => ".lua".toList

/-- What the three rules say of a file name that is cut at its last dot. -/
theorem Path.EndsIn.rules {path stem extension : List Char}
    (h : Path.EndsIn path (stem ++ '.' :: extension)) (hstem : stem ≠ []) (hdot : '.' ∉ extension) :
    scriptName path = stem
      ∧ (ScriptKind.ofPath path = .lua ↔ extension = "lua".toList) := by
  have hname := Path.fileName?_eq_some_iff.mpr h
  have hcut := Path.splitName_dot hstem hdot
  constructor
  · rw [scriptName, Path.stem?, hname, Option.map_some, hcut]
    rfl
  · rw [ScriptKind.ofPath, Path.extension?, hname, Option.bind_some, hcut]
    split
    · rename_i hlua
      exact iff_of_true rfl (Option.some.inj hlua)
    · rename_i hother
      exact iff_of_false (fun heq => by cases heq) fun heq => hother (congrArg some heq)

/-- The daemon loads the file if it is not hidden and ends as one of the kinds does. -/
theorem isLoadable_iff {path : List Char} :
    isLoadable path = true
      ↔ ∃ name, Path.EndsIn path name ∧ name.head? ≠ some '.'
        ∧ ∃ kind : ScriptKind, kind.ending <:+ name := by
  have hkinds : ∀ name : List Char, (∃ kind : ScriptKind, kind.ending <:+ name)
      ↔ ".lua".toList <:+ name ∨ ".hwk".toList <:+ name := by
    intro name
    constructor
    · rintro ⟨kind, hkind⟩
      cases kind with
      | hwk => exact .inr hkind
      | lua => exact .inl hkind
    · rintro (hlua | hhwk)
      · exact ⟨.lua, hlua⟩
      · exact ⟨.hwk, hhwk⟩
  unfold isLoadable
  split
  · rename_i hnone
    refine iff_of_false Bool.false_ne_true ?_
    rintro ⟨name, hname, -, -⟩
    rw [Path.fileName?_eq_some_iff.mpr hname] at hnone
    cases hnone
  · rename_i name hname
    rw [Bool.and_eq_true, Bool.or_eq_true, bne_iff_ne, List.isSuffixOf_iff_suffix,
      List.isSuffixOf_iff_suffix, ← hkinds]
    constructor
    · rintro ⟨hhidden, hkind⟩
      exact ⟨name, Path.fileName?_eq_some_iff.mp hname, hhidden, hkind⟩
    · rintro ⟨other, hother, hhidden, hkind⟩
      rw [Path.fileName?_eq_some_iff.mpr hother] at hname
      cases hname
      exact ⟨hhidden, hkind⟩

/-- An ending is a dot with no other dot behind it. -/
theorem ScriptKind.ending_eq (kind : ScriptKind) :
    ∃ extension, kind.ending = '.' :: extension ∧ '.' ∉ extension
      ∧ (kind = .lua ↔ extension = "lua".toList) := by
  cases kind with
  | hwk => exact ⟨"hwk".toList, by decide, by decide, by decide⟩
  | lua => exact ⟨"lua".toList, by decide, by decide, by decide⟩

/-- **The three rules agree.** A file that the daemon loads has a name that is neither empty nor
hidden, and the name with the ending of its language is the file name. A Lua file that is not hidden
is loaded. -/
theorem path_rules_agree (path : List Char) :
    (isLoadable path = true → scriptName path ≠ [] ∧ (scriptName path).head? ≠ some '.'
      ∧ Path.EndsIn path (scriptName path ++ (ScriptKind.ofPath path).ending))
    ∧ (∀ name, Path.EndsIn path name → name.head? ≠ some '.' → ScriptKind.ofPath path = .lua →
      isLoadable path = true) := by
  constructor
  · intro h
    obtain ⟨name, hname, hhidden, kind, stem, rfl⟩ := isLoadable_iff.mp h
    obtain ⟨extension, hending, hdot, hlua⟩ := kind.ending_eq
    have hstem : stem ≠ [] := by
      rintro rfl
      rw [hending] at hhidden
      exact hhidden rfl
    rw [hending] at hname
    obtain ⟨hscript, hkind⟩ := hname.rules hstem hdot
    -- both languages are told apart by the same extension
    have hsame : ScriptKind.ofPath path = kind := by
      cases hof : ScriptKind.ofPath path with
      | lua => exact (hlua.mpr (hkind.mp hof)).symm
      | hwk =>
          cases kind with
          | hwk => rfl
          | lua => rw [hkind.mpr (hlua.mp rfl)] at hof; cases hof
    rw [hscript, hsame, hending]
    refine ⟨hstem, fun hhead => hhidden ?_, hname⟩
    rw [List.head?_append, hhead]
    rfl
  · intro name hname hhidden hlua
    have hfile := Path.fileName?_eq_some_iff.mpr hname
    have hextension : Path.extension? path = some "lua".toList := by
      unfold ScriptKind.ofPath at hlua
      split at hlua
      · assumption
      · cases hlua
    rw [Path.extension?, hfile, Option.bind_some] at hextension
    obtain ⟨hcut, -, -⟩ := Path.splitName_eq_iff.mp (Prod.ext rfl hextension)
    exact isLoadable_iff.mpr ⟨name, hname, hhidden, .lua, _, hcut.symm⟩

/-- A script with two dots in its name, followed by parts that do not count, and a Lua file in a
hidden directory. -/
theorem path_rules_agree_dots :
    let script := "x/keys.min.hwk/./".toList
    let plain := ".d/init.lua//".toList
    isLoadable script = true
      ∧ (scriptName script = "keys.min".toList ∧ (scriptName script).head? ≠ some '.'
        ∧ Path.EndsIn script (scriptName script ++ ScriptKind.hwk.ending))
      ∧ (Path.EndsIn plain "init.lua".toList ∧ ScriptKind.ofPath plain = .lua)
      ∧ isLoadable plain = true := by
  intro script plain
  have hloaded : isLoadable script = true := by decide
  obtain ⟨-, hhidden, hname⟩ := (path_rules_agree script).1 hloaded
  have hplain : Path.EndsIn plain "init.lua".toList := Path.fileName?_eq_some_iff.mp (by decide)
  have hlua : ScriptKind.ofPath plain = .lua := by decide
  exact ⟨hloaded, ⟨by decide, hhidden, hname⟩, ⟨hplain, hlua⟩,
    (path_rules_agree plain).2 _ hplain (by decide) hlua⟩

end Keybind
