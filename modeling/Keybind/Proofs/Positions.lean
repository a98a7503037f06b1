import Keybind.Proofs.LineEndings
import Keybind.Proofs.Places

/-!
# Lines and columns are exact

A byte offset need not lie between two characters. `Location.anchor` is the
offset that it stands for: the end if it lies past the end, else the nearest
boundary at or before it. The place of an offset is that of its anchor, and the
two determine each other:

* walking to the place arrives at the anchor, so places are as fine as anchors;
* the characters before a smaller offset are the first of those before a larger
  one, and each character leads further on, so places are in order.
-/

namespace Keybind

open String.Pos (Raw)

/-! ## Characters within a number of bytes -/

namespace Text

theorem byteSize_takeBytes_le (n : Nat) (cs : List Char) : byteSize (takeBytes n cs) ≤ n := by
  induction cs generalizing n with
  | nil => exact Nat.zero_le n
  | cons c cs ih =>
      rw [takeBytes]
      split
      · have hrest := ih (n - c.utf8Size)
        rw [byteSize]
        omega
      · exact Nat.zero_le n

theorem byteSize_le_of_prefix {a b : List Char} (h : a <+: b) : byteSize a ≤ byteSize b := by
  obtain ⟨rest, rfl⟩ := h
  rw [byteSize_append]
  omega

/-- All that fits into the bytes is taken. -/
theorem prefix_takeBytes {before cs : List Char} {n : Nat} (h : before <+: cs)
    (hn : byteSize before ≤ n) : before <+: takeBytes n cs := by
  induction before generalizing cs n with
  | nil => exact List.nil_prefix
  | cons c before ih =>
      obtain ⟨rest, rfl⟩ := h
      rw [byteSize] at hn
      rw [List.cons_append, takeBytes, if_pos (by omega)]
      exact (List.prefix_cons_inj c).mpr (ih (List.prefix_append _ _) (by omega))

/-- More bytes take more characters. -/
theorem takeBytes_mono {m n : Nat} (h : m ≤ n) (cs : List Char) :
    takeBytes m cs <+: takeBytes n cs := by
  have hfirst := takeBytes_prefix m cs
  exact prefix_takeBytes hfirst ((byteSize_takeBytes_le m cs).trans h)

end Text

/-! ## The offset that an offset stands for -/

namespace Location

/-- The nearest offset, going back, at which no character is split. -/
def settle (source : String) : Nat → Nat
  | 0 => 0
  | n + 1 => if (Raw.mk (n + 1)).IsValid source then n + 1 else settle source n

/-- The offset that an offset stands for: not past the end, and between two characters. -/
def anchor (source : String) (offset : Nat) : Nat :=
  settle source (min offset source.utf8ByteSize)

theorem settle_le (source : String) (n : Nat) : settle source n ≤ n := by
  induction n with
  | zero => exact Nat.le_refl 0
  | succ n ih =>
      rw [settle]
      split
      · exact Nat.le_refl _
      · omega

theorem isValid_settle (source : String) (n : Nat) :
    (Raw.mk (settle source n)).IsValid source := by
  induction n with
  | zero => exact Raw.isValid_iff_exists_append.mpr ⟨"", source, by simp, rfl⟩
  | succ n ih =>
      rw [settle]
      split
      · assumption
      · exact ih

/-- It is the nearest one. -/
theorem le_settle {source : String} {k n : Nat} (hk : (Raw.mk k).IsValid source) (h : k ≤ n) :
    k ≤ settle source n := by
  induction n with
  | zero => exact h
  | succ n ih =>
      rw [settle]
      split
      · exact h
      · rename_i hn
        have hne : k ≠ n + 1 := by
          rintro rfl
          exact hn hk
        exact ih (by omega)

/-- **The anchor lies behind the characters before the offset.** -/
theorem anchor_eq (source : String) (offset : Nat) :
    anchor source offset = Text.byteSize (Text.takeBytes offset source.toList) := by
  apply Nat.le_antisymm
  · -- the text up to the anchor fits into the bytes
    obtain ⟨before, after, hsource, hbefore⟩ := Raw.isValid_iff_exists_append.mp
      (isValid_settle source (min offset source.utf8ByteSize))
    have hsize : anchor source offset = Text.byteSize before.toList := by
      rw [Text.byteSize_toList]
      exact congrArg Raw.byteIdx hbefore
    have hle : anchor source offset ≤ min offset source.utf8ByteSize := settle_le _ _
    have hprefix : before.toList <+: source.toList := by
      rw [hsource, String.toList_append]
      exact List.prefix_append _ _
    rw [hsize] at hle ⊢
    exact Text.byteSize_le_of_prefix (Text.prefix_takeBytes hprefix (by omega))
  · -- those characters end between two characters, and no such offset lies nearer
    have hprefix := Text.takeBytes_prefix offset source.toList
    have hoffset := Text.byteSize_takeBytes_le offset source.toList
    have hend := Text.byteSize_le_of_prefix hprefix
    rw [Text.byteSize_toList] at hend
    obtain ⟨rest, hrest⟩ := hprefix
    refine le_settle (Raw.isValid_iff_exists_append.mpr
      ⟨String.ofList (Text.takeBytes offset source.toList), String.ofList rest, ?_, ?_⟩) (by omega)
    · rw [← String.ofList_append, hrest, String.ofList_toList]
    · rw [← String.toList_ofList (l := Text.takeBytes offset source.toList), Text.byteSize_toList,
        String.toList_ofList]
      rfl

/-- The same characters stand before an offset and before its anchor. -/
theorem takeBytes_anchor (source : String) (offset : Nat) :
    Text.takeBytes (anchor source offset) source.toList
      = Text.takeBytes offset source.toList := by
  obtain ⟨rest, hrest⟩ := Text.takeBytes_prefix offset source.toList
  rw [anchor_eq]
  nth_rewrite 2 [← hrest]
  exact Text.takeBytes_append_self _ _

/-- **The place of an offset is the place of its anchor.** -/
theorem ofOffset_anchor (source : String) (offset : Nat) :
    ofOffset source.toList (anchor source offset) = ofOffset source.toList offset := by
  rw [ofOffset, takeBytes_anchor, ofOffset]

/-- **Walking to the place of an offset arrives at its anchor.** -/
theorem seek?_anchor (source : String) (offset : Nat) :
    ∃ before rest, source.toList = before ++ rest
      ∧ Text.byteSize before = anchor source offset
      ∧ (ofOffset source.toList offset).seek? source.toList = some rest := by
  obtain ⟨rest, hrest⟩ := Text.takeBytes_prefix offset source.toList
  refine ⟨Text.takeBytes offset source.toList, rest, hrest.symm, (anchor_eq source offset).symm, ?_⟩
  have hseek := seek?_ofOffset (Text.takeBytes offset source.toList) rest
  rw [hrest, ← anchor_eq, ofOffset_anchor] at hseek
  exact hseek

/-! ## The order of places -/

/-- Places are in the order in which they are read: by lines, and within a line by columns. -/
instance : LE Location :=
  ⟨fun place other =>
    place.line < other.line ∨ place.line = other.line ∧ place.column ≤ other.column⟩

theorem le_iff {place other : Location} :
    place ≤ other
      ↔ place.line < other.line ∨ place.line = other.line ∧ place.column ≤ other.column :=
  Iff.rfl

/-- A character leads further on. -/
theorem le_advance (place : Location) (c : Char) : place ≤ place.advance c := by
  rw [le_iff, advance]
  split
  · left
    exact Nat.lt_succ_self _
  · right
    exact ⟨rfl, Nat.le_succ _⟩

theorem le_foldl_advance (cs : List Char) (place : Location) : place ≤ cs.foldl advance place := by
  induction cs generalizing place with
  | nil =>
      right
      exact ⟨rfl, Nat.le_refl _⟩
  | cons c cs ih =>
      have hfirst := le_advance place c
      have hrest := ih (place.advance c)
      rw [le_iff] at hfirst hrest ⊢
      rw [List.foldl_cons]
      omega

/-- **A larger offset is not at an earlier place.** -/
theorem ofOffset_mono (cs : List Char) {m n : Nat} (h : m ≤ n) : ofOffset cs m ≤ ofOffset cs n := by
  obtain ⟨rest, hrest⟩ := Text.takeBytes_mono h cs
  rw [ofOffset, ofOffset, ← hrest, List.foldl_append]
  exact le_foldl_advance rest _

/-- Lines and columns are counted from one. -/
theorem one_le_ofOffset (cs : List Char) (offset : Nat) :
    1 ≤ (ofOffset cs offset).line ∧ 1 ≤ (ofOffset cs offset).column := by
  obtain ⟨upper, lower, -, -, hplace, -⟩ := foldl_advance_lines (Text.takeBytes offset cs)
  rw [ofOffset, hplace]
  exact ⟨Nat.succ_pos _, Nat.succ_pos _⟩

end Location

/-- **Places are exact.** From the line and the column of an offset one comes to the byte that the
offset stands for. So places are in the order of their offsets, and two offsets have the same place
if and only if they stand for the same byte. -/
theorem location_exact (source : String) (offset : Nat) :
    (1 ≤ (Location.ofOffset source.toList offset).line
      ∧ 1 ≤ (Location.ofOffset source.toList offset).column)
    ∧ (∃ before rest, source.toList = before ++ rest
      ∧ Text.byteSize before = Location.anchor source offset
      ∧ (Location.ofOffset source.toList offset).seek? source.toList = some rest)
    ∧ (∀ other, offset ≤ other →
      Location.ofOffset source.toList offset ≤ Location.ofOffset source.toList other)
    ∧ (∀ other, Location.ofOffset source.toList offset = Location.ofOffset source.toList other
      ↔ Location.anchor source offset = Location.anchor source other) := by
  refine ⟨Location.one_le_ofOffset _ _, Location.seek?_anchor source offset,
    fun other => Location.ofOffset_mono _, fun other => ⟨?_, ?_⟩⟩
  · -- from one place one walks to one rest of the source
    intro hplace
    obtain ⟨before, rest, hsource, hbefore, hseek⟩ := Location.seek?_anchor source offset
    obtain ⟨before', rest', hsource', hbefore', hseek'⟩ := Location.seek?_anchor source other
    rw [hplace, hseek'] at hseek
    cases hseek
    rw [hsource] at hsource'
    rw [← hbefore, ← hbefore', List.append_cancel_right hsource']
  · intro hanchor
    rw [← Location.ofOffset_anchor source offset, hanchor, Location.ofOffset_anchor]

end Keybind
