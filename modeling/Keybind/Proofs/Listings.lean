import Keybind.Output
import Keybind.Proofs.Tiling
import Mathlib.Data.List.Nodup

/-!
# Reading a listing back

A listing has a line for each segment: its kind, a tab, and its text as a quoted
literal. This module reads such a text back, knowing nothing of the script that
it came from, and shows that nothing is lost: the kinds and the texts are found
again, so no two scripts have the same listing.

* A literal is read character by character. `Literal` is where the reader
  stands within an escape, and a number is read digit by digit (`unquote_hex`).
* A label is compared with the labels of the few kinds that it could name; its
  dashes and equals signs decide which long bracket that is.
* Neither a label nor a literal holds a newline, and a label holds no tab, so
  lines are cut at newlines and each line at its first tab.
-/

namespace Keybind

/-! ## Literals -/

namespace Text

/-- The value of a hexadecimal digit. -/
def hexDigit? (c : Char) : Option Nat :=
  if '0' ≤ c ∧ c ≤ '9' then some (c.toNat - '0'.toNat)
  else if 'a' ≤ c ∧ c ≤ 'f' then some (c.toNat - 'a'.toNat + 10)
  else none

/-- The character of a short escape. -/
def ofShortEscape? (e : Char) : Option Char :=
  match e with
  | '"' => some '"'
  | '\\' => some '\\'
  | 't' => some '\t'
  | 'r' => some '\r'
  | 'n' => some '\n'
  | '0' => some '\x00'
  | _ => none

/-- Where the reader of a literal stands. -/
inductive Literal where
  | plain
  /-- After a backslash. -/
  | escape
  /-- After the `u` of a number. -/
  | number
  /-- Within the digits of a number, which make `n` so far. -/
  | digits (n : Nat)
  deriving DecidableEq, Repr

/-- The text of a literal whose opening mark has been read. -/
def unquote : Literal → List Char → Option (List Char)
  | _, [] => none
  | .plain, c :: cs =>
    if c = '"' then if cs = [] then some [] else none
    else if c = '\\' then unquote .escape cs
    else (unquote .plain cs).map (c :: ·)
  | .escape, c :: cs =>
    if c = 'u' then unquote .number cs
    else (ofShortEscape? c).bind fun d => (unquote .plain cs).map (d :: ·)
  | .number, c :: cs => if c = '\x7b' then unquote (.digits 0) cs else none
  | .digits n, c :: cs =>
    if c = '\x7d' then (unquote .plain cs).map (Char.ofNat n :: ·)
    else (hexDigit? c).bind fun d => unquote (.digits (16 * n + d)) cs

theorem hexDigit?_digitChar {n : Nat} (h : n < 16) : hexDigit? n.digitChar = some n := by
  have hall : ∀ n : Fin 16, hexDigit? (n : Nat).digitChar = some (n : Nat) := by decide
  exact hall ⟨n, h⟩

/-- A digit goes on with the number. -/
theorem unquote_digit {d : Nat} (h : d < 16) (n : Nat) (cs : List Char) :
    unquote (.digits n) (d.digitChar :: cs) = unquote (.digits (16 * n + d)) cs := by
  have hbrace : d.digitChar ≠ '\x7d' := by
    have hall : ∀ d : Fin 16, (d : Nat).digitChar ≠ '\x7d' := by decide
    exact hall ⟨d, h⟩
  rw [unquote, if_neg hbrace, hexDigit?_digitChar h]
  rfl

/-- **A number is read digit by digit.** -/
theorem unquote_hex (n : Nat) (cs : List Char) :
    unquote (.digits 0) (Nat.toDigits 16 n ++ cs) = unquote (.digits n) cs := by
  induction n using Nat.strongRecOn generalizing cs with
  | ind n ih =>
      rw [Nat.toDigits_eq_if (by decide : 1 < 16)]
      split
      · rename_i hlt
        rw [List.singleton_append, unquote_digit hlt, Nat.mul_zero, Nat.zero_add]
      · rename_i hge
        rw [List.append_assoc, ih (n / 16) (by omega), List.singleton_append,
          unquote_digit (Nat.mod_lt n (by decide)), Nat.div_add_mod]

/-- A short escape can be undone. -/
theorem ofShortEscape?_eq {c e : Char} (h : shortEscape? c = some e) :
    ofShortEscape? e = some c ∧ e ≠ 'u' := by
  unfold shortEscape? at h
  split at h <;> cases h <;> exact ⟨rfl, by decide⟩

/-- Only the marks of a literal have to be escaped for its reader. -/
theorem ne_mark_of_shortEscape? {c : Char} (h : shortEscape? c = none) : c ≠ '"' ∧ c ≠ '\\' := by
  constructor
  · rintro rfl
    cases h
  · rintro rfl
    cases h

/-- **One character is read back** from the form in which it is quoted. -/
theorem unquote_quoteChar (c : Char) (cs : List Char) :
    unquote .plain (quoteChar c ++ cs) = (unquote .plain cs).map (c :: ·) := by
  unfold quoteChar
  split
  · rename_i e he
    obtain ⟨hread, hu⟩ := ofShortEscape?_eq he
    simp only [List.cons_append, List.nil_append, unquote, hu, hread, ↓reduceIte, Option.bind_some,
      Char.reduceEq]
  · rename_i hshort
    split
    · obtain ⟨hquote, hbackslash⟩ := ne_mark_of_shortEscape? hshort
      simp only [List.cons_append, List.nil_append, unquote, hquote, hbackslash, ↓reduceIte]
    · simp only [List.append_assoc, List.cons_append, List.nil_append, unquote, ↓reduceIte,
        Char.reduceEq, unquote_hex, Char.ofNat_toNat]

/-- **A literal is read back.** -/
theorem unquote_flatMap (cs : List Char) :
    unquote .plain (cs.flatMap quoteChar ++ ['"']) = some cs := by
  induction cs with
  | nil => rfl
  | cons c cs ih =>
      rw [List.flatMap_cons, List.append_assoc, unquote_quoteChar, ih]
      rfl

theorem newline_not_mem_hex (n : Nat) : '\n' ∉ Nat.toDigits 16 n := by
  induction n using Nat.strongRecOn with
  | ind n ih =>
      have hdigit : ∀ d : Fin 16, (d : Nat).digitChar ≠ '\n' := by decide
      rw [Nat.toDigits_eq_if (by decide : 1 < 16)]
      split
      · rename_i hlt
        rw [List.mem_singleton]
        exact (hdigit ⟨n, hlt⟩).symm
      · rw [List.mem_append, List.mem_singleton]
        rintro (hmem | heq)
        · exact ih (n / 16) (by omega) hmem
        · exact hdigit ⟨n % 16, Nat.mod_lt n (by decide)⟩ heq.symm

/-- A literal stands on one line. -/
theorem newline_not_mem_quoted (cs : List Char) : '\n' ∉ quoted cs := by
  have hchar : ∀ c, '\n' ∉ quoteChar c := by
    intro c
    unfold quoteChar
    split
    · rename_i e he
      have hne : e ≠ '\n' := by
        unfold shortEscape? at he
        split at he <;> cases he <;> decide
      simp [hne.symm]
    · rename_i hshort
      split
      · have hne : c ≠ '\n' := by
          rintro rfl
          cases hshort
        simpa using hne.symm
      · simp [newline_not_mem_hex]
  simp [quoted, hchar]

end Text

/-! ## Labels -/

namespace LongBracket

theorem toList_spell (bracket : LongBracket) (square : Char) :
    (bracket.spell square).toList
      = (if bracket.comment then ['-', '-'] else [])
        ++ square :: List.replicate bracket.level '=' ++ [square] :=
  String.toList_ofList

/-- A bracket is found again in what it is written as. -/
theorem mem_spell (bracket : LongBracket) {square : Char} (hdash : square ≠ '-')
    (hequals : square ≠ '=') :
    ('-' ∈ (bracket.spell square).toList ↔ bracket.comment = true)
      ∧ (bracket.spell square).toList.count '=' = bracket.level := by
  rw [toList_spell]
  constructor
  · cases bracket.comment <;> simp [hdash.symm]
  · cases bracket.comment <;> simp [hequals]

/-- It is written on one line, without tabs. -/
theorem not_mem_spell (bracket : LongBracket) {square c : Char} (hsquare : c ≠ square)
    (hdash : c ≠ '-') (hequals : c ≠ '=') : c ∉ (bracket.spell square).toList := by
  rw [toList_spell]
  cases bracket.comment <;> simp [hsquare, hdash, hequals]

end LongBracket

namespace SegmentKind

/-- The kinds that a label could name. -/
def candidates (label : List Char) : List SegmentKind :=
  let bracket : LongBracket := ⟨label.contains '-', label.count '='⟩
  [lineBreak, whitespace, text, arrow, openBrace, closeBrace, lineComment, longOpen bracket,
    longClose bracket, quoted .double, quoted .single]

/-- The kind that a label names. -/
def ofLabel? (label : List Char) : Option SegmentKind :=
  (candidates label).find? (·.label.toList = label)

theorem toList_label_longOpen (bracket : LongBracket) :
    (longOpen bracket).label.toList
      = "LongOpen(".toList ++ (bracket.spell '[').toList ++ [')'] := by
  rw [label, String.toList_append, String.toList_append]
  rfl

theorem toList_label_longClose (bracket : LongBracket) :
    (longClose bracket).label.toList
      = "LongClose(".toList ++ (bracket.spell ']').toList ++ [')'] := by
  rw [label, String.toList_append, String.toList_append]
  rfl

/-- The bracket of a label. -/
theorem bracket_label (before after : List Char) (square : Char) (bracket : LongBracket)
    (hdash : square ≠ '-') (hequals : square ≠ '=') (hopen : '-' ∉ before ∧ '=' ∉ before)
    (hclose : '-' ∉ after ∧ '=' ∉ after) :
    (⟨(before ++ (bracket.spell square).toList ++ after).contains '-',
      (before ++ (bracket.spell square).toList ++ after).count '='⟩ : LongBracket) = bracket := by
  obtain ⟨hcomment, hlevel⟩ := bracket.mem_spell hdash hequals
  have hcontains : (before ++ (bracket.spell square).toList ++ after).contains '-'
      = bracket.comment := by
    rw [Bool.eq_iff_iff, List.contains_iff_mem, List.mem_append, List.mem_append]
    simp [hopen.1, hclose.1, hcomment]
  have hcount : (before ++ (bracket.spell square).toList ++ after).count '='
      = bracket.level := by
    rw [List.count_append, List.count_append, List.count_eq_zero.mpr hopen.2,
      List.count_eq_zero.mpr hclose.2, hlevel, Nat.zero_add, Nat.add_zero]
  rw [hcontains, hcount]

/-- A kind is among those that its label could name. -/
theorem mem_candidates (kind : SegmentKind) : kind ∈ candidates kind.label.toList := by
  cases kind with
  | longOpen bracket =>
      have hbracket := bracket_label "LongOpen(".toList [')'] '[' bracket (by decide) (by decide)
        (by decide) (by decide)
      rw [toList_label_longOpen, candidates, hbracket]
      simp
  | longClose bracket =>
      have hbracket := bracket_label "LongClose(".toList [')'] ']' bracket (by decide) (by decide)
        (by decide) (by decide)
      rw [toList_label_longClose, candidates, hbracket]
      simp
  | quoted mark => cases mark <;> simp [candidates]
  | _ => simp [candidates]

/-- The first nine characters of a label, which tell it from the others that it could be. -/
def stem (kind : SegmentKind) : List Char :=
  kind.label.toList.take 9

theorem stem_longOpen (bracket : LongBracket) : (longOpen bracket).stem = "LongOpen(".toList := by
  rw [stem, toList_label_longOpen]
  rfl

theorem stem_longClose (bracket : LongBracket) :
    (longClose bracket).stem = "LongClose".toList := by
  rw [stem, toList_label_longClose]
  rfl

theorem nodup_stem (label : List Char) : ((candidates label).map stem).Nodup := by
  simp only [candidates, List.map_cons, List.map_nil, stem_longOpen, stem_longClose]
  decide

/-- **Different kinds have different labels.** -/
theorem label_injective {kind other : SegmentKind}
    (h : kind.label.toList = other.label.toList) : kind = other := by
  have hkind : kind ∈ candidates other.label.toList := h ▸ kind.mem_candidates
  have hstem : kind.stem = other.stem := congrArg (List.take 9) h
  exact List.inj_on_of_nodup_map (nodup_stem _) hkind other.mem_candidates hstem

/-- **A label names its kind.** -/
theorem ofLabel?_label (kind : SegmentKind) : ofLabel? kind.label.toList = some kind := by
  cases hfound : ofLabel? kind.label.toList with
  | none =>
      have hnone := List.find?_eq_none.mp hfound kind kind.mem_candidates
      simp at hnone
  | some other =>
      have hother := List.find?_some hfound
      exact congrArg some (label_injective (by simpa using hother))

/-- A label stands on one line and holds no tab. -/
theorem not_mem_label (kind : SegmentKind) {c : Char} (h : c = '\n' ∨ c = '\t') :
    c ∉ kind.label.toList := by
  cases kind with
  | longOpen bracket =>
      have hspell : c ∉ (bracket.spell '[').toList := by
        rcases h with rfl | rfl <;> exact bracket.not_mem_spell (by decide) (by decide) (by decide)
      rw [toList_label_longOpen, List.mem_append, List.mem_append]
      rcases h with rfl | rfl <;> simp [hspell]
  | longClose bracket =>
      have hspell : c ∉ (bracket.spell ']').toList := by
        rcases h with rfl | rfl <;> exact bracket.not_mem_spell (by decide) (by decide) (by decide)
      rw [toList_label_longClose, List.mem_append, List.mem_append]
      rcases h with rfl | rfl <;> simp [hspell]
  | quoted mark => cases mark <;> rcases h with rfl | rfl <;> decide
  | _ => rcases h with rfl | rfl <;> decide

end SegmentKind

/-! ## Lines -/

namespace Listing

/-- The line of a segment, without its newline. -/
def line (item : SegmentKind × List Char) : List Char :=
  item.1.label.toList ++ '\t' :: Text.quoted item.2

/-- The kind and the text that a line is about. -/
def readLine? (line : List Char) : Option (SegmentKind × List Char) := do
  match line.dropWhile (· ≠ '\t') with
  | '\t' :: '"' :: literal =>
    return (← SegmentKind.ofLabel? (line.takeWhile (· ≠ '\t')), ← Text.unquote .plain literal)
  | _ => none

/-- The lines of a text, if a newline ends each of them. -/
def lines? (text : List Char) : Option (List (List Char)) :=
  let parts := text.splitOn '\n'
  if parts.getLast? = some [] then some parts.dropLast else none

/-- The kinds and texts that a listing is about. -/
def read? (text : List Char) : Option (List (SegmentKind × List Char)) := do
  (← lines? text).mapM readLine?

/-- **A line is read back.** -/
theorem readLine?_line (item : SegmentKind × List Char) : readLine? (line item) = some item := by
  have htab : ∀ c ∈ item.1.label.toList, decide (c ≠ '\t') = true := by
    intro c hc
    rw [decide_eq_true_eq]
    rintro rfl
    exact item.1.not_mem_label (.inr rfl) hc
  have htake : (line item).takeWhile (· ≠ '\t') = item.1.label.toList := by
    rw [line, List.takeWhile_append_of_pos htab, List.takeWhile_cons_of_neg (by simp),
      List.append_nil]
  have hdrop : (line item).dropWhile (· ≠ '\t') = '\t' :: Text.quoted item.2 := by
    rw [line, List.dropWhile_append_of_pos htab, List.dropWhile_cons_of_neg (by simp)]
  have hunquote := Text.unquote_flatMap item.2
  rw [readLine?, hdrop, htake, SegmentKind.ofLabel?_label]
  simp only [Text.quoted, List.cons_append, hunquote]
  rfl

theorem newline_not_mem_line (item : SegmentKind × List Char) : '\n' ∉ line item := by
  simp [line, item.1.not_mem_label, Text.newline_not_mem_quoted]

/-- **Lines are found again** if none of them holds a newline. -/
theorem lines?_flatMap {lines : List (List Char)} (h : ∀ line ∈ lines, '\n' ∉ line) :
    lines? (lines.flatMap (· ++ ['\n'])) = some lines := by
  have hsplit : (lines.flatMap (· ++ ['\n'])).splitOn '\n' = lines ++ [[]] := by
    induction lines with
    | nil => rfl
    | cons line lines ih =>
        have hline : '\n' ∉ line := h line List.mem_cons_self
        rw [List.flatMap_cons, List.append_assoc, List.singleton_append,
          List.splitOn_append_cons_self, List.splitOn_eq_singleton hline,
          ih fun other hother => h other (List.mem_cons_of_mem _ hother)]
        rfl
  rw [lines?, hsplit]
  simp

/-- **A listing is read back.** -/
theorem read?_flatMap (items : List (SegmentKind × List Char)) :
    read? ((items.map line).flatMap (· ++ ['\n'])) = some items := by
  have hlines : ∀ l ∈ items.map line, '\n' ∉ l := by
    intro l hl
    obtain ⟨item, -, rfl⟩ := List.mem_map.mp hl
    exact newline_not_mem_line item
  have hmap : (items.map line).mapM readLine? = some items := by
    induction items with
    | nil => rfl
    | cons item items ih =>
        rw [List.map_cons, List.mapM_cons, readLine?_line,
          ih fun l hl => hlines l (List.mem_cons_of_mem _ hl)]
        rfl
  rw [read?, lines?_flatMap hlines]
  exact hmap

end Listing

/-! ## Whole scripts -/

/-- A listing is made of the lines of its segments. -/
theorem listLines_eq (cs : List Char) :
    listLines (lex cs) = ((bareSegments cs).map Listing.line).flatMap (· ++ ['\n']) := by
  rw [listLines, ← bare_lex, List.map_map, List.flatMap_map]
  refine List.flatMap_congr fun segment _ => ?_
  have hline : segment.kind.label.toList ++ ['\t'] ++ Text.quoted segment.text
      = Listing.line segment.bare := List.append_assoc _ _ _
  rw [Segment.listingLine, hline]
  rfl

/-- **A listing is read back.** Whatever the script, it has a line for each segment, and the kinds
and texts of the segments are found again in it. So no two scripts have the same listing. -/
theorem listing_reads_back (options : Options) (source : String) :
    ∃ lines : List (List Char),
      render options .segments source.toList = ⟨[], .ok (lines.flatMap (· ++ ['\n']))⟩
      ∧ lines.length = (lex source.toList).length
      ∧ (∀ line ∈ lines, '\n' ∉ line)
      ∧ lines = (lex source.toList).map (fun segment =>
          segment.kind.label.toList ++ '\t' :: Text.quoted segment.text)
      ∧ Listing.read? (lines.flatMap (· ++ ['\n']))
        = some ((lex source.toList).map fun segment => (segment.kind, segment.text))
      ∧ ∀ (others : Options) (other : String),
        (render others .segments other.toList).outcome
          = (render options .segments source.toList).outcome → other = source := by
  have hlines : (lex source.toList).map (fun segment =>
        segment.kind.label.toList ++ '\t' :: Text.quoted segment.text)
      = (bareSegments source.toList).map Listing.line := by
    rw [← bare_lex, List.map_map]
    rfl
  refine ⟨(bareSegments source.toList).map Listing.line, ?_, ?_, ?_, hlines.symm, ?_, ?_⟩
  · rw [← listLines_eq]
    rfl
  · rw [← bare_lex, List.length_map, List.length_map]
  · intro line hline
    obtain ⟨item, -, rfl⟩ := List.mem_map.mp hline
    exact Listing.newline_not_mem_line item
  · rw [Listing.read?_flatMap, ← bare_lex]
    rfl
  · intro others other hsame
    have htexts : listLines (lex other.toList) = listLines (lex source.toList) :=
      Except.ok.inj hsame
    have hread := congrArg Listing.read? htexts
    rw [listLines_eq, listLines_eq, Listing.read?_flatMap, Listing.read?_flatMap] at hread
    -- the texts of the segments are the script
    have hchars := congrArg (List.flatMap Prod.snd) (Option.some.inj hread)
    rw [text_bareSegments, text_bareSegments] at hchars
    exact String.toList_inj.mp hchars

end Keybind
