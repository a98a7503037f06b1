import Keybind.Proofs.Joining

/-!
# Where faults point

A reader of a fault goes to the line and the column it gives, and finds there the
delimiter that the fault complains about. Three things have to fit for that.

* Lines and columns are the way back: from the place of an offset, `seek?` finds
  the text that starts at this offset (`seek?_ofOffset`).
* A segment starts behind the texts of the segments before it, and its text is
  the delimiter that its kind names (`lex_cut`, `spells_lex`).
* The emitter has kept the offset of the segment that is at fault, which may have
  been taken long before: every opener that is still open is the opener of a
  segment (`exists_opener`), and every scope has its brace.
-/

namespace Keybind

/-! ## From lines and columns back to the text -/

/-- What follows the first newlines of a text, if it has so many. -/
def Text.afterLines : Nat → List Char → Option (List Char)
  | 0, cs => some cs
  | _ + 1, [] => none
  | n + 1, c :: cs => if c = '\n' then afterLines n cs else afterLines (n + 1) cs

/-- The text from a place on. The line has to be there, and to reach as far as the column. -/
def Location.seek? (place : Location) (cs : List Char) : Option (List Char) :=
  match place with
  | ⟨line + 1, column + 1⟩ =>
    match Text.afterLines line cs with
    | some rest =>
      if column ≤ (rest.takeWhile (· ≠ '\n')).length then some (rest.drop column) else none
    | none => none
  | _ => none

theorem Text.afterLines_newline (upper rest : List Char) :
    afterLines (upper.count '\n' + 1) (upper ++ '\n' :: rest) = some rest := by
  induction upper with
  | nil => rw [List.count_nil, List.nil_append, afterLines, if_pos rfl, afterLines]
  | cons c upper ih =>
      rw [List.cons_append]
      by_cases hc : c = '\n'
      · rw [hc, List.count_cons_self, afterLines, if_pos rfl, ih]
      · rw [List.count_cons_of_ne hc, afterLines, if_neg hc, ih]

/-- Walking over a text leads to its last line. -/
theorem Location.foldl_advance_lines (before : List Char) :
    ∃ upper lower, before = upper ++ lower ∧ '\n' ∉ lower
      ∧ before.foldl advance start = ⟨upper.count '\n' + 1, lower.length + 1⟩
      ∧ ∀ rest, Text.afterLines (upper.count '\n') (upper ++ rest) = some rest := by
  -- from the end, since the last character decides whether the line is a new one
  induction before using List.reverseRecOn with
  | nil =>
      refine ⟨[], [], rfl, List.not_mem_nil, rfl, fun rest => ?_⟩
      rw [List.count_nil, List.nil_append, Text.afterLines]
  | append_singleton before c ih =>
      obtain ⟨upper, lower, hsplit, hlower, hplace, hafter⟩ := ih
      rw [List.foldl_append, hplace, List.foldl_cons, List.foldl_nil, advance]
      by_cases hc : c = '\n'
      · subst hc
        have hcount : before.count '\n' = upper.count '\n' := by
          rw [hsplit, List.count_append, List.count_eq_zero.mpr hlower, Nat.add_zero]
        refine ⟨before ++ ['\n'], [], (List.append_nil _).symm, List.not_mem_nil, ?_, ?_⟩
        · rw [if_pos rfl, List.count_append, hcount]
          rfl
        · intro rest
          rw [List.count_append, List.append_assoc]
          exact Text.afterLines_newline before rest
      · refine ⟨upper, lower ++ [c], ?_, ?_, ?_, hafter⟩
        · rw [hsplit, List.append_assoc]
        · intro hmem
          rcases List.mem_append.mp hmem with hmem | hmem
          · exact hlower hmem
          · exact hc (List.mem_singleton.mp hmem).symm
        · rw [if_neg hc, List.length_append]
          rfl

/-- **Lines and columns lead back to the text.** -/
theorem Location.seek?_ofOffset (before rest : List Char) :
    (ofOffset (before ++ rest) (Text.byteSize before)).seek? (before ++ rest) = some rest := by
  have hbytes : Text.takeBytes (Text.byteSize before) (before ++ rest) = before := by
    have htake := Text.takeBytes_append_right before [] 0
    rw [List.append_nil, Nat.zero_add] at htake
    rw [Text.takeBytes_append_left (Nat.le_refl _), htake]
    exact List.append_nil before
  obtain ⟨upper, lower, hsplit, hlower, hplace, hafter⟩ := foldl_advance_lines before
  have hline : lower.length ≤ ((lower ++ rest).takeWhile (· ≠ '\n')).length := by
    rw [List.takeWhile_append_of_pos, List.length_append]
    · exact Nat.le_add_right _ _
    · intro c hc
      exact decide_eq_true fun heq => hlower (heq ▸ hc)
  rw [ofOffset, hbytes, hplace, seek?, hsplit, List.append_assoc, hafter]
  dsimp only
  rw [if_pos hline, List.drop_left]

/-! ## Segments in their source -/

theorem Lexeme.start_layOut {κ : Type} {xs : List (κ × List Char)} {offset : Nat}
    {before after : List (Lexeme κ)} {lexeme : Lexeme κ}
    (h : layOut offset xs = before ++ lexeme :: after) :
    lexeme.span.start = offset + Text.byteSize (before.flatMap (·.text)) := by
  induction before generalizing offset xs with
  | nil =>
      have hfirst : lexeme ∈ (layOut offset xs).head? := by
        rw [h]
        rfl
      exact head?_layOut hfirst
  | cons first before ih =>
      cases xs with
      | nil => cases h
      | cons x xs =>
          rw [layOut, List.cons_append] at h
          obtain ⟨hfirst, hrest⟩ := List.cons.inj h
          rw [ih hrest, List.flatMap_cons, Text.byteSize_append, ← hfirst, Nat.add_assoc]

/-- **A segment cuts its source in three**, and starts behind the first part. -/
theorem lex_cut {cs : List Char} {before after : List Segment} {segment : Segment}
    (h : lex cs = before ++ segment :: after) :
    segment.span.start = Text.byteSize (before.flatMap (·.text))
      ∧ cs = before.flatMap (·.text) ++ (segment.text ++ after.flatMap (·.text)) := by
  constructor
  · rw [lex_eq_layOut] at h
    rw [Lexeme.start_layOut h, Nat.zero_add]
  · rw [← List.flatMap_cons, ← List.flatMap_append, ← h, text_lex]

/-- From the place of a segment on, the source goes on with the segment. -/
theorem seek?_segment {cs : List Char} {before after : List Segment} {segment : Segment}
    (h : lex cs = before ++ segment :: after) :
    (Location.ofOffset cs segment.span.start).seek? cs
      = some (segment.text ++ after.flatMap (·.text)) := by
  obtain ⟨hstart, htext⟩ := lex_cut h
  rw [hstart, htext]
  exact Location.seek?_ofOffset _ _

/-! ## What is still open has been opened -/

/-- **Every opener is the opener of a segment.** -/
theorem exists_opener {segments : List Segment} {opener : Opener}
    (h : opener ∈ (surroundings segments).openers) :
    ∃ segment ∈ segments, segment.kind = .longOpen opener.bracket
      ∧ segment.span.start = opener.offset := by
  induction segments using List.reverseRecOn with
  | nil => cases h
  | append_singleton segments segment ih =>
      rw [surroundings_snoc] at h
      by_cases hold : opener ∈ (surroundings segments).openers
      · obtain ⟨earlier, hmem, hearlier⟩ := ih hold
        exact ⟨earlier, List.mem_append_left _ hmem, hearlier⟩
      -- an opener that was not there before is that of the last segment
      refine ⟨segment, List.mem_append_right _ List.mem_cons_self, ?_⟩
      unfold Surroundings.after at h
      split at h
      · cases h
      · cases h
      · cases h
      · rename_i openers bracket hwithin hkind
        rcases List.mem_cons.mp h with rfl | hmem
        · exact ⟨hkind, rfl⟩
        · rw [hwithin] at hold
          exact absurd hmem hold
      · rename_i hwithin hkind
        rw [hwithin] at hold
        exact absurd (List.mem_of_mem_tail h) hold
      · rename_i hwithin _ _ _
        rw [hwithin] at hold
        exact absurd h hold

/-- The code is made of segments of the script. -/
theorem mem_of_mem_code {segments : List Segment} {segment : Segment}
    (h : segment ∈ code segments) : segment ∈ segments := by
  have hfrom : ∀ (segments : List Segment) (enclosing : Surroundings),
      segment ∈ codeFrom enclosing segments → segment ∈ segments := by
    intro segments
    induction segments with
    | nil => exact fun _ h => h
    | cons first segments ih =>
        intro enclosing h
        rw [codeFrom] at h
        split at h
        · rcases List.mem_cons.mp h with rfl | h
          · exact List.mem_cons_self
          · exact List.mem_cons_of_mem _ (ih _ h)
        · exact List.mem_cons_of_mem _ (ih _ h)
  exact hfrom segments _ h

/-! ## Whole scripts -/

/-- The delimiter that a fault names. -/
def Fault.delimiter {π : Type} : Fault π → String
  | unbalancedClose _ => "\x7d"
  | unbalancedOpen _ => "\x7b"
  | mismatchedLongBracket _ _ found => found.closer
  | unterminatedLongBracket _ opened => opened.opener

/-- The fault stands at a segment that is the delimiter it names. A closer that does not fit an
opener has another level, and the opener is a segment before it. -/
def Fault.PointsAt (fault : Fault Nat) (before : List Segment) (segment : Segment) : Prop :=
  segment.span.start = fault.place ∧ segment.text = fault.delimiter.toList
    ∧ ∀ place opened found, fault = .mismatchedLongBracket place (some opened) found →
      opened.level ≠ found.level ∧ ∃ opener ∈ before, opener.text = opened.opener.toList

/-- A segment that offends is what the fault names. -/
theorem Offends.pointsAt {before : List Segment} {segment : Segment} {fault : Fault Nat}
    (h : Offends before segment fault) (hspells : ∀ s ∈ before, s.kind.Spells s.text)
    (hsegment : segment.kind.Spells segment.text) : fault.PointsAt before segment := by
  cases h with
  | closer hkind hcomment hlevel =>
      rw [hkind] at hsegment
      refine ⟨rfl, hsegment, ?_⟩
      intro place opened found heq
      obtain ⟨-, hopened, rfl⟩ := Fault.mismatchedLongBracket.inj heq
      obtain ⟨innermost, hinnermost, rfl⟩ := Option.map_eq_some_iff.mp hopened
      obtain ⟨opener, hmem, hopener, -⟩ := exists_opener (List.mem_of_mem_head? hinnermost)
      have htext := hspells opener hmem
      rw [hopener] at htext
      exact ⟨hlevel innermost hinnermost, opener, hmem, htext⟩
  | brace hkind _ _ =>
      rw [hkind] at hsegment
      have htext : segment.text = "\x7d".toList := hsegment.trans (by decide)
      exact ⟨rfl, htext, fun _ _ _ heq => nomatch heq⟩

/-- What is still open at the end is what the fault names. -/
theorem Tracks.pointsAt {options : Options} {segments : List Segment} {emitter : Emitter}
    {fault : Fault Nat} (h : Tracks segments emitter)
    (hspells : ∀ s ∈ segments, s.kind.Spells s.text)
    (hfinish : emitter.finish options = .error fault) :
    ∃ before segment after, segments = before ++ segment :: after
      ∧ fault.PointsAt before segment := by
  have hfinishes := emitter.finishes options
  rw [hfinish] at hfinishes
  cases hfinishes with
  | bracket _ hopener =>
      rw [h.outermost] at hopener
      obtain ⟨segment, hsegment, hkind, hstart⟩ := exists_opener (List.mem_of_mem_getLast? hopener)
      obtain ⟨before, after, hsplit⟩ := List.append_of_mem hsegment
      have htext := hspells segment hsegment
      rw [hkind] at htext
      exact ⟨before, segment, after, hsplit, hstart, htext, fun _ _ _ heq => nomatch heq⟩
  | brace _ hscopes =>
      have hopen := h.scopes
      rw [hscopes] at hopen
      obtain ⟨outside, brace, inside, hcode, hkind, hstart, -, -⟩ := hopen
      have hmem : brace ∈ segments := by
        refine mem_of_mem_code ?_
        rw [hcode]
        exact List.mem_append_right _ List.mem_cons_self
      obtain ⟨before, after, hsplit⟩ := List.append_of_mem hmem
      have htext := hspells brace hmem
      rw [hkind] at htext
      have hbrace : brace.text = "\x7b".toList := htext.trans (by decide)
      exact ⟨before, brace, after, hsplit, hstart, hbrace, fun _ _ _ heq => nomatch heq⟩

/-- A script that fails does so at one of its segments. -/
theorem exists_pointsAt {options : Options} {source : String} {e : TranspileError}
    (h : transpile options source = .error e) :
    ∃ (fault : Fault Nat) (before : List Segment) (segment : Segment) (after : List Segment),
      e = fault.locate source.toList
      ∧ lex source.toList = before ++ segment :: after ∧ fault.PointsAt before segment := by
  have hspells : ∀ s ∈ lex source.toList, s.kind.Spells s.text := fun _ => spells_lex
  cases hrun : (({} : Emitter).feedAll options (lex source.toList)).2 with
  | error fault =>
      rw [transpile_of_error (emit_of_error hrun)] at h
      obtain ⟨before, segment, after, middle, next, hsplit, hbefore, hfeed⟩ :=
        Emitter.feedAll_error hrun
      rw [hsplit, List.forall_mem_append, List.forall_mem_cons] at hspells
      have hoffends := (Tracks.of_accepts hbefore).offends hfeed
      exact ⟨fault, before, segment, after, (Except.error.inj h).symm, hsplit,
        hoffends.pointsAt hspells.1 hspells.2.1⟩
  | ok last =>
      have hemit := emit_of_accepts hrun
      cases hfinish : last.finish options with
      | error fault =>
          rw [transpile_of_error (hemit.trans hfinish)] at h
          obtain ⟨before, segment, after, hsplit, hpoints⟩ :=
            (Tracks.of_accepts hrun).pointsAt hspells hfinish
          exact ⟨fault, before, segment, after, (Except.error.inj h).symm, hsplit, hpoints⟩
      | ok pieces =>
          rw [transpile_of_ok (hemit.trans hfinish)] at h
          cases h

/-- **Every fault points at the delimiter it names.** Its line is there and reaches as far as its
column, and from there on the source starts with the delimiter. A closer that does not fit an opener
has another level, and the opener stands before it. -/
theorem fault_points_at_delimiter {options : Options} {source : String} {e : TranspileError}
    (h : transpile options source = .error e) :
    ∃ rest, e.place.seek? source.toList = some rest ∧ e.delimiter.toList <+: rest
      ∧ ∀ place opened found, e = .mismatchedLongBracket place (some opened) found →
        opened.level ≠ found.level
          ∧ ∃ before between, source.toList = before ++ opened.opener.toList ++ between ++ rest := by
  obtain ⟨fault, before, segment, after, rfl, hsplit, hstart, htext, hmismatch⟩ :=
    exists_pointsAt h
  have hplace : (fault.locate source.toList).place
      = Location.ofOffset source.toList fault.place := by
    cases fault <;> rfl
  have hdelimiter : (fault.locate source.toList).delimiter = fault.delimiter := by
    cases fault <;> rfl
  refine ⟨segment.text ++ after.flatMap (·.text), ?_, ?_, ?_⟩
  · rw [hplace, ← hstart, seek?_segment hsplit]
  · rw [hdelimiter, ← htext]
    exact List.prefix_append _ _
  · intro place opened found heq
    cases fault with
    | mismatchedLongBracket offset opened' found' =>
        obtain ⟨-, rfl, rfl⟩ := Fault.mismatchedLongBracket.inj heq
        obtain ⟨hlevel, opener, hmem, hopener⟩ := hmismatch offset opened found' rfl
        obtain ⟨earlier, later, rfl⟩ := List.append_of_mem hmem
        refine ⟨hlevel, earlier.flatMap (·.text), later.flatMap (·.text), ?_⟩
        have hcut := (lex_cut hsplit).2
        rw [List.flatMap_append, List.flatMap_cons, hopener] at hcut
        simpa only [List.append_assoc] using hcut
    | _ => cases heq

/-- A closer of another level, on the second line and behind a character of two bytes. -/
theorem fault_points_at_delimiter_closer :
    transpile {} "[=[ a\né]] b" = .error (.mismatchedLongBracket ⟨2, 2⟩ (some ⟨false, 1⟩) ⟨false, 0⟩)
      ∧ ∃ rest, (Location.mk 2 2).seek? "[=[ a\né]] b".toList = some rest
        ∧ "]]".toList <+: rest
        ∧ ∃ before between,
          "[=[ a\né]] b".toList = before ++ "[=[".toList ++ between ++ rest := by
  have h : transpile {} "[=[ a\né]] b"
      = .error (.mismatchedLongBracket ⟨2, 2⟩ (some ⟨false, 1⟩) ⟨false, 0⟩) := by rfl
  obtain ⟨rest, hseek, hdelimiter, hmismatch⟩ := fault_points_at_delimiter h
  exact ⟨h, rest, hseek, hdelimiter, (hmismatch _ _ _ rfl).2⟩

end Keybind
