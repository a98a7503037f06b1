import Keybind.Proofs.Transparency

/-!
# What the output keeps

An arrow takes back its line, cuts off the indent and trims the rest, and the next
arrow on the line does the same with what the first one has put there. So text may
go through any number of cuts before it is put out for good. Two things come
through all of them.

* *Ink*, the characters that are not white space. A cut takes white space only,
  so the ink of the source is in the output, in order, but for the arrows and
  braces that are replaced; and what else is there has been put there for one of
  them, which can be counted.
* *Newlines*. They are white space, so a cut could take one. Within a line
  newlines stand in quoted strings only, and a string has its marks on both sides:
  no newline is among the white space at the ends of a line (`Framed`).

Both are shown for one segment that is written to a line (`ink_write`,
`newlines_write`), and from there for a whole script.
-/

namespace Keybind

/-! ## Cutting white space off -/

namespace Text

theorem isBlank_of_isIndent {c : Char} (h : isIndent c = true) : isBlank c = true := by
  by_contra hc
  rw [isIndent_eq_false (Bool.eq_false_iff.mpr hc)] at h
  cases h

/-- The indent is white space, so it does not matter to what is trimmed. -/
theorem trim_body (cs : List Char) : trim (body cs) = trim cs := by
  have hstart : trimStart (body cs) = trimStart cs := by
    unfold trimStart body
    induction cs with
    | nil => rfl
    | cons c cs ih =>
        by_cases hc : isIndent c = true
        · rw [List.dropWhile_cons_of_pos hc, ih,
            List.dropWhile_cons_of_pos (isBlank_of_isIndent hc)]
        · rw [List.dropWhile_cons_of_neg hc]
  rw [trim, hstart, trim]

/-- The characters that are not white space. -/
def ink (cs : List Char) : List Char :=
  cs.filter fun c => !isBlank c

@[simp] theorem ink_nil : ink [] = [] := rfl

@[simp] theorem ink_append (xs ys : List Char) : ink (xs ++ ys) = ink xs ++ ink ys :=
  List.filter_append ..

theorem ink_eq_nil {cs : List Char} (h : ∀ c ∈ cs, isBlank c = true) : ink cs = [] :=
  List.filter_eq_nil_iff.mpr fun c hc => by rw [h c hc]; exact Bool.false_ne_true

theorem ink_trimStart (cs : List Char) : ink (trimStart cs) = ink cs := by
  have hcut : ink (cs.takeWhile isBlank ++ trimStart cs) = ink (trimStart cs) := by
    rw [ink_append, ink_eq_nil fun c hc => List.all_eq_true.mp List.all_takeWhile c hc,
      List.nil_append]
  rw [← hcut, trimStart, List.takeWhile_append_dropWhile]

theorem ink_reverse (cs : List Char) : ink cs.reverse = (ink cs).reverse :=
  List.filter_reverse ..

/-- **Trimming takes no ink.** -/
theorem ink_trim (cs : List Char) : ink (trim cs) = ink cs := by
  have hend : ∀ xs, ink (trimEnd xs) = ink xs := by
    intro xs
    have hstart := ink_trimStart xs.reverse
    unfold trimStart at hstart
    rw [trimEnd, ink_reverse, hstart, ink_reverse, List.reverse_reverse]
  rw [trim, hend, ink_trimStart]

theorem ink_indent (cs : List Char) : ink (indent cs) = [] :=
  ink_eq_nil fun c hc => isBlank_of_isIndent (List.all_eq_true.mp List.all_takeWhile c hc)

end Text

/-! ## Ink -/

/-- What the output takes over of a segment. -/
def kept (item : Role × Segment) : List Char :=
  if item.1 = .copied then item.2.text else []

/-- What is put out for a segment and does not come from the source. -/
def Role.generated (options : Options) : Role → List Char
  | .assign => options.matchTable.toList ++ "[] =".toList
  | .openBody => options.scopeOpen
  | .closeBody => "end)".toList
  | .copied => []

open Text (ink)

/-- **One segment.** The ink of the line and of the segment stays in order, and the rest has been
put there for the segment. -/
theorem ink_write (options : Options) (line : List Char) (item : Role × Segment) :
    (ink line ++ ink (kept item)).Sublist (ink (write options line item))
      ∧ (ink (write options line item)).length
        = (ink line).length + (ink (kept item)).length
          + (ink (item.1.generated options)).length := by
  obtain ⟨role, segment⟩ := item
  cases role with
  | assign =>
      -- the line moves behind the name of the match table, and brackets are put around it
      have hwrite : ink (write options line (.assign, segment))
          = ink options.matchTable.toList ++ ['['] ++ ink line ++ [']', '='] := by
        unfold write
        dsimp only
        rw [Text.trim_body]
        simp only [Text.ink_append, Text.ink_indent, Text.ink_trim, List.nil_append]
        rfl
      have hnew : ink (Role.assign.generated options)
          = ink options.matchTable.toList ++ ['[', ']', '='] := by
        unfold Role.generated
        rw [Text.ink_append]
        rfl
      have hkept : ink (kept (.assign, segment)) = [] := rfl
      rw [hwrite, hnew, hkept, List.append_nil]
      constructor
      · exact (List.sublist_append_right _ _).trans (List.sublist_append_left _ _)
      · simp only [List.length_append, List.length_cons, List.length_nil]
        omega
  | openBody =>
      have hwrite : ink (write options line (.openBody, segment))
          = ink line ++ ink options.scopeOpen := Text.ink_append _ _
      have hkept : ink (kept (.openBody, segment)) = [] := rfl
      rw [hwrite, hkept, List.append_nil]
      exact ⟨List.sublist_append_left _ _, List.length_append⟩
  | closeBody =>
      have hwrite : ink (write options line (.closeBody, segment))
          = ink line ++ ink "end)".toList := Text.ink_append _ _
      have hkept : ink (kept (.closeBody, segment)) = [] := rfl
      rw [hwrite, hkept, List.append_nil]
      exact ⟨List.sublist_append_left _ _, List.length_append⟩
  | copied =>
      have hwrite : ink (write options line (.copied, segment))
          = ink line ++ ink (kept (.copied, segment)) := Text.ink_append _ _
      rw [hwrite]
      exact ⟨List.Sublist.refl _, List.length_append⟩

/-- A line break is copied. -/
theorem Standing.role_lineBreak {segment : Segment} (standing : Standing)
    (h : segment.kind = .lineBreak) : standing.role segment = .copied := by
  refine (standing.of_not_structural segment fun _ => ?_).1
  rw [h]
  decide

theorem role_of_lineBreak (standing : Standing) (segments : List Segment) :
    ∀ item ∈ roles standing segments, item.2.kind = .lineBreak → item.1 = .copied := by
  induction segments generalizing standing with
  | nil => exact fun _ hitem => absurd hitem List.not_mem_nil
  | cons segment segments ih =>
      exact List.forall_mem_cons.mpr ⟨standing.role_lineBreak, ih _⟩

/-- **All segments.** -/
theorem ink_writeOn (options : Options) {items : List (Role × Segment)}
    (hbreak : ∀ item ∈ items, item.2.kind = .lineBreak → item.1 = .copied) (line : List Char) :
    (ink line ++ ink (items.flatMap kept)).Sublist (ink (writeOn options line items))
      ∧ (ink (writeOn options line items)).length
        = (ink line).length + (ink (items.flatMap kept)).length
          + (items.flatMap fun item => ink (item.1.generated options)).length := by
  induction items generalizing line with
  | nil =>
      rw [writeOn, List.flatMap_nil, Text.ink_nil, List.append_nil]
      exact ⟨List.Sublist.refl _, rfl⟩
  | cons item items ih =>
      obtain ⟨hfirst, hrest⟩ := List.forall_mem_cons.mp hbreak
      rw [writeOn, List.flatMap_cons, List.flatMap_cons, Text.ink_append, List.length_append,
        List.length_append, ← List.append_assoc]
      by_cases hk : item.2.kind = .lineBreak
      · -- the line is closed, and what follows starts from nothing
        have hcopied := hfirst hk
        have hkept : kept item = item.2.text := if_pos hcopied
        have hnew : ink (item.1.generated options) = [] := by rw [hcopied]; rfl
        obtain ⟨hsublist, hlength⟩ := ih hrest []
        rw [if_pos hk, Text.ink_append, Text.ink_append, hkept, hnew]
        refine ⟨List.Sublist.append_left hsublist _, ?_⟩
        rw [List.length_append, List.length_append, hlength]
        simp only [Text.ink_nil, List.length_nil]
        omega
      · obtain ⟨hstep, hcount⟩ := ink_write options line item
        obtain ⟨hsublist, hlength⟩ := ih hrest (write options line item)
        rw [if_neg hk]
        refine ⟨(hstep.append_right _).trans hsublist, ?_⟩
        rw [hlength, hcount]
        omega

/-- What has been put there is counted by what becomes of the segments. -/
theorem length_generated (f : Role → List Char) (hcopied : f .copied = [])
    (items : List (Role × Segment)) :
    (items.flatMap fun item => f item.1).length
      = items.countP (·.1 = .assign) * (f .assign).length
        + items.countP (·.1 = .openBody) * (f .openBody).length
        + items.countP (·.1 = .closeBody) * (f .closeBody).length := by
  induction items with
  | nil => simp
  | cons item items ih =>
      rw [List.flatMap_cons, List.length_append, ih, List.countP_cons, List.countP_cons,
        List.countP_cons]
      cases hrole : item.1 with
      | copied => simp [hcopied]
      | assign => simp [Nat.add_mul]; omega
      | openBody => simp [Nat.add_mul]; omega
      | closeBody => simp [Nat.add_mul]; omega

theorem text_roles (source : String) :
    (roles {} (lex source.toList)).flatMap (·.2.text) = source.toList := by
  calc (roles {} (lex source.toList)).flatMap (·.2.text)
      = ((roles {} (lex source.toList)).map Prod.snd).flatMap (·.text) := by
        rw [List.flatMap_map]
    _ = source.toList := by rw [map_snd_roles, text_lex]

/-- **Nothing but white space is lost, and nothing but generated text is added.** The segments give
the source back. Of those that are not replaced, all ink is in the output, in order; and there is no
more than that and the ink of each replacement. -/
theorem ink_conserved {options : Options} {source out : String}
    (h : transpile options source = .ok out) :
    (roles {} (lex source.toList)).flatMap (·.2.text) = source.toList
      ∧ (ink ((roles {} (lex source.toList)).flatMap kept)).Sublist out.toList
      ∧ (ink out.toList).length
        = (ink ((roles {} (lex source.toList)).flatMap kept)).length
          + (roles {} (lex source.toList)).countP (·.1 = .assign)
            * (ink (options.matchTable.toList ++ "[] =".toList)).length
          + (roles {} (lex source.toList)).countP (·.1 = .openBody)
            * (ink options.scopeOpen).length
          + (roles {} (lex source.toList)).countP (·.1 = .closeBody)
            * (ink "end)".toList).length := by
  obtain ⟨last, hrun, -, hout⟩ := transpile_ok h
  have hwritten : out.toList = writeOn options [] (roles {} (lex source.toList)) := by
    rw [hout, String.toList_ofList, hrun.writes_start]
  obtain ⟨hsublist, hlength⟩ := ink_writeOn options
    (role_of_lineBreak {} (lex source.toList)) []
  have hsum := length_generated (fun role => ink (role.generated options)) rfl
    (roles {} (lex source.toList))
  rw [Text.ink_nil, List.nil_append] at hsublist
  refine ⟨text_roles source, ?_, ?_⟩
  · rw [hwritten]
    exact hsublist.trans List.filter_sublist
  · rw [hwritten, hlength, hsum, Text.ink_nil, List.length_nil, Nat.zero_add, ← Nat.add_assoc,
      ← Nat.add_assoc]
    rfl

/-- Two arrows on a line: the second takes back what the first has put there. -/
theorem ink_conserved_arrows :
    transpile {} " a =>\tb\x0b=> \x7b\n\x7d"
        = .ok " __match[__match[a] =\tb] = MatchScope.new(function (__match)\nend)"
      ∧ ['a', 'b'].Sublist
        " __match[__match[a] =\tb] = MatchScope.new(function (__match)\nend)".toList
      ∧ (ink " __match[__match[a] =\tb] = MatchScope.new(function (__match)\nend)".toList).length
        = 2 + 2 * "__match[]=".length + 1 * "MatchScope.new(function(__match)".length
          + 1 * "end)".length := by
  have h : transpile {} " a =>\tb\x0b=> \x7b\n\x7d"
      = .ok " __match[__match[a] =\tb] = MatchScope.new(function (__match)\nend)" := by rfl
  have hkept : ink ((roles {} (lex " a =>\tb\x0b=> \x7b\n\x7d".toList)).flatMap kept)
      = ['a', 'b'] := by rfl
  obtain ⟨-, hsublist, hlength⟩ := ink_conserved h
  rw [hkept] at hsublist hlength
  exact ⟨h, hsublist, hlength⟩

/-! ## Newlines -/

/-- No newline is among the white space at the ends of the text. -/
structure Framed (text : List Char) : Prop where
  start : '\n' ∉ text.takeWhile Text.isBlank
  stop : '\n' ∉ text.reverse.takeWhile Text.isBlank

theorem mem_takeWhile_append {p : Char → Bool} {c : Char} {xs ys : List Char}
    (h : c ∈ (xs ++ ys).takeWhile p) : c ∈ xs.takeWhile p ∨ c ∈ ys.takeWhile p := by
  rw [List.takeWhile_append] at h
  split at h
  · rename_i hall
    rw [List.takeWhile_prefix p |>.eq_of_length hall]
    exact List.mem_append.mp h
  · exact .inl h

namespace Framed

theorem of_not_mem {text : List Char} (h : '\n' ∉ text) : Framed text :=
  ⟨fun hmem => h (List.takeWhile_subset _ hmem),
    fun hmem => h (List.mem_reverse.mp (List.takeWhile_subset _ hmem))⟩

theorem append {xs ys : List Char} (hx : Framed xs) (hy : Framed ys) : Framed (xs ++ ys) where
  start hmem := (mem_takeWhile_append hmem).elim hx.start hy.start
  stop hmem := by
    rw [List.reverse_append] at hmem
    exact (mem_takeWhile_append hmem).elim hy.stop hx.stop

theorem of_solid {text : List Char} (h : Solid text) : Framed text where
  start := by
    obtain ⟨c, cs, rfl, hc⟩ := h.head
    rw [List.takeWhile_cons_of_neg (by rw [hc]; exact Bool.false_ne_true)]
    exact List.not_mem_nil
  stop := by
    obtain ⟨cs, c, rfl, hc⟩ := h.last
    rw [List.reverse_append, List.reverse_singleton, List.singleton_append,
      List.takeWhile_cons_of_neg (by rw [hc]; exact Bool.false_ne_true)]
    exact List.not_mem_nil

/-- What is left of a framed text is framed if the white space at its start is cut off. -/
theorem trimStart {text : List Char} (h : Framed text) : Framed (Text.trimStart text) where
  start := by
    have hnone : (Text.trimStart text).takeWhile Text.isBlank = [] :=
      List.takeWhile_eq_nil_iff.mpr fun hpos => List.dropWhile_get_zero_not _ _ hpos
    rw [hnone]
    exact List.not_mem_nil
  stop hmem := by
    refine h.stop ?_
    obtain ⟨cut, hcut⟩ := List.dropWhile_suffix (l := text) Text.isBlank
    rw [← hcut, List.reverse_append, List.takeWhile_append]
    split
    · exact List.mem_append_left _ (List.takeWhile_subset _ hmem)
    · exact hmem

theorem reverse {text : List Char} (h : Framed text) : Framed text.reverse :=
  ⟨h.stop, by rw [List.reverse_reverse]; exact h.start⟩

theorem count_trimStart {text : List Char} (h : Framed text) :
    (Text.trimStart text).count '\n' = text.count '\n' := by
  have hcut : text.count '\n'
      = (text.takeWhile Text.isBlank ++ Text.trimStart text).count '\n' := by
    rw [Text.trimStart, List.takeWhile_append_dropWhile]
  rw [hcut, List.count_append, List.count_eq_zero_of_not_mem h.start, Nat.zero_add]

/-- **Trimming a framed text takes no newline**, and leaves a framed text. -/
theorem trim {text : List Char} (h : Framed text) :
    Framed (Text.trim text) ∧ (Text.trim text).count '\n' = text.count '\n' := by
  have hstart := h.trimStart
  constructor
  · exact hstart.reverse.trimStart.reverse
  · have hend := hstart.reverse.count_trimStart
    rw [List.count_reverse, h.count_trimStart] at hend
    rw [Text.trim, Text.trimEnd, List.count_reverse]
    exact hend

end Framed

/-- Any segment but a line break is framed. -/
theorem framed_lex {cs : List Char} {segment : Segment} (h : segment ∈ lex cs)
    (hbreak : segment.kind ≠ .lineBreak) : Framed segment.text := by
  by_cases hquoted : ∃ mark, segment.kind = .quoted mark
  · obtain ⟨mark, hmark⟩ := hquoted
    have hspells := spells_lex h
    rw [hmark] at hspells
    obtain ⟨body, hbody⟩ := hspells
    have hchar : Text.isBlank mark.char = false := by cases mark <;> rfl
    rw [hbody]
    exact .of_solid ⟨⟨mark.char, body ++ [mark.char], rfl, hchar⟩,
      ⟨mark.char :: body, mark.char, rfl, hchar⟩⟩
  · exact .of_not_mem (newline_not_mem_lex h hbreak fun mark hmark => hquoted ⟨mark, hmark⟩)

/-- A segment that stands within a line: its text is framed, and if it is replaced it has no
newline. -/
structure Inline (item : Role × Segment) : Prop where
  framed : Framed item.2.text
  replaced : item.1 ≠ .copied → '\n' ∉ item.2.text

theorem inline_roles {cs : List Char} {segments : List Segment} (hsub : ∀ s ∈ segments, s ∈ lex cs)
    (standing : Standing) :
    ∀ item ∈ roles standing segments, item.2.kind ≠ .lineBreak → Inline item := by
  induction segments generalizing standing with
  | nil => exact fun _ hitem => absurd hitem List.not_mem_nil
  | cons segment segments ih =>
      obtain ⟨hfirst, hrest⟩ := List.forall_mem_cons.mp hsub
      refine List.forall_mem_cons.mpr ⟨fun hbreak => ⟨framed_lex hfirst hbreak, ?_⟩, ih hrest _⟩
      -- a string is never replaced
      refine fun hrole => newline_not_mem_lex hfirst hbreak fun mark hmark => hrole ?_
      refine (standing.of_not_structural segment fun _ => ?_).1
      rw [hmark]
      cases mark <;> decide

/-- The names that are put out have no newline. -/
structure Options.Inline (options : Options) : Prop where
  matchTable : '\n' ∉ options.matchTable.toList
  scopeConstructor : '\n' ∉ options.scopeConstructor.toList

theorem Options.Inline.scopeOpen {options : Options} (h : options.Inline) :
    '\n' ∉ options.scopeOpen := by
  unfold Options.scopeOpen
  simp [h.matchTable, h.scopeConstructor]

/-- **One segment.** A framed line stays framed, and gets the newlines of the segment. -/
theorem newlines_write {options : Options} (hoptions : options.Inline) {line : List Char}
    (hline : Framed line) {item : Role × Segment} (hitem : Inline item) :
    Framed (write options line item)
      ∧ (write options line item).count '\n'
        = line.count '\n' + item.2.text.count '\n' := by
  obtain ⟨role, segment⟩ := item
  have hreplaced : role ≠ .copied → '\n' ∉ segment.text := hitem.replaced
  -- what replaces a segment has no newline, and neither has the segment
  have hadd : ∀ new, '\n' ∉ new → '\n' ∉ segment.text → Framed (line ++ new)
      ∧ (line ++ new).count '\n' = line.count '\n' + segment.text.count '\n' := by
    intro new hnew hsegment
    refine ⟨hline.append (.of_not_mem hnew), ?_⟩
    rw [List.count_append, List.count_eq_zero_of_not_mem hnew,
      List.count_eq_zero_of_not_mem hsegment]
  cases role with
  | copied => exact ⟨hline.append hitem.framed, List.count_append⟩
  | openBody => exact hadd _ hoptions.scopeOpen (hreplaced (by decide))
  | closeBody => exact hadd _ (by decide) (hreplaced (by decide))
  | assign =>
      obtain ⟨hframed, hcount⟩ := hline.trim
      have hindent : '\n' ∉ Text.indent line := fun hmem =>
        absurd (List.all_eq_true.mp List.all_takeWhile _ hmem) (by decide)
      have hleft : '\n' ∉ Text.indent line ++ options.matchTable.toList ++ ['['] := by
        simp [hindent, hoptions.matchTable]
      have hright : '\n' ∉ "] =".toList := by decide
      have hwrite : write options line (.assign, segment)
          = Text.indent line ++ options.matchTable.toList ++ ['['] ++ Text.trim line
            ++ "] =".toList := by
        rw [write, Text.trim_body]
      rw [hwrite]
      refine ⟨((Framed.of_not_mem hleft).append hframed).append (.of_not_mem hright), ?_⟩
      rw [List.count_append, List.count_append, List.count_eq_zero_of_not_mem hleft, hcount,
        List.count_eq_zero_of_not_mem hright,
        List.count_eq_zero_of_not_mem (hreplaced (by decide))]
      omega

/-- **All segments.** -/
theorem newlines_writeOn {options : Options} (hoptions : options.Inline)
    {items : List (Role × Segment)}
    (hitems : ∀ item ∈ items, item.2.kind ≠ .lineBreak → Inline item) {line : List Char}
    (hline : Framed line) :
    (writeOn options line items).count '\n'
      = line.count '\n' + (items.flatMap (·.2.text)).count '\n' := by
  induction items generalizing line with
  | nil => rfl
  | cons item items ih =>
      obtain ⟨hfirst, hrest⟩ := List.forall_mem_cons.mp hitems
      rw [writeOn, List.flatMap_cons, List.count_append]
      by_cases hk : item.2.kind = .lineBreak
      · rw [if_pos hk, List.count_append, List.count_append,
          ih hrest (.of_not_mem List.not_mem_nil), List.count_nil]
        omega
      · obtain ⟨hframed, hcount⟩ := newlines_write hoptions hline (hfirst hk)
        rw [if_neg hk, ih hrest hframed, hcount]
        omega

/-! ## Lines -/

/-- The text of a line of the source. -/
def lineIn (line : List (Role × Segment)) : List Char :=
  line.flatMap (·.2.text)

@[simp] theorem lineIn_cons (item : Role × Segment) (line : List (Role × Segment)) :
    lineIn (item :: line) = item.2.text ++ lineIn line := List.flatMap_cons

/-- The lines of the output, cut at the line breaks that come from the source. -/
def Piece.lines (pieces : List Piece) : List (List Char) :=
  (pieces.splitOnP Piece.isLineBreak).map Piece.assemble

/-- The source is cut at its line breaks. -/
theorem intercalate_lineIn {items : List (Role × Segment)}
    (h : ∀ item ∈ items, item.2.kind = .lineBreak → item.2.text = ['\n']) :
    ['\n'].intercalate ((lines items).map lineIn) = items.flatMap (·.2.text) := by
  induction items with
  | nil => rfl
  | cons item items ih =>
      obtain ⟨hfirst, hrest⟩ := List.forall_mem_cons.mp h
      obtain ⟨next, others, hnext⟩ : ∃ next others, lines items = next :: others :=
        List.exists_cons_of_ne_nil (List.splitOnP_ne_nil _ items)
      have hih := ih hrest
      rw [hnext, List.map_cons] at hih
      unfold lines at hnext ⊢
      rw [List.splitOnP_cons_eq_if_modifyHead, hnext, List.flatMap_cons, ← hih]
      by_cases hk : item.2.kind = .lineBreak
      · rw [if_pos (decide_eq_true hk), List.map_cons, List.map_cons,
          List.intercalate_cons_cons, hfirst hk]
        rfl
      · rw [if_neg (by simpa using hk), List.modifyHead_cons, List.map_cons]
        cases others with
        | nil =>
            rw [List.map_nil, List.intercalate_singleton, List.intercalate_singleton, lineIn_cons]
        | cons other others =>
            rw [List.map_cons, List.intercalate_cons_cons, List.intercalate_cons_cons, lineIn_cons]
            simp only [List.append_assoc]

namespace Emitter

/-- The output is its whole lines and the current one. -/
theorem lines_pieces (emitter : Emitter) :
    ∃ closed, Piece.lines emitter.linesBefore.reverse = closed ++ [[]]
      ∧ Piece.lines emitter.pieces.reverse = closed ++ [emitter.line] := by
  have hpieces : emitter.pieces.reverse = emitter.linesBefore.reverse
      ++ (emitter.pieces.takeWhile fun piece => !piece.isLineBreak).reverse := by
    rw [linesBefore, ← List.reverse_append, List.takeWhile_append_dropWhile]
  have hline : ((emitter.pieces.takeWhile fun piece => !piece.isLineBreak).reverse).splitOnP
      Piece.isLineBreak
        = [(emitter.pieces.takeWhile fun piece => !piece.isLineBreak).reverse] := by
    refine List.splitOnP_eq_singleton fun piece hmem => ?_
    have hpiece := List.all_eq_true.mp List.all_takeWhile piece (List.mem_reverse.mp hmem)
    exact Bool.not_eq_true' _ ▸ hpiece
  cases hbefore : emitter.linesBefore with
  | nil =>
      refine ⟨[], rfl, ?_⟩
      rw [Piece.lines, hpieces, hbefore, List.reverse_nil, List.nil_append, hline]
      rfl
  | cons piece before =>
      have hbreak : piece.isLineBreak = true := by
        have hend := List.head?_dropWhile_not (fun piece : Piece => !piece.isLineBreak)
          emitter.pieces
        rw [← linesBefore, hbefore] at hend
        simpa using hend
      refine ⟨Piece.lines before.reverse, ?_, ?_⟩
      · rw [Piece.lines, List.reverse_cons, List.splitOnP_append_cons _ _ hbreak, List.map_append]
        rfl
      · rw [Piece.lines, hpieces, hbefore, List.reverse_cons, List.append_assoc,
          List.singleton_append, List.splitOnP_append_cons _ _ hbreak, hline, List.map_append]
        rfl

/-- A line break ends the current line. -/
theorem Step.lines_break {options : Options} {emitter next : Emitter} {segment : Segment}
    (h : Step options emitter segment next) (hk : segment.kind = .lineBreak)
    {closed : List (List Char)}
    (hclosed : Piece.lines emitter.pieces.reverse = closed ++ [emitter.line]) :
    Piece.lines next.pieces.reverse = closed ++ [emitter.line] ++ [next.line] := by
  have hpieces := h.breaks hk
  rw [(line_of_break hpieces rfl).1, ← hclosed, hpieces, Piece.lines, List.reverse_cons,
    List.splitOnP_append_cons _ _ rfl, List.map_append]
  rfl

/-- Any other segment leaves the lines above the current one as they are. -/
theorem Step.lines_write {options : Options} {emitter next : Emitter} {segment : Segment}
    (h : Step options emitter segment next) (hk : segment.kind ≠ .lineBreak)
    {closed : List (List Char)}
    (hclosed : Piece.lines emitter.pieces.reverse = closed ++ [emitter.line]) :
    Piece.lines next.pieces.reverse = closed ++ [next.line] := by
  obtain ⟨before, hlines, hpieces⟩ := emitter.lines_pieces
  obtain ⟨before', hlines', hpieces'⟩ := next.lines_pieces
  rw [(h.writes hk).2, hlines] at hlines'
  rw [hpieces', ← (List.append_inj' hlines' rfl).1,
    (List.append_inj' (hpieces.symm.trans hclosed) rfl).1]

/-- **A run writes its lines one by one**: the first goes on where the current line is, the others
start from nothing. -/
theorem Accepts.lines {options : Options} {emitter last : Emitter} {segments : List Segment}
    (h : Accepts options emitter segments last) :
    ∀ closed first rest, Piece.lines emitter.pieces.reverse = closed ++ [emitter.line] →
      Keybind.lines (roles emitter.standing segments) = first :: rest →
      Piece.lines last.pieces.reverse
        = closed ++ first.foldl (write options) emitter.line :: rest.map (lineOut options) := by
  induction segments generalizing emitter with
  | nil =>
      intro closed first rest hclosed hlines
      cases hlines
      rw [← accepts_nil h, hclosed]
      rfl
  | cons segment segments ih =>
      intro closed first rest hclosed hlines
      obtain ⟨next, hstep, hrest⟩ := accepts_cons h
      obtain ⟨first', rest', hnext⟩ : ∃ first' rest',
          Keybind.lines (roles next.standing segments) = first' :: rest' :=
        List.exists_cons_of_ne_nil (List.splitOnP_ne_nil _ _)
      have hcut := hnext
      rw [hstep.standing] at hcut
      unfold Keybind.lines at hcut hlines
      rw [roles, List.splitOnP_cons_eq_if_modifyHead, hcut] at hlines
      by_cases hk : segment.kind = .lineBreak
      · -- the current line is whole now
        rw [if_pos (decide_eq_true hk)] at hlines
        cases hlines
        rw [ih hrest _ _ _ (hstep.lines_break hk hclosed) hnext,
          (line_of_break (hstep.breaks hk) rfl).1, List.append_assoc]
        rfl
      · rw [if_neg (by simpa using hk)] at hlines
        cases hlines
        rw [ih hrest _ _ _ (hstep.lines_write hk hclosed) hnext, (hstep.writes hk).1]
        rfl

/-- The lines of a whole run. -/
theorem Accepts.lines_start {options : Options} {last : Emitter} {segments : List Segment}
    (h : Accepts options {} segments last) :
    Piece.lines last.pieces.reverse
      = (Keybind.lines (roles {} segments)).map (lineOut options) := by
  obtain ⟨first, rest, hlines⟩ : ∃ first rest,
      Keybind.lines (roles {} segments) = first :: rest :=
    List.exists_cons_of_ne_nil (List.splitOnP_ne_nil _ _)
  rw [h.lines [] first rest rfl hlines, hlines]
  rfl

end Emitter

/-- What is copied is added to the line. -/
theorem foldl_copied (options : Options) {line : List (Role × Segment)}
    (h : ∀ item ∈ line, item.1 = .copied) (start : List Char) :
    line.foldl (write options) start = start ++ lineIn line := by
  induction line generalizing start with
  | nil => exact (List.append_nil start).symm
  | cons item line ih =>
      obtain ⟨hfirst, hrest⟩ := List.forall_mem_cons.mp h
      have hwrite : write options start item = start ++ item.2.text := by rw [write, hfirst]
      rw [List.foldl_cons, ih hrest, hwrite, lineIn_cons, List.append_assoc]

/-- A line on which everything is copied. -/
theorem lineOut_copied (options : Options) {line : List (Role × Segment)}
    (h : ∀ item ∈ line, item.1 = .copied) : lineOut options line = lineIn line :=
  foldl_copied options h []

/-- **Line numbers are preserved.** Output and source have as many newlines. Cut at its line breaks
the source has as many lines as the output cut at those that are copied to it, and a line with
neither an arrow of the code nor a brace of a match scope is the same in both. -/
theorem lines_preserved {options : Options} (htable : '\n' ∉ options.matchTable.toList)
    (hconstructor : '\n' ∉ options.scopeConstructor.toList) {source out : String}
    (h : transpile options source = .ok out) :
    out.toList.count '\n' = source.toList.count '\n'
      ∧ ∃ pieces, (emit options (lex source.toList)).2 = .ok pieces
        ∧ out.toList = ['\n'].intercalate (Piece.lines pieces)
        ∧ source.toList
          = ['\n'].intercalate ((lines (roles {} (lex source.toList))).map lineIn)
        ∧ (Piece.lines pieces).length = (lines (roles {} (lex source.toList))).length
        ∧ ∀ (k : Nat) line, (lines (roles {} (lex source.toList)))[k]? = some line →
          (∀ item ∈ line, item.1 = .copied) → (Piece.lines pieces)[k]? = some (lineIn line) := by
  obtain ⟨last, hrun, -, hout⟩ := transpile_ok h
  have hwritten : out.toList = writeOn options [] (roles {} (lex source.toList)) := by
    rw [hout, String.toList_ofList, hrun.writes_start]
  have hbreak : ∀ item ∈ roles {} (lex source.toList), item.2.kind = .lineBreak →
      item.2.text = ['\n'] := by
    intro item hitem hkind
    have hmem : item.2 ∈ lex source.toList := by
      rw [← map_snd_roles {} (lex source.toList)]
      exact List.mem_map_of_mem hitem
    have hspells := spells_lex hmem
    rwa [hkind] at hspells
  refine ⟨?_, last.pieces.reverse, ?_, ?_, ?_, ?_, ?_⟩
  · rw [hwritten, newlines_writeOn ⟨htable, hconstructor⟩ (inline_roles (fun _ hs => hs) {})
      (.of_not_mem List.not_mem_nil), text_roles, List.count_nil, Nat.zero_add]
  · exact emit_of_transpile h hrun
  · rw [hwritten, writeOn_nil options hbreak, hrun.lines_start]
  · rw [intercalate_lineIn hbreak, text_roles]
  · rw [hrun.lines_start, List.length_map]
  · intro k line hline hcopied
    rw [hrun.lines_start, List.getElem?_map, hline, Option.map_some, lineOut_copied options hcopied]

/-- A newline within a string that an arrow takes back, and lines of a comment that stay. -/
theorem lines_preserved_string :
    transpile {} "\x22a\\\nb\x22 => c\n--[[ =>\n]] d"
        = .ok "__match[\x22a\\\nb\x22] = c\n--[[ =>\n]] d"
      ∧ "__match[\x22a\\\nb\x22] = c\n--[[ =>\n]] d".toList.count '\n'
        = "\x22a\\\nb\x22 => c\n--[[ =>\n]] d".toList.count '\n'
      ∧ ∃ pieces, (emit {} (lex "\x22a\\\nb\x22 => c\n--[[ =>\n]] d".toList)).2 = .ok pieces
        ∧ (Piece.lines pieces)[1]? = some "--[[ =>".toList := by
  have h : transpile {} "\x22a\\\nb\x22 => c\n--[[ =>\n]] d"
      = .ok "__match[\x22a\\\nb\x22] = c\n--[[ =>\n]] d" := by rfl
  obtain ⟨hcount, pieces, hpieces, -, -, -, hlines⟩ := lines_preserved (by decide) (by decide) h
  exact ⟨h, hcount, pieces, hpieces, hlines 1 _ rfl (by decide)⟩

end Keybind
