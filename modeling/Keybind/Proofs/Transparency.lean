import Keybind.Proofs.Lines
import Mathlib.Data.List.DropRight

/-!
# Comments and long strings in the output

A region is what the emitter does not look into: a long bracket from its
outermost opener to the closer that leads back to code, or a line comment up to
its line break. Every segment of a region is copied, but an arrow on the same
line may still take the copy back and put it into its pattern. What becomes of a
region then depends on where its lines break.

* A region within one line starts and ends with a character that is not white
  space, so neither the indent nor the trimming of a pattern cuts into it.
* No arrow can follow a line comment before its line break.
* A region over several lines keeps all but its last line, since nothing is
  taken back beyond a line break. If an arrow follows on the last line, the
  assignment is put in the middle of the region, behind the indent of that line.

So a region is copied in one part, or in two if it is `exposed` to an arrow. The
parts of all regions stand in the output in the order of the source.
-/

namespace Keybind

/-! ## Texts within a text -/

/-- The texts stand in `out` one behind the other, each in one part. -/
inductive Embeds : List (List Char) → List Char → Prop where
  | nil (out : List Char) : Embeds [] out
  | cons {texts : List (List Char)} {rest : List Char} (gap text : List Char) :
      Embeds texts rest → Embeds (text :: texts) (gap ++ (text ++ rest))

namespace Embeds

variable {texts : List (List Char)} {out : List Char}

theorem prepend (h : Embeds texts out) (before : List Char) : Embeds texts (before ++ out) := by
  cases h with
  | nil => exact .nil _
  | cons gap text hrest =>
      rw [← List.append_assoc]
      exact .cons (before ++ gap) text hrest

theorem append {others : List (List Char)} {rest : List Char} (h : Embeds texts out)
    (h' : Embeds others rest) : Embeds (texts ++ others) (out ++ rest) := by
  induction h with
  | nil out => exact h'.prepend out
  | cons gap text _ ih =>
      rw [List.append_assoc, List.append_assoc]
      exact .cons gap text ih

theorem extend (h : Embeds texts out) (after : List Char) : Embeds texts (out ++ after) := by
  have hall := h.append (.nil after)
  rwa [List.append_nil] at hall

theorem single (text : List Char) : Embeds [text] text := by
  have hall := Embeds.cons [] text (.nil [])
  rwa [List.nil_append, List.append_nil] at hall

/-- One more text at the end. -/
theorem snoc (h : Embeds texts out) (text : List Char) :
    Embeds (texts ++ [text]) (out ++ text) :=
  h.append (single text)

end Embeds

/-- A text that neither starts nor ends with white space. -/
structure Solid (text : List Char) : Prop where
  head : ∃ c cs, text = c :: cs ∧ Text.isBlank c = false
  last : ∃ cs c, text = cs ++ [c] ∧ Text.isBlank c = false

theorem Text.isIndent_eq_false {c : Char} (h : isBlank c = false) : isIndent c = false := by
  by_contra hc
  rw [Bool.not_eq_false, isIndent, Bool.or_eq_true, beq_iff_eq, beq_iff_eq] at hc
  rcases hc with rfl | rfl <;> exact absurd h (by decide)

/-- What is trimmed off the end reaches no further than to a character that stays. -/
theorem Text.trimEnd_append {c : Char} (hc : isBlank c = false) (xs ys : List Char) :
    trimEnd (xs ++ [c] ++ ys) = xs ++ [c] ++ trimEnd ys := by
  unfold trimEnd
  rw [List.reverse_append, List.dropWhile_append]
  split
  · rename_i hnil
    rw [List.isEmpty_iff.mp hnil, List.reverse_append, List.reverse_singleton,
      List.singleton_append, List.dropWhile_cons_of_neg (by rw [hc]; exact Bool.false_ne_true)]
    simp
  · simp

namespace Embeds

variable {texts : List (List Char)} {out : List Char}

/-- Characters dropped at the start are not of the texts. -/
theorem dropWhile {p : Char → Bool} (h : Embeds texts out)
    (htexts : ∀ text ∈ texts, ∃ c cs, text = c :: cs ∧ p c = false) :
    Embeds texts (out.dropWhile p) := by
  cases h with
  | nil => exact .nil _
  | @cons texts rest gap text hrest =>
      obtain ⟨c, cs, rfl, hc⟩ := htexts text List.mem_cons_self
      have hstop : (c :: cs ++ rest).dropWhile p = c :: cs ++ rest :=
        List.dropWhile_cons_of_neg (by rw [hc]; exact Bool.false_ne_true)
      rw [List.dropWhile_append, hstop]
      split
      · exact .cons [] (c :: cs) hrest
      · exact .cons _ (c :: cs) hrest

theorem trimEnd (h : Embeds texts out) (htexts : ∀ text ∈ texts, Solid text) :
    Embeds texts (Text.trimEnd out) := by
  induction h with
  | nil => exact .nil _
  | @cons texts rest gap text _ ih =>
      obtain ⟨hfirst, hothers⟩ := List.forall_mem_cons.mp htexts
      obtain ⟨cs, c, rfl, hc⟩ := hfirst.last
      have htrim : Text.trimEnd (gap ++ (cs ++ [c] ++ rest))
          = gap ++ (cs ++ [c] ++ Text.trimEnd rest) := by
        have hcut := Text.trimEnd_append hc (gap ++ cs) rest
        simpa only [List.append_assoc] using hcut
      rw [htrim]
      exact .cons gap (cs ++ [c]) (ih hothers)

/-- **A pattern keeps what is solid.** -/
theorem pattern (h : Embeds texts out) (htexts : ∀ text ∈ texts, Solid text) :
    Embeds texts (Text.trim (Text.body out)) := by
  have hbody : Embeds texts (Text.body out) := by
    refine h.dropWhile fun text hmem => ?_
    obtain ⟨c, cs, heq, hc⟩ := (htexts text hmem).head
    exact ⟨c, cs, heq, Text.isIndent_eq_false hc⟩
  exact (hbody.dropWhile fun text hmem => (htexts text hmem).head).trimEnd htexts

end Embeds

/-! ## Regions -/

/-- A stretch of segments outside code, and the segments that follow it. -/
structure Region where
  segments : List Segment
  after : List Segment
  deriving DecidableEq, Repr

/-- The rest of the region that the context is in, and the regions after it. The line break after a
line comment does not belong to it. A long bracket that is never closed reaches to the end. -/
def regionsFrom (context : Context) : List Segment → List Segment × List Region
  | [] => ([], [])
  | segment :: segments =>
    let (inside, regions) := regionsFrom (context.advance segment).1 segments
    match context, segment.kind with
    | .code, .lineComment | .code, .longOpen _ =>
      ([], ⟨segment :: inside, segments.drop inside.length⟩ :: regions)
    | .code, _ | .lineComment, .lineBreak => ([], regions)
    | _, _ => (segment :: inside, regions)

/-- The long brackets and line comments of a script, in order. -/
def regions (segments : List Segment) : List Region :=
  (regionsFrom .code segments).2

/-- Whether an arrow in code comes before the next line break. -/
def arrowAhead (context : Context) : List Segment → Bool
  | [] => false
  | segment :: segments =>
    segment.kind ≠ .lineBreak
      && (context = .code && segment.kind = .arrow
        || arrowAhead (context.advance segment).1 segments)

namespace Region

/-- What the region says. -/
def text (region : Region) : List Char :=
  region.segments.flatMap (·.text)

/-- Whether the region breaks lines and an arrow follows on its last line. -/
def exposed (region : Region) : Bool :=
  region.segments.any (·.kind = .lineBreak) && arrowAhead .code region.after

/-- The lines of the region but for the last one. -/
def upper (region : Region) : List Char :=
  (region.segments.rdropWhile (·.kind ≠ .lineBreak)).flatMap (·.text)

/-- The last line of the region. -/
def lower (region : Region) : List Char :=
  (region.segments.rtakeWhile (·.kind ≠ .lineBreak)).flatMap (·.text)

/-- The parts in which the region is copied. -/
def parts (region : Region) : List (List Char) :=
  if region.exposed then [region.upper, Text.trimStart region.lower] else [region.text]

theorem upper_append_lower (region : Region) : region.upper ++ region.lower = region.text := by
  rw [upper, lower, text, ← List.flatMap_append, List.rdropWhile_append_rtakeWhile]

/-- A region within one line is one part. -/
theorem parts_of_line {segments after : List Segment}
    (h : ∀ segment ∈ segments, segment.kind ≠ .lineBreak) :
    (Region.mk segments after).parts = [segments.flatMap (·.text)] := by
  have hany : segments.any (·.kind = .lineBreak) = false := by
    rw [List.any_eq_false]
    exact fun segment hmem => by simpa using h segment hmem
  rw [parts, exposed, hany]
  rfl

/-- The upper lines of a region end with a line break. -/
theorem exists_break (region : Region)
    (h : ∃ segment ∈ region.segments, segment.kind = .lineBreak) :
    ∃ upper lineBreak, region.segments.rdropWhile (·.kind ≠ .lineBreak) = upper ++ [lineBreak]
      ∧ lineBreak.kind = .lineBreak := by
  obtain ⟨segment, hmem, hkind⟩ := h
  have hne : region.segments.rdropWhile (·.kind ≠ .lineBreak) ≠ [] := by
    intro hnil
    have hall := List.rdropWhile_eq_nil_iff.mp hnil segment hmem
    exact of_decide_eq_true hall hkind
  refine ⟨_, _, (List.dropLast_append_getLast hne).symm, ?_⟩
  have hlast := List.rdropWhile_last_not _ _ hne
  simpa using hlast

end Region

/-! ## Leaving a region -/

/-- Segments that are all copied. -/
def copies (segments : List Segment) : List (Role × Segment) :=
  segments.map fun segment => (.copied, segment)

theorem inside_code (segments : List Segment) : (regionsFrom .code segments).1 = [] := by
  cases segments with
  | nil => rfl
  | cons segment segments =>
      rw [regionsFrom]
      cases segment.kind <;> rfl

/-- Outside code a segment is copied. -/
theorem roles_outside {standing : Standing} (h : standing.context ≠ .code) (segment : Segment)
    (segments : List Segment) :
    roles standing (segment :: segments)
      = (.copied, segment) :: roles (standing.after segment) segments := by
  have hcopied := standing.of_not_structural segment fun hcode => absurd hcode h
  rw [roles, hcopied.1]

/-- Code goes on unless a comment or a long bracket starts. -/
theorem Context.advance_code {segment : Segment} (hcomment : segment.kind ≠ .lineComment)
    (hopen : ∀ bracket, segment.kind ≠ .longOpen bracket) :
    (Context.code.advance segment).1 = .code := by
  have hmoves := Context.code.moves segment
  generalize (Context.code.advance segment).1 = next,
    (Context.code.advance segment).2 = fault at hmoves ⊢
  cases hmoves with
  | comment hk => exact absurd hk hcomment
  | opener hk => exact absurd hk (hopen _)
  | stray => rfl
  | other => rfl

/-- A line comment goes on up to the end of its line. -/
theorem Context.advance_comment {segment : Segment} (h : segment.kind ≠ .lineBreak) :
    (Context.lineComment.advance segment).1 = .lineComment :=
  Moves.next_eq (.other h)

/-- A segment that leads out of code is copied. -/
theorem role_of_leaving {standing : Standing} {segment : Segment}
    (h : segment.kind = .lineComment ∨ ∃ bracket, segment.kind = .longOpen bracket) :
    standing.role segment = .copied := by
  refine (standing.of_not_structural segment fun _ => ?_).1
  rcases h with hk | ⟨bracket, hk⟩ <;> simp [Emitter.IsStructural, hk]

/-- A long bracket goes on, or a closer leads back to code. -/
theorem advance_longBracket (openers : List Opener) (segment : Segment) :
    (∃ openers', ((Context.longBracket openers).advance segment).1 = .longBracket openers')
      ∨ ((Context.longBracket openers).advance segment).1 = .code
        ∧ ∃ found, segment.kind = .longClose found := by
  have hmoves := (Context.longBracket openers).moves segment
  generalize ((Context.longBracket openers).advance segment).1 = next,
    ((Context.longBracket openers).advance segment).2 = fault at hmoves ⊢
  cases hmoves with
  | nested => exact .inl ⟨_, rfl⟩
  | @closer _ outer found hk =>
      cases outer with
      | nil => exact .inr ⟨rfl, found, hk⟩
      | cons opener outer => exact .inl ⟨_, rfl⟩
  | unfit => exact .inl ⟨_, rfl⟩
  | other => exact .inl ⟨_, rfl⟩

theorem regionsFrom_lineBreak {segment : Segment} (h : segment.kind = .lineBreak)
    (segments : List Segment) :
    regionsFrom .lineComment (segment :: segments) = ([], regions segments) := by
  rw [regionsFrom, (Context.Moves.newline h).next_eq, h]
  rfl

theorem regionsFrom_comment {segment : Segment} (h : segment.kind ≠ .lineBreak)
    (segments : List Segment) :
    regionsFrom .lineComment (segment :: segments)
      = (segment :: (regionsFrom .lineComment segments).1,
        (regionsFrom .lineComment segments).2) := by
  rw [regionsFrom, Context.advance_comment h]
  cases hk : segment.kind with
  | lineBreak => exact absurd hk h
  | _ => rfl

/-- What stands before the end of the line is copied; there the comment is left, and the line
break belongs to the code after it. -/
theorem leave_comment (segments : List Segment) :
    ∀ standing : Standing, standing.context = .lineComment →
      ∃ after next,
        segments = (regionsFrom .lineComment segments).1 ++ after
        ∧ roles standing segments
          = copies (regionsFrom .lineComment segments).1 ++ roles next after
        ∧ (∀ segment ∈ (regionsFrom .lineComment segments).1, segment.kind ≠ .lineBreak)
        ∧ (after = [] ∧ (regionsFrom .lineComment segments).2 = []
          ∨ ∃ lineBreak rest, after = lineBreak :: rest ∧ lineBreak.kind = .lineBreak
            ∧ next.context = .lineComment
            ∧ (regionsFrom .lineComment segments).2 = regions rest) := by
  induction segments with
  | nil =>
      intro standing _
      exact ⟨[], standing, rfl, rfl, fun _ h => absurd h List.not_mem_nil, .inl ⟨rfl, rfl⟩⟩
  | cons segment segments ih =>
      intro standing hcontext
      by_cases hk : segment.kind = .lineBreak
      · rw [regionsFrom_lineBreak hk]
        exact ⟨segment :: segments, standing, rfl, rfl, fun _ h => absurd h List.not_mem_nil,
          .inr ⟨segment, segments, rfl, hk, hcontext, rfl⟩⟩
      · have hnext : (standing.after segment).context = .lineComment := by
          rw [Standing.after, hcontext, Context.advance_comment hk]
        obtain ⟨after, next, hsplit, hroles, hbreak, hend⟩ := ih _ hnext
        rw [regionsFrom_comment hk]
        refine ⟨after, next, ?_, ?_, List.forall_mem_cons.mpr ⟨hk, hbreak⟩, hend⟩
        · rw [List.cons_append, ← hsplit]
        · rw [roles_outside (by rw [hcontext]; exact Context.noConfusion), hroles]
          rfl

/-- The last of the segments closes a long bracket. -/
def EndsWithCloser (segments : List Segment) : Prop :=
  ∃ before closer found, segments = before ++ [closer] ∧ closer.kind = .longClose found

theorem EndsWithCloser.cons {segments : List Segment} (h : EndsWithCloser segments)
    (segment : Segment) : EndsWithCloser (segment :: segments) := by
  obtain ⟨before, closer, found, rfl, hkind⟩ := h
  exact ⟨segment :: before, closer, found, rfl, hkind⟩

/-- A long bracket is copied to its closer, and there is code after it unless the script ends
inside. -/
theorem leave_bracket (segments : List Segment) :
    ∀ (openers : List Opener) (standing : Standing), standing.context = .longBracket openers →
      ∃ after next,
        segments = (regionsFrom (.longBracket openers) segments).1 ++ after
        ∧ roles standing segments
          = copies (regionsFrom (.longBracket openers) segments).1 ++ roles next after
        ∧ (regionsFrom (.longBracket openers) segments).2 = regions after
        ∧ (after = [] ∨ next.context = .code
          ∧ EndsWithCloser (regionsFrom (.longBracket openers) segments).1) := by
  induction segments with
  | nil =>
      intro openers standing _
      exact ⟨[], standing, rfl, rfl, rfl, .inl rfl⟩
  | cons segment segments ih =>
      intro openers standing hcontext
      have hfrom : regionsFrom (.longBracket openers) (segment :: segments)
          = (segment :: (regionsFrom ((Context.longBracket openers).advance segment).1 segments).1,
            (regionsFrom ((Context.longBracket openers).advance segment).1 segments).2) := by
        rw [regionsFrom]
      have hnext : (standing.after segment).context
          = ((Context.longBracket openers).advance segment).1 := by
        rw [Standing.after, hcontext]
      rw [hfrom, roles_outside (by rw [hcontext]; exact Context.noConfusion)]
      -- the stack of openers may grow and shrink: the induction is over all of them
      rcases advance_longBracket openers segment with ⟨openers', hadvance⟩ | ⟨hadvance, hclose⟩
      · rw [hadvance] at hnext ⊢
        obtain ⟨after, next, hsplit, hroles, hlater, hend⟩ := ih openers' _ hnext
        refine ⟨after, next, ?_, ?_, hlater, ?_⟩
        · rw [List.cons_append, ← hsplit]
        · rw [hroles]
          rfl
        · exact hend.imp id fun hends => ⟨hends.1, hends.2.cons segment⟩
      · obtain ⟨found, hkind⟩ := hclose
        rw [hadvance] at hnext ⊢
        rw [inside_code]
        exact ⟨segments, standing.after segment, rfl, rfl, rfl,
          .inr ⟨hnext, [], segment, found, rfl, hkind⟩⟩

/-! ## Writing a region -/

theorem writeOn_copies (options : Options) {segments : List Segment}
    (h : ∀ segment ∈ segments, segment.kind ≠ .lineBreak) (line : List Char)
    (rest : List (Role × Segment)) :
    writeOn options line (copies segments ++ rest)
      = writeOn options (line ++ segments.flatMap (·.text)) rest := by
  induction segments generalizing line with
  | nil => rw [List.flatMap_nil, List.append_nil]; rfl
  | cons segment segments ih =>
      obtain ⟨hfirst, hothers⟩ := List.forall_mem_cons.mp h
      rw [copies, List.map_cons, List.cons_append, writeOn, if_neg hfirst, ← copies, ih hothers,
        List.flatMap_cons, write, List.append_assoc]

/-- Nothing up to a line break is written again. -/
theorem writeOn_copies_break (options : Options) (segments : List Segment) {lineBreak : Segment}
    (hbreak : lineBreak.kind = .lineBreak) (line : List Char) (rest : List (Role × Segment)) :
    writeOn options line (copies (segments ++ [lineBreak]) ++ rest)
      = line ++ (segments ++ [lineBreak]).flatMap (·.text) ++ writeOn options [] rest := by
  induction segments generalizing line with
  | nil =>
      rw [List.nil_append, copies, List.map_singleton, List.singleton_append, writeOn,
        if_pos hbreak, List.flatMap_singleton]
  | cons segment segments ih =>
      rw [List.cons_append, copies, List.map_cons, List.cons_append, writeOn, ← copies, ih, ih,
        List.flatMap_cons, write]
      split <;> simp only [List.append_assoc, List.nil_append]

/-- A region over several lines is written up to its last line, which stays open. -/
theorem Region.writeOn_lines (options : Options) (region : Region)
    (h : ∃ s ∈ region.segments, s.kind = .lineBreak) (line : List Char)
    (rest : List (Role × Segment)) :
    writeOn options line (copies region.segments ++ rest)
      = line ++ region.upper ++ writeOn options region.lower rest := by
  obtain ⟨upper, lineBreak, hupper, hbreak⟩ := region.exists_break h
  have hcut : copies region.segments = copies (upper ++ [lineBreak])
      ++ copies (region.segments.rtakeWhile (·.kind ≠ .lineBreak)) := by
    rw [copies, copies, copies, ← List.map_append, ← hupper, List.rdropWhile_append_rtakeWhile]
  have hlower : ∀ s ∈ region.segments.rtakeWhile (·.kind ≠ .lineBreak), s.kind ≠ .lineBreak := by
    intro s hs
    have hp := List.mem_rtakeWhile_imp hs
    exact of_decide_eq_true hp
  rw [hcut, List.append_assoc, writeOn_copies_break options upper hbreak,
    writeOn_copies options hlower, List.nil_append, ← hupper]
  rfl

/-- A line without an arrow ahead is only added to. -/
theorem writeOn_of_not_arrowAhead (options : Options) {segments : List Segment} :
    ∀ standing : Standing, arrowAhead standing.context segments = false → ∀ line more : List Char,
      writeOn options (line ++ more) (roles standing segments)
        = line ++ writeOn options more (roles standing segments) := by
  induction segments with
  | nil => intro standing _ line more; rfl
  | cons segment segments ih =>
      intro standing harrow line more
      rw [roles, writeOn, writeOn]
      by_cases hk : segment.kind = .lineBreak
      · rw [if_pos hk, if_pos hk]
        simp only [List.append_assoc]
      rw [if_neg hk, if_neg hk]
      rw [arrowAhead] at harrow
      simp only [hk, ne_eq, not_false_eq_true, decide_true, Bool.true_and, Bool.or_eq_false_iff,
        Bool.and_eq_false_iff, decide_eq_false_iff_not] at harrow
      have hrole : standing.role segment ≠ .assign := by
        intro hassign
        unfold Standing.role at hassign
        split at hassign
        · rename_i hcontext harrow'
          exact harrow.1.elim (· hcontext) (· harrow')
        · split at hassign <;> cases hassign
        · split at hassign <;> cases hassign
        · cases hassign
      have hwrite : ∀ text, write options (line ++ text) (standing.role segment, segment)
          = line ++ write options text (standing.role segment, segment) := by
        intro text
        unfold write
        cases hr : standing.role segment with
        | assign => exact absurd hr hrole
        | _ => exact List.append_assoc ..
      rw [hwrite]
      exact ih _ harrow.2 line _

/-! ## Where regions start and end -/

theorem LongBracket.opener_head (bracket : LongBracket) :
    ∃ c cs, bracket.opener.toList = c :: cs ∧ Text.isBlank c = false := by
  unfold opener spell
  rw [String.toList_ofList]
  cases bracket.comment with
  | true => exact ⟨_, _, rfl, by decide⟩
  | false => exact ⟨_, _, rfl, by decide⟩

theorem LongBracket.closer_last (bracket : LongBracket) :
    ∃ cs c, bracket.closer.toList = cs ++ [c] ∧ Text.isBlank c = false := by
  unfold closer spell
  rw [String.toList_ofList]
  exact ⟨_, _, rfl, by decide⟩

/-- The text of segments that end with a closer. -/
theorem EndsWithCloser.last {segments : List Segment} (h : EndsWithCloser segments)
    (hspells : ∀ s ∈ segments, s.kind.Spells s.text) :
    ∃ cs c, segments.flatMap (·.text) = cs ++ [c] ∧ Text.isBlank c = false := by
  obtain ⟨before, closer, found, rfl, hkind⟩ := h
  have hcloser := hspells closer (List.mem_append_right before List.mem_cons_self)
  rw [hkind] at hcloser
  obtain ⟨cs, c, hcs, hc⟩ := found.closer_last
  refine ⟨before.flatMap (·.text) ++ cs, c, ?_, hc⟩
  rw [List.flatMap_append, List.flatMap_singleton, hcloser, hcs, List.append_assoc]

theorem solid_of_closer {opener : Segment} {inside : List Segment} {bracket : LongBracket}
    (hopener : opener.kind = .longOpen bracket) (hcloser : EndsWithCloser inside)
    (hspells : ∀ s ∈ opener :: inside, s.kind.Spells s.text) :
    Solid ((opener :: inside).flatMap (·.text)) := by
  refine ⟨?_, (hcloser.cons opener).last hspells⟩
  have hopening := hspells opener List.mem_cons_self
  rw [hopener] at hopening
  obtain ⟨c, cs, hcs, hc⟩ := bracket.opener_head
  refine ⟨c, cs ++ inside.flatMap (·.text), ?_, hc⟩
  rw [List.flatMap_cons, hopening, hcs, List.cons_append]

/-- The last line of a region ends with its closer. -/
theorem EndsWithCloser.lower {segments : List Segment} (h : EndsWithCloser segments) :
    EndsWithCloser (segments.rtakeWhile (·.kind ≠ .lineBreak)) := by
  obtain ⟨before, closer, found, rfl, hkind⟩ := h
  have hcloser : decide (closer.kind ≠ .lineBreak) = true :=
    decide_eq_true (by rw [hkind]; exact SegmentKind.noConfusion)
  refine ⟨before.rtakeWhile (·.kind ≠ .lineBreak), closer, found, ?_, hkind⟩
  exact List.rtakeWhile_concat_pos _ _ _ hcloser

/-- A text that ends with no white space is solid once it is trimmed at its start. -/
theorem solid_trimStart {text : List Char}
    (h : ∃ cs c, text = cs ++ [c] ∧ Text.isBlank c = false) : Solid (Text.trimStart text) := by
  obtain ⟨cs, c, rfl, hc⟩ := h
  have hlast : ∃ ds, Text.trimStart (cs ++ [c]) = ds ++ [c] := by
    unfold Text.trimStart
    rw [List.dropWhile_append]
    split
    · exact ⟨[], List.dropWhile_cons_of_neg (by rw [hc]; exact Bool.false_ne_true)⟩
    · exact ⟨_, rfl⟩
  obtain ⟨ds, hds⟩ := hlast
  refine ⟨?_, ds, c, hds, hc⟩
  cases htrim : Text.trimStart (cs ++ [c]) with
  | nil => rw [htrim] at hds; exact absurd hds (by simp)
  | cons d ds =>
      have hd := List.head?_dropWhile_not Text.isBlank (cs ++ [c])
      unfold Text.trimStart at htrim
      rw [htrim] at hd
      exact ⟨d, ds, rfl, by simpa using hd⟩

theorem embeds_trimStart (text : List Char) : Embeds [Text.trimStart text] text := by
  have hall := Embeds.cons (text.takeWhile Text.isBlank) (text.dropWhile Text.isBlank) (.nil [])
  rwa [List.append_nil, List.takeWhile_append_dropWhile] at hall

/-! ## Every region is kept -/

/-- The texts held on the line, and the parts of all regions to come, are in what is written. -/
def Kept (options : Options) (segments : List Segment) : Prop :=
  ∀ (standing : Standing) (held : List (List Char)) (line : List Char), standing.context = .code →
    (∀ text ∈ held, Solid text) → Embeds held line →
    Embeds (held ++ (regions segments).flatMap Region.parts)
      (writeOn options line (roles standing segments))

theorem kept_nil (options : Options) : Kept options [] := by
  intro standing held line _ _ hheld
  rw [regions, regionsFrom, List.flatMap_nil, List.append_nil]
  exact hheld

/-- A region within one line stays in one part on the line. -/
theorem kept_line {options : Options} {opener : Segment} {inside after : List Segment}
    {bracket : LongBracket} {next : Standing} {held : List (List Char)} {line : List Char}
    (hopener : opener.kind = .longOpen bracket)
    (hspells : ∀ s ∈ opener :: inside, s.kind.Spells s.text)
    (hline : ∀ s ∈ opener :: inside, s.kind ≠ .lineBreak)
    (hend : after = [] ∨ next.context = .code ∧ EndsWithCloser inside)
    (hsolid : ∀ text ∈ held, Solid text) (hheld : Embeds held line) (ih : Kept options after) :
    Embeds (held ++ ((Region.mk (opener :: inside) after).parts
        ++ (regions after).flatMap Region.parts))
      (writeOn options line (copies (opener :: inside) ++ roles next after)) := by
  have hcopied := hheld.snoc ((opener :: inside).flatMap (·.text))
  rw [Region.parts_of_line hline, writeOn_copies options hline, ← List.append_assoc]
  rcases hend with rfl | ⟨hcode, hcloser⟩
  · rw [regions, regionsFrom, List.flatMap_nil, List.append_nil]
    exact hcopied
  · refine ih next _ _ hcode (fun text hmem => ?_) hcopied
    rcases List.mem_append.mp hmem with hmem | hmem
    · exact hsolid text hmem
    · rw [List.mem_singleton.mp hmem]
      exact solid_of_closer hopener hcloser hspells

/-- Where an arrow follows, the last line of a region that its closer ends may be taken back: it
is kept from its first character that is not white space. -/
theorem kept_lower {options : Options} {region : Region} {next : Standing}
    (hspells : ∀ s ∈ region.segments, s.kind.Spells s.text)
    (hcode : next.context = .code) (hcloser : EndsWithCloser region.segments)
    (ih : Kept options region.after) :
    Embeds (Text.trimStart region.lower :: (regions region.after).flatMap Region.parts)
      (writeOn options region.lower (roles next region.after)) := by
  have hsolid : Solid (Text.trimStart region.lower) :=
    solid_trimStart (hcloser.lower.last fun s hs =>
      hspells s ((List.rtakeWhile_suffix _ _).subset hs))
  exact ih next [Text.trimStart region.lower] region.lower hcode (by simpa using hsolid)
    (embeds_trimStart region.lower)

/-- Where no arrow follows, what is on the line stays, and the regions that come are kept in what
is written after it. -/
theorem kept_after {options : Options} {after : List Segment} {next : Standing}
    (hcode : after = [] ∨ next.context = .code) (harrow : arrowAhead .code after = false)
    (ih : Kept options after) (line : List Char) :
    writeOn options line (roles next after) = line ++ writeOn options [] (roles next after)
      ∧ Embeds ((regions after).flatMap Region.parts) (writeOn options [] (roles next after)) := by
  rcases hcode with rfl | hcode
  · refine ⟨?_, .nil _⟩
    rw [roles, writeOn, writeOn, List.append_nil]
  · refine ⟨?_, ih next [] [] hcode (fun _ h => absurd h List.not_mem_nil) (.nil [])⟩
    have hadd := writeOn_of_not_arrowAhead options next (hcode ▸ harrow) line []
    rwa [List.append_nil] at hadd

/-- A region over several lines keeps all but its last line, and that one too unless an arrow
follows. -/
theorem kept_lines {options : Options} (region : Region) {next : Standing}
    {held : List (List Char)} {line : List Char}
    (hspells : ∀ s ∈ region.segments, s.kind.Spells s.text)
    (hlines : ∃ s ∈ region.segments, s.kind = .lineBreak)
    (hend : region.after = [] ∨ next.context = .code ∧ EndsWithCloser region.segments)
    (hheld : Embeds held line) (ih : Kept options region.after) :
    Embeds (held ++ (region.parts ++ (regions region.after).flatMap Region.parts))
      (writeOn options line (copies region.segments ++ roles next region.after)) := by
  rw [region.writeOn_lines options hlines]
  cases hexposed : region.exposed with
  | true =>
      have harrow : arrowAhead .code region.after = true := (Bool.and_eq_true_iff.mp hexposed).2
      -- an arrow follows, so the script does not end inside the region
      rcases hend with hnil | ⟨hcode, hcloser⟩
      · rw [hnil] at harrow
        cases harrow
      have hall := (hheld.snoc region.upper).append (kept_lower hspells hcode hcloser ih)
      rw [Region.parts, if_pos hexposed]
      simpa only [List.append_assoc, List.cons_append, List.nil_append] using hall
  | false =>
      have harrow : arrowAhead .code region.after = false := by
        have hany : region.segments.any (·.kind = .lineBreak) = true := by
          obtain ⟨s, hmem, hkind⟩ := hlines
          exact List.any_eq_true.mpr ⟨s, hmem, decide_eq_true hkind⟩
        rw [Region.exposed, hany, Bool.true_and] at hexposed
        exact hexposed
      obtain ⟨hlower, hrest⟩ :=
        kept_after (hend.imp id And.left) harrow ih region.lower
      -- nothing is taken back any more, and the last line joins the lines above it
      have hall := (hheld.snoc region.text).append hrest
      rw [Region.parts, if_neg (by rw [hexposed]; exact Bool.false_ne_true), hlower]
      rw [← region.upper_append_lower] at hall ⊢
      simpa only [List.append_assoc] using hall

/-- **A long bracket is kept.** -/
theorem kept_bracket {options : Options} {segment : Segment} {segments : List Segment}
    {bracket : LongBracket} (hkind : segment.kind = .longOpen bracket)
    (hspells : ∀ s ∈ segment :: segments, s.kind.Spells s.text)
    (ih : ∀ n, Kept options (segments.drop n)) : Kept options (segment :: segments) := by
  intro standing held line hcode hsolid hheld
  have hadvance := (Context.Moves.opener hkind).next_eq
  have hnext : (standing.after segment).context = .longBracket [⟨bracket, segment.span.start⟩] := by
    rw [Standing.after, hcode, hadvance]
  obtain ⟨after, next, hsplit, hroles, hlater, hend⟩ := leave_bracket segments _ _ hnext
  generalize hinside : (regionsFrom (.longBracket [⟨bracket, segment.span.start⟩]) segments).1
    = inside at hsplit hroles hend
  have hafter : segments.drop inside.length = after := by rw [hsplit, List.drop_left]
  have hregions : regions (segment :: segments)
      = ⟨segment :: inside, after⟩ :: regions after := by
    rw [regions, regionsFrom, hadvance, hkind]
    dsimp only
    rw [hinside, hafter, hlater]
  have hspells' : ∀ s ∈ segment :: inside, s.kind.Spells s.text := by
    intro s hs
    refine hspells s ?_
    rw [hsplit, ← List.cons_append]
    exact List.mem_append_left after hs
  rw [hregions, List.flatMap_cons, roles, role_of_leaving (.inr ⟨bracket, hkind⟩), hroles]
  by_cases hlines : ∃ s ∈ segment :: inside, s.kind = .lineBreak
  · exact kept_lines ⟨segment :: inside, after⟩ hspells' hlines
      (hend.imp id fun h => ⟨h.1, h.2.cons segment⟩) hheld (hafter ▸ ih _)
  · have hline : ∀ s ∈ segment :: inside, s.kind ≠ .lineBreak :=
      fun s hs hk => hlines ⟨s, hs, hk⟩
    exact kept_line hkind hspells' hline hend hsolid hheld (hafter ▸ ih _)

/-- **A line comment is kept.** -/
theorem kept_comment {options : Options} {segment : Segment} {segments : List Segment}
    (hkind : segment.kind = .lineComment) (ih : ∀ n, Kept options (segments.drop n)) :
    Kept options (segment :: segments) := by
  intro standing held line hcode _ hheld
  have hadvance := (Context.Moves.comment hkind).next_eq
  have hnext : (standing.after segment).context = .lineComment := by
    rw [Standing.after, hcode, hadvance]
  obtain ⟨after, next, hsplit, hroles, hbreak, hend⟩ := leave_comment segments _ hnext
  generalize hinside : (regionsFrom .lineComment segments).1 = inside at hsplit hroles hbreak
  have hregions : regions (segment :: segments)
      = ⟨segment :: inside, after⟩ :: (regionsFrom .lineComment segments).2 := by
    rw [regions, regionsFrom, hadvance, hkind]
    dsimp only
    rw [hinside, hsplit, List.drop_left]
  have hline : ∀ s ∈ segment :: inside, s.kind ≠ .lineBreak :=
    List.forall_mem_cons.mpr ⟨by rw [hkind]; exact SegmentKind.noConfusion, hbreak⟩
  have hcopied := hheld.snoc ((segment :: inside).flatMap (·.text))
  have hwrite : writeOn options line ((.copied, segment) :: (copies inside ++ roles next after))
      = writeOn options (line ++ (segment :: inside).flatMap (·.text)) (roles next after) :=
    writeOn_copies options hline line _
  rw [hregions, List.flatMap_cons, Region.parts_of_line hline, roles,
    role_of_leaving (.inl hkind), hroles, hwrite, ← List.append_assoc]
  rcases hend with ⟨rfl, hlater⟩ | ⟨lineBreak, rest, rfl, hk, hcomment, hlater⟩
  · rw [hlater, List.flatMap_nil, List.append_nil]
    exact hcopied
  · -- the comment ends with its line, and the next line starts in code
    have hrest : rest = segments.drop (inside.length + 1) := by
      rw [hsplit, ← List.drop_drop, List.drop_left]
      rfl
    have hcode' : (next.after lineBreak).context = .code := by
      rw [Standing.after, hcomment, (Context.Moves.newline hk).next_eq]
    rw [hlater, roles, writeOn, if_pos hk, hrest]
    refine (hcopied.extend lineBreak.text).append ?_
    exact ih _ _ [] [] hcode' (fun _ h => absurd h List.not_mem_nil) (.nil [])

/-- **A segment of the code cuts into no region.** -/
theorem kept_code {options : Options} {segment : Segment} {segments : List Segment}
    (hcomment : segment.kind ≠ .lineComment) (hopen : ∀ bracket, segment.kind ≠ .longOpen bracket)
    (ih : Kept options segments) : Kept options (segment :: segments) := by
  intro standing held line hcode hsolid hheld
  have hadvance := Context.advance_code hcomment hopen
  have hnext : (standing.after segment).context = .code := by
    rw [Standing.after, hcode, hadvance]
  have hregions : regions (segment :: segments) = regions segments := by
    rw [regions, regionsFrom, hadvance]
    cases hk : segment.kind with
    | lineComment => exact absurd hk hcomment
    | longOpen bracket => exact absurd hk (hopen bracket)
    | _ => rfl
  rw [hregions, roles, writeOn]
  split
  · exact (hheld.extend segment.text).append
      (ih _ [] [] hnext (fun _ h => absurd h List.not_mem_nil) (.nil []))
  · refine ih _ held _ hnext hsolid ?_
    unfold write
    cases standing.role segment with
    | assign => exact ((hheld.pattern hsolid).prepend _).extend _
    | openBody => exact hheld.extend _
    | closeBody => exact hheld.extend _
    | copied => exact hheld.extend _

/-- **Every region is kept.** -/
theorem kept_all (options : Options) (segments : List Segment) :
    (∀ s ∈ segments, s.kind.Spells s.text) → Kept options segments := by
  induction segments using dropInduction with
  | nil => exact fun _ => kept_nil options
  | cons segment segments ih =>
      intro hspells
      have ih' : ∀ n, Kept options (segments.drop n) :=
        fun n => ih n fun s hs => hspells s (List.mem_cons_of_mem _ (List.mem_of_mem_drop hs))
      by_cases hcomment : segment.kind = .lineComment
      · exact kept_comment hcomment ih'
      by_cases hopen : ∃ bracket, segment.kind = .longOpen bracket
      · obtain ⟨bracket, hkind⟩ := hopen
        exact kept_bracket hkind hspells ih'
      · exact kept_code hcomment (fun bracket hk => hopen ⟨bracket, hk⟩) (ih' 0)

/-- **Comments and long strings are copied in the order of the source.** A region is one part of
the output, unless it breaks lines and an arrow follows on its last line; then it is two. -/
theorem regions_embed {options : Options} {source out : String}
    (h : transpile options source = .ok out) :
    Embeds ((regions (lex source.toList)).flatMap Region.parts) out.toList := by
  obtain ⟨last, hrun, -, hout⟩ := transpile_ok h
  have hkept := kept_all options (lex source.toList) (fun _ => spells_lex) {} [] [] rfl
    (fun _ h => absurd h List.not_mem_nil) (.nil [])
  rw [List.nil_append] at hkept
  rw [hout, String.toList_ofList, hrun.writes_start]
  exact hkept

/-- A comment and a bracket within a line are one part each, a bracket exposed to an arrow is
two. -/
theorem regions_embed_exposed :
    transpile {} "[=[a]=] => b\n[[c\n d]] e => f -- g"
        = .ok "__match[[=[a]=]] = b\n[[c\n __match[d]] e] = f -- g"
      ∧ Embeds ["[=[a]=]".toList, "[[c\n".toList, "d]]".toList, "-- g".toList]
        "__match[[=[a]=]] = b\n[[c\n __match[d]] e] = f -- g".toList := by
  have h : transpile {} "[=[a]=] => b\n[[c\n d]] e => f -- g"
      = .ok "__match[[=[a]=]] = b\n[[c\n __match[d]] e] = f -- g" := by rfl
  have hparts : (regions (lex "[=[a]=] => b\n[[c\n d]] e => f -- g".toList)).flatMap Region.parts
      = ["[=[a]=]".toList, "[[c\n".toList, "d]]".toList, "-- g".toList] := by rfl
  have hembeds := regions_embed h
  rw [hparts] at hembeds
  exact ⟨h, hembeds⟩

/-- An arrow behind a long string writes into the string: it is in the source, but no longer in one
part in the output. -/
theorem arrow_splits_region :
    transpile {} "[[a\nb]] x => y" = .ok "[[a\n__match[b]] x] = y"
      ∧ (regions (lex "[[a\nb]] x => y".toList)).map Region.text = ["[[a\nb]]".toList]
      ∧ ¬"[[a\nb]]".toList <:+: "[[a\n__match[b]] x] = y".toList :=
  ⟨rfl, rfl, by decide⟩

end Keybind
