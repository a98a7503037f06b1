import Keybind.Transpile

/-!
# Runs of the emitter

What the emitter can do is said once, and nothing later looks into `advance`,
`feed` or `finish` again.

* `Context.Moves` says where a segment leads from a context. `Context.moves` and
  `Context.Moves.advance_eq` tie it to `advance`.
* `Step` says what else a segment does that is taken: it opens a scope, closes one,
  turns the line into an assignment, or is copied. What is reported of it is
  `report`. `feed_ok`, `feed_of_step` and `feed_refused` tie them to `feed`.
* `Finishes` says how a script ends. `finishes` and `Finishes.finish_eq` tie it to
  `finish`.

A run is a list of segments that are all taken. Invariants of runs come from
invariants of steps by `Accepts.preserves`, which remembers the segments taken
so far, so that an invariant may speak about them.
-/

namespace Keybind

/-! ## The context after a segment -/

/-- The delimiters of long brackets. -/
def SegmentKind.IsDelimiter (kind : SegmentKind) : Prop :=
  ∃ bracket, kind = .longOpen bracket ∨ kind = .longClose bracket

namespace Context

/-- The segments that a context looks for. All others are passed over. -/
def Heeds : Context → SegmentKind → Prop
  | code, kind => kind = .lineComment ∨ kind.IsDelimiter
  | lineComment, kind => kind = .lineBreak
  | longBracket _, kind => kind.IsDelimiter

/-- Where a segment leads from a context, and the fault if it does not fit. -/
inductive Moves (segment : Segment) : Context → Context → Option (Fault Nat) → Prop where
  | comment : segment.kind = .lineComment → Moves segment code lineComment none
  | newline : segment.kind = .lineBreak → Moves segment lineComment code none
  | opener {bracket : LongBracket} : segment.kind = .longOpen bracket →
      Moves segment code (longBracket [⟨bracket, segment.span.start⟩]) none
  | nested {bracket : LongBracket} {openers : List Opener} : segment.kind = .longOpen bracket →
      Moves segment (longBracket openers)
        (longBracket (⟨bracket, segment.span.start⟩ :: openers)) none
  | closer {innermost : Opener} {openers : List Opener} {found : LongBracket} :
      segment.kind = .longClose found → innermost.bracket.level = found.level →
      Moves segment (longBracket (innermost :: openers)) (ofOpeners openers) none
  /-- A closer in code. -/
  | stray {found : LongBracket} : segment.kind = .longClose found →
      Moves segment code code (some (.mismatchedLongBracket segment.span.start none found))
  /-- A closer that does not fit the innermost opener, if there is one, and still uses it up. -/
  | unfit {openers : List Opener} {found : LongBracket} : segment.kind = .longClose found →
      (∀ innermost ∈ openers.head?, innermost.bracket.level ≠ found.level) →
      Moves segment (longBracket openers) (longBracket openers.tail)
        (some (.mismatchedLongBracket segment.span.start (openers.head?.map (·.bracket)) found))
  | other {context : Context} : ¬context.Heeds segment.kind → Moves segment context context none

variable {context next : Context} {segment : Segment} {fault : Option (Fault Nat)}

/-- Every segment moves the context in one of these ways. -/
theorem moves (context : Context) (segment : Segment) :
    Moves segment context (context.advance segment).1 (context.advance segment).2 := by
  unfold advance
  cases context with
  | code =>
      cases hk : segment.kind with
      | lineComment => exact .comment hk
      | longOpen bracket => exact .opener hk
      | longClose found => exact .stray hk
      | _ => exact .other (by simp [Heeds, SegmentKind.IsDelimiter, hk])
  | lineComment =>
      cases hk : segment.kind with
      | lineBreak => exact .newline hk
      | _ => exact .other (by simp [Heeds, hk])
  | longBracket openers =>
      cases hk : segment.kind with
      | longOpen bracket => cases openers <;> exact .nested hk
      | longClose found =>
          cases openers with
          | nil => exact .unfit hk fun _ h => nomatch h
          | cons innermost openers =>
              dsimp only
              split
              · exact .closer hk ‹_›
              · rename_i hlevel
                refine .unfit hk fun other hother => ?_
                cases hother
                exact hlevel
      | _ => cases openers <;> exact .other (by simp [Heeds, SegmentKind.IsDelimiter, hk])

/-- What a context does not look for leaves it as it is. -/
theorem advance_other (h : ¬context.Heeds segment.kind) :
    context.advance segment = (context, none) := by
  unfold advance
  cases context with
  | code =>
      cases hk : segment.kind with
      | lineComment => exact absurd (.inl hk) h
      | longOpen bracket => exact absurd (.inr ⟨bracket, .inl hk⟩) h
      | longClose found => exact absurd (.inr ⟨found, .inr hk⟩) h
      | _ => rfl
  | lineComment =>
      cases hk : segment.kind with
      | lineBreak => exact absurd hk h
      | _ => rfl
  | longBracket openers =>
      cases hk : segment.kind with
      | longOpen bracket => exact absurd ⟨bracket, .inl hk⟩ h
      | longClose found => exact absurd ⟨found, .inr hk⟩ h
      | _ => cases openers <;> rfl

/-- A segment moves the context in one way only. -/
theorem Moves.advance_eq (h : Moves segment context next fault) :
    context.advance segment = (next, fault) := by
  unfold advance
  cases h with
  | comment hk => rw [hk]
  | newline hk => rw [hk]
  | opener hk => rw [hk]
  | @nested _ openers hk => cases openers <;> rw [hk]
  | closer hk hlevel =>
      rw [hk]
      exact if_pos hlevel
  | stray hk => rw [hk]
  | @unfit openers _ hk hlevel =>
      rw [hk]
      cases openers with
      | nil => rfl
      | cons innermost openers => exact if_neg (hlevel innermost rfl)
  | other hnone => exact advance_other hnone

theorem Moves.next_eq (h : Moves segment context next fault) :
    (context.advance segment).1 = next :=
  congrArg Prod.fst h.advance_eq

theorem moves_of_advance (h : context.advance segment = (next, fault)) :
    Moves segment context next fault := by
  have hmoves := context.moves segment
  rwa [h] at hmoves

/-- The end of a line ends a line comment and nothing else. -/
theorem advance_lineBreak (context : Context) (h : segment.kind = .lineBreak) :
    (context.advance segment).1 = if context = lineComment then code else context := by
  cases context with
  | lineComment => exact (Moves.newline h).next_eq
  | code => exact Moves.next_eq (.other (by simp [Heeds, SegmentKind.IsDelimiter, h]))
  | longBracket openers =>
      exact Moves.next_eq (.other (by simp [Heeds, SegmentKind.IsDelimiter, h]))

/-- Only closers do not fit. -/
theorem fault_eq_none (context : Context) (h : ∀ found, segment.kind ≠ .longClose found) :
    (context.advance segment).2 = none := by
  have hmoves := context.moves segment
  generalize (context.advance segment).1 = next, (context.advance segment).2 = fault at hmoves ⊢
  cases hmoves with
  | stray hk => exact absurd hk (h _)
  | unfit hk => exact absurd hk (h _)
  | _ => rfl

/-- No closer fits in code. -/
theorem kind_ne_longClose (h : Context.code.advance segment = (next, none)) (found : LongBracket) :
    segment.kind ≠ .longClose found := by
  intro hk
  cases h.symm.trans (Moves.stray hk).advance_eq

end Context

namespace Emitter

/-! ## One segment -/

/-- What an opening brace in code becomes. -/
def openPiece (options : Options) (emitter : Emitter) (segment : Segment) : Piece :=
  match emitter.scopeKind with
  | .body => .generated options.scopeOpen
  | .literal => .source segment.text

/-- What the closing brace of a scope becomes. -/
def closePiece (segment : Segment) (scope : Scope) : Piece :=
  match scope.kind with
  | .body => .generated Options.scopeClose
  | .literal => .source segment.text

/-- What an arrow in code puts in place of its line. -/
def assignPiece (options : Options) (emitter : Emitter) : Piece :=
  .generated (options.assignment (Text.indent emitter.line) (Text.trim (Text.body emitter.line)))

/-- The kinds of segment that are not just copied in code. -/
def IsStructural (kind : SegmentKind) : Prop :=
  kind = .openBrace ∨ kind = .closeBrace ∨ kind = .arrow

instance (kind : SegmentKind) : Decidable (IsStructural kind) :=
  inferInstanceAs (Decidable (_ ∨ _))

/-- The output and the scopes after a segment that is taken. -/
inductive Emits (options : Options) (emitter : Emitter) (segment : Segment) :
    List Piece → List Scope → Prop where
  | opens : emitter.context = .code → segment.kind = .openBrace →
      Emits options emitter segment (emitter.openPiece options segment :: emitter.pieces)
        (⟨emitter.scopeKind, segment.span.start⟩ :: emitter.scopes)
  | closes {scope : Scope} {outer : List Scope} : emitter.context = .code →
      segment.kind = .closeBrace → emitter.scopes = scope :: outer →
      Emits options emitter segment (closePiece segment scope :: emitter.pieces) outer
  | assigns : emitter.context = .code → segment.kind = .arrow →
      Emits options emitter segment (emitter.assignPiece options :: emitter.linesBefore)
        emitter.scopes
  | copies : (emitter.context = .code → ¬IsStructural segment.kind) →
      Emits options emitter segment (segment.copy :: emitter.pieces) emitter.scopes

/-- A segment that is taken. -/
structure Step (options : Options) (emitter : Emitter) (segment : Segment) (next : Emitter) :
    Prop where
  context : emitter.context.advance segment = (next.context, none)
  afterArrow : next.afterArrow = emitter.arrowAfter segment
  output : Emits options emitter segment next.pieces next.scopes

/-- What is reported of a segment that is taken. -/
def report (emitter : Emitter) (segment : Segment) : Option EmitEvent :=
  match emitter.context, segment.kind with
  | .code, .openBrace => some (.opened (emitter.scopes.length + 1) emitter.scopeKind)
  | .code, .closeBrace =>
    emitter.scopes.head?.map fun scope => .closed emitter.scopes.tail.length scope.kind
  | .code, .arrow => some (.matched (Text.trim (Text.body emitter.line)))
  | _, _ => none

/-- Taking a segment is a step. -/
theorem feed_ok {options : Options} {emitter next : Emitter} {segment : Segment}
    {event : Option EmitEvent} (h : emitter.feed options segment = (next, .ok event)) :
    Step options emitter segment next := by
  unfold feed at h
  split at h
  · cases h
  · rename_i context hcontext
    split at h
    · cases h
    · rename_i applied event' happly
      cases h
      refine ⟨hcontext, rfl, ?_⟩
      unfold apply at happly
      split at happly
      · rename_i hctx hkind
        cases happly
        exact .opens hctx hkind
      · rename_i hctx hkind
        split at happly
        · cases happly
        · rename_i scope outer hscopes
          cases happly
          exact .closes hctx hkind hscopes
      · rename_i hctx hkind
        cases happly
        exact .assigns hctx hkind
      · rename_i hopen hclose harrow
        cases happly
        refine .copies fun hctx hstructural => ?_
        rcases hstructural with hk | hk | hk
        · exact hopen hctx hk
        · exact hclose hctx hk
        · exact harrow hctx hk

/-- A segment that is not taken does not fit the context, or closes a scope that is not there. -/
theorem feed_refused {options : Options} {emitter next : Emitter} {segment : Segment}
    {fault : Fault Nat} (h : emitter.feed options segment = (next, .error fault)) :
    (∃ context, emitter.context.advance segment = (context, some fault)
        ∧ next = { emitter with context })
      ∨ (emitter.context = .code ∧ segment.kind = .closeBrace ∧ emitter.scopes = []
        ∧ fault = .unbalancedClose segment.span.start ∧ next = emitter) := by
  unfold feed at h
  split at h
  · rename_i context fault' hcontext
    cases h
    exact .inl ⟨context, hcontext, rfl⟩
  · split at h
    · rename_i fault' happly
      cases h
      unfold apply at happly
      split at happly
      · cases happly
      · rename_i hctx hkind
        split at happly
        · rename_i hscopes
          cases happly
          exact .inr ⟨hctx, hkind, hscopes, rfl, rfl⟩
        · cases happly
      · cases happly
      · cases happly
    · cases h

/-- The fault alone, where the state that is left does not matter. -/
theorem feed_error {options : Options} {emitter next : Emitter} {segment : Segment}
    {fault : Fault Nat} (h : emitter.feed options segment = (next, .error fault)) :
    (emitter.context.advance segment).2 = some fault
      ∨ (emitter.context = .code ∧ segment.kind = .closeBrace ∧ emitter.scopes = []
        ∧ fault = .unbalancedClose segment.span.start) := by
  rcases feed_refused h with ⟨context, hadvance, -⟩ | ⟨hctx, hkind, hscopes, hfault, -⟩
  · exact .inl (congrArg Prod.snd hadvance)
  · exact .inr ⟨hctx, hkind, hscopes, hfault⟩

/-- A segment that does not change anything in code is copied everywhere. -/
theorem apply_copies {options : Options} {emitter : Emitter} {segment : Segment}
    (h : emitter.context = .code → ¬IsStructural segment.kind) :
    emitter.apply options segment = .ok (emitter.copy segment, none) := by
  unfold apply
  split
  · rename_i hctx hkind
    exact absurd (.inl hkind) (h hctx)
  · rename_i hctx hkind
    exact absurd (.inr (.inl hkind)) (h hctx)
  · rename_i hctx hkind
    exact absurd (.inr (.inr hkind)) (h hctx)
  · rfl

/-- What is copied in code is not reported anywhere. -/
theorem report_of_copied {emitter : Emitter} {segment : Segment}
    (h : emitter.context = .code → ¬IsStructural segment.kind) :
    emitter.report segment = none := by
  unfold report
  split
  · rename_i hctx hkind
    exact absurd (.inl hkind) (h hctx)
  · rename_i hctx hkind
    exact absurd (.inr (.inl hkind)) (h hctx)
  · rename_i hctx hkind
    exact absurd (.inr (.inr hkind)) (h hctx)
  · rfl

/-- **Every step is taken**, so `Step` says no more than `feed` does; and what is reported of it is
known beforehand. -/
theorem feed_of_step {options : Options} {emitter next : Emitter} {segment : Segment}
    (h : Step options emitter segment next) :
    emitter.feed options segment = (next, .ok (emitter.report segment)) := by
  obtain ⟨pieces, scopes, context, afterArrow⟩ := next
  obtain ⟨hcontext, harrow, hout⟩ := h
  dsimp only at hcontext harrow hout
  subst harrow
  unfold feed
  rw [hcontext]
  dsimp only
  cases hout with
  | opens hctx hkind =>
      unfold apply report
      rw [hctx, hkind]
      rfl
  | closes hctx hkind hscopes =>
      unfold apply report
      rw [hctx, hkind, hscopes]
      rfl
  | assigns hctx hkind =>
      unfold apply report
      rw [hctx, hkind]
      rfl
  | copies hcopied =>
      rw [apply_copies hcopied, report_of_copied hcopied]
      rfl

/-- A segment that does not fit the context is not taken, and moves nothing but the context. -/
theorem feed_of_advance {emitter : Emitter} {segment : Segment} {context : Context}
    {fault : Fault Nat} (h : emitter.context.advance segment = (context, some fault))
    (options : Options) :
    emitter.feed options segment = ({ emitter with context }, .error fault) := by
  unfold feed
  rw [h]

/-- The same, where the context that is left does not matter. -/
theorem feed_of_fault {emitter : Emitter} {segment : Segment} {fault : Fault Nat}
    (h : (emitter.context.advance segment).2 = some fault) (options : Options) :
    ∃ next, emitter.feed options segment = (next, .error fault) :=
  ⟨_, feed_of_advance (Prod.ext rfl h) options⟩

/-- A closing brace without a scope is not taken. -/
theorem feed_of_excess {emitter : Emitter} {segment : Segment} (hctx : emitter.context = .code)
    (hkind : segment.kind = .closeBrace) (hscopes : emitter.scopes = []) (options : Options) :
    emitter.feed options segment = (emitter, .error (.unbalancedClose segment.span.start)) := by
  unfold feed Context.advance apply
  rw [hctx, hkind, hscopes]

/-! ## Many segments -/

/-- All segments are taken, and the run ends in the state `last`. -/
def Accepts (options : Options) (emitter : Emitter) (segments : List Segment) (last : Emitter) :
    Prop :=
  (emitter.feedAll options segments).2 = .ok last

theorem accepts_nil {options : Options} {emitter last : Emitter}
    (h : Accepts options emitter [] last) : emitter = last := by
  cases h; rfl

theorem feedAll_cons_ok {options : Options} {emitter next : Emitter} {segment : Segment}
    {event : Option EmitEvent} (h : emitter.feed options segment = (next, .ok event))
    (segments : List Segment) :
    (emitter.feedAll options (segment :: segments)).2 = (next.feedAll options segments).2 := by
  rw [feedAll, h]

theorem feedAll_cons_error {options : Options} {emitter next : Emitter} {segment : Segment}
    {fault : Fault Nat} (h : emitter.feed options segment = (next, .error fault))
    (segments : List Segment) :
    (emitter.feedAll options (segment :: segments)).2 = .error fault := by
  rw [feedAll, h]

/-- What is reported of the first segment comes first. -/
theorem feedAll_cons_events {options : Options} {emitter next : Emitter} {segment : Segment}
    (h : Step options emitter segment next) (segments : List Segment) :
    (emitter.feedAll options (segment :: segments)).1
      = (emitter.report segment).toList ++ (next.feedAll options segments).1 := by
  rw [feedAll, feed_of_step h]

theorem accepts_cons {options : Options} {emitter last : Emitter} {segment : Segment}
    {segments : List Segment} (h : Accepts options emitter (segment :: segments) last) :
    ∃ next, Step options emitter segment next ∧ Accepts options next segments last := by
  unfold Accepts at h
  match hfeed : emitter.feed options segment with
  | (next, .ok event) =>
      rw [feedAll_cons_ok hfeed] at h
      exact ⟨next, feed_ok hfeed, h⟩
  | (next, .error fault) =>
      rw [feedAll_cons_error hfeed] at h
      cases h

/-- A run may start with a step. -/
theorem Step.accepts {options : Options} {emitter next last : Emitter} {segment : Segment}
    {segments : List Segment} (h : Step options emitter segment next)
    (hrest : Accepts options next segments last) :
    Accepts options emitter (segment :: segments) last := by
  exact (feedAll_cons_ok (feed_of_step h) segments).trans hrest

/-- **What every step keeps, every run keeps.** The invariant may speak about the segments taken so
far, and a step knows which segments are still to come. -/
theorem Accepts.preserves {options : Options} {P : List Segment → Emitter → Prop}
    {segments : List Segment} {first last : Emitter} (init : P [] first)
    (step : ∀ before segment after emitter next, before ++ segment :: after = segments →
      P before emitter → Step options emitter segment next → P (before ++ [segment]) next)
    (h : Accepts options first segments last) : P segments last := by
  have hrun : ∀ (after before : List Segment) (emitter : Emitter), before ++ after = segments →
      P before emitter → Accepts options emitter after last → P segments last := by
    -- on what is still to come, while what has been taken grows
    intro after
    induction after with
    | nil =>
        intro before emitter hall hinv hrest
        rw [List.append_nil] at hall
        rw [← hall, ← accepts_nil hrest]
        exact hinv
    | cons segment after ih =>
        intro before emitter hall hinv hrest
        obtain ⟨next, hstep, hrest⟩ := accepts_cons hrest
        refine ih (before ++ [segment]) next ?_ (step before segment after emitter next hall hinv
          hstep) hrest
        rw [List.append_assoc, List.singleton_append, hall]
  exact hrun segments [] first rfl init h

/-- A run can be cut anywhere. -/
theorem accepts_append {options : Options} {emitter last : Emitter} {before after : List Segment}
    (h : Accepts options emitter (before ++ after) last) :
    ∃ middle, Accepts options emitter before middle ∧ Accepts options middle after last := by
  induction before generalizing emitter with
  | nil => exact ⟨emitter, rfl, h⟩
  | cons segment before ih =>
      obtain ⟨next, hstep, hrest⟩ := accepts_cons h
      obtain ⟨middle, hbefore, hafter⟩ := ih hrest
      exact ⟨middle, hstep.accepts hbefore, hafter⟩

/-- A run goes on where its first part ends. -/
theorem feedAll_append_ok {options : Options} {emitter middle : Emitter} {before : List Segment}
    (h : Accepts options emitter before middle) (after : List Segment) :
    (emitter.feedAll options (before ++ after)).2 = (middle.feedAll options after).2 := by
  induction before generalizing emitter with
  | nil => rw [accepts_nil h, List.nil_append]
  | cons segment before ih =>
      obtain ⟨next, hstep, hrest⟩ := accepts_cons h
      rw [List.cons_append, feedAll_cons_ok (feed_of_step hstep), ih hrest]

/-- What is reported of the first part comes first. -/
theorem feedAll_append_events {options : Options} {emitter middle : Emitter}
    {before : List Segment} (h : Accepts options emitter before middle) (after : List Segment) :
    (emitter.feedAll options (before ++ after)).1
      = (emitter.feedAll options before).1 ++ (middle.feedAll options after).1 := by
  induction before generalizing emitter with
  | nil => rw [accepts_nil h]; rfl
  | cons segment before ih =>
      obtain ⟨next, hstep, hrest⟩ := accepts_cons h
      rw [List.cons_append, feedAll_cons_events hstep, feedAll_cons_events hstep, ih hrest,
        List.append_assoc]

theorem Accepts.append {options : Options} {emitter middle last : Emitter}
    {before after : List Segment} (h : Accepts options emitter before middle)
    (hrest : Accepts options middle after last) :
    Accepts options emitter (before ++ after) last :=
  (feedAll_append_ok h after).trans hrest

/-- A run that has failed does not go on. -/
theorem feedAll_append_error {options : Options} {emitter : Emitter} {before : List Segment}
    {fault : Fault Nat} (h : (emitter.feedAll options before).2 = .error fault)
    (after : List Segment) : (emitter.feedAll options (before ++ after)).2 = .error fault := by
  induction before generalizing emitter with
  | nil => cases h
  | cons segment before ih =>
      match hfeed : emitter.feed options segment with
      | (next, .ok event) =>
          rw [feedAll_cons_ok hfeed] at h
          rw [List.cons_append, feedAll_cons_ok hfeed, ih h]
      | (next, .error found) =>
          rw [feedAll_cons_error hfeed] at h
          rw [List.cons_append, feedAll_cons_error hfeed, h]

/-- A run that fails takes all segments up to the one that is at fault. -/
theorem feedAll_error {options : Options} {emitter : Emitter} {segments : List Segment}
    {fault : Fault Nat} (h : (emitter.feedAll options segments).2 = .error fault) :
    ∃ before segment after middle next, segments = before ++ segment :: after
      ∧ Accepts options emitter before middle
      ∧ middle.feed options segment = (next, .error fault) := by
  induction segments generalizing emitter with
  | nil => cases h
  | cons segment segments ih =>
      match hfeed : emitter.feed options segment with
      | (next, .ok event) =>
          rw [feedAll_cons_ok hfeed] at h
          obtain ⟨before, faulty, after, middle, next', hsplit, hrun, hfault⟩ := ih h
          refine ⟨segment :: before, faulty, after, middle, next', ?_, ?_, hfault⟩
          · rw [hsplit, List.cons_append]
          · exact (feedAll_cons_ok hfeed before).trans hrun
      | (next, .error fault') =>
          rw [feedAll_cons_error hfeed] at h
          cases h
          exact ⟨[], segment, segments, emitter, next, rfl, rfl, hfeed⟩

/-! ## The end of a script -/

/-- How a script ends: a long bracket that is still open comes first, where that is not let pass,
then the innermost scope. -/
inductive Finishes (options : Options) (emitter : Emitter) :
    Except (Fault Nat) (List Piece) → Prop where
  | bracket {opener : Opener} : options.rejectUnterminated = true →
      emitter.outermost? = some opener →
      Finishes options emitter (.error (.unterminatedLongBracket opener.offset opener.bracket))
  | brace {scope : Scope} {outer : List Scope} :
      (options.rejectUnterminated = true → emitter.outermost? = none) →
      emitter.scopes = scope :: outer →
      Finishes options emitter (.error (.unbalancedOpen scope.offset))
  | whole : (options.rejectUnterminated = true → emitter.outermost? = none) →
      emitter.scopes = [] → Finishes options emitter (.ok emitter.pieces.reverse)

/-- Every script ends in one of these ways. -/
theorem finishes (options : Options) (emitter : Emitter) :
    Finishes options emitter (emitter.finish options) := by
  unfold finish
  split
  · rename_i opener hopener
    split at hopener
    · exact .bracket ‹_› hopener
    · cases hopener
  · rename_i hnone
    have hclosed : options.rejectUnterminated = true → emitter.outermost? = none := by
      intro hreject
      rwa [if_pos hreject] at hnone
    split
    · exact .brace hclosed ‹_›
    · exact .whole hclosed ‹_›

/-- And in one only. -/
theorem Finishes.finish_eq {options : Options} {emitter : Emitter}
    {result : Except (Fault Nat) (List Piece)} (h : Finishes options emitter result) :
    emitter.finish options = result := by
  have hnone : (options.rejectUnterminated = true → emitter.outermost? = none) →
      (if options.rejectUnterminated then emitter.outermost? else none) = none := by
    intro hclosed
    split
    · exact hclosed ‹_›
    · rfl
  unfold finish
  cases h with
  | bracket hreject hopener => rw [if_pos hreject, hopener]
  | brace hclosed hscopes => rw [hnone hclosed, hscopes]
  | whole hclosed hscopes => rw [hnone hclosed, hscopes]

/-- What a script that may end leaves behind. -/
theorem finish_ok {options : Options} {emitter : Emitter} {pieces : List Piece}
    (h : emitter.finish options = .ok pieces) :
    pieces = emitter.pieces.reverse ∧ emitter.scopes = [] := by
  have hfinishes := emitter.finishes options
  rw [h] at hfinishes
  cases hfinishes with
  | whole _ hscopes => exact ⟨rfl, hscopes⟩

/-- No long bracket is open in code. -/
theorem outermost?_code {emitter : Emitter} (h : emitter.context = .code) :
    emitter.outermost? = none := by
  rw [outermost?, h]

end Emitter

/-! ## Whole scripts -/

theorem transpile_of_error {options : Options} {source : String} {fault : Fault Nat}
    (h : (emit options (lex source.toList)).2 = .error fault) :
    transpile options source = .error (fault.locate source.toList) := by
  unfold transpile trace
  dsimp only
  rcases hemit : emit options (lex source.toList) with ⟨steps, result⟩
  rw [hemit] at h
  cases h
  rfl

theorem transpile_of_ok {options : Options} {source : String} {pieces : List Piece}
    (h : (emit options (lex source.toList)).2 = .ok pieces) :
    transpile options source = .ok (String.ofList (Piece.assemble pieces)) := by
  unfold transpile trace
  dsimp only
  rcases hemit : emit options (lex source.toList) with ⟨steps, result⟩
  rw [hemit] at h
  cases h
  rfl

theorem transpile_eq_emit (options : Options) (source : String) :
    transpile options source
      = ((emit options (lex source.toList)).2.mapError (Fault.locate source.toList)).map
        (fun pieces => String.ofList (Piece.assemble pieces)) := by
  cases h : (emit options (lex source.toList)).2 with
  | error fault => exact transpile_of_error h
  | ok pieces => exact transpile_of_ok h

theorem emit_of_accepts {options : Options} {segments : List Segment} {emitter : Emitter}
    (h : Emitter.Accepts options {} segments emitter) :
    (emit options segments).2 = emitter.finish options := by
  unfold Emitter.Accepts at h
  unfold emit
  dsimp only
  rw [h]
  rfl

theorem emit_of_error {options : Options} {segments : List Segment} {fault : Fault Nat}
    (h : (({} : Emitter).feedAll options segments).2 = .error fault) :
    (emit options segments).2 = .error fault := by
  unfold emit
  dsimp only
  rw [h]
  rfl

/-- **A script that becomes Lua** is one whose segments are all taken and that may end there. -/
theorem transpile_ok {options : Options} {source out : String}
    (h : transpile options source = .ok out) :
    ∃ emitter, Emitter.Accepts options {} (lex source.toList) emitter ∧ emitter.scopes = []
      ∧ out = String.ofList (Piece.assemble emitter.pieces.reverse) := by
  cases hrun : (({} : Emitter).feedAll options (lex source.toList)).2 with
  | error fault =>
      rw [transpile_of_error (emit_of_error hrun)] at h
      cases h
  | ok emitter =>
      have hemit := emit_of_accepts hrun
      cases hfinish : emitter.finish options with
      | error fault =>
          rw [transpile_of_error (hemit.trans hfinish)] at h
          cases h
      | ok pieces =>
          obtain ⟨hpieces, hscopes⟩ := Emitter.finish_ok hfinish
          rw [transpile_of_ok (hemit.trans hfinish)] at h
          cases h
          exact ⟨emitter, hrun, hscopes, by rw [hpieces]⟩

/-- Its pieces are those that the run leaves behind. -/
theorem emit_of_transpile {options : Options} {source out : String}
    (h : transpile options source = .ok out) {last : Emitter}
    (hrun : Emitter.Accepts options {} (lex source.toList) last) :
    (emit options (lex source.toList)).2 = .ok last.pieces.reverse := by
  have hemit := emit_of_accepts hrun
  cases hfinish : last.finish options with
  | error fault =>
      rw [transpile_of_error (hemit.trans hfinish)] at h
      cases h
  | ok pieces => rw [hemit, hfinish, (Emitter.finish_ok hfinish).1]

end Keybind
