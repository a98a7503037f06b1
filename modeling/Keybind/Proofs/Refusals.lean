import Keybind.Proofs.Runs
import Mathlib.Data.List.Induction

/-!
# Going on after a fault

A caller may go on feeding segments after one has been refused. What a refusal
leaves behind is said once, in `Refusal`: the output, the scopes and the memory
of an arrow stay as they are, and so does the context, but for a closer within
long brackets, which has used up the innermost opener when it turns out not to
fit. So long brackets can be left with no opener at all.

That state is not left behind by any other segment. `delimiter_refused` carries
this along a whole run: whenever the emitter is within long brackets without an
opener, the last delimiter of a long bracket has been refused.
-/

namespace Keybind

/-- The context that a refused segment leaves: within long brackets, a closer uses up the innermost
opener. -/
def Context.refusing (context : Context) (kind : SegmentKind) : Context :=
  match context, kind with
  | longBracket openers, .longClose _ => longBracket openers.tail
  | context, _ => context

theorem Context.refusing_code (kind : SegmentKind) : Context.code.refusing kind = .code := rfl

namespace Emitter

variable {options : Options} {emitter next : Emitter} {segment : Segment} {fault : Fault Nat}

/-! ## One refused segment -/

/-- The three ways in which a segment is refused. -/
inductive Refusal (emitter : Emitter) (segment : Segment) : Emitter → Fault Nat → Prop where
  /-- A closing brace without a scope. -/
  | brace : emitter.context = .code → segment.kind = .closeBrace → emitter.scopes = [] →
      Refusal emitter segment emitter (.unbalancedClose segment.span.start)
  /-- A closer in code. -/
  | stray {found : LongBracket} : emitter.context = .code → segment.kind = .longClose found →
      Refusal emitter segment emitter (.mismatchedLongBracket segment.span.start none found)
  /-- A closer within long brackets that does not fit the innermost opener, if there is one. -/
  | unfit {openers : List Opener} {found : LongBracket} :
      emitter.context = .longBracket openers → segment.kind = .longClose found →
      (∀ innermost ∈ openers.head?, innermost.bracket.level ≠ found.level) →
      Refusal emitter segment { emitter with context := .longBracket openers.tail }
        (.mismatchedLongBracket segment.span.start (openers.head?.map (·.bracket)) found)

theorem with_context {context : Context} (h : emitter.context = context) :
    { emitter with context } = emitter := by
  rw [← h]

/-- A segment that does not fit the context is refused. -/
theorem refusal_of_advance {context : Context}
    (h : emitter.context.advance segment = (context, some fault)) :
    Refusal emitter segment { emitter with context } fault := by
  generalize hctx : emitter.context = before at h
  cases Context.moves_of_advance h with
  | stray hkind =>
      rw [with_context hctx]
      exact .stray hctx hkind
  | unfit hkind hlevel => exact .unfit hctx hkind hlevel

/-- **What a refused segment leaves behind.** -/
theorem refusal_of_feed (h : emitter.feed options segment = (next, .error fault)) :
    Refusal emitter segment next fault := by
  rcases feed_refused h with ⟨context, hadvance, rfl⟩ | ⟨hctx, hkind, hscopes, rfl, rfl⟩
  · exact refusal_of_advance hadvance
  · exact .brace hctx hkind hscopes

/-- **Every refusal happens**, so `Refusal` says no more than `feed` does. -/
theorem feed_of_refusal (h : Refusal emitter segment next fault) (options : Options) :
    emitter.feed options segment = (next, .error fault) := by
  cases h with
  | brace hctx hkind hscopes => exact feed_of_excess hctx hkind hscopes options
  | stray hctx hkind =>
      have hadvance := (Context.Moves.stray hkind).advance_eq
      rw [← hctx] at hadvance
      exact feed_of_advance hadvance options
  | unfit hctx hkind hlevel =>
      have hadvance := (Context.Moves.unfit hkind hlevel).advance_eq
      rw [← hctx] at hadvance
      exact feed_of_advance hadvance options

/-- A refused segment changes nothing but the context. -/
theorem Refusal.unchanged (h : Refusal emitter segment next fault) :
    next = { emitter with context := emitter.context.refusing segment.kind } := by
  cases h with
  | brace hctx _ _ => rw [hctx, Context.refusing_code, with_context hctx]
  | stray hctx _ => rw [hctx, Context.refusing_code, with_context hctx]
  | unfit hctx hkind _ => rw [hctx, hkind, Context.refusing]

/-! ## Long brackets without an opener -/

/-- A segment that is taken leads to long brackets without an opener only if the emitter is there
already, and the segment is not a delimiter. -/
theorem advance_emptied {context : Context}
    (h : context.advance segment = (.longBracket [], none)) :
    context = .longBracket [] ∧ ¬segment.kind.IsDelimiter := by
  generalize hnext : Context.longBracket [] = next at h
  cases Context.moves_of_advance h with
  | @closer _ openers =>
      -- a closer that fits leaves the code or an opener
      cases openers <;> cases hnext
  | other hnone =>
      subst hnext
      exact ⟨rfl, hnone⟩
  | _ => cases hnext

theorem feedOn_snoc (options : Options) (emitter : Emitter) (segments : List Segment)
    (segment : Segment) :
    emitter.feedOn options (segments ++ [segment])
      = ((emitter.feedOn options segments).feed options segment).1 := by
  rw [feedOn, List.foldl_append]
  rfl

/-- The last delimiter among the segments has been refused. -/
def DelimiterRefused (options : Options) (emitter : Emitter) (segments : List Segment) : Prop :=
  ∃ before delimiter after, segments = before ++ delimiter :: after
    ∧ delimiter.kind.IsDelimiter ∧ (∀ segment ∈ after, ¬segment.kind.IsDelimiter)
    ∧ ∃ next fault, (emitter.feedOn options before).feed options delimiter = (next, .error fault)

/-- **Long brackets are left without an opener by a refused delimiter**, and by nothing since. -/
theorem delimiter_refused {segments : List Segment} (hstart : emitter.context ≠ .longBracket [])
    (h : (emitter.feedOn options segments).context = .longBracket []) :
    DelimiterRefused options emitter segments := by
  -- from the end of the run, since only the last segments count
  induction segments using List.reverseRecOn with
  | nil => exact absurd h hstart
  | append_singleton segments segment ih =>
      rw [feedOn_snoc] at h
      rcases hfeed : (emitter.feedOn options segments).feed options segment
        with ⟨next, fault | event⟩
      · rw [hfeed] at h
        refine ⟨segments, segment, [], rfl, ?_, fun _ hmem => (List.not_mem_nil hmem).elim, next,
          fault, hfeed⟩
        cases refusal_of_feed hfeed with
        | brace hctx _ _ => rw [hctx] at h; cases h
        | stray hctx _ => rw [hctx] at h; cases h
        | unfit _ hkind _ => exact ⟨_, .inr hkind⟩
      · rw [hfeed] at h
        have hadvance := (feed_ok hfeed).context
        rw [h] at hadvance
        obtain ⟨hbefore, hkind⟩ := advance_emptied hadvance
        obtain ⟨before, delimiter, after, rfl, hdelimiter, hafter, hrefused⟩ := ih hbefore
        refine ⟨before, delimiter, after ++ [segment], by simp, hdelimiter, ?_, hrefused⟩
        intro other hother
        rcases List.mem_append.mp hother with hother | hother
        · exact hafter other hother
        · rw [List.mem_singleton.mp hother]
          exact hkind

/-- An opener puts the emitter back within a long bracket. -/
theorem feed_longOpen (hctx : emitter.context = .longBracket []) {bracket : LongBracket}
    (hkind : segment.kind = .longOpen bracket) (options : Options) :
    ∃ next, emitter.feed options segment = (next, .ok none)
      ∧ next.context = .longBracket [⟨bracket, segment.span.start⟩] := by
  have hcopied : emitter.context = .code → ¬IsStructural segment.kind := by
    intro hcode
    rw [hctx] at hcode
    cases hcode
  have hadvance : emitter.context.advance segment
      = (.longBracket [⟨bracket, segment.span.start⟩], none) := by
    rw [hctx]
    exact (Context.Moves.nested hkind).advance_eq
  have hstep : Step options emitter segment ⟨segment.copy :: emitter.pieces, emitter.scopes,
      .longBracket [⟨bracket, segment.span.start⟩], emitter.arrowAfter segment⟩ :=
    ⟨hadvance, rfl, .copies hcopied⟩
  have hfeed := feed_of_step hstep
  rw [report_of_copied hcopied] at hfeed
  exact ⟨_, hfeed, rfl⟩

/-- A script that ends without an opener does not end within a long bracket. -/
theorem finish_ne_unterminated (hctx : emitter.context = .longBracket []) (options : Options)
    (place : Nat) (opened : LongBracket) :
    emitter.finish options ≠ .error (.unterminatedLongBracket place opened) := by
  intro h
  have hfinishes := emitter.finishes options
  rw [h] at hfinishes
  cases hfinishes with
  | bracket _ hopener =>
      rw [outermost?, hctx] at hopener
      cases hopener

end Emitter

/-- What a fresh emitter comes to, going on after the segments that are refused. -/
def Emitter.reached (options : Options) (segments : List Segment) : Emitter :=
  ({} : Emitter).feedOn options segments

/-- **A refused segment leaves the emitter as it was**, whatever has been fed and refused before,
but for a closer within long brackets, which has used up the innermost opener. Where no opener is
left, it was the last delimiter that has been refused; every closer is refused as one that closes
nothing, an opener is taken, and the end of the script is not at fault for a long bracket. -/
theorem refused_leaves_unchanged (options : Options) (segments : List Segment) :
    (∀ segment next fault,
      (Emitter.reached options segments).feed options segment = (next, .error fault) →
      next.pieces = (Emitter.reached options segments).pieces
        ∧ next.scopes = (Emitter.reached options segments).scopes
        ∧ next.afterArrow = (Emitter.reached options segments).afterArrow
        ∧ next.context = (Emitter.reached options segments).context.refusing segment.kind)
    ∧ ((Emitter.reached options segments).context = .longBracket [] →
      Emitter.DelimiterRefused options {} segments
      ∧ (∀ segment found, segment.kind = .longClose found →
        (Emitter.reached options segments).feed options segment
          = (Emitter.reached options segments,
            .error (.mismatchedLongBracket segment.span.start none found)))
      ∧ (∀ segment bracket, segment.kind = .longOpen bracket →
        ∃ next, (Emitter.reached options segments).feed options segment = (next, .ok none)
          ∧ next.context = .longBracket [⟨bracket, segment.span.start⟩])
      ∧ ∀ place opened, (Emitter.reached options segments).finish options
        ≠ .error (.unterminatedLongBracket place opened)) := by
  constructor
  · intro segment next fault hfeed
    rw [(Emitter.refusal_of_feed hfeed).unchanged]
    exact ⟨rfl, rfl, rfl, rfl⟩
  · intro hctx
    refine ⟨Emitter.delimiter_refused (by simp) hctx, ?_, ?_, ?_⟩
    · intro segment found hkind
      have hrefusal := Emitter.Refusal.unfit hctx hkind fun _ hmem => by cases hmem
      rw [Emitter.feed_of_refusal hrefusal options]
      exact congrArg (·, _) (Emitter.with_context hctx)
    · intro segment bracket hkind
      exact Emitter.feed_longOpen hctx hkind options
    · exact Emitter.finish_ne_unterminated hctx options

/-- A closer of another level uses up the only opener. After that it closes nothing, and the opener
is taken again. -/
theorem refused_leaves_unchanged_emptied :
    let opener : Segment := ⟨.longOpen ⟨false, 0⟩, ⟨0, 2⟩, ['[', '[']⟩
    let closer : Segment := ⟨.longClose ⟨false, 1⟩, ⟨2, 5⟩, [']', '=', ']']⟩
    let opened := Emitter.reached {} [opener]
    let emptied := Emitter.reached {} [opener, closer]
    opened.feed {} closer
        = (emptied, .error (.mismatchedLongBracket 2 (some ⟨false, 0⟩) ⟨false, 1⟩))
      ∧ (emptied.pieces = opened.pieces ∧ emptied.scopes = opened.scopes
        ∧ emptied.afterArrow = opened.afterArrow ∧ emptied.context = .longBracket [])
      ∧ Emitter.DelimiterRefused {} {} [opener, closer]
      ∧ emptied.feed {} closer = (emptied, .error (.mismatchedLongBracket 2 none ⟨false, 1⟩))
      ∧ (∃ next, emptied.feed {} opener = (next, .ok none)
        ∧ next.context = .longBracket [⟨⟨false, 0⟩, 0⟩])
      ∧ ∀ place bracket, emptied.finish {} ≠ .error (.unterminatedLongBracket place bracket) := by
  intro opener closer opened emptied
  have hrefused : opened.feed {} closer
      = (emptied, .error (.mismatchedLongBracket 2 (some ⟨false, 0⟩) ⟨false, 1⟩)) := by rfl
  obtain ⟨hpieces, hscopes, harrow, hcontext⟩ :=
    (refused_leaves_unchanged {} [opener]).1 closer _ _ hrefused
  obtain ⟨hlast, hcloser, hopener, hend⟩ :=
    (refused_leaves_unchanged {} [opener, closer]).2 hcontext
  exact ⟨hrefused, ⟨hpieces, hscopes, harrow, hcontext⟩, hlast, hcloser closer _ rfl,
    hopener opener _ rfl, hend⟩

end Keybind
