import Keybind.Proofs.Lossless
import Keybind.Proofs.Verdict

/-!
# What a run reports

A reader of the log sees the script come apart into segments, scopes open and
close, patterns assigned, and at last the Lua put together, or no more if
there is a fault. The events come from many places, but what they say of each
other is decided by the scopes that are open: `Follows` takes the kinds of these
from one event to the next, and every run follows them (`feedAll_follows`).

Depths and kinds are read off from there. The depth of an event is the number of
scopes that are open after it, so it goes up and down by one. The scope that is
closed is the one that is open since the last event with none left open in
between, which is how parentheses match.
-/

namespace Keybind

/-! ## Events and scopes -/

namespace EmitEvent

/-- Whether a scope is opened. -/
def isOpened : EmitEvent → Bool
  | opened _ _ => true
  | _ => false

/-- Whether a scope is closed. -/
def isClosed : EmitEvent → Bool
  | closed _ _ => true
  | _ => false

/-- The kinds of segment that an event can tell of. -/
inductive Reports : SegmentKind → EmitEvent → Prop where
  | arrow (pattern : List Char) : Reports .arrow (.matched pattern)
  | opening (depth : Nat) (kind : ScopeKind) : Reports .openBrace (.opened depth kind)
  | closing (depth : Nat) (kind : ScopeKind) : Reports .closeBrace (.closed depth kind)

/-- Depths go up by one where a scope is opened and down by one where one is closed, starting from
`depth`. They cannot go below zero. -/
def DepthsFrom : Nat → List EmitEvent → Prop
  | _, [] => True
  | depth, matched _ :: events => DepthsFrom depth events
  | depth, opened next _ :: events => next = depth + 1 ∧ DepthsFrom next events
  | depth, closed next _ :: events => next + 1 = depth ∧ DepthsFrom next events

/-- Events that match as parentheses do, with none left over. Neither depths nor kinds count. -/
inductive Paired : List EmitEvent → Prop where
  | nil : Paired []
  | matched {events : List EmitEvent} (pattern : List Char) : Paired events →
      Paired (events ++ [.matched pattern])
  | scope {events inside : List EmitEvent} (depth depth' : Nat) (kind kind' : ScopeKind) :
      Paired events → Paired inside →
      Paired (events ++ .opened depth kind :: inside ++ [.closed depth' kind'])

/-- What is closed by the next event is what was opened after the events `outside`: in between, all
that is opened is closed. -/
def Opening (before outside : List EmitEvent) (kind : ScopeKind) : Prop :=
  ∃ depth inside, before = outside ++ .opened depth kind :: inside ∧ Paired inside

/-- The events lead from the open scopes `scopes`, the innermost first, to the open scopes `last`,
and each tells its depth and its kind. -/
inductive Follows : List ScopeKind → List EmitEvent → List ScopeKind → Prop where
  | nil (scopes : List ScopeKind) : Follows scopes [] scopes
  | matched {scopes last : List ScopeKind} {events : List EmitEvent} (pattern : List Char) :
      Follows scopes events last → Follows scopes (.matched pattern :: events) last
  | opened {scopes last : List ScopeKind} {events : List EmitEvent} {kind : ScopeKind} :
      Follows (kind :: scopes) events last →
      Follows scopes (.opened (scopes.length + 1) kind :: events) last
  | closed {scopes last : List ScopeKind} {events : List EmitEvent} {kind : ScopeKind} :
      Follows scopes events last →
      Follows (kind :: scopes) (.closed scopes.length kind :: events) last

/-- Balanced but for the scopes that are open, the innermost opened last. -/
def Stacks : List ScopeKind → List EmitEvent → Prop
  | [], events => Paired events
  | kind :: outer, events => ∃ outside, Opening events outside kind ∧ Stacks outer outside

namespace Follows

variable {scopes last : List ScopeKind} {events : List EmitEvent}

/-- Depths are the numbers of open scopes. -/
theorem depths (h : Follows scopes events last) : DepthsFrom scopes.length events := by
  induction h with
  | nil => trivial
  | matched pattern _ ih => exact ih
  | opened _ ih => exact ⟨rfl, ih⟩
  | closed _ ih => exact ⟨rfl, ih⟩

/-- Scopes are counted when they are opened, or are open before; and when they are closed, or are
open still. -/
theorem count (h : Follows scopes events last) :
    events.countP isOpened + scopes.length = events.countP isClosed + last.length := by
  induction h with
  | nil => rfl
  | matched pattern _ ih => simpa [isOpened, isClosed] using ih
  | opened _ ih =>
      simp only [isOpened, isClosed, List.countP_cons, List.length_cons] at ih ⊢
      simp only [Bool.false_eq_true, ↓reduceIte]
      omega
  | closed _ ih =>
      simp only [isOpened, isClosed, List.countP_cons, List.length_cons] at ih ⊢
      simp only [Bool.false_eq_true, ↓reduceIte]
      omega

/-- The events can be cut anywhere. -/
theorem of_append {xs ys : List EmitEvent} (h : Follows scopes (xs ++ ys) last) :
    ∃ middle, Follows middle ys last := by
  induction xs generalizing scopes with
  | nil => exact ⟨scopes, h⟩
  | cons event xs ih =>
      cases h with
      | matched _ hrest => exact ih hrest
      | opened hrest => exact ih hrest
      | closed hrest => exact ih hrest

/-- Paired events leave the open scopes as they were. -/
theorem of_paired {inside ys : List EmitEvent} (hinside : Paired inside)
    (h : Follows scopes (inside ++ ys) last) : Follows scopes ys last := by
  induction hinside generalizing scopes ys with
  | nil => exact h
  | matched pattern _ ih =>
      rw [List.append_assoc] at h
      cases ih h with
      | matched _ hrest => exact hrest
  | scope depth depth' kind kind' _ _ ihouter ihinside =>
      rw [List.append_assoc, List.append_assoc] at h
      cases ihouter h with
      | opened hrest =>
          cases ihinside hrest with
          | closed hafter => exact hafter

end Follows

/-! ## Which scope is closed -/

theorem Stacks.snoc_matched {scopes : List ScopeKind} {events : List EmitEvent}
    (h : Stacks scopes events) (pattern : List Char) :
    Stacks scopes (events ++ [.matched pattern]) := by
  cases scopes with
  | nil => exact Paired.matched pattern h
  | cons kind outer =>
      obtain ⟨outside, ⟨depth, inside, rfl, hinside⟩, houter⟩ := h
      refine ⟨outside, ⟨depth, inside ++ [.matched pattern], ?_, hinside.matched pattern⟩, houter⟩
      rw [List.append_assoc, List.cons_append]

theorem Stacks.snoc_opened {scopes : List ScopeKind} {events : List EmitEvent}
    (h : Stacks scopes events) (depth : Nat) (kind : ScopeKind) :
    Stacks (kind :: scopes) (events ++ [.opened depth kind]) :=
  ⟨events, ⟨depth, [], rfl, .nil⟩, h⟩

theorem Stacks.snoc_closed {scopes : List ScopeKind} {events : List EmitEvent}
    {kind : ScopeKind} (h : Stacks (kind :: scopes) events) (depth' : Nat) (kind' : ScopeKind) :
    Stacks scopes (events ++ [.closed depth' kind']) := by
  obtain ⟨outside, ⟨depth, inside, rfl, hinside⟩, houter⟩ := h
  cases scopes with
  | nil => exact Paired.scope depth depth' kind kind' houter hinside
  | cons outerKind outer =>
      -- the scope that is closed lies within the one that is now the innermost
      obtain ⟨further, ⟨outerDepth, between, rfl, hbetween⟩, hrest⟩ := houter
      refine ⟨further, ⟨outerDepth, _, ?_, hbetween.scope depth depth' kind kind' hinside⟩, hrest⟩
      simp only [List.append_assoc, List.cons_append]

/-- **A scope that is closed has been opened**, with all that is opened in between closed. -/
theorem Follows.exists_opening {scopes last : List ScopeKind} {events : List EmitEvent}
    (h : Follows scopes events last) {before xs ys : List EmitEvent} {depth : Nat}
    {kind : ScopeKind} (hbefore : Stacks scopes before)
    (hsplit : events = xs ++ .closed depth kind :: ys) :
    ∃ outside, Opening (before ++ xs) outside kind := by
  induction xs generalizing scopes before events with
  | nil =>
      subst hsplit
      cases h with
      | closed _ =>
          obtain ⟨outside, hopening, -⟩ := hbefore
          exact ⟨outside, by rw [List.append_nil]; exact hopening⟩
  | cons event xs ih =>
      subst hsplit
      have hcut : before ++ event :: xs = (before ++ [event]) ++ xs := by
        rw [List.append_assoc, List.singleton_append]
      rw [hcut]
      cases h with
      | matched pattern hrest => exact ih hrest (hbefore.snoc_matched pattern) rfl
      | opened hrest => exact ih hrest (hbefore.snoc_opened _ _) rfl
      | closed hrest => exact ih hrest (hbefore.snoc_closed _ _) rfl

/-- **Wherever it was opened, it was opened with the same kind.** -/
theorem Follows.kind_opening {scopes last : List ScopeKind} {before ys : List EmitEvent}
    {depth : Nat} {kind : ScopeKind} (h : Follows scopes (before ++ .closed depth kind :: ys) last)
    {outside : List EmitEvent} {other : ScopeKind} (hopening : Opening before outside other) :
    other = kind := by
  obtain ⟨depth', inside, rfl, hinside⟩ := hopening
  rw [List.append_assoc] at h
  obtain ⟨middle, hmiddle⟩ := h.of_append
  cases hmiddle with
  | opened hrest =>
      cases hrest.of_paired hinside with
      | closed _ => rfl

end EmitEvent

/-! ## Runs -/

namespace Emitter

open EmitEvent (Reports Follows)

/-- The kinds of the open scopes, the innermost first. -/
def scopeKinds (emitter : Emitter) : List ScopeKind :=
  emitter.scopes.map (·.kind)

/-- What is reported of a segment that is taken. -/
inductive Tells (emitter : Emitter) (segment : Segment) (next : Emitter) :
    Option EmitEvent → Prop where
  | opened : emitter.context = .code → segment.kind = .openBrace →
      next.scopeKinds = emitter.scopeKind :: emitter.scopeKinds →
      Tells emitter segment next (some (.opened (emitter.scopeKinds.length + 1) emitter.scopeKind))
  | closed {kind : ScopeKind} : emitter.context = .code → segment.kind = .closeBrace →
      emitter.scopeKinds = kind :: next.scopeKinds →
      Tells emitter segment next (some (.closed next.scopeKinds.length kind))
  | matched (pattern : List Char) : emitter.context = .code → segment.kind = .arrow →
      next.scopeKinds = emitter.scopeKinds → Tells emitter segment next (some (.matched pattern))
  | nothing : (emitter.context = .code → ¬IsStructural segment.kind) →
      next.scopeKinds = emitter.scopeKinds → Tells emitter segment next none

/-- **One segment** is reported if it is a brace or an arrow in code. -/
theorem Step.tells {options : Options} {emitter next : Emitter} {segment : Segment}
    (h : Step options emitter segment next) :
    Tells emitter segment next (emitter.report segment) := by
  have hlength : emitter.scopes.length = emitter.scopeKinds.length := (List.length_map _).symm
  have hout := h.output
  generalize next.pieces = pieces, hscopes : next.scopes = scopes at hout
  have hkinds : next.scopeKinds = scopes.map (·.kind) := congrArg _ hscopes
  cases hout with
  | opens hctx hkind =>
      have hevent : emitter.report segment
          = some (.opened (emitter.scopeKinds.length + 1) emitter.scopeKind) := by
        unfold report
        rw [hctx, hkind, ← hlength]
      exact hevent ▸ .opened hctx hkind hkinds
  | @closes scope outer hctx hkind htop =>
      have hevent : emitter.report segment
          = some (.closed next.scopeKinds.length scope.kind) := by
        unfold report
        rw [hctx, hkind, htop, hkinds, List.length_map]
        rfl
      refine hevent ▸ .closed hctx hkind ?_
      rw [hkinds, scopeKinds, htop, List.map_cons]
  | assigns hctx hkind =>
      have hevent : emitter.report segment
          = some (.matched (Text.trim (Text.body emitter.line))) := by
        unfold report
        rw [hctx, hkind]
      exact hevent ▸ .matched _ hctx hkind hkinds
  | copies hcopied =>
      rw [report_of_copied hcopied]
      exact .nothing hcopied hkinds

/-- The event of a segment, if there is one, goes in front of the events of the rest. -/
theorem Tells.follows {emitter next : Emitter} {segment : Segment} {event : Option EmitEvent}
    (h : Tells emitter segment next event) {events : List EmitEvent} {last : List ScopeKind}
    (hrest : Follows next.scopeKinds events last) :
    Follows emitter.scopeKinds (event.toList ++ events) last := by
  cases h with
  | opened _ _ hscopes => exact .opened (hscopes ▸ hrest)
  | closed _ _ hscopes => rw [hscopes]; exact .closed hrest
  | matched pattern _ _ hscopes => exact .matched pattern (hscopes ▸ hrest)
  | nothing _ hscopes => exact hscopes ▸ hrest

/-- The braces and arrows among segments that are code. -/
def structural (segments : List Segment) : List Segment :=
  segments.filter fun segment => IsStructural segment.kind

/-- A segment that is reported is a brace or an arrow of the code, and the other way round. -/
theorem Tells.reports {emitter next : Emitter} {segment : Segment} {event : Option EmitEvent}
    (h : Tells emitter segment next event) {enclosing : Surroundings}
    (hcontext : emitter.context = enclosing.context) {segments : List Segment}
    {events : List EmitEvent}
    (hrest : List.Forall₂ (fun segment event => Reports segment.kind event)
      (structural (codeFrom (enclosing.after segment) segments)) events) :
    List.Forall₂ (fun segment event => Reports segment.kind event)
      (structural (codeFrom enclosing (segment :: segments))) (event.toList ++ events) := by
  have hcode : emitter.context = .code → enclosing = .within [] := fun hctx =>
    Surroundings.context_eq_code.mp (hcontext.symm.trans hctx)
  have htaken : emitter.context = .code → IsStructural segment.kind →
      structural (codeFrom enclosing (segment :: segments))
        = segment :: structural (codeFrom (enclosing.after segment) segments) := by
    intro hctx hkind
    rw [codeFrom, if_pos (hcode hctx), structural, List.filter_cons_of_pos (by simpa using hkind),
      structural]
  cases h with
  | opened hctx hkind _ =>
      rw [htaken hctx (.inl hkind)]
      exact .cons (by rw [hkind]; exact .opening _ _) hrest
  | closed hctx hkind _ =>
      rw [htaken hctx (.inr (.inl hkind))]
      exact .cons (by rw [hkind]; exact .closing _ _) hrest
  | matched pattern hctx hkind _ =>
      rw [htaken hctx (.inr (.inr hkind))]
      exact .cons (by rw [hkind]; exact .arrow _) hrest
  | nothing hcopied _ =>
      rw [codeFrom]
      split
      · rename_i hwithin
        have hctx : emitter.context = .code := by rw [hcontext, hwithin]; rfl
        rw [structural, List.filter_cons_of_neg (by simpa using hcopied hctx)]
        exact hrest
      · exact hrest

/-- How far a run gets: it takes the segments `taken` and ends in the state `last`, and the next
segment, if there is one, is refused. -/
structure Stops (options : Options) (emitter : Emitter) (segments taken : List Segment)
    (last : Emitter) : Prop where
  accepts : Accepts options emitter taken last
  refused : segments = taken ∧ (emitter.feedAll options segments).2 = .ok last
    ∨ ∃ segment after next fault, segments = taken ++ segment :: after
      ∧ last.feed options segment = (next, .error fault)
      ∧ (emitter.feedAll options segments).2 = .error fault

/-- **A run reports the braces and arrows of the code that it takes**, in order, and follows the
scopes that they open and close. -/
theorem feedAll_follows (options : Options) (segments : List Segment) (emitter : Emitter)
    {enclosing : Surroundings} (hcontext : emitter.context = enclosing.context) :
    ∃ taken last, Stops options emitter segments taken last
      ∧ Follows emitter.scopeKinds (emitter.feedAll options segments).1 last.scopeKinds
      ∧ List.Forall₂ (fun segment event => Reports segment.kind event)
        (structural (codeFrom enclosing taken)) (emitter.feedAll options segments).1 := by
  -- on the segments, with what encloses them carried along
  induction segments generalizing emitter enclosing with
  | nil => exact ⟨[], emitter, ⟨rfl, .inl ⟨rfl, rfl⟩⟩, .nil _, .nil⟩
  | cons segment segments ih =>
      cases hfeed : emitter.feed options segment with
      | mk next result =>
          cases result with
          | error fault =>
              -- nothing is taken, so nothing is reported
              have hevents : (emitter.feedAll options (segment :: segments)).1 = [] := by
                rw [feedAll, hfeed]
              refine ⟨[], emitter, ⟨rfl, .inr ⟨segment, segments, next, fault, rfl, hfeed,
                feedAll_cons_error hfeed segments⟩⟩, ?_, ?_⟩
              · rw [hevents]; exact .nil _
              · rw [hevents]; exact .nil
          | ok event =>
              have hstep := feed_ok hfeed
              have hevents := feedAll_cons_events hstep segments
              have hresult := feedAll_cons_ok hfeed segments
              have hcontext' : next.context = (enclosing.after segment).context :=
                Surroundings.context_after (hcontext ▸ hstep.context)
              obtain ⟨taken, last, ⟨haccepts, hrefused⟩, hfollows, hreports⟩ := ih next hcontext'
              refine ⟨segment :: taken, last, ⟨hstep.accepts haccepts, ?_⟩, ?_, ?_⟩
              · rw [hresult]
                rcases hrefused with ⟨rfl, hok⟩ | ⟨refused, after, next', fault, rfl, hrest⟩
                · exact .inl ⟨rfl, hok⟩
                · exact .inr ⟨refused, after, next', fault, rfl, hrest⟩
              · rw [hevents]; exact hstep.tells.follows hfollows
              · rw [hevents]; exact hstep.tells.reports hcontext hreports

end Emitter

/-! ## Whole scripts -/

open EmitEvent (DepthsFrom Opening Paired Reports isOpened isClosed)

/-- The events of a run that fails. -/
theorem trace_of_error {options : Options} {cs : List Char} {fault : Fault Nat}
    (h : (emit options (lex cs)).2 = .error fault) :
    trace options cs
      = ⟨.lexed (Text.byteSize cs) (lex cs).length
          :: (({} : Emitter).feedAll options (lex cs)).1.map .emitted,
        .error (fault.locate cs)⟩ := by
  have hsteps : (emit options (lex cs)).1 = (({} : Emitter).feedAll options (lex cs)).1 := rfl
  unfold trace
  dsimp only
  rw [h, hsteps]

/-- The events of a run that ends well. -/
theorem trace_of_ok {options : Options} {cs : List Char} {pieces : List Piece}
    (h : (emit options (lex cs)).2 = .ok pieces) :
    trace options cs
      = ⟨.lexed (Text.byteSize cs) (lex cs).length
          :: (({} : Emitter).feedAll options (lex cs)).1.map .emitted
            ++ [.assembled pieces.length (Text.byteSize (Piece.assemble pieces))],
        .ok (Piece.assemble pieces)⟩ := by
  have hsteps : (emit options (lex cs)).1 = (({} : Emitter).feedAll options (lex cs)).1 := rfl
  unfold trace
  dsimp only
  rw [h, hsteps]

/-- A run that takes all segments and may end there has closed all scopes that it has opened. -/
theorem Emitter.Stops.closed {options : Options} {segments taken : List Segment} {last : Emitter}
    (h : Stops options {} segments taken last) {pieces : List Piece}
    (hemit : (emit options segments).2 = .ok pieces) : last.scopeKinds = [] := by
  rcases h.refused with ⟨-, hok⟩ | ⟨_, _, _, fault, -, -, herror⟩
  · rw [emit_of_accepts hok] at hemit
    rw [scopeKinds, (finish_ok hemit).2]
    rfl
  · rw [emit_of_error herror] at hemit
    cases hemit

/-- **What a run reports is in order.** First come the sizes of the script. Then, one for each brace
and arrow of the code that is taken and in their order, come scopes and matches, up to the segment
that is refused if there is one. Depths go up and down by one, and a scope is closed with the kind
with which it was opened. The run ends well if and only if it says so in its last event, with the
size of the Lua and all scopes closed. -/
theorem events_follow_scopes (options : Options) (source : String) :
    ∃ steps ending taken last,
      (trace options source.toList).events
          = .lexed source.utf8ByteSize (lex source.toList).length :: steps.map .emitted ++ ending
      ∧ DepthsFrom 0 steps
      ∧ (∀ before depth kind after, steps = before ++ .closed depth kind :: after →
          (∃ outside, Opening before outside kind)
          ∧ ∀ outside other, Opening before outside other → other = kind)
      ∧ Emitter.Stops options {} (lex source.toList) taken last
      ∧ List.Forall₂ (fun segment event => Reports segment.kind event)
          (Emitter.structural (code taken)) steps
      ∧ (∀ out, transpile options source = .ok out →
          ∃ pieces, ending = [.assembled pieces out.utf8ByteSize]
            ∧ steps.countP isClosed = steps.countP isOpened)
      ∧ (∀ e, transpile options source = .error e → ending = [])
      ∧ ((∃ out, transpile options source = .ok out)
        ↔ ∃ pieces bytes,
          (trace options source.toList).events.getLast? = some (.assembled pieces bytes)) := by
  have hstart : ({} : Emitter).context = (Surroundings.within []).context := rfl
  obtain ⟨taken, last, hstops, hfollows, hreports⟩ :=
    Emitter.feedAll_follows options (lex source.toList) {} hstart
  generalize hsteps : (({} : Emitter).feedAll options (lex source.toList)).1 = steps at *
  have hkinds : ∀ before depth kind after, steps = before ++ .closed depth kind :: after →
      (∃ outside, Opening before outside kind)
      ∧ ∀ outside other, Opening before outside other → other = kind := by
    intro before depth kind after hsplit
    have hnone : EmitEvent.Stacks [] [] := Paired.nil
    refine ⟨hfollows.exists_opening hnone hsplit, fun outside other hopening => ?_⟩
    rw [hsplit] at hfollows
    exact hfollows.kind_opening hopening
  cases hemit : (emit options (lex source.toList)).2 with
  | error fault =>
      have htranspile := transpile_of_error hemit
      have htrace := trace_of_error hemit
      rw [hsteps, Text.byteSize_toList] at htrace
      refine ⟨steps, [], taken, last, ?_, hfollows.depths, hkinds, hstops, hreports, ?_, ?_, ?_⟩
      · rw [htrace, List.append_nil]
      · intro out hout
        rw [htranspile] at hout
        cases hout
      · intro _ _
        rfl
      · constructor
        · rintro ⟨out, hout⟩
          rw [htranspile] at hout
          cases hout
        · -- the last event tells of a segment, or is the first one
          rintro ⟨pieces, bytes, hlast⟩
          rw [htrace] at hlast
          have hmem := List.mem_of_getLast? hlast
          simp at hmem
  | ok pieces =>
      have htranspile := transpile_of_ok hemit
      have htrace := trace_of_ok hemit
      rw [hsteps, Text.byteSize_toList] at htrace
      refine ⟨steps, _, taken, last, by rw [htrace], hfollows.depths, hkinds, hstops, hreports,
        ?_, ?_, ?_⟩
      · intro out hout
        rw [htranspile] at hout
        cases hout
        refine ⟨pieces.length, ?_, ?_⟩
        · rw [← Text.byteSize_toList, String.toList_ofList]
        · have hcount := hfollows.count
          rw [hstops.closed hemit] at hcount
          exact hcount.symm
      · intro e he
        rw [htranspile] at he
        cases he
      · refine ⟨fun _ => ?_, fun _ => ⟨_, htranspile⟩⟩
        rw [htrace]
        exact ⟨_, _, List.getLast?_concat⟩

end Keybind
