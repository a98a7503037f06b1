import Keybind.Proofs.Lines
import Keybind.Proofs.Lossless
import Keybind.Proofs.Seams
import Keybind.Proofs.Verdict

/-!
# Scripts put together at a newline

Two scripts with a newline between them become the two Lua texts with a newline
between them. The lexer has been dealt with: the segments are those of the first
script, a line break, and those of the second further on in the source. So the
emitter takes the second script in a state that differs from the first one in
three ways: there is output already, scopes may be open, and all offsets are
larger. `Emitter.onto` puts a state on top of another with these three changes,
and a step on top of a line break is the same step (`Step.onto`), because an
arrow takes nothing back beyond it.

Where the second script has a fault, its place is that many lines further down
and in the same column, since it follows a newline.
-/

namespace Keybind

/-! ## The same elsewhere -/

/-- The opener at another place. -/
def Opener.relocate (f : Nat → Nat) (opener : Opener) : Opener :=
  { opener with offset := f opener.offset }

/-- The scope at another place. -/
def Scope.relocate (f : Nat → Nat) (scope : Scope) : Scope :=
  { scope with offset := f scope.offset }

namespace Context

/-- The context with its openers at other places. -/
def relocate (f : Nat → Nat) : Context → Context
  | code => code
  | lineComment => lineComment
  | longBracket openers => longBracket (openers.map (Opener.relocate f))

theorem relocate_eq_code {context : Context} {f : Nat → Nat} :
    context.relocate f = code ↔ context = code := by
  cases context <;> simp [relocate]

theorem relocate_ofOpeners (openers : List Opener) (f : Nat → Nat) :
    (ofOpeners openers).relocate f = ofOpeners (openers.map (Opener.relocate f)) := by
  cases openers <;> rfl

theorem heeds_relocate {context : Context} {f : Nat → Nat} {kind : SegmentKind} :
    (context.relocate f).Heeds kind ↔ context.Heeds kind := by
  cases context <;> exact Iff.rfl

/-- Elsewhere in a source the context moves alike, and faults are elsewhere. -/
theorem Moves.relocate {context next : Context} {segment segment' : Segment}
    {fault : Option (Fault Nat)} {f : Nat → Nat} (h : Moves segment context next fault)
    (hkind : segment'.kind = segment.kind) (hstart : segment'.span.start = f segment.span.start) :
    Moves segment' (context.relocate f) (next.relocate f) (fault.map (Fault.map f)) := by
  cases h with
  | comment hk => exact .comment (hkind.trans hk)
  | newline hk => exact .newline (hkind.trans hk)
  | opener hk =>
      have hmoves := Moves.opener (hkind.trans hk)
      rw [hstart] at hmoves
      exact hmoves
  | @nested _ openers hk =>
      have hmoves : Moves segment' (.longBracket (openers.map (Opener.relocate f))) _ _ :=
        .nested (hkind.trans hk)
      rw [hstart] at hmoves
      exact hmoves
  | closer hk hlevel =>
      rw [relocate_ofOpeners]
      exact .closer (hkind.trans hk) hlevel
  | stray hk =>
      have hmoves := Moves.stray (hkind.trans hk)
      rw [hstart] at hmoves
      exact hmoves
  | @unfit openers found hk hlevel =>
      have hmoves : Moves segment' (.longBracket (openers.map (Opener.relocate f))) _ _ :=
        .unfit (hkind.trans hk) fun innermost hinnermost => by
          rw [List.head?_map] at hinnermost
          obtain ⟨opener, hopener, rfl⟩ := Option.map_eq_some_iff.mp hinnermost
          exact hlevel opener hopener
      rw [hstart, List.head?_map, Option.map_map, ← List.map_tail] at hmoves
      exact hmoves
  | other hnone =>
      refine .other ?_
      rw [hkind, heeds_relocate]
      exact hnone

theorem advance_relocate (context : Context) {segment segment' : Segment} {f : Nat → Nat}
    (hkind : segment'.kind = segment.kind) (hstart : segment'.span.start = f segment.span.start) :
    (context.relocate f).advance segment'
      = ((context.advance segment).1.relocate f, (context.advance segment).2.map (Fault.map f)) :=
  ((context.moves segment).relocate hkind hstart).advance_eq

end Context

/-! ## The same further on -/

/-- The opener further on in a source. -/
def Opener.shift (bytes : Nat) (opener : Opener) : Opener :=
  opener.relocate (· + bytes)

/-- The scope further on in a source. -/
def Scope.shift (bytes : Nat) (scope : Scope) : Scope :=
  scope.relocate (· + bytes)

namespace Context

/-- The context further on in a source. -/
def shift (bytes : Nat) (context : Context) : Context :=
  context.relocate (· + bytes)

theorem shift_eq_code {context : Context} {bytes : Nat} :
    context.shift bytes = code ↔ context = code :=
  relocate_eq_code

/-- Further on in a source the context moves alike, and faults are further on. -/
theorem advance_shift (context : Context) (segment : Segment) (bytes : Nat) :
    (context.shift bytes).advance (segment.shift bytes)
      = ((context.advance segment).1.shift bytes,
        (context.advance segment).2.map (Fault.map (· + bytes))) :=
  advance_relocate context rfl rfl

end Context

namespace Emitter

/-! ## A state on top of another -/

variable {options : Options} {emitter next last base : Emitter} {segment : Segment}
  {segments : List Segment} {bytes : Nat}

/-- The state in which `emitter` is once its script follows, so many bytes further on, the output
and the open scopes of `base`. -/
def onto (emitter base : Emitter) (bytes : Nat) : Emitter where
  pieces := emitter.pieces ++ base.pieces
  scopes := emitter.scopes.map (Scope.shift bytes) ++ base.scopes
  context := emitter.context.shift bytes
  afterArrow := emitter.afterArrow

/-- On top of whole lines the current line is the same, and the lines before are added to. -/
theorem line_onto (emitter : Emitter) (hbase : base.linesBefore = base.pieces) (bytes : Nat) :
    (emitter.onto base bytes).line = emitter.line
      ∧ (emitter.onto base bytes).linesBefore = emitter.linesBefore ++ base.pieces := by
  unfold linesBefore at hbase
  have hline : base.pieces.takeWhile (fun piece => !piece.isLineBreak) = [] := by
    have hcut := List.takeWhile_append_dropWhile (p := fun piece : Piece => !piece.isLineBreak)
      (l := base.pieces)
    rw [hbase] at hcut
    exact List.append_left_eq_self.mp hcut
  unfold line linesBefore onto
  dsimp only
  rw [List.takeWhile_append, List.dropWhile_append, hline, hbase, List.append_nil]
  constructor
  · split
    · rename_i hall
      rw [List.takeWhile_prefix _ |>.eq_of_length hall]
    · rfl
  · split
    · rename_i hnone
      rw [List.isEmpty_iff.mp hnone, List.nil_append]
    · rfl

/-- **A step on top of whole lines is the same step.** -/
theorem Step.onto (h : Step options emitter segment next)
    (hbase : base.linesBefore = base.pieces) (bytes : Nat) :
    Step options (emitter.onto base bytes) (segment.shift bytes) (next.onto base bytes) where
  context := by
    have hadvance := Context.advance_shift emitter.context segment bytes
    rw [h.context] at hadvance
    exact hadvance
  afterArrow := by
    have hctx : ((emitter.onto base bytes).context = .code) = (emitter.context = .code) :=
      propext Context.shift_eq_code
    have harrow := h.afterArrow
    unfold arrowAfter at harrow ⊢
    simp only [hctx]
    exact harrow
  output := by
    have hout := h.output
    have hctx : emitter.context = .code → (emitter.onto base bytes).context = .code :=
      Context.shift_eq_code.mpr
    obtain ⟨hline, hbefore⟩ := line_onto emitter hbase bytes
    unfold Emitter.onto
    dsimp only
    generalize next.pieces = pieces, next.scopes = scopes at hout
    cases hout with
    | opens hcode hkind => exact .opens (hctx hcode) hkind
    | @closes scope _ hcode hkind hscopes =>
        -- the scope that ends is one of its own, not one of those below
        have hscopes' : (emitter.onto base bytes).scopes
            = scope.shift bytes :: (scopes.map (Scope.shift bytes) ++ base.scopes) := by
          unfold Emitter.onto
          rw [hscopes]
          rfl
        have hcloses : Emits options (emitter.onto base bytes) (segment.shift bytes) _ _ :=
          .closes (hctx hcode) hkind hscopes'
        exact hcloses
    | assigns hcode hkind =>
        -- the only step that looks at the output, and it stops at the line break below
        have hassigns : Emits options (emitter.onto base bytes) (segment.shift bytes) _ _ :=
          .assigns (hctx hcode) hkind
        rw [hbefore] at hassigns
        unfold assignPiece at hassigns ⊢
        rw [hline] at hassigns
        exact hassigns
    | copies hcopied => exact .copies fun hcode => hcopied (Context.shift_eq_code.mp hcode)

/-- **A run on top of whole lines is the same run.** -/
theorem Accepts.onto (h : Accepts options emitter segments last)
    (hbase : base.linesBefore = base.pieces) (bytes : Nat) :
    Accepts options (emitter.onto base bytes) (segments.map (Lexeme.shift bytes))
      (last.onto base bytes) := by
  induction segments generalizing emitter with
  | nil =>
      rw [accepts_nil h]
      rfl
  | cons segment segments ih =>
      obtain ⟨next, hstep, hrest⟩ := accepts_cons h
      rw [List.map_cons]
      exact (hstep.onto hbase bytes).accepts (ih hrest)

/-- A segment that is not taken is not taken on top of whole lines either, if no scope is open
there. -/
theorem feed_onto_error {fault : Fault Nat}
    (h : emitter.feed options segment = (next, .error fault)) (hscopes : base.scopes = [])
    (bytes : Nat) :
    ∃ next', (emitter.onto base bytes).feed options (segment.shift bytes)
      = (next', .error (fault.map (· + bytes))) := by
  rcases feed_error h with hfault | ⟨hctx, hkind, hnone, rfl⟩
  · refine feed_of_fault ?_ options
    have hadvance := Context.advance_shift emitter.context segment bytes
    rw [hfault] at hadvance
    exact congrArg Prod.snd hadvance
  · have hscopes' : (emitter.onto base bytes).scopes = [] := by
      unfold Emitter.onto
      rw [hnone, hscopes]
      rfl
    have hkind' : (segment.shift bytes).kind = .closeBrace := hkind
    exact ⟨_, feed_of_excess (Context.shift_eq_code.mpr hctx) hkind' hscopes' options⟩

/-- So a run that fails fails there too, that much further on. -/
theorem feedAll_onto_error {fault : Fault Nat}
    (h : (emitter.feedAll options segments).2 = .error fault)
    (hbase : base.linesBefore = base.pieces) (hscopes : base.scopes = []) (bytes : Nat) :
    ((emitter.onto base bytes).feedAll options (segments.map (Lexeme.shift bytes))).2
      = .error (fault.map (· + bytes)) := by
  obtain ⟨before, segment, after, middle, next, rfl, hbefore, hfeed⟩ := feedAll_error h
  obtain ⟨next', hfeed'⟩ := feed_onto_error hfeed hscopes bytes
  rw [List.map_append, List.map_cons, feedAll_append_ok (hbefore.onto hbase bytes),
    feedAll_cons_error hfeed']

theorem outermost?_onto (emitter base : Emitter) (bytes : Nat) :
    (emitter.onto base bytes).outermost? = emitter.outermost?.map (Opener.shift bytes) := by
  unfold outermost? onto
  cases emitter.context with
  | code => rfl
  | lineComment => rfl
  | longBracket openers => exact List.getLast?_map

/-- The end of a script on top of another. -/
theorem finish_onto (options : Options) (emitter : Emitter) (hscopes : base.scopes = [])
    (bytes : Nat) :
    (emitter.onto base bytes).finish options
      = ((emitter.finish options).mapError (Fault.map (· + bytes))).map
        (base.pieces.reverse ++ ·) := by
  have hclosed : (options.rejectUnterminated = true → emitter.outermost? = none) →
      options.rejectUnterminated = true → (emitter.onto base bytes).outermost? = none := by
    intro hnone hreject
    rw [outermost?_onto, hnone hreject]
    rfl
  have hfinishes := emitter.finishes options
  generalize emitter.finish options = result at hfinishes ⊢
  refine Finishes.finish_eq ?_
  cases hfinishes with
  | bracket hreject hopener =>
      have hopener' := outermost?_onto emitter base bytes
      rw [hopener] at hopener'
      exact .bracket hreject hopener'
  | @brace scope outer hnone hopen =>
      have hopen' : (emitter.onto base bytes).scopes
          = scope.shift bytes :: (outer.map (Scope.shift bytes) ++ base.scopes) := by
        rw [onto, hopen]
        rfl
      exact .brace (hclosed hnone) hopen'
  | whole hnone hopen =>
      have hopen' : (emitter.onto base bytes).scopes = [] := by
        rw [onto, hopen, hscopes]
        rfl
      have hwhole := Finishes.whole (hclosed hnone) hopen'
      rw [onto, List.reverse_append] at hwhole
      exact hwhole

end Emitter

/-- **A script on top of whole lines** gives its own pieces after those, or its own fault further
on. -/
theorem emit_append {options : Options} {xs : List Segment} {base : Emitter} {bytes : Nat}
    (hrun : Emitter.Accepts options {} xs base) (hbase : base.linesBefore = base.pieces)
    (hscopes : base.scopes = []) (hfresh : ({} : Emitter).onto base bytes = base)
    (ys : List Segment) :
    (emit options (xs ++ ys.map (Lexeme.shift bytes))).2
      = ((emit options ys).2.mapError (Fault.map (· + bytes))).map
        (base.pieces.reverse ++ ·) := by
  have hcut := Emitter.feedAll_append_ok hrun (ys.map (Lexeme.shift bytes))
  cases hys : (({} : Emitter).feedAll options ys).2 with
  | error fault =>
      have hfails := Emitter.feedAll_onto_error hys hbase hscopes bytes
      rw [hfresh] at hfails
      rw [emit_of_error (hcut.trans hfails), emit_of_error hys]
      rfl
  | ok last =>
      have hends := Emitter.Accepts.onto hys hbase bytes
      rw [hfresh] at hends
      rw [emit_of_accepts (hcut.trans hends), emit_of_accepts hys,
        Emitter.finish_onto options last hscopes bytes]

/-! ## Places in a source put together -/

namespace Text

/-- Bytes of the first text are taken from it alone. -/
theorem takeBytes_append_left {a : List Char} {n : Nat} (h : n ≤ byteSize a) (b : List Char) :
    takeBytes n (a ++ b) = takeBytes n a := by
  induction a generalizing n with
  | nil =>
      obtain rfl : n = 0 := Nat.le_zero.mp h
      cases b with
      | nil => rfl
      | cons c b => exact if_neg (Nat.not_le.mpr c.utf8Size_pos)
  | cons c a ih =>
      rw [byteSize] at h
      rw [List.cons_append, takeBytes, takeBytes, ih (by omega)]

/-- Bytes beyond the first text are taken from the second. -/
theorem takeBytes_append_right (a b : List Char) (n : Nat) :
    takeBytes (n + byteSize a) (a ++ b) = a ++ takeBytes n b := by
  induction a with
  | nil => rfl
  | cons c a ih =>
      have hle : c.utf8Size ≤ n + byteSize (c :: a) := by
        rw [byteSize]
        omega
      have hrest : n + byteSize (c :: a) - c.utf8Size = n + byteSize a := by
        rw [byteSize]
        omega
      rw [List.cons_append, takeBytes, if_pos hle, hrest, ih, List.cons_append]

end Text

namespace Location

/-- The place so many lines further down. -/
def below (lines : Nat) (place : Location) : Location :=
  { place with line := place.line + lines }

theorem advance_below (place : Location) (lines : Nat) (c : Char) :
    (place.below lines).advance c = (place.advance c).below lines := by
  unfold advance
  split
  · exact congrArg (Location.mk · 1) (Nat.add_right_comm _ _ _)
  · rfl

theorem foldl_advance_below (cs : List Char) (place : Location) (lines : Nat) :
    cs.foldl advance (place.below lines) = (cs.foldl advance place).below lines := by
  induction cs generalizing place with
  | nil => rfl
  | cons c cs ih => rw [List.foldl_cons, List.foldl_cons, advance_below, ih]

/-- Every newline starts a line. -/
theorem line_foldl_advance (cs : List Char) (place : Location) :
    (cs.foldl advance place).line = place.line + cs.count '\n' := by
  induction cs generalizing place with
  | nil => rfl
  | cons c cs ih =>
      rw [List.foldl_cons, ih, advance]
      by_cases hc : c = '\n'
      · rw [if_pos hc, hc, List.count_cons_self]
        exact Nat.add_right_comm _ _ _
      · rw [if_neg hc, List.count_cons_of_ne hc]

/-- **What follows a newline keeps its columns.** -/
theorem ofOffset_newline (a b : List Char) (offset : Nat) :
    ofOffset (a ++ '\n' :: b) (offset + (Text.byteSize a + 1))
      = (ofOffset b offset).below (a.count '\n' + 1) := by
  have hbytes : offset + (Text.byteSize a + 1) = offset + Text.byteSize (a ++ ['\n']) := by
    rw [Text.byteSize_append]
    rfl
  have hseam : (a ++ ['\n']).foldl advance start = start.below (a.count '\n' + 1) := by
    have hline := line_foldl_advance a start
    rw [List.foldl_append, List.foldl_cons, List.foldl_nil, advance, if_pos rfl, hline]
    rfl
  unfold ofOffset
  rw [hbytes, List.append_cons a '\n' b, Text.takeBytes_append_right, List.foldl_append, hseam,
    foldl_advance_below]

end Location

namespace Fault

theorem map_map {π ρ σ : Type} (f : π → ρ) (g : ρ → σ) (fault : Fault π) :
    (fault.map f).map g = fault.map (g ∘ f) := by
  cases fault <;> rfl

/-- Only the place of the fault matters. -/
theorem map_congr {π ρ : Type} {f g : π → ρ} {fault : Fault π}
    (h : f fault.place = g fault.place) : fault.map f = fault.map g := by
  cases fault <;>
  · dsimp only [place] at h
    rw [map, map, h]

/-- A fault of the second of two sources. -/
theorem locate_newline (a b : List Char) (fault : Fault Nat) :
    (fault.map (· + (Text.byteSize a + 1))).locate (a ++ '\n' :: b)
      = (fault.locate b).map (Location.below (a.count '\n' + 1)) := by
  unfold locate
  rw [map_map, map_map]
  exact map_congr (Location.ofOffset_newline a b fault.place)

/-- A fault of the first of two sources. -/
theorem locate_append {a : List Char} {fault : Fault Nat} (h : fault.place ≤ Text.byteSize a)
    (b : List Char) : fault.locate (a ++ b) = fault.locate a := by
  refine map_congr ?_
  unfold Location.ofOffset
  rw [Text.takeBytes_append_left h]

end Fault

/-! ## Whole scripts -/

/-- The state at the start of the line after some output. -/
def Emitter.atLine (pieces : List Piece) : Emitter :=
  { pieces := .lineBreak ['\n'] :: pieces }

/-- Where no long bracket is open, a line break leads to code. -/
theorem Context.InStep.newline {emitter : Emitter} {mode : Mode} (h : emitter.context.InStep mode)
    (hclosed : emitter.outermost? = none) (cs : List Char) :
    emitter.context.advance (seam cs) = (.code, none) ∧ mode.follow .lineBreak = .code := by
  unfold Emitter.outermost? at hclosed
  generalize emitter.context = context at h hclosed
  cases h with
  | code => exact ⟨rfl, rfl⟩
  | lineComment => exact ⟨rfl, rfl⟩
  | longBracket hlength hdepth =>
      rw [List.getLast?_eq_none_iff.mp hclosed] at hlength
      subst hlength
      exact absurd hdepth (by decide)

/-- The line break after a script leads to a fresh line. -/
theorem Emitter.step_seam (options : Options) {emitter : Emitter} {cs : List Char}
    (hcontext : emitter.context.advance (seam cs) = (.code, none))
    (hscopes : emitter.scopes = []) :
    Step options emitter (seam cs) (.atLine emitter.pieces) where
  context := hcontext
  afterArrow := by
    have hkind : (seam cs).kind ≠ .whitespace := nofun
    rw [arrowAfter, if_neg hkind]
    exact (Bool.and_false _).symm
  output := by
    have hplain : ¬IsStructural .lineBreak := by decide
    have hcopies : Emits options emitter (seam cs) _ _ := .copies fun _ => hplain
    rw [hscopes] at hcopies
    exact hcopies

/-- No long bracket is open at the end of a script that becomes Lua, where that is not let pass. -/
theorem outermost?_of_transpile {options : Options} (hreject : options.rejectUnterminated = true)
    {source out : String} (h : transpile options source = .ok out) {last : Emitter}
    (hrun : Emitter.Accepts options {} (lex source.toList) last) : last.outermost? = none := by
  cases hopen : last.outermost? with
  | none => rfl
  | some opener =>
      have hfinish := (Emitter.Finishes.bracket hreject hopen).finish_eq
      rw [transpile_of_error ((emit_of_accepts hrun).trans hfinish)] at h
      cases h

/-- **A script that becomes Lua ends in code or in a line comment**, with no scope open. The line
break after it leads to a fresh line, for the lexer and for the emitter. -/
theorem ends_fresh {options : Options} (hreject : options.rejectUnterminated = true)
    {source out : String} (h : transpile options source = .ok out) :
    ∃ pieces, Emitter.Accepts options {} (lex source.toList ++ [seam source.toList])
        (.atLine pieces)
      ∧ (endMode source.toList).follow .lineBreak = .code
      ∧ out = String.ofList (Piece.assemble pieces.reverse) := by
  obtain ⟨last, hrun, hscopes, hout⟩ := transpile_ok h
  have hinStep : last.context.InStep (endMode source.toList) :=
    inStep_of_accepts hrun
  obtain ⟨hcontext, hmode⟩ :=
    hinStep.newline (outermost?_of_transpile hreject h hrun) source.toList
  have hseam := Emitter.step_seam options hcontext hscopes
  exact ⟨last.pieces, hrun.append (hseam.accepts rfl), hmode, hout⟩

theorem toList_newline (a b : String) :
    (a ++ "\n" ++ b).toList = a.toList ++ '\n' :: b.toList := by
  rw [String.toList_append, String.toList_append, List.append_assoc]
  rfl

/-- **After a script that becomes Lua**, a script becomes what it becomes alone. -/
theorem transpile_after {options : Options} (hreject : options.rejectUnterminated = true)
    {a x : String} (hlast : a.toList.getLast? ≠ some '\\') (ha : transpile options a = .ok x)
    (b : String) :
    transpile options (a ++ "\n" ++ b)
      = ((transpile options b).mapError
        (Fault.map (Location.below (a.toList.count '\n' + 1)))).map (x ++ "\n" ++ ·) := by
  obtain ⟨pieces, hrun, hmode, rfl⟩ := ends_fresh hreject ha
  have hsource := toList_newline a b
  have hlex : lex (a ++ "\n" ++ b).toList = lex a.toList ++ [seam a.toList]
      ++ (lex b.toList).map (Lexeme.shift (Text.byteSize a.toList + 1)) := by
    rw [hsource, lex_newline_code (joins_of_getLast hlast _) hmode, List.append_assoc,
      List.singleton_append]
  rw [transpile_eq_emit, hlex, emit_append hrun rfl rfl rfl, transpile_eq_emit options b]
  cases (emit options (lex b.toList)).2 with
  | error fault =>
      rw [hsource]
      exact congrArg Except.error (Fault.locate_newline a.toList b.toList fault)
  | ok pieces' =>
      have htext : Piece.assemble ((Emitter.atLine pieces).pieces.reverse ++ pieces')
          = Piece.assemble pieces.reverse ++ "\n".toList ++ Piece.assemble pieces' := by
        unfold Piece.assemble Emitter.atLine
        rw [List.flatMap_append, List.reverse_cons, List.flatMap_append, List.flatMap_singleton]
        rfl
      refine congrArg Except.ok ?_
      dsimp only
      rw [htext, String.ofList_append, String.ofList_append, String.ofList_toList]

/-- A segment that offends does so at its own place, which lies in the source. -/
theorem place_le {options : Options} {cs : List Char} {fault : Fault Nat}
    (h : (({} : Emitter).feedAll options (lex cs)).2 = .error fault) :
    fault.place ≤ Text.byteSize cs := by
  obtain ⟨before, segment, after, middle, next, hsplit, hbefore, hfeed⟩ := Emitter.feedAll_error h
  have hplace : fault.place = segment.span.start := by
    have hoffends := (Tracks.of_accepts hbefore).offends hfeed
    cases hoffends <;> rfl
  have hmem : segment ∈ Lexeme.layOut 0 (bareSegments cs) := by
    rw [← lex_eq_layOut, hsplit]
    exact List.mem_append_right _ List.mem_cons_self
  obtain ⟨earlier, later, hbare, hstart, -⟩ := Lexeme.mem_layOut hmem
  rw [hplace, hstart, Nat.zero_add, ← text_bareSegments cs, hbare, List.flatMap_append,
    Text.byteSize_append]
  exact Nat.le_add_right _ _

/-- A closer or a closing brace without its partner is met while the segments are taken. -/
theorem run_fails {options : Options} {source : String} {e : TranspileError}
    (h : transpile options source = .error e)
    (he : (∃ place, e = .unbalancedClose place)
      ∨ ∃ place opened found, e = .mismatchedLongBracket place opened found) :
    ∃ fault, (({} : Emitter).feedAll options (lex source.toList)).2 = .error fault
      ∧ e = fault.locate source.toList := by
  cases hrun : (({} : Emitter).feedAll options (lex source.toList)).2 with
  | error fault =>
      rw [transpile_of_error (emit_of_error hrun)] at h
      exact ⟨fault, rfl, (Except.error.inj h).symm⟩
  | ok last =>
      -- at the end only what is still open is a fault
      have hemit := emit_of_accepts hrun
      have hfinishes := last.finishes options
      generalize last.finish options = result at hemit hfinishes
      cases hfinishes with
      | bracket =>
          rw [transpile_of_error hemit] at h
          cases h
          obtain ⟨_, he⟩ | ⟨_, _, _, he⟩ := he <;> cases he
      | brace =>
          rw [transpile_of_error hemit] at h
          cases h
          obtain ⟨_, he⟩ | ⟨_, _, _, he⟩ := he <;> cases he
      | whole =>
          rw [transpile_of_ok hemit] at h
          cases h

/-- **Scripts are put together at newlines.** After a script that becomes Lua, another becomes what
it becomes alone: its Lua follows on the next line, or its fault is that many lines further down. A
script that has failed before its end fails alike whatever follows. -/
theorem transpile_newline {options : Options} (hreject : options.rejectUnterminated = true)
    {a : String} (hlast : a.toList.getLast? ≠ some '\\') (b : String) :
    (∀ x y, transpile options a = .ok x → transpile options b = .ok y →
        transpile options (a ++ "\n" ++ b) = .ok (x ++ "\n" ++ y))
      ∧ (∀ x e, transpile options a = .ok x → transpile options b = .error e →
        transpile options (a ++ "\n" ++ b)
          = .error (e.map fun place =>
            { place with line := place.line + (a.toList.count '\n' + 1) }))
      ∧ (∀ e, transpile options a = .error e →
        ((∃ place, e = .unbalancedClose place)
          ∨ ∃ place opened found, e = .mismatchedLongBracket place opened found) →
        transpile options (a ++ "\n" ++ b) = .error e) := by
  refine ⟨fun x y ha hb => ?_, fun x e ha hb => ?_, fun e ha he => ?_⟩
  · rw [transpile_after hreject hlast ha, hb]
    rfl
  · rw [transpile_after hreject hlast ha, hb]
    rfl
  · obtain ⟨fault, hrun, rfl⟩ := run_fails ha he
    have hfails : (({} : Emitter).feedAll options (lex (a ++ "\n" ++ b).toList)).2
        = .error fault := by
      rw [toList_newline, lex_newline (joins_of_getLast hlast _)]
      exact Emitter.feedAll_append_error hrun _
    rw [transpile_of_error (emit_of_error hfails), toList_newline,
      Fault.locate_append (place_le hrun)]

/-- A script that ends with an open quotation mark, before one that becomes Lua and one that closes
a brace too many; and that one before another. -/
theorem transpile_newline_quote :
    transpile {} "a => b\n\x27" = .ok "__match[a] = b\n\x27"
      ∧ transpile {} "c => \x27" = .ok "__match[c] = \x27"
      ∧ transpile {} "c\n \x7d" = .error (.unbalancedClose ⟨2, 2⟩)
      ∧ transpile {} ("a => b\n\x27" ++ "\n" ++ "c => \x27")
        = .ok ("__match[a] = b\n\x27" ++ "\n" ++ "__match[c] = \x27")
      ∧ transpile {} ("a => b\n\x27" ++ "\n" ++ "c\n \x7d") = .error (.unbalancedClose ⟨4, 2⟩)
      ∧ transpile {} ("c\n \x7d" ++ "\n" ++ "a => b\n\x27")
        = .error (.unbalancedClose ⟨2, 2⟩) := by
  have ha : transpile {} "a => b\n\x27" = .ok "__match[a] = b\n\x27" := by rfl
  have hb : transpile {} "c => \x27" = .ok "__match[c] = \x27" := by rfl
  have hc : transpile {} "c\n \x7d" = .error (.unbalancedClose ⟨2, 2⟩) := by rfl
  exact ⟨ha, hb, hc, (transpile_newline rfl (by decide) "c => \x27").1 _ _ ha hb,
    (transpile_newline rfl (by decide) "c\n \x7d").2.1 _ _ ha hc,
    (transpile_newline rfl (by decide) "a => b\n\x27").2.2 _ hc (.inl ⟨_, rfl⟩)⟩

end Keybind
