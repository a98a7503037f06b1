import Keybind.Proofs.Runs
import Keybind.Proofs.Spelling
import Mathlib.Data.List.Infix
import Mathlib.Data.List.TakeWhile

/-!
# Writing line by line

The emitter takes output back: an arrow removes everything since the last line
break and puts an assignment there. Nothing it removes lies before a line break,
so the same output can be written without ever taking anything back. Cut the
segments at the line breaks, and write each line for itself from left to right
into a text that starts empty. An arrow replaces that text, a brace of a match
scope adds its replacement, everything else adds what it says.

What becomes of a segment depends on where it stands, and that goes on from line
to line: the context, the scopes that are open, and whether an arrow has just
been met. `Standing` is that much of the emitter's state and no more; in
particular it holds no output.
-/

namespace Keybind

/-! ## The writer of lines -/

/-- What becomes of a segment. -/
inductive Role where
  /-- An arrow in code. -/
  | assign
  /-- The brace that opens a match scope. -/
  | openBody
  /-- The brace that closes a match scope. -/
  | closeBody
  | copied
  deriving DecidableEq, Repr

/-- Where a segment stands. -/
structure Standing where
  context : Context := .code
  /-- The kinds of the open scopes, the innermost first. -/
  scopes : List ScopeKind := []
  /-- Whether the last segment other than white space was an arrow in code. -/
  afterArrow : Bool := false
  deriving DecidableEq, Repr

namespace Standing

/-- What becomes of a segment that stands here. -/
def role (standing : Standing) (segment : Segment) : Role :=
  match standing.context, segment.kind with
  | .code, .arrow => .assign
  | .code, .openBrace => if standing.afterArrow then .openBody else .copied
  | .code, .closeBrace => if standing.scopes.head? = some .body then .closeBody else .copied
  | _, _ => .copied

/-- The scopes after a segment that stands here. -/
def scopesAfter (standing : Standing) (segment : Segment) : List ScopeKind :=
  match standing.context, segment.kind with
  | .code, .openBrace => (if standing.afterArrow then .body else .literal) :: standing.scopes
  | .code, .closeBrace => standing.scopes.tail
  | _, _ => standing.scopes

/-- Where the next segment stands. -/
def after (standing : Standing) (segment : Segment) : Standing where
  context := (standing.context.advance segment).1
  scopes := standing.scopesAfter segment
  afterArrow :=
    if segment.kind = .whitespace then standing.afterArrow
    else standing.context = .code && segment.kind = .arrow

/-- A segment that is only copied in code is copied everywhere, and leaves the scopes alone. -/
theorem of_not_structural (standing : Standing) (segment : Segment)
    (h : standing.context = .code → ¬Emitter.IsStructural segment.kind) :
    standing.role segment = .copied ∧ standing.scopesAfter segment = standing.scopes := by
  unfold role scopesAfter
  cases hcontext : standing.context with
  | lineComment => exact ⟨rfl, rfl⟩
  | longBracket openers => exact ⟨rfl, rfl⟩
  | code =>
      have hplain := h hcontext
      cases hkind : segment.kind with
      | arrow => exact absurd (.inr (.inr hkind)) hplain
      | openBrace => exact absurd (.inl hkind) hplain
      | closeBrace => exact absurd (.inr (.inl hkind)) hplain
      | _ => exact ⟨rfl, rfl⟩

end Standing

/-- The segments, each with what becomes of it. -/
def roles (standing : Standing) : List Segment → List (Role × Segment)
  | [] => []
  | segment :: segments =>
    (standing.role segment, segment) :: roles (standing.after segment) segments

/-- The segments of each line, without the line breaks. -/
def lines (items : List (Role × Segment)) : List (List (Role × Segment)) :=
  items.splitOnP fun item => item.2.kind = .lineBreak

/-- The text of a line once one more segment is written. -/
def write (options : Options) (line : List Char) (item : Role × Segment) : List Char :=
  match item.1 with
  | .assign =>
    Text.indent line ++ options.matchTable.toList ++ ['['] ++ Text.trim (Text.body line)
      ++ "] =".toList
  | .openBody => line ++ options.scopeOpen
  | .closeBody => line ++ "end)".toList
  | .copied => line ++ item.2.text

/-- The text of a line. -/
def lineOut (options : Options) (line : List (Role × Segment)) : List Char :=
  line.foldl (write options) []

/-- All that is written from the middle of a line on. -/
def writeOn (options : Options) (line : List Char) : List (Role × Segment) → List Char
  | [] => line
  | item :: items =>
    if item.2.kind = .lineBreak then line ++ item.2.text ++ writeOn options [] items
    else writeOn options (write options line item) items

/-- Writing on is writing line by line, the first line from its middle on. -/
theorem writeOn_eq (options : Options) (items : List (Role × Segment)) :
    (∀ item ∈ items, item.2.kind = .lineBreak → item.2.text = ['\n']) →
    ∀ line first rest, lines items = first :: rest →
      writeOn options line items
        = ['\n'].intercalate (first.foldl (write options) line :: rest.map (lineOut options)) := by
  induction items with
  | nil =>
      intro _ line first rest hlines
      cases hlines
      rw [writeOn, List.map_nil, List.intercalate_singleton]
      rfl
  | cons item items ih =>
      intro hbreak line first rest hlines
      have hbreak' := fun x hx => hbreak x (List.mem_cons_of_mem item hx)
      obtain ⟨next, others, hnext⟩ := List.exists_cons_of_ne_nil
        (List.splitOnP_ne_nil (fun item : Role × Segment => item.2.kind = .lineBreak) items)
      unfold lines at hlines
      rw [List.splitOnP_cons_eq_if_modifyHead, hnext] at hlines
      by_cases hk : item.2.kind = .lineBreak
      · -- the first line ends here, and the next one starts from nothing
        rw [if_pos (decide_eq_true hk)] at hlines
        cases hlines
        rw [writeOn, if_pos hk, hbreak item List.mem_cons_self hk, ih hbreak' [] next others hnext,
          List.map_cons, List.intercalate_cons_cons]
        rfl
      · -- the segment belongs to the first line
        rw [if_neg (by simpa using hk)] at hlines
        cases hlines
        rw [writeOn, if_neg hk, ih hbreak' _ next rest hnext]
        rfl

/-- **Writing on from nothing is writing line by line.** -/
theorem writeOn_nil (options : Options) {items : List (Role × Segment)}
    (h : ∀ item ∈ items, item.2.kind = .lineBreak → item.2.text = ['\n']) :
    writeOn options [] items = ['\n'].intercalate ((lines items).map (lineOut options)) := by
  obtain ⟨first, rest, hlines⟩ : ∃ first rest, lines items = first :: rest :=
    List.exists_cons_of_ne_nil (List.splitOnP_ne_nil _ items)
  rw [writeOn_eq options items h [] first rest hlines, hlines, List.map_cons]
  rfl

/-! ## The emitter is such a writer -/

namespace Emitter

/-- Where the next segment stands. -/
def standing (emitter : Emitter) : Standing :=
  ⟨emitter.context, emitter.scopes.map (·.kind), emitter.afterArrow⟩

theorem assemble_eq (emitter : Emitter) :
    Piece.assemble emitter.pieces.reverse
      = Piece.assemble emitter.linesBefore.reverse ++ emitter.line := by
  unfold line linesBefore Piece.assemble
  rw [← List.flatMap_append, ← List.reverse_append, List.takeWhile_append_dropWhile]

theorem line_of_add {emitter next : Emitter} {piece : Piece}
    (h : next.pieces = piece :: emitter.pieces) (hpiece : piece.isLineBreak = false) :
    next.line = emitter.line ++ piece.text ∧ next.linesBefore = emitter.linesBefore := by
  unfold line linesBefore Piece.assemble
  rw [h, List.takeWhile_cons_of_pos (by rw [hpiece]; rfl),
    List.dropWhile_cons_of_pos (by rw [hpiece]; rfl), List.reverse_cons, List.flatMap_append,
    List.flatMap_singleton]
  exact ⟨rfl, rfl⟩

theorem line_of_break {emitter next : Emitter} {piece : Piece}
    (h : next.pieces = piece :: emitter.pieces) (hpiece : piece.isLineBreak = true) :
    next.line = [] ∧ next.linesBefore = next.pieces := by
  unfold line linesBefore Piece.assemble
  rw [h, List.takeWhile_cons_of_neg (by rw [hpiece]; simp),
    List.dropWhile_cons_of_neg (by rw [hpiece]; simp)]
  exact ⟨rfl, rfl⟩

theorem line_of_assign {emitter next : Emitter} {piece : Piece}
    (h : next.pieces = piece :: emitter.linesBefore) (hpiece : piece.isLineBreak = false) :
    next.line = piece.text ∧ next.linesBefore = emitter.linesBefore := by
  -- the lines before end with a line break, if there are any
  have hend : ∀ hpos : 0 < emitter.linesBefore.length,
      ¬(!(emitter.linesBefore.get ⟨0, hpos⟩).isLineBreak) = true :=
    fun hpos => List.dropWhile_get_zero_not _ _ hpos
  constructor
  · unfold line
    rw [h, List.takeWhile_cons_of_pos (by rw [hpiece]; rfl), List.takeWhile_eq_nil_iff.mpr hend]
    exact List.flatMap_singleton ..
  · rw [linesBefore, h, List.dropWhile_cons_of_pos (by rw [hpiece]; rfl)]
    exact List.dropWhile_eq_self_iff.mpr hend

/-- A step moves on where the next segment stands. -/
theorem Step.standing {options : Options} {emitter next : Emitter} {segment : Segment}
    (h : Step options emitter segment next) :
    next.standing = emitter.standing.after segment := by
  obtain ⟨hcontext, harrow, hout⟩ := h
  have hscopes : next.scopes.map (·.kind) = emitter.standing.scopesAfter segment := by
    generalize next.pieces = pieces, next.scopes = scopes at hout
    cases hout with
    | opens hctx hkind =>
        unfold Standing.scopesAfter Emitter.standing
        rw [hctx, hkind]
        rfl
    | closes hctx hkind hscopes =>
        unfold Standing.scopesAfter Emitter.standing
        rw [hctx, hkind, hscopes]
        rfl
    | assigns hctx hkind =>
        unfold Standing.scopesAfter Emitter.standing
        rw [hctx, hkind]
    | copies hcopied => exact (Standing.of_not_structural emitter.standing segment hcopied).2.symm
  unfold Emitter.standing Standing.after
  rw [hscopes, harrow, Standing.mk.injEq]
  exact ⟨(congrArg Prod.fst hcontext).symm, rfl, rfl⟩

/-- A step that ends the line. -/
theorem Step.breaks {options : Options} {emitter next : Emitter} {segment : Segment}
    (h : Step options emitter segment next) (hkind : segment.kind = .lineBreak) :
    next.pieces = .lineBreak segment.text :: emitter.pieces := by
  have hout := h.output
  generalize next.pieces = pieces, next.scopes = scopes at hout
  cases hout with
  | opens _ hk => rw [hkind] at hk; cases hk
  | closes _ hk _ => rw [hkind] at hk; cases hk
  | assigns _ hk => rw [hkind] at hk; cases hk
  | copies _ => rw [Segment.copy, if_pos hkind]

/-- **A step within a line** adds to the line what `write` says, and leaves the lines before
alone. -/
theorem Step.writes {options : Options} {emitter next : Emitter} {segment : Segment}
    (h : Step options emitter segment next) (hkind : segment.kind ≠ .lineBreak) :
    next.line = write options emitter.line (emitter.standing.role segment, segment)
      ∧ next.linesBefore = emitter.linesBefore := by
  have hout := h.output
  generalize hpieces : next.pieces = pieces, next.scopes = scopes at hout
  cases hout with
  | opens hctx hk =>
      unfold openPiece scopeKind at hpieces
      unfold write Standing.role Emitter.standing
      rw [hctx, hk]
      cases harrow : emitter.afterArrow with
      | true =>
          rw [harrow] at hpieces
          exact line_of_add hpieces rfl
      | false =>
          rw [harrow] at hpieces
          exact line_of_add hpieces rfl
  | @closes scope _ hctx hk hscopes =>
      unfold closePiece at hpieces
      unfold write Standing.role Emitter.standing
      rw [hctx, hk, hscopes, List.map_cons, List.head?_cons]
      cases hscope : scope.kind with
      | body =>
          rw [hscope] at hpieces
          exact line_of_add hpieces rfl
      | literal =>
          rw [hscope] at hpieces
          exact line_of_add hpieces rfl
  | assigns hctx hk =>
      -- the only step that takes something back, and it stops at the lines before
      unfold write Standing.role Emitter.standing
      rw [hctx, hk]
      exact line_of_assign hpieces rfl
  | copies hcopied =>
      rw [Segment.copy, if_neg hkind] at hpieces
      rw [(Standing.of_not_structural emitter.standing segment hcopied).1]
      exact line_of_add hpieces rfl

/-- **A run writes on from where it starts.** -/
theorem Accepts.writes {options : Options} {emitter last : Emitter} {segments : List Segment}
    (h : Accepts options emitter segments last) :
    Piece.assemble last.pieces.reverse
      = Piece.assemble emitter.linesBefore.reverse
        ++ writeOn options emitter.line (roles emitter.standing segments) := by
  induction segments generalizing emitter with
  | nil =>
      rw [← accepts_nil h]
      exact emitter.assemble_eq
  | cons segment segments ih =>
      obtain ⟨next, hstep, hrest⟩ := accepts_cons h
      rw [ih hrest, hstep.standing, roles, writeOn]
      by_cases hkind : segment.kind = .lineBreak
      · -- the line that ends here becomes one of the lines before
        have hpieces := hstep.breaks hkind
        obtain ⟨hline, hbefore⟩ := line_of_break hpieces rfl
        have htext : Piece.assemble next.pieces.reverse
            = Piece.assemble emitter.pieces.reverse ++ segment.text := by
          unfold Piece.assemble
          rw [hpieces, List.reverse_cons, List.flatMap_append, List.flatMap_singleton]
          rfl
        rw [if_pos hkind, hline, hbefore, htext, emitter.assemble_eq]
        simp only [List.append_assoc]
      · obtain ⟨hline, hbefore⟩ := hstep.writes hkind
        rw [if_neg hkind, hline, hbefore]

/-- A run from the start writes everything. -/
theorem Accepts.writes_start {options : Options} {last : Emitter} {segments : List Segment}
    (h : Accepts options {} segments last) :
    Piece.assemble last.pieces.reverse = writeOn options [] (roles {} segments) := by
  have hstanding : ({} : Emitter).standing = {} := rfl
  have hline : ({} : Emitter).line = [] := rfl
  have hbefore : Piece.assemble ({} : Emitter).linesBefore.reverse = [] := rfl
  rw [h.writes, hstanding, hline, hbefore, List.nil_append]

/-- The lines before stay as they are. -/
theorem Step.keeps {options : Options} {emitter next : Emitter} {segment : Segment}
    (h : Step options emitter segment next) : emitter.linesBefore <:+ next.linesBefore := by
  by_cases hkind : segment.kind = .lineBreak
  · have hpieces := h.breaks hkind
    rw [(line_of_break hpieces rfl).2, hpieces]
    exact (List.dropWhile_suffix _).trans (List.suffix_cons _ _)
  · rw [(h.writes hkind).2]

theorem Accepts.keeps {options : Options} {emitter last : Emitter} {segments : List Segment}
    (h : Accepts options emitter segments last) : emitter.linesBefore <:+ last.linesBefore :=
  h.preserves (P := fun _ reached => emitter.linesBefore <:+ reached.linesBefore)
    List.suffix_rfl fun _ _ _ _ _ _ hinv hstep => hinv.trans hstep.keeps

/-- **Nothing is taken back beyond a line break.** What has been put out when a line break is taken
is still there, piece by piece, after any segments that follow. -/
theorem Accepts.keeps_pieces {options : Options} {emitter last : Emitter}
    {before middle : List Segment} {segment : Segment} (hkind : segment.kind = .lineBreak)
    (h : Accepts options emitter (before ++ segment :: middle) last) :
    ∃ upTo, Accepts options emitter (before ++ [segment]) upTo ∧ upTo.pieces <:+ last.pieces := by
  rw [List.append_cons] at h
  obtain ⟨upTo, hbefore, hmiddle⟩ := accepts_append h
  refine ⟨upTo, hbefore, ?_⟩
  obtain ⟨atBreak, _, hbreak⟩ := accepts_append hbefore
  obtain ⟨next, hstep, hnext⟩ := accepts_cons hbreak
  have hkept : upTo.linesBefore = upTo.pieces := by
    rw [← accepts_nil hnext]
    exact (line_of_break (hstep.breaks hkind) rfl).2
  rw [← hkept]
  exact hmiddle.keeps.trans (List.dropWhile_suffix _)

end Emitter

/-! ## A script without arrows -/

/-- No arrow has been met. -/
structure Standing.Quiet (standing : Standing) : Prop where
  afterArrow : standing.afterArrow = false
  scopes : .body ∉ standing.scopes

/-- Where no arrow has been met, a segment is an arrow or is copied. -/
theorem Standing.Quiet.copied {standing : Standing} (h : standing.Quiet) {segment : Segment}
    (hrole : standing.role segment ≠ .assign) : standing.role segment = .copied := by
  revert hrole
  unfold role
  split
  · exact fun hrole => absurd rfl hrole
  · rw [h.afterArrow]
    exact fun _ => rfl
  · exact fun _ => if_neg fun hhead => h.scopes (List.mem_of_mem_head? hhead)
  · exact fun _ => rfl

theorem Standing.Quiet.after {standing : Standing} (h : standing.Quiet) {segment : Segment}
    (hrole : standing.role segment ≠ .assign) : (standing.after segment).Quiet := by
  constructor
  · unfold Standing.after
    dsimp only
    split
    · exact h.afterArrow
    · by_contra harrow
      simp only [Bool.and_eq_true, decide_eq_true_eq, Bool.not_eq_false] at harrow
      unfold role at hrole
      rw [harrow.1, harrow.2] at hrole
      exact hrole rfl
  · unfold Standing.after scopesAfter
    dsimp only
    split
    · rw [h.afterArrow]
      exact fun hbody => h.scopes (List.mem_of_ne_of_mem (by decide) hbody)
    · exact fun hbody => h.scopes (List.mem_of_mem_tail hbody)
    · exact h.scopes

/-- Without an arrow in code everything is copied. -/
theorem roles_copied {segments : List Segment} {standing : Standing} (h : standing.Quiet)
    (hroles : ∀ item ∈ roles standing segments, item.1 ≠ .assign) :
    ∀ item ∈ roles standing segments, item.1 = .copied := by
  induction segments generalizing standing with
  | nil => exact fun _ hitem => absurd hitem List.not_mem_nil
  | cons segment segments ih =>
      obtain ⟨hfirst, hrest⟩ := List.forall_mem_cons.mp hroles
      exact List.forall_mem_cons.mpr ⟨h.copied hfirst, ih (h.after hfirst) hrest⟩

theorem writeOn_copied (options : Options) {items : List (Role × Segment)}
    (h : ∀ item ∈ items, item.1 = .copied) (line : List Char) :
    writeOn options line items = line ++ items.flatMap (·.2.text) := by
  induction items generalizing line with
  | nil => rw [writeOn, List.flatMap_nil, List.append_nil]
  | cons item items ih =>
      obtain ⟨hfirst, hrest⟩ := List.forall_mem_cons.mp h
      rw [writeOn, ih hrest, ih hrest, write, hfirst, List.flatMap_cons, List.nil_append,
        List.append_assoc, ite_self]

theorem map_snd_roles (standing : Standing) (segments : List Segment) :
    (roles standing segments).map Prod.snd = segments := by
  induction segments generalizing standing with
  | nil => rfl
  | cons segment segments ih => rw [roles, List.map_cons, ih]

theorem writeOn_quiet (options : Options) {standing : Standing} (h : standing.Quiet)
    {segments : List Segment} (hroles : ∀ item ∈ roles standing segments, item.1 ≠ .assign) :
    writeOn options [] (roles standing segments) = segments.flatMap (·.text) := by
  calc writeOn options [] (roles standing segments)
      = (roles standing segments).flatMap (·.2.text) := by
        rw [writeOn_copied options (roles_copied h hroles), List.nil_append]
    _ = ((roles standing segments).map Prod.snd).flatMap (·.text) := by rw [List.flatMap_map]
    _ = segments.flatMap (·.text) := by rw [map_snd_roles]

/-! ## Whole scripts -/

/-- **The output is written line by line.** Whatever has been put out when a line break is taken is
never changed again, and a script without an arrow in code is its own Lua. -/
theorem transpile_eq_lines {options : Options} {source out : String}
    (h : transpile options source = .ok out) :
    out.toList = ['\n'].intercalate
        ((lines (roles {} (lex source.toList))).map (lineOut options))
      ∧ (∀ before lineBreak middle after,
          lex source.toList = before ++ lineBreak :: middle ++ after →
          lineBreak.kind = .lineBreak →
          ∃ upTo later, Emitter.Accepts options {} (before ++ [lineBreak]) upTo
            ∧ Emitter.Accepts options {} (before ++ lineBreak :: middle) later
            ∧ upTo.pieces <:+ later.pieces
            ∧ Piece.assemble upTo.pieces.reverse <+: out.toList)
      ∧ ((∀ item ∈ roles {} (lex source.toList), item.1 ≠ .assign) → out = source) := by
  obtain ⟨last, hrun, -, hout⟩ := transpile_ok h
  have hwritten : out.toList = writeOn options [] (roles {} (lex source.toList)) := by
    rw [hout, String.toList_ofList, hrun.writes_start]
  refine ⟨?_, ?_, ?_⟩
  · rw [hwritten]
    refine writeOn_nil options fun item hitem hkind => ?_
    have hmem : item.2 ∈ lex source.toList := by
      rw [← map_snd_roles {} (lex source.toList)]
      exact List.mem_map_of_mem hitem
    have hspells := spells_lex hmem
    rw [hkind] at hspells
    exact hspells
  · intro before lineBreak middle after hsplit hkind
    rw [hsplit] at hrun
    obtain ⟨later, hlater, -⟩ := Emitter.accepts_append hrun
    obtain ⟨upTo, hupTo, hkept⟩ := hlater.keeps_pieces hkind
    refine ⟨upTo, later, hupTo, hlater, hkept, ?_⟩
    -- the whole run goes on from the same state
    rw [List.append_assoc, List.cons_append] at hrun
    obtain ⟨upTo', hupTo', hlast⟩ := hrun.keeps_pieces hkind
    cases Except.ok.inj (hupTo.symm.trans hupTo')
    rw [hout, String.toList_ofList]
    exact (List.reverse_prefix.mpr hlast).flatMap Piece.text
  · intro hroles
    rw [← String.toList_inj, hwritten, writeOn_quiet options ⟨rfl, List.not_mem_nil⟩ hroles,
      text_lex]

/-- A body of a match over two lines. -/
theorem transpile_eq_lines_body :
    transpile {} "  a => \x7b\n\x7d\n"
        = .ok "  __match[a] = MatchScope.new(function (__match)\nend)\n"
      ∧ "  __match[a] = MatchScope.new(function (__match)\nend)\n".toList
        = ['\n'].intercalate
          ((lines (roles {} (lex "  a => \x7b\n\x7d\n".toList))).map (lineOut {})) := by
  have h : transpile {} "  a => \x7b\n\x7d\n"
      = .ok "  __match[a] = MatchScope.new(function (__match)\nend)\n" := by rfl
  exact ⟨h, (transpile_eq_lines h).1⟩

end Keybind
