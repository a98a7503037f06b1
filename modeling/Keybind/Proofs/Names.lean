import Keybind.Proofs.Braces
import Keybind.Proofs.Transparency

/-!
# The configured names

The names of the match table and of the scope constructor are put out and never
looked at, and the strictness counts at the end of a script only.

* Two runs over the same segments with different names have different output, and
  agree on everything else (`Alike`): what one takes the other takes, and they
  fail alike.
* The output is a template with places for the names. The names do come back to
  the emitter, since a second arrow on a line takes back what the first has put
  there and trims it. But a name never stands at an end of what is trimmed: the
  match table's follows the indent, and is white space nowhere near it if its own
  first character is none, and behind the last name on a line there is always a
  bracket (`Draft.Sound`). So the line can be written with the places still open.
-/

namespace Keybind

/-! ## Two runs -/

namespace Emitter

/-- The same but for the output. -/
structure Alike (emitter other : Emitter) : Prop where
  scopes : emitter.scopes = other.scopes
  context : emitter.context = other.context
  afterArrow : emitter.afterArrow = other.afterArrow

variable {options options' : Options} {emitter other next last : Emitter} {segment : Segment}
  {segments : List Segment} {fault : Fault Nat}

/-- **What one takes the other takes**, and they are alike after it. -/
theorem Step.alike (h : Step options emitter segment next) (halike : Alike emitter other)
    (options' : Options) : ∃ next', Step options' other segment next' ∧ Alike next next' := by
  obtain ⟨hcontext, harrow, hout⟩ := h
  -- it is enough to say what the other puts out
  have hnext : ∀ pieces, Emits options' other segment pieces next.scopes →
      ∃ next', Step options' other segment next' ∧ Alike next next' := by
    intro pieces hemits
    refine ⟨{ next with pieces }, ⟨?_, ?_, hemits⟩, rfl, rfl, rfl⟩
    · rw [← halike.context, hcontext]
    · unfold arrowAfter at harrow ⊢
      rw [← halike.context, ← halike.afterArrow, ← harrow]
  generalize next.pieces = pieces, hscopes : next.scopes = scopes at hout
  rw [hscopes] at hnext
  cases hout with
  | opens hctx hkind =>
      have hscope : emitter.scopeKind = other.scopeKind := by
        unfold scopeKind
        rw [halike.afterArrow]
      rw [hscope, halike.scopes] at hnext
      exact hnext _ (.opens (halike.context ▸ hctx) hkind)
  | closes hctx hkind htop =>
      exact hnext _ (.closes (halike.context ▸ hctx) hkind (halike.scopes ▸ htop))
  | assigns hctx hkind =>
      rw [halike.scopes] at hnext
      exact hnext _ (.assigns (halike.context ▸ hctx) hkind)
  | copies hcopied =>
      rw [halike.scopes] at hnext
      exact hnext _ (.copies fun hctx => hcopied (halike.context.trans hctx))

/-- **They fail alike.** -/
theorem feed_alike_error (h : emitter.feed options segment = (next, .error fault))
    (halike : Alike emitter other) (options' : Options) :
    ∃ next', other.feed options' segment = (next', .error fault) := by
  rcases feed_error h with hfault | ⟨hctx, hkind, hnone, rfl⟩
  · rw [halike.context] at hfault
    exact feed_of_fault hfault options'
  · exact ⟨other, feed_of_excess (halike.context ▸ hctx) hkind (halike.scopes ▸ hnone) options'⟩

theorem Accepts.alike (h : Accepts options emitter segments last) (halike : Alike emitter other)
    (options' : Options) : ∃ last', Accepts options' other segments last' ∧ Alike last last' := by
  induction segments generalizing emitter other with
  | nil => exact ⟨other, rfl, accepts_nil h ▸ halike⟩
  | cons segment segments ih =>
      obtain ⟨next, hstep, hrest⟩ := accepts_cons h
      obtain ⟨next', hstep', halike'⟩ := hstep.alike halike options'
      obtain ⟨last', hrest', hlast⟩ := ih hrest halike'
      exact ⟨last', hstep'.accepts hrest', hlast⟩

theorem feedAll_alike_error (h : (emitter.feedAll options segments).2 = .error fault)
    (halike : Alike emitter other) (options' : Options) :
    (other.feedAll options' segments).2 = .error fault := by
  obtain ⟨before, segment, after, middle, next, rfl, hbefore, hfeed⟩ := feedAll_error h
  obtain ⟨middle', hbefore', hmiddle⟩ := hbefore.alike halike options'
  obtain ⟨next', hfeed'⟩ := feed_alike_error hfeed hmiddle options'
  rw [feedAll_append_ok hbefore', feedAll_cons_error hfeed']

/-- Where one may end the other may, if both are as strict. -/
theorem finish_alike (h : Alike emitter other)
    (hreject : options.rejectUnterminated = options'.rejectUnterminated) :
    (∃ pieces pieces', emitter.finish options = .ok pieces ∧ other.finish options' = .ok pieces')
      ∨ ∃ fault, emitter.finish options = .error fault
        ∧ other.finish options' = .error fault := by
  have houtermost : other.outermost? = emitter.outermost? := by
    rw [outermost?, outermost?, h.context]
  have hclosed : (options.rejectUnterminated = true → emitter.outermost? = none) →
      options'.rejectUnterminated = true → other.outermost? = none := by
    intro hnone hstrict
    rw [houtermost, hnone (hreject.trans hstrict)]
  have hfinishes := emitter.finishes options
  generalize emitter.finish options = result at hfinishes ⊢
  cases hfinishes with
  | bracket hstrict hopener =>
      have hother := Finishes.bracket (hreject.symm.trans hstrict) (houtermost.trans hopener)
      exact .inr ⟨_, rfl, hother.finish_eq⟩
  | brace hnone hscopes =>
      have hother := Finishes.brace (hclosed hnone) (h.scopes.symm.trans hscopes)
      exact .inr ⟨_, rfl, hother.finish_eq⟩
  | whole hnone hscopes =>
      have hother := Finishes.whole (hclosed hnone) (h.scopes.symm.trans hscopes)
      exact .inl ⟨_, _, rfl, hother.finish_eq⟩

end Emitter

/-- **Names decide nothing.** -/
theorem emit_alike {options options' : Options}
    (hreject : options.rejectUnterminated = options'.rejectUnterminated)
    (segments : List Segment) :
    (∃ pieces pieces', (emit options segments).2 = .ok pieces
        ∧ (emit options' segments).2 = .ok pieces')
      ∨ ∃ fault, (emit options segments).2 = .error fault
        ∧ (emit options' segments).2 = .error fault := by
  have hstart : Emitter.Alike {} {} := ⟨rfl, rfl, rfl⟩
  cases hrun : (({} : Emitter).feedAll options segments).2 with
  | error fault =>
      exact .inr ⟨fault, emit_of_error hrun,
        emit_of_error (Emitter.feedAll_alike_error hrun hstart options')⟩
  | ok last =>
      obtain ⟨last', hrun', hlast⟩ := Emitter.Accepts.alike hrun hstart options'
      rw [emit_of_accepts hrun, emit_of_accepts hrun']
      exact Emitter.finish_alike hlast hreject

/-! ## Strictness -/

/-- A run does not ask how strict it is. -/
theorem Emitter.feedAll_reject (options : Options) (reject : Bool) (emitter : Emitter)
    (segments : List Segment) :
    emitter.feedAll { options with rejectUnterminated := reject } segments
      = emitter.feedAll options segments := by
  induction segments generalizing emitter with
  | nil => rfl
  | cons segment segments ih =>
      have hfeed : emitter.feed { options with rejectUnterminated := reject } segment
          = emitter.feed options segment := rfl
      rw [feedAll, feedAll, hfeed]
      split
      · rfl
      · rw [ih]

/-- A long bracket that is never closed is a fault of the end only. -/
theorem feedAll_ne_unterminated {options : Options} {segments : List Segment} {fault : Fault Nat}
    (h : (({} : Emitter).feedAll options segments).2 = .error fault) (place : Nat)
    (opened : LongBracket) : fault ≠ .unterminatedLongBracket place opened := by
  obtain ⟨before, segment, after, middle, next, -, hbefore, hfeed⟩ := Emitter.feedAll_error h
  rintro rfl
  cases (Tracks.of_accepts hbefore).offends hfeed

/-- **The strict emitter ends as the lenient one does**, unless a long bracket is still open. -/
theorem emit_strict (options : Options) (segments : List Segment) :
    ((∀ place opened, (emit { options with rejectUnterminated := true } segments).2
          ≠ .error (.unterminatedLongBracket place opened))
        ∧ (emit { options with rejectUnterminated := true } segments).2
          = (emit { options with rejectUnterminated := false } segments).2)
      ∨ (∃ place opened, (emit { options with rejectUnterminated := true } segments).2
          = .error (.unterminatedLongBracket place opened))
        ∧ ((∃ pieces, (emit { options with rejectUnterminated := false } segments).2 = .ok pieces)
          ∨ ∃ place, (emit { options with rejectUnterminated := false } segments).2
            = .error (.unbalancedOpen place)) := by
  cases hrun : (({} : Emitter).feedAll options segments).2 with
  | error fault =>
      have hfails : ∀ reject,
          (emit { options with rejectUnterminated := reject } segments).2 = .error fault := by
        intro reject
        rw [← Emitter.feedAll_reject options reject] at hrun
        exact emit_of_error hrun
      rw [hfails true, hfails false]
      exact .inl ⟨fun place opened heq =>
        feedAll_ne_unterminated hrun place opened (Except.error.inj heq), rfl⟩
  | ok last =>
      have hends : ∀ reject, (emit { options with rejectUnterminated := reject } segments).2
          = last.finish { options with rejectUnterminated := reject } := by
        intro reject
        rw [← Emitter.feedAll_reject options reject] at hrun
        exact emit_of_accepts hrun
      rw [hends true, hends false]
      have hstrict := last.finishes { options with rejectUnterminated := true }
      have hlenient := last.finishes { options with rejectUnterminated := false }
      generalize last.finish { options with rejectUnterminated := true } = strict at hstrict ⊢
      cases hstrict with
      | bracket =>
          refine .inr ⟨⟨_, _, rfl⟩, ?_⟩
          generalize last.finish { options with rejectUnterminated := false } = lenient
            at hlenient ⊢
          cases hlenient with
          | bracket hreject => cases hreject
          | brace => exact .inr ⟨_, rfl⟩
          | whole => exact .inl ⟨_, rfl⟩
      -- if no long bracket is open, being strict makes no difference
      | brace hclosed hscopes =>
          have hsame : Emitter.Finishes { options with rejectUnterminated := false } last _ :=
            .brace (fun _ => hclosed rfl) hscopes
          exact .inl ⟨nofun, hsame.finish_eq.symm⟩
      | whole hclosed hscopes =>
          have hsame : Emitter.Finishes { options with rejectUnterminated := false } last _ :=
            .whole (fun _ => hclosed rfl) hscopes
          exact .inl ⟨nofun, hsame.finish_eq.symm⟩

/-! ## Templates -/

/-- A part of a template. -/
inductive Slot where
  | literal (text : List Char)
  | matchTable
  | scopeConstructor
  deriving DecidableEq, Repr

/-- What stands in a part of a template. -/
def Slot.fill (options : Options) : Slot → List Char
  | literal text => text
  | matchTable => options.matchTable.toList
  | scopeConstructor => options.scopeConstructor.toList

/-- A template with its places filled. -/
def fill (options : Options) (template : List Slot) : List Char :=
  template.flatMap (Slot.fill options)

@[simp] theorem fill_nil (options : Options) : fill options [] = [] := rfl

@[simp] theorem fill_cons (options : Options) (slot : Slot) (template : List Slot) :
    fill options (slot :: template) = slot.fill options ++ fill options template :=
  List.flatMap_cons

@[simp] theorem fill_append (options : Options) (xs ys : List Slot) :
    fill options (xs ++ ys) = fill options xs ++ fill options ys :=
  List.flatMap_append

/-- A line that is written while the names are not known. -/
inductive Draft where
  /-- No arrow has been met on the line. -/
  | plain (text : List Char)
  /-- The match table follows the indent; `middle` reaches to the last name on the line, and `rear`
  is what follows that. -/
  | assigned (indent : List Char) (middle : List Slot) (rear : List Char)
  deriving DecidableEq, Repr

namespace Draft

/-- The line as a template. -/
def template : Draft → List Slot
  | plain text => [.literal text]
  | assigned indent middle rear => .literal indent :: .matchTable :: middle ++ [.literal rear]

/-- More text at the end of the line. -/
def add (more : List Char) : Draft → Draft
  | plain text => plain (text ++ more)
  | assigned indent middle rear => assigned indent middle (rear ++ more)

/-- An arrow. -/
def assign : Draft → Draft
  | plain text =>
    assigned (Text.indent text) [] ('[' :: Text.trim (Text.body text) ++ "] =".toList)
  | assigned indent middle rear =>
    assigned indent (.literal ['['] :: .matchTable :: middle) (Text.trimEnd rear ++ "] =".toList)

/-- The start of a match scope, which has an arrow before it on its line. -/
def openBody : Draft → Draft
  | plain text => plain text
  | assigned indent middle rear =>
    assigned indent (middle ++ [.literal rear, .scopeConstructor,
      .literal "(function (".toList, .matchTable]) [')']

/-- The line once one more segment is written. -/
def write (draft : Draft) (item : Role × Segment) : Draft :=
  match item.1 with
  | .assign => draft.assign
  | .openBody => draft.openBody
  | .closeBody => draft.add "end)".toList
  | .copied => draft.add item.2.text

/-- Whether an arrow has been met on the line. -/
def IsAssigned : Draft → Prop
  | plain _ => False
  | assigned .. => True

/-- White space that an arrow cuts off a line does not reach a name. -/
def Sound : Draft → Prop
  | plain _ => True
  | assigned indent middle rear =>
    (∀ c ∈ indent, Text.isIndent c = true)
      ∧ (∀ options, ∃ rest, fill options middle ++ rear = '[' :: rest)
      ∧ ∃ c cs, rear = c :: cs ∧ Text.isBlank c = false

end Draft

/-- All that is written from the middle of a line on, as a template. -/
def templateFrom (draft : Draft) : List (Role × Segment) → List Slot
  | [] => draft.template
  | item :: items =>
    if item.2.kind = .lineBreak then
      draft.template ++ .literal item.2.text :: templateFrom (.plain []) items
    else templateFrom (draft.write item) items

/-- The match table's name does not begin with white space. -/
def Options.NamesTable (options : Options) : Prop :=
  ∀ c, options.matchTable.toList.head? = some c → Text.isBlank c = false

namespace Draft

variable {options : Options} {draft : Draft}

/-- The name of the match table and the bracket after it start with no white space. -/
theorem exists_head (hname : options.NamesTable) (rest : List Char) :
    ∃ c cs, options.matchTable.toList ++ '[' :: rest = c :: cs ∧ Text.isBlank c = false := by
  unfold Options.NamesTable at hname
  cases hchars : options.matchTable.toList with
  | nil => exact ⟨'[', rest, rfl, rfl⟩
  | cons c cs =>
      rw [hchars] at hname
      exact ⟨c, cs ++ '[' :: rest, rfl, hname c rfl⟩

theorem fill_add (options : Options) (draft : Draft) (more : List Char) :
    fill options (draft.add more).template = fill options draft.template ++ more := by
  cases draft <;> simp [add, template, Slot.fill]

theorem Sound.add (h : draft.Sound) (more : List Char) : (draft.add more).Sound := by
  cases draft with
  | plain text => trivial
  | assigned indent middle rear =>
      obtain ⟨hindent, hopen, c, cs, rfl, hc⟩ := h
      refine ⟨hindent, fun options => ?_, c, cs ++ more, rfl, hc⟩
      obtain ⟨rest, hrest⟩ := hopen options
      exact ⟨rest ++ more, by rw [← List.append_assoc, hrest]; rfl⟩

theorem Sound.openBody (h : draft.Sound) : draft.openBody.Sound := by
  cases draft with
  | plain text => trivial
  | assigned indent middle rear =>
      obtain ⟨hindent, hopen, -⟩ := h
      refine ⟨hindent, fun options => ?_, ')', [], rfl, rfl⟩
      obtain ⟨rest, hrest⟩ := hopen options
      rw [fill_append, fill_cons, Slot.fill, ← List.append_assoc (fill options middle), hrest]
      exact ⟨_, rfl⟩

theorem fill_openBody (options : Options) (h : draft.IsAssigned) :
    fill options draft.openBody.template = fill options draft.template ++ options.scopeOpen := by
  cases draft with
  | plain text => exact h.elim
  | assigned indent middle rear =>
      simp [Draft.openBody, template, Slot.fill, Options.scopeOpen]

/-- Trimming the end of a text that starts with a character that stays. -/
theorem trimEnd_cons {c : Char} (hc : Text.isBlank c = false) (cs : List Char) :
    Text.trimEnd (c :: cs) = c :: Text.trimEnd cs :=
  Text.trimEnd_append hc [] cs

theorem Sound.assign (h : draft.Sound) : draft.assign.Sound := by
  cases draft with
  | plain text =>
      refine ⟨fun c hc => List.all_eq_true.mp List.all_takeWhile c hc, fun _ => ⟨_, rfl⟩,
        '[', _, rfl, rfl⟩
  | assigned indent middle rear =>
      obtain ⟨hindent, -, c, cs, rfl, hc⟩ := h
      refine ⟨hindent, fun _ => ⟨_, rfl⟩, c, Text.trimEnd cs ++ "] =".toList, ?_, hc⟩
      rw [trimEnd_cons hc]
      rfl

/-- **An arrow cuts off white space only where the template has it.** -/
theorem Sound.fill_assign (h : draft.Sound) (hname : options.NamesTable) (segment : Segment) :
    fill options draft.assign.template
      = Keybind.write options (fill options draft.template) (.assign, segment) := by
  cases draft with
  | plain text => simp [Draft.assign, template, Slot.fill, Keybind.write]
  | assigned indent middle rear =>
      obtain ⟨hindent, hopen, c, cs, rfl, hc⟩ := h
      obtain ⟨rest, hrest⟩ := hopen options
      have hline : fill options (assigned indent middle (c :: cs)).template
          = indent ++ (options.matchTable.toList ++ fill options middle ++ c :: cs) := by
        simp [template, Slot.fill]
      -- the line starts with the indent and a character that stays
      obtain ⟨d, ds, hhead, hd⟩ := exists_head hname rest
      rw [← hrest, ← List.append_assoc] at hhead
      have hstop : ¬Text.isIndent d = true := by
        rw [Text.isIndent_eq_false hd]
        exact Bool.false_ne_true
      have hindents : Text.indent (fill options (assigned indent middle (c :: cs)).template)
          = indent := by
        rw [hline, Text.indent, List.takeWhile_append_of_pos hindent, hhead,
          List.takeWhile_cons_of_neg hstop, List.append_nil]
      have hbody : Text.body (fill options (assigned indent middle (c :: cs)).template)
          = options.matchTable.toList ++ fill options middle ++ c :: cs := by
        rw [hline, Text.body, List.dropWhile_append_of_pos hindent, hhead,
          List.dropWhile_cons_of_neg hstop]
      -- and behind the last name another character stays
      have htrim : Text.trim (options.matchTable.toList ++ fill options middle ++ c :: cs)
          = options.matchTable.toList ++ fill options middle ++ c :: Text.trimEnd cs := by
        have hstart : Text.trimStart (options.matchTable.toList ++ fill options middle ++ c :: cs)
            = options.matchTable.toList ++ fill options middle ++ c :: cs := by
          rw [hhead, Text.trimStart, List.dropWhile_cons_of_neg (by simp [hd])]
        have hend := Text.trimEnd_append hc (options.matchTable.toList ++ fill options middle) cs
        rw [Text.trim, hstart]
        simpa only [List.append_assoc, List.singleton_append] using hend
      rw [Keybind.write, hindents, hbody, htrim, Draft.assign, trimEnd_cons hc]
      simp [template, Slot.fill]

/-- **One segment.** -/
theorem Sound.write (h : draft.Sound) (hname : options.NamesTable) (item : Role × Segment)
    (hassigned : item.1 = .openBody → draft.IsAssigned) :
    (draft.write item).Sound
      ∧ fill options (draft.write item).template
        = Keybind.write options (fill options draft.template) item := by
  obtain ⟨role, segment⟩ := item
  cases role with
  | assign => exact ⟨h.assign, h.fill_assign hname segment⟩
  | openBody => exact ⟨h.openBody, fill_openBody options (hassigned rfl)⟩
  | closeBody => exact ⟨h.add _, fill_add options draft _⟩
  | copied => exact ⟨h.add _, fill_add options draft _⟩

/-- Only an arrow is remembered, and it leaves its line assigned. -/
theorem isAssigned_write {standing : Standing} {segment : Segment}
    (h : standing.afterArrow = true → draft.IsAssigned)
    (hafter : (standing.after segment).afterArrow = true) :
    (draft.write (standing.role segment, segment)).IsAssigned := by
  unfold Standing.after at hafter
  dsimp only at hafter
  split at hafter
  · -- white space is looked through
    rename_i hkind
    have hrole : standing.role segment = .copied := by
      refine (standing.of_not_structural segment fun _ => ?_).1
      rw [hkind]
      decide
    rw [hrole]
    cases draft with
    | plain text => exact (h hafter).elim
    | assigned indent middle rear => trivial
  · simp only [Bool.and_eq_true, decide_eq_true_eq] at hafter
    have hrole : standing.role segment = .assign := by
      unfold Standing.role
      rw [hafter.1, hafter.2]
    rw [hrole]
    cases draft <;> trivial

end Draft

/-- **All segments.** -/
theorem fill_templateFrom {options : Options} (hname : options.NamesTable)
    (segments : List Segment) :
    ∀ (standing : Standing) (draft : Draft), draft.Sound →
      (standing.afterArrow = true → draft.IsAssigned) →
      fill options (templateFrom draft (roles standing segments))
        = writeOn options (fill options draft.template) (roles standing segments) := by
  induction segments with
  | nil =>
      intro standing draft _ _
      rfl
  | cons segment segments ih =>
      intro standing draft hsound hassigned
      rw [roles, templateFrom, writeOn]
      by_cases hk : segment.kind = .lineBreak
      · -- an arrow is forgotten at the end of its line
        have hforgets : (standing.after segment).afterArrow = true →
            (Draft.plain []).IsAssigned := by
          intro hafter
          unfold Standing.after at hafter
          rw [hk] at hafter
          simp at hafter
        have hnext := ih (standing.after segment) (.plain []) trivial hforgets
        rw [if_pos hk, if_pos hk, fill_append, fill_cons, hnext, ← List.append_assoc]
        rfl
      · have hopens : standing.role segment = .openBody → draft.IsAssigned := fun hrole =>
          hassigned (Standing.role_eq_openBody.mp hrole).2.2
        obtain ⟨hsound', hwrite⟩ := hsound.write hname (standing.role segment, segment) hopens
        rw [if_neg hk, if_neg hk, ih _ _ hsound' (Draft.isAssigned_write hassigned), hwrite]

/-! ## Whole scripts -/

/-- **The configured names are parameters only.** Whatever they are, a script becomes Lua or fails
in one way. There is one template for the script that gives its Lua for all names of which the match
table's does not begin with white space. A strict run and a lenient one end alike, unless a long
bracket is never closed, and then the lenient one can only find a brace that is not closed. -/
theorem names_are_parameters (source : String) :
    (∀ options options' : Options, options.rejectUnterminated = options'.rejectUnterminated →
        (∃ out out', transpile options source = .ok out ∧ transpile options' source = .ok out')
          ∨ ∃ e, transpile options source = .error e ∧ transpile options' source = .error e)
      ∧ (∃ template : List Slot, ∀ (options : Options) (out : String),
        (∀ c, options.matchTable.toList.head? = some c → Text.isBlank c = false) →
        transpile options source = .ok out → out.toList = fill options template)
      ∧ ∀ options : Options,
        ((∀ place opened, transpile { options with rejectUnterminated := true } source
            ≠ .error (.unterminatedLongBracket place opened)) →
          transpile { options with rejectUnterminated := true } source
            = transpile { options with rejectUnterminated := false } source)
        ∧ ∀ place opened, transpile { options with rejectUnterminated := true } source
            = .error (.unterminatedLongBracket place opened) →
          (∃ out, transpile { options with rejectUnterminated := false } source = .ok out)
            ∨ ∃ place, transpile { options with rejectUnterminated := false } source
              = .error (.unbalancedOpen place) := by
  refine ⟨fun options options' hreject => ?_, ?_, fun options => ?_⟩
  · rcases emit_alike hreject (lex source.toList) with ⟨_, _, hok, hok'⟩ | ⟨_, hfails, hfails'⟩
    · exact .inl ⟨_, _, transpile_of_ok hok, transpile_of_ok hok'⟩
    · exact .inr ⟨_, transpile_of_error hfails, transpile_of_error hfails'⟩
  · refine ⟨templateFrom (.plain []) (roles {} (lex source.toList)), fun options out hname h => ?_⟩
    obtain ⟨last, hrun, -, hout⟩ := transpile_ok h
    rw [hout, String.toList_ofList, hrun.writes_start,
      fill_templateFrom hname (lex source.toList) {} (.plain []) trivial nofun]
    rfl
  · rcases emit_strict options (lex source.toList) with
      ⟨hclosed, heq⟩ | ⟨⟨place, opened, hstrict⟩, hlenient⟩
    · refine ⟨fun _ => ?_, fun place opened hstrict => ?_⟩
      · rw [transpile_eq_emit, transpile_eq_emit, heq]
      · -- such a fault would be one of the emitter
        cases hemit : (emit { options with rejectUnterminated := true } (lex source.toList)).2 with
        | ok pieces =>
            rw [transpile_of_ok hemit] at hstrict
            cases hstrict
        | error fault =>
            rw [transpile_of_error hemit] at hstrict
            cases fault with
            | unterminatedLongBracket offset bracket => exact absurd hemit (hclosed offset bracket)
            | _ => cases hstrict
    · refine ⟨fun hne => absurd (transpile_of_error hstrict) (hne _ _), fun _ _ _ => ?_⟩
      rcases hlenient with ⟨pieces, hok⟩ | ⟨place, hopen⟩
      · exact .inl ⟨_, transpile_of_ok hok⟩
      · exact .inr ⟨_, transpile_of_error hopen⟩

/-- A line with two arrows, the second of which takes back the name that the first has put out. -/
theorem names_are_parameters_arrows :
    transpile {} "a => b => c" = .ok "__match[__match[a] = b] = c"
      ∧ transpile { matchTable := "m " } "a => b => c" = .ok "m [m [a] = b] = c"
      ∧ ∃ template : List Slot, fill {} template = "__match[__match[a] = b] = c".toList
        ∧ fill { matchTable := "m " } template = "m [m [a] = b] = c".toList := by
  have hplain : transpile {} "a => b => c" = .ok "__match[__match[a] = b] = c" := by rfl
  have hblank : transpile { matchTable := "m " } "a => b => c" = .ok "m [m [a] = b] = c" := by rfl
  obtain ⟨template, htemplate⟩ := (names_are_parameters "a => b => c").2.1
  refine ⟨hplain, hblank, template, (htemplate {} _ ?_ hplain).symm,
    (htemplate { matchTable := "m " } _ ?_ hblank).symm⟩ <;>
  · rintro c ⟨⟩
    rfl

end Keybind
