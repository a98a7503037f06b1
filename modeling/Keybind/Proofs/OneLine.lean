import Keybind.Proofs.Blocks
import Keybind.Proofs.Braces
import Keybind.Proofs.Transparency

/-!
# Blocks on one line

A block may be written on one line, braces and all. Its body is then put out on
the line of its own head, and that line is what an arrow takes back. So a body
without arrows is found again between `function (__match)` and `end)`, but each
arrow in it turns all that stands before it on the line into its pattern, the
assignment and the scope of the block included. `line_block` says what such a block
becomes, and that it is the assignment of a scope with the Lua of the body inside
exactly if the body has no arrow.

The blanks inside the braces run on into white space of the body. This makes other
segments, but the emitter copies white space and looks through it, so it does not
matter where it is cut (`Glued`). Apart from that the body is taken as it is alone,
with the scope of the block below its own (`Inside`) and the line of its head in
front.
-/

namespace Keybind

/-! ## Unmarked text -/

/-- The characters that end no line, enclose no string, and are no part of comments and long
brackets. -/
def IsUnmarked (c : Char) : Prop :=
  c ≠ '"' ∧ c ≠ '\x27' ∧ c ≠ '-' ∧ c ≠ '[' ∧ c ≠ ']' ∧ c ≠ '\\' ∧ c ≠ '\n'

instance (c : Char) : Decidable (IsUnmarked c) :=
  inferInstanceAs (Decidable (_ ∧ _))

instance (cs : List Char) : Decidable (∀ c ∈ cs, IsUnmarked c) :=
  List.decidableBAll IsUnmarked cs

/-- The kinds of segment that such characters make. -/
def SegmentKind.IsFlat (kind : SegmentKind) : Prop :=
  kind = .text ∨ kind = .whitespace ∨ Emitter.IsStructural kind

/-- **Text without marks is code.** -/
theorem isFlat_lex {cs : List Char} (h : ∀ c ∈ cs, IsUnmarked c) :
    ∀ segment ∈ lex cs, segment.kind.IsFlat := by
  intro segment hsegment
  have hmem : ∀ c ∈ segment.text, IsUnmarked c := by
    intro c hc
    refine h c ?_
    rw [← text_lex cs]
    exact List.mem_flatMap.mpr ⟨segment, hsegment, hc⟩
  have hspells := spells_lex hsegment
  cases hkind : segment.kind with
  | text => exact .inl rfl
  | whitespace => exact .inr (.inl rfl)
  | openBrace => exact .inr (.inr (.inl rfl))
  | closeBrace => exact .inr (.inr (.inr (.inl rfl)))
  | arrow => exact .inr (.inr (.inr (.inr rfl)))
  | lineBreak =>
      rw [hkind] at hspells
      exact absurd (hmem '\n' (by rw [hspells]; decide)) (by decide)
  | lineComment =>
      rw [hkind] at hspells
      exact absurd (hmem '-' (by rw [hspells]; decide)) (by decide)
  | longOpen bracket =>
      rw [hkind] at hspells
      have hsquare : '[' ∈ segment.text := by
        rw [hspells]
        simp [LongBracket.opener, LongBracket.spell]
      exact absurd (hmem '[' hsquare) (by decide)
  | longClose bracket =>
      rw [hkind] at hspells
      have hsquare : ']' ∈ segment.text := by
        rw [hspells]
        simp [LongBracket.closer, LongBracket.spell]
      exact absurd (hmem ']' hsquare) (by decide)
  | quoted mark =>
      rw [hkind] at hspells
      obtain ⟨body, hbody⟩ := hspells
      have hmark := hmem mark.char (by rw [hbody]; exact List.mem_append_right _ (by simp))
      cases mark <;> exact absurd hmark (by decide)

theorem isFlat_segments {cs : List Char} (h : ∀ c ∈ cs, IsUnmarked c) :
    ∀ item ∈ Grammar.segments cs, item.1.IsFlat := by
  intro item hitem
  rw [← Grammar.bareSegments_eq, ← bare_lex] at hitem
  obtain ⟨segment, hsegment, rfl⟩ := List.mem_map.mp hitem
  exact isFlat_lex h segment hsegment

/-! ## White space cut in other ways -/

/-- The second list is the first with some of its white space put together. -/
inductive Glued : List (SegmentKind × List Char) → List (SegmentKind × List Char) → Prop where
  | nil : Glued [] []
  | cons {xs ys : List (SegmentKind × List Char)} (item : SegmentKind × List Char) :
      Glued xs ys → Glued (item :: xs) (item :: ys)
  | glue {xs ys : List (SegmentKind × List Char)} (a b : List Char) : Glued xs ys →
      Glued ((.whitespace, a) :: (.whitespace, b) :: xs) ((.whitespace, a ++ b) :: ys)
  | trans {xs ys zs : List (SegmentKind × List Char)} : Glued xs ys → Glued ys zs → Glued xs zs

theorem Glued.refl (items : List (SegmentKind × List Char)) : Glued items items := by
  induction items with
  | nil => exact .nil
  | cons item items ih => exact ih.cons item

theorem Glued.append {xs ys : List (SegmentKind × List Char)} (h : Glued xs ys)
    (before : List (SegmentKind × List Char)) : Glued (before ++ xs) (before ++ ys) := by
  induction before with
  | nil => exact h
  | cons item before ih => exact ih.cons item

theorem Glued.isFlat {xs ys : List (SegmentKind × List Char)} (h : Glued xs ys)
    (hflat : ∀ item ∈ xs, item.1.IsFlat) : ∀ item ∈ ys, item.1.IsFlat := by
  induction h with
  | nil => exact hflat
  | cons item _ ih =>
      obtain ⟨hfirst, hrest⟩ := List.forall_mem_cons.mp hflat
      exact List.forall_mem_cons.mpr ⟨hfirst, ih hrest⟩
  | glue a b _ ih =>
      obtain ⟨hfirst, hrest⟩ := List.forall_mem_cons.mp hflat
      exact List.forall_mem_cons.mpr ⟨hfirst, ih (List.forall_mem_cons.mp hrest).2⟩
  | trans _ _ ih ih' => exact ih' (ih hflat)

namespace Grammar

theorem attach_append (item : SegmentKind × List Char) {next : SegmentKind × List Char}
    (h : next.1 ≠ .text) (xs ys : List (SegmentKind × List Char)) :
    attach item (xs ++ next :: ys) = attach item xs ++ next :: ys := by
  cases xs with
  | nil => rw [List.nil_append, attach_before h, attach_nil, List.singleton_append]
  | cons x xs =>
      rw [List.cons_append, attach_cons, attach_cons]
      split <;> rfl

theorem foldr_attach_append {next : SegmentKind × List Char} (h : next.1 ≠ .text)
    (xs ys : List (SegmentKind × List Char)) :
    (xs ++ next :: ys).foldr attach []
      = xs.foldr attach [] ++ next :: ys.foldr attach [] := by
  induction xs with
  | nil => exact attach_of_ne h _
  | cons x xs ih => rw [List.cons_append, List.foldr_cons, ih, attach_append x h, List.foldr_cons]

theorem glued_attach (item : SegmentKind × List Char) {xs ys : List (SegmentKind × List Char)}
    (h : Glued xs ys) : Glued (attach item xs) (attach item ys) := by
  induction h with
  | nil => exact .refl _
  | cons next h _ =>
      rw [attach_cons, attach_cons]
      split
      · exact h.cons _
      · exact (h.cons next).cons item
  | glue a b h _ =>
      rw [attach_before (by exact nofun), attach_before (by exact nofun)]
      exact (h.glue a b).cons item
  | trans _ _ ih ih' => exact ih.trans ih'

theorem glued_foldr_attach {xs ys : List (SegmentKind × List Char)} (h : Glued xs ys) :
    Glued (xs.foldr attach []) (ys.foldr attach []) := by
  induction h with
  | nil => exact .nil
  | cons item _ ih => exact glued_attach item ih
  | glue a b _ ih => exact ih.glue a b
  | trans _ _ ih ih' => exact ih.trans ih'

theorem rule_unmarked {c : Char} (h : IsUnmarked c) (depth : Nat) (cs : List Char) :
    rule c cs (.nested depth) = plainRule depth c cs := by
  obtain ⟨hdouble, hsingle, hdash, hopen, hclose, -, -⟩ := h
  exact rule_plain (fun hc => hdash hc.1) hopen hclose (mark?_eq_none hdouble hsingle)

/-- Anything else does not look at white space. -/
theorem plainRule_append {c : Char} (h : ¬Token.IsSpace c) (depth : Nat) (cs after : List Char) :
    plainRule depth c (cs ++ ' ' :: after) = plainRule depth c cs
      ∧ (plainRule depth c cs).extra ≤ cs.length
      ∧ (plainRule depth c cs).state = .nested depth := by
  unfold plainRule
  rw [if_neg h, if_neg h]
  cases cs with
  | nil =>
      refine ⟨by simp, ?_⟩
      split_ifs <;> simp_all
  | cons d ds =>
      refine ⟨by simp, ?_⟩
      split_ifs <;> simp

/-- **A blank after unmarked text** runs on from the white space at its end, if there is any. -/
theorem glued_read {cs : List Char} (h : ∀ c ∈ cs, IsUnmarked c) (after : List Char) :
    Glued (read (.nested 0) cs ++ read (.nested 0) (' ' :: after))
      (read (.nested 0) (cs ++ ' ' :: after)) := by
  -- only the last rule can meet the blank, and only as white space
  induction cs using dropInduction with
  | nil =>
      rw [read.eq_1]
      exact .refl _
  | cons c cs ih =>
      obtain ⟨hc, hcs⟩ := List.forall_mem_cons.mp h
      have hdrop : ∀ n, ∀ d ∈ cs.drop n, IsUnmarked d :=
        fun n d hd => hcs d (List.mem_of_mem_drop hd)
      by_cases hspace : Token.IsSpace c
      · rw [List.cons_append, read_spaces hspace, read_spaces hspace]
        have hcut := List.takeWhile_append_dropWhile (p := (Token.IsSpace ·)) (l := cs)
        cases hrest : cs.dropWhile (Token.IsSpace ·) with
        | nil =>
            -- the text ends here, and the white space goes on
            rw [hrest, List.append_nil] at hcut
            rw [List.takeWhile_append_of_pos (List.takeWhile_eq_self_iff.mp hcut),
              List.dropWhile_append_of_pos (List.takeWhile_eq_self_iff.mp hcut), hcut, read.eq_1,
              List.singleton_append, List.takeWhile_cons_of_pos (by decide),
              List.dropWhile_cons_of_pos (by decide), read_spaces (by decide)]
            exact (Glued.refl _).glue (c :: cs) _
        | cons d ds =>
            -- the white space ends before the text does
            have hshort : (cs.takeWhile (Token.IsSpace ·)).length ≠ cs.length := by
              intro hlength
              have := congrArg List.length hcut
              rw [List.length_append, hrest, List.length_cons] at this
              omega
            have htail := ih (cs.takeWhile (Token.IsSpace ·)).length (hdrop _)
            rw [(take_drop_takeWhile (Token.IsSpace ·) cs).2, hrest] at htail
            rw [List.takeWhile_append, if_neg hshort, List.dropWhile_append, hrest,
              if_neg (by simp)]
            exact htail.cons _
      · obtain ⟨hrule, hextra, hstate⟩ := plainRule_append hspace 0 cs after
        rw [List.cons_append, read_cons (rule_unmarked hc 0 cs),
          read_cons ((rule_unmarked hc 0 _).trans hrule), hstate,
          List.take_append_of_le_length hextra,
          List.drop_append_of_le_length hextra, List.cons_append]
        exact (ih _ (hdrop _)).cons _

/-- A blank in front of a text runs on into the white space at its start. -/
theorem glued_read_cons (cs : List Char) :
    Glued ((.whitespace, [' ']) :: read (.nested 0) cs) (read (.nested 0) (' ' :: cs)) := by
  rw [read_spaces (.inl rfl)]
  cases cs with
  | nil => exact .refl _
  | cons c cs =>
      by_cases hspace : Token.IsSpace c
      · rw [read_spaces hspace, List.takeWhile_cons_of_pos (by simpa using hspace),
          List.dropWhile_cons_of_pos (by simpa using hspace)]
        exact (Glued.refl _).glue [' '] _
      · rw [List.takeWhile_cons_of_neg (by simpa using hspace),
          List.dropWhile_cons_of_neg (by simpa using hspace)]
        exact .refl _

/-- **A block on one line** has the segments of its head, of its body, and of the blanks and the
brace around it. -/
theorem glued_segments {head b : List Char} (hhead : ∀ c ∈ head, IsUnmarked c)
    (hb : ∀ c ∈ b, IsUnmarked c) :
    Glued (segments head
        ++ (.whitespace, [' ']) :: (segments b ++ [(.whitespace, [' ']), (.closeBrace, ['}'])]))
      (segments (head ++ ' ' :: (b ++ [' ', '}']))) := by
  have hbrace : read (.nested 0) ['}'] = [(.closeBrace, ['}'])] := by
    rw [read_cons (rule_unmarked (by decide) 0 []), List.drop_nil, read.eq_1]
    rfl
  have hclosing : read (.nested 0) [' ', '}'] = [(.whitespace, [' ']), (.closeBrace, ['}'])] := by
    rw [read_spaces (.inl rfl), List.takeWhile_cons_of_neg (by decide),
      List.dropWhile_cons_of_neg (by decide), hbrace]
  have hbody := ((glued_read hb ['}']).cons _).trans (glued_read_cons (b ++ [' ', '}']))
  have hglued := glued_foldr_attach
    ((hbody.append (read (.nested 0) head)).trans (glued_read hhead _))
  rw [hclosing, foldr_attach_append (by decide), foldr_attach_append (by decide)] at hglued
  exact hglued

end Grammar

/-! ## The body in its block -/

theorem Context.advance_flat {segment : Segment} (h : segment.kind.IsFlat) :
    Context.code.advance segment = (.code, none) := by
  refine advance_other ?_
  rcases h with hk | hk | hk | hk | hk <;> simp [Heeds, SegmentKind.IsDelimiter, hk]

namespace Standing

/-- The standing with further scopes around it. -/
def within (standing : Standing) (outer : List ScopeKind) : Standing :=
  { standing with scopes := standing.scopes ++ outer }

/-- **In code a segment stands alike within further scopes**, unless it closes one of them. -/
theorem role_within {standing : Standing} {segment segment' : Segment}
    (hcode : standing.context = .code) (hflat : segment.kind.IsFlat)
    (hclose : segment.kind = .closeBrace → standing.scopes ≠ [])
    (hkind : segment'.kind = segment.kind) (outer : List ScopeKind) :
    (standing.within outer).role segment' = standing.role segment
      ∧ (standing.within outer).after segment' = (standing.after segment).within outer := by
  obtain ⟨context, scopes, afterArrow⟩ := standing
  obtain rfl : context = .code := hcode
  have hflat' : segment'.kind.IsFlat := hkind ▸ hflat
  unfold role after within scopesAfter
  rw [Context.advance_flat hflat, Context.advance_flat hflat', hkind]
  rcases hflat with hk | hk | hk | hk | hk <;> rw [hk]
  · exact ⟨rfl, rfl⟩
  · exact ⟨rfl, rfl⟩
  · exact ⟨rfl, rfl⟩
  · obtain ⟨scope, scopes, rfl⟩ := List.exists_cons_of_ne_nil (hclose hk)
    exact ⟨rfl, rfl⟩
  · exact ⟨rfl, rfl⟩

end Standing

namespace Emitter

variable {options : Options} {a b next last : Emitter} {segment : Segment}

/-- Such segments do not lead out of code. -/
theorem Step.code (h : Step options a segment next) (hcode : a.context = .code)
    (hflat : segment.kind.IsFlat) : next.context = .code := by
  have hcontext := h.context
  rw [hcode, Context.advance_flat hflat] at hcontext
  exact (Prod.mk.inj hcontext).1.symm

/-- In code they are all taken, but for a brace that closes no scope. -/
theorem exists_step (options : Options) (segment : Segment) (hcode : a.context = .code)
    (hflat : segment.kind.IsFlat)
    (hclose : segment.kind = .closeBrace → a.scopes ≠ []) :
    ∃ next, Step options a segment next := by
  rcases hfeed : a.feed options segment with ⟨next, result⟩
  cases result with
  | ok event => exact ⟨next, feed_ok hfeed⟩
  | error fault =>
      rcases feed_error hfeed with hfault | ⟨-, hkind, hscopes, -⟩
      · rw [hcode, Context.advance_flat hflat] at hfault
        cases hfault
      · exact absurd hscopes (hclose hkind)

/-- A brace that is taken in code closes a scope. -/
theorem Step.scopes_ne_nil (h : Step options a segment next) (hcode : a.context = .code)
    (hkind : segment.kind = .closeBrace) : a.scopes ≠ [] := by
  have houtput := h.output
  generalize next.pieces = pieces at houtput
  generalize next.scopes = scopes at houtput
  cases houtput with
  | opens _ hk => rw [hkind] at hk; cases hk
  | closes _ _ hscopes => rw [hscopes]; exact List.cons_ne_nil _ _
  | assigns _ hk => rw [hkind] at hk; cases hk
  | copies hcopied => exact absurd (.inr (.inl hkind)) (hcopied hcode)

/-- Both states are in code, the second with further scopes around those of the first. -/
structure Inside (outer : List ScopeKind) (a b : Emitter) : Prop where
  code : a.context = .code
  standing : b.standing = a.standing.within outer

/-- **A step within further scopes is the same step**, on the line that is there. -/
theorem Step.inside {outer : List ScopeKind} (h : Step options a segment next)
    (hin : Inside outer a b) (hflat : segment.kind.IsFlat) (segment' : Segment)
    (hkind : segment'.kind = segment.kind) (htext : segment'.text = segment.text) :
    ∃ next', Step options b segment' next' ∧ Inside outer next next'
      ∧ next'.line = write options b.line (a.standing.role segment, segment)
      ∧ next'.linesBefore = b.linesBefore := by
  have hcode : b.context = .code := (congrArg Standing.context hin.standing).trans hin.code
  have hscopes : segment.kind = .closeBrace → a.standing.scopes ≠ [] := by
    intro hclose hnil
    exact h.scopes_ne_nil hin.code hclose (List.map_eq_nil_iff.mp hnil)
  obtain ⟨hrole, hafter⟩ := Standing.role_within hin.code hflat hscopes hkind outer
  have hopen : segment'.kind = .closeBrace → b.scopes ≠ [] := by
    intro hclose hnil
    have hkinds := congrArg Standing.scopes hin.standing
    unfold Emitter.standing at hkinds
    rw [hnil] at hkinds
    exact hscopes (hkind ▸ hclose) (List.append_eq_nil_iff.mp hkinds.symm).1
  obtain ⟨next', hstep⟩ := exists_step options segment' hcode (hkind ▸ hflat) hopen
  obtain ⟨hline, hbefore⟩ := hstep.writes (by
    rw [hkind]
    rcases hflat with hk | hk | hk | hk | hk <;> rw [hk] <;> decide)
  refine ⟨next', hstep, ⟨h.code hin.code hflat, ?_⟩, ?_, hbefore⟩
  · rw [hstep.standing, hin.standing, hafter, h.standing]
  · rw [hline, hin.standing, hrole, write, write, htext]

variable {outer : List ScopeKind} {items : List (SegmentKind × List Char)} {i : Nat}

/-- **A run within further scopes is the same run**, and what it writes goes on from the line that
is there. -/
theorem Accepts.inside (h : Accepts options a (Lexeme.layOut i items) last)
    (hflat : ∀ item ∈ items, item.1.IsFlat) (hin : Inside outer a b) (j : Nat) :
    ∃ last', Accepts options b (Lexeme.layOut j items) last' ∧ Inside outer last last'
      ∧ last'.line = (roles a.standing (Lexeme.layOut i items)).foldl (write options) b.line
      ∧ last'.linesBefore = b.linesBefore := by
  induction items generalizing a b i j with
  | nil =>
      obtain rfl := accepts_nil h
      exact ⟨b, rfl, hin, rfl, rfl⟩
  | cons item items ih =>
      obtain ⟨hfirst, hrest⟩ := List.forall_mem_cons.mp hflat
      obtain ⟨next, hstep, hrun⟩ := accepts_cons h
      obtain ⟨next', hstep', hin', hline, hbefore⟩ := hstep.inside hin hfirst
        ⟨item.1, ⟨j, j + Text.byteSize item.2⟩, item.2⟩ rfl rfl
      obtain ⟨last', hrun', hlast, hwritten, hkept⟩ :=
        ih hrun hrest hin' (j + Text.byteSize item.2)
      refine ⟨last', hstep'.accepts hrun', hlast, ?_, hkept.trans hbefore⟩
      rw [hwritten, hline, hstep.standing]
      rfl

/-- The states of two runs that have written the same line. -/
structure OnLine (a b : Emitter) : Prop where
  inside : Inside [] a b
  line : b.line = a.line
  linesBefore : b.linesBefore = a.linesBefore

theorem Inside.refl (hcode : a.context = .code) : Inside [] a a where
  code := hcode
  standing := by
    unfold Standing.within
    rw [List.append_nil]

theorem OnLine.refl (hcode : a.context = .code) : OnLine a a :=
  ⟨.refl hcode, rfl, rfl⟩

theorem OnLine.trans {c : Emitter} (h : OnLine a b) (h' : OnLine b c) : OnLine a c where
  inside := by
    refine ⟨h.inside.code, ?_⟩
    rw [h'.inside.standing, h.inside.standing]
    unfold Standing.within
    simp
  line := h'.line.trans h.line
  linesBefore := h'.linesBefore.trans h.linesBefore

/-- A step on the same line is the same step. -/
theorem Step.onLine (h : Step options a segment next) (hon : OnLine a b)
    (hflat : segment.kind.IsFlat) (segment' : Segment) (hkind : segment'.kind = segment.kind)
    (htext : segment'.text = segment.text) :
    ∃ next', Step options b segment' next' ∧ OnLine next next' := by
  obtain ⟨next', hstep, hin, hline, hbefore⟩ := h.inside hon.inside hflat segment' hkind htext
  obtain ⟨hline', hbefore'⟩ := h.writes (by
    rcases hflat with hk | hk | hk | hk | hk <;> rw [hk] <;> decide)
  refine ⟨next', hstep, hin, ?_, ?_⟩
  · rw [hline, hline', hon.line]
  · rw [hbefore, hbefore', hon.linesBefore]

/-- White space is copied, and nothing else happens. -/
theorem Step.space (h : Step options a segment next) (hcode : a.context = .code)
    (hkind : segment.kind = .whitespace) :
    next.standing = a.standing ∧ next.line = a.line ++ segment.text
      ∧ next.linesBefore = a.linesBefore := by
  obtain ⟨hline, hbefore⟩ := h.writes (by rw [hkind]; decide)
  refine ⟨?_, ?_, hbefore⟩
  · rw [h.standing]
    unfold Standing.after Standing.scopesAfter Emitter.standing
    rw [hcode, Context.advance_flat (.inr (.inl hkind)), hkind]
    rfl
  · rw [hline]
    unfold write Standing.role
    rw [hkind]
    split <;> simp_all

/-- White space is always taken in code. -/
theorem exists_space (options : Options) (hcode : a.context = .code) (text : List Char)
    (offset : Nat) :
    ∃ next, Accepts options a (Lexeme.layOut offset [(.whitespace, text)]) next
      ∧ next.context = .code ∧ next.standing = a.standing ∧ next.line = a.line ++ text
      ∧ next.linesBefore = a.linesBefore := by
  have hflat : SegmentKind.whitespace.IsFlat := .inr (.inl rfl)
  obtain ⟨next, hstep⟩ := exists_step options
    ⟨.whitespace, ⟨offset, offset + Text.byteSize text⟩, text⟩ hcode hflat nofun
  exact ⟨next, hstep.accepts rfl, hstep.code hcode hflat, hstep.space hcode rfl⟩

/-- **It does not matter how white space is cut.** -/
theorem Accepts.glued {xs ys : List (SegmentKind × List Char)} (hglued : Glued xs ys) :
    ∀ {a b last : Emitter} {i : Nat} (j : Nat), (∀ item ∈ xs, item.1.IsFlat) → OnLine a b →
      Accepts options a (Lexeme.layOut i xs) last →
      ∃ last', Accepts options b (Lexeme.layOut j ys) last' ∧ OnLine last last' := by
  induction hglued with
  | nil =>
      intro a b last i j _ hon h
      obtain rfl := accepts_nil h
      exact ⟨b, rfl, hon⟩
  | cons item _ ih =>
      intro a b last i j hflat hon h
      obtain ⟨hfirst, hrest⟩ := List.forall_mem_cons.mp hflat
      obtain ⟨next, hstep, hrun⟩ := accepts_cons h
      obtain ⟨next', hstep', hon'⟩ := hstep.onLine hon hfirst
        ⟨item.1, ⟨j, j + Text.byteSize item.2⟩, item.2⟩ rfl rfl
      obtain ⟨last', hrun', hlast⟩ := ih (j + Text.byteSize item.2) hrest hon' hrun
      exact ⟨last', hstep'.accepts hrun', hlast⟩
  | glue u v _ ih =>
      -- two steps over white space against one
      intro a b last i j hflat hon h
      have hspace : SegmentKind.whitespace.IsFlat := .inr (.inl rfl)
      have hrest := (List.forall_mem_cons.mp (List.forall_mem_cons.mp hflat).2).2
      obtain ⟨next, hstep, hrun⟩ := accepts_cons h
      obtain ⟨next', hstep', hrun⟩ := accepts_cons hrun
      obtain ⟨hstand, hline, hbefore⟩ := hstep.space hon.inside.code rfl
      have hcode := hstep.code hon.inside.code hspace
      obtain ⟨hstand', hline', hbefore'⟩ := hstep'.space hcode rfl
      have hcodeb : b.context = .code :=
        (congrArg Standing.context hon.inside.standing).trans hon.inside.code
      obtain ⟨reached, hreached, -, hstandb, hlineb, hbeforeb⟩ :=
        exists_space options hcodeb (u ++ v) j
      have hon' : OnLine next' reached := by
        refine ⟨⟨hstep'.code hcode hspace, ?_⟩, ?_, ?_⟩
        · rw [hstandb, hon.inside.standing, hstand', hstand]
        · rw [hlineb, hon.line, hline', hline, List.append_assoc]
        · rw [hbeforeb, hon.linesBefore, hbefore', hbefore]
      obtain ⟨last', hrun', hlast⟩ := ih (j + Text.byteSize (u ++ v)) hrest hon' hrun
      exact ⟨last', hreached.append hrun', hlast⟩
  | trans h _ ih ih' =>
      intro a b last i j hflat hon h'
      obtain ⟨middle, hrun, hmiddle⟩ := ih i hflat (.refl hon.inside.code) h'
      obtain ⟨last', hrun', hlast⟩ := ih' j (h.isFlat hflat) hon hrun
      exact ⟨last', hrun', hmiddle.trans hlast⟩

/-- A brace that closes the only scope, the body of a match. -/
theorem exists_close (options : Options) (hcode : a.context = .code)
    (hscopes : a.standing.scopes = [.body]) (offset : Nat) :
    ∃ next, Accepts options a (Lexeme.layOut offset [(.closeBrace, ['}'])]) next
      ∧ next.context = .code ∧ next.scopes = [] ∧ next.line = a.line ++ Options.scopeClose
      ∧ next.linesBefore = a.linesBefore := by
  let closing : Segment := ⟨.closeBrace, ⟨offset, offset + Text.byteSize ['}']⟩, ['}']⟩
  have hflat : closing.kind.IsFlat := .inr (.inr (.inr (.inl rfl)))
  obtain ⟨next, hstep⟩ := exists_step options closing hcode hflat fun _ hnil => by
    unfold standing at hscopes
    rw [hnil] at hscopes
    cases hscopes
  have hkind : closing.kind = .closeBrace := rfl
  obtain ⟨hline, hbefore⟩ := hstep.writes (by rw [hkind]; decide)
  have hrole : a.standing.role closing = .closeBody :=
    Standing.role_eq_closeBody.mpr ⟨hcode, hkind, by rw [hscopes]; rfl⟩
  have hstanding : a.standing.context = .code := hcode
  have hafter : next.standing.scopes = [] := by
    rw [hstep.standing]
    unfold Standing.after Standing.scopesAfter
    dsimp only
    rw [hstanding, hkind, hscopes]
    rfl
  refine ⟨next, hstep.accepts rfl, hstep.code hcode hflat, List.map_eq_nil_iff.mp hafter, ?_,
    hbefore⟩
  rw [hline, hrole]
  rfl

/-- **From the opening brace on**: a blank, the body as it runs on its own, a blank, and the brace
that ends it. -/
theorem exists_lineBody (hstart : Inside [.body] {} a) (hflat : ∀ item ∈ items, item.1.IsFlat)
    (hbody : Accepts options {} (Lexeme.layOut 0 items) last) (hscopes : last.scopes = [])
    (i : Nat) :
    ∃ final, Accepts options a (Lexeme.layOut i
          ((.whitespace, [' ']) :: (items ++ [(.whitespace, [' ']), (.closeBrace, ['}'])]))) final
      ∧ final.context = .code ∧ final.scopes = [] ∧ final.linesBefore = a.linesBefore
      ∧ final.line = (roles {} (Lexeme.layOut 0 items)).foldl (write options) (a.line ++ [' '])
        ++ ' ' :: Options.scopeClose := by
  have hcode : a.context = .code := congrArg Standing.context hstart.standing
  obtain ⟨e₁, hrun₁, -, hstand₁, hline₁, hbefore₁⟩ := exists_space options hcode [' '] i
  obtain ⟨e₂, hrun₂, hin₂, hline₂, hbefore₂⟩ := hbody.inside hflat
    (⟨rfl, hstand₁.trans hstart.standing⟩ : Inside [.body] {} e₁) (i + Text.byteSize [' '])
  have hcode₂ : e₂.context = .code := (congrArg Standing.context hin₂.standing).trans hin₂.code
  obtain ⟨e₃, hrun₃, hcode₃, hstand₃, hline₃, hbefore₃⟩ := exists_space options hcode₂ [' ']
    (i + Text.byteSize [' '] + Text.byteSize (items.flatMap Prod.snd))
  -- the body has closed its own scopes, so the only one left is that of the block
  have hbraces : e₃.standing.scopes = [.body] := by
    rw [hstand₃, hin₂.standing]
    unfold Standing.within Emitter.standing
    rw [hscopes]
    rfl
  obtain ⟨e₄, hrun₄, hcode₄, hscopes₄, hline₄, hbefore₄⟩ := exists_close options hcode₃ hbraces
    (i + Text.byteSize [' '] + Text.byteSize (items.flatMap Prod.snd) + Text.byteSize [' '])
  refine ⟨e₄, ?_, hcode₄, hscopes₄, ?_, ?_⟩
  · rw [Lexeme.layOut, Lexeme.layOut_append]
    exact hrun₁.append (hrun₂.append (hrun₃.append hrun₄))
  · rw [hbefore₄, hbefore₃, hbefore₂, hbefore₁]
  · rw [hline₄, hline₃, hline₂, hline₁, List.append_assoc]
    rfl

/-- What the head of a block has put out. -/
theorem line_atBrace (options : Options) (p : List Char) (offset : Nat) :
    (atBrace options p offset).line
      = options.assignment (Text.indent p) (Text.trim (Text.body p))
        ++ ' ' :: options.scopeOpen := by
  simp [atBrace, line, Piece.isLineBreak, Piece.assemble, Piece.text]

/-- **A block on one line is taken**, and its body goes on from the line of its head. -/
theorem accepts_lineBlock (options : Options) {p b : List Char} (hp : IsPattern p)
    (hunmarked : ∀ c ∈ p, IsUnmarked c) (hb : ∀ c ∈ b, IsUnmarked c) {last : Emitter}
    (hbody : Accepts options {} (lex b) last) (hscopes : last.scopes = []) :
    ∃ final, Accepts options {} (lex (p ++ [' '] ++ arrowBrace ++ ' ' :: (b ++ [' ', '}']))) final
      ∧ final.context = .code ∧ final.scopes = [] ∧ final.linesBefore = []
      ∧ final.line = (roles {} (lex b)).foldl (write options)
          (options.assignment (Text.indent p) (Text.trim (Text.body p)) ++ ' ' :: options.scopeOpen
            ++ [' '])
        ++ ' ' :: Options.scopeClose := by
  obtain ⟨offset, hhead⟩ := accepts_opening options hp
  have hunmarked' : ∀ c ∈ p ++ [' '] ++ arrowBrace, IsUnmarked c := by
    refine List.forall_mem_append.mpr ⟨List.forall_mem_append.mpr ⟨hunmarked, ?_⟩, ?_⟩ <;> decide
  generalize p ++ [' '] ++ arrowBrace = head at hhead hunmarked' ⊢
  rw [lex_eq_layOut, Grammar.bareSegments_eq] at hhead hbody
  rw [lex_eq_layOut, lex_eq_layOut, Grammar.bareSegments_eq, Grammar.bareSegments_eq]
  have hbflat := isFlat_segments hb
  obtain ⟨reached, hrun, hcode, hnone, hbefore, hline⟩ := exists_lineBody
    (⟨rfl, rfl⟩ : Inside [.body] {} (atBrace options p offset)) hbflat hbody hscopes
    (0 + Text.byteSize ((Grammar.segments head).flatMap Prod.snd))
  have hcut := hhead.append hrun
  rw [← Lexeme.layOut_append] at hcut
  -- in the block the blanks run on into the white space of the head and of the body
  have hspace : SegmentKind.whitespace.IsFlat := .inr (.inl rfl)
  have hall : ∀ item ∈ Grammar.segments head ++ (.whitespace, [' '])
      :: (Grammar.segments b ++ [(.whitespace, [' ']), (.closeBrace, ['}'])]), item.1.IsFlat := by
    refine List.forall_mem_append.mpr ⟨isFlat_segments hunmarked', List.forall_mem_cons.mpr
      ⟨hspace, List.forall_mem_append.mpr ⟨hbflat, List.forall_mem_cons.mpr ⟨hspace, ?_⟩⟩⟩⟩
    exact List.forall_mem_singleton.mpr (.inr (.inr (.inr (.inl rfl))))
  obtain ⟨final, hfinal, hon⟩ :=
    Accepts.glued (Grammar.glued_segments hunmarked' hb) 0 hall (.refl rfl) hcut
  have hstanding : final.standing.scopes = [] := by
    rw [hon.inside.standing]
    unfold Standing.within standing
    rw [hnone]
    rfl
  refine ⟨final, hfinal, ?_, List.map_eq_nil_iff.mp hstanding, ?_, ?_⟩
  · exact (congrArg Standing.context hon.inside.standing).trans hon.inside.code
  · rw [hon.linesBefore, hbefore]
    rfl
  · rw [hon.line, hline, line_atBrace]

end Emitter

/-! ## Arrows in the body -/

namespace Text

theorem mem_of_mem_body {c : Char} {cs : List Char} (h : c ∈ body cs) : c ∈ cs :=
  (List.dropWhile_suffix _).subset h

theorem mem_of_mem_trim {c : Char} {cs : List Char} (h : c ∈ trim cs) : c ∈ cs := by
  unfold trim trimEnd trimStart at h
  have hend := (List.dropWhile_suffix _).subset (List.mem_reverse.mp h)
  exact (List.dropWhile_suffix _).subset (List.mem_reverse.mp hend)

end Text

/-- In code all arrows are taken for arrows. -/
theorem assign_iff_arrow {standing : Standing} (hcode : standing.context = .code)
    {segments : List Segment} (hflat : ∀ segment ∈ segments, segment.kind.IsFlat) :
    ∀ item ∈ roles standing segments, item.1 = .assign ↔ item.2.kind = .arrow := by
  induction segments generalizing standing with
  | nil => exact fun _ hitem => absurd hitem List.not_mem_nil
  | cons segment segments ih =>
      obtain ⟨hfirst, hrest⟩ := List.forall_mem_cons.mp hflat
      have hafter : (standing.after segment).context = .code := by
        unfold Standing.after
        rw [hcode, Context.advance_flat hfirst]
      refine List.forall_mem_cons.mpr ⟨?_, ih hafter hrest⟩
      rw [Standing.role_eq_assign, and_iff_right hcode]

/-- How every assignment starts after its indent. -/
def assignHead : List Char :=
  "__match[".toList

theorem trim_assignHead (cs : List Char) :
    Text.trim (assignHead ++ cs) = assignHead ++ Text.trimEnd cs :=
  Text.trimEnd_append (c := '[') (by decide) "__match".toList cs

/-- An arrow on the line of an assignment puts another assignment in front. -/
theorem write_arrow {indent : List Char} (hindent : ∀ c ∈ indent, Text.isIndent c = true)
    (rest : List Char) (segment : Segment) :
    write {} (indent ++ (assignHead ++ rest)) (.assign, segment)
      = indent ++ (assignHead ++ (assignHead ++ (Text.trimEnd rest ++ "] =".toList))) := by
  have hbody : Text.body (indent ++ (assignHead ++ rest)) = assignHead ++ rest := by
    rw [Text.body, List.dropWhile_append_of_pos hindent]
    rfl
  have hline : Text.indent (indent ++ (assignHead ++ rest)) = indent := by
    have hstart : (assignHead ++ rest).takeWhile Text.isIndent = [] := rfl
    rw [Text.indent, List.takeWhile_append_of_pos hindent, hstart, List.append_nil]
  have hhead : ({} : Options).matchTable.toList ++ ['['] = assignHead := rfl
  rw [write, hbody, hline, trim_assignHead, List.append_assoc indent, hhead]
  simp only [List.append_assoc]

/-- The line of an assignment starts with one whatever is written on it, and with two once an arrow
is. -/
theorem write_assignHead {indent : List Char} (hindent : ∀ c ∈ indent, Text.isIndent c = true)
    (rest : List Char) (item : Role × Segment) :
    ∃ rest', write {} (indent ++ (assignHead ++ rest)) item = indent ++ (assignHead ++ rest')
      ∧ (item.1 = .assign ∨ assignHead <+: rest → assignHead <+: rest') := by
  have hadd : ∀ added, ∃ rest',
      indent ++ (assignHead ++ rest) ++ added = indent ++ (assignHead ++ rest')
        ∧ (assignHead <+: rest → assignHead <+: rest') := by
    intro added
    refine ⟨rest ++ added, ?_, fun h => h.trans (List.prefix_append _ _)⟩
    simp only [List.append_assoc]
  obtain ⟨role, segment⟩ := item
  cases role with
  | assign => exact ⟨_, write_arrow hindent rest segment, fun _ => List.prefix_append _ _⟩
  | openBody =>
      obtain ⟨rest', heq, htwo⟩ := hadd ({} : Options).scopeOpen
      exact ⟨rest', heq, fun h => htwo (h.resolve_left nofun)⟩
  | closeBody =>
      obtain ⟨rest', heq, htwo⟩ := hadd "end)".toList
      exact ⟨rest', heq, fun h => htwo (h.resolve_left nofun)⟩
  | copied =>
      obtain ⟨rest', heq, htwo⟩ := hadd segment.text
      exact ⟨rest', heq, fun h => htwo (h.resolve_left nofun)⟩

theorem foldl_assignHead {indent : List Char} (hindent : ∀ c ∈ indent, Text.isIndent c = true)
    {items : List (Role × Segment)} {rest : List Char}
    (h : assignHead <+: rest ∨ ∃ item ∈ items, item.1 = .assign) :
    ∃ rest', items.foldl (write {}) (indent ++ (assignHead ++ rest))
      = indent ++ (assignHead ++ (assignHead ++ rest')) := by
  induction items generalizing rest with
  | nil =>
      rcases h with ⟨rest', rfl⟩ | ⟨item, hitem, -⟩
      · exact ⟨rest', rfl⟩
      · cases hitem
  | cons item items ih =>
      obtain ⟨rest', hwrite, htwo⟩ := write_assignHead hindent rest item
      rw [List.foldl_cons, hwrite]
      refine ih ?_
      rcases h with hrest | ⟨other, hother, hrole⟩
      · exact .inl (htwo (.inr hrest))
      · rcases List.mem_cons.mp hother with rfl | hother
        · exact .inl (htwo (.inl hrole))
        · exact .inr ⟨other, hother, hrole⟩

/-! ## Whole blocks -/

/-- A block on one line. -/
def lineBlock (p b : String) : String :=
  p ++ " => \x7b " ++ b ++ " \x7d"

theorem toList_lineBlock (p b : String) :
    (lineBlock p b).toList
      = p.toList ++ [' '] ++ arrowBrace ++ ' ' :: (b.toList ++ [' ', '}']) := by
  simp [lineBlock, arrowBrace]

/-- What the head of a block on one line becomes. -/
def lineHead (p : String) : String :=
  String.ofList (Text.indent p.toList) ++ "__match[" ++ String.ofList (Text.trim (Text.body p.toList))
    ++ "] = MatchScope.new(function (__match) "

/-- What the brace at its end becomes. -/
def lineEnd : String :=
  " end)"

theorem toList_lineHead (p : String) :
    (lineHead p).toList = Text.indent p.toList ++ (assignHead ++ (Text.trim (Text.body p.toList)
      ++ ']' :: " = MatchScope.new(function (__match) ".toList)) := by
  have hindent : (String.ofList (Text.indent p.toList)).toList = Text.indent p.toList :=
    String.toList_ofList
  have hpattern : (String.ofList (Text.trim (Text.body p.toList))).toList
      = Text.trim (Text.body p.toList) := String.toList_ofList
  rw [lineHead, String.toList_append, String.toList_append, String.toList_append, hindent,
    hpattern, List.append_assoc, List.append_assoc]
  rfl

theorem lineHead_eq (p : String) :
    ({} : Options).assignment (Text.indent p.toList) (Text.trim (Text.body p.toList))
      ++ ' ' :: ({} : Options).scopeOpen ++ [' '] = (lineHead p).toList := by
  have hhead : ({} : Options).matchTable.toList ++ ['['] = assignHead := rfl
  have hopen : "] =".toList ++ (' ' :: ({} : Options).scopeOpen ++ [' '])
      = ']' :: " = MatchScope.new(function (__match) ".toList := by decide
  rw [toList_lineHead, ← hopen, ← hhead, Options.assignment]
  simp only [List.append_assoc, List.cons_append]

/-- An assignment does not start like the pattern of one, if that has no square bracket. -/
theorem assignHead_ne {pattern : List Char} (h : '[' ∉ pattern) (rest rest' : List Char) :
    assignHead ++ rest ≠ pattern ++ ']' :: rest' := by
  intro heq
  rcases List.append_eq_append_iff.mp heq with ⟨middle, hpattern, -⟩ | ⟨middle, hhead, hrest⟩
  · refine h (hpattern ▸ List.mem_append_left middle ?_)
    decide
  · -- the square bracket of the pattern would stand in the name of the table
    cases middle with
    | nil =>
        rw [List.append_nil] at hhead
        exact h (hhead ▸ by decide)
    | cons c middle =>
        obtain rfl : ']' = c := (List.cons.inj hrest).1
        have hmem : ']' ∈ assignHead := by
          rw [hhead]
          exact List.mem_append_right _ List.mem_cons_self
        exact absurd hmem (by decide)

/-- **A block on one line.** It is taken, and its body goes on from the line of its head. So it
becomes the assignment of a scope with the Lua of its body inside if the body has no arrow, and
only then. -/
theorem line_block {p b o : String} (hp : ∀ c ∈ p.toList, IsUnmarked c)
    (hvisible : ∃ c ∈ p.toList, c ≠ ' ' ∧ c ≠ '\t')
    (hpattern : ∀ segment ∈ lex p.toList, segment.kind = .text ∨ segment.kind = .whitespace)
    (hb : ∀ c ∈ b.toList, IsUnmarked c) (ho : transpile {} b = .ok o) :
    ∃ out, transpile {} (lineBlock p b) = .ok out
      ∧ out.toList
        = (roles {} (lex b.toList)).foldl (write {}) (lineHead p).toList ++ lineEnd.toList
      ∧ (out = lineHead p ++ o ++ lineEnd ↔ ∀ segment ∈ lex b.toList, segment.kind ≠ .arrow) := by
  have hIsPattern : IsPattern p.toList :=
    ⟨hvisible, fun segment hsegment => (hpattern segment hsegment).imp_right .inl⟩
  obtain ⟨last, hbody, hscopes, rfl⟩ := transpile_ok ho
  obtain ⟨final, hrun, hcode, hfinal, hbefore, hline⟩ :=
    Emitter.accepts_lineBlock {} hIsPattern hp hb hbody hscopes
  rw [lineHead_eq] at hline
  rw [← toList_lineBlock] at hrun
  have hfinish : final.finish {} = .ok final.pieces.reverse :=
    (Emitter.Finishes.whole (fun _ => Emitter.outermost?_code hcode) hfinal).finish_eq
  have hout : Piece.assemble final.pieces.reverse
      = (roles {} (lex b.toList)).foldl (write {}) (lineHead p).toList ++ lineEnd.toList := by
    rw [Emitter.assemble_eq, hbefore, hline]
    rfl
  refine ⟨_, transpile_of_ok ((emit_of_accepts hrun).trans hfinish), ?_, ?_⟩
  · rw [String.toList_ofList, hout]
  rw [← String.toList_inj, String.toList_ofList, hout, hbody.writes_start]
  have harrows : ∀ item ∈ roles {} (lex b.toList), item.1 = .assign ↔ item.2.kind = .arrow :=
    assign_iff_arrow rfl (isFlat_lex hb)
  constructor
  · -- with an arrow, the line starts with two assignments
    intro heq segment hsegment hkind
    rw [← map_snd_roles {} (lex b.toList)] at hsegment
    obtain ⟨item, hitem, rfl⟩ := List.mem_map.mp hsegment
    have hindent : ∀ c ∈ Text.indent p.toList, Text.isIndent c = true :=
      fun c hc => List.all_eq_true.mp List.all_takeWhile c hc
    have hassign : ∃ item ∈ roles {} (lex b.toList), item.1 = .assign :=
      ⟨item, hitem, (harrows item hitem).mpr hkind⟩
    obtain ⟨rest, htwo⟩ := foldl_assignHead hindent (.inr hassign)
    rw [String.toList_append, String.toList_append, toList_lineHead, htwo] at heq
    simp only [List.append_assoc, List.cons_append, List.append_cancel_left_eq] at heq
    refine assignHead_ne (fun hmem => ?_) _ _ heq
    exact absurd (hp '[' (Text.mem_of_mem_body (Text.mem_of_mem_trim hmem))) (by decide)
  · -- without an arrow, all of the body is copied
    intro hnone
    have hcopied := roles_copied ⟨rfl, List.not_mem_nil⟩ fun item hitem hrole =>
      hnone item.2 (by
        rw [← map_snd_roles {} (lex b.toList)]
        exact List.mem_map_of_mem hitem) ((harrows item hitem).mp hrole)
    rw [foldl_copied {} hcopied, writeOn_copied {} hcopied]
    simp only [String.toList_append, String.toList_ofList, List.nil_append, lineIn]

/-- A body without an arrow. -/
theorem line_block_braces :
    transpile {} (lineBlock " a " "f\x7b 1 \x7d ")
      = .ok " __match[a] = MatchScope.new(function (__match) f\x7b 1 \x7d  end)" := by
  obtain ⟨out, htranspile, -, hout⟩ := line_block (p := " a ") (b := "f\x7b 1 \x7d ")
    (o := "f\x7b 1 \x7d ") (by decide) ⟨'a', by decide, by decide⟩ (by decide) (by decide)
    (by rfl)
  rw [htranspile, hout.mpr (by decide)]
  decide

/-- An arrow in the body of a block on one line takes back the head of the block. -/
theorem arrow_takes_back_head :
    transpile {} "b => c" = .ok "__match[b] = c"
      ∧ transpile {} (lineBlock "a" "b => c")
        = .ok "__match[__match[a] = MatchScope.new(function (__match) b] = c end)"
      ∧ transpile {} (lineBlock "a" "b => c")
        ≠ .ok "__match[a] = MatchScope.new(function (__match) __match[b] = c end)" := by
  have hout : transpile {} (lineBlock "a" "b => c")
      = .ok "__match[__match[a] = MatchScope.new(function (__match) b] = c end)" := by rfl
  refine ⟨by rfl, hout, ?_⟩
  rw [hout]
  decide

end Keybind
