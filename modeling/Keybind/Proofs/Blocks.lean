import Keybind.Proofs.Conservation
import Keybind.Proofs.Joining

/-!
# Blocks

A pattern, an arrow and a body in braces, the body on lines of its own, is a
block. It becomes the assignment of a scope, with the Lua of the body inside: what
a body becomes does not depend on the block that it stands in, so blocks may be
nested to any depth.

The body is lexed as if it stood alone, because a block has newlines on both of
its sides, and no backslash at its end can do harm, because no quotation mark
follows. It is taken on top of the block's head, whole lines with one scope open,
where a run is the same run (`Accepts.onto`). A body that becomes Lua ends in code
or in a line comment and leaves no scope of its own open. So the last brace is one
of the code, and closes the scope of the block.

The pattern is any text that the lexer takes for text, white space and strings.
White space at its end runs on into the blank before the arrow, which changes a
token but none of the kinds (`inline_space`).
-/

namespace Keybind

/-! ## Lexing the head of a block -/

/-- The kinds of segment that a pattern is made of. -/
def SegmentKind.IsInline (kind : SegmentKind) : Prop :=
  kind = .text ∨ kind = .whitespace ∨ ∃ mark, kind = .quoted mark

instance (kind : SegmentKind) : Decidable kind.IsInline :=
  decidable_of_iff (kind = .text ∨ kind = .whitespace ∨ kind = .quoted .double
    ∨ kind = .quoted .single) <| by
      refine or_congr_right (or_congr_right ⟨?_, ?_⟩)
      · rintro (h | h) <;> exact ⟨_, h⟩
      · rintro ⟨_ | _, h⟩
        · exact .inl h
        · exact .inr h

/-- A text that can stand before an arrow: it is made of text, white space and strings, and is not
an indent only. -/
structure IsPattern (p : List Char) : Prop where
  visible : ∃ c ∈ p, c ≠ ' ' ∧ c ≠ '\t'
  inline : ∀ segment ∈ lex p, segment.kind.IsInline

instance (p : List Char) : Decidable (IsPattern p) :=
  -- look through the text, not through all characters
  letI : Decidable (∃ c ∈ p, c ≠ ' ' ∧ c ≠ '\t') :=
    List.decidableBEx (fun c => c ≠ ' ' ∧ c ≠ '\t') p
  decidable_of_iff ((∃ c ∈ p, c ≠ ' ' ∧ c ≠ '\t') ∧ ∀ segment ∈ lex p, segment.kind.IsInline)
    ⟨fun h => ⟨h.1, h.2⟩, fun h => ⟨h.visible, h.inline⟩⟩

/-- The kinds of the segments depend on the kinds of the tokens only. -/
theorem kind_lex_congr {a b : List Char}
    (h : (Token.split a).map Prod.fst = (Token.split b).map Prod.fst) :
    (lex a).map (·.kind) = (lex b).map (·.kind) := by
  have hkinds : ∀ cs : List Char,
      (lex cs).map (·.kind) = (groups id ((Token.split cs).map Prod.fst)).map (·.kind) := by
    intro cs
    have hbare : (lex cs).map (·.kind) = (bareSegments cs).map Prod.fst := by
      rw [← bare_lex, List.map_map]
      rfl
    rw [hbare, bareSegments, groups_map, List.map_map, List.map_map]
    rfl
  rw [hkinds, hkinds, h]

/-- A character that only makes the last token longer changes no kind. -/
theorem Token.splitFrom_snoc (t : Token) (read a : List Char) {c : Char}
    (h : ∀ x ∈ (splitFrom t read a).getLast?, x.1.extend? c = some x.1) :
    (splitFrom t read (a ++ [c])).map Prod.fst = (splitFrom t read a).map Prod.fst := by
  induction a generalizing t read with
  | nil =>
      have hgrows : t.extend? c = some t := h (t, read.reverse) rfl
      rw [List.nil_append, splitFrom.eq_2, hgrows]
      rfl
  | cons d a ih =>
      rw [List.cons_append, splitFrom, splitFrom]
      rw [splitFrom] at h
      cases hext : t.extend? d with
      | some t' =>
          rw [hext] at h
          exact ih t' (d :: read) h
      | none =>
          rw [hext] at h
          dsimp only at h
          rw [List.getLast?_cons_of_ne_nil (splitFrom_ne_nil _ _ _)] at h
          exact congrArg (t :: ·) (ih (start d) [d] h)

/-- The first segment after a seam. -/
theorem startsApart_of_split {mode : Mode} {cs : List Char} {x : Token × List Char}
    {xs : List (Token × List Char)} (hsplit : Token.split cs = x :: xs)
    (hkind : (Head.of mode x.1 (xs.map Prod.fst)).kind ≠ .text) : StartsApart mode cs := by
  unfold StartsApart
  rw [hsplit, scan_cons Prod.fst mode x xs rfl]
  rintro group ⟨⟩
  exact hkind

/-- A pattern leaves the lexer in code. -/
theorem endMode_inline {p : List Char} (h : ∀ segment ∈ lex p, segment.kind.IsInline) :
    endMode p = .code := by
  have hcode : ∀ kinds : List SegmentKind, (∀ kind ∈ kinds, kind.IsInline) →
      Mode.code.after kinds = .code := by
    intro kinds
    induction kinds with
    | nil => exact fun _ => rfl
    | cons kind kinds ih =>
        intro hkinds
        obtain ⟨hfirst, hrest⟩ := List.forall_mem_cons.mp hkinds
        have hfollow : Mode.code.follow kind = .code := by
          rcases hfirst with rfl | rfl | ⟨mark, rfl⟩ <;> rfl
        rw [Mode.after_cons, hfollow, ih hrest]
  exact hcode _ (List.forall_mem_map.mpr h)

/-- **A blank after a pattern** leaves it a text of the same kinds of segment. -/
theorem inline_space {p : List Char} (h : ∀ segment ∈ lex p, segment.kind.IsInline) :
    ∀ segment ∈ lex (p ++ [' ']), segment.kind.IsInline := by
  by_cases hlast : ∀ x ∈ (Token.split p).getLast?, x.1 ≠ .whitespace
  · -- the blank is a segment of its own
    have hstop : ∀ x ∈ (Token.split p).getLast?, x.1.extend? ' ' = none := by
      intro x hx
      have hne := hlast x hx
      cases hkind : x.1 with
      | whitespace => exact absurd hkind hne
      | _ => rfl
    have hlex := lex_append (b := [' ']) (Token.split_append hstop [])
      (sealed_unquoted (by decide) _ (by decide) (by decide))
      (startsApart_of_split rfl (by rw [endMode_inline h]; exact nofun))
    rw [endMode_inline h, bareSegmentsFrom_code] at hlex
    rw [hlex]
    refine List.forall_mem_append.mpr ⟨h, List.forall_mem_singleton.mpr (.inr (.inl rfl))⟩
  · -- the blank is part of the white space before it
    push Not at hlast
    obtain ⟨last, hmem, hkind⟩ := hlast
    have htokens : (Token.split (p ++ [' '])).map Prod.fst = (Token.split p).map Prod.fst := by
      cases p with
      | nil => cases hmem
      | cons c p =>
          refine Token.splitFrom_snoc (Token.start c) [c] p fun x hx => ?_
          obtain rfl : last = x := Option.mem_unique hmem hx
          rw [hkind]
          rfl
    have hkinds := kind_lex_congr htokens
    intro segment hsegment
    have hmem' : segment.kind ∈ (lex p).map (·.kind) := by
      rw [← hkinds]
      exact List.mem_map_of_mem hsegment
    obtain ⟨other, hother, heq⟩ := List.mem_map.mp hmem'
    rw [← heq]
    exact h other hother

/-- What follows the pattern in the head of a block. -/
def arrowBrace : List Char :=
  ['=', '>', ' ', '{']

/-- **The head of a block.** -/
theorem lex_head {p : List Char} (h : ∀ segment ∈ lex p, segment.kind.IsInline) :
    lex (p ++ [' '] ++ arrowBrace)
      = lex (p ++ [' ']) ++ Lexeme.layOut (Text.byteSize (p ++ [' ']))
        [(.arrow, ['=', '>']), (.whitespace, [' ']), (.openBrace, ['{'])] := by
  have hstop : ∀ x ∈ (Token.split (p ++ [' '])).getLast?, x.1.extend? '=' = none := by
    intro x _
    cases x.1 <;> rfl
  have hmode := endMode_inline (inline_space h)
  have hlex := lex_append (b := arrowBrace) (Token.split_append hstop ['>', ' ', '{'])
    (sealed_unquoted (by decide) _ (by decide) (by decide))
    (startsApart_of_split rfl (by rw [hmode]; exact nofun))
  rw [hmode, bareSegmentsFrom_code] at hlex
  exact hlex

/-- A head leaves the lexer in code. -/
theorem endMode_head {p : List Char} (h : ∀ segment ∈ lex p, segment.kind.IsInline) :
    endMode (p ++ [' '] ++ arrowBrace) = .code := by
  have hmode : Mode.code.after ((lex (p ++ [' '])).map (·.kind)) = .code :=
    endMode_inline (inline_space h)
  rw [endMode, lex_head h, List.map_append, Mode.after_append, hmode]
  rfl

/-! ## The emitter on the head of a block -/

namespace Text

/-- White space at the end is trimmed off. -/
theorem trim_snoc {c : Char} (hc : isBlank c = true) (cs : List Char) :
    trim (cs ++ [c]) = trim cs := by
  have hend : ∀ xs, trimEnd (xs ++ [c]) = trimEnd xs := by
    intro xs
    rw [trimEnd, List.reverse_append, List.reverse_singleton, List.singleton_append,
      List.dropWhile_cons_of_pos hc, trimEnd]
  unfold trim trimStart
  rw [List.dropWhile_append]
  split
  · rename_i hnone
    rw [List.isEmpty_iff.mp hnone, List.dropWhile_cons_of_pos hc]
    rfl
  · exact hend _

/-- The indent ends before the text does, if there is more than an indent. -/
theorem indent_snoc {cs : List Char} (h : ∃ c ∈ cs, c ≠ ' ' ∧ c ≠ '\t') (c : Char) :
    indent (cs ++ [c]) = indent cs := by
  unfold indent
  rw [List.takeWhile_append]
  split
  · rename_i hall
    obtain ⟨d, hd, hspace, htab⟩ := h
    rw [← List.takeWhile_prefix isIndent |>.eq_of_length hall] at hd
    have hindent := List.all_eq_true.mp List.all_takeWhile d hd
    rw [isIndent, Bool.or_eq_true, beq_iff_eq, beq_iff_eq] at hindent
    exact absurd hindent (not_or.mpr ⟨hspace, htab⟩)
  · rfl

end Text

namespace Emitter

variable {options : Options}

theorem copy_inline {segment : Segment} (h : segment.kind.IsInline) :
    segment.copy = .source segment.text := by
  refine if_neg fun hkind => ?_
  rw [hkind] at h
  rcases h with hk | hk | ⟨mark, hk⟩ <;> cases hk

/-- A segment of a pattern is copied. -/
theorem step_inline (options : Options) {segment : Segment} (h : segment.kind.IsInline)
    (pieces : List Piece) :
    Step options { pieces } segment { pieces := segment.copy :: pieces } where
  context := Context.advance_other (by
    rcases h with hk | hk | ⟨mark, hk⟩ <;> simp [Context.Heeds, SegmentKind.IsDelimiter, hk])
  afterArrow := by
    unfold arrowAfter
    rcases h with hk | hk | ⟨mark, hk⟩ <;> rw [hk] <;> rfl
  output := .copies fun _ => by
    rcases h with hk | hk | ⟨_ | _, hk⟩ <;> rw [hk] <;> decide

theorem accepts_inline (options : Options) {segments : List Segment}
    (h : ∀ segment ∈ segments, segment.kind.IsInline) (pieces : List Piece) :
    Accepts options { pieces } segments
      { pieces := (segments.map Segment.copy).reverse ++ pieces } := by
  induction segments generalizing pieces with
  | nil => rfl
  | cons segment segments ih =>
      obtain ⟨hfirst, hrest⟩ := List.forall_mem_cons.mp h
      have hnext := ih hrest (segment.copy :: pieces)
      rw [List.append_cons, ← List.reverse_cons, ← List.map_cons] at hnext
      exact (step_inline options hfirst pieces).accepts hnext

/-- The line that a pattern has put out is the pattern. -/
theorem line_inline {segments : List Segment}
    (h : ∀ segment ∈ segments, segment.kind.IsInline) :
    ({ pieces := (segments.map Segment.copy).reverse } : Emitter).line
        = segments.flatMap (·.text)
      ∧ ({ pieces := (segments.map Segment.copy).reverse } : Emitter).linesBefore = [] := by
  have hplain : ∀ piece ∈ (segments.map Segment.copy).reverse, (!piece.isLineBreak) = true := by
    intro piece hmem
    obtain ⟨segment, hsegment, rfl⟩ := List.mem_map.mp (List.mem_reverse.mp hmem)
    rw [copy_inline (h segment hsegment)]
    rfl
  constructor
  · unfold line
    rw [List.takeWhile_eq_self_iff.mpr hplain, List.reverse_reverse, Piece.assemble,
      List.flatMap_map]
    exact List.flatMap_congr fun segment hsegment => by rw [copy_inline (h segment hsegment)]; rfl
  · unfold linesBefore
    exact List.dropWhile_eq_nil_iff.mpr hplain

/-- An arrow and a brace turn the line into the assignment of a scope. -/
theorem accepts_arrowBrace (options : Options) (pieces : List Piece) (offset : Nat) :
    Accepts options { pieces }
      (Lexeme.layOut offset [(.arrow, ['=', '>']), (.whitespace, [' ']), (.openBrace, ['{'])])
      { pieces := .generated options.scopeOpen :: .source [' ']
          :: assignPiece options { pieces } :: linesBefore { pieces }
        scopes := [⟨.body, offset + 3⟩] } :=
  rfl

/-- The state after the head of a block. -/
def atBrace (options : Options) (p : List Char) (offset : Nat) : Emitter where
  pieces := [.generated options.scopeOpen, .source [' '],
    .generated (options.assignment (Text.indent p) (Text.trim (Text.body p)))]
  scopes := [⟨.body, offset⟩]

/-- **The head of a block** puts out its assignment and opens one scope. -/
theorem accepts_opening (options : Options) {p : List Char} (hp : IsPattern p) :
    ∃ offset, Accepts options {} (lex (p ++ [' '] ++ arrowBrace)) (atBrace options p offset) := by
  have hinline := inline_space hp.inline
  have hpattern := accepts_inline options hinline []
  rw [List.append_nil] at hpattern
  have hbrace := accepts_arrowBrace options ((lex (p ++ [' '])).map Segment.copy).reverse
    (Text.byteSize (p ++ [' ']))
  have hhead := hpattern.append hbrace
  rw [← lex_head hp.inline] at hhead
  -- the line that the arrow takes back is the pattern and the blank after it
  obtain ⟨hline, hbefore⟩ := line_inline hinline
  rw [text_lex] at hline
  have hindent : Text.indent (p ++ [' ']) = Text.indent p := Text.indent_snoc hp.visible ' '
  have htrim : Text.trim (Text.body (p ++ [' '])) = Text.trim (Text.body p) := by
    rw [Text.trim_body, Text.trim_body, Text.trim_snoc rfl]
  rw [assignPiece, hline, hbefore, hindent, htrim] at hhead
  exact ⟨_, hhead⟩

/-- The state at the start of the body of a block. -/
def inBlock (options : Options) (p : List Char) (offset : Nat) : Emitter where
  pieces := [.lineBreak ['\n'], .generated options.scopeOpen, .source [' '],
    .generated (options.assignment (Text.indent p) (Text.trim (Text.body p)))]
  scopes := [⟨.body, offset⟩]

/-- The body of a block starts on a line of its own. -/
theorem accepts_head (options : Options) {p : List Char} (hp : IsPattern p) :
    ∃ offset, Accepts options {}
      (lex (p ++ [' '] ++ arrowBrace) ++ [seam (p ++ [' '] ++ arrowBrace)])
      (inBlock options p offset) := by
  obtain ⟨offset, hhead⟩ := accepts_opening options hp
  exact ⟨offset, feedAll_append_ok hhead _⟩

/-- **The body of a block** is taken as it is alone. -/
theorem accepts_body {segments : List Segment} {pieces : List Piece}
    (h : Accepts options {} segments (.atLine pieces)) (p : List Char) (offset bytes : Nat) :
    Accepts options (inBlock options p offset) (segments.map (Lexeme.shift bytes))
      { pieces := .lineBreak ['\n'] :: pieces ++ (inBlock options p offset).pieces
        scopes := [⟨.body, offset⟩] } := by
  have hwhole : (inBlock options p offset).linesBefore = (inBlock options p offset).pieces := rfl
  exact h.onto hwhole bytes

/-- The brace that closes a block leaves no scope open. -/
theorem accepts_closeBrace (options : Options) {closing : Segment}
    (hkind : closing.kind = .closeBrace) (pieces : List Piece) (offset : Nat) :
    Accepts options { pieces, scopes := [⟨.body, offset⟩] } [closing]
      { pieces := .generated Options.scopeClose :: pieces } := by
  have hcloses : Emits options { pieces, scopes := [⟨.body, offset⟩] } closing _ _ :=
    .closes rfl hkind rfl
  refine Step.accepts ⟨?context, ?afterArrow, hcloses⟩ rfl
  case context =>
    exact Context.advance_other (by simp [Context.Heeds, SegmentKind.IsDelimiter, hkind])
  case afterArrow =>
    unfold arrowAfter
    rw [hkind]
    rfl

/-- A script may end in code where no scope is open. -/
theorem finish_code (options : Options) (pieces : List Piece) :
    finish options { pieces } = .ok pieces.reverse :=
  Finishes.finish_eq (.whole (fun _ => rfl) rfl)

end Emitter

/-! ## Whole blocks -/

/-- Nothing in a body reaches the brace that closes its block. Not even a backslash at its end does:
it may hide the newline, but no mark of a string follows. -/
theorem joins_closeBrace (b : List Char) : Joins b ['}'] :=
  sealed_unquoted (by decide : Token.newline.Stops) _ (by decide) (by decide)

/-- The segments of a block are those of its head and those of its body, further on in the source,
with a line break after each, and a closing brace. -/
theorem lex_block {head b : List Char} (hlast : head.getLast? ≠ some '\\')
    (hhead : (endMode head).follow .lineBreak = .code)
    (hbody : (endMode b).follow .lineBreak = .code) :
    ∃ closing : Segment, closing.kind = .closeBrace
      ∧ lex (head ++ '\n' :: (b ++ '\n' :: ['}']))
        = lex head ++ [seam head]
          ++ ((lex b ++ [seam b]).map (Lexeme.shift (Text.byteSize head + 1)) ++ [closing]) := by
  let brace : Segment := ⟨.closeBrace, ⟨0, 1⟩, ['}']⟩
  have hclosing : lex ['}'] = [brace] := by rfl
  refine ⟨(brace.shift (Text.byteSize b + 1)).shift (Text.byteSize head + 1), rfl, ?_⟩
  rw [lex_newline_code (joins_of_getLast hlast _) hhead,
    lex_newline_code (joins_closeBrace b) hbody, hclosing, List.append_cons (lex head),
    List.map_singleton, List.append_cons (lex b), List.map_append, List.map_singleton]

/-- A block: a pattern, an arrow, and a body in braces on lines of its own. -/
def block (p b : String) : String :=
  p ++ " => \x7b\n" ++ b ++ "\n\x7d"

/-- What a block becomes, if its body becomes `o`. -/
def Options.block (options : Options) (p o : String) : String :=
  String.ofList (Text.indent p.toList) ++ options.matchTable
    ++ "[" ++ String.ofList (Text.trim (Text.body p.toList)) ++ "] = "
    ++ options.scopeConstructor ++ "(function (" ++ options.matchTable ++ ")\n" ++ o ++ "\nend)"

theorem toList_block (p b : String) :
    (block p b).toList
      = p.toList ++ [' '] ++ arrowBrace ++ '\n' :: (b.toList ++ '\n' :: ['}']) := by
  simp [block, arrowBrace]

/-- **A block becomes the assignment of a scope** with the Lua of its body inside. -/
theorem transpile_block {options : Options} (hreject : options.rejectUnterminated = true)
    {p b o : String} (hp : IsPattern p.toList) (hb : transpile options b = .ok o) :
    transpile options (block p b) = .ok (options.block p o) := by
  obtain ⟨pieces, hbody, hmode, rfl⟩ := ends_fresh hreject hb
  obtain ⟨offset, hhead⟩ := Emitter.accepts_head options hp
  generalize hbytes : p.toList ++ [' '] ++ arrowBrace = head at hhead
  have hlast : head.getLast? ≠ some '\\' := by
    rw [← hbytes, List.getLast?_append]
    exact nofun
  have hcode : (endMode head).follow .lineBreak = .code := by
    rw [← hbytes, endMode_head hp.inline]
    rfl
  obtain ⟨closing, hkind, hlex⟩ := lex_block hlast hcode hmode
  -- head, body and brace are one run, and the brace closes the scope that the head has opened
  have hcloses := Emitter.accepts_closeBrace options hkind (.lineBreak ['\n'] :: pieces
    ++ (Emitter.inBlock options p.toList offset).pieces) offset
  have hrun := hhead.append
    ((Emitter.accepts_body hbody p.toList offset (Text.byteSize head + 1)).append hcloses)
  rw [← hlex, ← hbytes, ← toList_block] at hrun
  rw [transpile_of_ok ((emit_of_accepts hrun).trans (Emitter.finish_code options _))]
  refine congrArg Except.ok (String.toList_inj.mp ?_)
  simp [Options.block, Emitter.inBlock, Piece.assemble, Piece.text, Options.assignment,
    Options.scopeOpen, Options.scopeClose]

/-- **Blocks are compositional.** What a body becomes does not depend on the block that it stands
in, and so on through blocks within blocks, to any depth. -/
theorem block_compositional {options : Options} (hreject : options.rejectUnterminated = true)
    {b o : String} (hb : transpile options b = .ok o) :
    (∀ p : String, IsPattern p.toList →
        transpile options (block p b) = .ok (options.block p o))
      ∧ ∀ ps : List String, (∀ p ∈ ps, IsPattern p.toList) →
        transpile options (ps.foldr block b) = .ok (ps.foldr options.block o) := by
  refine ⟨fun p hp => transpile_block hreject hp hb, fun ps hps => ?_⟩
  induction ps with
  | nil => exact hb
  | cons p ps ih =>
      obtain ⟨hp, hrest⟩ := List.forall_mem_cons.mp hps
      exact transpile_block hreject hp (ih hrest)

/-- A body that ends with a comment and a backslash, in a block with an arrow in a string of its
pattern, in a block. -/
theorem block_compositional_nested :
    transpile { matchTable := "m", scopeConstructor := "s" } "c => d --\\"
        = .ok "m[c] = d --\\"
      ∧ transpile { matchTable := "m", scopeConstructor := "s" }
          "a => \x7b\n  \"=>\" => \x7b\nc => d --\\\n\x7d\n\x7d"
        = .ok "m[a] = s(function (m)\n  m[\"=>\"] = s(function (m)\nm[c] = d --\\\nend)\nend)" := by
  have hb : transpile { matchTable := "m", scopeConstructor := "s" } "c => d --\\"
      = .ok "m[c] = d --\\" := by rfl
  have hblocks := (block_compositional rfl hb).2 ["a", "  \"=>\""] (by decide)
  have hsource : ["a", "  \"=>\""].foldr block "c => d --\\"
      = "a => \x7b\n  \"=>\" => \x7b\nc => d --\\\n\x7d\n\x7d" := by decide
  rw [hsource] at hblocks
  refine ⟨hb, hblocks.trans (congrArg Except.ok ?_)⟩
  decide

end Keybind
