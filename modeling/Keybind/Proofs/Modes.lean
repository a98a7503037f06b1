import Keybind.Proofs.Groups
import Keybind.Proofs.Runs

/-!
# Scanner and emitter in lockstep

The scanner of tokens keeps a `Mode`, the emitter of segments a `Context`. Both
follow line comments and long brackets, each on its own: the scanner counts
delimiters and knows no levels, the emitter keeps a stack of openers and may
refuse one. If they ever disagreed, braces in a comment would be taken for code.

The proof has three parts.

* The mode after a segment depends on the segment's kind alone, and the mode
  limits the kinds that come next (`moves_of`): in a line comment text and its
  end, in a long bracket no string and no comment mark.
* Text never changes the mode, so putting text together does no harm
  (`take_merge`).
* A context and a mode that correspond still do after a segment that the context
  does not refuse (`InStep.advance`).
-/

namespace Keybind

variable {α : Type}

/-! ## The mode after a segment -/

namespace Mode

/-- The mode after a segment of a kind. -/
def follow : Mode → SegmentKind → Mode
  | lineComment, .lineBreak => code
  | lineComment, _ => lineComment
  | code, .lineComment => lineComment
  | mode, .longOpen _ => mode.opened
  | mode, .longClose _ => mode.closed
  | mode, _ => mode

/-- The kinds of segment that a mode lets come next. -/
def Admits : Mode → SegmentKind → Prop
  | code, _ => True
  | lineComment, kind => kind = .text ∨ kind = .lineBreak
  | longBracket _, kind => kind ≠ .lineComment ∧ ∀ mark, kind ≠ .quoted mark

/-- The mode after segments of these kinds. -/
def after (mode : Mode) (kinds : List SegmentKind) : Mode :=
  kinds.foldl follow mode

/-- Every kind is let come where it stands. -/
def Walks (mode : Mode) : List SegmentKind → Prop
  | [] => True
  | kind :: kinds => mode.Admits kind ∧ (mode.follow kind).Walks kinds

@[simp] theorem follow_text (mode : Mode) : mode.follow .text = mode := by
  cases mode <;> rfl

@[simp] theorem after_cons (mode : Mode) (kind : SegmentKind) (kinds : List SegmentKind) :
    mode.after (kind :: kinds) = (mode.follow kind).after kinds := rfl

theorem after_append (mode : Mode) (xs ys : List SegmentKind) :
    mode.after (xs ++ ys) = (mode.after xs).after ys := by
  unfold after; rw [List.foldl_append]

/-- A walk can be entered anywhere. -/
theorem Walks.of_append {mode : Mode} {xs ys : List SegmentKind} (h : mode.Walks (xs ++ ys)) :
    (mode.after xs).Walks ys := by
  induction xs generalizing mode with
  | nil => exact h
  | cons kind xs ih => exact ih h.2

end Mode

/-- A kind of segment that says nothing about comments, long brackets and strings. -/
def SegmentKind.IsPlain : SegmentKind → Prop
  | .lineBreak | .whitespace | .text | .arrow | .openBrace | .closeBrace => True
  | _ => False

theorem Mode.follow_plain {mode : Mode} {kind : SegmentKind} (hm : mode ≠ .lineComment)
    (hk : kind.IsPlain) : mode.follow kind = mode := by
  cases mode with
  | lineComment => exact absurd rfl hm
  | code => cases kind <;> first | rfl | exact hk.elim
  | longBracket depth => cases kind <;> first | rfl | exact hk.elim

theorem Mode.admits_plain {mode : Mode} {kind : SegmentKind} (hm : mode ≠ .lineComment)
    (hk : kind.IsPlain) : mode.Admits kind := by
  cases mode with
  | lineComment => exact absurd rfl hm
  | code => trivial
  | longBracket depth => cases kind <;> first | exact hk.elim | exact ⟨by simp, by simp⟩

/-- What the scanner may do next: a segment that its mode admits, which moves the mode. -/
def Head.Moves (mode : Mode) (head : Head) : Prop :=
  mode.Admits head.kind ∧ head.mode = mode.follow head.kind

theorem moves_single {mode : Mode} {kind : SegmentKind} (hm : mode ≠ .lineComment)
    (hk : kind.IsPlain) : (Head.single kind mode).Moves mode :=
  ⟨Mode.admits_plain hm hk, (Mode.follow_plain hm hk).symm⟩

theorem moves_delimiter {mode : Mode} (hm : mode ≠ .lineComment) (delimiter : Delimiter)
    (comment : Bool) (extra : Nat) :
    (⟨delimiter.kind comment, extra, delimiter.mode mode⟩ : Head).Moves mode := by
  unfold Head.Moves Delimiter.kind Delimiter.mode
  cases mode with
  | lineComment => exact absurd rfl hm
  | code => cases delimiter.opening <;> exact ⟨trivial, rfl⟩
  | longBracket depth => cases delimiter.opening <;> exact ⟨⟨by simp, by simp⟩, rfl⟩

theorem moves_ofDashes {mode : Mode} (hm : mode ≠ .lineComment) (ts : List Token) :
    (Head.ofDashes mode ts).Moves mode := by
  unfold Head.ofDashes
  split
  · exact moves_delimiter hm _ true _
  · split
    · rename_i hc
      subst hc
      exact ⟨trivial, rfl⟩
    · exact moves_single hm trivial

theorem moves_ofSquare {mode : Mode} (hm : mode ≠ .lineComment) (square : Token)
    (ts : List Token) : (Head.ofSquare mode square ts).Moves mode := by
  unfold Head.ofSquare
  split
  · exact moves_delimiter hm _ false _
  · exact moves_single hm trivial

theorem moves_ofQuote {mode : Mode} (hm : mode ≠ .lineComment) (token : Token) (mark : QuoteMark)
    (ts : List Token) : (Head.ofQuote mode token mark ts).Moves mode := by
  unfold Head.ofQuote
  by_cases hc : mode = .code
  · subst hc
    split
    · exact ⟨trivial, rfl⟩
    · exact moves_single hm trivial
  · rw [if_neg hc]
    exact moves_single hm trivial

/-- **The scanner moves as the kinds of its segments say.** -/
theorem moves_of (mode : Mode) (token : Token) (ts : List Token) :
    (Head.of mode token ts).Moves mode := by
  unfold Head.of
  split
  · rename_i hm
    subst hm
    split
    · exact ⟨.inr rfl, rfl⟩
    · exact ⟨.inl rfl, rfl⟩
  · rename_i hm
    cases token with
    | newline => exact moves_single hm trivial
    | whitespace => exact moves_single hm trivial
    | arrow => exact moves_single hm trivial
    | openBrace => exact moves_single hm trivial
    | closeBrace => exact moves_single hm trivial
    | dash => exact moves_single hm trivial
    | equals => exact moves_single hm trivial
    | backslash => exact moves_single hm trivial
    | text => exact moves_single hm trivial
    | doubleDash => exact moves_ofDashes hm ts
    | openBracket => exact moves_ofSquare hm .openBracket ts
    | closeBracket => exact moves_ofSquare hm .closeBracket ts
    | doubleQuote => exact moves_ofQuote hm .doubleQuote .double ts
    | singleQuote => exact moves_ofQuote hm .singleQuote .single ts

/-! ## The mode after many segments -/

theorem walks_scan (token : α → Token) (items : List α) :
    ∀ mode : Mode, mode.Walks ((scan token mode items).map (·.kind)) := by
  induction items using dropInduction with
  | nil => intro mode; rw [scan_nil]; trivial
  | cons a items ih =>
      intro mode
      obtain ⟨hadmits, hmode⟩ := moves_of mode (token a) (items.map token)
      rw [scan_cons token mode a items rfl, List.map_cons]
      exact ⟨hadmits, hmode ▸ ih _ _⟩

/-- Putting text together leaves a walk a walk. -/
theorem walks_attach {mode : Mode} {group : Group α} {gs : List (Group α)}
    (h : mode.Walks ((group :: gs).map (·.kind))) :
    mode.Walks ((group.attach gs).map (·.kind)) := by
  cases gs with
  | nil => exact h
  | cons next gs =>
      rw [Group.attach]
      split
      · rename_i hk
        obtain ⟨hadmits, -, hrest⟩ := h
        dsimp only at hadmits hrest
        rw [hk.1] at hadmits hrest
        rw [hk.2, Mode.follow_text] at hrest
        exact ⟨hadmits, hrest⟩
      · exact h

theorem walks_merge {mode : Mode} {gs : List (Group α)} (h : mode.Walks (gs.map (·.kind))) :
    mode.Walks ((Group.merge gs).map (·.kind)) := by
  induction gs generalizing mode with
  | nil => exact h
  | cons group gs ih => exact walks_attach ⟨h.1, ih h.2⟩

/-- The kinds of segments that a source gives. -/
theorem kind_lex (cs : List Char) :
    (lex cs).map (·.kind) = (groups (·.kind) (tokenize cs)).map (·.kind) := by
  unfold lex segment
  rw [List.map_map]
  rfl

/-- **Every segment of a source stands where the mode lets it stand.** -/
theorem walks_lex (cs : List Char) : Mode.code.Walks ((lex cs).map (·.kind)) := by
  rw [kind_lex, groups_eq_scan]
  exact walks_merge (walks_scan _ _ _)

/-- Where the scanner stands once `count` tokens have been read, of which the first `pending` belong
to a segment already found: its mode, and how many of the next tokens still belong to that
segment. -/
def scannerAfter (mode : Mode) : Nat → Nat → List Token → Mode × Nat
  | pending, 0, _ => (mode, pending)
  | pending, _, [] => (mode, pending)
  | 0, count + 1, t :: ts =>
    let head := Head.of mode t ts
    scannerAfter head.mode head.extra count ts
  | pending + 1, count + 1, _ :: ts => scannerAfter mode pending count ts

/-- **The scanner goes on from there**: its marks on the tokens left are those that it makes from
where it stands. -/
theorem marks_drop (ts : List Token) : ∀ (mode : Mode) (pending count : Nat),
    (marks mode pending ts).drop count
      = marks (scannerAfter mode pending count ts).1 (scannerAfter mode pending count ts).2
        (ts.drop count) := by
  induction ts with
  | nil => intro mode pending count; cases pending <;> cases count <;> rfl
  | cons t ts ih =>
      intro mode pending count
      cases count with
      | zero => cases pending <;> rfl
      | succ count =>
          cases pending with
          | zero => exact ih _ _ count
          | succ pending => exact ih mode pending count

/-- Tokens that belong to a segment already found do not change the mode. -/
theorem scannerAfter_pending (mode : Mode) (ts : List Token) (pending count : Nat) :
    (scannerAfter mode pending ((ts.take pending).length + count) ts).1
      = (scannerAfter mode 0 count (ts.drop pending)).1 := by
  induction ts generalizing pending with
  | nil => cases pending <;> cases count <;> rfl
  | cons t ts ih =>
      cases pending with
      | zero => rw [List.take_zero, List.length_nil, Nat.zero_add]; rfl
      | succ pending =>
          rw [List.take_succ_cons, List.length_cons, Nat.add_right_comm, scannerAfter, ih]
          rfl

/-- At the end of each segment of the scanner the mode is what the kinds so far say. -/
theorem scannerAfter_scan (token : α → Token) (items : List α) : ∀ (mode : Mode) (n : Nat),
    (scannerAfter mode 0 (((scan token mode items).take n).flatMap Group.members).length
        (items.map token)).1
      = mode.after (((scan token mode items).take n).map (·.kind)) := by
  induction items using dropInduction with
  | nil => intro mode n; rw [scan_nil, List.take_nil]; rfl
  | cons a items ih =>
      intro mode n
      cases n with
      | zero => rfl
      | succ n =>
          have hmode := (moves_of mode (token a) (items.map token)).2
          have htake : ∀ k, (items.take k).length = ((items.map token).take k).length := by
            intro k; rw [← List.map_take, List.length_map]
          -- the tokens that the head takes are pending while they are read
          rw [scan_cons token mode a items rfl, List.take_succ_cons, List.flatMap_cons,
            List.length_append, Group.members, List.length_cons, List.map_cons, List.map_cons,
            Nat.add_right_comm, scannerAfter, htake, scannerAfter_pending, ← List.map_drop, ih,
            Mode.after_cons, hmode]

/-- **Text put together ends where a segment of the scanner ends**, and the kinds so far say the
same of the mode. -/
theorem take_merge (gs : List (Group α)) : ∀ n, ∃ m,
    ((Group.merge gs).take n).flatMap Group.members = (gs.take m).flatMap Group.members
      ∧ ∀ mode : Mode, mode.after (((Group.merge gs).take n).map (·.kind))
        = mode.after ((gs.take m).map (·.kind)) := by
  induction gs with
  | nil => intro n; exact ⟨0, by simp, by simp⟩
  | cons group gs ih =>
      intro n
      cases n with
      | zero => exact ⟨0, rfl, fun _ => rfl⟩
      | succ n =>
          rw [Group.merge_cons]
          cases hm : Group.merge gs with
          | nil =>
              refine ⟨1, ?_, fun _ => ?_⟩
              · rw [Group.attach, List.take_succ_cons, List.take_nil]; rfl
              · rw [Group.attach, List.take_succ_cons, List.take_nil]; rfl
          | cons next merged =>
              rw [Group.attach]
              split
              · -- the text goes on to the end of the next segment put together
                rename_i hk
                obtain ⟨m, hmembers, hafter⟩ := ih (n + 1)
                rw [hm, List.take_succ_cons] at hmembers hafter
                refine ⟨m + 1, ?_, fun mode => ?_⟩
                · rw [List.take_succ_cons, List.take_succ_cons, List.flatMap_cons,
                    List.flatMap_cons, ← hmembers, List.flatMap_cons]
                  simp [Group.members]
                · rw [List.take_succ_cons, List.take_succ_cons, List.map_cons, List.map_cons,
                    Mode.after_cons, Mode.after_cons, ← hafter, List.map_cons, Mode.after_cons,
                    hk.1, hk.2, Mode.follow_text, Mode.follow_text]
              · -- the segment stands for itself
                obtain ⟨m, hmembers, hafter⟩ := ih n
                rw [hm] at hmembers hafter
                refine ⟨m + 1, ?_, fun mode => ?_⟩
                · rw [List.take_succ_cons, List.take_succ_cons, List.flatMap_cons, hmembers,
                    List.flatMap_cons]
                · rw [List.take_succ_cons, List.take_succ_cons, List.map_cons, List.map_cons,
                    Mode.after_cons, Mode.after_cons, hafter]

/-- The mode of the scanner right after the first `n` segments of a source, when all the tokens
they are made of have been read. -/
def scannerMode (cs : List Char) (n : Nat) : Mode :=
  let tokens := tokenize cs
  (scannerAfter .code 0 (((groups (·.kind) tokens).take n).flatMap Group.members).length
    (tokens.map (·.kind))).1

/-- The mode after the first segments is what their kinds say. -/
theorem scannerMode_eq (cs : List Char) (n : Nat) :
    scannerMode cs n = Mode.code.after (((lex cs).take n).map (·.kind)) := by
  unfold scannerMode
  obtain ⟨m, hmembers, hafter⟩ := take_merge (scan (·.kind) .code (tokenize cs)) n
  rw [List.map_take, kind_lex, ← List.map_take]
  dsimp only
  rw [groups_eq_scan, hmembers, scannerAfter_scan, hafter]

/-! ## Contexts and modes -/

/-- A context and a mode that say the same. -/
inductive Context.InStep : Context → Mode → Prop where
  | code : InStep .code .code
  | lineComment : InStep .lineComment .lineComment
  | longBracket {openers : List Opener} {depth : Nat} : openers.length = depth → 1 ≤ depth →
      InStep (.longBracket openers) (.longBracket depth)

namespace Context

/-- What the context does not look for does not change the mode either. -/
theorem InStep.follow_other {context : Context} {mode : Mode} {kind : SegmentKind}
    (h : InStep context mode) (hnone : ¬context.Heeds kind) : mode.follow kind = mode := by
  cases h with
  | code =>
      cases kind with
      | lineComment => exact absurd (.inl rfl) hnone
      | longOpen bracket => exact absurd (.inr ⟨bracket, .inl rfl⟩) hnone
      | longClose found => exact absurd (.inr ⟨found, .inr rfl⟩) hnone
      | _ => rfl
  | lineComment =>
      cases kind with
      | lineBreak => exact absurd rfl hnone
      | _ => rfl
  | longBracket =>
      cases kind with
      | longOpen bracket => exact absurd ⟨bracket, .inl rfl⟩ hnone
      | longClose found => exact absurd ⟨found, .inr rfl⟩ hnone
      | _ => rfl

/-- **One segment keeps them in step.** -/
theorem InStep.advance {context next : Context} {mode : Mode} {segment : Segment}
    (h : InStep context mode) (hadvance : context.advance segment = (next, none)) :
    InStep next (mode.follow segment.kind) := by
  cases moves_of_advance hadvance with
  | comment hk =>
      cases h
      rw [hk]
      exact .lineComment
  | newline hk =>
      cases h
      rw [hk]
      exact .code
  | opener hk =>
      cases h
      rw [hk]
      exact .longBracket rfl (Nat.le_refl 1)
  | nested hk =>
      cases h with
      | longBracket hlength hdepth =>
          rw [hk]
          exact .longBracket (congrArg (· + 1) hlength) (Nat.le_succ_of_le hdepth)
  | @closer innermost outer found hk =>
      cases h with
      | longBracket hlength hdepth =>
          subst hlength
          rw [hk]
          -- the last closer leads back to code, any other to the brackets around
          cases outer with
          | nil => exact .code
          | cons opener outer => exact .longBracket rfl (Nat.succ_pos _)
  | other hnone =>
      rw [h.follow_other hnone]
      exact h

/-- What a segment tells about the context in which it is met. -/
theorem InStep.meets {context : Context} {mode : Mode} {kind : SegmentKind}
    (h : InStep context mode) (hadmits : mode.Admits kind) :
    ((kind = .lineComment ∨ ∃ mark, kind = .quoted mark) → context = .code)
      ∧ (context = .lineComment → kind = .text ∨ kind = .lineBreak) := by
  cases h with
  | code => exact ⟨fun _ => rfl, fun hc => by cases hc⟩
  | lineComment =>
      refine ⟨fun hk => ?_, fun _ => hadmits⟩
      rcases hadmits with ht | ht <;> rcases hk with hk | ⟨mark, hk⟩ <;> rw [ht] at hk <;> cases hk
  | longBracket _ _ =>
      refine ⟨fun hk => ?_, fun hc => by cases hc⟩
      rcases hk with hk | ⟨mark, hk⟩
      · exact absurd hk hadmits.1
      · exact absurd hk (hadmits.2 mark)

end Context

/-- **Every run keeps them in step.** -/
theorem inStep_of_accepts {options : Options} {segments : List Segment} {emitter : Emitter}
    (h : Emitter.Accepts options {} segments emitter) :
    emitter.context.InStep (Mode.code.after (segments.map (·.kind))) := by
  refine Emitter.Accepts.preserves (P := fun before (emitter : Emitter) =>
    emitter.context.InStep (Mode.code.after (before.map (·.kind)))) .code ?_ h
  intro before segment after emitter next _ hbefore hstep
  rw [List.map_append, Mode.after_append]
  exact hbefore.advance hstep.context

/-- **Scanner and emitter are in lockstep.** As long as no segment has been refused, the context
after the first segments of a source says what the mode of the scanner says after them. So strings
and comment marks are met in code, and in a line comment only text and its end. -/
theorem context_follows_scanner {options : Options} {cs : List Char} {n : Nat}
    {emitter : Emitter} (h : Emitter.Accepts options {} ((lex cs).take n) emitter) :
    emitter.context.InStep (scannerMode cs n)
      ∧ ∀ segment, (lex cs)[n]? = some segment →
        ((segment.kind = .lineComment ∨ ∃ mark, segment.kind = .quoted mark) →
          emitter.context = .code)
        ∧ (emitter.context = .lineComment →
          segment.kind = .text ∨ segment.kind = .lineBreak) := by
  have hwalks := walks_lex cs
  rw [← List.take_append_drop n (lex cs), List.map_append] at hwalks
  have hinStep := inStep_of_accepts h
  refine ⟨scannerMode_eq cs n ▸ hinStep, ?_⟩
  intro segment hget
  have hrest := hwalks.of_append
  rw [List.drop_eq_getElem?_toList_append, hget] at hrest
  exact hinStep.meets hrest.1

/-- Within a long bracket the apostrophe is no quotation mark, to the scanner as to the emitter. -/
theorem context_follows_scanner_bracket :
    Emitter.Accepts {} {} ((lex ['[', '[', '\x27', '\n', '{', ']', ']', '\x27', '\x27']).take 2)
        { pieces := [.source ['\x27'], .source ['[', '[']],
          context := .longBracket [⟨⟨false, 0⟩, 0⟩] }
      ∧ Context.InStep (.longBracket [⟨⟨false, 0⟩, 0⟩])
        (scannerMode ['[', '[', '\x27', '\n', '{', ']', ']', '\x27', '\x27'] 2) := by
  have h : Emitter.Accepts {} {}
      ((lex ['[', '[', '\x27', '\n', '{', ']', ']', '\x27', '\x27']).take 2)
      { pieces := [.source ['\x27'], .source ['[', '[']],
        context := .longBracket [⟨⟨false, 0⟩, 0⟩] } := rfl
  exact ⟨h, (context_follows_scanner h).1⟩

end Keybind
