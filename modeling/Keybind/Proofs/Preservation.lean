import Keybind.Proofs.Braces
import Keybind.Proofs.Conservation
import Keybind.Proofs.Literals

/-!
# Literals in the output

The output has the literals of the source, as long as no line breaks within a long
bracket and no pattern starts with what makes an opener of a long bracket together
with the square bracket that is put in front of it (`literals_preserved`). The
second condition is needed, `[[x]] => y` becomes `__match[[[x]]] = y`.

The proof follows the emitter. At each step the output so far and the rest of the
source, one behind the other, are a text that has the literals of the source. A
segment that is copied does not change this text. Where something is replaced,
three places matter, and at each of them the text before must not notice.

* The end of the line, where braces are replaced. There the line is `Settled`.
* The end of its last word, since an arrow drops the white space behind it.
* The start of the line, where the table is put. What comes before is `Closed`: the
  one thing that looks over the end of a line is a string that hides it with a
  backslash.

Outside code nothing is replaced, and the line is settled up to where the comment
or the bracket starts (`Holds`).
-/

namespace Keybind

namespace Grammar

/-! ## The line that is being written -/

theorem isIdle_of_isBlank {c : Char} (h : Text.isBlank c = true) : IsIdle c := by
  refine ⟨?_, ?_, ?_, ?_⟩ <;> rintro rfl <;> exact absurd h (by decide)

theorem isPlain_of_isBlank {cs : List Char} (h : ∀ c ∈ cs, Text.isBlank c = true)
    (hn : '\n' ∉ cs) : ∀ c ∈ cs, IsPlain c := by
  intro c hc
  refine ⟨?_, ?_, ?_, fun heq => hn (heq ▸ hc)⟩ <;> rintro rfl <;> exact absurd (h _ hc) (by decide)

/-- The line stands in code and has the literals `strings`, also if it is cut where only white space
follows and something tame is put there. -/
structure Settled (line ahead : List Char) (strings : List (List Char)) : Prop where
  framed : Framed line
  found_cut : ∀ kept blanks, line = kept ++ blanks → (∀ c ∈ blanks, Text.isBlank c = true) →
    ∀ other, Tame (blanks ++ ahead) other → found (kept ++ other) = strings ++ found other

namespace Settled

variable {line ahead : List Char} {strings : List (List Char)}

theorem nil (ahead : List Char) : Settled [] ahead [] where
  framed := .of_not_mem List.not_mem_nil
  found_cut kept blanks heq _ other _ := by
    rw [(List.append_eq_nil_iff.mp heq.symm).1]
    rfl

theorem found_eq (h : Settled line ahead strings) {other : List Char} (htame : Tame ahead other) :
    found (line ++ other) = strings ++ found other :=
  h.found_cut line [] (List.append_nil line).symm (List.forall_mem_nil _) other htame

/-- One more character that is passed over. -/
theorem inert {c : Char} (h : Settled line (c :: ahead) strings) (hc : Inert c ahead)
    (hn : c ≠ '\n') : Settled (line ++ [c]) ahead strings where
  framed := h.framed.append (.of_not_mem fun hmem => hn (List.mem_singleton.mp hmem).symm)
  found_cut kept blanks heq hblanks other htame := by
    rcases List.eq_nil_or_concat blanks with rfl | ⟨blanks, d, rfl⟩
    · -- the line is not cut
      rw [List.append_nil] at heq
      rw [← heq, List.append_assoc, List.singleton_append, h.found_eq (htame.cons c),
        found_inert (htame.inert hc)]
    · rw [List.concat_eq_append, ← List.append_assoc] at heq
      obtain ⟨rfl, hd⟩ := List.append_inj' heq rfl
      obtain rfl := List.singleton_inj.mp hd
      rw [List.concat_eq_append] at htame hblanks
      rw [List.append_assoc] at htame
      exact h.found_cut kept blanks rfl (fun e he => hblanks e (List.mem_append_left _ he)) other
        htame

theorem idles {xs : List Char} (h : Settled line (xs ++ ahead) strings) (hxs : ∀ c ∈ xs, IsIdle c)
    (hn : '\n' ∉ xs) : Settled (line ++ xs) ahead strings := by
  induction xs generalizing line with
  | nil => rwa [List.append_nil]
  | cons c xs ih =>
      obtain ⟨hc, hxs'⟩ := List.forall_mem_cons.mp hxs
      have hstep := h.inert (inert_of_idle hc (xs ++ ahead)) (List.ne_of_not_mem_cons hn).symm
      have hrest := ih hstep hxs' (List.not_mem_of_not_mem_cons hn)
      rwa [List.append_assoc] at hrest

theorem takes_text {c : Char} {tail : List Char} (h : Settled line (c :: tail ++ ahead) strings)
    (htakes : Takes (.nested 0) .text c tail ahead) :
    Settled (line ++ c :: tail) ahead strings := by
  obtain ⟨hinert, hextra⟩ := inert_of_text (congrArg Rule.kind htakes)
  obtain rfl : tail = [] :=
    List.eq_nil_of_length_eq_zero ((congrArg Rule.extra htakes).symm.trans hextra)
  have hnewline := htakes.newline SegmentKind.noConfusion fun _ => SegmentKind.noConfusion
  exact h.inert hinert (List.ne_of_not_mem_cons hnewline).symm

/-- Text of the code. -/
theorem makes_text {text : List Char} (h : Settled line (text ++ ahead) strings)
    (hmakes : Makes (.nested 0) .text text ahead) : Settled (line ++ text) ahead strings := by
  generalize hkind : SegmentKind.text = kind at hmakes
  generalize hstate : State.nested 0 = state at hmakes
  induction hmakes generalizing line with
  | one htakes =>
      subst hkind hstate
      exact h.takes_text htakes
  | text htakes _ ih =>
      subst hstate
      rw [List.append_assoc] at h
      have hrest := ih (h.takes_text htakes) rfl
      rwa [List.append_assoc] at hrest

/-- A line that does not end with white space is not cut. -/
theorem of_last (hframed : Framed line) (hlast : ∃ cs c, line = cs ++ [c] ∧ Text.isBlank c = false)
    (hfound : ∀ other, Tame ahead other → found (line ++ other) = strings ++ found other) :
    Settled line ahead strings where
  framed := hframed
  found_cut kept blanks heq hblanks other hother := by
    obtain ⟨cs, c, hc, hblank⟩ := hlast
    rcases List.eq_nil_or_concat blanks with rfl | ⟨blanks, d, rfl⟩
    · rw [List.append_nil] at heq
      exact heq ▸ hfound other hother
    · rw [List.concat_eq_append] at heq hblanks
      rw [hc, ← List.append_assoc] at heq
      obtain rfl := List.singleton_inj.mp (List.append_inj' heq rfl).2
      rw [hblanks c (List.mem_append_right _ List.mem_cons_self)] at hblank
      cases hblank

/-- Text that is put in place of other text, or in place of itself. -/
theorem put {old new : List Char} {more : List (List Char)}
    (h : Settled line (old ++ ahead) strings) (hframed : Framed new)
    (hlast : ∃ cs c, new = cs ++ [c] ∧ Text.isBlank c = false)
    (htame : ∀ other, Tame ahead other → Tame (old ++ ahead) (new ++ other))
    (hfound : ∀ other, found (new ++ other) = more ++ found other) :
    Settled (line ++ new) ahead (strings ++ more) := by
  refine of_last (h.framed.append hframed) ?_ fun other hother => ?_
  · obtain ⟨cs, c, rfl, hc⟩ := hlast
    exact ⟨line ++ cs, c, (List.append_assoc ..).symm, hc⟩
  · rw [List.append_assoc, h.found_eq (htame other hother), hfound, List.append_assoc]

/-- What is read whatever follows it, and is not white space at its end. -/
theorem solid {text : List Char} {more : List (List Char)}
    (h : Settled line (text ++ ahead) strings) (hframed : Framed text)
    (hlast : ∃ cs c, text = cs ++ [c] ∧ Text.isBlank c = false)
    (hfound : ∀ other, found (text ++ other) = more ++ found other) :
    Settled (line ++ text) ahead (strings ++ more) :=
  h.put hframed hlast (fun _ hother => hother.append text) hfound

/-- Idle text in place of other plain text. -/
theorem replace {y : Char} {l t : List Char} (h : Settled line (l ++ ahead) strings)
    (hne : l ≠ []) (hl : ∀ c ∈ l, IsPlain c) (ht : ∀ c ∈ y :: t, IsPlain c ∧ IsIdle c)
    (hequals : y ≠ '=') (hlast : ∃ cs c, y :: t = cs ++ [c] ∧ Text.isBlank c = false) :
    Settled (line ++ y :: t) ahead strings := by
  have hy := (ht y List.mem_cons_self).2
  have hput : Settled (line ++ y :: t) ahead (strings ++ []) :=
    h.put (.of_not_mem fun hmem => (ht _ hmem).1.2.2.2 rfl) hlast
      (fun other hother => hother.plain hne hl (fun c hc => (ht c hc).1) hy.1 hy.2.1 hequals)
      (fun other => found_idles (fun c hc => (ht c hc).2) other)
  rwa [List.append_nil] at hput

end Settled

/-! ### The line of an arrow -/

theorem level?_append_none {cs : List Char} (h : level? '[' cs = none) (ahead : List Char) :
    level? '[' (cs ++ ']' :: ahead) = none := by
  induction cs with
  | nil => rfl
  | cons c cs ih =>
      rw [level?] at h
      rw [List.cons_append, level?]
      by_cases hopen : c = '['
      · rw [if_pos hopen] at h
        cases h
      rw [if_neg hopen] at h ⊢
      by_cases hequals : c = '='
      · rw [if_pos hequals] at h ⊢
        rw [ih (Option.map_eq_none_iff.mp h)]
        rfl
      · rw [if_neg hequals]

/-- A line is its pattern with white space on both sides. -/
theorem exists_pattern (line : List Char) :
    ∃ lead trail, line = lead ++ Text.trim (Text.body line) ++ trail
      ∧ (∀ c ∈ lead, Text.isBlank c = true) ∧ (∀ c ∈ trail, Text.isBlank c = true) := by
  rw [Text.trim_body]
  refine ⟨line.takeWhile Text.isBlank,
    ((Text.trimStart line).reverse.takeWhile Text.isBlank).reverse, ?_, ?_, ?_⟩
  · have hend : Text.trimStart line = Text.trim line
        ++ ((Text.trimStart line).reverse.takeWhile Text.isBlank).reverse := by
      rw [Text.trim, Text.trimEnd, ← List.reverse_append, List.takeWhile_append_dropWhile,
        List.reverse_reverse]
    rw [List.append_assoc, ← hend]
    exact List.takeWhile_append_dropWhile.symm
  · exact fun c hc => List.mem_takeWhile_imp hc
  · exact fun c hc => List.mem_takeWhile_imp (List.mem_reverse.mp hc)

/-- The white space at the ends of a framed line has no newline. -/
theorem newline_not_mem_ends {lead pattern trail : List Char}
    (h : Framed (lead ++ pattern ++ trail)) (hlead : ∀ c ∈ lead, Text.isBlank c = true)
    (htrail : ∀ c ∈ trail, Text.isBlank c = true) :
    '\n' ∉ lead ∧ '\n' ∉ trail := by
  constructor
  · intro hmem
    refine h.start ?_
    rw [List.append_assoc, List.takeWhile_append_of_pos hlead]
    exact List.mem_append_left _ hmem
  · intro hmem
    refine h.stop ?_
    rw [List.reverse_append,
      List.takeWhile_append_of_pos fun c hc => htrail c (List.mem_reverse.mp hc)]
    exact List.mem_append_left _ (List.mem_reverse.mpr hmem)

/-- What an arrow becomes is as tame as the arrow. -/
theorem tame_arrow {trail ahead other : List Char} (htrail : ∀ c ∈ trail, IsPlain c)
    (h : Tame ahead other) : Tame (trail ++ '=' :: '>' :: ahead) (']' :: ' ' :: '=' :: other) := by
  have hplain : Tame (trail ++ ['=', '>'] ++ ahead) (']' :: [' ', '='] ++ other) :=
    h.plain (List.append_ne_nil_of_right_ne_nil _ (List.cons_ne_nil _ _))
      (List.forall_mem_append.mpr ⟨htrail, by simp [IsPlain]⟩) (by simp [IsPlain])
      (by decide) (by decide) (by decide)
  rwa [List.append_assoc] at hplain

/-- The text in front of a pattern. -/
def patternHead (line : List Char) : List Char :=
  Text.indent line ++ ({} : Options).matchTable.toList

theorem mem_indent {line : List Char} {c : Char} (h : c ∈ Text.indent line) :
    c = ' ' ∨ c = '\t' := by
  have hindent := List.mem_takeWhile_imp h
  rwa [Text.isIndent, Bool.or_eq_true, beq_iff_eq, beq_iff_eq] at hindent

theorem forall_patternHead {P : Char → Prop} (hspace : P ' ') (htab : P '\t')
    (htable : ∀ c ∈ ({} : Options).matchTable.toList, P c) (line : List Char) :
    ∀ c ∈ patternHead line, P c := by
  refine List.forall_mem_append.mpr ⟨fun c hc => ?_, htable⟩
  rcases mem_indent hc with rfl | rfl
  · exact hspace
  · exact htab

theorem assignment_eq (line ahead : List Char) :
    ({} : Options).assignment (Text.indent line) (Text.trim (Text.body line)) ++ ahead
      = patternHead line ++ '[' :: (Text.trim (Text.body line) ++ ']' :: ' ' :: '=' :: ahead) := by
  simp [Options.assignment, patternHead]

/-- **An arrow changes no literal**, unless its pattern makes a long bracket with the bracket in
front of it. -/
theorem Settled.assign {line ahead : List Char} {strings : List (List Char)}
    (h : Settled line ('=' :: '>' :: ahead) strings)
    (hpattern : level? '[' (Text.trim (Text.body line)) = none) :
    Settled (({} : Options).assignment (Text.indent line) (Text.trim (Text.body line))) ahead
      strings := by
  obtain ⟨lead, trail, hline, hlead, htrail⟩ := exists_pattern line
  have hends := newline_not_mem_ends (hline ▸ h.framed) hlead htrail
  refine .of_last ?_ ⟨_, '=', (List.append_assoc _ [']', ' '] ['=']).symm, rfl⟩
    fun other hother => ?_
  · -- the new line
    have hhead : Framed (patternHead line) :=
      .of_not_mem fun hmem => forall_patternHead (P := (· ≠ '\n')) (by decide) (by decide)
        (by simp) line _ hmem rfl
    have hbody : Framed (Text.trim (Text.body line)) := by
      rw [Text.trim_body]
      exact h.framed.trim.1
    exact ((hhead.append (.of_not_mem (by decide))).append hbody).append (.of_not_mem (by decide))
  · -- its literals: what stands around the pattern is idle, and the pattern is where the line was
    -- cut
    have hinert : Inert '[' (Text.trim (Text.body line) ++ ']' :: ' ' :: '=' :: other) :=
      ⟨fun hc => absurd hc (by decide), fun _ => level?_append_none hpattern _,
        fun hc => absurd hc (by decide)⟩
    calc found (({} : Options).assignment (Text.indent line) (Text.trim (Text.body line)) ++ other)
      _ = found (Text.trim (Text.body line) ++ ']' :: ' ' :: '=' :: other) := by
          rw [assignment_eq, found_idles (forall_patternHead (P := IsIdle) (by decide) (by decide)
            (by simp [IsIdle]) line), found_inert hinert]
      _ = found (lead ++ Text.trim (Text.body line) ++ ']' :: ' ' :: '=' :: other) := by
          rw [List.append_assoc, found_idles fun c hc => isIdle_of_isBlank (hlead c hc)]
      _ = strings ++ found (']' :: ' ' :: '=' :: other) :=
          h.found_cut _ trail hline htrail _
            (tame_arrow (isPlain_of_isBlank htrail hends.2) hother)
      _ = strings ++ found other :=
          congrArg (strings ++ ·) (found_idles (l := [']', ' ', '=']) (by simp [IsIdle]) other)

/-- No string that the assignment of an arrow ends is left open by the line. -/
theorem closing?_assign {line ahead : List Char} (hframed : Framed line) {mark : Char}
    (hmark : IsMark mark) (h : closing? mark (line ++ '=' :: '>' :: ahead) = none) :
    closing? mark
        (({} : Options).assignment (Text.indent line) (Text.trim (Text.body line)) ++ ahead)
      = none := by
  obtain ⟨lead, trail, hline, hlead, htrail⟩ := exists_pattern line
  have hends := newline_not_mem_ends (hline ▸ hframed) hlead htrail
  have htame := (tame_arrow (isPlain_of_isBlank htrail hends.2) (.refl ahead)).append
    (Text.trim (Text.body line))
  rw [hline, List.append_assoc, List.append_assoc,
    closing?_plains (isPlain_of_isBlank hlead hends.1) hmark] at h
  rw [assignment_eq, closing?_plains (forall_patternHead (by decide) (by decide) (by simp [IsPlain])
    line) hmark]
  exact (closing?_plains (l := ['[']) (by simp [IsPlain]) hmark _).mpr (htame.mark mark hmark h)

/-! ## The lines before -/

/-- The lines before have the literals `strings`, whatever follows them that ends no string which
`ahead` leaves open. -/
def Closed (before ahead : List Char) (strings : List (List Char)) : Prop :=
  ∀ other, (∀ mark, IsMark mark → closing? mark ahead = none → closing? mark other = none) →
    found (before ++ other) = strings ++ found other

theorem closed_nil (ahead : List Char) : Closed [] ahead [] :=
  fun _ _ => rfl

theorem Closed.weaken {before ahead other : List Char} {strings : List (List Char)}
    (h : Closed before ahead strings)
    (hother : ∀ mark, IsMark mark → closing? mark ahead = none → closing? mark other = none) :
    Closed before other strings :=
  fun new hnew => h new fun mark hmark hold => hnew mark hmark (hother mark hmark hold)

/-! ## Whatever the reader is within -/

/-- A line and what is ahead of it. In a long bracket or a line comment the line stands in code up
to where that starts. -/
inductive Holds : State → List Char → List Char → Prop where
  | code {line ahead : List Char} {strings : List (List Char)} : Settled line ahead strings →
      Holds (.nested 0) line ahead
  | bracket {depth : Nat} {line part ahead : List Char} {strings : List (List Char)} :
      Settled line (part ++ ahead) strings → '\n' ∉ part → Entered depth part ahead →
      Holds (.nested (depth + 1)) (line ++ part) ahead
  | comment {line part ahead : List Char} {strings : List (List Char)} :
      Settled line (part ++ ahead) strings → Commented part ahead →
      Holds .lineComment (line ++ part) ahead

/-- A line that ends in code or in a line comment. -/
theorem Holds.newline {state : State} {line ahead : List Char}
    (h : Holds state line ('\n' :: ahead)) (hstate : ∀ depth, state ≠ .nested (depth + 1)) :
    ∃ strings, ∀ other, Tame ('\n' :: ahead) ('\n' :: other) →
      found (line ++ '\n' :: other) = strings ++ found other := by
  cases h with
  | @code _ _ strings hsettled =>
      refine ⟨strings, fun other hother => ?_⟩
      rw [hsettled.found_eq hother]
      exact congrArg _ (found_idles (l := ['\n']) (by simp [IsIdle]) other)
  | bracket => exact absurd rfl (hstate _)
  | @comment line part _ strings hsettled hcommented =>
      refine ⟨strings, fun other hother => ?_⟩
      rw [List.append_assoc, hsettled.found_eq (hother.append part), hcommented.found_newline]

theorem Closed.newline {before line ahead : List Char} {strings more : List (List Char)}
    (h : Closed before (line ++ '\n' :: ahead) strings)
    (hline : ∀ other, Tame ('\n' :: ahead) ('\n' :: other) →
      found (line ++ '\n' :: other) = more ++ found other) :
    Closed (before ++ line ++ ['\n']) ahead (strings ++ more) := by
  intro other hother
  have htame := tame_newline hother
  rw [List.append_assoc, List.append_assoc, List.singleton_append,
    h _ (htame.append line).mark, hline other htame, List.append_assoc]

/-! ### Segments that are copied -/

/-- A segment of the code that is copied. -/
theorem Settled.copied {line ahead : List Char} {strings : List (List Char)} {kind : SegmentKind}
    {text : List Char} (h : Settled line (text ++ ahead) strings)
    (hmakes : Makes (.nested 0) kind text ahead) (hbreak : kind ≠ .lineBreak)
    (hclose : ∀ bracket, kind ≠ .longClose bracket) :
    Holds ((State.nested 0).after kind) (line ++ text) ahead := by
  have hspells := hmakes.spells
  cases kind with
  | lineBreak => exact absurd rfl hbreak
  | longClose bracket => exact absurd rfl (hclose bracket)
  | text => exact .code (h.makes_text hmakes)
  | whitespace =>
      exact .code (h.idles (fun c hc => isIdle_of_isSpace (hspells.2 c hc))
        (hmakes.newline hbreak fun _ => SegmentKind.noConfusion))
  | arrow =>
      cases hspells
      exact .code (h.idles (by simp [IsIdle]) (by decide))
  | openBrace =>
      cases hspells
      exact .code (h.idles (by simp [IsIdle]) (by decide))
  | closeBrace =>
      cases hspells
      exact .code (h.idles (by simp [IsIdle]) (by decide))
  | quoted mark =>
      -- the string is a literal of its own, and no white space ends it that could be cut off
      obtain ⟨c, tail, rfl, htakes⟩ := hmakes.takes SegmentKind.noConfusion
      obtain ⟨body, hbody⟩ := hspells
      have hblank : Text.isBlank mark.char = false := by cases mark <;> rfl
      have hsolid : Solid (c :: tail) := by
        rw [hbody]
        exact ⟨⟨_, _, rfl, hblank⟩, ⟨_, _, rfl, hblank⟩⟩
      have hsettled : Settled (line ++ c :: tail) ahead (strings ++ [c :: tail]) :=
        h.solid (.of_solid hsolid) hsolid.last (found_quoted htakes)
      exact .code hsettled
  | lineComment =>
      obtain ⟨c, tail, rfl, htakes⟩ := hmakes.takes SegmentKind.noConfusion
      exact .comment h (commented_open htakes)
  | longOpen bracket =>
      obtain ⟨c, tail, rfl, htakes⟩ := hmakes.takes SegmentKind.noConfusion
      exact .bracket h (hmakes.newline hbreak fun _ => SegmentKind.noConfusion)
        (entered_open htakes)

/-- The last segment of a long bracket. -/
theorem Entered.closed {depth : Nat} {line part text ahead : List Char} {kind : SegmentKind}
    {strings : List (List Char)} (h : Entered depth part (text ++ ahead))
    (hsettled : Settled line (part ++ text ++ ahead) strings) (hpart : '\n' ∉ part)
    (hmakes : Makes (.nested (depth + 1)) kind text ahead)
    (hafter : (State.nested (depth + 1)).after kind = .nested 0) :
    Settled (line ++ (part ++ text)) ahead (strings ++ [part ++ text]) := by
  obtain ⟨bracket, rfl⟩ : ∃ bracket, kind = .longClose bracket := by
    cases kind with
    | longClose bracket => exact ⟨bracket, rfl⟩
    | _ => cases hafter
  obtain ⟨cs, c, hcloser, hblank⟩ := bracket.closer_last
  have hspells : text = bracket.closer.toList := hmakes.spells
  have htext := hmakes.newline SegmentKind.noConfusion fun _ => SegmentKind.noConfusion
  obtain ⟨d, tail, rfl, htakes⟩ := hmakes.takes SegmentKind.noConfusion
  refine hsettled.solid (.of_not_mem (List.not_mem_append hpart htext)) ?_
    (h.close htakes hafter)
  exact ⟨part ++ cs, c, by rw [hspells, hcloser, List.append_assoc], hblank⟩

/-- **A segment that is copied**, anywhere. -/
theorem Holds.copied {state : State} {line text ahead : List Char} {kind : SegmentKind}
    (h : Holds state line (text ++ ahead)) (hmakes : Makes state kind text ahead)
    (hbreak : kind ≠ .lineBreak)
    (hclose : state = .nested 0 → ∀ bracket, kind ≠ .longClose bracket) :
    Holds (state.after kind) (line ++ text) ahead := by
  have hquoted : state ≠ .nested 0 → ∀ mark, kind ≠ .quoted mark := by
    rintro hstate mark rfl
    exact hstate hmakes.not_quoted
  cases h with
  | code hsettled => exact hsettled.copied hmakes hbreak (hclose rfl)
  | @bracket depth line part _ strings hsettled hpart hentered =>
      have htext := hmakes.newline hbreak (hquoted fun h => Nat.succ_ne_zero _ (State.nested.inj h))
      rw [List.append_assoc]
      rw [← List.append_assoc] at hsettled
      cases hafter : (State.nested (depth + 1)).after kind with
      | lineComment => cases kind <;> cases hafter
      | nested depth' =>
          -- one literal from its opener on: it is added when the outermost bracket is closed
          cases depth' with
          | zero => exact .code (hentered.closed hsettled hpart hmakes hafter)
          | succ depth' =>
              exact .bracket hsettled (List.not_mem_append hpart htext)
                (hentered.makes hmakes hafter)
  | @comment line part _ strings hsettled hcommented =>
      have htext := hmakes.newline hbreak (hquoted State.noConfusion)
      rw [List.append_assoc]
      rw [← List.append_assoc] at hsettled
      have hafter : State.lineComment.after kind = .lineComment := by
        cases kind <;> first | rfl | exact absurd rfl hbreak
      rw [hafter]
      refine .comment hsettled ⟨?_, List.not_mem_append hcommented.line htext⟩
      obtain ⟨body, rfl, hbracket⟩ := hcommented.mark
      exact ⟨body ++ text, rfl, by rwa [List.append_assoc]⟩

/-! ### Segments that are written -/

/-- The new line goes on in place of the old one: it ends no string that the old one leaves open,
and it has the same literals. -/
structure Continues (line text ahead line' : List Char) : Prop where
  mark : ∀ mark, IsMark mark → closing? mark (line ++ (text ++ ahead)) = none →
    closing? mark (line' ++ ahead) = none
  found_eq : found (line' ++ ahead) = found (line ++ (text ++ ahead))

/-- A brace in code that is replaced. -/
theorem Settled.continues_replace {line ahead : List Char} {strings : List (List Char)}
    {brace y : Char} {t : List Char} (h : Settled line (brace :: ahead) strings)
    (hplain : IsPlain brace) (hidle : IsIdle brace) (ht : ∀ c ∈ y :: t, IsPlain c ∧ IsIdle c)
    (hequals : y ≠ '=') (hlast : ∃ cs c, y :: t = cs ++ [c] ∧ Text.isBlank c = false) :
    Holds (.nested 0) (line ++ y :: t) ahead
      ∧ Continues line [brace] ahead (line ++ y :: t) := by
  have hl := List.forall_mem_singleton.mpr hplain
  have hy := (ht y List.mem_cons_self).2
  have hnew := h.replace (l := [brace]) (List.cons_ne_nil _ _) hl ht hequals hlast
  have htame : Tame ([brace] ++ ahead) (y :: t ++ ahead) :=
    (Tame.refl ahead).plain (List.cons_ne_nil _ _) hl (fun c hc => (ht c hc).1) hy.1 hy.2.1 hequals
  refine ⟨.code hnew, ⟨?_, ?_⟩⟩
  · rw [List.append_assoc]
    exact (htame.append line).mark
  · rw [hnew.found_eq (.refl ahead), List.singleton_append, h.found_eq (.refl _)]
    exact congrArg _ (found_idles (List.forall_mem_singleton.mpr hidle) ahead).symm

theorem Settled.continues_assign {line ahead : List Char} {strings : List (List Char)}
    (h : Settled line ('=' :: '>' :: ahead) strings)
    (hpattern : level? '[' (Text.trim (Text.body line)) = none) :
    Continues line ['=', '>'] ahead
      (({} : Options).assignment (Text.indent line) (Text.trim (Text.body line))) where
  mark mark hmark := closing?_assign h.framed hmark
  found_eq := by
    rw [(h.assign hpattern).found_eq (.refl ahead), List.cons_append, List.singleton_append,
      h.found_eq (.refl _)]
    exact congrArg _ (found_idles (l := ['=', '>']) (by simp [IsIdle]) ahead).symm

theorem holds_code {line ahead : List Char} (h : Holds (.nested 0) line ahead) :
    ∃ strings, Settled line ahead strings := by
  cases h with
  | code hsettled => exact ⟨_, hsettled⟩

/-- **A segment is written**, whatever becomes of it. -/
theorem Holds.write {state : State} {line ahead : List Char} {segment : Segment}
    (h : Holds state line (segment.text ++ ahead)) (role : Role)
    (hmakes : Makes state segment.kind segment.text ahead) (hbreak : segment.kind ≠ .lineBreak)
    (hclose : state = .nested 0 → ∀ bracket, segment.kind ≠ .longClose bracket)
    (hassign : role = .assign → state = .nested 0 ∧ segment.kind = .arrow
      ∧ level? '[' (Text.trim (Text.body line)) = none)
    (hopen : role = .openBody → state = .nested 0 ∧ segment.kind = .openBrace)
    (hcloseBody : role = .closeBody → state = .nested 0 ∧ segment.kind = .closeBrace) :
    Holds (state.after segment.kind) (Keybind.write {} line (role, segment)) ahead
      ∧ Continues line segment.text ahead (Keybind.write {} line (role, segment)) := by
  have hspells := hmakes.spells
  cases role with
  | copied =>
      refine ⟨h.copied hmakes hbreak hclose, ⟨fun mark _ hold => ?_, ?_⟩⟩
      · rwa [← List.append_assoc] at hold
      · rw [← List.append_assoc]
        rfl
  | assign =>
      obtain ⟨rfl, hkind, hpattern⟩ := hassign rfl
      rw [hkind] at hspells ⊢
      rw [hspells] at h ⊢
      obtain ⟨strings, hsettled⟩ := holds_code h
      exact ⟨.code (hsettled.assign hpattern), hsettled.continues_assign hpattern⟩
  | openBody =>
      obtain ⟨rfl, hkind⟩ := hopen rfl
      rw [hkind] at hspells ⊢
      rw [hspells] at h ⊢
      obtain ⟨strings, hsettled⟩ := holds_code h
      exact hsettled.continues_replace (by decide) (by decide)
        (y := 'M') (t := "atchScope.new(function (__match)".toList)
        (by simp [IsPlain, IsIdle]) (by decide)
        ⟨"MatchScope.new(function (__match".toList, ')', rfl, rfl⟩
  | closeBody =>
      obtain ⟨rfl, hkind⟩ := hcloseBody rfl
      rw [hkind] at hspells ⊢
      rw [hspells] at h ⊢
      obtain ⟨strings, hsettled⟩ := holds_code h
      exact hsettled.continues_replace (by decide) (by decide) (y := 'e') (t := ['n', 'd', ')'])
        (by simp [IsPlain, IsIdle]) (by decide) ⟨['e', 'n', 'd'], ')', rfl, rfl⟩

end Grammar

/-! ## Runs -/

open Grammar (Holds Closed Makes found level?)

/-- Where the reader stands that is enclosed so. -/
def Surroundings.state : Surroundings → Grammar.State
  | comment => .lineComment
  | within openers => .nested openers.length

theorem Surroundings.state_after (enclosing : Surroundings) (segment : Segment) :
    (enclosing.after segment).state = enclosing.state.after segment.kind := by
  unfold after
  cases enclosing with
  | comment => cases segment.kind <;> rfl
  | within openers => cases openers <;> cases segment.kind <;> rfl

theorem Surroundings.state_eq_code {enclosing : Surroundings} :
    enclosing.state = .nested 0 ↔ enclosing.context = .code := by
  rw [context_eq_code]
  cases enclosing with
  | comment => simp [state]
  | within openers => simp [state]

/-- What has been put out has, together with what is still to come, the literals of the source. -/
structure Carries (source : List Char) (before after : List Segment) (emitter : Emitter) :
    Prop where
  read : (Grammar.read (surroundings before).state (after.flatMap (·.text))).foldr Grammar.attach []
    = after.map Lexeme.bare
  holds : Holds (surroundings before).state emitter.line (after.flatMap (·.text))
  closed : ∃ strings, Closed (Piece.assemble emitter.linesBefore.reverse)
      (emitter.line ++ after.flatMap (·.text)) strings
    ∧ strings ++ found (emitter.line ++ after.flatMap (·.text)) = found source

theorem carries_start (source : List Char) : Carries source [] (lex source) {} := by
  refine ⟨?_, ?_, [], ?_, ?_⟩
  · rw [text_lex, lex_eq_layOut, Lexeme.bare_layOut, Grammar.bareSegments_eq]
    rfl
  · exact .code (.nil _)
  · exact Grammar.closed_nil _
  · rw [text_lex]
    rfl

namespace Carries

variable {source : List Char} {before after : List Segment} {segment : Segment}
  {emitter next : Emitter}

/-- The next segment is made by the rules. -/
theorem makes (h : Carries source before (segment :: after) emitter) :
    Makes (surroundings before).state segment.kind segment.text (after.flatMap (·.text))
      ∧ (Grammar.read (surroundings (before ++ [segment])).state
          (after.flatMap (·.text))).foldr Grammar.attach [] = after.map Lexeme.bare := by
  have hflat : (after.map Lexeme.bare).flatMap Prod.snd = after.flatMap (·.text) := by
    rw [List.flatMap_map]
    rfl
  obtain ⟨hmakes, hrest⟩ := Grammar.makes_read h.read
  rw [hflat] at hmakes hrest
  rw [surroundings_snoc, Surroundings.state_after]
  exact ⟨hmakes, hrest.symm⟩

/-- **A segment within a line.** -/
theorem step_write (h : Carries source before (segment :: after) emitter)
    (htracks : Tracks before emitter) (hstep : Emitter.Step {} emitter segment next)
    (hbreak : segment.kind ≠ .lineBreak)
    (hpattern : emitter.context = .code → segment.kind = .arrow →
      level? '[' (Text.trim (Text.body emitter.line)) = none) :
    Carries source (before ++ [segment]) after next := by
  obtain ⟨hmakes, hread⟩ := h.makes
  obtain ⟨hline, hlines⟩ := hstep.writes hbreak
  obtain ⟨strings, hclosed, htotal⟩ := h.closed
  have hstate : emitter.standing.context = .code → (surroundings before).state = .nested 0 :=
    fun hcode => Surroundings.state_eq_code.mpr (htracks.context.symm.trans hcode)
  have hholds := h.holds
  rw [List.flatMap_cons] at hholds hclosed htotal
  -- no closer is taken in code, and only segments of the code are replaced
  obtain ⟨hholds', hcontinues⟩ := hholds.write (emitter.standing.role segment) hmakes hbreak
    (fun hcode => by
      have hadvance := hstep.context
      rw [htracks.context, Surroundings.state_eq_code.mp hcode] at hadvance
      exact Context.kind_ne_longClose hadvance)
    (fun hrole => by
      obtain ⟨hcode, hkind⟩ := Standing.role_eq_assign.mp hrole
      exact ⟨hstate hcode, hkind, hpattern hcode hkind⟩)
    (fun hrole => by
      obtain ⟨hcode, hkind, -⟩ := Standing.role_eq_openBody.mp hrole
      exact ⟨hstate hcode, hkind⟩)
    (fun hrole => by
      obtain ⟨hcode, hkind, -⟩ := Standing.role_eq_closeBody.mp hrole
      exact ⟨hstate hcode, hkind⟩)
  rw [← hline] at hholds' hcontinues
  refine ⟨hread, ?_, strings, ?_, ?_⟩
  · rw [surroundings_snoc, Surroundings.state_after]
    exact hholds'
  · rw [hlines]
    exact hclosed.weaken hcontinues.mark
  · rw [hcontinues.found_eq]
    exact htotal

/-- **A line break.** -/
theorem step_break (h : Carries source before (segment :: after) emitter)
    (hstep : Emitter.Step {} emitter segment next) (hbreak : segment.kind = .lineBreak)
    (houtside : (surroundings before).openers = []) :
    Carries source (before ++ [segment]) after next := by
  obtain ⟨hmakes, hread⟩ := h.makes
  obtain ⟨strings, hclosed, htotal⟩ := h.closed
  have hpieces := hstep.breaks hbreak
  obtain ⟨hline, hlines⟩ := Emitter.line_of_break hpieces rfl
  have htext : segment.text = ['\n'] := by
    have hspells := hmakes.spells
    rwa [hbreak] at hspells
  have hholds := h.holds
  rw [List.flatMap_cons, htext, List.singleton_append] at hholds hclosed htotal
  -- the line ends in code or in a comment, so its literals are all there
  have hstate : (surroundings before).state = .lineComment
      ∨ (surroundings before).state = .nested 0 := by
    cases hsurroundings : surroundings before with
    | comment => exact .inl rfl
    | within openers =>
        rw [hsurroundings] at houtside
        cases houtside
        exact .inr rfl
  obtain ⟨more, hmore⟩ := hholds.newline (by
    intro depth heq
    rcases hstate with hstate | hstate <;> cases hstate.symm.trans heq)
  refine ⟨hread, ?_, strings ++ more, ?_, ?_⟩
  · have hafter : (surroundings before).state.after .lineBreak = .nested 0 := by
      rcases hstate with hstate | hstate <;> rw [hstate] <;> rfl
    rw [surroundings_snoc, Surroundings.state_after, hbreak, hline, hafter]
    exact .code (.nil _)
  · have hbefore : Piece.assemble next.linesBefore.reverse
        = Piece.assemble emitter.linesBefore.reverse ++ emitter.line ++ ['\n'] := by
      rw [hlines, hpieces, List.reverse_cons, Piece.assemble, List.flatMap_append, ← htext,
        ← Emitter.assemble_eq, Piece.assemble, List.flatMap_singleton]
      rfl
    rw [hbefore, hline, List.nil_append]
    exact hclosed.newline hmore
  · rw [hline, List.nil_append, List.append_assoc, ← hmore _ (.refl _)]
    exact htotal

/-- At the end the output has the literals of the source. -/
theorem found_output (h : Carries source before [] emitter) :
    found (Piece.assemble emitter.pieces.reverse) = found source := by
  obtain ⟨strings, hclosed, htotal⟩ := h.closed
  rw [List.flatMap_nil, List.append_nil] at hclosed htotal
  rw [Emitter.assemble_eq, hclosed _ fun _ _ => id, htotal]

end Carries

namespace Emitter

/-- The pattern of an arrow in code is reported. -/
theorem matched_mem {options : Options} {emitter : Emitter} {before after : List Segment}
    {arrow : Segment} (h : Accepts options {} before emitter) (hcode : emitter.context = .code)
    (hkind : arrow.kind = .arrow) :
    .matched (Text.trim (Text.body emitter.line))
      ∈ (({} : Emitter).feedAll options (before ++ arrow :: after)).1 := by
  have hadvance : emitter.context.advance arrow = (.code, none) := by
    rw [hcode]
    exact Context.advance_other (by simp [Context.Heeds, SegmentKind.IsDelimiter, hkind])
  have hstep : Step options emitter arrow
      ⟨emitter.assignPiece options :: emitter.linesBefore, emitter.scopes, .code,
        emitter.arrowAfter arrow⟩ :=
    ⟨hadvance, rfl, .assigns hcode hkind⟩
  have hreport : emitter.report arrow = some (.matched (Text.trim (Text.body emitter.line))) := by
    unfold report
    rw [hcode, hkind]
  rw [feedAll_append_events h, feedAll_cons_events hstep, hreport]
  exact List.mem_append_right _ (List.mem_append_left _ List.mem_cons_self)

end Emitter

/-- **Every run carries the literals**, from one segment to the next. -/
theorem carries_of_accepts {source : List Char}
    (hlines : ∀ before lineBreak after, lex source = before ++ lineBreak :: after →
      lineBreak.kind = .lineBreak → (surroundings before).openers = [])
    (hpatterns : ∀ pattern, .matched pattern ∈ (({} : Emitter).feedAll {} (lex source)).1 →
      level? '[' pattern = none)
    {before after : List Segment} {emitter : Emitter} (hsplit : lex source = before ++ after)
    (hrun : Emitter.Accepts {} {} before emitter) : Carries source before after emitter := by
  -- on the segments taken so far, since `Carries` speaks of those that are left too
  induction before using List.reverseRecOn generalizing after emitter with
  | nil =>
      obtain rfl := Emitter.accepts_nil hrun
      rw [List.nil_append] at hsplit
      exact hsplit ▸ carries_start source
  | append_singleton before segment ih =>
      rw [List.append_assoc, List.singleton_append] at hsplit
      obtain ⟨middle, hbefore, hlast⟩ := Emitter.accepts_append hrun
      obtain ⟨next, hstep, hnext⟩ := Emitter.accepts_cons hlast
      obtain rfl := Emitter.accepts_nil hnext
      by_cases hbreak : segment.kind = .lineBreak
      · exact (ih hsplit hbefore).step_break hstep hbreak
          (hlines before segment after hsplit hbreak)
      · refine (ih hsplit hbefore).step_write (.of_accepts hbefore) hstep hbreak
          fun hcode hkind => ?_
        exact hpatterns _ (hsplit ▸ Emitter.matched_mem hbefore hcode hkind)

/-- **Literals are kept.** Of a source with no line break in a long bracket, the output has the same
strings and long brackets, if no pattern makes the opener of a long bracket with the square bracket
that is put in front of it. -/
theorem literals_preserved {source out : String} (h : transpile {} source = .ok out)
    (hlines : ∀ before lineBreak after, lex source.toList = before ++ lineBreak :: after →
      lineBreak.kind = .lineBreak → (surroundings before).openers = [])
    (hpatterns : ∀ pattern, .matched pattern ∈ (emit {} (lex source.toList)).1 →
      Grammar.bracket? ('[' :: pattern) = none) :
    literals (lex out.toList) = literals (lex source.toList) := by
  obtain ⟨last, hrun, -, rfl⟩ := transpile_ok h
  have hcarries := carries_of_accepts hlines
    (fun pattern hmem => Option.map_eq_none_iff.mp (hpatterns pattern hmem))
    (List.append_nil _).symm hrun
  rw [Grammar.literals_lex, Grammar.literals_lex, String.toList_ofList, hcarries.found_output]

/-- A string in a pattern, a long bracket as its value, and a string on the next line. -/
theorem literals_preserved_lines :
    transpile {} "\"a\" => [[b]]\n\x27c\x27" = .ok "__match[\"a\"] = [[b]]\n\x27c\x27"
      ∧ literals (lex "__match[\"a\"] = [[b]]\n\x27c\x27".toList)
        = ["\"a\"".toList, "[[b]]".toList, "\x27c\x27".toList] := by
  have h : transpile {} "\"a\" => [[b]]\n\x27c\x27" = .ok "__match[\"a\"] = [[b]]\n\x27c\x27" := by
    rfl
  refine ⟨h, (literals_preserved h ?_ ?_).trans (by rfl)⟩
  · intro before lineBreak after hsplit hkind
    generalize hlex : lex "\"a\" => [[b]]\n\x27c\x27".toList = segments at hsplit
    have hbreaks : ∀ i < segments.length, segments[i]?.map (·.kind) = some .lineBreak →
        (surroundings (segments.take i)).openers = [] := by
      rw [← hlex]
      decide
    subst hsplit
    have houtside := hbreaks before.length (by simp) (by simp [hkind])
    rwa [List.take_left] at houtside
  · intro pattern hmem
    have hevents : (emit {} (lex "\"a\" => [[b]]\n\x27c\x27".toList)).1
        = [.matched "\"a\"".toList] := by
      rfl
    rw [hevents, List.mem_singleton] at hmem
    cases hmem
    rfl

/-- A pattern that starts with a long string: the square bracket in front of it becomes part of the
string. -/
theorem bracket_joins_pattern :
    transpile {} "[[x]] => y" = .ok "__match[[[x]]] = y"
      ∧ (∀ segment ∈ lex "[[x]] => y".toList, segment.kind ≠ .lineBreak)
      ∧ literals (lex "[[x]] => y".toList) = ["[[x]]".toList]
      ∧ literals (lex "__match[[[x]]] = y".toList) = ["[[[x]]".toList] :=
  ⟨rfl, by decide, rfl, rfl⟩

end Keybind
