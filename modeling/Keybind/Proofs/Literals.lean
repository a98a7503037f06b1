import Keybind.Proofs.Lookahead

/-!
# Literals

The literals of a script are its quoted strings and its long brackets, each of
these from the outermost opener through the closer that leads back to code. They
are defined on segments, but can be found by the rules of the grammar alone
(`literals_lex`), and that is how they are followed here, through a text of which
the end may change.

* Most characters are passed over in code. These need not be read as single
  segments: white space runs on, and a square bracket may become part of a closer,
  but what is passed over with them is again such characters (`found_idles`).
* A string, or a long bracket once it is closed, is found whatever follows it
  (`found_quoted`, `Entered.close`).
* A line comment has no literals up to the end of its line, whatever follows there
  (`Commented.found_newline`).
-/

namespace Keybind

/-! ## The literals of segments -/

/-- The literals of segments that stand within `depth` long brackets. Of the outermost one of these
`region` has been met. -/
def literalsFrom (depth : Nat) (region : List Char) :
    List (SegmentKind × List Char) → List (List Char)
  | [] => []
  | (kind, text) :: items =>
    match depth, kind with
    | 0, .quoted _ => text :: literalsFrom 0 [] items
    | 0, .longOpen _ => literalsFrom 1 text items
    | 0, _ => literalsFrom 0 [] items
    | depth + 1, .longOpen _ => literalsFrom (depth + 2) (region ++ text) items
    | 1, .longClose _ => (region ++ text) :: literalsFrom 0 [] items
    | depth + 2, .longClose _ => literalsFrom (depth + 1) (region ++ text) items
    | depth + 1, _ => literalsFrom (depth + 1) (region ++ text) items

/-- The quoted strings, and the outermost long brackets from their openers through their closers,
in order. A long bracket that is never closed is no literal. -/
def literals (segments : List Segment) : List (List Char) :=
  literalsFrom 0 [] (segments.map Lexeme.bare)

namespace Grammar

/-- The literals of a text. -/
def found (cs : List Char) : List (List Char) :=
  literalsFrom 0 [] (read (.nested 0) cs)

theorem literalsFrom_congr {xs ys : List (SegmentKind × List Char)}
    (h : ∀ depth region, literalsFrom depth region xs = literalsFrom depth region ys)
    (item : SegmentKind × List Char) (depth : Nat) (region : List Char) :
    literalsFrom depth region (item :: xs) = literalsFrom depth region (item :: ys) := by
  unfold literalsFrom
  simp only [h]

/-- It does not matter whether text is put together. -/
theorem literalsFrom_attach (item : SegmentKind × List Char)
    (items : List (SegmentKind × List Char)) (depth : Nat) (region : List Char) :
    literalsFrom depth region (attach item items) = literalsFrom depth region (item :: items) := by
  cases items with
  | nil => rw [attach_nil]
  | cons next rest =>
      rw [attach_cons]
      split
      · obtain ⟨kind, text⟩ := item
        obtain ⟨kind', text'⟩ := next
        rename_i htext
        obtain ⟨rfl, rfl⟩ := htext
        cases depth with
        | zero => rfl
        | succ depth => simp only [literalsFrom, List.append_assoc]
      · rfl

theorem literalsFrom_merge (items : List (SegmentKind × List Char)) :
    ∀ depth region, literalsFrom depth region (items.foldr attach [])
      = literalsFrom depth region items := by
  induction items with
  | nil => exact fun _ _ => rfl
  | cons item items ih =>
      intro depth region
      rw [List.foldr_cons, literalsFrom_attach]
      exact literalsFrom_congr ih item depth region

/-- **The literals of a source can be found by the rules alone.** -/
theorem literals_lex (cs : List Char) : literals (lex cs) = found cs := by
  rw [literals, lex_eq_layOut, Lexeme.bare_layOut, bareSegments_eq]
  exact literalsFrom_merge _ 0 []

/-! ## Characters that are passed over -/

/-- The characters that start no comment, no long bracket and no string. -/
def IsIdle (c : Char) : Prop :=
  c ≠ '-' ∧ c ≠ '[' ∧ c ≠ '"' ∧ c ≠ '\x27'

instance (c : Char) : Decidable (IsIdle c) :=
  inferInstanceAs (Decidable (_ ∧ _))

theorem found_cons {c : Char} {cs : List Char} {r : Rule} (h : rule c cs (.nested 0) = r) :
    found (c :: cs)
      = literalsFrom 0 [] ((r.kind, c :: cs.take r.extra) :: read r.state (cs.drop r.extra)) := by
  rw [found, read_cons h]

theorem isIdle_of_isSpace {c : Char} (h : Token.IsSpace c) : IsIdle c := by
  refine ⟨?_, ?_, ?_, ?_⟩ <;> rintro rfl <;> exact absurd h (by decide)

/-- A closing bracket may start a closer, but in code there is nothing to close. -/
theorem found_closing (cs : List Char) :
    ∃ n, (∀ d ∈ cs.take n, IsIdle d) ∧ found (']' :: cs) = found (cs.drop n) := by
  have hrule := rule_square .closing 0 cs
  cases hlevel : level? ']' cs with
  | none =>
      refine ⟨0, List.forall_mem_nil _, ?_⟩
      rw [found_cons hrule, bracket?, hlevel]
      rfl
  | some level =>
      refine ⟨level + 1, ?_, ?_⟩
      · rw [take_level hlevel]
        intro d hd
        rcases List.mem_append.mp hd with hd | hd
        · rw [List.eq_of_mem_replicate hd]
          decide
        · rw [List.mem_singleton.mp hd]
          decide
      · rw [found_cons hrule, bracket?, hlevel]
        rfl

/-- An idle character may take others with it, but these are idle too. -/
theorem found_idle_rule {c : Char} (h : IsIdle c) (cs : List Char) :
    ∃ n, (∀ d ∈ cs.take n, IsIdle d) ∧ found (c :: cs) = found (cs.drop n) := by
  by_cases hclose : c = ']'
  · subst hclose
    exact found_closing cs
  · obtain ⟨hdash, hopen, hdouble, hsingle⟩ := h
    have hrule : rule c cs (.nested 0) = plainRule 0 c cs :=
      rule_plain (fun hc => hdash hc.1) hopen hclose (mark?_eq_none hdouble hsingle)
    unfold plainRule at hrule
    split_ifs at hrule with hnewline hspace harrow hbrace hbrace'
    · exact ⟨0, List.forall_mem_nil _, by rw [found_cons hrule]; rfl⟩
    · -- white space runs on
      refine ⟨_, fun d hd => ?_, by rw [found_cons hrule]; rfl⟩
      rw [(take_drop_takeWhile _ cs).1] at hd
      have hspaces := List.mem_takeWhile_imp hd
      exact isIdle_of_isSpace (of_decide_eq_true hspaces)
    · refine ⟨1, ?_, by rw [found_cons hrule]; rfl⟩
      cases cs with
      | nil => exact List.forall_mem_nil _
      | cons d cs =>
          obtain rfl : d = '>' := Option.some.inj harrow.2
          intro e he
          rw [List.mem_singleton.mp he]
          decide
    · exact ⟨0, List.forall_mem_nil _, by rw [found_cons hrule]; rfl⟩
    · exact ⟨0, List.forall_mem_nil _, by rw [found_cons hrule]; rfl⟩
    · exact ⟨0, List.forall_mem_nil _, by rw [found_cons hrule]; rfl⟩

/-- **Idle characters change no literal.** -/
theorem found_idles {l : List Char} (h : ∀ c ∈ l, IsIdle c) (ys : List Char) :
    found (l ++ ys) = found ys := by
  -- what a rule takes with an idle character is passed over one by one
  induction hlength : (l ++ ys).length using Nat.strongRecOn generalizing l ys with
  | ind length ih =>
      cases l with
      | nil => rfl
      | cons c l =>
          obtain ⟨hc, hl⟩ := List.forall_mem_cons.mp h
          obtain ⟨n, htaken, hfound⟩ := found_idle_rule hc (l ++ ys)
          have hlt : (l ++ ys).length < length := by
            rw [← hlength]
            exact Nat.lt_succ_self _
          have hsplit := List.take_append_drop n (l ++ ys)
          calc found (c :: (l ++ ys))
            _ = found ((l ++ ys).drop n) := hfound
            _ = found ((l ++ ys).take n ++ (l ++ ys).drop n) :=
                (ih _ (by rw [hsplit]; exact hlt) htaken _ rfl).symm
            _ = found (l ++ ys) := by rw [hsplit]
            _ = found ys := ih _ hlt hl ys rfl

theorem inert_of_idle {c : Char} (h : IsIdle c) (ahead : List Char) : Inert c ahead where
  dash hc := absurd hc h.1
  square hc := absurd hc h.2.1
  mark hc := hc.elim (absurd · h.2.2.1) (absurd · h.2.2.2)

/-- **An inert character changes no literal.** -/
theorem found_inert {c : Char} {ahead : List Char} (h : Inert c ahead) :
    found (c :: ahead) = found ahead := by
  by_cases hidle : IsIdle c
  · exact found_idles (List.forall_mem_singleton.mpr hidle) ahead
  by_cases hmark : IsMark c
  · obtain ⟨t, hquote⟩ := hmark.quote
    rw [found_cons (rule_quote hquote 0 ahead), if_pos rfl, h.mark hmark]
    rfl
  by_cases hopen : c = '['
  · subst hopen
    rw [found_cons (rule_square .opening 0 ahead), bracket?, h.square rfl]
    rfl
  obtain rfl : c = '-' := by
    by_contra hdash
    exact hidle ⟨hdash, hopen, fun hc => hmark (.inl hc), fun hc => hmark (.inr hc)⟩
  have hrule : rule '-' ahead (.nested 0) = plainRule 0 '-' ahead :=
    rule_plain (fun hc => h.dash rfl hc.2) (by decide) (by decide) rfl
  rw [found_cons hrule]
  rfl

/-! ## Strings and long brackets -/

/-- **A string is found whatever follows it.** -/
theorem found_quoted {mark : QuoteMark} {c : Char} {tail ahead : List Char}
    (h : Takes (.nested 0) (.quoted mark) c tail ahead) (other : List Char) :
    found (c :: tail ++ other) = (c :: tail) :: found other := by
  rw [found, List.cons_append, (h.fixed id SegmentKind.noConfusion other).read_eq]
  rfl

/-- What has been read of a long bracket: `part`, up to where the reader stands within so many more
brackets. It is read the same if something else follows behind a closer, which is what two square
brackets are taken for. -/
def Entered (depth : Nat) (part ahead : List Char) : Prop :=
  ∀ cs rest, ahead = cs ++ rest → 2 ≤ cs.count ']' → ∀ other,
    found (part ++ (cs ++ other))
      = literalsFrom (depth + 1) part (read (.nested (depth + 1)) (cs ++ other))

theorem entered_open {bracket : LongBracket} {c : Char} {tail ahead : List Char}
    (h : Takes (.nested 0) (.longOpen bracket) c tail ahead) : Entered 0 (c :: tail) ahead := by
  intro cs rest _ _ other
  rw [found, List.cons_append, (h.fixed id SegmentKind.noConfusion (cs ++ other)).read_eq]
  rfl

theorem literalsFrom_within {depth depth' : Nat} {kind : SegmentKind}
    (h : (State.nested (depth + 1)).after kind = .nested (depth' + 1)) (region text : List Char)
    (items : List (SegmentKind × List Char)) :
    literalsFrom (depth + 1) region ((kind, text) :: items)
      = literalsFrom (depth' + 1) (region ++ text) items := by
  cases kind with
  | longOpen bracket =>
      obtain rfl : depth + 1 = depth' := Nat.succ.inj (State.nested.inj h)
      rfl
  | longClose bracket =>
      obtain rfl : depth = depth' + 1 := State.nested.inj h
      rfl
  | _ =>
      obtain rfl : depth = depth' := Nat.succ.inj (State.nested.inj h)
      rfl

/-- A segment within a long bracket. -/
theorem Entered.step {depth depth' : Nat} {kind : SegmentKind} {c : Char}
    {part tail ahead : List Char} (h : Entered depth part (c :: tail ++ ahead))
    (htakes : Takes (.nested (depth + 1)) kind c tail ahead)
    (hafter : (State.nested (depth + 1)).after kind = .nested (depth' + 1)) :
    Entered depth' (part ++ c :: tail) ahead := by
  rintro cs rest rfl hcount other
  have hcount' : 2 ≤ (c :: tail ++ cs).count ']' := by
    rw [List.count_append]
    omega
  have htakes' : Takes (.nested (depth + 1)) kind c tail (cs ++ other) := by
    -- the closer is still to come, and the rule does not look beyond it
    have hstop : rule c (tail ++ cs ++ other) (.nested (depth + 1))
        = rule c (tail ++ cs ++ rest) (.nested (depth + 1)) :=
      rule_stop (by rw [List.count_append]; omega) c depth other rest
    rw [List.append_assoc, List.append_assoc] at hstop
    exact hstop.trans htakes
  have hread := h (c :: tail ++ cs) rest (by simp) hcount' other
  rw [List.append_assoc, List.cons_append, htakes'.read_eq, hafter,
    literalsFrom_within hafter] at hread
  rw [List.append_assoc, List.cons_append]
  exact hread

theorem Entered.makes {depth depth' : Nat} {kind : SegmentKind} {part text ahead : List Char}
    (h : Entered depth part (text ++ ahead)) (hmakes : Makes (.nested (depth + 1)) kind text ahead)
    (hafter : (State.nested (depth + 1)).after kind = .nested (depth' + 1)) :
    Entered depth' (part ++ text) ahead := by
  generalize hstate : State.nested (depth + 1) = state at hmakes hafter
  induction hmakes generalizing part with
  | one htakes =>
      subst hstate
      exact h.step htakes hafter
  | text htakes _ ih =>
      subst hstate
      obtain rfl : depth = depth' :=
        Nat.succ.inj (State.nested.inj ((State.after_text _).symm.trans hafter))
      rw [List.append_assoc] at h
      have hrest := ih (h.step htakes hafter) hafter
      rwa [List.append_assoc] at hrest

/-- **A long bracket is found whatever follows it.** -/
theorem Entered.close {depth : Nat} {kind : SegmentKind} {c : Char}
    {part tail ahead : List Char} (h : Entered depth part (c :: tail ++ ahead))
    (htakes : Takes (.nested (depth + 1)) kind c tail ahead)
    (hafter : (State.nested (depth + 1)).after kind = .nested 0) (other : List Char) :
    found (part ++ c :: tail ++ other) = (part ++ c :: tail) :: found other := by
  obtain ⟨bracket, rfl, rfl⟩ : ∃ bracket, kind = .longClose bracket ∧ depth = 0 := by
    cases kind with
    | longClose bracket => exact ⟨bracket, rfl, State.nested.inj hafter⟩
    | _ => cases hafter
  have hcloser : c :: tail = bracket.closer.toList := htakes.spells
  have hcount : 2 ≤ (c :: tail).count ']' := by
    rw [hcloser, LongBracket.closer, LongBracket.spell, String.toList_ofList, List.count_append,
      List.count_append, List.count_cons_self, List.count_singleton_self]
    omega
  have hread := h (c :: tail) ahead rfl hcount other
  rw [List.cons_append, (htakes.fixed id SegmentKind.noConfusion other).read_eq] at hread
  rw [List.append_assoc]
  exact hread

/-! ## Line comments -/

/-- What has been read of a line comment: `part`, up to where the reader stands. -/
structure Commented (part ahead : List Char) : Prop where
  mark : ∃ body, part = '-' :: '-' :: body ∧ bracket? (body ++ ahead) = none
  line : '\n' ∉ part

/-- A line comment has no literals up to its end. -/
theorem literalsFrom_comment {body : List Char} (h : '\n' ∉ body) (ahead : List Char) :
    literalsFrom 0 [] (read .lineComment (body ++ ahead))
      = literalsFrom 0 [] (read .lineComment ahead) := by
  induction body with
  | nil => rfl
  | cons c body ih =>
      have hrule : rule c (body ++ ahead) .lineComment = ⟨.text, 0, .lineComment⟩ :=
        if_neg (List.ne_of_not_mem_cons h).symm
      rw [List.cons_append, read_cons hrule]
      exact ih (List.not_mem_of_not_mem_cons h)

namespace Commented

variable {part ahead : List Char}

theorem found_eq (h : Commented part ahead) :
    found (part ++ ahead) = literalsFrom 0 [] (read .lineComment ahead) := by
  obtain ⟨⟨body, rfl, hbracket⟩, hline⟩ := h
  have hbody : '\n' ∉ body :=
    List.not_mem_of_not_mem_cons (List.not_mem_of_not_mem_cons hline)
  rw [List.cons_append, List.cons_append, found_cons (rule_dashes 0 _), hbracket]
  exact literalsFrom_comment hbody ahead

/-- **A line comment ends with its line**, whatever follows. -/
theorem found_newline (h : Commented part ('\n' :: ahead)) (other : List Char) :
    found (part ++ '\n' :: other) = found other := by
  have hother : Commented part ('\n' :: other) := by
    obtain ⟨⟨body, rfl, hbracket⟩, hline⟩ := h
    exact ⟨⟨body, rfl, bracket?_newline body ahead other ▸ hbracket⟩, hline⟩
  have hrule : rule '\n' other .lineComment = ⟨.lineBreak, 0, .nested 0⟩ := rfl
  rw [hother.found_eq, read_cons hrule]
  rfl

end Commented

theorem commented_open {c : Char} {tail ahead : List Char}
    (h : Takes (.nested 0) .lineComment c tail ahead) : Commented (c :: tail) ahead := by
  obtain ⟨rfl, rfl⟩ := List.cons.inj h.spells
  refine ⟨⟨[], rfl, ?_⟩, by decide⟩
  rw [Takes, List.cons_append, rule_dashes] at h
  cases hbracket : bracket? ahead with
  | none => exact hbracket
  | some delimiter =>
      rw [List.nil_append, hbracket] at h
      obtain ⟨⟨bracket, hkind | hkind⟩, -⟩ := delimiterRule_after 0 true delimiter
      · cases hkind.symm.trans (congrArg Rule.kind h)
      · cases hkind.symm.trans (congrArg Rule.kind h)

end Grammar

end Keybind
