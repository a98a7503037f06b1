import Keybind.Proofs.Conservation
import Keybind.Proofs.Joining

/-!
# Line endings

A script whose lines end with a carriage return and a newline becomes what it
becomes with newlines alone, with the same line endings, and has the same faults
at the same places.

* The carriage return stands at the end of a line, where the lexer makes white
  space or text of it, on its own or with what is there already. All other segments
  are the same (`Returned`). The one thing that could change is a string in which a
  backslash hides the newline, since the backslash would hide the carriage return
  instead.
* The emitter copies it, and nothing it does depends on what is at the end of a
  line. So the two runs write the same lines, and remember the same braces and
  brackets elsewhere in the source (`Parallel`), where those are that much further
  on as there are lines before them.
* A place is told by its line and column, and the only columns that change are those
  of the newlines themselves.
-/

namespace Keybind

/-! ## Carriage returns -/

namespace Text

/-- The text with a carriage return before every newline. -/
def crlf (cs : List Char) : List Char :=
  cs.flatMap fun c => if c = '\n' then ['\r', '\n'] else [c]

@[simp] theorem crlf_nil : crlf [] = [] := rfl

theorem crlf_newline (cs : List Char) : crlf ('\n' :: cs) = '\r' :: '\n' :: crlf cs := rfl

theorem crlf_cons {c : Char} (h : c ≠ '\n') (cs : List Char) : crlf (c :: cs) = c :: crlf cs := by
  rw [crlf, List.flatMap_cons, if_neg h]
  rfl

@[simp] theorem crlf_append (xs ys : List Char) : crlf (xs ++ ys) = crlf xs ++ crlf ys :=
  List.flatMap_append

theorem crlf_eq_self {cs : List Char} (h : '\n' ∉ cs) : crlf cs = cs := by
  induction cs with
  | nil => rfl
  | cons c cs ih =>
      obtain ⟨hc, hcs⟩ := not_or.mp (mt List.mem_cons.mpr h)
      rw [crlf_cons (Ne.symm hc), ih hcs]

/-- What is on one line is taken from both texts. -/
theorem take_drop_crlf {n : Nat} {cs : List Char} (h : '\n' ∉ cs.take n) :
    (crlf cs).take n = cs.take n ∧ (crlf cs).drop n = crlf (cs.drop n) := by
  induction n generalizing cs with
  | zero => exact ⟨rfl, rfl⟩
  | succ n ih =>
      cases cs with
      | nil => exact ⟨rfl, rfl⟩
      | cons c cs =>
          obtain ⟨hc, hcs⟩ := not_or.mp (mt List.mem_cons.mpr h)
          obtain ⟨htake, hdrop⟩ := ih hcs
          rw [crlf_cons (Ne.symm hc)]
          exact ⟨congrArg (c :: ·) htake, hdrop⟩

theorem head?_crlf {d : Char} (hr : d ≠ '\r') (hn : d ≠ '\n') (cs : List Char) :
    (crlf cs).head? = some d ↔ cs.head? = some d := by
  cases cs with
  | nil => exact Iff.rfl
  | cons c cs =>
      by_cases hc : c = '\n'
      · subst hc
        simp [crlf_newline, hr.symm, hn.symm]
      · rw [crlf_cons hc]
        exact Iff.rfl

end Text

open Text (crlf)

namespace Grammar

/-! ## The rules on such a text -/

theorem level?_crlf {square : Char} (hr : square ≠ '\r') (hn : square ≠ '\n') (cs : List Char) :
    level? square (crlf cs) = level? square cs := by
  induction cs with
  | nil => rfl
  | cons c cs ih =>
      by_cases hc : c = '\n'
      · subst hc
        rw [Text.crlf_newline, level?, if_neg hr.symm, if_neg (by decide), level?, if_neg hn.symm,
          if_neg (by decide)]
      · rw [Text.crlf_cons hc, level?, level?, ih]

theorem bracket?_crlf (cs : List Char) : bracket? (crlf cs) = bracket? cs := by
  cases cs with
  | nil => rfl
  | cons c cs =>
      by_cases hc : c = '\n'
      · subst hc
        rw [Text.crlf_newline, bracket?_eq_none (by decide) (by decide),
          bracket?_eq_none (by decide) (by decide)]
      · rw [Text.crlf_cons hc]
        exact bracket?_congr (level?_crlf (by decide) (by decide) cs)
          (level?_crlf (by decide) (by decide) cs) c

/-- No string reaches over such a line ending, not even with a backslash. -/
theorem closing?_crlf {mark : Char} (hr : mark ≠ '\r') (hn : mark ≠ '\n') (cs : List Char)
    (h : ∀ n, closing? mark cs = some n → '\n' ∉ cs.take n) :
    closing? mark (crlf cs) = closing? mark cs := by
  fun_induction closing? mark cs with
  | case1 => rfl
  | case2 => rfl
  | case3 d cs ih =>
      by_cases hd : d = '\n'
      · -- the backslash hides the newline from the one and the carriage return from the other
        subst hd
        rw [Text.crlf_cons (by decide), Text.crlf_newline, closing?, closing?_newline hn]
        cases hclosing : closing? mark cs with
        | none => rfl
        | some n =>
            rw [hclosing] at h
            exact absurd (List.mem_cons_of_mem _ List.mem_cons_self) (h (n + 2) rfl)
      · have hrest : ∀ n, closing? mark cs = some n → '\n' ∉ cs.take n := by
          intro n hclosing hmem
          rw [hclosing] at h
          exact h (n + 2) rfl (List.mem_cons_of_mem _ (List.mem_cons_of_mem _ hmem))
        rw [Text.crlf_cons (by decide), Text.crlf_cons hd, closing?, ih hrest]
  | case4 cs hnil hcons =>
      rw [Text.crlf_cons hn, closing?_mark (char_ne_backslash hnil hcons)]
  | case5 cs _ _ _ =>
      rw [Text.crlf_newline, closing?_plain (by decide) hr.symm (by decide), closing?_newline hn]
      rfl
  | case6 c cs hnil hcons hm hc ih =>
      have hrest : ∀ n, closing? mark cs = some n → '\n' ∉ cs.take n := by
        intro n hclosing hmem
        rw [hclosing] at h
        exact h (n + 1) rfl (List.mem_cons_of_mem _ hmem)
      rw [Text.crlf_cons hc, closing?_plain (char_ne_backslash hnil hcons) hm hc, ih hrest]

theorem bracketRule?_crlf {c : Char} (hc : c ≠ '\n') (depth : Nat) (cs : List Char) :
    bracketRule? depth (c :: crlf cs) = bracketRule? depth (c :: cs) := by
  by_cases hdash : c = '-' ∧ cs.head? = some '-'
  · obtain ⟨rfl, hhead⟩ := hdash
    obtain ⟨ds, rfl⟩ := List.head?_eq_some_iff.mp hhead
    rw [Text.crlf_cons (by decide), bracketRule?, bracketRule?, bracket?_crlf]
  · have hdash' : ¬(c = '-' ∧ (crlf cs).head? = some '-') := by
      rwa [Text.head?_crlf (by decide) (by decide)]
    rw [bracketRule?_of_not_dash hdash, bracketRule?_of_not_dash hdash', ← bracket?_crlf (c :: cs),
      Text.crlf_cons hc]

theorem dashesRule?_crlf (c : Char) (depth : Nat) (cs : List Char) :
    dashesRule? depth (c :: crlf cs) = dashesRule? depth (c :: cs) := by
  by_cases hdash : c = '-' ∧ cs.head? = some '-'
  · obtain ⟨rfl, hhead⟩ := hdash
    obtain ⟨ds, rfl⟩ := List.head?_eq_some_iff.mp hhead
    rw [Text.crlf_cons (by decide), dashesRule?, dashesRule?]
  · have hdash' : ¬(c = '-' ∧ (crlf cs).head? = some '-') := by
      rwa [Text.head?_crlf (by decide) (by decide)]
    rw [dashesRule?_of_not_dash hdash, dashesRule?_of_not_dash hdash']

theorem quoteRule?_cons (depth : Nat) (c : Char) (cs : List Char) :
    quoteRule? depth (c :: cs)
      = (mark? c).bind fun mark => (if depth = 0 then closing? c cs else none).map fun extra =>
        ⟨.quoted mark, extra, .nested depth⟩ := by
  rw [quoteRule?]
  cases mark? c <;> cases closing? c cs <;> by_cases hdepth : depth = 0 <;> simp [hdepth]

theorem quoteRule?_crlf {depth : Nat} {c : Char} {cs : List Char}
    (h : ∀ mark r, quoteRule? depth (c :: cs) = some r → r.kind = .quoted mark →
      '\n' ∉ cs.take r.extra) :
    quoteRule? depth (c :: crlf cs) = quoteRule? depth (c :: cs) := by
  rw [quoteRule?_cons] at h ⊢
  rw [quoteRule?_cons]
  cases hmark : mark? c with
  | none => rfl
  | some mark =>
      have hr : c ≠ '\r' := by rintro rfl; cases hmark
      have hn : c ≠ '\n' := by rintro rfl; cases hmark
      by_cases hdepth : depth = 0
      · rw [if_pos hdepth, if_pos hdepth, closing?_crlf hr hn cs]
        intro n hclosing
        rw [hmark, if_pos hdepth, hclosing] at h
        exact h mark _ rfl rfl
      · rw [if_neg hdepth, if_neg hdepth]

theorem plainRule_crlf {c : Char} (hspace : ¬Token.IsSpace c) (depth : Nat) (cs : List Char) :
    plainRule depth c (crlf cs) = plainRule depth c cs := by
  unfold plainRule
  simp only [if_neg hspace, Text.head?_crlf (by decide : '>' ≠ '\r') (by decide : '>' ≠ '\n')]

/-- **The same rules apply** to a text with carriage returns, but for white space and newlines. -/
theorem rule_crlf {depth : Nat} {c : Char} (hc : c ≠ '\n') (hspace : ¬Token.IsSpace c)
    {cs : List Char}
    (h : ∀ mark, (rule c cs (.nested depth)).kind = .quoted mark →
      '\n' ∉ cs.take (rule c cs (.nested depth)).extra) :
    rule c (crlf cs) (.nested depth) = rule c cs (.nested depth) := by
  rw [rule, bracketRule?_crlf hc, dashesRule?_crlf, plainRule_crlf hspace]
  rw [rule] at h ⊢
  cases hb : bracketRule? depth (c :: cs) with
  | some r => rfl
  | none =>
      cases hd : dashesRule? depth (c :: cs) with
      | some r => rfl
      | none =>
          rw [hb, hd] at h
          rw [quoteRule?_crlf fun mark r hr hkind => ?_]
          rw [hr] at h
          exact h mark hkind

end Grammar

/-! ## The segments of such a text -/

/-- The second list is the first with a carriage return before every line break, which is white
space or text of its own or ends that before it. -/
inductive Returned : List (SegmentKind × List Char) → List (SegmentKind × List Char) → Prop where
  | nil : Returned [] []
  | same {xs ys : List (SegmentKind × List Char)} {item : SegmentKind × List Char} :
      item.1 ≠ .lineBreak → '\n' ∉ item.2 → Returned xs ys → Returned (item :: xs) (item :: ys)
  | alone {xs ys : List (SegmentKind × List Char)} {kind : SegmentKind} :
      kind = .whitespace ∨ kind = .text → Returned xs ys →
      Returned ((.lineBreak, ['\n']) :: xs) ((kind, ['\r']) :: (.lineBreak, ['\n']) :: ys)
  | trailing {xs ys : List (SegmentKind × List Char)} {kind : SegmentKind} {text : List Char} :
      kind = .whitespace ∨ kind = .text → '\n' ∉ text → Returned xs ys →
      Returned ((kind, text) :: (.lineBreak, ['\n']) :: xs)
        ((kind, text ++ ['\r']) :: (.lineBreak, ['\n']) :: ys)

namespace Grammar

theorem read_newline (depth : Nat) (cs : List Char) :
    read (.nested depth) ('\n' :: cs) = (.lineBreak, ['\n']) :: read (.nested depth) cs := by
  have hrule : rule '\n' cs (.nested depth) = ⟨.lineBreak, 0, .nested depth⟩ :=
    rule_plain (fun hc => absurd hc.1 (by decide)) (by decide) (by decide) rfl
  exact read_cons hrule

/-- White space at the end of a line takes the carriage return with it. -/
theorem returned_spaces {c : Char} (hspace : Token.IsSpace c) {cs : List Char} {depth : Nat}
    (h : Returned (read (.nested depth) (cs.dropWhile (Token.IsSpace ·)))
      (read (.nested depth) (crlf (cs.dropWhile (Token.IsSpace ·))))) :
    Returned (read (.nested depth) (c :: cs)) (read (.nested depth) (crlf (c :: cs))) := by
  have hpos : ∀ d ∈ cs.takeWhile (Token.IsSpace ·), (decide (Token.IsSpace d)) = true :=
    fun d hd => List.all_eq_true.mp List.all_takeWhile d hd
  have hspaces : ∀ d ∈ c :: cs.takeWhile (Token.IsSpace ·), Token.IsSpace d :=
    List.forall_mem_cons.mpr ⟨hspace, fun d hd => of_decide_eq_true (hpos d hd)⟩
  have hline : '\n' ∉ c :: cs.takeWhile (Token.IsSpace ·) := fun hmem =>
    absurd (hspaces _ hmem) (by decide)
  have hcut : crlf (c :: cs) = c :: (cs.takeWhile (Token.IsSpace ·)
      ++ crlf (cs.dropWhile (Token.IsSpace ·))) := by
    rw [← List.cons_append, ← Text.crlf_eq_self hline, ← Text.crlf_append, List.cons_append,
      List.takeWhile_append_dropWhile]
  rw [hcut, read_spaces hspace, read_spaces hspace, List.takeWhile_append_of_pos hpos,
    List.dropWhile_append_of_pos hpos]
  cases hrest : cs.dropWhile (Token.IsSpace ·) with
  | nil =>
      rw [hrest] at h
      rw [Text.crlf_nil, List.takeWhile_nil, List.append_nil, List.dropWhile_nil]
      exact .same nofun hline h
  | cons d ds =>
      rw [hrest] at h
      by_cases hd : d = '\n'
      · subst hd
        rw [Text.crlf_newline, read_newline, read_spaces (by decide),
          List.takeWhile_cons_of_neg (by decide), List.dropWhile_cons_of_neg (by decide),
          read_newline] at h
        rw [Text.crlf_newline, read_newline, List.takeWhile_cons_of_pos (by decide),
          List.dropWhile_cons_of_pos (by decide), List.takeWhile_cons_of_neg (by decide),
          List.dropWhile_cons_of_neg (by decide), read_newline]
        generalize read (.nested depth) ds = xs, read (.nested depth) (crlf ds) = ys at h
        cases h with
        | alone _ h => exact .trailing (.inl rfl) hline h
      · have hd' : ¬Token.IsSpace d := by
          have hhead := List.head?_dropWhile_not (fun c => decide (Token.IsSpace c)) cs
          rw [hrest] at hhead
          simpa using hhead
        rw [Text.crlf_cons hd] at h ⊢
        rw [List.takeWhile_cons_of_neg (by simpa using hd'),
          List.dropWhile_cons_of_neg (by simpa using hd'), List.append_nil]
        exact .same nofun hline h

/-- In a line comment the carriage return is text of its own. -/
theorem returned_comment {c : Char} {cs : List Char}
    (h : Returned (read (rule c cs .lineComment).state cs)
      (read (rule c cs .lineComment).state (crlf cs))) :
    Returned (read .lineComment (c :: cs)) (read .lineComment (crlf (c :: cs))) := by
  by_cases hc : c = '\n'
  · subst hc
    have hbreak : ∀ ds, rule '\n' ds .lineComment = ⟨.lineBreak, 0, .nested 0⟩ := fun _ => rfl
    have hreturn : ∀ ds, rule '\r' ds .lineComment = ⟨.text, 0, .lineComment⟩ := fun _ => rfl
    rw [Text.crlf_newline, read_cons (hbreak cs), read_cons (hreturn _), List.drop_zero,
      List.drop_zero, read_cons (hbreak _)]
    exact .alone (.inr rfl) h
  · have hrule : ∀ ds, rule c ds .lineComment = ⟨.text, 0, .lineComment⟩ := fun _ => if_neg hc
    rw [hrule] at h
    rw [Text.crlf_cons hc, read_cons (hrule cs), read_cons (hrule _)]
    exact .same SegmentKind.noConfusion (by simpa using Ne.symm hc) h

/-- A newline in code or in a long bracket has the carriage return before it as white space. -/
theorem returned_newline {cs : List Char} {depth : Nat}
    (h : Returned (read (.nested depth) cs) (read (.nested depth) (crlf cs))) :
    Returned (read (.nested depth) ('\n' :: cs)) (read (.nested depth) (crlf ('\n' :: cs))) := by
  rw [Text.crlf_newline, read_newline, read_spaces (by decide),
    List.takeWhile_cons_of_neg (by decide), List.dropWhile_cons_of_neg (by decide), read_newline]
  exact .alone (.inl rfl) h

/-- Elsewhere the same rule applies, and takes nothing of a line ending. -/
theorem returned_rule {c : Char} {cs : List Char} {depth : Nat} (hc : c ≠ '\n')
    (hspace : ¬Token.IsSpace c)
    (hquoted : ∀ mark, (rule c cs (.nested depth)).kind = .quoted mark →
      '\n' ∉ c :: cs.take (rule c cs (.nested depth)).extra)
    (h : Returned
      (read (rule c cs (.nested depth)).state (cs.drop (rule c cs (.nested depth)).extra))
      (read (rule c cs (.nested depth)).state
        (crlf (cs.drop (rule c cs (.nested depth)).extra)))) :
    Returned (read (.nested depth) (c :: cs)) (read (.nested depth) (crlf (c :: cs))) := by
  have hbreak : (rule c cs (.nested depth)).kind ≠ .lineBreak := by
    intro hkind
    have hspelt := spelt_rule c cs (.nested depth)
    rw [Rule.Spelt, hkind] at hspelt
    exact hc (List.cons.inj hspelt).1
  -- only a string could reach over the end of a line, and none does
  have htaken : '\n' ∉ c :: cs.take (rule c cs (.nested depth)).extra := by
    by_cases hmark : ∃ mark, (rule c cs (.nested depth)).kind = .quoted mark
    · obtain ⟨mark, hmark⟩ := hmark
      exact hquoted mark hmark
    · exact newline_not_mem_kind c cs _ hbreak fun mark hkind => hmark ⟨mark, hkind⟩
  have hsame : rule c (crlf cs) (.nested depth) = rule c cs (.nested depth) :=
    rule_crlf hc hspace fun mark hkind => List.not_mem_of_not_mem_cons (hquoted mark hkind)
  obtain ⟨htake, hdrop⟩ := Text.take_drop_crlf (List.not_mem_of_not_mem_cons htaken)
  rw [Text.crlf_cons hc, read_cons rfl, read_cons hsame, htake, hdrop]
  exact .same hbreak htaken h

/-- **Reading a text with carriage returns**, rule by rule. -/
theorem returned_read (cs : List Char) : ∀ state,
    (∀ item ∈ read state cs, ∀ mark, item.1 = .quoted mark → '\n' ∉ item.2) →
      Returned (read state cs) (read state (crlf cs)) := by
  -- on the characters that are left once the first rule has taken its own
  induction cs using dropInduction with
  | nil =>
      intro state _
      rw [Text.crlf_nil, read.eq_1]
      exact .nil
  | cons c cs ih =>
      intro state hquoted
      rw [read_cons rfl] at hquoted
      obtain ⟨hfirst, hrest⟩ := List.forall_mem_cons.mp hquoted
      have hread := ih (rule c cs state).extra (rule c cs state).state hrest
      cases state with
      | lineComment =>
          have hextra : (rule c cs .lineComment).extra = 0 := by
            rw [rule]
            split <;> rfl
          rw [hextra] at hread
          exact returned_comment hread
      | nested depth =>
          by_cases hc : c = '\n'
          · subst hc
            have hbreak : rule '\n' cs (.nested depth) = ⟨.lineBreak, 0, .nested depth⟩ :=
              rule_plain (fun hc => absurd hc.1 (by decide)) (by decide) (by decide) rfl
            rw [hbreak] at hread
            exact returned_newline hread
          by_cases hspace : Token.IsSpace c
          · rw [rule_spaces hspace depth cs] at hread
            refine returned_spaces hspace ?_
            rw [← (take_drop_takeWhile (Token.IsSpace ·) cs).2]
            exact hread
          · exact returned_rule hc hspace hfirst hread

theorem returned_attach {item : SegmentKind × List Char} (hbreak : item.1 ≠ .lineBreak)
    (hline : '\n' ∉ item.2) {xs ys : List (SegmentKind × List Char)} (h : Returned xs ys) :
    Returned (attach item xs) (attach item ys) := by
  have hjoin : ∀ text, '\n' ∉ text → '\n' ∉ item.2 ++ text := fun text htext hmem =>
    (List.mem_append.mp hmem).elim hline htext
  cases h with
  | nil => exact attach_nil item ▸ .same hbreak hline .nil
  | @same xs ys next hnext htext h =>
      rw [attach_cons, attach_cons]
      split
      · exact .same SegmentKind.noConfusion (hjoin _ htext) h
      · exact .same hbreak hline (.same hnext htext h)
  | alone hkind h =>
      rw [attach_before (by decide), attach_cons]
      split
      · -- text before the line break takes the carriage return
        rename_i htext
        obtain ⟨kind, text⟩ := item
        obtain rfl : kind = .text := htext.1
        exact .trailing (.inr rfl) hline h
      · exact .same hbreak hline (.alone hkind h)
  | trailing hkind htext h =>
      rw [attach_cons, attach_cons]
      split
      · rw [← List.append_assoc]
        exact .trailing (.inr rfl) (hjoin _ htext) h
      · exact .same hbreak hline (.trailing hkind htext h)

theorem returned_foldr_attach {xs ys : List (SegmentKind × List Char)} (h : Returned xs ys) :
    Returned (xs.foldr attach []) (ys.foldr attach []) := by
  have hbreak : ∀ items, attach (.lineBreak, ['\n']) items = (.lineBreak, ['\n']) :: items :=
    fun items => attach_of_ne (by decide) items
  induction h with
  | nil => exact .nil
  | same hkind hline _ ih => exact returned_attach hkind hline ih
  | alone hkind _ ih =>
      simp only [List.foldr_cons, hbreak]
      rw [attach_before (by decide)]
      exact .alone hkind ih
  | trailing hkind hline _ ih =>
      simp only [List.foldr_cons, hbreak]
      rw [attach_before (by decide), attach_before (by decide)]
      exact .trailing hkind hline ih

/-- What is not text stays as it is when text is put together. -/
theorem mem_foldr_attach {item : SegmentKind × List Char} (h : item.1 ≠ .text)
    {items : List (SegmentKind × List Char)} (hitem : item ∈ items) :
    item ∈ items.foldr attach [] := by
  induction items with
  | nil => cases hitem
  | cons first items ih =>
      rw [List.foldr_cons]
      rcases List.mem_cons.mp hitem with rfl | hitem
      · rw [attach_of_ne h]
        exact List.mem_cons_self
      · have hmem := ih hitem
        cases hrest : items.foldr attach [] with
        | nil => rw [hrest] at hmem; cases hmem
        | cons next rest =>
            rw [hrest] at hmem
            rw [attach_cons]
            split
            · rename_i htext
              rcases List.mem_cons.mp hmem with rfl | hmem
              · exact absurd htext.2 h
              · exact List.mem_cons_of_mem _ hmem
            · exact List.mem_cons_of_mem _ hmem

/-- **The segments of a text with carriage returns.** -/
theorem returned_segments {cs : List Char}
    (h : ∀ segment ∈ lex cs, ∀ mark, segment.kind = .quoted mark → '\n' ∉ segment.text) :
    Returned (segments cs) (segments (crlf cs)) := by
  refine returned_foldr_attach (returned_read cs _ fun item hitem mark hkind => ?_)
  have hmem : item ∈ segments cs := mem_foldr_attach (by rw [hkind]; exact nofun) hitem
  rw [← bareSegments_eq, ← bare_lex] at hmem
  obtain ⟨segment, hsegment, rfl⟩ := List.mem_map.mp hmem
  exact h segment hsegment mark hkind

end Grammar

/-! ## Two runs -/

namespace Emitter

variable {options : Options} {f : Nat → Nat} {ending : List Char}
  {emitter other next : Emitter} {segment segment' : Segment}

/-- The two have written the same lines, up to the line endings, where the second is `ending` ahead
on the current one; and they are within the same scopes and long brackets, elsewhere in the
source. -/
structure Parallel (f : Nat → Nat) (ending : List Char) (emitter other : Emitter) : Prop where
  context : other.context = emitter.context.relocate f
  scopes : other.scopes = emitter.scopes.map (Scope.relocate f)
  line : other.line = emitter.line ++ ending
  linesBefore : Piece.assemble other.linesBefore.reverse
    = crlf (Piece.assemble emitter.linesBefore.reverse)
  inline : '\n' ∉ emitter.line

theorem Parallel.start (f : Nat → Nat) : Parallel f [] {} {} :=
  ⟨rfl, rfl, rfl, rfl, List.not_mem_nil⟩

theorem Parallel.context_eq_code (h : Parallel f ending emitter other) :
    other.context = .code ↔ emitter.context = .code := by
  rw [h.context, Context.relocate_eq_code]

/-- **A segment that is taken is taken elsewhere**, and they are within the same scopes and long
brackets after it. -/
theorem Step.elsewhere (h : Step options emitter segment next)
    (hpar : Parallel f [] emitter other) (harrow : other.afterArrow = emitter.afterArrow)
    (hkind : segment'.kind = segment.kind) (hstart : segment'.span.start = f segment.span.start) :
    ∃ next', Step options other segment' next' ∧ next'.context = next.context.relocate f
      ∧ next'.scopes = next.scopes.map (Scope.relocate f)
      ∧ next'.afterArrow = next.afterArrow := by
  obtain ⟨hcontext, hafter, hout⟩ := h
  -- it is enough to say what the other puts out
  have hnext : ∀ pieces, Emits options other segment' pieces (next.scopes.map (Scope.relocate f)) →
      ∃ next', Step options other segment' next' ∧ next'.context = next.context.relocate f
        ∧ next'.scopes = next.scopes.map (Scope.relocate f)
        ∧ next'.afterArrow = next.afterArrow := by
    intro pieces hemits
    refine ⟨⟨pieces, next.scopes.map (Scope.relocate f), next.context.relocate f,
      next.afterArrow⟩, ⟨?_, ?_, hemits⟩, rfl, rfl, rfl⟩
    · rw [hpar.context, Context.advance_relocate emitter.context hkind hstart, hcontext]
      rfl
    · rw [hafter]
      unfold arrowAfter
      simp only [hkind, harrow, hpar.context_eq_code]
  generalize next.pieces = pieces, hscopes : next.scopes = scopes at hout hnext
  cases hout with
  | opens hctx hk =>
      have hemits : Emits options other segment' _ _ :=
        .opens (hpar.context_eq_code.mpr hctx) (hkind.trans hk)
      have hscope : other.scopeKind = emitter.scopeKind := by
        unfold scopeKind
        rw [harrow]
      rw [hscope, hstart, hpar.scopes] at hemits
      exact hnext _ hemits
  | @closes scope _ hctx hk htop =>
      have htop' : other.scopes = scope.relocate f :: scopes.map (Scope.relocate f) := by
        rw [hpar.scopes, htop, List.map_cons]
      exact hnext _ (.closes (hpar.context_eq_code.mpr hctx) (hkind.trans hk) htop')
  | assigns hctx hk =>
      have hemits : Emits options other segment' _ _ :=
        .assigns (hpar.context_eq_code.mpr hctx) (hkind.trans hk)
      rw [hpar.scopes] at hemits
      exact hnext _ hemits
  | copies hcopied =>
      have hemits : Emits options other segment' _ _ :=
        .copies fun hctx hk => hcopied (hpar.context_eq_code.mp hctx) (hkind ▸ hk)
      rw [hpar.scopes] at hemits
      exact hnext _ hemits

/-- **A segment that is not taken is not taken elsewhere.** -/
theorem feed_elsewhere {fault : Fault Nat} (h : emitter.feed options segment = (next, .error fault))
    (hpar : Parallel f ending emitter other) (segment' : Segment)
    (hkind : segment'.kind = segment.kind)
    (hstart : segment'.span.start = f segment.span.start) :
    ∃ next', other.feed options segment' = (next', .error (fault.map f)) := by
  rcases feed_error h with hfault | ⟨hctx, hk, hnone, rfl⟩
  · refine feed_of_fault ?_ options
    rw [hpar.context, Context.advance_relocate emitter.context hkind hstart, hfault]
    rfl
  · have hscopes : other.scopes = [] := by rw [hpar.scopes, hnone, List.map_nil]
    have hexcess := feed_of_excess (hpar.context_eq_code.mpr hctx) (hkind.trans hk) hscopes options
    rw [hstart] at hexcess
    exact ⟨_, hexcess⟩

/-- What becomes of a segment is the same elsewhere. -/
theorem role_elsewhere (hpar : Parallel f ending emitter other)
    (harrow : other.afterArrow = emitter.afterArrow) (hkind : segment'.kind = segment.kind) :
    other.standing.role segment' = emitter.standing.role segment := by
  unfold Standing.role standing
  dsimp only
  rw [hkind, harrow, hpar.scopes, hpar.context]
  have hkinds : (emitter.scopes.map (Scope.relocate f)).map (·.kind)
      = emitter.scopes.map (·.kind) := by
    rw [List.map_map]
    rfl
  rw [hkinds]
  cases emitter.context <;> rfl

/-- **A segment within a line** keeps the two runs parallel. -/
theorem Step.parallel (h : Step options emitter segment next) (hoptions : options.Inline)
    (hpar : Parallel f [] emitter other) (harrow : other.afterArrow = emitter.afterArrow)
    (hbreak : segment.kind ≠ .lineBreak) (hline : '\n' ∉ segment.text) (segment' : Segment)
    (hkind : segment'.kind = segment.kind) (htext : segment'.text = segment.text)
    (hstart : segment'.span.start = f segment.span.start) :
    ∃ next', Step options other segment' next' ∧ Parallel f [] next next'
      ∧ next'.afterArrow = next.afterArrow := by
  obtain ⟨next', hstep, hcontext, hscopes, hafter⟩ := h.elsewhere hpar harrow hkind hstart
  obtain ⟨hwrite, hbefore⟩ := h.writes hbreak
  obtain ⟨hwrite', hbefore'⟩ := hstep.writes (hkind ▸ hbreak)
  refine ⟨next', hstep, ⟨hcontext, hscopes, ?_, ?_, ?_⟩, hafter⟩
  · rw [hwrite', hwrite, role_elsewhere hpar harrow hkind, hpar.line, List.append_nil,
      List.append_nil, write, write, htext]
  · rw [hbefore', hbefore, hpar.linesBefore]
  · have hitem : Inline (emitter.standing.role segment, segment) :=
      ⟨.of_not_mem hline, fun _ => hline⟩
    have hcount := (newlines_write hoptions (.of_not_mem hpar.inline) hitem).2
    rw [List.count_eq_zero_of_not_mem hpar.inline, List.count_eq_zero_of_not_mem hline,
      ← hwrite] at hcount
    exact List.count_eq_zero.mp hcount

/-- The state after a segment that is copied. -/
def taken (emitter : Emitter) (segment : Segment) : Emitter where
  pieces := segment.copy :: emitter.pieces
  scopes := emitter.scopes
  context := (emitter.context.advance segment).1
  afterArrow := emitter.arrowAfter segment

/-- White space, text and line breaks are copied everywhere. -/
theorem step_taken (options : Options) (emitter : Emitter)
    (hkind : segment.kind = .whitespace ∨ segment.kind = .text ∨ segment.kind = .lineBreak) :
    Step options emitter segment (emitter.taken segment) where
  context := by
    refine Prod.ext rfl (emitter.context.fault_eq_none fun found hclose => ?_)
    rcases hkind with hk | hk | hk <;> cases hk.symm.trans hclose
  afterArrow := rfl
  output := by
    refine .copies fun _ hstructural => ?_
    rcases hkind with hk | hk | hk <;> rw [hk] at hstructural <;>
      exact absurd hstructural (by decide)

/-- White space and text are added to the line, and nothing else happens. -/
theorem taken_loose (emitter : Emitter)
    (hkind : segment.kind = .whitespace ∨ segment.kind = .text) :
    (emitter.taken segment).context = emitter.context
      ∧ (emitter.taken segment).line = emitter.line ++ segment.text
      ∧ (emitter.taken segment).linesBefore = emitter.linesBefore := by
  have hcopy : segment.copy = .source segment.text :=
    if_neg (by rcases hkind with hk | hk <;> rw [hk] <;> decide)
  have hpieces : (emitter.taken segment).pieces = .source segment.text :: emitter.pieces :=
    congrArg (· :: emitter.pieces) hcopy
  have hpassed : ¬emitter.context.Heeds segment.kind := by
    cases emitter.context <;> rcases hkind with hk | hk <;>
      simp [Context.Heeds, SegmentKind.IsDelimiter, hk]
  exact ⟨congrArg Prod.fst (Context.advance_other hpassed), line_of_add hpieces rfl⟩

/-- The carriage return as white space or text of its own. -/
theorem Parallel.alone (h : Parallel f [] emitter other)
    (hkind : segment'.kind = .whitespace ∨ segment'.kind = .text)
    (htext : segment'.text = ['\r']) : Parallel f ['\r'] emitter (other.taken segment') := by
  obtain ⟨hcontext, hline, hbefore⟩ := taken_loose other hkind
  refine ⟨hcontext.trans h.context, h.scopes, ?_, ?_, h.inline⟩
  · rw [hline, h.line, htext, List.append_nil]
  · rw [hbefore, h.linesBefore]

/-- The carriage return at the end of white space or text. -/
theorem Parallel.trailing (h : Parallel f [] emitter other)
    (hkind : segment.kind = .whitespace ∨ segment.kind = .text) (hline : '\n' ∉ segment.text)
    (hkind' : segment'.kind = .whitespace ∨ segment'.kind = .text)
    (htext : segment'.text = segment.text ++ ['\r']) :
    Parallel f ['\r'] (emitter.taken segment) (other.taken segment') := by
  obtain ⟨hcontext, hadded, hbefore⟩ := taken_loose emitter hkind
  obtain ⟨hcontext', hadded', hbefore'⟩ := taken_loose other hkind'
  refine ⟨?_, h.scopes, ?_, ?_, ?_⟩
  · rw [hcontext', h.context, hcontext]
  · rw [hadded', h.line, htext, hadded, List.append_nil, List.append_assoc]
  · rw [hbefore', h.linesBefore, hbefore]
  · rw [hadded]
    exact fun hmem => (List.mem_append.mp hmem).elim h.inline hline

/-- **At the end of a line** the carriage return has been written, and the two runs are parallel
again. -/
theorem Parallel.lineBreak (h : Parallel f ['\r'] emitter other)
    (hkind : segment.kind = .lineBreak) (htext : segment.text = ['\n'])
    (hkind' : segment'.kind = .lineBreak) (htext' : segment'.text = ['\n']) :
    Parallel f [] (emitter.taken segment) (other.taken segment') := by
  have hpieces : ∀ (e : Emitter) (s : Segment), s.kind = .lineBreak → s.text = ['\n'] →
      (e.taken s).pieces = .lineBreak ['\n'] :: e.pieces := by
    intro e s hk ht
    rw [← ht]
    exact congrArg (· :: e.pieces) (if_pos hk)
  obtain ⟨hline, hbefore⟩ := line_of_break (hpieces emitter segment hkind htext) rfl
  obtain ⟨hline', hbefore'⟩ := line_of_break (hpieces other segment' hkind' htext') rfl
  refine ⟨?_, h.scopes, ?_, ?_, ?_⟩
  · rw [taken, taken, Context.advance_lineBreak _ hkind, Context.advance_lineBreak _ hkind',
      h.context]
    cases emitter.context <;> rfl
  · rw [hline, hline']
    rfl
  · have hcut : ∀ e : Emitter, Piece.assemble (Piece.lineBreak ['\n'] :: e.pieces).reverse
        = Piece.assemble e.linesBefore.reverse ++ e.line ++ ['\n'] := by
      intro e
      rw [← assemble_eq, List.reverse_cons, Piece.assemble, List.flatMap_append]
      rfl
    rw [hbefore, hbefore', hpieces emitter segment hkind htext,
      hpieces other segment' hkind' htext', hcut, hcut, h.linesBefore, h.line, Text.crlf_append,
      Text.crlf_append, Text.crlf_eq_self h.inline, Text.crlf_newline]
    simp
  · rw [hline]
    exact List.not_mem_nil

theorem afterArrow_lineBreak (emitter : Emitter) (hkind : segment.kind = .lineBreak) :
    (emitter.taken segment).afterArrow = false := by
  unfold taken arrowAfter
  simp [hkind]

/-- Two runs that end alike. -/
inductive SameOutcome (f : Nat → Nat) :
    Except (Fault Nat) Emitter → Except (Fault Nat) Emitter → Prop where
  | ok {emitter other : Emitter} : Parallel f [] emitter other →
      SameOutcome f (.ok emitter) (.ok other)
  | error (fault : Fault Nat) : SameOutcome f (.error fault) (.error (fault.map f))

theorem Step.feedAll (h : Step options emitter segment next) (segments : List Segment) :
    (emitter.feedAll options (segment :: segments)).2 = (next.feedAll options segments).2 :=
  feedAll_cons_ok (feed_of_step h) segments

theorem feedAll_taken (options : Options) (emitter : Emitter) {kind : SegmentKind}
    (hkind : kind = .whitespace ∨ kind = .text ∨ kind = .lineBreak) (text : List Char)
    (offset : Nat) (items : List (SegmentKind × List Char)) :
    (emitter.feedAll options (Lexeme.layOut offset ((kind, text) :: items))).2
      = ((emitter.taken ⟨kind, ⟨offset, offset + Text.byteSize text⟩, text⟩).feedAll options
        (Lexeme.layOut (offset + Text.byteSize text) items)).2 :=
  (step_taken options emitter hkind).feedAll _

end Emitter

/-! ## Places -/

namespace Text

theorem takeBytes_zero (cs : List Char) : takeBytes 0 cs = [] := by
  cases cs with
  | nil => rfl
  | cons c cs => exact if_neg (Nat.not_le.mpr c.utf8Size_pos)

theorem takeBytes_append_self (a b : List Char) : takeBytes (byteSize a) (a ++ b) = a := by
  have htake := takeBytes_append_right a b 0
  rwa [Nat.zero_add, takeBytes_zero, List.append_nil] at htake

theorem takeBytes_prefix (n : Nat) (cs : List Char) : takeBytes n cs <+: cs := by
  induction cs generalizing n with
  | nil => exact List.prefix_rfl
  | cons c cs ih =>
      rw [takeBytes]
      split
      · exact (List.prefix_cons_inj c).mpr (ih _)
      · exact List.nil_prefix

/-- Where a byte of a text is once there are carriage returns. -/
def crlfOffset (cs : List Char) (offset : Nat) : Nat :=
  byteSize (crlf (takeBytes offset cs))

theorem crlfOffset_append (a b : List Char) :
    crlfOffset (a ++ b) (byteSize a) = byteSize (crlf a) := by
  rw [crlfOffset, takeBytes_append_self]

end Text

/-- **Places are the same** with carriage returns. -/
theorem Location.ofOffset_crlf (cs : List Char) (offset : Nat) :
    ofOffset (crlf cs) (Text.crlfOffset cs offset) = ofOffset cs offset := by
  have hfold : ∀ (text : List Char) (place : Location),
      (crlf text).foldl advance place = text.foldl advance place := by
    intro text
    induction text with
    | nil => exact fun _ => rfl
    | cons c text ih =>
        intro place
        by_cases hc : c = '\n'
        · -- the carriage return moves the column, which the newline sets anew
          subst hc
          rw [Text.crlf_newline, List.foldl_cons, List.foldl_cons, List.foldl_cons, ih]
          rfl
        · rw [Text.crlf_cons hc, List.foldl_cons, List.foldl_cons, ih]
  have hprefix : Text.takeBytes (Text.crlfOffset cs offset) (crlf cs)
      = crlf (Text.takeBytes offset cs) := by
    obtain ⟨rest, hrest⟩ := Text.takeBytes_prefix offset cs
    have hcut : crlf cs = crlf (Text.takeBytes offset cs) ++ crlf rest := by
      rw [← Text.crlf_append, hrest]
    rw [hcut, Text.crlfOffset, Text.takeBytes_append_self]
  rw [ofOffset, hprefix, hfold, ofOffset]

/-! ## Whole scripts -/

namespace Emitter

/-- From wherever the two runs are parallel, they end alike over these items. The first list is what
is left of the text `cs`. -/
def EndAlike (options : Options) (cs : List Char) (xs ys : List (SegmentKind × List Char)) : Prop :=
  ∀ (before : List Char) (emitter other : Emitter), before ++ xs.flatMap Prod.snd = cs →
    Parallel (Text.crlfOffset cs) [] emitter other → other.afterArrow = emitter.afterArrow →
    SameOutcome (Text.crlfOffset cs)
      (emitter.feedAll options (Lexeme.layOut (Text.byteSize before) xs)).2
      (other.feedAll options (Lexeme.layOut (Text.byteSize (crlf before)) ys)).2

/-- A segment that is the same in both. -/
theorem EndAlike.same {options : Options} (hoptions : options.Inline) {cs : List Char}
    {xs ys : List (SegmentKind × List Char)} {item : SegmentKind × List Char}
    (hbreak : item.1 ≠ .lineBreak) (hline : '\n' ∉ item.2) (h : EndAlike options cs xs ys) :
    EndAlike options cs (item :: xs) (item :: ys) := by
  intro before emitter other hcs hpar harrow
  obtain ⟨kind, text⟩ := item
  have hstart : Text.byteSize (crlf before) = Text.crlfOffset cs (Text.byteSize before) := by
    rw [← hcs, Text.crlfOffset_append]
  rw [Lexeme.layOut, Lexeme.layOut]
  rcases hfeed : emitter.feed options ⟨kind, ⟨Text.byteSize before,
    Text.byteSize before + Text.byteSize text⟩, text⟩ with ⟨next, fault | event⟩
  · -- both refuse it, and neither goes on
    obtain ⟨next', hfeed'⟩ := feed_elsewhere hfeed hpar ⟨kind, ⟨Text.byteSize (crlf before),
      Text.byteSize (crlf before) + Text.byteSize text⟩, text⟩ rfl hstart
    rw [feedAll_cons_error hfeed, feedAll_cons_error hfeed']
    exact .error fault
  · -- both take it, and are parallel after it
    have hstep := feed_ok hfeed
    obtain ⟨next', hstep', hpar', harrow'⟩ := hstep.parallel hoptions hpar harrow hbreak hline
      ⟨kind, ⟨Text.byteSize (crlf before),
        Text.byteSize (crlf before) + Text.byteSize text⟩, text⟩ rfl rfl hstart
    have hrest : before ++ text ++ xs.flatMap Prod.snd = cs := by
      rw [← hcs, List.flatMap_cons, List.append_assoc]
    have hends := h _ _ _ hrest hpar' harrow'
    rw [Text.crlf_append, Text.crlf_eq_self hline, Text.byteSize_append,
      Text.byteSize_append] at hends
    rw [hstep.feedAll, hstep'.feedAll]
    exact hends

/-- A line break, with the carriage return before it on its own. -/
theorem EndAlike.alone {options : Options} {cs : List Char}
    {xs ys : List (SegmentKind × List Char)} {kind : SegmentKind}
    (hkind : kind = .whitespace ∨ kind = .text) (h : EndAlike options cs xs ys) :
    EndAlike options cs ((.lineBreak, ['\n']) :: xs)
      ((kind, ['\r']) :: (.lineBreak, ['\n']) :: ys) := by
  intro before emitter other hcs hpar _
  have hrest : before ++ ['\n'] ++ xs.flatMap Prod.snd = cs := by
    rw [← hcs, List.flatMap_cons, List.append_assoc]
  have hoffset : Text.byteSize (crlf before) + Text.byteSize ['\r'] + Text.byteSize ['\n']
      = Text.byteSize (crlf (before ++ ['\n'])) := by
    rw [Text.crlf_append, Text.byteSize_append, Nat.add_assoc]
    rfl
  rw [feedAll_taken options emitter (.inr (.inr rfl)),
    feedAll_taken options other (hkind.imp_right .inl),
    feedAll_taken options _ (.inr (.inr rfl)), hoffset, ← Text.byteSize_append]
  -- a line break makes both forget an arrow
  refine h _ _ _ hrest (Parallel.lineBreak (Parallel.alone hpar ?_ ?_) ?_ ?_ ?_ ?_)
    ((afterArrow_lineBreak _ rfl).trans (afterArrow_lineBreak _ rfl).symm)
  · exact hkind
  all_goals rfl

/-- White space or text at the end of a line, with the carriage return behind it. -/
theorem EndAlike.trailing {options : Options} {cs : List Char}
    {xs ys : List (SegmentKind × List Char)} {kind : SegmentKind} {text : List Char}
    (hkind : kind = .whitespace ∨ kind = .text) (hline : '\n' ∉ text)
    (h : EndAlike options cs xs ys) :
    EndAlike options cs ((kind, text) :: (.lineBreak, ['\n']) :: xs)
      ((kind, text ++ ['\r']) :: (.lineBreak, ['\n']) :: ys) := by
  intro before emitter other hcs hpar _
  have hrest : before ++ text ++ ['\n'] ++ xs.flatMap Prod.snd = cs := by
    rw [← hcs, List.flatMap_cons, List.flatMap_cons, List.append_assoc, List.append_assoc]
  have hoffset : Text.byteSize (crlf before) + Text.byteSize (text ++ ['\r'])
        + Text.byteSize ['\n'] = Text.byteSize (crlf (before ++ text ++ ['\n'])) := by
    rw [Text.crlf_append, Text.crlf_append, Text.crlf_eq_self hline, Text.byteSize_append,
      Text.byteSize_append, Text.byteSize_append, Nat.add_assoc, Nat.add_assoc, Nat.add_assoc]
    rfl
  rw [feedAll_taken options emitter (hkind.imp_right .inl),
    feedAll_taken options _ (.inr (.inr rfl)),
    feedAll_taken options other (hkind.imp_right .inl),
    feedAll_taken options _ (.inr (.inr rfl)), hoffset, ← Text.byteSize_append,
    ← Text.byteSize_append]
  refine h _ _ _ hrest (Parallel.lineBreak (Parallel.trailing hpar ?_ ?_ ?_ ?_) ?_ ?_ ?_ ?_)
    ((afterArrow_lineBreak _ rfl).trans (afterArrow_lineBreak _ rfl).symm)
  · exact hkind
  · exact hline
  · exact hkind
  all_goals rfl

/-- **A run over the text with carriage returns** is parallel to the run over the text, and ends
alike. -/
theorem feedAll_returned {options : Options} (hoptions : options.Inline) {cs : List Char}
    {xs ys : List (SegmentKind × List Char)} (h : Returned xs ys) : EndAlike options cs xs ys := by
  induction h with
  | nil => exact fun _ _ _ _ hpar _ => .ok hpar
  | same hbreak hline _ ih => exact .same hoptions hbreak hline ih
  | alone hkind _ ih => exact .alone hkind ih
  | trailing hkind hline _ ih => exact .trailing hkind hline ih

/-- Where one may end the other may, and they have the same fault if not. -/
theorem finish_parallel (options : Options) {f : Nat → Nat} {emitter other : Emitter}
    (h : Parallel f [] emitter other) :
    (emitter.finish options = .ok emitter.pieces.reverse
        ∧ other.finish options = .ok other.pieces.reverse)
      ∨ ∃ fault, emitter.finish options = .error fault
        ∧ other.finish options = .error (fault.map f) := by
  have houtermost : other.outermost? = emitter.outermost?.map (Opener.relocate f) := by
    unfold outermost?
    rw [h.context]
    cases emitter.context with
    | code => rfl
    | lineComment => rfl
    | longBracket openers => exact List.getLast?_map
  have hclosed : (options.rejectUnterminated = true → emitter.outermost? = none) →
      options.rejectUnterminated = true → other.outermost? = none := by
    intro hnone hreject
    rw [houtermost, hnone hreject]
    rfl
  have hfinishes := emitter.finishes options
  generalize emitter.finish options = result at hfinishes ⊢
  cases hfinishes with
  | @bracket opener hreject hopener =>
      have hother : other.outermost? = some (opener.relocate f) := by
        rw [houtermost, hopener]
        rfl
      exact .inr ⟨_, rfl, (Finishes.bracket hreject hother).finish_eq⟩
  | @brace scope outer hnone hscopes =>
      have hother : other.scopes = scope.relocate f :: outer.map (Scope.relocate f) := by
        rw [h.scopes, hscopes]
        rfl
      exact .inr ⟨_, rfl, (Finishes.brace (hclosed hnone) hother).finish_eq⟩
  | whole hnone hscopes =>
      have hother : other.scopes = [] := by
        rw [h.scopes, hscopes]
        rfl
      exact .inl ⟨rfl, (Finishes.whole (hclosed hnone) hother).finish_eq⟩

end Emitter

/-- A fault in the text with carriage returns has the place that it has without them. -/
theorem Fault.locate_crlf (cs : List Char) (fault : Fault Nat) :
    (fault.map (Text.crlfOffset cs)).locate (crlf cs) = fault.locate cs := by
  rw [locate, map_map, locate]
  exact map_congr (Location.ofOffset_crlf cs fault.place)

/-- The script with a carriage return before every newline. -/
def crlfScript (source : String) : String :=
  String.ofList (crlf source.toList)

/-- **Line endings do not matter.** A script whose lines end with a carriage return and a newline
becomes what it becomes with newlines alone, with these line endings, or has the same fault at the
same place, unless a string goes on after the end of a line. -/
theorem transpile_crlf {options : Options} (htable : '\n' ∉ options.matchTable.toList)
    (hconstructor : '\n' ∉ options.scopeConstructor.toList) {source : String}
    (hquoted : ∀ segment ∈ lex source.toList, ∀ mark, segment.kind = .quoted mark →
      '\n' ∉ segment.text) :
    transpile options (crlfScript source) = (transpile options source).map crlfScript := by
  have hcs : [] ++ (Grammar.segments source.toList).flatMap Prod.snd = source.toList := by
    rw [List.nil_append, ← Grammar.bareSegments_eq, text_bareSegments]
  have hends : Emitter.SameOutcome (Text.crlfOffset source.toList)
      (({} : Emitter).feedAll options (lex source.toList)).2
      (({} : Emitter).feedAll options (lex (crlfScript source).toList)).2 := by
    rw [crlfScript, String.toList_ofList, lex_eq_layOut, lex_eq_layOut,
      Grammar.bareSegments_eq, Grammar.bareSegments_eq]
    exact Emitter.feedAll_returned ⟨htable, hconstructor⟩ (Grammar.returned_segments hquoted) []
      {} {} hcs (.start _) rfl
  have hlocate : ∀ fault : Fault Nat, (fault.map (Text.crlfOffset source.toList)).locate
      (crlfScript source).toList = fault.locate source.toList := by
    intro fault
    rw [crlfScript, String.toList_ofList, Fault.locate_crlf]
  generalize hrun : (({} : Emitter).feedAll options (lex source.toList)).2 = outcome,
    hrun' : (({} : Emitter).feedAll options (lex (crlfScript source).toList)).2 = outcome' at hends
  cases hends with
  | error fault =>
      rw [transpile_of_error (emit_of_error hrun), transpile_of_error (emit_of_error hrun'),
        hlocate]
      rfl
  | @ok last last' hpar =>
      rcases Emitter.finish_parallel options hpar with
        ⟨hok, hok'⟩ | ⟨fault, hfault, hfault'⟩
      · rw [transpile_of_ok ((emit_of_accepts hrun).trans hok),
          transpile_of_ok ((emit_of_accepts hrun').trans hok')]
        refine congrArg Except.ok (congrArg String.ofList ?_)
        rw [String.toList_ofList, Emitter.assemble_eq, Emitter.assemble_eq, hpar.linesBefore,
          hpar.line, Text.crlf_append, Text.crlf_eq_self hpar.inline, List.append_nil]
      · rw [transpile_of_error ((emit_of_accepts hrun).trans hfault),
          transpile_of_error ((emit_of_accepts hrun').trans hfault'), hlocate]
        rfl

/-- A match over three lines with a comment and a string, and one whose last brace is missing. -/
theorem transpile_crlf_comment :
    transpile {} "a => \x7b -- \\\n\x27b\x27\n\x7d"
        = .ok "__match[a] = MatchScope.new(function (__match) -- \\\n\x27b\x27\nend)"
      ∧ transpile {} "a => \x7b -- \\\r\n\x27b\x27\r\n\x7d"
        = .ok "__match[a] = MatchScope.new(function (__match) -- \\\r\n\x27b\x27\r\nend)"
      ∧ transpile {} "\n a => \x7b\n" = .error (.unbalancedOpen ⟨2, 7⟩)
      ∧ transpile {} "\r\n a => \x7b\r\n" = .error (.unbalancedOpen ⟨2, 7⟩) := by
  have hbody : transpile {} "a => \x7b -- \\\n\x27b\x27\n\x7d"
      = .ok "__match[a] = MatchScope.new(function (__match) -- \\\n\x27b\x27\nend)" := by rfl
  have hopen : transpile {} "\n a => \x7b\n" = .error (.unbalancedOpen ⟨2, 7⟩) := by rfl
  have hbody' : transpile {} (crlfScript "a => \x7b -- \\\n\x27b\x27\n\x7d")
      = (transpile {} "a => \x7b -- \\\n\x27b\x27\n\x7d").map crlfScript :=
    transpile_crlf (by decide) (by decide) fun segment hsegment mark => by
      revert segment
      cases mark <;> decide
  have hopen' : transpile {} (crlfScript "\n a => \x7b\n")
      = (transpile {} "\n a => \x7b\n").map crlfScript :=
    transpile_crlf (by decide) (by decide) fun segment hsegment mark => by
      revert segment
      cases mark <;> decide
  rw [hbody] at hbody'
  rw [hopen] at hopen'
  exact ⟨hbody, hbody', hopen, hopen'⟩

end Keybind
