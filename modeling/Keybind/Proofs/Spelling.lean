import Keybind.Proofs.Grammar

/-!
# What a segment says

The kind of a segment and its text belong together: a line break is a newline, a
brace is a brace, and a delimiter of a long bracket is written as its level and
its comment mark say. `spells_lex` states this for every segment of a source. The
rules of the grammar are looked at one by one, and text put together is still
text.
-/

namespace Keybind

/-- The texts that a kind of segment can have. -/
def SegmentKind.Spells : SegmentKind → List Char → Prop
  | .lineBreak, cs => cs = ['\n']
  | .whitespace, cs => cs ≠ [] ∧ ∀ c ∈ cs, Token.IsSpace c
  | .text, cs => cs ≠ []
  | .arrow, cs => cs = ['=', '>']
  | .openBrace, cs => cs = ['{']
  | .closeBrace, cs => cs = ['}']
  | .lineComment, cs => cs = ['-', '-']
  | .longOpen bracket, cs => cs = bracket.opener.toList
  | .longClose bracket, cs => cs = bracket.closer.toList
  | .quoted mark, cs => ∃ body, cs = mark.char :: body ++ [mark.char]

namespace Grammar

/-! ## The rules one by one -/

/-- A rule that takes its text from `cs` spells its kind. -/
def Rule.Spelt (cs : List Char) (rule : Rule) : Prop :=
  rule.kind.Spells (cs.take (rule.extra + 1))

theorem take_level {square : Char} {cs : List Char} {level : Nat}
    (h : level? square cs = some level) :
    cs.take (level + 1) = List.replicate level '=' ++ [square] := by
  induction cs generalizing level with
  | nil => cases h
  | cons c cs ih =>
      rw [level?] at h
      split at h
      · rename_i hc
        cases h
        rw [hc]
        rfl
      · split at h
        · rename_i hc
          obtain ⟨level, hl, rfl⟩ := Option.map_eq_some_iff.mp h
          rw [List.take_succ_cons, ih hl, hc]
          rfl
        · cases h

theorem take_bracket {cs : List Char} {delimiter : Delimiter}
    (h : bracket? cs = some delimiter) :
    cs.take (delimiter.level + 2)
      = (if delimiter.opening then '[' else ']') :: List.replicate delimiter.level '='
        ++ [if delimiter.opening then '[' else ']'] := by
  unfold bracket? at h
  split at h
  · obtain ⟨level, hl, rfl⟩ := Option.map_eq_some_iff.mp h
    rw [List.take_succ_cons, take_level hl]
    rfl
  · obtain ⟨level, hl, rfl⟩ := Option.map_eq_some_iff.mp h
    rw [List.take_succ_cons, take_level hl]
    rfl
  · cases h

theorem spelt_delimiter {cs : List Char} {delimiter : Delimiter} (depth : Nat)
    (h : bracket? cs = some delimiter) :
    (delimiterRule depth false delimiter).Spelt cs
      ∧ (delimiterRule depth true delimiter).Spelt ('-' :: '-' :: cs) := by
  have htake := take_bracket h
  unfold Rule.Spelt delimiterRule
  dsimp only
  cases ho : delimiter.opening with
  | true =>
      rw [ho] at htake
      refine ⟨?_, ?_⟩
      · simpa [SegmentKind.Spells, LongBracket.opener, LongBracket.spell] using htake
      · simpa [SegmentKind.Spells, LongBracket.opener, LongBracket.spell] using htake
  | false =>
      rw [ho] at htake
      refine ⟨?_, ?_⟩
      · simpa [SegmentKind.Spells, LongBracket.closer, LongBracket.spell] using htake
      · simpa [SegmentKind.Spells, LongBracket.closer, LongBracket.spell] using htake

theorem spelt_bracketRule {depth : Nat} {cs : List Char} {r : Rule}
    (h : bracketRule? depth cs = some r) : r.Spelt cs := by
  unfold bracketRule? at h
  split at h
  · obtain ⟨delimiter, hb, rfl⟩ := Option.map_eq_some_iff.mp h
    exact (spelt_delimiter depth hb).2
  · obtain ⟨delimiter, hb, rfl⟩ := Option.map_eq_some_iff.mp h
    exact (spelt_delimiter depth hb).1

theorem spelt_dashesRule {depth : Nat} {cs : List Char} {r : Rule}
    (h : dashesRule? depth cs = some r) : r.Spelt cs := by
  unfold dashesRule? at h
  split at h
  · cases h
    split
    · rfl
    · exact List.cons_ne_nil _ _
  · cases h

/-- A string ends with its mark. -/
theorem take_closing {mark : Char} {cs : List Char} {n : Nat} (h : closing? mark cs = some n) :
    ∃ body, cs.take n = body ++ [mark] := by
  fun_induction closing? mark cs generalizing n with
  | case1 => cases h
  | case2 => cases h
  | case3 c cs ih =>
      obtain ⟨k, hk, rfl⟩ := Option.map_eq_some_iff.mp h
      obtain ⟨body, hbody⟩ := ih hk
      exact ⟨'\\' :: c :: body, by rw [List.take_succ_cons, List.take_succ_cons, hbody]; rfl⟩
  | case4 cs =>
      cases h
      exact ⟨[], rfl⟩
  | case5 => cases h
  | case6 c cs _ _ _ _ ih =>
      obtain ⟨k, hk, rfl⟩ := Option.map_eq_some_iff.mp h
      obtain ⟨body, hbody⟩ := ih hk
      exact ⟨c :: body, by rw [List.take_succ_cons, hbody]; rfl⟩

theorem spelt_quoteRule {depth : Nat} {cs : List Char} {r : Rule}
    (h : quoteRule? depth cs = some r) : r.Spelt cs := by
  unfold quoteRule? at h
  split at h
  · cases h
  · rename_i c cs
    split at h
    · rename_i mark extra hmark hclosing
      split at h
      · cases h
        obtain ⟨body, hbody⟩ := take_closing hclosing
        have hchar : c = mark.char := by
          unfold mark? at hmark
          split at hmark <;> cases hmark <;> rfl
        refine ⟨body, ?_⟩
        rw [List.take_succ_cons, hbody, hchar]
        rfl
      · cases h
    · cases h

theorem spelt_plainRule (depth : Nat) (c : Char) (cs : List Char) :
    (plainRule depth c cs).Spelt (c :: cs) := by
  unfold plainRule
  split
  · rename_i hn
    subst hn
    rfl
  · split
    · rename_i hspace
      have htake : cs.take (cs.takeWhile (Token.IsSpace ·)).length
          = cs.takeWhile (Token.IsSpace ·) :=
        (List.prefix_iff_eq_take.mp (List.takeWhile_prefix _)).symm
      refine ⟨List.cons_ne_nil _ _, fun d hd => ?_⟩
      rw [List.take_succ_cons, htake] at hd
      rcases List.mem_cons.mp hd with rfl | hd
      · exact hspace
      · exact of_decide_eq_true (List.all_eq_true.mp List.all_takeWhile d hd)
    · split
      · rename_i harrow
        obtain ⟨rfl, hgt⟩ := harrow
        obtain ⟨cs, rfl⟩ := List.head?_eq_some_iff.mp hgt
        rfl
      · split
        · rename_i ho; subst ho; rfl
        · split
          · rename_i hc; subst hc; rfl
          · exact List.cons_ne_nil _ _

/-- **Every rule spells its kind.** -/
theorem spelt_rule (c : Char) (cs : List Char) (state : State) :
    (rule c cs state).Spelt (c :: cs) := by
  cases state with
  | lineComment =>
      rw [rule]
      split
      · rename_i hn; subst hn; rfl
      · exact List.cons_ne_nil _ _
  | nested depth =>
      rcases rule_cases c cs depth with hb | hd | hq | hplain
      · exact spelt_bracketRule hb
      · exact spelt_dashesRule hd
      · exact spelt_quoteRule hq
      · rw [hplain]
        exact spelt_plainRule depth c cs

/-! ## All segments -/

section Forall

variable {P : SegmentKind → List Char → Prop}

theorem forall_read (hrule : ∀ c cs state,
      P (rule c cs state).kind (c :: cs.take (rule c cs state).extra)) (cs : List Char) :
    ∀ state, ∀ item ∈ read state cs, P item.1 item.2 := by
  induction cs using dropInduction with
  | nil => intro state item hitem; rw [read] at hitem; cases hitem
  | cons c cs ih =>
      intro state item hitem
      rw [read_cons rfl] at hitem
      rcases List.mem_cons.mp hitem with rfl | hitem
      · exact hrule c cs state
      · exact ih _ _ item hitem

theorem forall_attach (htext : ∀ xs ys, P .text xs → P .text ys → P .text (xs ++ ys))
    {item : SegmentKind × List Char} {items : List (SegmentKind × List Char)}
    (hitem : P item.1 item.2) (hitems : ∀ x ∈ items, P x.1 x.2) :
    ∀ x ∈ attach item items, P x.1 x.2 := by
  intro x hx
  unfold attach at hx
  split at hx
  · rename_i text next rest
    rcases List.mem_cons.mp hx with rfl | hx
    · exact htext text next hitem (hitems (.text, next) List.mem_cons_self)
    · exact hitems x (List.mem_cons_of_mem _ hx)
  · rcases List.mem_cons.mp hx with rfl | hx
    · exact hitem
    · exact hitems x hx

/-- **What every rule ensures holds of every segment**, if it lasts when text is put together. -/
theorem forall_segments (hrule : ∀ c cs state,
      P (rule c cs state).kind (c :: cs.take (rule c cs state).extra))
    (htext : ∀ xs ys, P .text xs → P .text ys → P .text (xs ++ ys)) (cs : List Char) :
    ∀ item ∈ segments cs, P item.1 item.2 := by
  have hall : ∀ items : List (SegmentKind × List Char), (∀ x ∈ items, P x.1 x.2) →
      ∀ x ∈ items.foldr attach [], P x.1 x.2 := by
    intro items
    induction items with
    | nil => intro h; exact h
    | cons item items ih =>
        intro h
        exact forall_attach htext (h item List.mem_cons_self)
          (ih fun x hx => h x (List.mem_cons_of_mem item hx))
  exact hall _ (forall_read hrule cs _)

theorem forall_lex (hrule : ∀ c cs state,
      P (rule c cs state).kind (c :: cs.take (rule c cs state).extra))
    (htext : ∀ xs ys, P .text xs → P .text ys → P .text (xs ++ ys)) {cs : List Char}
    {segment : Segment} (h : segment ∈ lex cs) : P segment.kind segment.text := by
  have hbare : segment.bare ∈ segments cs := by
    rw [← bareSegments_eq, ← bare_lex]
    exact List.mem_map_of_mem h
  exact forall_segments hrule htext cs segment.bare hbare

end Forall

/-! ## Newlines -/

theorem newline_not_mem_dashesRule {depth : Nat} {c : Char} {cs : List Char} {r : Rule}
    (h : dashesRule? depth (c :: cs) = some r) : '\n' ∉ c :: cs.take r.extra := by
  unfold dashesRule? at h
  split at h
  · rename_i heq
    obtain ⟨rfl, rfl⟩ := List.cons.inj heq
    cases h
    split <;> simp
  · cases h

/-- One character of text is no newline. -/
theorem newline_not_mem_plainRule {depth : Nat} {c : Char} {cs : List Char}
    (h : (plainRule depth c cs).kind = .text) :
    '\n' ∉ c :: cs.take (plainRule depth c cs).extra := by
  unfold plainRule at h ⊢
  repeat' (split at h; · cases h)
  rename_i hn hspace harrow hopen hclose
  rw [if_neg hn, if_neg hspace, if_neg harrow, if_neg hopen, if_neg hclose]
  simpa using Ne.symm hn

theorem kind_bracketRule {depth : Nat} {cs : List Char} {r : Rule}
    (h : bracketRule? depth cs = some r) : r.kind ≠ .text := by
  have hdelimiter : ∀ comment delimiter, (delimiterRule depth comment delimiter).kind ≠ .text := by
    intro comment delimiter
    unfold delimiterRule
    dsimp only
    split <;> exact nofun
  unfold bracketRule? at h
  split at h
  · obtain ⟨delimiter, -, rfl⟩ := Option.map_eq_some_iff.mp h
    exact hdelimiter true delimiter
  · obtain ⟨delimiter, -, rfl⟩ := Option.map_eq_some_iff.mp h
    exact hdelimiter false delimiter

theorem kind_quoteRule {depth : Nat} {cs : List Char} {r : Rule}
    (h : quoteRule? depth cs = some r) : r.kind ≠ .text := by
  unfold quoteRule? at h
  split at h
  · cases h
  · split at h
    · split at h
      · cases h
        intro hk
        cases hk
      · cases h
    · cases h

/-- A rule that makes text takes no newline. -/
theorem newline_not_mem_rule (c : Char) (cs : List Char) (state : State)
    (h : (rule c cs state).kind = .text) : '\n' ∉ c :: cs.take (rule c cs state).extra := by
  cases state with
  | lineComment =>
      rw [rule] at h ⊢
      split at h
      · cases h
      · rename_i hn
        rw [if_neg hn]
        simpa using Ne.symm hn
  | nested depth =>
      rcases rule_cases c cs depth with hb | hd | hq | hplain
      · exact absurd h (kind_bracketRule hb)
      · exact newline_not_mem_dashesRule hd
      · exact absurd h (kind_quoteRule hq)
      · rw [hplain] at h ⊢
        exact newline_not_mem_plainRule h

/-- **Only line breaks and strings take newlines.** -/
theorem newline_not_mem_kind (c : Char) (cs : List Char) (state : State)
    (hbreak : (rule c cs state).kind ≠ .lineBreak)
    (hquoted : ∀ mark, (rule c cs state).kind ≠ .quoted mark) :
    '\n' ∉ c :: cs.take (rule c cs state).extra := by
  have hspells : (rule c cs state).kind.Spells (c :: cs.take (rule c cs state).extra) :=
    spelt_rule c cs state
  have hbracket : ∀ (bracket : LongBracket) (square : Char), square ≠ '\n' →
      '\n' ∉ (bracket.spell square).toList := by
    intro bracket square hsquare
    rw [LongBracket.spell, String.toList_ofList]
    cases bracket.comment <;> simp [hsquare.symm]
  cases hkind : (rule c cs state).kind with
  | lineBreak => exact absurd hkind hbreak
  | quoted mark => exact absurd hkind (hquoted mark)
  | text => exact newline_not_mem_rule c cs state hkind
  | whitespace =>
      rw [hkind] at hspells
      exact fun hmem => absurd (hspells.2 _ hmem) (by decide)
  | longOpen bracket =>
      rw [hkind] at hspells
      rw [hspells]
      exact hbracket bracket '[' (by decide)
  | longClose bracket =>
      rw [hkind] at hspells
      rw [hspells]
      exact hbracket bracket ']' (by decide)
  | _ =>
      rw [hkind] at hspells
      rw [hspells]
      decide

end Grammar

/-- **Every segment of a source spells its kind.** -/
theorem spells_lex {cs : List Char} {segment : Segment} (h : segment ∈ lex cs) :
    segment.kind.Spells segment.text :=
  Grammar.forall_lex (P := SegmentKind.Spells) Grammar.spelt_rule
    (fun _ _ hxs _ hnil => hxs (List.append_eq_nil_iff.mp hnil).1) h

/-- **Newlines stand in line breaks and in strings only.** -/
theorem newline_not_mem_lex {cs : List Char} {segment : Segment} (h : segment ∈ lex cs)
    (hbreak : segment.kind ≠ .lineBreak) (hquoted : ∀ mark, segment.kind ≠ .quoted mark) :
    '\n' ∉ segment.text := by
  refine Grammar.forall_lex (P := fun kind text => kind ≠ .lineBreak →
    (∀ mark, kind ≠ .quoted mark) → '\n' ∉ text) Grammar.newline_not_mem_kind ?_ h hbreak hquoted
  intro xs ys hxs hys hb hq hmem
  exact (List.mem_append.mp hmem).elim (hxs hb hq) (hys hb hq)

end Keybind
