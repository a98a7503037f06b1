import Keybind.Proofs.Modes
import Keybind.Proofs.Spelling
import Mathlib.Data.List.TakeWhile

/-!
# How far the reader looks ahead

A rule of the grammar may look at more characters than it takes. A square bracket
is text only if no opener of a long bracket starts there, a quotation mark only if
no other one ends the string, and a dash only if no second dash follows. So the
same text may be read differently before another text, and this module says when
it is not.

* Delimiters and strings are read the same whatever follows them (`Takes.fixed`).
* Within a long bracket no rule looks beyond a closer (`rule_stop`).
* In code a character stays what it is if what follows is *tame* (`Tame`): it
  completes nothing that was left open.

The segments of a text are put together from what single rules take; `makes_read`
takes the first one off.
-/

namespace Keybind.Grammar

/-! ## Where a segment leads -/

/-- Where the reader stands after a segment. -/
def State.after : State → SegmentKind → State
  | .lineComment, .lineBreak => .nested 0
  | .nested 0, .lineComment => .lineComment
  | .nested depth, .longOpen _ => .nested (depth + 1)
  | .nested depth, .longClose _ => .nested (depth - 1)
  | state, _ => state

theorem State.after_text (state : State) : state.after .text = state := by
  rcases state with ⟨_ | depth⟩ | _ <;> rfl

theorem dashesRule?_after {depth : Nat} {cs : List Char} {r : Rule}
    (h : dashesRule? depth cs = some r) :
    (r.kind = .lineComment ∨ r.kind = .text) ∧ r.state = (State.nested depth).after r.kind := by
  unfold dashesRule? at h
  split at h
  · cases h
    cases depth with
    | zero => exact ⟨.inl rfl, rfl⟩
    | succ depth => exact ⟨.inr rfl, rfl⟩
  · cases h

theorem plainRule_after (depth : Nat) (c : Char) (cs : List Char) :
    (plainRule depth c cs).kind.IsPlain
      ∧ (plainRule depth c cs).state = (State.nested depth).after (plainRule depth c cs).kind := by
  unfold plainRule
  cases depth <;> split_ifs <;> exact ⟨trivial, rfl⟩

theorem delimiterRule_after (depth : Nat) (comment : Bool) (delimiter : Delimiter) :
    (∃ bracket, (delimiterRule depth comment delimiter).kind = .longOpen bracket
        ∨ (delimiterRule depth comment delimiter).kind = .longClose bracket)
      ∧ (delimiterRule depth comment delimiter).state
        = (State.nested depth).after (delimiterRule depth comment delimiter).kind := by
  obtain ⟨opening, level⟩ := delimiter
  cases opening
  · exact ⟨⟨_, .inr rfl⟩, by cases depth <;> rfl⟩
  · exact ⟨⟨_, .inl rfl⟩, by cases depth <;> rfl⟩

theorem bracketRule?_after {depth : Nat} {cs : List Char} {r : Rule}
    (h : bracketRule? depth cs = some r) :
    (∃ bracket, r.kind = .longOpen bracket ∨ r.kind = .longClose bracket)
      ∧ r.state = (State.nested depth).after r.kind := by
  unfold bracketRule? at h
  split at h
  · obtain ⟨delimiter, -, rfl⟩ := Option.map_eq_some_iff.mp h
    exact delimiterRule_after depth true delimiter
  · obtain ⟨delimiter, -, rfl⟩ := Option.map_eq_some_iff.mp h
    exact delimiterRule_after depth false delimiter

/-- The marks of strings. -/
def IsMark (c : Char) : Prop :=
  c = '"' ∨ c = '\x27'

instance (c : Char) : Decidable (IsMark c) :=
  inferInstanceAs (Decidable (_ ∨ _))

theorem IsMark.ne_newline {c : Char} (h : IsMark c) : c ≠ '\n' := by
  rintro rfl
  exact absurd h (by decide)

theorem IsMark.quote {c : Char} (h : IsMark c) : ∃ t, Quote c t := by
  rcases h with rfl | rfl
  · exact ⟨_, .double⟩
  · exact ⟨_, .single⟩

/-- A string is made of a mark and what its partner closes, in code. -/
theorem quoteRule?_some {depth : Nat} {c : Char} {cs : List Char} {r : Rule}
    (h : quoteRule? depth (c :: cs) = some r) :
    depth = 0 ∧ IsMark c ∧ closing? c cs = some r.extra
      ∧ ∃ mark, r.kind = .quoted mark ∧ r.state = .nested 0 := by
  unfold quoteRule? at h
  dsimp only at h
  split at h
  · rename_i mark extra hmark hclosing
    split at h
    · rename_i hdepth
      subst hdepth
      cases h
      refine ⟨rfl, ?_, hclosing, mark, rfl, rfl⟩
      by_contra hne
      rw [mark?_eq_none (fun hc => hne (.inl hc)) (fun hc => hne (.inr hc))] at hmark
      cases hmark
    · cases h
  · cases h

/-- **The kind of a segment says where the reader stands after it.** -/
theorem rule_state (c : Char) (cs : List Char) (state : State) :
    (rule c cs state).state = state.after (rule c cs state).kind := by
  cases state with
  | lineComment =>
      unfold rule
      dsimp only
      split <;> rfl
  | nested depth =>
      rcases rule_cases c cs depth with h | h | h | h
      · exact (bracketRule?_after h).2
      · exact (dashesRule?_after h).2
      · obtain ⟨rfl, -, -, mark, hkind, hstate⟩ := quoteRule?_some h
        rw [hstate, hkind]
        rfl
      · rw [h]
        exact (plainRule_after depth c cs).2

/-! ## What a rule takes -/

theorem closing?_le {mark : Char} {cs : List Char} {n : Nat} (h : closing? mark cs = some n) :
    n ≤ cs.length := by
  fun_induction closing? mark cs generalizing n with
  | case1 => cases h
  | case2 => cases h
  | case3 d cs ih =>
      obtain ⟨m, hm, rfl⟩ := Option.map_eq_some_iff.mp h
      exact Nat.add_le_add_right (ih hm) 2
  | case4 cs => cases h; exact Nat.succ_le_succ (Nat.zero_le _)
  | case5 => cases h
  | case6 c cs _ _ _ _ ih =>
      obtain ⟨m, hm, rfl⟩ := Option.map_eq_some_iff.mp h
      exact Nat.succ_le_succ (ih hm)

theorem bracket?_le {cs : List Char} {delimiter : Delimiter} (h : bracket? cs = some delimiter) :
    delimiter.level + 2 ≤ cs.length := by
  have hlength := congrArg List.length (take_bracket h)
  rw [List.length_take, List.length_append, List.length_cons, List.length_replicate] at hlength
  rw [List.length_singleton] at hlength
  omega

theorem bracketRule?_le {depth : Nat} {c : Char} {cs : List Char} {r : Rule}
    (h : bracketRule? depth (c :: cs) = some r) : r.extra ≤ cs.length := by
  unfold bracketRule? at h
  split at h
  · rename_i rest heq
    obtain ⟨delimiter, hbracket, rfl⟩ := Option.map_eq_some_iff.mp h
    rw [(List.cons.inj heq).2]
    exact Nat.succ_le_succ (bracket?_le hbracket)
  · obtain ⟨delimiter, hbracket, rfl⟩ := Option.map_eq_some_iff.mp h
    exact Nat.le_of_succ_le_succ (bracket?_le hbracket)

/-- No rule takes more than there is. -/
theorem rule_extra_le (c : Char) (cs : List Char) (state : State) :
    (rule c cs state).extra ≤ cs.length := by
  cases state with
  | lineComment =>
      unfold rule
      dsimp only
      split <;> exact Nat.zero_le _
  | nested depth =>
      rcases rule_cases c cs depth with hb | hd | hq | hplain
      · exact bracketRule?_le hb
      · unfold dashesRule? at hd
        split at hd
        · rename_i rest heq
          rw [← Option.some.inj hd, (List.cons.inj heq).2]
          split <;> exact Nat.succ_le_succ (Nat.zero_le _)
        · cases hd
      · exact closing?_le (quoteRule?_some hq).2.2.1
      · rw [hplain]
        unfold plainRule
        split_ifs with _ _ harrow
        · exact Nat.zero_le _
        · exact (List.takeWhile_prefix _).length_le
        · cases cs with
          | nil => cases harrow.2
          | cons d cs => exact Nat.succ_le_succ (Nat.zero_le _)
        · exact Nat.zero_le _
        · exact Nat.zero_le _
        · exact Nat.zero_le _

/-- A segment of this kind is made of `c` and `tail`, where `ahead` follows. -/
def Takes (state : State) (kind : SegmentKind) (c : Char) (tail ahead : List Char) : Prop :=
  rule c (tail ++ ahead) state = ⟨kind, tail.length, state.after kind⟩

theorem takes_rule (state : State) (c : Char) (cs : List Char) :
    Takes state (rule c cs state).kind c (cs.take (rule c cs state).extra)
      (cs.drop (rule c cs state).extra) := by
  rw [Takes, List.take_append_drop, List.length_take, Nat.min_eq_left (rule_extra_le c cs state),
    ← rule_state]

/-! ## Texts that are read whatever follows them -/

theorem level?_replicate {square : Char} (h : square ≠ '=') (level : Nat) (ahead : List Char) :
    level? square (List.replicate level '=' ++ square :: ahead) = some level := by
  induction level with
  | zero => exact if_pos rfl
  | succ level ih =>
      rw [List.replicate_succ, List.cons_append, level?, if_neg h.symm, if_pos rfl, ih]
      rfl

/-- A delimiter of a long bracket is one whatever follows it. -/
theorem bracket?_take {cs : List Char} {delimiter : Delimiter} (h : bracket? cs = some delimiter)
    (ahead : List Char) : bracket? (cs.take (delimiter.level + 2) ++ ahead) = some delimiter := by
  rw [take_bracket h]
  obtain ⟨opening, level⟩ := delimiter
  cases opening
  · rw [if_neg Bool.false_ne_true, List.append_assoc, List.cons_append, bracket?,
      List.singleton_append, level?_replicate (by decide)]
    rfl
  · rw [if_pos rfl, List.append_assoc, List.cons_append, bracket?,
      List.singleton_append, level?_replicate (by decide)]
    rfl

theorem bracketRule?_take {depth : Nat} {cs : List Char} {r : Rule}
    (h : bracketRule? depth cs = some r) (ahead : List Char) :
    bracketRule? depth (cs.take (r.extra + 1) ++ ahead) = some r := by
  unfold bracketRule? at h
  split at h
  · rename_i rest
    obtain ⟨delimiter, hbracket, rfl⟩ := Option.map_eq_some_iff.mp h
    have htake : ('-' :: '-' :: rest).take ((delimiterRule depth true delimiter).extra + 1)
        = '-' :: '-' :: rest.take (delimiter.level + 2) := rfl
    rw [htake, List.cons_append, List.cons_append, bracketRule?, bracket?_take hbracket]
    rfl
  · rename_i hdash
    obtain ⟨delimiter, hbracket, rfl⟩ := Option.map_eq_some_iff.mp h
    have htake : cs.take ((delimiterRule depth false delimiter).extra + 1)
        = cs.take (delimiter.level + 2) := rfl
    have hsame := bracket?_take hbracket ahead
    rw [htake, bracketRule?, hsame]
    · rfl
    · intro rest heq
      rw [heq] at hsame
      cases hsame

theorem rule_of_bracket {depth : Nat} {c : Char} {cs : List Char} {r : Rule}
    (h : bracketRule? depth (c :: cs) = some r) : rule c cs (.nested depth) = r := by
  rw [rule, h]
  rfl

/-- A string is one whatever follows it. -/
theorem closing?_take {mark : Char} {cs : List Char} {n : Nat} (h : closing? mark cs = some n)
    (ahead : List Char) : closing? mark (cs.take n ++ ahead) = some n := by
  fun_induction closing? mark cs generalizing n with
  | case1 => cases h
  | case2 => cases h
  | case3 d cs ih =>
      obtain ⟨m, hm, rfl⟩ := Option.map_eq_some_iff.mp h
      rw [List.take_succ_cons, List.take_succ_cons, List.cons_append, List.cons_append, closing?,
        ih hm]
      rfl
  | case4 cs hnil hcons =>
      cases h
      exact closing?_mark (char_ne_backslash hnil hcons) ahead
  | case5 => cases h
  | case6 c cs hnil hcons hm hc ih =>
      obtain ⟨m, hm', rfl⟩ := Option.map_eq_some_iff.mp h
      rw [List.take_succ_cons, List.cons_append,
        closing?_plain (char_ne_backslash hnil hcons) hm hc, ih hm']
      rfl

namespace Takes

variable {state : State} {kind : SegmentKind} {c : Char} {tail ahead : List Char}

theorem read_eq (h : Takes state kind c tail ahead) :
    read state (c :: (tail ++ ahead)) = (kind, c :: tail) :: read (state.after kind) ahead := by
  rw [read_cons h, List.take_left, List.drop_left]

/-- Only line breaks and strings take newlines. -/
theorem newline (h : Takes state kind c tail ahead) (hbreak : kind ≠ .lineBreak)
    (hquoted : ∀ mark, kind ≠ .quoted mark) : '\n' ∉ c :: tail := by
  have hmem := newline_not_mem_kind c (tail ++ ahead) state
  rw [h, List.take_left] at hmem
  exact hmem hbreak hquoted

theorem spells (h : Takes state kind c tail ahead) : kind.Spells (c :: tail) := by
  have hspells := spelt_rule c (tail ++ ahead) state
  rwa [h, Rule.Spelt, List.take_succ_cons, List.take_left] at hspells

theorem kind_comment (h : Takes .lineComment kind c tail ahead) :
    kind = .lineBreak ∨ kind = .text := by
  by_cases hc : c = '\n'
  · have hrule : rule c (tail ++ ahead) .lineComment = ⟨.lineBreak, 0, .nested 0⟩ := if_pos hc
    exact .inl (congrArg Rule.kind (h.symm.trans hrule))
  · have hrule : rule c (tail ++ ahead) .lineComment = ⟨.text, 0, .lineComment⟩ := if_neg hc
    exact .inr (congrArg Rule.kind (h.symm.trans hrule))

/-- **Delimiters and strings are read whatever follows them.** -/
theorem fixed {depth : Nat} (h : Takes (.nested depth) kind c tail ahead) (hplain : ¬kind.IsPlain)
    (hcomment : kind ≠ .lineComment) (other : List Char) :
    Takes (.nested depth) kind c tail other := by
  have hcases := rule_cases c (tail ++ ahead) depth
  rw [h] at hcases
  rcases hcases with hb | hd | hq | heq
  · have htake := bracketRule?_take hb other
    rw [List.take_succ_cons, List.take_left] at htake
    exact rule_of_bracket htake
  · rcases (dashesRule?_after hd).1 with hkind | hkind
    · exact absurd hkind hcomment
    · obtain rfl : kind = .text := hkind
      exact absurd trivial hplain
  · obtain ⟨rfl, hmark, hclosing, -⟩ := quoteRule?_some hq
    obtain ⟨t, hquote⟩ := hmark.quote
    have htake := closing?_take hclosing other
    rw [List.take_left] at htake
    rw [Takes, rule_quote hquote, if_pos rfl, hclosing] at h
    rw [Takes, rule_quote hquote, if_pos rfl, htake]
    exact h
  · have hkind := (plainRule_after depth c (tail ++ ahead)).1
    rw [← heq] at hkind
    exact absurd hkind hplain

theorem not_quoted {depth : Nat} {mark : QuoteMark}
    (h : Takes (.nested (depth + 1)) (.quoted mark) c tail ahead) : False := by
  have hcases := rule_cases c (tail ++ ahead) (depth + 1)
  rw [h] at hcases
  rcases hcases with hb | hd | hq | heq
  · obtain ⟨⟨bracket, hkind | hkind⟩, -⟩ := bracketRule?_after hb <;> cases hkind
  · rcases (dashesRule?_after hd).1 with hkind | hkind <;> cases hkind
  · exact absurd (quoteRule?_some hq).1 (Nat.succ_ne_zero depth)
  · have hkind := (plainRule_after (depth + 1) c (tail ++ ahead)).1
    rw [← heq] at hkind
    exact hkind

end Takes

/-! ## Behind a closer, and behind a newline -/

/-- No level is looked for beyond a character other than `=`. -/
theorem level?_stop {square stop : Char} (hstop : stop ≠ '=') {cs : List Char} (h : stop ∈ cs)
    (ahead other : List Char) : level? square (cs ++ ahead) = level? square (cs ++ other) := by
  induction cs with
  | nil => cases h
  | cons c cs ih =>
      rw [List.cons_append, List.cons_append, level?, level?]
      split
      · rfl
      · split
        · rename_i hequals
          rw [ih ((List.mem_cons.mp h).resolve_left (by rw [hequals]; exact hstop))]
        · rfl

theorem bracket?_stop {cs : List Char} (h : 2 ≤ cs.count ']') (ahead other : List Char) :
    bracket? (cs ++ ahead) = bracket? (cs ++ other) := by
  cases cs with
  | nil => cases h
  | cons c cs =>
      have hmem : ']' ∈ cs := by
        rw [List.count_cons] at h
        refine List.count_pos_iff.mp ?_
        split at h <;> omega
      exact bracket?_congr (level?_stop (by decide) hmem ..) (level?_stop (by decide) hmem ..) c

theorem bracket?_newline (cs ahead other : List Char) :
    bracket? (cs ++ '\n' :: ahead) = bracket? (cs ++ '\n' :: other) := by
  cases cs with
  | nil => rfl
  | cons c cs =>
      have hmem : '\n' ∈ cs ++ ['\n'] := List.mem_append_right _ List.mem_cons_self
      have hbracket : bracket? (c :: (cs ++ ['\n'] ++ ahead)) =
          bracket? (c :: (cs ++ ['\n'] ++ other)) :=
        bracket?_congr (level?_stop (by decide) hmem ..) (level?_stop (by decide) hmem ..) c
      rwa [List.append_assoc, List.append_assoc] at hbracket

/-- **Within a long bracket no rule looks beyond a closer.** -/
theorem rule_stop {cs : List Char} (h : 2 ≤ cs.count ']') (c : Char) (depth : Nat)
    (ahead other : List Char) :
    rule c (cs ++ ahead) (.nested (depth + 1)) = rule c (cs ++ other) (.nested (depth + 1)) := by
  have hmem : ']' ∈ cs := List.count_pos_iff.mp (by omega)
  obtain ⟨d, ds, rfl⟩ := List.exists_cons_of_ne_nil (List.ne_nil_of_mem hmem)
  by_cases hdash : c = '-' ∧ d = '-'
  · -- the first `]` may itself be the bracket after the dashes; the second one ends the look
    obtain ⟨rfl, rfl⟩ := hdash
    rw [List.count_cons_of_ne (by decide)] at h
    rw [List.cons_append, List.cons_append, rule_dashes, rule_dashes, bracket?_stop h]
  have hnodash : ∀ es, ¬(c = '-' ∧ (d :: ds ++ es).head? = some '-') :=
    fun es hc => hdash ⟨hc.1, Option.some.inj hc.2⟩
  by_cases hopen : c = '['
  · subst hopen
    rw [rule_square .opening, rule_square .opening, bracket?, bracket?,
      level?_stop (by decide) hmem]
  by_cases hclose : c = ']'
  · subst hclose
    rw [rule_square .closing, rule_square .closing, bracket?, bracket?,
      level?_stop (by decide) hmem]
  by_cases hmark : IsMark c
  · obtain ⟨t, hquote⟩ := hmark.quote
    rw [rule_quote hquote, rule_quote hquote, if_neg (Nat.succ_ne_zero depth),
      if_neg (Nat.succ_ne_zero depth)]
  have hmark? := mark?_eq_none (fun hc => hmark (.inl hc)) (fun hc => hmark (.inr hc))
  -- a run of white space ends before the closer
  have hspaces : ∀ es, (d :: ds ++ es).takeWhile (Token.IsSpace ·)
      = (d :: ds).takeWhile (Token.IsSpace ·) := by
    intro es
    rw [List.takeWhile_append, if_neg]
    intro hall
    have hspace := List.mem_takeWhile_imp
      (((List.takeWhile_prefix (Token.IsSpace ·)).eq_of_length hall).symm ▸ hmem)
    exact absurd (of_decide_eq_true hspace) (by decide)
  rw [rule_plain (hnodash ahead) hopen hclose hmark?,
    rule_plain (hnodash other) hopen hclose hmark?, plainRule, plainRule, hspaces, hspaces]
  rfl

/-! ## What may follow instead -/

/-- A character that is passed over with `ahead` behind it. -/
structure Inert (c : Char) (ahead : List Char) : Prop where
  dash : c = '-' → ahead.head? ≠ some '-'
  square : c = '[' → level? '[' ahead = none
  mark : IsMark c → closing? c ahead = none

/-- **Text of the code is inert**, one character at a time. -/
theorem inert_of_text {c : Char} {cs : List Char} (h : (rule c cs (.nested 0)).kind = .text) :
    Inert c cs ∧ (rule c cs (.nested 0)).extra = 0 := by
  refine ⟨⟨?_, ?_, ?_⟩, ?_⟩
  -- whatever a character could complete would have made a segment of another kind
  · rintro rfl hdash
    cases cs with
    | nil => cases hdash
    | cons d cs =>
        obtain rfl : d = '-' := Option.some.inj hdash
        rw [rule_dashes] at h
        cases hbracket : bracket? cs with
        | none => rw [hbracket] at h; cases h
        | some delimiter =>
            rw [hbracket] at h
            obtain ⟨⟨bracket, hkind | hkind⟩, -⟩ := delimiterRule_after 0 true delimiter
            · cases hkind.symm.trans h
            · cases hkind.symm.trans h
  · rintro rfl
    rw [rule_square .opening, bracket?] at h
    cases hlevel : level? '[' cs with
    | none => rfl
    | some level => rw [hlevel] at h; cases h
  · intro hmark
    obtain ⟨t, hquote⟩ := hmark.quote
    rw [rule_quote hquote, if_pos rfl] at h
    cases hclosing : closing? c cs with
    | none => rfl
    | some n => rw [hclosing] at h; cases h
  · rcases rule_cases c cs 0 with hb | hd | hq | hplain
    · exact absurd h (kind_bracketRule hb)
    · unfold dashesRule? at hd
      split at hd
      · rw [← Option.some.inj hd] at h
        cases h
      · cases hd
    · exact absurd h (kind_quoteRule hq)
    · rw [hplain] at h ⊢
      unfold plainRule at h ⊢
      split_ifs at h ⊢
      rfl

theorem closing?_backslash (mark : Char) (cs : List Char) :
    closing? mark ('\\' :: cs) = (closing? mark cs.tail).map (· + 2) := by
  cases cs <;> rfl

/-- Behind the same text, `new` completes nothing that `old` leaves open: no comment mark, no opener
of a long bracket and no string, not even one in which a backslash hides the first character. -/
structure Tame (old new : List Char) : Prop where
  dash : new.head? = some '-' → old.head? = some '-'
  square : level? '[' old = none → level? '[' new = none
  mark : ∀ mark, IsMark mark → closing? mark old = none → closing? mark new = none
  hidden : ∀ mark, IsMark mark → closing? mark old.tail = none → closing? mark new.tail = none

namespace Tame

variable {old new : List Char}

theorem refl (cs : List Char) : Tame cs cs :=
  ⟨id, id, fun _ _ => id, fun _ _ => id⟩

theorem cons (h : Tame old new) (c : Char) : Tame (c :: old) (c :: new) where
  dash := id
  square hsquare := by
    rw [level?] at hsquare ⊢
    by_cases hopen : c = '['
    · rw [if_pos hopen] at hsquare
      cases hsquare
    rw [if_neg hopen] at hsquare ⊢
    by_cases hequals : c = '='
    · rw [if_pos hequals] at hsquare ⊢
      rw [h.square (Option.map_eq_none_iff.mp hsquare)]
      rfl
    · rw [if_neg hequals]
  mark mark hmark hclosing := by
    by_cases hb : c = '\\'
    · -- the backslash hides the first character of both texts
      subst hb
      rw [closing?_backslash] at hclosing ⊢
      rw [h.hidden mark hmark (Option.map_eq_none_iff.mp hclosing)]
      rfl
    by_cases hm : c = mark
    · subst hm
      rw [closing?_mark hb] at hclosing
      cases hclosing
    by_cases hn : c = '\n'
    · subst hn
      exact closing?_newline hmark.ne_newline new
    · rw [closing?_plain hb hm hn] at hclosing ⊢
      rw [h.mark mark hmark (Option.map_eq_none_iff.mp hclosing)]
      rfl
  hidden := h.mark

theorem append (h : Tame old new) (cs : List Char) : Tame (cs ++ old) (cs ++ new) := by
  induction cs with
  | nil => exact h
  | cons c cs ih => exact ih.cons c

/-- An inert character stays inert. -/
theorem inert (h : Tame old new) {c : Char} (hc : Inert c old) : Inert c new where
  dash heq hdash := hc.dash heq (h.dash hdash)
  square heq := h.square (hc.square heq)
  mark hmark := h.mark c hmark (hc.mark hmark)

end Tame

theorem tame_newline {ahead other : List Char}
    (h : ∀ mark, IsMark mark → closing? mark ahead = none → closing? mark other = none) :
    Tame ('\n' :: ahead) ('\n' :: other) where
  dash := id
  square _ := rfl
  mark _ hmark _ := closing?_newline hmark.ne_newline other
  hidden := h

/-- The characters that a string runs over. -/
def IsPlain (c : Char) : Prop :=
  c ≠ '"' ∧ c ≠ '\x27' ∧ c ≠ '\\' ∧ c ≠ '\n'

instance (c : Char) : Decidable (IsPlain c) :=
  inferInstanceAs (Decidable (_ ∧ _))

theorem closing?_plains {l : List Char} (h : ∀ c ∈ l, IsPlain c) {mark : Char} (hmark : IsMark mark)
    (cs : List Char) : closing? mark (l ++ cs) = none ↔ closing? mark cs = none := by
  induction l with
  | nil => exact Iff.rfl
  | cons c l ih =>
      obtain ⟨⟨hdouble, hsingle, hb, hn⟩, hl⟩ := List.forall_mem_cons.mp h
      have hm : c ≠ mark := by
        rintro rfl
        exact hmark.elim hdouble hsingle
      rw [List.cons_append, closing?_plain hb hm hn, Option.map_eq_none_iff, ih hl]

/-- **Plain text may be put in place of plain text**, if it starts with no character that completes
something. -/
theorem Tame.plain {old new : List Char} (h : Tame old new) {y : Char} {l t : List Char}
    (hne : l ≠ []) (hl : ∀ c ∈ l, IsPlain c) (ht : ∀ c ∈ y :: t, IsPlain c) (hdash : y ≠ '-')
    (hopen : y ≠ '[') (hequals : y ≠ '=') : Tame (l ++ old) (y :: t ++ new) where
  dash heq := absurd (Option.some.inj heq) hdash
  square _ := by rw [List.cons_append, level?, if_neg hopen, if_neg hequals]
  mark mark hmark hold :=
    (closing?_plains ht hmark new).mpr (h.mark mark hmark ((closing?_plains hl hmark old).mp hold))
  hidden mark hmark hold := by
    have hl' : ∀ c ∈ l.tail, IsPlain c := fun c hc => hl c (List.mem_of_mem_tail hc)
    have ht' := (List.forall_mem_cons.mp ht).2
    rw [List.tail_append_of_ne_nil hne] at hold
    exact (closing?_plains ht' hmark new).mpr
      (h.mark mark hmark ((closing?_plains hl' hmark old).mp hold))

/-! ## Segments and rules -/

/-- A segment is made by one rule, or is text put together, where `ahead` follows. -/
inductive Makes : State → SegmentKind → List Char → List Char → Prop where
  | one {state : State} {kind : SegmentKind} {c : Char} {tail ahead : List Char} :
      Takes state kind c tail ahead → Makes state kind (c :: tail) ahead
  | text {state : State} {c : Char} {tail more ahead : List Char} :
      Takes state .text c tail (more ++ ahead) → Makes state .text more ahead →
      Makes state .text (c :: tail ++ more) ahead

theorem flatMap_attach (item : SegmentKind × List Char) (items : List (SegmentKind × List Char)) :
    (attach item items).flatMap Prod.snd = item.2 ++ items.flatMap Prod.snd := by
  cases items with
  | nil => rw [attach_nil]; rfl
  | cons next rest =>
      rw [attach_cons]
      split
      · rw [List.flatMap_cons, List.flatMap_cons, List.append_assoc]
      · rfl

theorem flatMap_read (cs : List Char) :
    ∀ state, ((read state cs).foldr attach []).flatMap Prod.snd = cs := by
  induction cs using dropInduction with
  | nil => intro state; rw [read.eq_1]; rfl
  | cons c cs ih =>
      intro state
      rw [read_cons rfl, List.foldr_cons, flatMap_attach, ih, List.cons_append,
        List.take_append_drop]

/-- **The first segment of a text**, and what is read after it. -/
theorem makes_read {cs : List Char} : ∀ {state : State} {kind : SegmentKind} {text : List Char}
    {items : List (SegmentKind × List Char)},
    (read state cs).foldr attach [] = (kind, text) :: items →
      Makes state kind text (items.flatMap Prod.snd)
        ∧ items = (read (state.after kind) (items.flatMap Prod.snd)).foldr attach [] := by
  induction cs using dropInduction with
  | nil => intro state kind text items h; rw [read.eq_1] at h; cases h
  | cons c cs ih =>
      intro state kind text items h
      have htakes := takes_rule state c cs
      rw [read_cons rfl, List.foldr_cons, rule_state] at h
      cases hrest : (read (state.after (rule c cs state).kind)
          (cs.drop (rule c cs state).extra)).foldr attach [] with
      | nil =>
          have hdrop := flatMap_read (cs.drop (rule c cs state).extra)
            (state.after (rule c cs state).kind)
          rw [hrest] at hdrop h
          rw [attach_nil] at h
          cases h
          rw [← hdrop] at htakes
          exact ⟨.one htakes, by rw [List.flatMap_nil, read.eq_1]; rfl⟩
      | cons next rest =>
          have hdrop := flatMap_read (cs.drop (rule c cs state).extra)
            (state.after (rule c cs state).kind)
          rw [hrest] at hdrop h
          rw [attach_cons] at h
          split at h
          · -- text before text: the first segment goes on, and `ih` says how
            rename_i htext
            obtain ⟨nextKind, more⟩ := next
            obtain ⟨hkind, rfl⟩ : (rule c cs state).kind = .text ∧ nextKind = .text := htext
            cases h
            obtain ⟨hmakes, hitems⟩ := ih _ hrest
            simp only [hkind, State.after_text] at hmakes hitems ⊢
            rw [hkind, ← hdrop, List.flatMap_cons] at htakes
            exact ⟨.text htakes hmakes, hitems⟩
          · cases h
            rw [← hdrop] at htakes
            refine ⟨.one htakes, ?_⟩
            rw [hdrop, hrest]

namespace Makes

variable {state : State} {kind : SegmentKind} {text ahead : List Char}

theorem newline (h : Makes state kind text ahead) (hbreak : kind ≠ .lineBreak)
    (hquoted : ∀ mark, kind ≠ .quoted mark) : '\n' ∉ text := by
  induction h with
  | one htakes => exact htakes.newline hbreak hquoted
  | text htakes _ ih =>
      exact List.not_mem_append (htakes.newline hbreak hquoted) (ih hbreak hquoted)

theorem spells (h : Makes state kind text ahead) : kind.Spells text := by
  cases h with
  | one htakes => exact htakes.spells
  | text => exact List.cons_ne_nil _ _

/-- Any other segment than text is made by one rule. -/
theorem takes (h : Makes state kind text ahead) (hkind : kind ≠ .text) :
    ∃ c tail, text = c :: tail ∧ Takes state kind c tail ahead := by
  cases h with
  | one htakes => exact ⟨_, _, rfl, htakes⟩
  | text => exact absurd rfl hkind

/-- Strings are met in code only. -/
theorem not_quoted {mark : QuoteMark}
    (h : Makes state (.quoted mark) text ahead) : state = .nested 0 := by
  obtain ⟨c, tail, rfl, htakes⟩ := h.takes SegmentKind.noConfusion
  rcases state with ⟨_ | depth⟩ | _
  · rfl
  · exact htakes.not_quoted.elim
  · rcases htakes.kind_comment with hkind | hkind <;> cases hkind

end Makes

end Keybind.Grammar
