import Keybind.Proofs.Grammar
import Keybind.Proofs.Modes

/-!
# Lexing at a seam

Where two texts are put together the segments are those of the first and those
of the second, if nothing reaches over the seam:

* no token goes on there (`Token.split_append`);
* the delimiters of long brackets and the strings that the scanner looks ahead
  for end before it (`Sealed`);
* the first segment after it is not text, which would be put together with the
  text before it (`Group.merge_append`).

What does go on is the mode, in which the second text is entered (`lex_append`).

A newline is such a seam, unless the first text ends with a backslash, which may
hide it from a string. In a long bracket the second text is read as part of it; in
code, and in a line comment, which the newline ends, it is read as if it stood
alone (`lex_newline`).
-/

namespace Keybind

variable {α : Type}

/-! ## Tokens -/

namespace Token

/-- No token goes on at a newline. -/
theorem extend?_newline (t : Token) : t.extend? '\n' = none := by
  cases t <;> rfl

theorem splitFrom_ne_nil (t : Token) (read cs : List Char) : splitFrom t read cs ≠ [] := by
  fun_induction splitFrom t read cs with
  | case1 => exact List.cons_ne_nil _ _
  | case2 _ _ _ _ _ _ ih => exact ih
  | case3 => exact List.cons_ne_nil _ _

theorem splitFrom_append (t : Token) (read a : List Char) {c : Char}
    (h : ∀ x ∈ (splitFrom t read a).getLast?, x.1.extend? c = none) (b : List Char) :
    splitFrom t read (a ++ c :: b) = splitFrom t read a ++ split (c :: b) := by
  induction a generalizing t read with
  | nil =>
      have hstop : t.extend? c = none := h (t, read.reverse) rfl
      rw [List.nil_append, splitFrom.eq_2, hstop, splitFrom.eq_1]
      rfl
  | cons d a ih =>
      rw [List.cons_append, splitFrom, splitFrom]
      rw [splitFrom] at h
      cases hext : t.extend? d with
      | some t' =>
          rw [hext] at h
          exact ih t' (d :: read) h
      | none =>
          rw [hext] at h
          dsimp only at h
          rw [List.getLast?_cons_of_ne_nil (splitFrom_ne_nil _ _ _)] at h
          exact congrArg _ (ih (start d) [d] h)

/-- **Texts are split apart** where no token goes on. -/
theorem split_append {a : List Char} {c : Char}
    (h : ∀ x ∈ (split a).getLast?, x.1.extend? c = none) (b : List Char) :
    split (a ++ c :: b) = split a ++ split (c :: b) := by
  cases a with
  | nil => rfl
  | cons d a => exact splitFrom_append (start d) [d] a h b

/-- A newline is a token of its own. -/
theorem split_newline (a b : List Char) :
    split (a ++ '\n' :: b) = split a ++ split ('\n' :: b)
      ∧ split ('\n' :: b) = (.newline, ['\n']) :: split b :=
  ⟨split_append (fun x _ => extend?_newline x.1) b, split_fixed (c := '\n') (fun _ => rfl) b⟩

/-- A backslash is a token of its own. -/
theorem text_backslash_splitFrom (t : Token) {read : List Char} (cs : List Char)
    (hread : t = .backslash → read = ['\\']) :
    ∀ x ∈ splitFrom t read cs, x.1 = .backslash → x.2 = ['\\'] := by
  fun_induction splitFrom t read cs with
  | case1 t read =>
      intro x hx hkind
      cases List.mem_singleton.mp hx
      rw [hread hkind]
      rfl
  | case2 t read c cs t' hext ih =>
      refine ih fun ht => ?_
      subst ht
      cases t <;> simp [extend?] at hext
  | case3 t read c cs _ ih =>
      intro x hx hkind
      rcases List.mem_cons.mp hx with rfl | hx
      · rw [hread hkind]
        rfl
      · exact ih (fun hc => by rw [starts_of_start hc]) x hx hkind

/-- The last token is a backslash only if the last character is. -/
theorem getLast?_split {a : List Char} (h : a.getLast? ≠ some '\\') :
    ((split a).map Prod.fst).getLast? ≠ some .backslash := by
  rw [List.getLast?_map]
  intro hlast
  obtain ⟨x, hx, hkind⟩ := Option.map_eq_some_iff.mp hlast
  obtain ⟨front, hfront⟩ := List.getLast?_eq_some_iff.mp hx
  have htext : x.2 = ['\\'] := by
    have hmem : x ∈ split a := List.mem_of_getLast? hx
    cases a with
    | nil => cases hmem
    | cons c cs =>
        exact text_backslash_splitFrom (start c) cs (fun hc => by rw [starts_of_start hc]) x hmem
          hkind
  apply h
  rw [← text_split a, hfront, List.flatMap_append, List.flatMap_singleton, htext,
    List.getLast?_append]
  rfl

end Token

/-! ## How far the scanner looks ahead -/

theorem level?_lt {square : Token} {ts : List Token} {level : Nat}
    (h : Delimiter.level? square ts = some level) : level < ts.length := by
  induction ts generalizing level with
  | nil => cases h
  | cons t ts ih =>
      rw [Grammar.level?_tokens_cons] at h
      rw [List.length_cons]
      split at h
      · obtain ⟨rest, hrest, rfl⟩ := Option.map_eq_some_iff.mp h
        exact Nat.succ_lt_succ (ih hrest)
      · split at h
        · cases h
          exact Nat.succ_pos _
        · cases h

theorem extra_lt {ts : List Token} {delimiter : Delimiter}
    (h : Delimiter.at? ts = some delimiter) : delimiter.extra < ts.length := by
  unfold Delimiter.at? at h
  split at h
  · obtain ⟨level, hlevel, rfl⟩ := Option.map_eq_some_iff.mp h
    exact Nat.succ_lt_succ (level?_lt hlevel)
  · obtain ⟨level, hlevel, rfl⟩ := Option.map_eq_some_iff.mp h
    exact Nat.succ_lt_succ (level?_lt hlevel)
  · cases h

theorem closingQuote?_le {mark : Token} {ts : List Token} {count : Nat}
    (h : closingQuote? mark ts = some count) : count ≤ ts.length := by
  fun_induction closingQuote? mark ts generalizing count with
  | case1 => cases h
  | case2 => cases h
  | case3 t ts ih =>
      obtain ⟨rest, hrest, rfl⟩ := Option.map_eq_some_iff.mp h
      exact Nat.add_le_add_right (ih hrest) 2
  | case4 =>
      cases h
      exact Nat.succ_pos _
  | case5 => cases h
  | case6 t ts _ _ _ _ ih =>
      obtain ⟨rest, hrest, rfl⟩ := Option.map_eq_some_iff.mp h
      exact Nat.add_le_add_right (ih hrest) 1

/-- A segment takes no more tokens than there are. -/
theorem Head.extra_le (mode : Mode) (t : Token) (ts : List Token) :
    (Head.of mode t ts).extra ≤ ts.length := by
  have hdashes : (ofDashes mode ts).extra ≤ ts.length := by
    unfold ofDashes
    split
    · rename_i delimiter hat
      exact extra_lt hat
    · split <;> exact Nat.zero_le _
  have hsquare : ∀ square, (ofSquare mode square ts).extra ≤ ts.length := by
    intro square
    unfold ofSquare
    split
    · rename_i delimiter hat
      exact Nat.le_of_lt_succ (extra_lt hat)
    · exact Nat.zero_le _
  have hquote : ∀ token mark, (ofQuote mode token mark ts).extra ≤ ts.length := by
    intro token mark
    unfold ofQuote
    split
    · rename_i extra hclosing
      split at hclosing
      · exact closingQuote?_le hclosing
      · cases hclosing
    · exact Nat.zero_le _
  unfold Head.of
  split
  · split <;> exact Nat.zero_le _
  · cases t with
    | doubleDash => exact hdashes
    | openBracket => exact hsquare .openBracket
    | closeBracket => exact hsquare .closeBracket
    | doubleQuote => exact hquote .doubleQuote .double
    | singleQuote => exact hquote .singleQuote .single
    | _ => exact Nat.zero_le _

/-! ## Looking ahead over a seam -/

/-- The tokens that no delimiter of a long bracket goes on with. -/
def Token.Stops (t : Token) : Prop :=
  t ≠ .equals ∧ t ≠ .openBracket ∧ t ≠ .closeBracket

instance (t : Token) : Decidable t.Stops :=
  inferInstanceAs (Decidable (_ ∧ _))

theorem level?_stop {square stop : Token} (hequals : stop ≠ .equals) (hsquare : stop ≠ square)
    (ts us : List Token) :
    Delimiter.level? square (ts ++ stop :: us) = Delimiter.level? square ts := by
  induction ts with
  | nil =>
      rw [List.nil_append, Grammar.level?_tokens_cons, if_neg hequals, if_neg hsquare]
      rfl
  | cons t ts ih =>
      rw [List.cons_append, Grammar.level?_tokens_cons, Grammar.level?_tokens_cons, ih]

/-- No delimiter reaches over such a token. -/
theorem at?_stop {stop : Token} (h : stop.Stops) (ts us : List Token) :
    Delimiter.at? (ts ++ stop :: us) = Delimiter.at? ts := by
  obtain ⟨hequals, hopen, hclose⟩ := h
  cases ts with
  | nil => exact Grammar.at?_eq_none hopen hclose us
  | cons t ts =>
      rw [List.cons_append]
      cases t with
      | openBracket =>
          rw [Delimiter.at?, Delimiter.at?, level?_stop hequals hopen]
      | closeBracket =>
          rw [Delimiter.at?, Delimiter.at?, level?_stop hequals hclose]
      | _ => rfl

/-- What is left of a list ends as the list does. -/
theorem getLast?_drop_ne {xs : List α} {x : α} (h : xs.getLast? ≠ some x) (n : Nat) :
    (xs.drop n).getLast? ≠ some x := by
  rw [List.getLast?_drop]
  split
  · exact fun hnone => nomatch hnone
  · exact h

/-- A token that is not part of a pair is no backslash. -/
theorem ne_backslash {t : Token} {ts : List Token} (hnil : t = .backslash → ts = [] → False)
    (hcons : ∀ next rest, t = .backslash → ts = next :: rest → False) : t ≠ .backslash := by
  intro ht
  cases ts with
  | nil => exact hnil ht rfl
  | cons next rest => exact hcons next rest ht rfl

/-- No string reaches over a newline that no backslash hides. -/
theorem closingQuote?_newline {mark : Token} (hmark : mark ≠ .newline) {ts : List Token}
    (h : ts.getLast? ≠ some .backslash) (us : List Token) :
    closingQuote? mark (ts ++ .newline :: us) = closingQuote? mark ts := by
  fun_induction closingQuote? mark ts with
  | case1 =>
      rw [List.nil_append, Grammar.closingQuote?_cons (by decide), if_neg hmark.symm, if_pos rfl]
  | case2 => exact absurd rfl h
  | case3 t ts ih =>
      rw [List.cons_append, List.cons_append, closingQuote?, ih (getLast?_drop_ne h 2)]
  | case4 ts hnil hcons =>
      rw [List.cons_append, Grammar.closingQuote?_cons (ne_backslash hnil hcons), if_pos rfl]
  | case5 ts hnil hcons hne =>
      rw [List.cons_append, Grammar.closingQuote?_cons (by decide), if_neg hne, if_pos rfl]
  | case6 t ts hnil hcons hne hnewline ih =>
      rw [List.cons_append, Grammar.closingQuote?_cons (ne_backslash hnil hcons), if_neg hne,
        if_neg hnewline, ih (getLast?_drop_ne h 1)]

theorem closingQuote?_eq_none {mark : Token} {ts : List Token} (h : mark ∉ ts) :
    closingQuote? mark ts = none := by
  fun_induction closingQuote? mark ts with
  | case1 => rfl
  | case2 => rfl
  | case3 t ts ih =>
      rw [ih fun hmem => h (List.mem_cons_of_mem _ (List.mem_cons_of_mem _ hmem))]
      rfl
  | case4 => exact absurd List.mem_cons_self h
  | case5 => rfl
  | case6 t ts _ _ _ _ ih =>
      rw [ih fun hmem => h (List.mem_cons_of_mem _ hmem)]
      rfl

/-- No string reaches to where its mark does not occur. -/
theorem closingQuote?_append {mark : Token} {us : List Token} (h : mark ∉ us) (ts : List Token) :
    closingQuote? mark (ts ++ us) = closingQuote? mark ts := by
  fun_induction closingQuote? mark ts with
  | case1 => exact closingQuote?_eq_none h
  | case2 =>
      -- whatever the backslash hides is no mark
      cases us with
      | nil => rfl
      | cons u us =>
          rw [List.singleton_append, closingQuote?,
            closingQuote?_eq_none fun hmem => h (List.mem_cons_of_mem u hmem)]
          rfl
  | case3 t ts ih => rw [List.cons_append, List.cons_append, closingQuote?, ih]
  | case4 ts hnil hcons =>
      rw [List.cons_append, Grammar.closingQuote?_cons (ne_backslash hnil hcons), if_pos rfl]
  | case5 ts hnil hcons hne =>
      rw [List.cons_append, Grammar.closingQuote?_cons (by decide), if_neg hne, if_pos rfl]
  | case6 t ts hnil hcons hne hnewline ih =>
      rw [List.cons_append, Grammar.closingQuote?_cons (ne_backslash hnil hcons), if_neg hne,
        if_neg hnewline, ih]

/-- No segment reaches over a token if neither delimiters nor strings do. -/
theorem Head.of_stop {stop : Token} (hstop : stop.Stops) (mode : Mode) (t : Token)
    {ts us : List Token}
    (hquote : ∀ mark, mark = .doubleQuote ∨ mark = .singleQuote →
      closingQuote? mark (ts ++ stop :: us) = closingQuote? mark ts) :
    Head.of mode t (ts ++ stop :: us) = Head.of mode t ts := by
  have hsquare : ∀ square,
      ofSquare mode square (ts ++ stop :: us) = ofSquare mode square ts := by
    intro square
    unfold ofSquare
    rw [← List.cons_append, at?_stop hstop]
  have hstring : ∀ token mark, token = .doubleQuote ∨ token = .singleQuote →
      ofQuote mode token mark (ts ++ stop :: us) = ofQuote mode token mark ts := by
    intro token mark htoken
    unfold ofQuote
    rw [hquote token htoken]
  unfold Head.of
  cases t with
  | doubleDash => rw [ofDashes, ofDashes, at?_stop hstop]
  | openBracket => rw [hsquare .openBracket]
  | closeBracket => rw [hsquare .closeBracket]
  | doubleQuote => rw [hstring .doubleQuote .double (.inl rfl)]
  | singleQuote => rw [hstring .singleQuote .single (.inr rfl)]
  | _ => rfl

/-- No segment that starts among the tokens `ts` reaches to the tokens `us` behind them. -/
def Sealed (ts us : List Token) : Prop :=
  ∀ n mode t, Head.of mode t (ts.drop n ++ us) = Head.of mode t (ts.drop n)

/-- **A newline is a seam**, unless a backslash hides it. -/
theorem sealed_newline {ts : List Token} (h : ts.getLast? ≠ some .backslash) (us : List Token) :
    Sealed ts (.newline :: us) := by
  intro n mode t
  refine Head.of_stop (by decide) mode t fun mark hmark => ?_
  refine closingQuote?_newline ?_ (getLast?_drop_ne h n) us
  rcases hmark with rfl | rfl <;> decide

/-- **Where no quotation marks follow**, only delimiters could reach over a seam. -/
theorem sealed_unquoted {stop : Token} (hstop : stop.Stops) (ts : List Token) {us : List Token}
    (hdouble : .doubleQuote ∉ stop :: us) (hsingle : .singleQuote ∉ stop :: us) :
    Sealed ts (stop :: us) := by
  intro n mode t
  refine Head.of_stop hstop mode t fun mark hmark => closingQuote?_append ?_ _
  rcases hmark with rfl | rfl
  · exact hdouble
  · exact hsingle

/-! ## Scanning over a seam -/

theorem Sealed.drop {ts us : List Token} (h : Sealed ts us) (n : Nat) : Sealed (ts.drop n) us := by
  intro m mode t
  rw [List.drop_drop]
  exact h (n + m) mode t

/-- **The scanner stops at a seam** and goes on after it in the mode that it has reached. -/
theorem scan_append (token : α → Token) (xs ys : List α) : ∀ mode : Mode,
    Sealed (xs.map token) (ys.map token) →
      scan token mode (xs ++ ys)
        = scan token mode xs
          ++ scan token (mode.after ((scan token mode xs).map (·.kind))) ys := by
  induction xs using dropInduction with
  | nil =>
      intro mode _
      rw [List.nil_append, scan_nil]
      rfl
  | cons a xs ih =>
      intro mode hsealed
      have hhead : Head.of mode (token a) ((xs ++ ys).map token)
          = Head.of mode (token a) (xs.map token) := by
        rw [List.map_append]
        exact hsealed 1 mode (token a)
      -- the segment takes its tokens from before the seam, so both sides are cut alike
      have hextra := Head.extra_le mode (token a) (xs.map token)
      rw [List.length_map] at hextra
      have hmode := (moves_of mode (token a) (xs.map token)).2
      have hrest : Sealed ((xs.drop (Head.of mode (token a) (xs.map token)).extra).map token)
          (ys.map token) := by
        rw [List.map_drop]
        exact (hsealed.drop 1).drop _
      rw [List.cons_append, scan_cons token mode a _ hhead, scan_cons token mode a xs rfl,
        List.take_append_of_le_length hextra, List.drop_append_of_le_length hextra, ih _ _ hrest,
        List.map_cons, Mode.after_cons, ← hmode, List.cons_append]

namespace Group

theorem attach_seam (group : Group α) {seam : Group α} (hseam : seam.kind ≠ .text)
    (xs ys : List (Group α)) :
    group.attach (xs ++ seam :: ys) = group.attach xs ++ seam :: ys := by
  cases xs with
  | nil =>
      have hapart : ¬(group.kind = .text ∧ seam.kind = .text) := fun h => hseam h.2
      rw [List.nil_append, attach.eq_2, if_neg hapart]
      rfl
  | cons x xs =>
      rw [List.cons_append, attach, attach]
      split <;> rfl

theorem merge_seam {seam : Group α} (hseam : seam.kind ≠ .text) (xs ys : List (Group α)) :
    merge (xs ++ seam :: ys) = merge xs ++ seam :: merge ys := by
  induction xs with
  | nil =>
      rw [List.nil_append, merge_cons, merge_nil, List.nil_append]
      cases merge ys with
      | nil => rfl
      | cons y ys => rw [attach, if_neg (fun h => hseam h.1)]
  | cons x xs ih => rw [List.cons_append, merge_cons, ih, attach_seam x hseam, merge_cons]

/-- **Text is put together on each side of a seam** if no text follows it. -/
theorem merge_append {ys : List (Group α)} (h : ∀ y ∈ ys.head?, y.kind ≠ .text)
    (xs : List (Group α)) : merge (xs ++ ys) = merge xs ++ merge ys := by
  cases ys with
  | nil => rw [merge_nil, List.append_nil, List.append_nil]
  | cons y ys =>
      have hy : y.kind ≠ .text := h y rfl
      have halone := merge_seam hy [] ys
      rw [merge_seam hy, ← List.nil_append (y :: ys), halone, merge_nil, List.nil_append]

end Group

/-- Putting text together does not change the mode that is reached. -/
theorem after_merge (mode : Mode) (gs : List (Group α)) :
    mode.after ((Group.merge gs).map (·.kind)) = mode.after (gs.map (·.kind)) := by
  induction gs generalizing mode with
  | nil => rfl
  | cons group gs ih =>
      rw [Group.merge_cons, List.map_cons, Mode.after_cons, ← ih]
      cases Group.merge gs with
      | nil => rfl
      | cons next gs =>
          rw [Group.attach]
          split
          · rename_i hk
            rw [List.map_cons, List.map_cons, Mode.after_cons, Mode.after_cons, hk.1, hk.2,
              Mode.follow_text, Mode.follow_text]
          · rfl

/-! ## Segments -/

/-- The segments, without their spans, of a source that is entered in a mode. -/
def bareSegmentsFrom (mode : Mode) (cs : List Char) : List (SegmentKind × List Char) :=
  (Group.merge (scan Prod.fst mode (Token.split cs))).map Group.said

theorem bareSegmentsFrom_code (cs : List Char) : bareSegmentsFrom .code cs = bareSegments cs := by
  rw [bareSegments, groups_eq_scan]
  rfl

/-- The mode in which a source ends. -/
def endMode (cs : List Char) : Mode :=
  Mode.code.after ((lex cs).map (·.kind))

theorem endMode_eq (cs : List Char) :
    endMode cs = Mode.code.after ((scan Prod.fst .code (Token.split cs)).map (·.kind)) := by
  have hkinds : (lex cs).map (·.kind) = (bareSegments cs).map Prod.fst := by
    rw [← bare_lex, List.map_map]
    rfl
  rw [endMode, hkinds, bareSegments, groups_eq_scan, List.map_map, ← after_merge]
  rfl

/-- What follows a seam starts with another segment than text. -/
def StartsApart (mode : Mode) (cs : List Char) : Prop :=
  ∀ group ∈ (scan Prod.fst mode (Token.split cs)).head?, group.kind ≠ .text

theorem bareSegments_append {a b : List Char}
    (hsplit : Token.split (a ++ b) = Token.split a ++ Token.split b)
    (hsealed : Sealed ((Token.split a).map Prod.fst) ((Token.split b).map Prod.fst))
    (hapart : StartsApart (endMode a) b) :
    bareSegments (a ++ b) = bareSegments a ++ bareSegmentsFrom (endMode a) b := by
  rw [bareSegments, bareSegments, groups_eq_scan, groups_eq_scan, hsplit,
    scan_append Prod.fst _ _ .code hsealed, ← endMode_eq, Group.merge_append hapart,
    List.map_append]
  rfl

/-- **A text goes on after a seam in the mode that has been reached.** -/
theorem lex_append {a b : List Char}
    (hsplit : Token.split (a ++ b) = Token.split a ++ Token.split b)
    (hsealed : Sealed ((Token.split a).map Prod.fst) ((Token.split b).map Prod.fst))
    (hapart : StartsApart (endMode a) b) :
    lex (a ++ b)
      = lex a ++ Lexeme.layOut (Text.byteSize a) (bareSegmentsFrom (endMode a) b) := by
  rw [lex_eq_layOut, bareSegments_append hsplit hsealed hapart, Lexeme.layOut_append,
    ← lex_eq_layOut, text_bareSegments, Nat.zero_add]

/-! ## Newlines -/

/-- A newline is a line break in every mode. -/
theorem scan_newline (mode : Mode) (b : List Char) :
    scan Prod.fst mode (Token.split ('\n' :: b))
      = ⟨.lineBreak, (.newline, ['\n']), []⟩
        :: scan Prod.fst (mode.follow .lineBreak) (Token.split b) := by
  have hhead : Head.of mode .newline ((Token.split b).map Prod.fst)
      = ⟨.lineBreak, 0, mode.follow .lineBreak⟩ := by
    cases mode <;> rfl
  rw [(Token.split_newline [] b).2, scan_cons Prod.fst mode _ _ hhead]
  rfl

theorem bareSegmentsFrom_newline (mode : Mode) (b : List Char) :
    bareSegmentsFrom mode ('\n' :: b)
      = (.lineBreak, ['\n']) :: bareSegmentsFrom (mode.follow .lineBreak) b := by
  have hseam : (⟨.lineBreak, (.newline, ['\n']), []⟩ : Group (Token × List Char)).kind ≠ .text :=
    nofun
  have hmerge := Group.merge_seam hseam []
    (scan Prod.fst (mode.follow .lineBreak) (Token.split b))
  rw [List.nil_append] at hmerge
  rw [bareSegmentsFrom, scan_newline, hmerge]
  rfl

/-- The newline between two texts is a seam. -/
def Joins (a b : List Char) : Prop :=
  Sealed ((Token.split a).map Prod.fst) (.newline :: (Token.split b).map Prod.fst)

theorem joins_of_getLast {a : List Char} (h : a.getLast? ≠ some '\\') (b : List Char) :
    Joins a b :=
  sealed_newline (Token.getLast?_split h) _

/-- The lexeme further on in a source. -/
def Lexeme.shift {κ : Type} (bytes : Nat) (lexeme : Lexeme κ) : Lexeme κ :=
  { lexeme with span := ⟨lexeme.span.start + bytes, lexeme.span.stop + bytes⟩ }

theorem Lexeme.layOut_shift {κ : Type} (bytes offset : Nat) (xs : List (κ × List Char)) :
    layOut (offset + bytes) xs = (layOut offset xs).map (shift bytes) := by
  induction xs generalizing offset with
  | nil => rfl
  | cons x xs ih =>
      rw [layOut, layOut, List.map_cons, ← ih, Nat.add_right_comm]
      rfl

/-- The line break between two sources. -/
def seam (a : List Char) : Segment :=
  ⟨.lineBreak, ⟨Text.byteSize a, Text.byteSize a + 1⟩, ['\n']⟩

/-- **A source goes on after a newline in the mode that it has reached.** -/
theorem lex_newline {a b : List Char} (h : Joins a b) :
    lex (a ++ '\n' :: b)
      = lex a ++ seam a :: Lexeme.layOut (Text.byteSize a + 1)
        (bareSegmentsFrom ((endMode a).follow .lineBreak) b) := by
  obtain ⟨hsplit, hfirst⟩ := Token.split_newline a b
  have hapart : StartsApart (endMode a) ('\n' :: b) := by
    unfold StartsApart
    rw [scan_newline]
    rintro group ⟨⟩
    exact nofun
  unfold Joins at h
  rw [lex_append hsplit (by rw [hfirst]; exact h) hapart, bareSegmentsFrom_newline]
  rfl

/-- **In code, and at the end of a line comment, the second source is lexed as if it stood
alone.** -/
theorem lex_newline_code {a b : List Char} (h : Joins a b)
    (hmode : (endMode a).follow .lineBreak = .code) :
    lex (a ++ '\n' :: b)
      = lex a ++ seam a :: (lex b).map (Lexeme.shift (Text.byteSize a + 1)) := by
  rw [lex_newline h, hmode, bareSegmentsFrom_code, lex_eq_layOut b, ← Lexeme.layOut_shift,
    Nat.zero_add]

end Keybind
