import Keybind.Proofs.Munch
import Keybind.Proofs.Tiling

/-!
# The lexical grammar of characters

`lex` works in two stages, tokens first. The grammar of a script can be said
without tokens, as a reader that goes over the characters once and asks of each
place which rule applies. In a line comment everything up to the newline is
text. Elsewhere the first of these rules wins:

1. a delimiter of a long bracket, with or without `--` in front;
2. `--`, which starts a line comment in code and is text in a long bracket;
3. in code, a quoted string whose partner stands on the same line, where a
   backslash hides the character after it;
4. a newline, a run of white space, `=>`, a brace, or else one character of text.

Adjacent text is put together. `lex_eq_grammar` says that the two-stage lexer
recognises exactly this grammar. The stages cut at different places on the way
(a backslash hides a whole token, `--` and `=>` are never looked into), so the
proof goes from token to token: `Boundary` relates a number of tokens to the
number of characters they are made of.
-/

namespace Keybind.Grammar

/-! ## The rules -/

/-- Where the reader stands: within so many long brackets, none of them in code, or in a line
comment. -/
inductive State where
  | nested (depth : Nat)
  | lineComment
  deriving DecidableEq, Repr

/-- A rule that applies: the segment it makes, how many characters after the first it takes, and
where the reader stands after it. -/
structure Rule where
  kind : SegmentKind
  extra : Nat
  state : State
  deriving DecidableEq, Repr

/-- The number of equals signs in front of a square bracket. -/
def level? (square : Char) : List Char → Option Nat
  | [] => none
  | c :: cs =>
    if c = square then some 0
    else if c = '=' then (level? square cs).map (· + 1)
    else none

/-- A delimiter of a long bracket without its comment mark. -/
def bracket? : List Char → Option Delimiter
  | '[' :: cs => (level? '[' cs).map fun level => ⟨true, level⟩
  | ']' :: cs => (level? ']' cs).map fun level => ⟨false, level⟩
  | _ => none

/-- What a delimiter of a long bracket makes. An opener raises the depth, a closer lowers it, but
not below code. -/
def delimiterRule (depth : Nat) (comment : Bool) (delimiter : Delimiter) : Rule where
  kind := if delimiter.opening then .longOpen ⟨comment, delimiter.level⟩
    else .longClose ⟨comment, delimiter.level⟩
  extra := delimiter.level + 1 + if comment then 2 else 0
  state := .nested (if delimiter.opening then depth + 1 else depth - 1)

/-- The first rule. -/
def bracketRule? (depth : Nat) : List Char → Option Rule
  | '-' :: '-' :: cs => (bracket? cs).map (delimiterRule depth true)
  | cs => (bracket? cs).map (delimiterRule depth false)

/-- The second rule. -/
def dashesRule? (depth : Nat) : List Char → Option Rule
  | '-' :: '-' :: _ =>
    some (if depth = 0 then ⟨.lineComment, 1, .lineComment⟩ else ⟨.text, 1, .nested depth⟩)
  | _ => none

/-- The number of characters up to and including the closing mark of a string. -/
def closing? (mark : Char) : List Char → Option Nat
  | [] => none
  | ['\\'] => none
  | '\\' :: _ :: cs => (closing? mark cs).map (· + 2)
  | c :: cs =>
    if c = mark then some 1
    else if c = '\n' then none
    else (closing? mark cs).map (· + 1)

/-- The mark that a character is. -/
def mark? : Char → Option QuoteMark
  | '"' => some .double
  | '\x27' => some .single
  | _ => none

/-- The third rule. -/
def quoteRule? (depth : Nat) : List Char → Option Rule
  | [] => none
  | c :: cs =>
    match mark? c, closing? c cs with
    | some mark, some extra => if depth = 0 then some ⟨.quoted mark, extra, .nested depth⟩ else none
    | _, _ => none

/-- The fourth rule, which always applies. -/
def plainRule (depth : Nat) (c : Char) (cs : List Char) : Rule :=
  if c = '\n' then ⟨.lineBreak, 0, .nested depth⟩
  else if Token.IsSpace c then
    ⟨.whitespace, (cs.takeWhile (Token.IsSpace ·)).length, .nested depth⟩
  else if c = '=' ∧ cs.head? = some '>' then ⟨.arrow, 1, .nested depth⟩
  else if c = '{' then ⟨.openBrace, 0, .nested depth⟩
  else if c = '}' then ⟨.closeBrace, 0, .nested depth⟩
  else ⟨.text, 0, .nested depth⟩

/-- The rule that applies to the text `c :: cs`. -/
def rule (c : Char) (cs : List Char) : State → Rule
  | .lineComment =>
    if c = '\n' then ⟨.lineBreak, 0, .nested 0⟩ else ⟨.text, 0, .lineComment⟩
  | .nested depth =>
    (bracketRule? depth (c :: cs) <|> dashesRule? depth (c :: cs)
      <|> quoteRule? depth (c :: cs)).getD (plainRule depth c cs)

/-- One rule after the other. -/
def read (state : State) : List Char → List (SegmentKind × List Char)
  | [] => []
  | c :: cs =>
    let rule := rule c cs state
    (rule.kind, c :: cs.take rule.extra) :: read rule.state (cs.drop rule.extra)
termination_by cs => cs.length
decreasing_by simp only [List.length_drop, List.length_cons]; omega

/-- A segment in front of others; text is put together with the text that follows it. -/
def attach : SegmentKind × List Char → List (SegmentKind × List Char) →
    List (SegmentKind × List Char)
  | (.text, text), (.text, next) :: rest => (.text, text ++ next) :: rest
  | item, rest => item :: rest

/-- The segments of a source, by the rules alone. -/
def segments (cs : List Char) : List (SegmentKind × List Char) :=
  (read (.nested 0) cs).foldr attach []

open Token (split First IsInner)

/-! ## Tokens and characters -/

/-- The first `tokens` tokens of a text are its first `chars` characters, and what follows is
split as it stands. -/
def Boundary (cs : List Char) (tokens chars : Nat) : Prop :=
  ((split cs).take tokens).flatMap Prod.snd = cs.take chars
    ∧ (split cs).drop tokens = split (cs.drop chars)

theorem boundary_zero (cs : List Char) : Boundary cs 0 0 :=
  ⟨rfl, rfl⟩

theorem boundary_cons {c : Char} {cs tail rest : List Char} {t : Token} {tokens chars : Nat}
    (hfirst : First c cs t tail rest) (h : Boundary rest tokens chars) :
    Boundary (c :: cs) (tokens + 1) (tail.length + chars + 1) := by
  obtain ⟨htake, hdrop⟩ := h
  unfold Boundary
  rw [hfirst.split, List.take_succ_cons, List.drop_succ_cons, List.flatMap_cons, htake, hdrop,
    hfirst.text, List.take_succ_cons, List.drop_succ_cons, List.take_length_add_append,
    List.drop_length_add_append]
  exact ⟨rfl, rfl⟩

/-! ### Delimiters of long brackets -/

/-- The two square brackets, as characters and as tokens. -/
inductive Square : Char → Token → Prop where
  | opening : Square '[' .openBracket
  | closing : Square ']' .closeBracket

theorem Square.start {square : Char} {t : Token} (h : Square square t) :
    Token.start square = t := by
  cases h <;> rfl

theorem Square.fixed {square : Char} {t : Token} (h : Square square t) : t.IsFixed := by
  cases h <;> exact fun _ => rfl

theorem Square.char_ne {square : Char} {t : Token} (h : Square square t) :
    square ≠ '=' ∧ square ≠ '>' := by
  cases h <;> decide

/-- A token of the kind of a square bracket starts with that bracket. -/
theorem Square.eq_of_first {square c : Char} {cs tail rest : List Char} {t : Token}
    (h : Square square t) (hfirst : First c cs t tail rest) : c = square := by
  rcases hfirst.kind with hc | ⟨_, ht⟩ | ⟨_, ht⟩
  · cases h <;> exact Token.starts_of_start hc.symm
  · subst ht; cases h
  · subst ht; cases h

theorem level?_tokens_cons (square t : Token) (ts : List Token) :
    Delimiter.level? square (t :: ts)
      = if t = .equals then (Delimiter.level? square ts).map (· + 1)
        else if t = square then some 0 else none := by
  unfold Delimiter.level?
  by_cases ht : t = .equals
  · subst ht
    simp only [beq_self_eq_true, List.dropWhile_cons_of_pos, List.takeWhile_cons_of_pos,
      List.length_cons, if_true]
    split <;> rfl
  · have hbeq : ¬(t == Token.equals) = true := by simpa using ht
    rw [List.dropWhile_cons, List.takeWhile_cons, if_neg hbeq, if_neg hbeq, if_neg ht]
    simp

/-- Any other character starts neither the bracket nor an equals sign. -/
theorem Square.exists_first_other {square c : Char} {t : Token} (h : Square square t)
    (hc : c ≠ square) (he : c ≠ '=') (cs : List Char) :
    ∃ t' tail rest, Token.First c cs t' tail rest ∧ t' ≠ t ∧ t' ≠ .equals := by
  obtain ⟨t', tail, rest, hfirst⟩ := Token.exists_first c cs
  refine ⟨t', tail, rest, hfirst, ?_, ?_⟩
  · rintro rfl
    exact hc (h.eq_of_first hfirst)
  · rintro rfl
    rcases hfirst.kind with hk | ⟨_, hk⟩ | ⟨_, hk⟩
    · exact he (Token.starts_of_start hk.symm)
    · cases hk
    · cases hk

/-- The levels of tokens and of characters are the same, and each sign is a token. -/
theorem level?_split {square : Char} {t : Token} (h : Square square t) (cs : List Char) :
    Delimiter.level? t ((split cs).map Prod.fst) = level? square cs
      ∧ ∀ level, level? square cs = some level → Boundary cs (level + 1) (level + 1) := by
  have ht : t ≠ .equals := by cases h <;> decide
  induction cs with
  | nil => exact ⟨rfl, fun _ hl => by cases hl⟩
  | cons c cs ih =>
      rw [level?]
      by_cases hc : c = square
      · subst hc
        have hfirst := Token.first_fixed h.start h.fixed cs
        rw [if_pos rfl, hfirst.split, List.map_cons, level?_tokens_cons, if_neg ht, if_pos rfl]
        refine ⟨rfl, fun level hl => ?_⟩
        cases hl
        exact boundary_cons hfirst (boundary_zero cs)
      rw [if_neg hc]
      by_cases he : c = '='
      · subst he
        rw [if_pos rfl]
        by_cases hgt : cs.head? = some '>'
        · -- `=>` is one token, and no bracket follows its equals sign
          obtain ⟨cs, rfl⟩ := List.head?_eq_some_iff.mp hgt
          have hnone : level? square ('>' :: cs) = none := by
            rw [level?, if_neg (Ne.symm h.char_ne.2), if_neg (by decide)]
          rw [(Token.first_arrow cs).split, List.map_cons, level?_tokens_cons, hnone,
            if_neg (by decide), if_neg (by cases h <;> decide)]
          exact ⟨rfl, fun _ hl => by cases hl⟩
        · have hfirst := Token.first_equals hgt
          rw [hfirst.split, List.map_cons, level?_tokens_cons, if_pos rfl, ih.1]
          refine ⟨rfl, fun level hl => ?_⟩
          obtain ⟨level', hl', rfl⟩ := Option.map_eq_some_iff.mp hl
          have := boundary_cons hfirst (ih.2 level' hl')
          rwa [List.length_nil, Nat.zero_add] at this
      · obtain ⟨t', tail, rest, hfirst, hne, hne'⟩ := h.exists_first_other hc he cs
        rw [if_neg he, hfirst.split, List.map_cons, level?_tokens_cons, if_neg hne', if_neg hne]
        exact ⟨rfl, fun _ hl => by cases hl⟩

theorem bracket?_eq_none {c : Char} (ho : c ≠ '[') (hc : c ≠ ']') (cs : List Char) :
    bracket? (c :: cs) = none := by
  unfold bracket?
  split
  · rename_i heq; exact absurd (List.cons.inj heq).1 ho
  · rename_i heq; exact absurd (List.cons.inj heq).1 hc
  · rfl

theorem bracket?_congr {cs ds : List Char} (hopen : level? '[' cs = level? '[' ds)
    (hclose : level? ']' cs = level? ']' ds) (c : Char) :
    bracket? (c :: cs) = bracket? (c :: ds) := by
  by_cases ho : c = '['
  · subst ho
    rw [bracket?, bracket?, hopen]
  by_cases hc : c = ']'
  · subst hc
    rw [bracket?, bracket?, hclose]
  rw [bracket?_eq_none ho hc, bracket?_eq_none ho hc]

theorem at?_eq_none {t : Token} (ho : t ≠ .openBracket) (hc : t ≠ .closeBracket)
    (ts : List Token) : Delimiter.at? (t :: ts) = none := by
  unfold Delimiter.at?
  split
  · rename_i heq; exact absurd (List.cons.inj heq).1 ho
  · rename_i heq; exact absurd (List.cons.inj heq).1 hc
  · rfl

/-- The delimiters of tokens and of characters are the same. -/
theorem at?_split (cs : List Char) :
    Delimiter.at? ((split cs).map Prod.fst) = bracket? cs
      ∧ ∀ delimiter, bracket? cs = some delimiter →
        Boundary cs (delimiter.level + 2) (delimiter.level + 2) := by
  cases cs with
  | nil => exact ⟨rfl, fun _ h => by cases h⟩
  | cons c cs =>
      obtain ⟨t, tail, rest, hfirst⟩ := Token.exists_first c cs
      -- both brackets go the same way
      have square : ∀ {t' : Token} (opening : Bool), Square c t' →
          Delimiter.at? (t' :: (split cs).map Prod.fst)
              = (Delimiter.level? t' ((split cs).map Prod.fst)).map (⟨opening, ·⟩) →
          bracket? (c :: cs) = (level? c cs).map (⟨opening, ·⟩) →
          Delimiter.at? ((split (c :: cs)).map Prod.fst) = bracket? (c :: cs)
            ∧ ∀ delimiter, bracket? (c :: cs) = some delimiter →
              Boundary (c :: cs) (delimiter.level + 2) (delimiter.level + 2) := by
        intro t' opening hsq hat hbr
        have hfixed := Token.first_fixed hsq.start hsq.fixed cs
        obtain ⟨hlevel, hbound⟩ := level?_split hsq cs
        refine ⟨by rw [hfixed.split, List.map_cons, hat, hlevel, hbr], ?_⟩
        intro delimiter hd
        rw [hbr] at hd
        obtain ⟨level, hl, rfl⟩ := Option.map_eq_some_iff.mp hd
        have := boundary_cons hfixed (hbound level hl)
        rwa [List.length_nil, Nat.zero_add] at this
      by_cases ho : c = '['
      · subst ho; exact square true .opening rfl rfl
      by_cases hc : c = ']'
      · subst hc; exact square false .closing rfl rfl
      have ho' : t ≠ .openBracket := by
        intro heq; subst heq; exact ho (Square.opening.eq_of_first hfirst)
      have hc' : t ≠ .closeBracket := by
        intro heq; subst heq; exact hc (Square.closing.eq_of_first hfirst)
      rw [hfirst.split, List.map_cons, at?_eq_none ho' hc', bracket?_eq_none ho hc]
      exact ⟨rfl, fun _ h => by cases h⟩

/-! ### Quoted strings -/

/-- The two quotation marks, as characters and as tokens. -/
inductive Quote : Char → Token → Prop where
  | double : Quote '"' .doubleQuote
  | single : Quote '\x27' .singleQuote

theorem Quote.start {mark : Char} {t : Token} (h : Quote mark t) : Token.start mark = t := by
  cases h <;> rfl

theorem Quote.fixed {mark : Char} {t : Token} (h : Quote mark t) : t.IsFixed := by
  cases h <;> exact fun _ => rfl

theorem Quote.eq_of_start {mark c : Char} {t : Token} (h : Quote mark t)
    (hc : Token.start c = t) : c = mark := by
  cases h <;> exact Token.starts_of_start hc

theorem closing?_plain {mark c : Char} (hb : c ≠ '\\') (hm : c ≠ mark) (hn : c ≠ '\n')
    (cs : List Char) : closing? mark (c :: cs) = (closing? mark cs).map (· + 1) := by
  rw [closing?, if_neg hm, if_neg hn]
  · intro heq; exact absurd heq hb
  · intro _ _ heq; exact absurd heq hb

/-- A character that is not part of a pair is no backslash. -/
theorem char_ne_backslash {c : Char} {cs : List Char} (hnil : c = '\\' → cs = [] → False)
    (hcons : ∀ d ds, c = '\\' → cs = d :: ds → False) : c ≠ '\\' := by
  intro hc
  cases cs with
  | nil => exact hnil hc rfl
  | cons d ds => exact hcons d ds hc rfl

theorem closing?_mark {mark : Char} (h : mark ≠ '\\') (cs : List Char) :
    closing? mark (mark :: cs) = some 1 := by
  rw [closing?, if_pos rfl]
  · exact fun hc => absurd hc h
  · exact fun _ _ hc => absurd hc h

theorem closing?_newline {mark : Char} (hn : mark ≠ '\n') (cs : List Char) :
    closing? mark ('\n' :: cs) = none := by
  rw [closing?, if_neg hn.symm, if_pos rfl]
  · exact fun hc => absurd hc (by decide)
  · exact fun _ _ hc => absurd hc (by decide)

theorem closing?_inner {mark : Char} {t : Token} (h : Quote mark t) {tail : List Char}
    (htail : ∀ d ∈ tail, IsInner d) (rest : List Char) :
    closing? mark (tail ++ rest) = (closing? mark rest).map (· + tail.length) := by
  induction tail with
  | nil => simp
  | cons d tail ih =>
      have hd := htail d List.mem_cons_self
      have hb : d ≠ '\\' := by rintro rfl; exact absurd hd (by simp [IsInner, Token.start])
      have hn : d ≠ '\n' := by rintro rfl; exact absurd hd (by simp [IsInner, Token.start])
      have hm : d ≠ mark := by
        rintro rfl; cases h <;> exact absurd hd (by simp [IsInner, Token.start])
      rw [List.cons_append, closing?_plain hb hm hn,
        ih (fun x hx => htail x (List.mem_cons_of_mem d hx)), Option.map_map]
      rfl

theorem closingQuote?_cons {mark t : Token} (h : t ≠ .backslash) (ts : List Token) :
    closingQuote? mark (t :: ts)
      = if t = mark then some 1
        else if t = .newline then none else (closingQuote? mark ts).map (· + 1) := by
  rw [closingQuote?]
  · intro heq; exact absurd heq h
  · intro _ _ heq; exact absurd heq h

theorem closing_rel_cons {c : Char} {cs tail rest : List Char} {t : Token}
    (hfirst : First c cs t tail rest) {n k : Option Nat} (h : Option.Rel (Boundary rest) n k) :
    Option.Rel (Boundary (c :: cs)) (n.map (· + 1)) (k.map (· + (tail.length + 1))) := by
  cases h with
  | none => exact .none
  | @some n k hb =>
      have hcons := boundary_cons hfirst hb
      rw [Nat.add_comm tail.length k, Nat.add_assoc] at hcons
      exact .some hcons

/-- **The strings of tokens and of characters are the same.** A backslash hides one token or one
character; what else the token holds cannot end the string. -/
theorem closing?_split {mark : Char} {t : Token} (h : Quote mark t) (cs : List Char) :
    Option.Rel (Boundary cs) (closingQuote? t ((split cs).map Prod.fst)) (closing? mark cs) := by
  induction cs using dropInduction with
  | nil => exact .none
  | cons c cs ih =>
      by_cases hb : c = '\\'
      · -- all of the hidden token is passed over; its characters after the first are plain ones
        subst hb
        have hfirst : First '\\' cs .backslash [] cs := Token.first_fixed rfl (fun _ => rfl) cs
        rw [hfirst.split, List.map_cons]
        cases cs with
        | nil => exact .none
        | cons d cs =>
            obtain ⟨t', tail, rest, hhidden⟩ := Token.exists_first d cs
            have hrest : rest = (d :: cs).drop (tail.length + 1) := by
              rw [hhidden.text, List.drop_succ_cons, List.drop_left]
            have hrel := closing_rel_cons hfirst (closing_rel_cons hhidden (hrest ▸ ih _))
            rw [hhidden.split, List.map_cons, closingQuote?, closing?, hhidden.text,
              closing?_inner h hhidden.inner]
            simpa [Option.map_map, Function.comp_def, Nat.add_assoc, hhidden.text] using hrel
      by_cases hm : c = mark
      · subst hm
        have hfirst := Token.first_fixed h.start h.fixed cs
        have hback : t ≠ .backslash := by cases h <;> decide
        rw [hfirst.split, List.map_cons, closingQuote?_cons hback, if_pos rfl, closing?_mark hb]
        exact .some (boundary_cons hfirst (boundary_zero cs))
      by_cases hn : c = '\n'
      · subst hn
        have hfirst : First '\n' cs .newline [] cs := Token.first_fixed rfl (fun _ => rfl) cs
        have ht : Token.newline ≠ t := by cases h <;> decide
        rw [hfirst.split, List.map_cons, closingQuote?_cons (by decide), if_neg ht, if_pos rfl,
          closing?_newline (Ne.symm hm)]
        exact .none
      -- any other token is passed over whole, and so are its characters
      obtain ⟨t', tail, rest, hfirst⟩ := Token.exists_first c cs
      have hkind : t' ≠ .backslash ∧ t' ≠ t ∧ t' ≠ .newline := by
        rcases hfirst.kind with hk | ⟨_, hk⟩ | ⟨_, hk⟩
        · refine ⟨fun he => hb ?_, fun he => hm (h.eq_of_start (hk.symm.trans he)), fun he => hn ?_⟩
          · exact Token.starts_of_start (hk.symm.trans he)
          · exact Token.starts_of_start (hk.symm.trans he)
        · subst hk; cases h <;> decide
        · subst hk; cases h <;> decide
      have hrest : rest = cs.drop tail.length := by rw [hfirst.text, List.drop_left]
      have hrel := closing_rel_cons hfirst (hrest ▸ ih _)
      rw [hfirst.split, List.map_cons, closingQuote?_cons hkind.1, if_neg hkind.2.1,
        if_neg hkind.2.2, closing?_plain hb hm hn, hfirst.text, closing?_inner h hfirst.inner]
      simpa [Option.map_map, Function.comp_def, Nat.add_assoc, hfirst.text] using hrel

/-! ## Which rule applies where -/

theorem bracketRule?_of_not_dash {depth : Nat} {c : Char} {cs : List Char}
    (h : ¬(c = '-' ∧ cs.head? = some '-')) :
    bracketRule? depth (c :: cs) = (bracket? (c :: cs)).map (delimiterRule depth false) := by
  unfold bracketRule?
  split
  · rename_i heq
    obtain ⟨rfl, rfl⟩ := List.cons.inj heq
    exact absurd ⟨rfl, rfl⟩ h
  · rfl

theorem dashesRule?_of_not_dash {depth : Nat} {c : Char} {cs : List Char}
    (h : ¬(c = '-' ∧ cs.head? = some '-')) : dashesRule? depth (c :: cs) = none := by
  unfold dashesRule?
  split
  · rename_i heq
    obtain ⟨rfl, rfl⟩ := List.cons.inj heq
    exact absurd ⟨rfl, rfl⟩ h
  · rfl

theorem quoteRule?_of_not_mark {depth : Nat} {c : Char} (h : mark? c = none) (cs : List Char) :
    quoteRule? depth (c :: cs) = none := by
  rw [quoteRule?, h]

theorem mark?_eq_none {c : Char} (hd : c ≠ '"') (hs : c ≠ '\x27') : mark? c = none := by
  unfold mark?
  split
  · exact absurd rfl hd
  · exact absurd rfl hs
  · rfl

/-- Outside line comments the rule that applies is the first of four. -/
theorem rule_cases (c : Char) (cs : List Char) (depth : Nat) :
    bracketRule? depth (c :: cs) = some (rule c cs (.nested depth))
      ∨ dashesRule? depth (c :: cs) = some (rule c cs (.nested depth))
      ∨ quoteRule? depth (c :: cs) = some (rule c cs (.nested depth))
      ∨ rule c cs (.nested depth) = plainRule depth c cs := by
  rw [rule]
  cases bracketRule? depth (c :: cs) with
  | some r => exact .inl rfl
  | none =>
      cases dashesRule? depth (c :: cs) with
      | some r => exact .inr (.inl rfl)
      | none =>
          cases quoteRule? depth (c :: cs) with
          | some r => exact .inr (.inr (.inl rfl))
          | none => exact .inr (.inr (.inr rfl))

/-- Nothing but the last rule applies to what is no bracket, no quotation mark and no `--`. -/
theorem rule_plain {depth : Nat} {c : Char} {cs : List Char}
    (hdash : ¬(c = '-' ∧ cs.head? = some '-')) (ho : c ≠ '[') (hc : c ≠ ']')
    (hmark : mark? c = none) : rule c cs (.nested depth) = plainRule depth c cs := by
  rw [rule, bracketRule?_of_not_dash hdash, bracket?_eq_none ho hc,
    dashesRule?_of_not_dash hdash, quoteRule?_of_not_mark hmark]
  rfl

theorem rule_dashes (depth : Nat) (cs : List Char) :
    rule '-' ('-' :: cs) (.nested depth)
      = match bracket? cs with
        | some delimiter => delimiterRule depth true delimiter
        | none =>
          if depth = 0 then ⟨.lineComment, 1, .lineComment⟩ else ⟨.text, 1, .nested depth⟩ := by
  rw [rule, bracketRule?, dashesRule?]
  cases bracket? cs <;> rfl

theorem rule_square {square : Char} {t : Token} (h : Square square t) (depth : Nat)
    (cs : List Char) :
    rule square cs (.nested depth)
      = match bracket? (square :: cs) with
        | some delimiter => delimiterRule depth false delimiter
        | none => ⟨.text, 0, .nested depth⟩ := by
  have hdash : ¬(square = '-' ∧ cs.head? = some '-') := by cases h <;> simp
  have hmark : mark? square = none := by cases h <;> rfl
  have hplain : plainRule depth square cs = ⟨.text, 0, .nested depth⟩ := by
    cases h <;> simp [plainRule, Token.IsSpace]
  rw [rule, bracketRule?_of_not_dash hdash, dashesRule?_of_not_dash hdash,
    quoteRule?_of_not_mark hmark, hplain]
  cases bracket? (square :: cs) <;> rfl

/-- The quotation mark of a token. -/
def Quote.kind : Token → QuoteMark
  | .singleQuote => .single
  | _ => .double

theorem rule_quote {mark : Char} {t : Token} (h : Quote mark t) (depth : Nat) (cs : List Char) :
    rule mark cs (.nested depth)
      = match if depth = 0 then closing? mark cs else none with
        | some extra => ⟨.quoted (Quote.kind t), extra, .nested depth⟩
        | none => ⟨.text, 0, .nested depth⟩ := by
  have hdash : ¬(mark = '-' ∧ cs.head? = some '-') := by cases h <;> simp
  have hmark : mark? mark = some (Quote.kind t) := by cases h <;> rfl
  have hplain : plainRule depth mark cs = ⟨.text, 0, .nested depth⟩ := by
    cases h <;> simp [plainRule, Token.IsSpace]
  have hbracket : bracket? (mark :: cs) = none := by cases h <;> rfl
  rw [rule, bracketRule?_of_not_dash hdash, dashesRule?_of_not_dash hdash, hbracket, quoteRule?,
    hmark, hplain]
  by_cases hd : depth = 0
  · cases closing? mark cs <;> simp [hd]
  · cases closing? mark cs <;> simp [hd]

/-! ## Text put together -/

theorem attach_nil (item : SegmentKind × List Char) : attach item [] = [item] := by
  obtain ⟨kind, text⟩ := item
  cases kind <;> rfl

/-- Only text is put together. -/
theorem attach_cons (item next : SegmentKind × List Char)
    (rest : List (SegmentKind × List Char)) :
    attach item (next :: rest)
      = if item.1 = .text ∧ next.1 = .text then (.text, item.2 ++ next.2) :: rest
        else item :: next :: rest := by
  obtain ⟨kind, text⟩ := item
  obtain ⟨kind', text'⟩ := next
  by_cases h : kind = .text ∧ kind' = .text
  · obtain ⟨rfl, rfl⟩ := h
    rfl
  · rw [if_neg h, attach]
    rintro _ _ _ ⟨⟩ ⟨⟩
    exact h ⟨rfl, rfl⟩

theorem attach_of_ne {item : SegmentKind × List Char} (h : item.1 ≠ .text)
    (rest : List (SegmentKind × List Char)) : attach item rest = item :: rest := by
  cases rest with
  | nil => exact attach_nil item
  | cons next rest => rw [attach_cons, if_neg fun hkinds => h hkinds.1]

theorem attach_before {item next : SegmentKind × List Char} (h : next.1 ≠ .text)
    (rest : List (SegmentKind × List Char)) :
    attach item (next :: rest) = item :: next :: rest := by
  rw [attach_cons, if_neg fun hkinds => h hkinds.2]

/-- Putting text together twice is putting it together once. -/
theorem attach_text (a b : List Char) (rest : List (SegmentKind × List Char)) :
    attach (.text, a) (attach (.text, b) rest) = attach (.text, a ++ b) rest := by
  cases rest with
  | nil => rfl
  | cons next rest =>
      obtain ⟨kind, text⟩ := next
      cases kind <;> simp [attach]

/-- Text read character by character is text read at once. -/
theorem foldr_attach_chars (c : Char) (cs : List Char) (rest : List (SegmentKind × List Char)) :
    ((c :: cs).map fun d => (SegmentKind.text, [d])).foldr attach rest
      = attach (.text, c :: cs) rest := by
  induction cs generalizing c with
  | nil => rfl
  | cons d cs ih =>
      rw [List.map_cons, List.foldr_cons, ih d, attach_text]
      rfl

theorem said_attach (group : Group (Token × List Char)) (gs : List (Group (Token × List Char))) :
    (group.attach gs).map Group.said = attach group.said (gs.map Group.said) := by
  obtain ⟨kind, first, rest⟩ := group
  cases gs with
  | nil => cases kind <;> rfl
  | cons next gs =>
      obtain ⟨kind', first', rest'⟩ := next
      cases kind <;> cases kind' <;> simp [Group.attach, Group.said, Group.members, attach]

theorem said_merge (gs : List (Group (Token × List Char))) :
    (Group.merge gs).map Group.said = (gs.map Group.said).foldr attach [] := by
  induction gs with
  | nil => rfl
  | cons group gs ih => rw [Group.merge_cons, said_attach, ih]; rfl

/-! ## The two readings agree -/

/-- The mode of the scanner of tokens. -/
def State.mode : State → Mode
  | .nested 0 => .code
  | .nested (depth + 1) => .longBracket (depth + 1)
  | .lineComment => .lineComment

/-- What the scanner of tokens makes of a text, before text is put together. -/
def readTokens (mode : Mode) (cs : List Char) : List (SegmentKind × List Char) :=
  (scan Prod.fst mode (split cs)).map Group.said

/-- The two readings of a text are the same once text is put together. -/
def Agree (state : State) (cs : List Char) : Prop :=
  (readTokens state.mode cs).foldr attach [] = (read state cs).foldr attach []

theorem read_cons {c : Char} {cs : List Char} {state : State} {r : Rule}
    (h : rule c cs state = r) :
    read state (c :: cs) = (r.kind, c :: cs.take r.extra) :: read r.state (cs.drop r.extra) := by
  subst h; rw [read]

theorem take_drop_takeWhile (p : Char → Bool) (cs : List Char) :
    cs.take (cs.takeWhile p).length = cs.takeWhile p
      ∧ cs.drop (cs.takeWhile p).length = cs.dropWhile p := by
  have htake := (List.prefix_iff_eq_take.mp (List.takeWhile_prefix p (l := cs))).symm
  have hcut := List.take_append_drop (cs.takeWhile p).length cs
  rw [htake] at hcut
  exact ⟨htake, List.append_cancel_left (hcut.trans List.takeWhile_append_dropWhile.symm)⟩

theorem rule_spaces {c : Char} (h : Token.IsSpace c) (depth : Nat) (cs : List Char) :
    rule c cs (.nested depth)
      = ⟨.whitespace, (cs.takeWhile (Token.IsSpace ·)).length, .nested depth⟩ := by
  rcases h with rfl | rfl | rfl | rfl <;>
    exact rule_plain (fun hc => absurd hc.1 (by decide)) (by decide) (by decide) rfl

/-- White space runs on. -/
theorem read_spaces {c : Char} (h : Token.IsSpace c) (depth : Nat) (cs : List Char) :
    read (.nested depth) (c :: cs)
      = (.whitespace, c :: cs.takeWhile (Token.IsSpace ·))
        :: read (.nested depth) (cs.dropWhile (Token.IsSpace ·)) := by
  obtain ⟨htake, hdrop⟩ := take_drop_takeWhile (Token.IsSpace ·) cs
  rw [read_cons (rule_spaces h depth cs), htake, hdrop]

theorem readTokens_cons {c : Char} {cs tail rest : List Char} {t : Token} {mode : Mode}
    {head : Head} {k : Nat} (hfirst : First c cs t tail rest)
    (hhead : Head.of mode t ((split rest).map Prod.fst) = head)
    (hb : Boundary rest head.extra k) :
    readTokens mode (c :: cs)
      = (head.kind, c :: cs.take (tail.length + k))
        :: readTokens head.mode (cs.drop (tail.length + k)) := by
  obtain ⟨htake, hdrop⟩ := hb
  unfold readTokens
  rw [hfirst.split, scan_cons Prod.fst mode (t, c :: tail) (split rest) hhead, List.map_cons,
    Group.said, Group.members, List.flatMap_cons, htake, hdrop, hfirst.text,
    List.take_length_add_append, List.drop_length_add_append]
  rfl

/-- A token, or several, that are one segment to both. -/
theorem agree_segment {c : Char} {cs tail rest : List Char} {t : Token} {state : State}
    {n k : Nat} (kind : SegmentKind) (state' : State) (ih : ∀ n state, Agree state (cs.drop n))
    (hfirst : First c cs t tail rest) (hb : Boundary rest n k)
    (hhead : Head.of state.mode t ((split rest).map Prod.fst) = ⟨kind, n, state'.mode⟩)
    (hrule : rule c cs state = ⟨kind, tail.length + k, state'⟩) : Agree state (c :: cs) := by
  unfold Agree
  rw [readTokens_cons hfirst hhead hb, read_cons hrule, List.foldr_cons, List.foldr_cons]
  exact congrArg (attach _) (ih _ state')

/-- A token that is text to the one, and so many characters of text to the other. -/
theorem agree_text {c : Char} {cs tail rest : List Char} {t : Token} {state : State}
    (ih : ∀ n state, Agree state (cs.drop n)) (hfirst : First c cs t tail rest)
    (hhead : Head.of state.mode t ((split rest).map Prod.fst) = Head.single .text state.mode)
    (hrule : ∀ d ∈ c :: tail, ∀ ds, rule d ds state = ⟨.text, 0, state⟩) :
    Agree state (c :: cs) := by
  -- the other reads the token character by character
  have hread : ∀ ds : List Char, (∀ d ∈ ds, ∀ es, rule d es state = ⟨.text, 0, state⟩) →
      read state (ds ++ rest) = ds.map (fun d => (.text, [d])) ++ read state rest := by
    intro ds
    induction ds with
    | nil => intro _; rfl
    | cons d ds hds =>
        intro h
        rw [List.cons_append, read_cons (h d List.mem_cons_self _), List.take_zero, List.drop_zero,
          hds (fun e he => h e (List.mem_cons_of_mem d he))]
        rfl
  have hrest : cs.drop tail.length = rest := by rw [hfirst.text, List.drop_left]
  have htail : cs.take tail.length = tail := by rw [hfirst.text, List.take_left]
  unfold Agree
  rw [readTokens_cons hfirst hhead (boundary_zero rest), Nat.add_zero, hrest, htail,
    List.foldr_cons, hfirst.text, ← List.cons_append, hread _ hrule, List.foldr_append,
    foldr_attach_chars]
  exact congrArg (attach _) (hrest ▸ ih tail.length state)

theorem agree_lineComment {c : Char} {cs : List Char} (ih : ∀ n state, Agree state (cs.drop n)) :
    Agree .lineComment (c :: cs) := by
  by_cases hn : c = '\n'
  · subst hn
    exact agree_segment .lineBreak (.nested 0) ih (Token.first_fixed rfl (fun _ => rfl) cs)
      (boundary_zero cs) rfl rfl
  · obtain ⟨t, tail, rest, hfirst⟩ := Token.exists_first c cs
    have ht : t ≠ .newline := by
      rintro rfl
      rcases hfirst.kind with hk | ⟨_, hk⟩ | ⟨_, hk⟩
      · exact hn (Token.starts_of_start hk.symm)
      · cases hk
      · cases hk
    refine agree_text ih hfirst ?_ ?_
    · unfold Head.of
      rw [State.mode, if_pos rfl, if_neg ht]
    · intro d hd ds
      have hd' : d ≠ '\n' := by
        rcases List.mem_cons.mp hd with rfl | hd
        · exact hn
        · rintro rfl; exact absurd (hfirst.inner _ hd) (by simp [IsInner, Token.start])
      rw [rule, if_neg hd']

theorem State.mode_ne (depth : Nat) : (State.nested depth).mode ≠ .lineComment := by
  cases depth <;> simp [State.mode]

theorem State.mode_eq_code_iff (depth : Nat) : (State.nested depth).mode = .code ↔ depth = 0 := by
  cases depth <;> simp [State.mode]

theorem delimiter_mode (depth : Nat) (delimiter : Delimiter) :
    delimiter.mode (State.nested depth).mode
      = (State.nested (if delimiter.opening then depth + 1 else depth - 1)).mode := by
  unfold Delimiter.mode
  cases delimiter.opening with
  | true => cases depth <;> rfl
  | false =>
      cases depth with
      | zero => rfl
      | succ depth => cases depth <;> rfl

/-- White space, an arrow, a brace or a newline: one token, one segment. -/
theorem agree_plain {c : Char} {cs tail rest : List Char} {t : Token} {depth : Nat}
    {kind : SegmentKind} (ih : ∀ n state, Agree state (cs.drop n))
    (hfirst : First c cs t tail rest)
    (hhead : Head.of (State.nested depth).mode t ((split rest).map Prod.fst)
      = Head.single kind (State.nested depth).mode)
    (hdash : ¬(c = '-' ∧ cs.head? = some '-')) (ho : c ≠ '[') (hc : c ≠ ']')
    (hmark : mark? c = none) (hplain : plainRule depth c cs = ⟨kind, tail.length, .nested depth⟩) :
    Agree (.nested depth) (c :: cs) :=
  agree_segment kind (.nested depth) ih hfirst (boundary_zero rest) hhead
    ((rule_plain hdash ho hc hmark).trans hplain)

theorem agree_dashes {cs : List Char} {depth : Nat}
    (ih : ∀ n state, Agree state (('-' :: cs).drop n)) :
    Agree (.nested depth) ('-' :: '-' :: cs) := by
  have hrule := rule_dashes depth cs
  have hhead : Head.of (State.nested depth).mode .doubleDash ((split cs).map Prod.fst)
      = Head.ofDashes (State.nested depth).mode ((split cs).map Prod.fst) :=
    if_neg (State.mode_ne depth)
  obtain ⟨hat, hbound⟩ := at?_split cs
  rw [Head.ofDashes, hat] at hhead
  cases hb : bracket? cs with
  | some delimiter =>
      -- the comment mark and the delimiter are one segment
      rw [hb] at hrule hhead
      dsimp only at hrule hhead
      rw [delimiter_mode] at hhead
      refine agree_segment _ _ ih (Token.first_dashes cs) (hbound delimiter hb) hhead ?_
      rw [hrule, delimiterRule, if_pos rfl, List.length_singleton, Nat.add_comm 1]
      rfl
  | none =>
      rw [hb] at hrule hhead
      dsimp only at hrule hhead
      by_cases hd : depth = 0
      · rw [if_pos ((State.mode_eq_code_iff depth).mpr hd)] at hhead
        rw [if_pos hd] at hrule
        exact agree_segment .lineComment .lineComment ih (Token.first_dashes cs)
          (boundary_zero cs) hhead hrule
      · rw [if_neg (fun h => hd ((State.mode_eq_code_iff depth).mp h))] at hhead
        rw [if_neg hd] at hrule
        exact agree_segment .text (.nested depth) ih (Token.first_dashes cs) (boundary_zero cs)
          hhead hrule

theorem agree_square {square : Char} {t : Token} (h : Square square t) {cs : List Char}
    {depth : Nat} (ih : ∀ n state, Agree state (cs.drop n)) :
    Agree (.nested depth) (square :: cs) := by
  have hfirst := Token.first_fixed h.start h.fixed cs
  have hrule := rule_square h depth cs
  have hhead : Head.of (State.nested depth).mode t ((split cs).map Prod.fst)
      = Head.ofSquare (State.nested depth).mode t ((split cs).map Prod.fst) := by
    cases h <;> exact if_neg (State.mode_ne depth)
  obtain ⟨hat, hbound⟩ := at?_split (square :: cs)
  rw [hfirst.split, List.map_cons] at hat
  rw [Head.ofSquare, hat] at hhead
  cases hb : bracket? (square :: cs) with
  | some delimiter =>
      rw [hb] at hrule hhead
      dsimp only at hrule hhead
      rw [delimiter_mode] at hhead
      -- the delimiter is cut off behind its first bracket
      have hcut : Boundary cs (delimiter.level + 1) (delimiter.level + 1) := by
        have hall := hbound delimiter hb
        unfold Boundary at hall
        rw [hfirst.split] at hall
        exact ⟨(List.cons.inj hall.1).2, hall.2⟩
      refine agree_segment _ _ ih hfirst hcut hhead ?_
      rw [hrule, delimiterRule, List.length_nil, Nat.zero_add]
      rfl
  | none =>
      rw [hb] at hrule hhead
      exact agree_segment .text (.nested depth) ih hfirst (boundary_zero cs) hhead hrule

theorem agree_quote {mark : Char} {t : Token} (h : Quote mark t) {cs : List Char} {depth : Nat}
    (ih : ∀ n state, Agree state (cs.drop n)) : Agree (.nested depth) (mark :: cs) := by
  have hfirst := Token.first_fixed h.start h.fixed cs
  have hrule := rule_quote h depth cs
  have hhead : Head.of (State.nested depth).mode t ((split cs).map Prod.fst)
      = Head.ofQuote (State.nested depth).mode t (Quote.kind t) ((split cs).map Prod.fst) := by
    cases h <;> exact if_neg (State.mode_ne depth)
  rw [Head.ofQuote] at hhead
  by_cases hd : depth = 0
  · rw [if_pos ((State.mode_eq_code_iff depth).mpr hd)] at hhead
    rw [if_pos hd] at hrule
    -- both find the closing mark, or neither does
    have hrel := closing?_split h cs
    cases hq : closingQuote? t ((split cs).map Prod.fst) with
    | none =>
        rw [hq] at hhead hrel
        cases hc : closing? mark cs with
        | none =>
            rw [hc] at hrule
            exact agree_segment .text (.nested depth) ih hfirst (boundary_zero cs) hhead hrule
        | some k => rw [hc] at hrel; cases hrel
    | some n =>
        rw [hq] at hhead hrel
        cases hc : closing? mark cs with
        | none => rw [hc] at hrel; cases hrel
        | some k =>
            rw [hc] at hrule hrel
            cases hrel with
            | some hb =>
                refine agree_segment _ (.nested depth) ih hfirst hb hhead ?_
                rw [hrule, List.length_nil, Nat.zero_add]
  · rw [if_neg (fun hm => hd ((State.mode_eq_code_iff depth).mp hm))] at hhead
    rw [if_neg hd] at hrule
    exact agree_segment .text (.nested depth) ih hfirst (boundary_zero cs) hhead hrule

theorem agree_whitespace {c : Char} (hc : Token.IsSpace c) {cs : List Char} {depth : Nat}
    (ih : ∀ n state, Agree state (cs.drop n)) : Agree (.nested depth) (c :: cs) := by
  have hfirst := Token.first_whitespace (Token.start_space hc) cs
  have hrun : (fun d => decide (Token.start d = .whitespace))
      = (fun d => decide (Token.IsSpace d)) :=
    funext fun d => decide_eq_decide.mpr Token.start_eq_whitespace_iff
  rw [hrun] at hfirst
  have hne : c ≠ '-' ∧ c ≠ '[' ∧ c ≠ ']' ∧ c ≠ '"' ∧ c ≠ '\x27' ∧ c ≠ '\n' := by
    rcases hc with rfl | rfl | rfl | rfl <;> decide
  obtain ⟨hdash, ho, hcl, hdq, hsq, hn⟩ := hne
  refine agree_plain ih hfirst (if_neg (State.mode_ne depth)) (fun h => hdash h.1) ho hcl
    (mark?_eq_none hdq hsq) ?_
  rw [plainRule, if_neg hn, if_pos hc]

theorem agree_textRun {c : Char} (hc : Token.start c = .text) {cs : List Char} {depth : Nat}
    (ih : ∀ n state, Agree state (cs.drop n)) : Agree (.nested depth) (c :: cs) := by
  refine agree_text ih (Token.first_text hc cs) (if_neg (State.mode_ne depth)) ?_
  intro d hd ds
  have hstart : Token.start d = .text := by
    rcases List.mem_cons.mp hd with rfl | hd
    · exact hc
    · exact of_decide_eq_true (List.all_eq_true.mp List.all_takeWhile d hd)
  have hd' : d ∉ Token.special := Token.starts_of_start hstart
  simp only [Token.special, List.mem_cons, List.not_mem_nil, or_false, not_or] at hd'
  obtain ⟨hn, h1, h2, h3, h4, hdash, ho, hcl, heq, hob, hcb, hdq, hsq, -⟩ := hd'
  rw [rule_plain (fun h => hdash h.1) ho hcl (mark?_eq_none hdq hsq), plainRule, if_neg hn,
    if_neg (by rintro (h | h | h | h) <;> contradiction), if_neg (fun h => heq h.1), if_neg hob,
    if_neg hcb]

theorem agree_nested {c : Char} {cs : List Char} {depth : Nat}
    (ih : ∀ n state, Agree state (cs.drop n)) : Agree (.nested depth) (c :: cs) := by
  have hmode := State.mode_ne depth
  -- the first token is of the kind that its first character starts, but for `--` and `=>`
  cases hc : Token.start c with
  | whitespace => exact agree_whitespace (Token.starts_of_start hc) ih
  | text => exact agree_textRun hc ih
  | doubleDash => exact (Token.starts_of_start hc).elim
  | arrow => exact (Token.starts_of_start hc).elim
  | openBracket =>
      obtain rfl := Token.starts_of_start hc
      exact agree_square .opening ih
  | closeBracket =>
      obtain rfl := Token.starts_of_start hc
      exact agree_square .closing ih
  | doubleQuote =>
      obtain rfl := Token.starts_of_start hc
      exact agree_quote .double ih
  | singleQuote =>
      obtain rfl := Token.starts_of_start hc
      exact agree_quote .single ih
  | dash =>
      obtain rfl := Token.starts_of_start hc
      by_cases hd : cs.head? = some '-'
      · obtain ⟨cs, rfl⟩ := List.head?_eq_some_iff.mp hd
        exact agree_dashes ih
      · exact agree_plain ih (Token.first_dash hd) (if_neg hmode) (fun h => hd h.2) (by decide)
          (by decide) rfl (by simp [plainRule, Token.IsSpace])
  | equals =>
      obtain rfl := Token.starts_of_start hc
      by_cases hd : cs.head? = some '>'
      · obtain ⟨cs, rfl⟩ := List.head?_eq_some_iff.mp hd
        exact agree_plain ih (Token.first_arrow cs) (if_neg hmode) (by simp) (by decide)
          (by decide) rfl (by simp [plainRule, Token.IsSpace])
      · exact agree_plain ih (Token.first_equals hd) (if_neg hmode) (by simp) (by decide)
          (by decide) rfl (by simp [plainRule, Token.IsSpace, hd])
  | newline =>
      obtain rfl := Token.starts_of_start hc
      exact agree_plain ih (Token.first_fixed hc (fun _ => rfl) cs) (if_neg hmode) (by simp)
        (by decide) (by decide) rfl rfl
  | openBrace =>
      obtain rfl := Token.starts_of_start hc
      exact agree_plain ih (Token.first_fixed hc (fun _ => rfl) cs) (if_neg hmode) (by simp)
        (by decide) (by decide) rfl (by simp [plainRule, Token.IsSpace])
  | closeBrace =>
      obtain rfl := Token.starts_of_start hc
      exact agree_plain ih (Token.first_fixed hc (fun _ => rfl) cs) (if_neg hmode) (by simp)
        (by decide) (by decide) rfl (by simp [plainRule, Token.IsSpace])
  | backslash =>
      obtain rfl := Token.starts_of_start hc
      exact agree_plain ih (Token.first_fixed hc (fun _ => rfl) cs) (if_neg hmode) (by simp)
        (by decide) (by decide) rfl (by simp [plainRule, Token.IsSpace])

/-- **The two readings agree** wherever the reader stands. -/
theorem agree (cs : List Char) : ∀ state, Agree state cs := by
  induction cs using dropInduction with
  | nil => intro state; unfold Agree readTokens; rw [read]; simp [split]
  | cons c cs ih =>
      intro state
      cases state with
      | nested depth => exact agree_nested ih
      | lineComment => exact agree_lineComment ih

theorem bareSegments_eq (cs : List Char) : bareSegments cs = segments cs := by
  rw [bareSegments, groups_eq_scan, said_merge]
  exact agree cs (.nested 0)

/-- **The two-stage lexer recognises the grammar of characters**, and its segments lie end to end
from the start of the source. -/
theorem lex_eq_grammar (cs : List Char) : lex cs = Lexeme.layOut 0 (segments cs) := by
  rw [lex_eq_layOut, bareSegments_eq]

end Keybind.Grammar
