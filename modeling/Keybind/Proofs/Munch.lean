import Keybind.Token

/-!
# The first token of a text

A token ends where the next character does not extend it, and what follows is
cut as if the text began there. So `split` can be read one token at a time. The
tokens fall into three families: those that are one character and never grow,
the runs of white space and of text, and the two characters `-` and `=` that
may become `--` and `=>`.

Whatever its family, a token hides nothing: only its first character can be a
newline, a quotation mark or a backslash (`exists_first`).
-/

namespace Keybind.Token

/-- The kinds of token that are one character whatever follows. -/
def IsFixed (t : Token) : Prop :=
  ∀ c, t.extend? c = none

/-- The kinds of token that go on as long as their characters do. -/
def IsRun (t : Token) : Prop :=
  ∀ c, t.extend? c = if start c = t then some t else none

theorem isRun_whitespace : IsRun .whitespace := fun _ => rfl

theorem isRun_text : IsRun .text := fun _ => rfl

theorem splitFrom_fixed {t : Token} (h : t.IsFixed) (read cs : List Char) :
    splitFrom t read cs = (t, read.reverse) :: split cs := by
  cases cs with
  | nil => rfl
  | cons c cs => rw [splitFrom, h c]; rfl

theorem splitFrom_run {t : Token} (h : t.IsRun) (read cs : List Char) :
    splitFrom t read cs
      = (t, read.reverse ++ cs.takeWhile (start · = t)) :: split (cs.dropWhile (start · = t)) := by
  induction cs generalizing read with
  | nil => simp [splitFrom, split]
  | cons c cs ih =>
      rw [splitFrom, h c]
      by_cases hc : start c = t
      · rw [if_pos hc]
        dsimp only
        rw [ih]
        simp [hc]
      · rw [if_neg hc]
        simp [hc, split]

theorem split_fixed {c : Char} (h : (start c).IsFixed) (cs : List Char) :
    split (c :: cs) = (start c, [c]) :: split cs :=
  splitFrom_fixed h [c] cs

theorem split_run {c : Char} (h : (start c).IsRun) (cs : List Char) :
    split (c :: cs)
      = (start c, c :: cs.takeWhile (start · = start c))
        :: split (cs.dropWhile (start · = start c)) :=
  splitFrom_run h [c] cs

theorem split_dashes (cs : List Char) :
    split ('-' :: '-' :: cs) = (.doubleDash, ['-', '-']) :: split cs :=
  splitFrom_fixed (fun _ => rfl) ['-', '-'] cs

theorem split_arrow (cs : List Char) :
    split ('=' :: '>' :: cs) = (.arrow, ['=', '>']) :: split cs :=
  splitFrom_fixed (fun _ => rfl) ['>', '='] cs

theorem split_dash {cs : List Char} (h : cs.head? ≠ some '-') :
    split ('-' :: cs) = (.dash, ['-']) :: split cs := by
  cases cs with
  | nil => rfl
  | cons c cs =>
      have hc : extend? .dash c = none := if_neg (fun he => h (by rw [he]; rfl))
      show splitFrom .dash ['-'] (c :: cs) = _
      rw [splitFrom, hc]
      rfl

theorem split_equals {cs : List Char} (h : cs.head? ≠ some '>') :
    split ('=' :: cs) = (.equals, ['=']) :: split cs := by
  cases cs with
  | nil => rfl
  | cons c cs =>
      have hc : extend? .equals c = none := if_neg (fun he => h (by rw [he]; rfl))
      show splitFrom .equals ['='] (c :: cs) = _
      rw [splitFrom, hc]
      rfl

/-! ## Which characters start which token -/

/-- White space within a line. -/
def IsSpace (c : Char) : Prop :=
  c = ' ' ∨ c = '\t' ∨ c = '\r' ∨ c = '\x0c'

instance (c : Char) : Decidable (IsSpace c) :=
  inferInstanceAs (Decidable (_ ∨ _))

/-- The characters that are not text. -/
def special : List Char :=
  ['\n', ' ', '\t', '\r', '\x0c', '-', '[', ']', '=', '{', '}', '"', '\x27', '\\']

/-- The characters that a kind of token starts with. -/
def Starts (c : Char) : Token → Prop
  | .newline => c = '\n'
  | .whitespace => IsSpace c
  | .dash => c = '-'
  | .openBracket => c = '['
  | .closeBracket => c = ']'
  | .equals => c = '='
  | .openBrace => c = '{'
  | .closeBrace => c = '}'
  | .doubleQuote => c = '"'
  | .singleQuote => c = '\x27'
  | .backslash => c = '\\'
  | .text => c ∉ special
  | .doubleDash | .arrow => False

theorem starts_start (c : Char) : Starts c (start c) := by
  unfold start
  split <;> simp_all [Starts, IsSpace, special]

theorem starts_of_start {c : Char} {t : Token} (h : start c = t) : Starts c t :=
  h ▸ starts_start c

theorem start_space {c : Char} (h : IsSpace c) : start c = .whitespace := by
  rcases h with rfl | rfl | rfl | rfl <;> rfl

theorem start_eq_whitespace_iff {c : Char} : start c = .whitespace ↔ IsSpace c := by
  exact ⟨starts_of_start, start_space⟩

/-- The characters that a token may have after its first. -/
def IsInner (c : Char) : Prop :=
  start c = .whitespace ∨ start c = .text ∨ start c = .dash

/-- The first token of `c :: cs` is `t`: it goes on with `tail`, and `rest` is split as it
stands. A token of another kind than its first character is one of the two that grow once. -/
structure First (c : Char) (cs : List Char) (t : Token) (tail rest : List Char) : Prop where
  text : cs = tail ++ rest
  split : split (c :: cs) = (t, c :: tail) :: split rest
  inner : ∀ d ∈ tail, IsInner d
  kind : t = start c ∨ (c = '-' ∧ t = .doubleDash) ∨ (c = '=' ∧ t = .arrow)

theorem first_fixed {c : Char} {t : Token} (hc : start c = t) (h : t.IsFixed) (cs : List Char) :
    First c cs t [] cs := by
  subst hc
  exact ⟨rfl, split_fixed h cs, by simp, .inl rfl⟩

theorem first_run {c : Char} {t : Token} (hc : start c = t) (h : t.IsRun) (cs : List Char)
    (hinner : ∀ d, start d = t → IsInner d) :
    First c cs t (cs.takeWhile (start · = t)) (cs.dropWhile (start · = t)) := by
  subst hc
  refine ⟨List.takeWhile_append_dropWhile.symm, split_run h cs, ?_, .inl rfl⟩
  intro d hd
  exact hinner d (of_decide_eq_true (List.all_eq_true.mp List.all_takeWhile d hd))

theorem first_whitespace {c : Char} (hc : start c = .whitespace) (cs : List Char) :
    First c cs .whitespace (cs.takeWhile (start · = .whitespace))
      (cs.dropWhile (start · = .whitespace)) :=
  first_run hc isRun_whitespace cs (fun _ => .inl)

theorem first_text {c : Char} (hc : start c = .text) (cs : List Char) :
    First c cs .text (cs.takeWhile (start · = .text)) (cs.dropWhile (start · = .text)) :=
  first_run hc isRun_text cs (fun _ hd => .inr (.inl hd))

theorem first_dashes (cs : List Char) : First '-' ('-' :: cs) .doubleDash ['-'] cs :=
  ⟨rfl, split_dashes cs, by simp [IsInner, start], .inr (.inl ⟨rfl, rfl⟩)⟩

theorem first_arrow (cs : List Char) : First '=' ('>' :: cs) .arrow ['>'] cs :=
  ⟨rfl, split_arrow cs, by simp [IsInner, start], .inr (.inr ⟨rfl, rfl⟩)⟩

theorem first_dash {cs : List Char} (h : cs.head? ≠ some '-') : First '-' cs .dash [] cs :=
  ⟨rfl, split_dash h, by simp, .inl rfl⟩

theorem first_equals {cs : List Char} (h : cs.head? ≠ some '>') : First '=' cs .equals [] cs :=
  ⟨rfl, split_equals h, by simp, .inl rfl⟩

/-- **One token at a time.** -/
theorem exists_first (c : Char) (cs : List Char) : ∃ t tail rest, First c cs t tail rest := by
  cases hc : start c with
  | whitespace => exact ⟨_, _, _, first_whitespace hc cs⟩
  | text => exact ⟨_, _, _, first_text hc cs⟩
  -- a dash and an equals sign grow at most once
  | dash =>
      obtain rfl := starts_of_start hc
      by_cases hd : cs.head? = some '-'
      · obtain ⟨cs, rfl⟩ := List.head?_eq_some_iff.mp hd
        exact ⟨_, _, _, first_dashes cs⟩
      · exact ⟨_, _, _, first_dash hd⟩
  | equals =>
      obtain rfl := starts_of_start hc
      by_cases hd : cs.head? = some '>'
      · obtain ⟨cs, rfl⟩ := List.head?_eq_some_iff.mp hd
        exact ⟨_, _, _, first_arrow cs⟩
      · exact ⟨_, _, _, first_equals hd⟩
  | doubleDash => exact (starts_of_start hc).elim
  | arrow => exact (starts_of_start hc).elim
  | newline => exact ⟨_, _, _, first_fixed hc (fun _ => rfl) cs⟩
  | openBracket => exact ⟨_, _, _, first_fixed hc (fun _ => rfl) cs⟩
  | closeBracket => exact ⟨_, _, _, first_fixed hc (fun _ => rfl) cs⟩
  | openBrace => exact ⟨_, _, _, first_fixed hc (fun _ => rfl) cs⟩
  | closeBrace => exact ⟨_, _, _, first_fixed hc (fun _ => rfl) cs⟩
  | doubleQuote => exact ⟨_, _, _, first_fixed hc (fun _ => rfl) cs⟩
  | singleQuote => exact ⟨_, _, _, first_fixed hc (fun _ => rfl) cs⟩
  | backslash => exact ⟨_, _, _, first_fixed hc (fun _ => rfl) cs⟩

end Keybind.Token
