import Keybind.Parser
import Mathlib.Data.List.TakeWhile

/-!
# What parsers read

A parser is described by a relation between what it gives and what it takes.
`Sound` says that all it takes is so described; that it also takes whatever is so
described depends on what follows in the text, and is shown parser by parser.

Repetition is bounded by the length of the text. As long as every item takes
something the bound is never met, so that `many` is read off item by item
(`many_cons`), and so is `separated`.
-/

namespace Keybind.Parser

variable {α β : Type} {p : Parser α} {a : α} {cs rest middle : List Char}

/-- What the parser takes is described by the relation. -/
def Sound (p : Parser α) (R : α → List Char → Prop) : Prop :=
  ∀ {cs a rest}, p cs = some (a, rest) → ∃ ds, cs = ds ++ rest ∧ R a ds

/-- The parser takes something, or refuses. -/
def Advances (p : Parser α) : Prop :=
  ∀ {cs a rest}, p cs = some (a, rest) → rest.length < cs.length

theorem Sound.advances {R : α → List Char → Prop} (h : Sound p R)
    (hne : ∀ {a ds}, R a ds → ds ≠ []) : Advances p := by
  intro cs a rest hp
  obtain ⟨ds, rfl, hds⟩ := h hp
  have hpos := List.length_pos_iff.mpr (hne hds)
  rw [List.length_append]
  omega

/-! ## One after the other -/

theorem bind_some {f : α → Parser β} (h : p cs = some (a, middle)) :
    (p >>= f) cs = f a middle := by
  change (p cs).bind (fun x => f x.1 x.2) = _
  rw [h]
  rfl

theorem bind_none {f : α → Parser β} (h : p cs = none) : (p >>= f) cs = none := by
  change (p cs).bind (fun x => f x.1 x.2) = _
  rw [h]
  rfl

theorem bind_eq_some_iff {f : α → Parser β} {b : β} :
    (p >>= f) cs = some (b, rest)
      ↔ ∃ a middle, p cs = some (a, middle) ∧ f a middle = some (b, rest) := by
  constructor
  · intro h
    cases hp : p cs with
    | none => rw [bind_none hp] at h; cases h
    | some result => exact ⟨result.1, result.2, rfl, by rwa [bind_some hp] at h⟩
  · rintro ⟨a, middle, hp, hf⟩
    rw [bind_some hp, hf]

theorem pure_eq_some_iff {b : α} : (pure b : Parser α) cs = some (a, rest) ↔ b = a ∧ cs = rest := by
  change some (b, cs) = some (a, rest) ↔ _
  rw [Option.some_inj, Prod.mk.injEq]

theorem map_some {f : α → β} (h : p cs = some (a, rest)) : (f <$> p) cs = some (f a, rest) := by
  change (p cs).bind (fun x => some (f x.1, x.2)) = _
  rw [h]
  rfl

theorem map_eq_some_iff {f : α → β} {b : β} :
    (f <$> p) cs = some (b, rest) ↔ ∃ a, p cs = some (a, rest) ∧ f a = b := by
  constructor
  · intro h
    cases hp : p cs with
    | none =>
        change (p cs).bind (fun x => some (f x.1, x.2)) = _ at h
        rw [hp] at h
        cases h
    | some result =>
        rw [map_some hp] at h
        cases h
        exact ⟨result.1, rfl, rfl⟩
  · rintro ⟨a, hp, rfl⟩
    exact map_some hp

theorem orElse_some {q : Parser α} (h : p cs = some (a, rest)) :
    (p <|> q) cs = some (a, rest) := by
  change (p cs).orElse (fun _ => q cs) = _
  rw [h]
  rfl

theorem orElse_none {q : Parser α} (h : p cs = none) : (p <|> q) cs = q cs := by
  change (p cs).orElse (fun _ => q cs) = _
  rw [h]
  rfl

theorem seqRight_eq_bind (p : Parser α) (q : Parser β) : p *> q = p >>= fun _ => q :=
  rfl

/-! ## Characters -/

theorem only_cons (c : Char) (cs : List Char) : only c (c :: cs) = some (c, cs) := by
  simp [only, char]

theorem only_eq_some_iff {c d : Char} : only c cs = some (d, rest) ↔ d = c ∧ cs = c :: rest := by
  constructor
  · intro h
    cases cs with
    | nil => cases h
    | cons e cs =>
        rw [only, char] at h
        split at h
        · rename_i he
          cases h
          exact ⟨of_decide_eq_true he, by rw [of_decide_eq_true he]⟩
        · cases h
  · rintro ⟨rfl, rfl⟩
    exact only_cons d rest

theorem only_none {c : Char} (h : cs.head? ≠ some c) : only c cs = none := by
  cases cs with
  | nil => rfl
  | cons d cs =>
      have hne : d ≠ c := fun hd => h (congrArg some hd)
      simp [only, char, hne]

theorem only_sound (c : Char) : Sound (only c) fun _ cs => cs = [c] := by
  intro cs d rest h
  obtain ⟨-, rfl⟩ := only_eq_some_iff.mp h
  exact ⟨[c], rfl, rfl⟩

theorem word_eq_some_iff {w : List Char} {u : Unit} :
    word w cs = some (u, rest) ↔ cs = w ++ rest := by
  induction w generalizing cs with
  | nil =>
      rw [word, pure_eq_some_iff]
      simp
  | cons c w ih =>
      rw [word, bind_eq_some_iff]
      constructor
      · rintro ⟨d, middle, hfirst, hrest⟩
        obtain ⟨-, rfl⟩ := only_eq_some_iff.mp hfirst
        rw [ih.mp hrest]
        rfl
      · rintro rfl
        exact ⟨c, w ++ rest, only_cons _ _, ih.mpr rfl⟩

theorem takeWhile_some (accept : Char → Bool) (cs : List Char) :
    takeWhile accept cs = some (cs.takeWhile accept, cs.dropWhile accept) :=
  rfl

/-- A run is taken as far as it goes. -/
theorem takeWhile_append {accept : Char → Bool} {ds : List Char}
    (h : ∀ c ∈ ds, accept c = true) (hrest : ∀ c ∈ rest.head?, accept c = false) :
    takeWhile accept (ds ++ rest) = some (ds, rest) := by
  have hstop : rest.takeWhile accept = [] ∧ rest.dropWhile accept = rest := by
    cases rest with
    | nil => exact ⟨rfl, rfl⟩
    | cons c rest =>
        have hc := hrest c rfl
        exact ⟨List.takeWhile_cons_of_neg (by simp [hc]), List.dropWhile_cons_of_neg (by simp [hc])⟩
  rw [takeWhile_some, List.takeWhile_append_of_pos h, List.dropWhile_append_of_pos h, hstop.1,
    hstop.2, List.append_nil]

theorem takeWhile_sound (accept : Char → Bool) :
    Sound (takeWhile accept) fun ds es => ds = es ∧ ∀ c ∈ es, accept c = true := by
  intro cs ds rest h
  rw [takeWhile_some] at h
  cases h
  refine ⟨cs.takeWhile accept, List.takeWhile_append_dropWhile.symm, rfl, fun c hc => ?_⟩
  exact List.mem_takeWhile_imp hc

/-! ## Repetition -/

theorem atMost_cons {n : Nat} {as : List α} (h : p cs = some (a, middle))
    (hrest : atMost p n middle = some (as, rest)) :
    atMost p (n + 1) cs = some (a :: as, rest) := by
  refine orElse_some ?_
  rw [bind_some h, bind_some hrest]
  rfl

theorem atMost_nil (h : p cs = none) (n : Nat) : atMost p n cs = some ([], cs) := by
  cases n with
  | zero => rfl
  | succ n => exact orElse_none (bind_none h)

/-- Repetition never refuses. -/
theorem exists_atMost (p : Parser α) (n : Nat) (cs : List Char) :
    ∃ as rest, atMost p n cs = some (as, rest) := by
  induction n generalizing cs with
  | zero => exact ⟨[], cs, rfl⟩
  | succ n ih =>
      cases hp : p cs with
      | none => exact ⟨[], cs, atMost_nil hp _⟩
      | some result =>
          obtain ⟨as, rest, hrest⟩ := ih result.2
          exact ⟨result.1 :: as, rest, atMost_cons hp hrest⟩

/-- A bound that is not less than the length of the text does not matter. -/
theorem atMost_eq_atMost (hp : Advances p) {m n : Nat} (hm : cs.length ≤ m) (hn : cs.length ≤ n) :
    atMost p m cs = atMost p n cs := by
  induction m generalizing n cs with
  | zero =>
      -- nothing is left, and the parser would have to take something
      have hnil : p cs = none := by
        cases hcs : p cs with
        | none => rfl
        | some result =>
            have hlt := hp hcs
            omega
      rw [atMost_nil hnil, atMost_nil hnil]
  | succ m ih =>
      cases hcs : p cs with
      | none => rw [atMost_nil hcs, atMost_nil hcs]
      | some result =>
          have hlt := hp hcs
          obtain ⟨n, rfl⟩ := Nat.exists_eq_succ_of_ne_zero (show n ≠ 0 by omega)
          obtain ⟨as, rest, hrest⟩ := exists_atMost p m result.2
          have hsame : atMost p m result.2 = atMost p n result.2 := ih (by omega) (by omega)
          rw [atMost_cons hcs hrest, atMost_cons hcs (hsame ▸ hrest)]

theorem many_nil (h : p cs = none) : many p cs = some ([], cs) :=
  atMost_nil h _

/-- **Items are read one by one.** -/
theorem many_cons (hp : Advances p) {as : List α} (h : p cs = some (a, middle))
    (hrest : many p middle = some (as, rest)) : many p cs = some (a :: as, rest) := by
  have hlt := hp h
  obtain ⟨n, hn⟩ := Nat.exists_eq_succ_of_ne_zero (show cs.length ≠ 0 by omega)
  rw [many, hn]
  refine atMost_cons h ?_
  rw [atMost_eq_atMost hp (show middle.length ≤ n by omega) (Nat.le_refl _)]
  exact hrest

theorem many_one (h : p cs = some (a, rest)) (hcs : cs ≠ []) (hrest : p rest = none) :
    many p cs = some ([a], rest) := by
  obtain ⟨c, cs, rfl⟩ := List.exists_cons_of_ne_nil hcs
  exact atMost_cons h (atMost_nil hrest _)

/-- A run of characters, each of which is an item. -/
theorem many_chars {accept : Char → Bool} {other : Parser Char} {ds : List Char}
    (hds : ∀ c ∈ ds, accept c = true) (hrest : (char accept <|> other) rest = none) :
    many (char accept <|> other) (ds ++ rest) = some (ds, rest) := by
  have hbounded : ∀ n, ds.length ≤ n →
      atMost (char accept <|> other) n (ds ++ rest) = some (ds, rest) := by
    induction ds with
    | nil => exact fun n _ => atMost_nil hrest n
    | cons c ds ih =>
        intro n hn
        obtain ⟨n, rfl⟩ := Nat.exists_eq_succ_of_ne_zero (Nat.ne_zero_of_lt hn)
        have hc : (char accept <|> other) (c :: (ds ++ rest)) = some (c, ds ++ rest) :=
          orElse_some (if_pos (hds c List.mem_cons_self))
        exact atMost_cons hc (ih (fun d hd => hds d (List.mem_cons_of_mem _ hd)) n
          (Nat.le_of_succ_le_succ hn))
  exact hbounded _ (by simp)

/-- Texts one after the other, one for each item. -/
inductive Each (R : α → List Char → Prop) : List α → List Char → Prop where
  | nil : Each R [] []
  | cons {a : α} {as : List α} {cs ds : List Char} : R a cs → Each R as ds →
      Each R (a :: as) (cs ++ ds)

theorem each_flatMap {R : α → List Char → Prop} {f : α → List Char} (h : ∀ a, R a (f a))
    (as : List α) : Each R as (as.flatMap f) := by
  induction as with
  | nil => exact .nil
  | cons a as ih => exact .cons (h a) ih

theorem many_sound {R : α → List Char → Prop} (hp : Sound p R) : Sound (many p) (Each R) := by
  -- whatever the bound is, so that it may go down with each item
  have hbounded : ∀ n, Sound (atMost p n) (Each R) := by
    intro n
    induction n with
    | zero =>
        intro cs as rest h
        cases h
        exact ⟨[], rfl, .nil⟩
    | succ n ih =>
        intro cs as rest h
        cases hcs : p cs with
        | none =>
            rw [atMost_nil hcs] at h
            cases h
            exact ⟨[], rfl, .nil⟩
        | some result =>
            obtain ⟨others, last, hrest⟩ := exists_atMost p n result.2
            rw [atMost_cons hcs hrest] at h
            cases h
            obtain ⟨ds, rfl, hfirst⟩ := hp hcs
            obtain ⟨es, hes, hothers⟩ := ih hrest
            exact ⟨ds ++ es, by rw [hes, List.append_assoc], .cons hfirst hothers⟩
  intro cs as rest h
  exact hbounded cs.length h

/-- Items that are read whatever follows are all read. -/
theorem many_complete {R : α → List Char → Prop} (hp : Advances p)
    (hread : ∀ {a ds rest}, R a ds → p (ds ++ rest) = some (a, rest)) (hrest : p rest = none)
    {as : List α} {ds : List Char} (h : Each R as ds) : many p (ds ++ rest) = some (as, rest) := by
  induction h with
  | nil => exact many_nil hrest
  | cons hfirst _ ih =>
      rw [List.append_assoc]
      exact many_cons hp (hread hfirst) ih

/-! ## Separated items -/

theorem separated_nil {separator : Parser β} (h : p cs = none) :
    separated p separator cs = some ([], cs) :=
  orElse_none (bind_none h)

theorem separated_cons {separator : Parser β} {as : List α} (h : p cs = some (a, middle))
    (hrest : many (separator *> p) middle = some (as, rest)) :
    separated p separator cs = some (a :: as, rest) := by
  refine orElse_some ?_
  rw [bind_some h, bind_some hrest]
  rfl

/-- **What separated items are**: none, or one and then others, each behind a separator. -/
theorem separated_cases {separator : Parser β} {as : List α}
    (h : separated p separator cs = some (as, rest)) :
    (as = [] ∧ rest = cs ∧ p cs = none)
      ∨ ∃ a others middle, as = a :: others ∧ p cs = some (a, middle)
        ∧ many (separator *> p) middle = some (others, rest) := by
  cases hp : p cs with
  | none =>
      rw [separated_nil hp] at h
      cases h
      exact .inl ⟨rfl, rfl, rfl⟩
  | some result =>
      obtain ⟨others, last, hrest⟩ := exists_atMost (separator *> p) result.2.length result.2
      rw [separated_cons hp hrest] at h
      cases h
      exact .inr ⟨result.1, others, result.2, rfl, rfl, hrest⟩

end Keybind.Parser
