import Keybind.Proofs.Groups

/-!
# Lexemes that lie end to end

`Lexeme.layOut` puts texts one after the other, so its lexemes cover a stretch
of the source without gaps. Joining a run of such lexemes is the same as laying
out the run's whole text. Hence a source can be lexed without looking at a
single span: group the bare tokens, put the texts of each group together, and
lay the result out from the start of the source (`lex_eq_layOut`).
-/

namespace Keybind

variable {κ ι : Type}

theorem Text.byteSize_append (xs ys : List Char) :
    Text.byteSize (xs ++ ys) = Text.byteSize xs + Text.byteSize ys := by
  induction xs with
  | nil => simp [Text.byteSize]
  | cons c xs ih => rw [List.cons_append, Text.byteSize, Text.byteSize, ih]; omega

namespace Lexeme

/-- A lexeme without its span. -/
def bare (lexeme : Lexeme κ) : κ × List Char :=
  (lexeme.kind, lexeme.text)

@[simp] theorem layOut_nil (offset : Nat) : layOut offset ([] : List (κ × List Char)) = [] := rfl

theorem layOut_append (xs ys : List (κ × List Char)) (offset : Nat) :
    layOut offset (xs ++ ys)
      = layOut offset xs ++ layOut (offset + Text.byteSize (xs.flatMap Prod.snd)) ys := by
  induction xs generalizing offset with
  | nil => simp [Text.byteSize]
  | cons x xs ih =>
      rw [List.cons_append, layOut, layOut, ih, List.flatMap_cons, Text.byteSize_append,
        List.cons_append, Nat.add_assoc]

theorem bare_layOut (xs : List (κ × List Char)) (offset : Nat) :
    (layOut offset xs).map bare = xs := by
  induction xs generalizing offset with
  | nil => rfl
  | cons x xs ih => rw [layOut, List.map_cons, ih]; rfl

theorem length_layOut (xs : List (κ × List Char)) (offset : Nat) :
    (layOut offset xs).length = xs.length := by
  rw [← List.length_map bare, bare_layOut]

theorem text_layOut (xs : List (κ × List Char)) (offset : Nat) :
    (layOut offset xs).flatMap (·.text) = xs.flatMap Prod.snd := by
  rw [← congrArg (List.flatMap Prod.snd) (bare_layOut xs offset), List.flatMap_map]
  rfl

/-- The last lexeme of a layout ends where the layout ends. -/
theorem stop_getLast_layOut (xs : List (κ × List Char)) (offset : Nat)
    (hne : layOut offset xs ≠ []) :
    ((layOut offset xs).getLast hne).span.stop
      = offset + Text.byteSize (xs.flatMap Prod.snd) := by
  induction xs generalizing offset with
  | nil => exact absurd rfl hne
  | cons x xs ih =>
      cases xs with
      | nil => simp [layOut]
      | cons y ys =>
          have hrest : layOut (offset + Text.byteSize x.2) (y :: ys) ≠ [] := by simp [layOut]
          have hlast := ih (offset + Text.byteSize x.2) hrest
          rw [List.flatMap_cons, Text.byteSize_append, ← Nat.add_assoc, ← hlast]
          exact congrArg (·.span.stop) (List.getLast_cons hrest)

/-- **A layout joins to one lexeme** with the whole text. -/
theorem join_layOut (kind : ι) (offset : Nat) (xs : List (κ × List Char)) {first : Lexeme κ}
    {rest : List (Lexeme κ)} (h : first :: rest = layOut offset xs) :
    join kind first rest
      = ⟨kind, ⟨offset, offset + Text.byteSize (xs.flatMap Prod.snd)⟩, xs.flatMap Prod.snd⟩ := by
  have hstart : first.span.start = offset := by
    cases xs with
    | nil => cases h
    | cons x xs => rw [layOut] at h; rw [(List.cons.inj h).1]
  have hne : layOut offset xs ≠ [] := h ▸ List.cons_ne_nil first rest
  have hlast : ((first :: rest).getLast (List.cons_ne_nil _ _)).span.stop
      = offset + Text.byteSize (xs.flatMap Prod.snd) := by
    simp only [h]
    exact stop_getLast_layOut xs offset hne
  have htext : (first :: rest).flatMap (·.text) = xs.flatMap Prod.snd := by
    rw [h, text_layOut]
  rw [join, Span.through, hstart, hlast, htext]

end Lexeme

/-! ## Tokens of a source -/

theorem Token.text_splitFrom (t : Token) (read cs : List Char) :
    (splitFrom t read cs).flatMap Prod.snd = read.reverse ++ cs := by
  fun_induction splitFrom t read cs with
  | case1 t read => simp
  | case2 t read c cs t' _ ih => rw [ih]; simp
  | case3 t read c cs _ ih => rw [List.flatMap_cons, ih]; rfl

/-- The texts of the tokens give the source back. -/
theorem Token.text_split (cs : List Char) : (split cs).flatMap Prod.snd = cs := by
  cases cs with
  | nil => rfl
  | cons c cs => rw [split, text_splitFrom]; rfl

/-! ## Segments of a source -/

/-- What a group of bare tokens says. -/
def Group.said (group : Group (Token × List Char)) : SegmentKind × List Char :=
  (group.kind, group.members.flatMap Prod.snd)

/-- The segments of a source without their spans. -/
def bareSegments (cs : List Char) : List (SegmentKind × List Char) :=
  (groups Prod.fst (Token.split cs)).map Group.said

/-- Joining the groups of a layout is laying out what they say. -/
theorem join_groups : ∀ (gs : List (Group (Lexeme Token))) (offset : Nat),
    gs.flatMap Group.members
        = Lexeme.layOut offset ((gs.map (Group.map Lexeme.bare)).flatMap Group.members) →
    gs.map (fun g => Lexeme.join g.kind g.first g.rest)
      = Lexeme.layOut offset ((gs.map (Group.map Lexeme.bare)).map Group.said) := by
  intro gs
  induction gs with
  | nil => intro offset _; rfl
  | cons g gs ih =>
      intro offset h
      rw [List.flatMap_cons, List.map_cons, List.flatMap_cons, Lexeme.layOut_append] at h
      -- the first group is as long on both sides, so the layout can be cut after it
      have hlength : g.members.length
          = (Lexeme.layOut offset (g.map Lexeme.bare).members).length := by
        rw [Lexeme.length_layOut, Group.members_map, List.length_map]
      obtain ⟨hfirst, hrest⟩ := List.append_inj h hlength
      rw [List.map_cons, ih _ hrest, Lexeme.join_layOut g.kind offset _ hfirst, List.map_cons,
        List.map_cons, Lexeme.layOut]
      rfl

/-- **Lexing needs no spans.** The segments are the bare ones laid out from the start. -/
theorem lex_eq_layOut (cs : List Char) : lex cs = Lexeme.layOut 0 (bareSegments cs) := by
  unfold lex segment tokenize
  have hbare : (groups (·.kind) (Lexeme.layOut 0 (Token.split cs))).map (Group.map Lexeme.bare)
      = groups Prod.fst (Token.split cs) := by
    rw [← congrArg (groups Prod.fst) (Lexeme.bare_layOut (Token.split cs) 0), groups_map]
    rfl
  rw [join_groups, hbare]
  · rfl
  · rw [hbare, members_groups, members_groups]

theorem bare_lex (cs : List Char) : (lex cs).map Lexeme.bare = bareSegments cs := by
  rw [lex_eq_layOut, Lexeme.bare_layOut]

/-- **Lexing is lossless.** -/
theorem text_lex (cs : List Char) : (lex cs).flatMap (·.text) = cs := by
  rw [lex_eq_layOut, Lexeme.text_layOut, bareSegments, List.flatMap_map]
  calc (groups Prod.fst (Token.split cs)).flatMap (fun g => g.members.flatMap Prod.snd)
      = ((groups Prod.fst (Token.split cs)).flatMap Group.members).flatMap Prod.snd :=
        List.flatMap_assoc.symm
    _ = cs := by rw [members_groups, Token.text_split]

theorem text_bareSegments (cs : List Char) : (bareSegments cs).flatMap Prod.snd = cs := by
  rw [← Lexeme.text_layOut _ 0, ← lex_eq_layOut, text_lex]

end Keybind
