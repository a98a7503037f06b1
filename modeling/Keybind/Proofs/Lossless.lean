import Keybind.Proofs.Modes
import Keybind.Proofs.Tiling
import Mathlib.Data.List.Chain

/-!
# Lexing loses nothing

Tokens and segments are known by their byte offsets. The texts they carry are
only right if each span, cut out of the source, says the same. Three things can
go wrong with such a cut: the span lies past the end, it is the wrong way round,
or it splits a character whose UTF-8 form has several bytes. `Span.text?` fails
in all three.

The spans of a source's tokens tile the source, and so do the spans of its
segments (`Tiles`): they start at its first byte, each starts where the one
before it ends, the last ends at its last byte, and every cut succeeds. Both
are layouts, so one argument about `Lexeme.layOut` serves for both: a lexeme
lies behind the texts of the lexemes before it, and these texts are whole
characters.
-/

namespace Keybind

variable {α κ : Type}

open String.Pos (Raw)

/-! ## Cutting a span out of a source -/

/-- What a source says within a span. A span that does not start and end between two characters of
the source has no text. -/
def Span.text? (span : Span) (source : String) : Option String :=
  if h : (Raw.mk span.start).IsValid source ∧ (Raw.mk span.stop).IsValid source
      ∧ span.start ≤ span.stop then
    some (source.extract (source.pos _ h.1) (source.pos _ h.2.1))
  else none

theorem isValid_append (s t : String) : (Raw.mk s.utf8ByteSize).IsValid (s ++ t) :=
  Raw.isValid_iff_exists_append.mpr ⟨s, t, rfl, rfl⟩

/-- A text lies between what stands before it and what follows it. -/
theorem Span.text?_append (s t u : String) :
    (Span.mk s.utf8ByteSize (s.utf8ByteSize + t.utf8ByteSize)).text? (s ++ t ++ u) = some t := by
  have hstart : (Raw.mk s.utf8ByteSize).IsValid (s ++ t ++ u) := by
    rw [String.append_assoc]
    exact isValid_append s (t ++ u)
  have hstop : (Raw.mk (s.utf8ByteSize + t.utf8ByteSize)).IsValid (s ++ t ++ u) := by
    rw [← String.utf8ByteSize_append]
    exact isValid_append (s ++ t) u
  rw [Span.text?, dif_pos ⟨hstart, hstop, Nat.le_add_right _ _⟩]
  refine congrArg some (String.toByteArray_inj.mp ?_)
  -- the bytes of the three texts stand one after the other
  rw [String.toByteArray_extract, String.offset_pos, String.offset_pos, String.toByteArray_append,
    String.toByteArray_append]
  dsimp only
  rw [ByteArray.append_assoc, ← String.size_toByteArray, ← String.size_toByteArray]
  have hskip := ByteArray.extract_append_size_add (a := s.toByteArray)
    (b := t.toByteArray ++ u.toByteArray) (i := 0) (j := t.toByteArray.size)
  rw [Nat.add_zero] at hskip
  rw [hskip]
  exact ByteArray.extract_append_eq_left rfl

theorem Text.byteSize_toList (s : String) : Text.byteSize s.toList = s.utf8ByteSize := by
  have hlist : ∀ cs : List Char, (String.ofList cs).utf8ByteSize = Text.byteSize cs := by
    intro cs
    induction cs with
    | nil => rfl
    | cons c cs ih =>
        rw [String.ofList_cons, String.utf8ByteSize_append, String.utf8ByteSize_singleton, ih]
        rfl
  rw [← hlist, String.ofList_toList]

theorem Text.byteSize_pos {cs : List Char} (h : cs ≠ []) : 0 < Text.byteSize cs := by
  cases cs with
  | nil => exact absurd rfl h
  | cons c cs =>
      have hc := c.utf8Size_pos
      rw [Text.byteSize]
      omega

/-! ## Lexemes that tile a source -/

/-- The lexemes cover the source from end to end, and each says what the source says there. -/
structure Tiles (source : String) (lexemes : List (Lexeme κ)) : Prop where
  nil_iff : lexemes = [] ↔ source = ""
  start : ∀ first ∈ lexemes.head?, first.span.start = 0
  nonempty : ∀ lexeme ∈ lexemes, lexeme.span.start < lexeme.span.stop
  adjacent : lexemes.IsChain fun lexeme next => lexeme.span.stop = next.span.start
  stop : ∀ last ∈ lexemes.getLast?, last.span.stop = source.utf8ByteSize
  /-- Every span starts and ends between two characters. -/
  boundary : ∀ lexeme ∈ lexemes, (Raw.mk lexeme.span.start).IsValid source
    ∧ (Raw.mk lexeme.span.stop).IsValid source
  text : ∀ lexeme ∈ lexemes, lexeme.span.text? source = some (String.ofList lexeme.text)
  /-- The cuts put together are the source. -/
  join : (lexemes.mapM fun lexeme : Lexeme κ => lexeme.span.text? source).map String.join
    = some source

namespace Lexeme

/-- A lexeme of a layout lies behind the texts of those before it. -/
theorem mem_layOut {xs : List (κ × List Char)} {offset : Nat} {lexeme : Lexeme κ}
    (h : lexeme ∈ layOut offset xs) :
    ∃ before after, xs = before ++ lexeme.bare :: after
      ∧ lexeme.span.start = offset + Text.byteSize (before.flatMap Prod.snd)
      ∧ lexeme.span.stop = lexeme.span.start + Text.byteSize lexeme.text := by
  induction xs generalizing offset with
  | nil => cases h
  | cons x xs ih =>
      rw [layOut] at h
      rcases List.mem_cons.mp h with rfl | h
      · exact ⟨[], xs, rfl, rfl, rfl⟩
      · obtain ⟨before, after, hsplit, hstart, hstop⟩ := ih h
        refine ⟨x :: before, after, ?_, ?_, hstop⟩
        · rw [hsplit, List.cons_append]
        · rw [hstart, List.flatMap_cons, Text.byteSize_append, Nat.add_assoc]

theorem head?_layOut {xs : List (κ × List Char)} {offset : Nat} {first : Lexeme κ}
    (h : first ∈ (layOut offset xs).head?) : first.span.start = offset := by
  cases xs with
  | nil => cases h
  | cons x xs => cases h; rfl

theorem isChain_layOut (xs : List (κ × List Char)) (offset : Nat) :
    (layOut offset xs).IsChain fun lexeme next => lexeme.span.stop = next.span.start := by
  induction xs generalizing offset with
  | nil => exact List.isChain_nil
  | cons x xs ih =>
      rw [layOut]
      refine List.isChain_cons.mpr ⟨fun next hnext => ?_, ih _⟩
      exact (head?_layOut hnext).symm

/-- A lexeme of a layout cuts the source in three. -/
theorem cut_layOut {xs : List (κ × List Char)} {source : String}
    (htext : xs.flatMap Prod.snd = source.toList) {lexeme : Lexeme κ}
    (h : lexeme ∈ layOut 0 xs) :
    ∃ s u : String, source = s ++ String.ofList lexeme.text ++ u
      ∧ lexeme.span
        = ⟨s.utf8ByteSize, s.utf8ByteSize + (String.ofList lexeme.text).utf8ByteSize⟩ := by
  obtain ⟨before, after, hsplit, hstart, hstop⟩ := mem_layOut h
  refine ⟨String.ofList (before.flatMap Prod.snd), String.ofList (after.flatMap Prod.snd), ?_, ?_⟩
  · rw [← String.toList_inj, ← htext, hsplit]
    simp [bare]
  · rw [Nat.zero_add] at hstart
    rw [← Text.byteSize_toList, ← Text.byteSize_toList, String.toList_ofList,
      String.toList_ofList, ← hstart, ← hstop]

theorem text_ne_nil_layOut {xs : List (κ × List Char)} (hne : ∀ x ∈ xs, x.2 ≠ [])
    {offset : Nat} {lexeme : Lexeme κ} (h : lexeme ∈ layOut offset xs) : lexeme.text ≠ [] := by
  obtain ⟨before, after, hsplit, -, -⟩ := mem_layOut h
  exact hne lexeme.bare (hsplit ▸ List.mem_append_right before List.mem_cons_self)

theorem text?_layOut {xs : List (κ × List Char)} {source : String}
    (htext : xs.flatMap Prod.snd = source.toList) {lexeme : Lexeme κ}
    (h : lexeme ∈ layOut 0 xs) :
    lexeme.span.text? source = some (String.ofList lexeme.text) := by
  obtain ⟨s, u, hsource, hspan⟩ := cut_layOut htext h
  rw [hspan, hsource]
  exact Span.text?_append s _ u

theorem boundary_layOut {xs : List (κ × List Char)} {source : String}
    (htext : xs.flatMap Prod.snd = source.toList) {lexeme : Lexeme κ}
    (h : lexeme ∈ layOut 0 xs) :
    (Raw.mk lexeme.span.start).IsValid source ∧ (Raw.mk lexeme.span.stop).IsValid source := by
  obtain ⟨s, u, hsource, hspan⟩ := cut_layOut htext h
  rw [hspan, hsource]
  constructor
  · rw [String.append_assoc]
    exact isValid_append s _
  · rw [← String.utf8ByteSize_append]
    exact isValid_append _ u

theorem layOut_eq_nil_iff {xs : List (κ × List Char)} (hne : ∀ x ∈ xs, x.2 ≠ []) (offset : Nat) :
    layOut offset xs = [] ↔ xs.flatMap Prod.snd = [] := by
  cases xs with
  | nil => simp
  | cons x xs =>
      rw [layOut, List.flatMap_cons, List.append_eq_nil_iff]
      exact iff_of_false (List.cons_ne_nil _ _) fun h => hne x List.mem_cons_self h.1

/-- Cuts that all succeed succeed together. -/
theorem mapM_text? {lexemes : List (Lexeme κ)} {source : String}
    (h : ∀ lexeme ∈ lexemes, lexeme.span.text? source = some (String.ofList lexeme.text)) :
    lexemes.mapM (fun lexeme => lexeme.span.text? source)
      = some (lexemes.map fun lexeme => String.ofList lexeme.text) := by
  induction lexemes with
  | nil => rfl
  | cons lexeme lexemes ih =>
      obtain ⟨hfirst, hrest⟩ := List.forall_mem_cons.mp h
      rw [List.mapM_cons, hfirst, ih hrest]
      rfl

/-- **Texts laid out from the start tile the source that they spell.** -/
theorem tiles_layOut {xs : List (κ × List Char)} {source : String}
    (hne : ∀ x ∈ xs, x.2 ≠ []) (htext : xs.flatMap Prod.snd = source.toList) :
    Tiles source (layOut 0 xs) where
  nil_iff := by
    rw [layOut_eq_nil_iff hne, htext, String.toList_eq_nil_iff]
  start := fun _ => head?_layOut
  nonempty := by
    intro lexeme h
    obtain ⟨-, -, -, -, hstop⟩ := mem_layOut h
    have hpos := Text.byteSize_pos (text_ne_nil_layOut hne h)
    omega
  adjacent := isChain_layOut xs 0
  stop := by
    intro last hlast
    obtain ⟨hnil, hlast⟩ := List.mem_getLast?_eq_getLast hlast
    rw [hlast, stop_getLast_layOut, htext, Nat.zero_add, Text.byteSize_toList]
  boundary := fun _ => boundary_layOut htext
  text := fun _ => text?_layOut htext
  join := by
    rw [mapM_text? fun _ => text?_layOut htext, Option.map_some, Option.some_inj,
      ← String.toList_inj, String.toList_join, List.flatMap_map, ← htext, ← text_layOut xs 0]
    simp only [String.toList_ofList]

end Lexeme

/-! ## Tokens and segments of a source -/

theorem Token.text_ne_nil_splitFrom (t : Token) {read : List Char} (hread : read ≠ [])
    (cs : List Char) : ∀ x ∈ splitFrom t read cs, x.2 ≠ [] := by
  fun_induction splitFrom t read cs with
  | case1 t read =>
      intro x hx
      rw [List.mem_singleton.mp hx]
      simpa using hread
  | case2 t read c cs t' _ ih => exact ih (List.cons_ne_nil c read)
  | case3 t read c cs _ ih =>
      intro x hx
      rcases List.mem_cons.mp hx with rfl | hx
      · simpa using hread
      · exact ih (List.cons_ne_nil c []) x hx

theorem Token.text_ne_nil (cs : List Char) : ∀ x ∈ split cs, x.2 ≠ [] := by
  cases cs with
  | nil => exact fun x hx => absurd hx List.not_mem_nil
  | cons c cs => exact text_ne_nil_splitFrom (start c) (List.cons_ne_nil c []) cs

theorem tiles_tokenize (source : String) : Tiles source (tokenize source.toList) :=
  Lexeme.tiles_layOut (Token.text_ne_nil _) (Token.text_split _)

/-- A group says something, since its first token does. -/
theorem bareSegments_ne_nil (cs : List Char) : ∀ x ∈ bareSegments cs, x.2 ≠ [] := by
  intro x hx
  obtain ⟨group, hgroup, rfl⟩ := List.mem_map.mp hx
  have hfirst : group.first ∈ Token.split cs := by
    rw [← members_groups Prod.fst (Token.split cs)]
    exact List.mem_flatMap_of_mem hgroup List.mem_cons_self
  intro hnil
  rw [Group.said, Group.members, List.flatMap_cons] at hnil
  exact Token.text_ne_nil cs group.first hfirst (List.append_eq_nil_iff.mp hnil).1

theorem tiles_lex (source : String) : Tiles source (lex source.toList) := by
  rw [lex_eq_layOut]
  exact Lexeme.tiles_layOut (bareSegments_ne_nil _) (text_bareSegments _)

/-! ## Text put together -/

/-- Two segments that are not both text. -/
def Apart (kind next : SegmentKind) : Prop :=
  ¬(kind = .text ∧ next = .text)

theorem isChain_attach {group : Group α} {gs : List (Group α)}
    (h : (gs.map (·.kind)).IsChain Apart) : ((group.attach gs).map (·.kind)).IsChain Apart := by
  cases gs with
  | nil => exact List.isChain_singleton _
  | cons next gs =>
      rw [Group.attach]
      split
      · -- the text put together stands where its second part stood
        rename_i hk
        rw [List.map_cons, hk.2] at h
        exact h
      · rename_i hk
        exact List.isChain_cons_cons.mpr ⟨hk, h⟩

theorem isChain_merge (gs : List (Group α)) :
    ((Group.merge gs).map (·.kind)).IsChain Apart := by
  induction gs with
  | nil => exact List.isChain_nil
  | cons group gs ih => exact isChain_attach ih

/-- **Lexing is lossless.** The tokens of a source and its segments both tile it, and no two
segments of text stand side by side. -/
theorem lex_lossless (source : String) :
    Tiles source (tokenize source.toList) ∧ Tiles source (lex source.toList)
      ∧ (lex source.toList).IsChain fun segment next =>
        ¬(segment.kind = .text ∧ next.kind = .text) := by
  refine ⟨tiles_tokenize source, tiles_lex source, ?_⟩
  have hkinds : ((lex source.toList).map (·.kind)).IsChain Apart := by
    rw [kind_lex, groups_eq_scan]
    exact isChain_merge _
  exact (List.isChain_map _).mp hkinds

end Keybind
