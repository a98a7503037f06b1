import Keybind.Proofs.Lossless
import Keybind.Proofs.Seams
import Mathlib.Combinatorics.Enumerative.Composition

/-!
# How tokens are divided

The tokens of a source lie end to end. Segmentation does not rely on it: it cuts
any list of tokens, whatever their spans, into consecutive runs, and makes one
segment of each. Where it cuts is decided by the kinds of the tokens alone.

A division of a list is a composition of its length, and `Divides` says that
segments stand for the runs of a division. There are three parts.

* Marking and collecting does the same as a loop that takes one segment after
  the other and lengthens the last one when text follows text (`Scanner`). Each
  round goes forward, since a segment has a first token, and never past the end,
  since looking ahead finds only tokens that are there (`Progress.round`). So the
  loop ends, and what it has made are the segments (`Progress.ends`).
* The members of the groups, put together, are the tokens (`members_groups`), so
  the sizes of the groups are a composition, and each segment covers its run
  (`divides_segment`).
* The kinds and the sizes of the groups can be read off the kinds of the tokens
  (`groups_congr`).
-/

namespace Keybind

variable {α : Type}

/-! ## Text put together from either end -/

namespace Group

/-- Of three texts in a row it does not matter which two are put together first. -/
theorem attach_attach {text next : Group α} (htext : text.kind = .text) (hnext : next.kind = .text)
    (gs : List (Group α)) :
    text.attach (next.attach gs)
      = attach ⟨.text, text.first, text.rest ++ next.members⟩ gs := by
  cases gs with
  | nil => exact if_pos ⟨htext, hnext⟩
  | cons third gs =>
      by_cases hthird : third.kind = .text
      · rw [attach, if_pos ⟨hnext, hthird⟩, attach, if_pos ⟨htext, rfl⟩, attach,
          if_pos ⟨rfl, hthird⟩]
        simp [members]
      · rw [attach, if_neg fun h => hthird h.2, attach, if_pos ⟨htext, hnext⟩, attach,
          if_neg fun h => hthird h.2]

theorem merge_attach (group : Group α) (gs hs : List (Group α)) :
    merge (group.attach gs ++ hs) = group.attach (merge (gs ++ hs)) := by
  cases gs with
  | nil => rfl
  | cons next gs =>
      rw [attach]
      split
      · rename_i h
        rw [List.cons_append, merge_cons, List.cons_append, merge_cons, attach_attach h.1 h.2]
      · rfl

/-- What has been put together already need not be taken apart. -/
theorem merge_merge_append (gs hs : List (Group α)) :
    merge (merge gs ++ hs) = merge (gs ++ hs) := by
  induction gs with
  | nil => rfl
  | cons group gs ih => rw [merge_cons, merge_attach, ih, List.cons_append, merge_cons]

/-- Where no two texts stand side by side there is nothing to put together. -/
theorem merge_of_isChain {gs : List (Group α)} (h : (gs.map (·.kind)).IsChain Apart) :
    merge gs = gs := by
  induction gs with
  | nil => rfl
  | cons group gs ih =>
      rw [merge_cons, ih h.tail]
      cases gs with
      | nil => rfl
      | cons next gs =>
          have hapart : Apart group.kind next.kind := (List.isChain_cons_cons.mp h).1
          rw [attach, if_neg hapart]

/-- Behind groups that are put together already, only the last one can take another in. -/
theorem merge_concat {before : List (Group α)} {last : Group α}
    (h : ((before ++ [last]).map (·.kind)).IsChain Apart) (group : Group α) :
    merge (before ++ [last] ++ [group]) = before ++ last.attach [group] := by
  have hpair : merge (last.attach [group]) = merge [last, group] := by
    rw [← List.append_nil (last.attach [group]), merge_attach]
    rfl
  have hchain : ((before ++ last.attach [group]).map (·.kind)).IsChain Apart := by
    rw [attach]
    split
    · rename_i hboth
      rw [List.map_append, List.map_singleton, hboth.1] at h
      rw [List.map_append]
      exact h
    · rename_i hapart
      rw [List.map_append] at h ⊢
      exact List.isChain_append_cons_cons.mpr ⟨h, hapart, List.isChain_singleton _⟩
  calc merge (before ++ [last] ++ [group])
      = before.foldr attach (merge [last, group]) := by
        rw [List.append_assoc, merge, List.foldr_append]
        rfl
    _ = merge (before ++ last.attach [group]) := by
        rw [← hpair, merge, merge, List.foldr_append]
    _ = before ++ last.attach [group] := merge_of_isChain hchain

end Group

/-! ## A loop that takes one segment after the other -/

/-- A lexeme that goes on to the end of the next one. -/
def Lexeme.extend {κ : Type} (lexeme next : Lexeme κ) : Lexeme κ :=
  ⟨lexeme.kind, ⟨lexeme.span.start, next.span.stop⟩, lexeme.text ++ next.text⟩

/-- Where the loop stands, and what it has made so far. -/
structure Scanner where
  /-- The number of tokens that have been read. -/
  position : Nat := 0
  mode : Mode := .code
  /-- The segments, last one first. -/
  segments : List Segment := []

namespace Scanner

/-- The segments, last one first, with one more. Text that follows text lengthens it. -/
def push (segment : Segment) : List Segment → List Segment
  | [] => [segment]
  | last :: before =>
    if last.kind = .text ∧ segment.kind = .text then last.extend segment :: before
    else segment :: last :: before

/-- One round of the loop; there is none at the end of the tokens. -/
def next? (tokens : List (Lexeme Token)) (scanner : Scanner) : Option Scanner :=
  match tokens.drop scanner.position with
  | [] => none
  | first :: rest =>
    let head := Head.of scanner.mode first.kind (rest.map (·.kind))
    some {
      position := scanner.position + 1 + head.extra
      mode := head.mode
      segments := push (Lexeme.join head.kind first (rest.take head.extra)) scanner.segments }

/-- From where one scanner stands the loop ends where the other stands, after a number of
rounds. -/
inductive Ends (tokens : List (Lexeme Token)) : Scanner → Nat → Scanner → Prop where
  | stop {scanner : Scanner} : scanner.next? tokens = none → Ends tokens scanner 0 scanner
  | round {scanner next last : Scanner} {rounds : Nat} : scanner.next? tokens = some next →
      Ends tokens next rounds last → Ends tokens scanner (rounds + 1) last

theorem next?_eq_none {tokens : List (Lexeme Token)} {scanner : Scanner}
    (h : tokens.length ≤ scanner.position) : scanner.next? tokens = none := by
  rw [next?, List.drop_eq_nil_of_le h]

theorem next?_cons {tokens rest : List (Lexeme Token)} {scanner : Scanner} {first : Lexeme Token}
    {head : Head} (h : tokens.drop scanner.position = first :: rest)
    (hhead : Head.of scanner.mode first.kind (rest.map (·.kind)) = head) :
    scanner.next? tokens = some {
      position := scanner.position + 1 + head.extra
      mode := head.mode
      segments := push (Lexeme.join head.kind first (rest.take head.extra)) scanner.segments } := by
  subst hhead
  rw [next?, h]

end Scanner

/-- The segment that a group of tokens makes. -/
def Group.toSegment (group : Group (Lexeme Token)) : Segment :=
  Lexeme.join group.kind group.first group.rest

@[simp] theorem Group.kind_toSegment (group : Group (Lexeme Token)) :
    group.toSegment.kind = group.kind := rfl

/-- Lengthening the segment of a text is making the segment of the longer text. -/
theorem Group.toSegment_append {text next : Group (Lexeme Token)} (htext : text.kind = .text) :
    toSegment ⟨.text, text.first, text.rest ++ next.members⟩
      = text.toSegment.extend next.toSegment := by
  simp [toSegment, Lexeme.join, Lexeme.extend, Span.through, members, htext]

/-- **Text is put together alike from the left and from the right.** Pushing the segment of one more
group on the segments of some groups makes the segments of all of them. -/
theorem Scanner.push_merge (gs : List (Group (Lexeme Token))) (group : Group (Lexeme Token)) :
    (push group.toSegment ((Group.merge gs).map Group.toSegment).reverse).reverse
      = (Group.merge (gs ++ [group])).map Group.toSegment := by
  have hchain := isChain_merge gs
  rw [← Group.merge_merge_append]
  obtain hnil | ⟨before, last, hlast⟩ := List.eq_nil_or_concat' (Group.merge gs)
  · rw [hnil]
    rfl
  · rw [hlast] at hchain ⊢
    rw [Group.merge_concat hchain]
    by_cases hboth : last.kind = .text ∧ group.kind = .text
    · simp [push, Group.attach, hboth, Group.toSegment_append hboth.1]
    · simp [push, Group.attach, hboth]

/-! ## What a round preserves -/

namespace Scanner

/-- The scanner has made the segments of these groups, and goes on as the scan of all the tokens
goes on after them. -/
structure Progress (tokens : List (Lexeme Token)) (scanner : Scanner)
    (gs : List (Group (Lexeme Token))) : Prop where
  inside : scanner.position ≤ tokens.length
  ahead : gs ++ scan (·.kind) scanner.mode (tokens.drop scanner.position)
    = scan (·.kind) .code tokens
  made : scanner.segments.reverse = (Group.merge gs).map Group.toSegment

theorem Progress.start (tokens : List (Lexeme Token)) : Progress tokens {} [] where
  inside := Nat.zero_le _
  ahead := rfl
  made := rfl

/-- **A round goes forward, and not past the end.** -/
theorem Progress.round {tokens : List (Lexeme Token)} {scanner : Scanner}
    {gs : List (Group (Lexeme Token))} (h : Progress tokens scanner gs)
    (hmore : scanner.position < tokens.length) :
    ∃ next group, scanner.next? tokens = some next ∧ scanner.position < next.position
      ∧ Progress tokens next (gs ++ [group]) := by
  obtain ⟨first, rest, hdrop⟩ : ∃ first rest, tokens.drop scanner.position = first :: rest :=
    ⟨_, _, List.drop_eq_getElem_cons hmore⟩
  have hlength : scanner.position + 1 + rest.length = tokens.length := by
    have hcount := congrArg List.length hdrop
    rw [List.length_drop, List.length_cons] at hcount
    omega
  obtain ⟨head, hhead⟩ : ∃ head, Head.of scanner.mode first.kind (rest.map (·.kind)) = head :=
    ⟨_, rfl⟩
  -- the tokens that the segment needs after its first one are there
  have hextra : head.extra ≤ rest.length := by
    rw [← hhead, ← List.length_map (·.kind)]
    exact Head.extra_le _ _ _
  have hrest : tokens.drop (scanner.position + 1 + head.extra) = rest.drop head.extra := by
    rw [Nat.add_assoc, ← List.drop_drop, hdrop, Nat.add_comm, List.drop_succ_cons]
  refine ⟨_, ⟨head.kind, first, rest.take head.extra⟩, next?_cons hdrop hhead, ?_, ?_, ?_, ?_⟩
  · dsimp only
    omega
  · dsimp only
    omega
  · rw [← h.ahead, hdrop, scan_cons (·.kind) scanner.mode first rest hhead, hrest,
      List.append_assoc]
    rfl
  · rw [← push_merge, ← h.made, List.reverse_reverse]
    rfl

/-- **The loop ends**, after no more rounds than there are tokens left, and has made the
segments. -/
theorem Progress.ends {tokens : List (Lexeme Token)} {scanner : Scanner}
    {gs : List (Group (Lexeme Token))} (h : Progress tokens scanner gs) :
    ∃ rounds ≤ tokens.length - scanner.position, ∃ last : Scanner,
      Ends tokens scanner rounds last ∧ last.position = tokens.length
        ∧ last.segments.reverse = segment tokens := by
  -- by the number of tokens left, which every round makes smaller
  induction hleft : tokens.length - scanner.position using Nat.strongRecOn
    generalizing scanner gs with
  | ind left ih =>
      rcases Nat.lt_or_ge scanner.position tokens.length with hmore | hend
      · obtain ⟨next, group, hnext, hforward, hprogress⟩ := h.round hmore
        obtain ⟨rounds, hrounds, last, hlast, hposition, hsegments⟩ :=
          ih (tokens.length - next.position) (by omega) hprogress rfl
        exact ⟨rounds + 1, by omega, last, .round hnext hlast, hposition, hsegments⟩
      · -- nothing is ahead, so the groups so far are all
        have hall := h.ahead
        rw [List.drop_eq_nil_of_le hend, scan_nil, List.append_nil] at hall
        refine ⟨0, Nat.zero_le _, scanner, .stop (next?_eq_none hend),
          Nat.le_antisymm h.inside hend, ?_⟩
        rw [h.made, hall, ← groups_eq_scan]
        rfl

end Scanner

/-! ## Divisions -/

/-- The segment reaches from the start of the first token of a run to the end of the last one. -/
structure Covers (run : List (Lexeme Token)) (segment : Segment) : Prop where
  start : run.head?.map (·.span.start) = some segment.span.start
  stop : run.getLast?.map (·.span.stop) = some segment.span.stop
  text : run.flatMap (·.text) = segment.text

/-- The tokens, divided into consecutive runs, make the segments, one run each. -/
structure Divides {n : Nat} (division : Composition n) (tokens : List (Lexeme Token))
    (segments : List Segment) : Prop where
  whole : (tokens.splitWrtComposition division).flatten = tokens
  nonempty : ∀ run ∈ tokens.splitWrtComposition division, run ≠ []
  covers : List.Forall₂ Covers (tokens.splitWrtComposition division) segments

theorem Group.covers_toSegment (group : Group (Lexeme Token)) :
    Covers group.members group.toSegment where
  start := rfl
  stop := by
    rw [members, List.getLast?_eq_some_getLast (List.cons_ne_nil _ _)]
    rfl
  text := rfl

/-- Runs of the sizes that a composition asks for are what it splits their whole into. -/
theorem splitWrtComposition_eq {n : Nat} {composition : Composition n} {runs : List (List α)}
    (h : runs.map List.length = composition.blocks) :
    runs.flatten.splitWrtComposition composition = runs := by
  have hn : n = runs.flatten.length := by
    rw [List.length_flatten, h, composition.blocks_sum]
  subst hn
  exact List.splitWrtComposition_flatten runs composition h

/-- **The groups of the tokens are the runs of their segments.** -/
theorem divides_segment {n : Nat} {division : Composition n} {tokens : List (Lexeme Token)}
    (h : (groups (·.kind) tokens).map (·.members.length) = division.blocks) :
    Divides division tokens (segment tokens) := by
  have hwhole : ((groups (·.kind) tokens).map Group.members).flatten = tokens := by
    rw [← List.flatMap_def, members_groups]
  have hsizes : ((groups (·.kind) tokens).map Group.members).map List.length
      = division.blocks := by
    rw [List.map_map]
    exact h
  have hruns : tokens.splitWrtComposition division
      = (groups (·.kind) tokens).map Group.members := by
    rw [← splitWrtComposition_eq hsizes, hwhole]
  refine ⟨?_, ?_, ?_⟩
  · rw [hruns, hwhole]
  · intro run hrun
    rw [hruns] at hrun
    obtain ⟨group, -, rfl⟩ := List.mem_map.mp hrun
    exact List.cons_ne_nil _ _
  · rw [hruns, segment, List.forall₂_map_left_iff, List.forall₂_map_right_iff, List.forall₂_same]
    exact fun group _ => group.covers_toSegment

/-- The division of items into the members of their groups. -/
def divisionOf (token : α → Token) (items : List α) : Composition items.length where
  blocks := (groups token items).map (·.members.length)
  blocks_pos := by
    intro size hsize
    obtain ⟨group, -, rfl⟩ := List.mem_map.mp hsize
    exact Nat.succ_pos _
  blocks_sum := by
    rw [← List.length_flatMap, members_groups]

/-! ## Only the kinds decide -/

/-- The kind of a group and how many members it has. -/
def Group.shape (group : Group α) : SegmentKind × Nat :=
  (group.kind, group.members.length)

theorem shape_groups (token : α → Token) (items : List α) :
    (groups token items).map Group.shape = (groups id (items.map token)).map Group.shape := by
  rw [groups_map, List.map_map]
  refine List.map_congr_left fun group _ => ?_
  rw [Function.comp_apply, Group.shape, Group.shape, Group.kind_map, Group.members_map,
    List.length_map]

/-- **Items of the same tokens are grouped alike.** -/
theorem groups_congr {token : α → Token} {items others : List α}
    (h : others.map token = items.map token) :
    (groups token others).map (·.kind) = (groups token items).map (·.kind)
      ∧ (groups token others).map (·.members.length)
        = (groups token items).map (·.members.length) := by
  have hshape : (groups token others).map Group.shape = (groups token items).map Group.shape := by
    calc (groups token others).map Group.shape
        = (groups id (others.map token)).map Group.shape := shape_groups token others
      _ = (groups token items).map Group.shape := by rw [h, ← shape_groups]
  have hkinds := congrArg (List.map Prod.fst) hshape
  have hsizes := congrArg (List.map Prod.snd) hshape
  rw [List.map_map, List.map_map] at hkinds hsizes
  exact ⟨hkinds, hsizes⟩

theorem kind_segment (tokens : List (Lexeme Token)) :
    (segment tokens).map (·.kind) = (groups (·.kind) tokens).map (·.kind) := by
  rw [segment, List.map_map]
  rfl

/-- **Segmentation divides the tokens, and does not look at their spans.** For tokens with any
spans the loop reads them all and ends, no two texts stand side by side, and the segments stand for
the runs of a division. Tokens of the same kinds with other spans are divided in the same way, into
segments of the same kinds. -/
theorem segment_divides (tokens : List (Lexeme Token)) :
    (∃ rounds ≤ tokens.length, ∃ last : Scanner, Scanner.Ends tokens {} rounds last
        ∧ last.position = tokens.length ∧ last.segments.reverse = segment tokens)
      ∧ ((segment tokens).IsChain fun segment next =>
        ¬(segment.kind = .text ∧ next.kind = .text))
      ∧ ∃ division : Composition tokens.length, Divides division tokens (segment tokens)
        ∧ ∀ others : List (Lexeme Token), others.map (·.kind) = tokens.map (·.kind) →
          Divides division others (segment others)
            ∧ (segment others).map (·.kind) = (segment tokens).map (·.kind) := by
  have hends := (Scanner.Progress.start tokens).ends
  have hkinds : ((segment tokens).map (·.kind)).IsChain Apart := by
    rw [kind_segment, groups_eq_scan]
    exact isChain_merge _
  refine ⟨hends, (List.isChain_map _).mp hkinds, divisionOf (·.kind) tokens,
    divides_segment rfl, ?_⟩
  intro others h
  obtain ⟨hsame, hsizes⟩ := groups_congr h
  refine ⟨divides_segment hsizes, ?_⟩
  rw [kind_segment, kind_segment, hsame]

/-- A string with an escaped mark and a bracket that opens nothing, once with spans in order and
once with spans that overlap or run backwards. -/
theorem segment_divides_scattered :
    let ordered : List (Lexeme Token) :=
      [⟨.doubleQuote, ⟨0, 1⟩, []⟩, ⟨.backslash, ⟨1, 2⟩, []⟩, ⟨.doubleQuote, ⟨2, 3⟩, []⟩,
        ⟨.doubleQuote, ⟨3, 4⟩, []⟩, ⟨.openBracket, ⟨4, 5⟩, []⟩, ⟨.equals, ⟨5, 6⟩, []⟩]
    let scattered : List (Lexeme Token) :=
      [⟨.doubleQuote, ⟨9, 4⟩, []⟩, ⟨.backslash, ⟨0, 0⟩, []⟩, ⟨.doubleQuote, ⟨3, 8⟩, []⟩,
        ⟨.doubleQuote, ⟨2, 7⟩, []⟩, ⟨.openBracket, ⟨6, 1⟩, []⟩, ⟨.equals, ⟨5, 5⟩, []⟩]
    scattered.map (·.kind) = ordered.map (·.kind)
      ∧ segment scattered = [⟨.quoted .double, ⟨9, 7⟩, []⟩, ⟨.text, ⟨6, 5⟩, []⟩]
      ∧ ∃ division : Composition 6, Divides division ordered (segment ordered)
        ∧ Divides division scattered (segment scattered) := by
  intro ordered scattered
  obtain ⟨-, -, division, hordered, hothers⟩ := segment_divides ordered
  exact ⟨rfl, rfl, division, hordered, (hothers scattered rfl).1⟩

end Keybind
