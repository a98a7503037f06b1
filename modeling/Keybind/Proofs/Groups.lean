import Keybind.Segment.Lexer

/-!
# How tokens are grouped

`groups` first marks every token and collects the marked tokens afterwards. The
scanner's own view is simpler: it looks at the tokens ahead, takes as many as
the next segment needs, and goes on in the mode that the segment leaves. `scan`
is that view, and `groups_eq_scan` says that `groups` is `scan` with adjacent
text put together.

Two facts follow that everything else rests on. No item is lost and none is
moved (`members_groups`), and only the tokens of the items count
(`groups_map`), so that spans may be forgotten and found again.
-/

namespace Keybind

variable {α β : Type}

/-! ## One head after the other -/

/-- The groups of items before text is put together. -/
def scan (token : α → Token) (mode : Mode) : List α → List (Group α)
  | [] => []
  | a :: items =>
    let head := Head.of mode (token a) (items.map token)
    ⟨head.kind, a, items.take head.extra⟩ :: scan token head.mode (items.drop head.extra)
termination_by items => items.length
decreasing_by simp only [List.length_drop, List.length_cons]; omega

/-- Adjacent text put together. -/
def Group.merge (groups : List (Group α)) : List (Group α) :=
  groups.foldr attach []

@[simp] theorem Group.merge_nil : Group.merge ([] : List (Group α)) = [] := rfl

@[simp] theorem Group.merge_cons (group : Group α) (groups : List (Group α)) :
    Group.merge (group :: groups) = group.attach (Group.merge groups) := rfl

@[simp] theorem scan_nil (token : α → Token) (mode : Mode) : scan token mode [] = [] := by
  rw [scan]

/-- To follow the scanner, show each step from any later one. -/
theorem dropInduction {P : List α → Prop} (nil : P [])
    (cons : ∀ a items, (∀ n, P (items.drop n)) → P (a :: items)) (items : List α) : P items := by
  induction h : items.length using Nat.strongRecOn generalizing items with
  | ind length ih =>
    cases items with
    | nil => exact nil
    | cons a items =>
        refine cons a items (fun n => ih (items.drop n).length ?_ _ rfl)
        rw [← h, List.length_drop, List.length_cons]
        omega

theorem scan_cons (token : α → Token) (mode : Mode) (a : α) (items : List α) {head : Head}
    (h : Head.of mode (token a) (items.map token) = head) :
    scan token mode (a :: items)
      = ⟨head.kind, a, items.take head.extra⟩
        :: scan token head.mode (items.drop head.extra) := by
  subst h; rw [scan]

/-- Collecting the marked items gives what is still owed to the segment before, and the groups of
the scanner after it. -/
theorem collect_marks (token : α → Token) : ∀ (items : List α) (mode : Mode) (pending : Nat),
    Group.collect ((marks mode pending (items.map token)).zip items)
      = (items.take pending, Group.merge (scan token mode (items.drop pending))) := by
  intro items
  induction items with
  | nil => intro mode pending; cases pending <;> simp [marks, Group.collect]
  | cons a items ih =>
      intro mode pending
      cases pending with
      | zero =>
          -- the item is a head, and `ih` hands over the items that it asks for
          rw [List.map_cons, marks, List.drop_zero, scan_cons token mode a items rfl,
            List.zip_cons_cons, Group.collect, ih]
          rfl
      | succ pending =>
          rw [List.map_cons, marks, List.zip_cons_cons, Group.collect, ih]
          rfl

/-- **Grouping is scanning** with adjacent text put together. -/
theorem groups_eq_scan (token : α → Token) (items : List α) :
    groups token items = Group.merge (scan token .code items) := by
  unfold groups
  rw [collect_marks]
  rfl

/-! ## Nothing is lost -/

theorem Group.members_attach (group : Group α) (groups : List (Group α)) :
    (group.attach groups).flatMap members = group.members ++ groups.flatMap members := by
  cases groups with
  | nil => rfl
  | cons next groups =>
      rw [attach]
      split
      · simp [members]
      · rfl

theorem Group.members_merge (groups : List (Group α)) :
    (merge groups).flatMap members = groups.flatMap members := by
  induction groups with
  | nil => rfl
  | cons group groups ih => rw [merge_cons, members_attach, ih, List.flatMap_cons]

theorem members_scan (token : α → Token) (items : List α) :
    ∀ mode, (scan token mode items).flatMap Group.members = items := by
  induction items using dropInduction with
  | nil => intro mode; rw [scan_nil]; rfl
  | cons a items ih =>
      intro mode
      rw [scan_cons token mode a items rfl, List.flatMap_cons, ih, Group.members,
        List.cons_append, List.take_append_drop]

/-- **Grouping divides the items.** Every item is in one group, in order. -/
theorem members_groups (token : α → Token) (items : List α) :
    (groups token items).flatMap Group.members = items := by
  rw [groups_eq_scan, Group.members_merge, members_scan]

/-! ## Only the tokens count -/

/-- A group with its members seen in another way. -/
def Group.map (f : α → β) (group : Group α) : Group β :=
  ⟨group.kind, f group.first, group.rest.map f⟩

@[simp] theorem Group.kind_map (f : α → β) (group : Group α) :
    (group.map f).kind = group.kind := rfl

@[simp] theorem Group.members_map (f : α → β) (group : Group α) :
    (group.map f).members = group.members.map f := rfl

theorem Group.attach_map (f : α → β) (group : Group α) (groups : List (Group α)) :
    (group.map f).attach (groups.map (map f)) = (group.attach groups).map (map f) := by
  cases groups with
  | nil => rfl
  | cons next groups =>
      rw [List.map_cons, attach, attach, kind_map, kind_map]
      split
      · simp [map, members]
      · rfl

theorem Group.merge_map (f : α → β) (groups : List (Group α)) :
    merge (groups.map (map f)) = (merge groups).map (map f) := by
  induction groups with
  | nil => rfl
  | cons group groups ih => rw [List.map_cons, merge_cons, ih, attach_map, merge_cons]

theorem scan_map (token : β → Token) (f : α → β) (items : List α) :
    ∀ mode, scan token mode (items.map f)
      = (scan (token ∘ f) mode items).map (Group.map f) := by
  induction items using dropInduction with
  | nil => intro mode; rw [List.map_nil, scan_nil, scan_nil, List.map_nil]
  | cons a items ih =>
      intro mode
      have hhead : Head.of mode (token (f a)) ((items.map f).map token)
          = Head.of mode ((token ∘ f) a) (items.map (token ∘ f)) := by
        rw [List.map_map]; rfl
      rw [List.map_cons, scan_cons token mode (f a) (items.map f) hhead,
        scan_cons (token ∘ f) mode a items rfl, ← List.map_drop, ih, ← List.map_take]
      rfl

/-- **Grouping sees the tokens only.** -/
theorem groups_map (token : β → Token) (f : α → β) (items : List α) :
    groups token (items.map f) = (groups (token ∘ f) items).map (Group.map f) := by
  rw [groups_eq_scan, groups_eq_scan, scan_map, Group.merge_map]

end Keybind
