import Keybind.Proofs.Lines
import Keybind.Proofs.Verdict
import Mathlib.Data.Nat.Find

/-!
# Which braces become match scopes

The emitter decides about an opening brace by a flag that remembers an arrow, and
about a closing brace by the top of its stack of scopes. Both are found again in
the segments alone.

* The flag is up when the last segment other than white space is an arrow in
  code (`FollowsArrow`), whatever comments, long brackets and lines lie before.
* The top of the stack is the brace from which on the braces of the code are
  balanced, and it remembers whether that brace followed an arrow (`Nests`).

Two braces with balanced code between them are partners. In a script that
becomes Lua every brace of the code has one partner and pairs never cross, so
the stack pairs up exactly the partners: both are replaced, or both are kept.
-/

namespace Keybind

/-! ## Partners -/

/-- A segment of this kind stands at this index and is met in code. -/
def MetInCode (segments : List Segment) (i : Nat) (kind : SegmentKind) : Prop :=
  (∃ segment, segments[i]? = some segment ∧ segment.kind = kind)
    ∧ surroundings (segments.take i) = .within []

/-- Two braces of the code between which the braces of the code are balanced. -/
structure Partners (segments : List Segment) (i j : Nat) : Prop where
  lt : i < j
  opening : MetInCode segments i .openBrace
  closing : MetInCode segments j .closeBrace
  inside : Balanced (codeFrom (.within []) ((segments.take j).drop (i + 1)))

/-- By how many the opening braces of the code outnumber the closing ones before an index. -/
def height (segments : List Segment) (n : Nat) : Int :=
  opens (code (segments.take n)) - closes (code (segments.take n))

/-- The last segment other than white space is an arrow in code. -/
def FollowsArrow (before : List Segment) : Prop :=
  ∃ earlier arrow blanks, before = earlier ++ arrow :: blanks ∧ arrow.kind = .arrow
    ∧ surroundings earlier = .within [] ∧ ∀ blank ∈ blanks, blank.kind = .whitespace

theorem surroundings_append (xs ys : List Segment) :
    surroundings (xs ++ ys) = ys.foldl Surroundings.after (surroundings xs) := by
  unfold surroundings
  rw [List.foldl_append]

theorem codeFrom_append (enclosing : Surroundings) (xs ys : List Segment) :
    codeFrom enclosing (xs ++ ys)
      = codeFrom enclosing xs ++ codeFrom (xs.foldl Surroundings.after enclosing) ys := by
  induction xs generalizing enclosing with
  | nil => rfl
  | cons x xs ih =>
      rw [List.cons_append, codeFrom, codeFrom, ih, List.foldl_cons]
      split
      · rw [List.cons_append]
      · rfl

/-- A brace of the code leaves the code as it is. -/
theorem Surroundings.after_brace {segment : Segment}
    (h : segment.kind = .openBrace ∨ segment.kind = .closeBrace) :
    (Surroundings.within []).after segment = .within [] := by
  unfold Surroundings.after
  rcases h with h | h <;> rw [h]

/-- The code can be cut at each of its segments. -/
theorem codeFrom_split {enclosing : Surroundings} {segments xs ys : List Segment} {y : Segment}
    (h : codeFrom enclosing segments = xs ++ y :: ys) :
    ∃ before after, segments = before ++ y :: after ∧ codeFrom enclosing before = xs
      ∧ before.foldl Surroundings.after enclosing = .within [] := by
  induction segments generalizing enclosing xs with
  | nil => exact absurd h.symm (by simp [codeFrom])
  | cons segment segments ih =>
      rw [codeFrom] at h
      split at h
      · rename_i hcode
        cases xs with
        | nil => exact ⟨[], segments, by rw [(List.cons.inj h).1]; rfl, rfl, hcode⟩
        | cons x xs =>
            obtain ⟨before, after, hsplit, hbefore, hend⟩ := ih (List.cons.inj h).2
            refine ⟨segment :: before, after, by rw [hsplit]; rfl, ?_, hend⟩
            rw [codeFrom, if_pos hcode, hbefore, (List.cons.inj h).1]
      · rename_i hcode
        obtain ⟨before, after, hsplit, hbefore, hend⟩ := ih h
        refine ⟨segment :: before, after, by rw [hsplit]; rfl, ?_, hend⟩
        rw [codeFrom, if_neg hcode, hbefore]

/-- Where closing braces outnumber the opening ones, the first that is one too many has balanced
braces before it. -/
theorem exists_first_excess {segments : List Segment} (h : opens segments < closes segments) :
    ∃ inside closing after, segments = inside ++ closing :: after ∧ closing.kind = .closeBrace
      ∧ Balanced inside := by
  -- the shortest initial part in which they outnumber them
  have hexists : ∃ n, opens (segments.take n) < closes (segments.take n) :=
    ⟨segments.length, by rwa [List.take_length]⟩
  have hfirst := Nat.find_spec hexists
  have hbefore : ∀ m < Nat.find hexists, closes (segments.take m) ≤ opens (segments.take m) :=
    fun m hm => Nat.le_of_not_lt (Nat.find_min hexists hm)
  cases hn : Nat.find hexists with
  | zero => rw [hn] at hfirst; exact absurd hfirst (Nat.lt_irrefl 0)
  | succ n =>
      rw [hn] at hfirst hbefore
      have hle := hbefore n (Nat.lt_succ_self n)
      rw [List.take_add_one] at hfirst
      cases hget : segments[n]? with
      | none =>
          rw [hget, Option.toList_none, List.append_nil] at hfirst
          omega
      | some closing =>
          rw [hget, Option.toList_some, opens_append, closes_append, opens_cons, closes_cons]
            at hfirst
          obtain ⟨hlt, hclosing⟩ := List.getElem?_eq_some_iff.mp hget
          have hnone : opens ([] : List Segment) = 0 ∧ closes ([] : List Segment) = 0 := ⟨rfl, rfl⟩
          have hkind : closing.kind = .closeBrace := by
            by_contra hk
            rw [if_neg hk] at hfirst
            omega
          rw [if_pos hkind] at hfirst
          refine ⟨segments.take n, closing, segments.drop (n + 1), ?_, hkind, ?_, ?_⟩
          · rw [← hclosing, ← List.drop_eq_getElem_cons hlt, List.take_append_drop]
          · intro m
            rw [List.take_take]
            exact hbefore _ (by omega)
          · omega

namespace MetInCode

variable {segments : List Segment} {i : Nat} {kind : SegmentKind}

/-- The segments can be cut there. -/
theorem split (h : MetInCode segments i kind) :
    ∃ before segment after, segments = before ++ segment :: after ∧ before.length = i
      ∧ segments.take i = before ∧ segment.kind = kind ∧ surroundings before = .within [] := by
  obtain ⟨⟨segment, hget, hkind⟩, hcode⟩ := h
  obtain ⟨hlt, hsegment⟩ := List.getElem?_eq_some_iff.mp hget
  refine ⟨segments.take i, segment, segments.drop (i + 1), ?_, ?_, rfl, hkind, hcode⟩
  · rw [← hsegment, ← List.drop_eq_getElem_cons hlt, List.take_append_drop]
  · rw [List.length_take]
    omega

theorem of_split {before after : List Segment} {segment : Segment} (hkind : segment.kind = kind)
    (hcode : surroundings before = .within []) :
    MetInCode (before ++ segment :: after) before.length kind := by
  refine ⟨⟨segment, ?_, hkind⟩, ?_⟩
  · rw [List.getElem?_append_right (Nat.le_refl _), Nat.sub_self]
    rfl
  · rw [List.take_left]
    exact hcode

/-- A brace adds itself to the code. -/
theorem code_take (h : MetInCode segments i kind) (hkind : kind = .openBrace ∨ kind = .closeBrace) :
    ∃ brace, brace.kind = kind
      ∧ code (segments.take (i + 1)) = code (segments.take i) ++ [brace]
      ∧ surroundings (segments.take (i + 1)) = .within [] := by
  obtain ⟨⟨segment, hget, rfl⟩, hcode⟩ := h
  refine ⟨segment, rfl, ?_, ?_⟩
  · rw [List.take_add_one, hget, Option.toList_some, code_snoc, if_pos hcode]
  · rw [List.take_add_one, hget, Option.toList_some, surroundings_snoc, hcode]
    exact Surroundings.after_brace hkind

end MetInCode

namespace Partners

variable {segments : List Segment} {i j i' j' : Nat}

theorem of_split {before inside : List Segment} {opening closing : Segment}
    (hopening : opening.kind = .openBrace) (hclosing : closing.kind = .closeBrace)
    (hcode : surroundings before = .within [])
    (hcode' : surroundings (before ++ opening :: inside) = .within [])
    (hinside : Balanced (codeFrom (.within []) inside)) (after : List Segment) :
    Partners (before ++ opening :: inside ++ closing :: after) before.length
      (before ++ opening :: inside).length where
  lt := by simp
  opening := by
    rw [List.append_assoc, List.cons_append]
    exact .of_split hopening hcode
  closing := .of_split hclosing hcode'
  inside := by
    rw [List.take_left, List.append_cons, List.drop_left' (by simp)]
    exact hinside

/-- The code between the first of two partners and any segment up to the second. -/
theorem code_take (h : Partners segments i j) {n : Nat} (hin : i < n) (hnj : n ≤ j) :
    ∃ brace inside rest, brace.kind = .openBrace ∧ Balanced (inside ++ rest)
      ∧ code (segments.take n) = code (segments.take i) ++ brace :: inside
      ∧ (n = j → rest = []) := by
  obtain ⟨brace, hkind, hcode, hsurroundings⟩ := h.opening.code_take (.inl rfl)
  have htake : segments.take n = segments.take (i + 1) ++ (segments.take n).drop (i + 1) := by
    have hcut := List.take_append_drop (i + 1) (segments.take n)
    rw [List.take_take, Nat.min_eq_left hin] at hcut
    exact hcut.symm
  -- what lies inside the partners is cut where the part up to `n` ends
  have hinside : (segments.take j).drop (i + 1)
      = (segments.take n).drop (i + 1) ++ (segments.take j).drop n := by
    have hcut := List.take_append_drop (n - (i + 1)) ((segments.take j).drop (i + 1))
    rw [List.take_drop, List.drop_drop, List.take_take] at hcut
    rw [← hcut]
    congr 3 <;> omega
  refine ⟨brace, codeFrom (.within []) ((segments.take n).drop (i + 1)),
    codeFrom (((segments.take n).drop (i + 1)).foldl Surroundings.after (.within []))
      ((segments.take j).drop n), hkind, ?_, ?_, ?_⟩
  · rw [← codeFrom_append, ← hinside]
    exact h.inside
  · rw [htake, code, codeFrom_append, ← code, ← surroundings, hsurroundings, hcode,
      List.append_assoc, List.singleton_append, ← htake]
  · rintro rfl
    rw [List.drop_eq_nil_of_le (List.length_take_le ..)]
    rfl

/-- Between partners the braces are higher than before the first. -/
theorem higher (h : Partners segments i j) {n : Nat} (hin : i < n) (hnj : n ≤ j) :
    height segments i < height segments n := by
  obtain ⟨brace, inside, rest, hkind, hbalanced, hcode, -⟩ := h.code_take hin hnj
  have hinitial := hbalanced.initial inside.length
  rw [List.take_left] at hinitial
  unfold height
  rw [hcode, opens_append, closes_append, opens_cons, closes_cons, if_pos hkind, hkind,
    if_neg (by decide)]
  omega

/-- After the second partner they are as high as before the first. -/
theorem level (h : Partners segments i j) : height segments (j + 1) = height segments i := by
  obtain ⟨brace, inside, rest, hkind, hbalanced, hcode, hrest⟩ := h.code_take h.lt (Nat.le_refl j)
  obtain ⟨last, hlast, hcode', -⟩ := h.closing.code_take (.inr rfl)
  have htotal := hbalanced.total
  rw [hrest rfl, List.append_nil] at htotal
  have hone : opens [last] = 0 ∧ closes [last] = 1 := by
    rw [opens_cons, closes_cons, hlast]
    exact ⟨rfl, rfl⟩
  unfold height
  rw [hcode', hcode, opens_append, closes_append, opens_append, closes_append, opens_cons brace,
    closes_cons brace, if_pos hkind, hkind, if_neg (by decide)]
  omega

/-- **Pairs of partners are equal, apart, or one within the other.** -/
theorem nested (h : Partners segments i j) (h' : Partners segments i' j') :
    (i = i' ↔ j = j') ∧ (i < i' → i' < j → j' < j) := by
  have hlevel := h.level
  have hlevel' := h'.level
  have hlt := h.lt
  have hlt' := h'.lt
  refine ⟨⟨?_, ?_⟩, ?_⟩
  · rintro rfl
    rcases Nat.lt_trichotomy j j' with hjj | hjj | hjj
    · have hhigher := h'.higher (n := j + 1) (by omega) hjj
      omega
    · exact hjj
    · have hhigher := h.higher (n := j' + 1) (by omega) hjj
      omega
  · rintro rfl
    rcases Nat.lt_trichotomy i i' with hii | hii | hii
    · have hhigher := h.higher hii (Nat.le_of_lt hlt')
      omega
    · exact hii
    · have hhigher := h'.higher hii (Nat.le_of_lt hlt)
      omega
  · intro hii hij
    have hhigher := h.higher hii (Nat.le_of_lt hij)
    rcases Nat.lt_trichotomy j j' with hjj | rfl | hjj
    · have hhigher' := h'.higher (n := j + 1) (by omega) hjj
      omega
    · omega
    · exact hjj

end Partners

/-- In balanced code every opening brace has a partner. -/
theorem exists_partner {segments : List Segment} {i : Nat} (hbalanced : Balanced (code segments))
    (h : MetInCode segments i .openBrace) : ∃ j, Partners segments i j := by
  obtain ⟨before, opening, after, hsplit, hlength, -, hkind, hcode⟩ := h.split
  have hcodes : code segments = code before ++ opening :: codeFrom (.within []) after := by
    rw [hsplit, code, codeFrom_append, ← code, ← surroundings, hcode, codeFrom, if_pos rfl,
      Surroundings.after_brace (.inl hkind)]
  -- what follows the brace closes it, for the braces before close no more than they open
  have hexcess : opens (codeFrom (.within []) after) < closes (codeFrom (.within []) after) := by
    have hinitial := hbalanced.initial (code before).length
    have htotal := hbalanced.total
    rw [hcodes, List.take_left] at hinitial
    rw [hcodes, opens_append, closes_append, opens_cons, closes_cons, if_pos hkind, hkind,
      if_neg (by decide)] at htotal
    omega
  obtain ⟨inside, closing, rest, hinside, hclosing, hbalanced'⟩ := exists_first_excess hexcess
  obtain ⟨between, later, rfl, hbetween, hend⟩ := codeFrom_split hinside
  refine ⟨(before ++ opening :: between).length, ?_⟩
  have hcode' : surroundings (before ++ opening :: between) = .within [] := by
    rw [surroundings_append, hcode, List.foldl_cons, Surroundings.after_brace (.inl hkind), hend]
  rw [← hbetween] at hbalanced'
  have hpartners := Partners.of_split hkind hclosing hcode hcode' hbalanced' later
  rw [hsplit, ← hlength]
  rwa [List.append_assoc, List.cons_append] at hpartners

/-! ## Arrows before braces -/

theorem FollowsArrow.not_nil : ¬FollowsArrow [] := by
  rintro ⟨earlier, arrow, blanks, hsplit, -⟩
  exact absurd hsplit.symm (by simp)

/-- The last segment is the arrow, or white space that is looked through. -/
theorem followsArrow_snoc (before : List Segment) (segment : Segment) :
    FollowsArrow (before ++ [segment])
      ↔ (segment.kind = .arrow ∧ surroundings before = .within [])
        ∨ (segment.kind = .whitespace ∧ FollowsArrow before) := by
  constructor
  · rintro ⟨earlier, arrow, blanks, hsplit, harrow, hcode, hblanks⟩
    rcases List.eq_nil_or_concat' blanks with rfl | ⟨blanks, blank, rfl⟩
    · obtain ⟨rfl, hlast⟩ := List.append_inj' hsplit rfl
      cases hlast
      exact .inl ⟨harrow, hcode⟩
    · rw [← List.cons_append, ← List.append_assoc] at hsplit
      obtain ⟨hbefore, hlast⟩ := List.append_inj' hsplit rfl
      cases hlast
      exact .inr ⟨hblanks _ (List.mem_append_right _ (List.mem_singleton_self _)), earlier, arrow,
        blanks, hbefore, harrow, hcode, fun b hb => hblanks b (List.mem_append_left _ hb)⟩
  · rintro (⟨harrow, hcode⟩ | ⟨hkind, earlier, arrow, blanks, rfl, harrow, hcode, hblanks⟩)
    · exact ⟨before, segment, [], rfl, harrow, hcode, fun _ h => absurd h List.not_mem_nil⟩
    · refine ⟨earlier, arrow, blanks ++ [segment], by simp, harrow, hcode, ?_⟩
      intro blank hblank
      rcases List.mem_append.mp hblank with hmem | hmem
      · exact hblanks blank hmem
      · cases List.mem_singleton.mp hmem
        exact hkind

/-! ## The braces that are still open -/

/-- Balanced but for the opening braces of these scopes, each with its place among the segments and
the innermost last. A scope is the body of a match if its brace follows an arrow. -/
def Nests : List ScopeKind → List Segment → Prop
  | [], segments => Balanced (code segments)
  | kind :: outer, segments =>
    ∃ outside brace inside, segments = outside ++ brace :: inside ∧ brace.kind = .openBrace
      ∧ surroundings outside = .within [] ∧ (kind = .body ↔ FollowsArrow outside)
      ∧ Nests outer outside ∧ Balanced (codeFrom (.within []) inside)

/-- What lies before an open brace, and the brace, end in code. -/
theorem surroundings_brace {outside : List Segment} {brace : Segment}
    (hcode : surroundings outside = .within [])
    (hkind : brace.kind = .openBrace ∨ brace.kind = .closeBrace) (inside : List Segment) :
    surroundings (outside ++ brace :: inside) = inside.foldl Surroundings.after (.within []) := by
  rw [surroundings_append, hcode, List.foldl_cons, Surroundings.after_brace hkind]

namespace Nests

theorem append {scopes : List ScopeKind} {xs ys : List Segment} (hx : Nests scopes xs)
    (hy : Balanced (codeFrom (surroundings xs) ys)) : Nests scopes (xs ++ ys) := by
  cases scopes with
  | nil =>
      unfold Nests code
      rw [codeFrom_append]
      exact Balanced.append hx hy
  | cons kind outer =>
      obtain ⟨outside, brace, inside, rfl, hkind, hcode, hbody, houter, hinside⟩ := hx
      rw [surroundings_brace hcode (.inl hkind)] at hy
      refine ⟨outside, brace, inside ++ ys, by simp, hkind, hcode, hbody, houter, ?_⟩
      rw [codeFrom_append]
      exact hinside.append hy

theorem push {scopes : List ScopeKind} {segments : List Segment} {brace : Segment}
    {kind : ScopeKind} (h : Nests scopes segments) (hkind : brace.kind = .openBrace)
    (hcode : surroundings segments = .within []) (hbody : kind = .body ↔ FollowsArrow segments) :
    Nests (kind :: scopes) (segments ++ [brace]) :=
  ⟨segments, brace, [], rfl, hkind, hcode, hbody, h, .nil⟩

theorem pop {kind : ScopeKind} {outer : List ScopeKind} {segments : List Segment} {brace : Segment}
    (h : Nests (kind :: outer) segments) (hkind : brace.kind = .closeBrace)
    (hcode : surroundings segments = .within []) : Nests outer (segments ++ [brace]) := by
  obtain ⟨outside, first, inside, rfl, hfirst, hcode', -, houter, hinside⟩ := h
  rw [surroundings_brace hcode' (.inl hfirst)] at hcode
  rw [List.append_assoc, List.cons_append]
  refine houter.append ?_
  rw [hcode', codeFrom, if_pos rfl, Surroundings.after_brace (.inl hfirst), codeFrom_append, hcode]
  exact hinside.wrap hfirst hkind

/-- The top of the stack is the partner of the next closing brace. -/
theorem partners {kind : ScopeKind} {outer : List ScopeKind} {before : List Segment}
    {brace : Segment} (h : Nests (kind :: outer) before) (hkind : brace.kind = .closeBrace)
    (hcode : surroundings before = .within []) (after : List Segment) :
    ∃ i, Partners (before ++ brace :: after) i before.length
      ∧ (kind = .body ↔ FollowsArrow ((before ++ brace :: after).take i)) := by
  obtain ⟨outside, first, inside, rfl, hfirst, hcode', hbody, -, hinside⟩ := h
  refine ⟨outside.length, .of_split hfirst hkind hcode' hcode hinside after, ?_⟩
  rw [List.append_assoc, List.take_left]
  exact hbody

end Nests

/-- What the emitter remembers of the segments it has taken, as far as braces go. -/
structure Remembers (before : List Segment) (emitter : Emitter) : Prop where
  tracks : Tracks before emitter
  arrow : emitter.afterArrow = true ↔ FollowsArrow before
  scopes : Nests (emitter.scopes.map (·.kind)) before

namespace Remembers

theorem start : Remembers [] {} where
  tracks := .start
  arrow := ⟨fun h => absurd h Bool.false_ne_true, fun h => absurd h FollowsArrow.not_nil⟩
  scopes := Balanced.nil

/-- The flag after a segment. -/
theorem arrow_step {before : List Segment} {segment : Segment} {emitter : Emitter}
    (h : Remembers before emitter) :
    emitter.arrowAfter segment = true ↔ FollowsArrow (before ++ [segment]) := by
  rw [followsArrow_snoc, Emitter.arrowAfter]
  split
  · rename_i hkind
    rw [h.arrow, hkind]
    simp
  · rename_i hkind
    rw [Bool.and_eq_true, decide_eq_true_iff, decide_eq_true_iff, h.tracks.inCode]
    simp [hkind, and_comm]

/-- The scopes after a segment. -/
theorem scopes_step {options : Options} {before : List Segment} {segment : Segment}
    {emitter next : Emitter} (h : Remembers before emitter)
    (hstep : Emitter.Step options emitter segment next) :
    Nests (next.scopes.map (·.kind)) (before ++ [segment]) := by
  have hinCode := h.tracks.inCode
  have hout := hstep.output
  generalize next.pieces = pieces, next.scopes = scopes at hout
  cases hout with
  | opens hctx hkind =>
      refine h.scopes.push hkind (hinCode.mp hctx) ?_
      rw [← h.arrow, Emitter.scopeKind]
      cases emitter.afterArrow <;> simp
  | closes hctx hkind hscopes =>
      have hopen := h.scopes
      rw [hscopes, List.map_cons] at hopen
      exact hopen.pop hkind (hinCode.mp hctx)
  | assigns hctx hkind =>
      refine h.scopes.append ?_
      rw [hinCode.mp hctx]
      exact .single (by simp [hkind]) (by simp [hkind])
  | copies hcopied =>
      refine h.scopes.append ?_
      rw [codeFrom]
      split
      · rename_i hcode
        have hplain := hcopied (hinCode.mpr hcode)
        exact .single (fun hk => hplain (.inl hk)) (fun hk => hplain (.inr (.inl hk)))
      · exact .nil

theorem step {options : Options} {before : List Segment} {segment : Segment}
    {emitter next : Emitter} (h : Remembers before emitter)
    (hstep : Emitter.Step options emitter segment next) :
    Remembers (before ++ [segment]) next where
  tracks := h.tracks.step hstep
  arrow := by rw [hstep.afterArrow]; exact h.arrow_step
  scopes := h.scopes_step hstep

theorem of_accepts {options : Options} {segments : List Segment} {last : Emitter}
    (h : Emitter.Accepts options {} segments last) : Remembers segments last :=
  h.preserves start fun _ _ _ _ _ _ hremembers hstep => hremembers.step hstep

end Remembers

/-! ## What becomes of the braces -/

namespace Standing

variable {standing : Standing} {segment : Segment}

theorem role_eq_assign :
    standing.role segment = .assign ↔ standing.context = .code ∧ segment.kind = .arrow := by
  unfold role
  split <;> grind

theorem role_eq_openBody :
    standing.role segment = .openBody
      ↔ standing.context = .code ∧ segment.kind = .openBrace ∧ standing.afterArrow = true := by
  unfold role
  split <;> grind

theorem role_eq_closeBody :
    standing.role segment = .closeBody
      ↔ standing.context = .code ∧ segment.kind = .closeBrace
        ∧ standing.scopes.head? = some .body := by
  unfold role
  split <;> grind

/-- A scope is counted when it opens, or it was open before; and when it closes, or it is open
still. -/
theorem count_body (standing : Standing) (segment : Segment) :
    (if standing.role segment = .openBody then 1 else 0) + standing.scopes.count .body
      = (if standing.role segment = .closeBody then 1 else 0)
        + (standing.after segment).scopes.count .body := by
  by_cases hstructural : standing.context = .code ∧ Emitter.IsStructural segment.kind
  · obtain ⟨hctx, hkind | hkind | hkind⟩ := hstructural <;> unfold role after scopesAfter
    · rw [hctx, hkind]
      cases standing.afterArrow <;> simp [Nat.add_comm]
    · rw [hctx, hkind]
      cases standing.scopes with
      | nil => rfl
      | cons kind outer => cases kind <;> simp [Nat.add_comm]
    · rw [hctx, hkind]
      rfl
  · obtain ⟨hrole, hscopes⟩ := standing.of_not_structural segment (not_and.mp hstructural)
    rw [hrole, after, hscopes]
    rfl

end Standing

/-- What becomes of the segment with this index. -/
def roleAt (segments : List Segment) (i : Nat) : Option Role :=
  (roles {} segments)[i]?.map Prod.fst

theorem roles_append (standing : Standing) (xs ys : List Segment) :
    roles standing (xs ++ ys)
      = roles standing xs ++ roles (xs.foldl Standing.after standing) ys := by
  induction xs generalizing standing with
  | nil => rfl
  | cons x xs ih => rw [List.cons_append, roles, roles, ih, List.foldl_cons, List.cons_append]

theorem roles_count (standing : Standing) (segments : List Segment) :
    (roles standing segments).countP (·.1 = .openBody) + standing.scopes.count .body
      = (roles standing segments).countP (·.1 = .closeBody)
        + (segments.foldl Standing.after standing).scopes.count .body := by
  induction segments generalizing standing with
  | nil => rfl
  | cons segment segments ih =>
      have hstep := standing.count_body segment
      have hrest := ih (standing.after segment)
      rw [roles, List.countP_cons, List.countP_cons, List.foldl_cons]
      simp only [decide_eq_true_eq]
      omega

/-- A run moves on where the next segment stands. -/
theorem Emitter.Accepts.standing {options : Options} {segments : List Segment} {last : Emitter}
    (h : Emitter.Accepts options {} segments last) :
    last.standing = segments.foldl Standing.after {} := by
  refine h.preserves (P := fun before emitter =>
    emitter.standing = before.foldl Standing.after {}) rfl ?_
  intro before segment _ emitter next _ hinv hstep
  rw [hstep.standing, hinv, List.foldl_append]
  rfl

/-- What becomes of a segment that is taken. -/
theorem roleAt_length {options : Options} {before : List Segment} {emitter : Emitter}
    (h : Emitter.Accepts options {} before emitter) (segment : Segment) (after : List Segment) :
    roleAt (before ++ segment :: after) before.length = some (emitter.standing.role segment) := by
  have hlength : (roles {} before).length = before.length := by
    rw [← List.length_map Prod.snd, map_snd_roles]
  unfold roleAt
  rw [roles_append, List.getElem?_append_right (Nat.le_of_eq hlength), hlength, Nat.sub_self, roles,
    ← h.standing]
  rfl

theorem exists_of_roleAt {segments : List Segment} {i : Nat} {role : Role}
    (h : roleAt segments i = some role) : ∃ segment, segments[i]? = some segment := by
  obtain ⟨⟨_, segment⟩, hitem, -⟩ := Option.map_eq_some_iff.mp h
  refine ⟨segment, ?_⟩
  rw [← map_snd_roles {} segments, List.getElem?_map, hitem]
  rfl

section Run

variable {options : Options} {segments : List Segment} {last : Emitter}

/-- Every segment of a run is taken in a state that remembers those before. -/
theorem exists_taken (hrun : Emitter.Accepts options {} segments last) {i : Nat}
    {segment : Segment} (hget : segments[i]? = some segment) :
    ∃ emitter next, Remembers (segments.take i) emitter
      ∧ Emitter.Step options emitter segment next
      ∧ roleAt segments i = some (emitter.standing.role segment) := by
  obtain ⟨hlt, hsegment⟩ := List.getElem?_eq_some_iff.mp hget
  have hsplit : segments = segments.take i ++ segment :: segments.drop (i + 1) := by
    rw [← hsegment, ← List.drop_eq_getElem_cons hlt, List.take_append_drop]
  have hlength : (segments.take i).length = i := List.length_take_of_le (Nat.le_of_lt hlt)
  rw [hsplit] at hrun
  obtain ⟨emitter, hbefore, hrest⟩ := Emitter.accepts_append hrun
  obtain ⟨next, hstep, -⟩ := Emitter.accepts_cons hrest
  refine ⟨emitter, next, .of_accepts hbefore, hstep, ?_⟩
  have hrole := roleAt_length hbefore segment (segments.drop (i + 1))
  rwa [hlength, ← hsplit] at hrole

/-- **An opening brace of the code is replaced if it follows an arrow**, and no other segment is
replaced like it. -/
theorem roleAt_eq_openBody (hrun : Emitter.Accepts options {} segments last) (i : Nat) :
    roleAt segments i = some .openBody
      ↔ MetInCode segments i .openBrace ∧ FollowsArrow (segments.take i) := by
  constructor
  · intro h
    obtain ⟨segment, hget⟩ := exists_of_roleAt h
    obtain ⟨emitter, next, hremembers, -, hrole⟩ := exists_taken hrun hget
    obtain ⟨hctx, hkind, harrow⟩ :=
      Standing.role_eq_openBody.mp (Option.some.inj (hrole.symm.trans h))
    exact ⟨⟨⟨segment, hget, hkind⟩, hremembers.tracks.inCode.mp hctx⟩,
      hremembers.arrow.mp harrow⟩
  · rintro ⟨⟨⟨segment, hget, hkind⟩, hcode⟩, hfollows⟩
    obtain ⟨emitter, next, hremembers, -, hrole⟩ := exists_taken hrun hget
    rw [hrole]
    exact congrArg some (Standing.role_eq_openBody.mpr
      ⟨hremembers.tracks.inCode.mpr hcode, hkind, hremembers.arrow.mpr hfollows⟩)

/-- A closing brace of the code has a partner, and is replaced if that follows an arrow. -/
theorem roleAt_closing (hrun : Emitter.Accepts options {} segments last) {j : Nat}
    (h : MetInCode segments j .closeBrace) :
    ∃ i, Partners segments i j
      ∧ (roleAt segments j = some .closeBody ↔ FollowsArrow (segments.take i)) := by
  obtain ⟨before, brace, after, hsplit, hlength, hbefore, hkind, hcode⟩ := h.split
  have hget : segments[j]? = some brace := by
    rw [hsplit, ← hlength, List.getElem?_append_right (Nat.le_refl _), Nat.sub_self]
    rfl
  obtain ⟨emitter, next, hremembers, hstep, hrole⟩ := exists_taken hrun hget
  rw [hbefore] at hremembers
  have hctx := hremembers.tracks.inCode.mpr hcode
  have hout := hstep.output
  generalize next.pieces = pieces, next.scopes = scopes at hout
  cases hout with
  | opens _ hk => cases hkind.symm.trans hk
  | assigns _ hk => cases hkind.symm.trans hk
  | copies hcopied => exact absurd (.inr (.inl hkind)) (hcopied hctx)
  | @closes scope outer _ _ hscopes =>
      have hnests := hremembers.scopes
      rw [hscopes, List.map_cons] at hnests
      obtain ⟨i, hpartners, hbody⟩ := hnests.partners hkind hcode after
      rw [← hsplit, hlength] at hpartners
      rw [← hsplit] at hbody
      refine ⟨i, hpartners, ?_⟩
      rw [← hbody, hrole, Option.some.injEq, Standing.role_eq_closeBody, Emitter.standing, hscopes]
      simp [hctx, hkind]

/-- **A closing brace is replaced if its partner is**, and no other segment is replaced like it. -/
theorem roleAt_eq_closeBody (hrun : Emitter.Accepts options {} segments last) (j : Nat) :
    roleAt segments j = some .closeBody
      ↔ ∃ i, Partners segments i j ∧ roleAt segments i = some .openBody := by
  constructor
  · intro h
    obtain ⟨segment, hget⟩ := exists_of_roleAt h
    obtain ⟨emitter, next, hremembers, -, hrole⟩ := exists_taken hrun hget
    obtain ⟨hctx, hkind, -⟩ := Standing.role_eq_closeBody.mp (Option.some.inj (hrole.symm.trans h))
    obtain ⟨i, hpartners, hfollows⟩ :=
      roleAt_closing hrun ⟨⟨segment, hget, hkind⟩, hremembers.tracks.inCode.mp hctx⟩
    exact ⟨i, hpartners,
      (roleAt_eq_openBody hrun i).mpr ⟨hpartners.opening, hfollows.mp h⟩⟩
  · rintro ⟨i, hpartners, hrole⟩
    obtain ⟨i', hpartners', hfollows⟩ := roleAt_closing hrun hpartners.closing
    -- a brace has one partner only
    obtain rfl := (hpartners.nested hpartners').1.mpr rfl
    exact hfollows.mpr ((roleAt_eq_openBody hrun i).mp hrole).2

/-- Braces that are not replaced are copied. -/
theorem roleAt_brace (hrun : Emitter.Accepts options {} segments last) {i : Nat} {brace : Segment}
    (hget : segments[i]? = some brace) :
    (brace.kind = .openBrace →
        roleAt segments i = some .openBody ∨ roleAt segments i = some .copied)
      ∧ (brace.kind = .closeBrace →
        roleAt segments i = some .closeBody ∨ roleAt segments i = some .copied) := by
  obtain ⟨emitter, next, -, -, hrole⟩ := exists_taken hrun hget
  rw [hrole, Option.some.injEq, Option.some.injEq, Option.some.injEq]
  unfold Standing.role
  refine ⟨fun hkind => ?_, fun hkind => ?_⟩ <;> split <;> grind

/-- Outside code every segment is copied. -/
theorem roleAt_outside (hrun : Emitter.Accepts options {} segments last) {i : Nat}
    {segment : Segment} (hget : segments[i]? = some segment)
    (hcode : surroundings (segments.take i) ≠ .within []) :
    roleAt segments i = some .copied := by
  obtain ⟨emitter, next, hremembers, -, hrole⟩ := exists_taken hrun hget
  have hplain := emitter.standing.of_not_structural segment fun hctx =>
    absurd (hremembers.tracks.inCode.mp hctx) hcode
  rw [hrole, hplain.1]

end Run

/-- **Which braces become match scopes.** The output writes, in order, what becomes of the segments.
An opening brace of the code that follows an arrow becomes the start of a scope, and its partner the
end; all other braces are copied. Every brace of the code has one partner, pairs never cross, and
as many scopes are ended as are started. -/
theorem braces_become_scopes {options : Options} {source out : String}
    (h : transpile options source = .ok out) :
    out.toList = writeOn options [] (roles {} (lex source.toList))
      ∧ (∀ i, roleAt (lex source.toList) i = some .openBody
          ↔ MetInCode (lex source.toList) i .openBrace
            ∧ FollowsArrow ((lex source.toList).take i))
      ∧ (∀ j, roleAt (lex source.toList) j = some .closeBody
          ↔ ∃ i, Partners (lex source.toList) i j
            ∧ roleAt (lex source.toList) i = some .openBody)
      ∧ (∀ i brace, (lex source.toList)[i]? = some brace →
          (brace.kind = .openBrace → brace.text = ['{']
            ∧ (roleAt (lex source.toList) i = some .openBody
              ∨ roleAt (lex source.toList) i = some .copied))
          ∧ (brace.kind = .closeBrace → brace.text = ['}']
            ∧ (roleAt (lex source.toList) i = some .closeBody
              ∨ roleAt (lex source.toList) i = some .copied)))
      ∧ (∀ i segment, (lex source.toList)[i]? = some segment →
          surroundings ((lex source.toList).take i) ≠ .within [] →
          roleAt (lex source.toList) i = some .copied)
      ∧ (∀ i, MetInCode (lex source.toList) i .openBrace →
          ∃ j, Partners (lex source.toList) i j)
      ∧ (∀ j, MetInCode (lex source.toList) j .closeBrace →
          ∃ i, Partners (lex source.toList) i j)
      ∧ (∀ i j i' j', Partners (lex source.toList) i j → Partners (lex source.toList) i' j' →
          (i = i' ↔ j = j') ∧ (i < i' → i' < j → j' < j))
      ∧ (roles {} (lex source.toList)).countP (·.1 = .openBody)
        = (roles {} (lex source.toList)).countP (·.1 = .closeBody) := by
  obtain ⟨last, hrun, hscopes, hout⟩ := transpile_ok h
  refine ⟨?_, roleAt_eq_openBody hrun, roleAt_eq_closeBody hrun, ?_,
    fun i segment => roleAt_outside hrun, ?_, ?_, ?_, ?_⟩
  · rw [hout, String.toList_ofList, hrun.writes_start]
  · intro i brace hget
    have hspells := spells_lex (List.mem_of_getElem? hget)
    obtain ⟨hopening, hclosing⟩ := roleAt_brace hrun hget
    refine ⟨fun hkind => ⟨?_, hopening hkind⟩, fun hkind => ⟨?_, hclosing hkind⟩⟩ <;>
    · rw [hkind] at hspells
      exact hspells
  · -- no scope is open at the end, so the braces of the code are balanced
    have hnests := (Remembers.of_accepts hrun).scopes
    rw [hscopes] at hnests
    exact fun i => exists_partner hnests
  · intro j hclosing
    obtain ⟨i, hpartners, -⟩ := roleAt_closing hrun hclosing
    exact ⟨i, hpartners⟩
  · exact fun i j i' j' hpartners hpartners' => hpartners.nested hpartners'
  · have hcount := roles_count {} (lex source.toList)
    rw [← hrun.standing, Emitter.standing, hscopes] at hcount
    simpa only [List.map_nil, List.count_nil, Nat.add_zero] using hcount

/-- A table in the body of a match, and a brace in a comment: the last brace ends the body. -/
theorem braces_become_scopes_table :
    transpile {} "a => \x7b\nt = \x7b -- \x7d\n\x7d\n\x7d"
        = .ok "__match[a] = MatchScope.new(function (__match)\nt = \x7b -- \x7d\n\x7d\nend)"
      ∧ roleAt (lex "a => \x7b\nt = \x7b -- \x7d\n\x7d\n\x7d".toList) 17 = some .closeBody
      ∧ ∃ i, Partners (lex "a => \x7b\nt = \x7b -- \x7d\n\x7d\n\x7d".toList) i 17
        ∧ roleAt (lex "a => \x7b\nt = \x7b -- \x7d\n\x7d\n\x7d".toList) i = some .openBody := by
  have h : transpile {} "a => \x7b\nt = \x7b -- \x7d\n\x7d\n\x7d"
      = .ok "__match[a] = MatchScope.new(function (__match)\nt = \x7b -- \x7d\n\x7d\nend)" := by
    rfl
  have hlast : roleAt (lex "a => \x7b\nt = \x7b -- \x7d\n\x7d\n\x7d".toList) 17
      = some .closeBody := by rfl
  exact ⟨h, hlast, ((braces_become_scopes h).2.2.1 17).mp hlast⟩

end Keybind
