import Keybind.Proofs.Runs

/-!
# Which scripts become Lua

Four things can be wrong with a script, and more than one of them at once. This
module says which of them is reported, in terms of the segments alone: which long
brackets are open where a segment stands, which segments are code, and how many
braces of the code open and close.

The emitter works with two stacks. That of the long brackets is found again as
`Surroundings`, where closers take openers off whatever their levels. That of the
scopes is not: it is tied to the braces by `Opens`, which cuts the code at each
brace that is still open and finds the rest balanced. So the stack is as high as
the opening braces outnumber the closing ones, and its top is the one brace from
which on the braces are balanced.
-/

namespace Keybind

/-! ## Where segments stand -/

/-- What encloses a segment. -/
inductive Surroundings where
  /-- A line comment. -/
  | comment
  /-- Long brackets, the innermost first; none of them in code. -/
  | within (openers : List Opener)
  deriving DecidableEq, Repr

namespace Surroundings

/-- What encloses the next segment. A closer takes off the innermost opener, whatever its level. -/
def after (surroundings : Surroundings) (segment : Segment) : Surroundings :=
  match surroundings, segment.kind with
  | comment, .lineBreak => within []
  | comment, _ => comment
  | within [], .lineComment => comment
  | within openers, .longOpen bracket => within (⟨bracket, segment.span.start⟩ :: openers)
  | within openers, .longClose _ => within openers.tail
  | within openers, _ => within openers

/-- The long brackets that are open. -/
def openers : Surroundings → List Opener
  | comment => []
  | within openers => openers

/-- What the emitter calls these surroundings. -/
def context : Surroundings → Context
  | comment => .lineComment
  | within openers => .ofOpeners openers

end Surroundings

/-- What encloses the segment after these. -/
def surroundings (segments : List Segment) : Surroundings :=
  segments.foldl Surroundings.after (.within [])

/-- Those of the segments that are code. -/
def codeFrom (surroundings : Surroundings) : List Segment → List Segment
  | [] => []
  | segment :: segments =>
    if surroundings = .within [] then segment :: codeFrom (surroundings.after segment) segments
    else codeFrom (surroundings.after segment) segments

/-- The code of a script. -/
def code (segments : List Segment) : List Segment :=
  codeFrom (.within []) segments

/-- The number of opening braces. -/
def opens (segments : List Segment) : Nat :=
  segments.countP fun segment => segment.kind = .openBrace

/-- The number of closing braces. -/
def closes (segments : List Segment) : Nat :=
  segments.countP fun segment => segment.kind = .closeBrace

theorem surroundings_snoc (segments : List Segment) (segment : Segment) :
    surroundings (segments ++ [segment]) = (surroundings segments).after segment := by
  unfold surroundings
  rw [List.foldl_append]
  rfl

theorem codeFrom_snoc (enclosing : Surroundings) (segments : List Segment) (segment : Segment) :
    codeFrom enclosing (segments ++ [segment])
      = codeFrom enclosing segments
        ++ if segments.foldl Surroundings.after enclosing = .within [] then [segment] else [] := by
  induction segments generalizing enclosing with
  | nil => rfl
  | cons first segments ih =>
      rw [List.cons_append, codeFrom, codeFrom, ih, List.foldl_cons]
      split
      · rw [List.cons_append]
      · rfl

theorem code_snoc (segments : List Segment) (segment : Segment) :
    code (segments ++ [segment])
      = code segments ++ if surroundings segments = .within [] then [segment] else [] :=
  codeFrom_snoc (.within []) segments segment

theorem opens_append (xs ys : List Segment) : opens (xs ++ ys) = opens xs + opens ys :=
  List.countP_append

theorem closes_append (xs ys : List Segment) : closes (xs ++ ys) = closes xs + closes ys :=
  List.countP_append

theorem opens_cons (segment : Segment) (segments : List Segment) :
    opens (segment :: segments)
      = opens segments + if segment.kind = .openBrace then 1 else 0 := by
  unfold opens
  rw [List.countP_cons]
  simp only [decide_eq_true_eq]

theorem closes_cons (segment : Segment) (segments : List Segment) :
    closes (segment :: segments)
      = closes segments + if segment.kind = .closeBrace then 1 else 0 := by
  unfold closes
  rw [List.countP_cons]
  simp only [decide_eq_true_eq]

/-! ## What is wrong with a segment -/

/-- A segment that cannot follow the segments `before`, and the fault. -/
inductive Offends (before : List Segment) (segment : Segment) : Fault Nat → Prop where
  /-- A closer of a long bracket, outside line comments, that does not close the innermost one. -/
  | closer {found : LongBracket} : segment.kind = .longClose found →
      surroundings before ≠ .comment →
      (∀ innermost ∈ (surroundings before).openers.head?,
        innermost.bracket.level ≠ found.level) →
      Offends before segment (.mismatchedLongBracket segment.span.start
        ((surroundings before).openers.head?.map (·.bracket)) found)
  /-- A closing brace in code that is one too many. -/
  | brace : segment.kind = .closeBrace → surroundings before = .within [] →
      opens (code before) < closes (code (before ++ [segment])) →
      Offends before segment (.unbalancedClose segment.span.start)

/-- The segment with this index offends. -/
def OffendsAt (segments : List Segment) (i : Nat) (fault : Fault Nat) : Prop :=
  ∃ segment, segments[i]? = some segment ∧ Offends (segments.take i) segment fault

/-- A segment has one fault at most. -/
theorem Offends.unique {before : List Segment} {segment : Segment} {fault other : Fault Nat}
    (h : Offends before segment fault) (h' : Offends before segment other) : fault = other := by
  cases h with
  | closer hkind _ _ =>
      cases h' with
      | closer hkind' _ _ =>
          cases hkind.symm.trans hkind'
          rfl
      | brace hkind' _ _ => cases hkind.symm.trans hkind'
  | brace hkind _ _ =>
      cases h' with
      | closer hkind' _ _ => cases hkind.symm.trans hkind'
      | brace _ _ _ => rfl

theorem offendsAt_length {before after : List Segment} {segment : Segment} {fault : Fault Nat} :
    OffendsAt (before ++ segment :: after) before.length fault ↔ Offends before segment fault := by
  unfold OffendsAt
  rw [List.take_left, List.getElem?_append_right (Nat.le_refl _), Nat.sub_self]
  constructor
  · rintro ⟨found, hfound, h⟩
    cases hfound
    exact h
  · exact fun h => ⟨segment, rfl, h⟩

/-! ## Balanced braces -/

/-- No brace closes before it opens, and none stays open. -/
structure Balanced (segments : List Segment) : Prop where
  initial : ∀ n, closes (segments.take n) ≤ opens (segments.take n)
  total : opens segments = closes segments

theorem Balanced.nil : Balanced [] :=
  ⟨fun n => by rw [List.take_nil]; exact Nat.le_refl _, rfl⟩

theorem Balanced.append {xs ys : List Segment} (hx : Balanced xs) (hy : Balanced ys) :
    Balanced (xs ++ ys) := by
  constructor
  · intro n
    rw [List.take_append, opens_append, closes_append]
    exact Nat.add_le_add (hx.initial n) (hy.initial _)
  · rw [opens_append, closes_append, hx.total, hy.total]

/-- A segment that is no brace. -/
theorem Balanced.single {segment : Segment} (hopen : segment.kind ≠ .openBrace)
    (hclose : segment.kind ≠ .closeBrace) : Balanced [segment] := by
  constructor
  · intro n
    cases n with
    | zero => exact Nat.le_refl _
    | succ n =>
        rw [List.take_succ_cons, List.take_nil, closes_cons, if_neg hclose]
        exact Nat.zero_le _
  · rw [opens_cons, closes_cons, if_neg hopen, if_neg hclose]
    rfl

/-- A pair of braces around balanced ones. -/
theorem Balanced.wrap {first last : Segment} {inside : List Segment}
    (hfirst : first.kind = .openBrace) (hlast : last.kind = .closeBrace) (h : Balanced inside) :
    Balanced (first :: (inside ++ [last])) := by
  have hopens : ∀ xs, opens (first :: xs) = opens xs + 1 := by
    intro xs
    rw [opens_cons, if_pos hfirst]
  have hcloses : ∀ xs, closes (first :: xs) = closes xs := by
    intro xs
    rw [closes_cons, hfirst]
    rfl
  have hone : opens [last] = 0 ∧ closes [last] = 1 := by
    rw [opens_cons, closes_cons, hlast]
    exact ⟨rfl, rfl⟩
  constructor
  · intro n
    cases n with
    | zero => exact Nat.le_refl _
    | succ n =>
        rw [List.take_succ_cons, hopens, hcloses, List.take_append, opens_append, closes_append]
        -- the last brace closes one more, and the first has opened one more
        have hinside := h.initial n
        have hend : closes ([last].take (n - inside.length)) ≤ 1 := by
          rw [← hone.2]
          exact (List.take_sublist _ _).countP_le
        omega
  · rw [hopens, hcloses, opens_append, closes_append, h.total]
    omega

/-! ## The braces that are still open -/

/-- Balanced but for the opening braces at these scopes, the innermost last. -/
def Opens : List Scope → List Segment → Prop
  | [], segments => Balanced segments
  | scope :: outer, segments =>
    ∃ outside brace inside, segments = outside ++ brace :: inside ∧ brace.kind = .openBrace
      ∧ brace.span.start = scope.offset ∧ Opens outer outside ∧ Balanced inside

theorem Opens.append {scopes : List Scope} {xs ys : List Segment} (hx : Opens scopes xs)
    (hy : Balanced ys) : Opens scopes (xs ++ ys) := by
  cases scopes with
  | nil => exact Balanced.append hx hy
  | cons scope outer =>
      obtain ⟨outside, brace, inside, hsplit, hkind, hoffset, houter, hinside⟩ := hx
      refine ⟨outside, brace, inside ++ ys, ?_, hkind, hoffset, houter, hinside.append hy⟩
      rw [hsplit, List.append_assoc, List.cons_append]

theorem Opens.push {scopes : List Scope} {segments : List Segment} {brace : Segment}
    (h : Opens scopes segments) (hkind : brace.kind = .openBrace) (kind : ScopeKind) :
    Opens (⟨kind, brace.span.start⟩ :: scopes) (segments ++ [brace]) :=
  ⟨segments, brace, [], rfl, hkind, rfl, h, .nil⟩

theorem Opens.pop {scope : Scope} {outer : List Scope} {segments : List Segment} {brace : Segment}
    (h : Opens (scope :: outer) segments) (hkind : brace.kind = .closeBrace) :
    Opens outer (segments ++ [brace]) := by
  obtain ⟨outside, first, inside, hsplit, hfirst, -, houter, hinside⟩ := h
  rw [hsplit, List.append_assoc, List.cons_append]
  exact houter.append (hinside.wrap hfirst hkind)

/-- As many scopes are open as opening braces outnumber closing ones. -/
theorem Opens.count {scopes : List Scope} {segments : List Segment} (h : Opens scopes segments) :
    opens segments = closes segments + scopes.length := by
  induction scopes generalizing segments with
  | nil => exact h.total
  | cons scope outer ih =>
      obtain ⟨outside, brace, inside, hsplit, hkind, -, houter, hinside⟩ := h
      have houtside := ih houter
      have htotal := hinside.total
      rw [hsplit, opens_append, closes_append, opens_cons, closes_cons, if_pos hkind, hkind,
        if_neg (by decide), List.length_cons]
      omega

/-- The innermost brace that is still open: from it on, the braces of the code are balanced. -/
def Unclosed (segments : List Segment) (brace : Segment) : Prop :=
  ∃ outside inside, code segments = outside ++ brace :: inside ∧ brace.kind = .openBrace
    ∧ Balanced inside

/-- Balanced braces hold no brace from which on they are balanced. -/
theorem Balanced.not_cut {xs inside : List Segment} {brace : Segment}
    (h : Balanced (xs ++ brace :: inside)) (hkind : brace.kind = .openBrace)
    (hinside : Balanced inside) : False := by
  have hxs := h.initial xs.length
  have htotal := h.total
  have htotal' := hinside.total
  rw [List.take_left] at hxs
  rw [opens_append, closes_append, opens_cons, closes_cons, if_pos hkind, hkind,
    if_neg (by decide)] at htotal
  omega

/-- There is one such brace at most. -/
theorem Unclosed.unique {segments : List Segment} {brace other : Segment}
    (h : Unclosed segments brace) (h' : Unclosed segments other) : brace = other := by
  obtain ⟨outside, inside, hsplit, hkind, hinside⟩ := h
  obtain ⟨outside', inside', hsplit', hkind', hinside'⟩ := h'
  rcases List.append_eq_append_iff.mp (hsplit.symm.trans hsplit') with
    ⟨between, -, hbetween⟩ | ⟨between, -, hbetween⟩
  · cases between with
    | nil => exact (List.cons.inj hbetween).1
    | cons _ between =>
        -- the other brace would lie within balanced ones
        rw [(List.cons.inj hbetween).2] at hinside
        exact (hinside.not_cut hkind' hinside').elim
  · cases between with
    | nil => exact (List.cons.inj hbetween).1.symm
    | cons _ between =>
        rw [(List.cons.inj hbetween).2] at hinside'
        exact (hinside'.not_cut hkind hinside).elim

/-! ## The emitter and its segments -/

theorem Surroundings.context_eq_code {enclosing : Surroundings} :
    enclosing.context = .code ↔ enclosing = .within [] := by
  cases enclosing with
  | comment => simp [context]
  | within openers => cases openers <;> simp [context, Context.ofOpeners]

theorem Surroundings.after_other {enclosing : Surroundings} {segment : Segment}
    (h : ¬enclosing.context.Heeds segment.kind) : enclosing.after segment = enclosing := by
  unfold after
  split
  · rename_i hk
    exact absurd hk h
  · rfl
  · rename_i hk
    exact absurd (.inl hk) h
  · rename_i openers bracket hk
    refine absurd ?_ h
    cases openers with
    | nil => exact .inr ⟨bracket, .inl hk⟩
    | cons innermost openers => exact ⟨bracket, .inl hk⟩
  · rename_i openers found hk
    refine absurd ?_ h
    cases openers with
    | nil => exact .inr ⟨found, .inr hk⟩
    | cons innermost openers => exact ⟨found, .inr hk⟩
  · rfl

/-- A segment that fits moves the context as it moves the surroundings. -/
theorem Surroundings.context_after {enclosing : Surroundings} {segment : Segment}
    {context : Context} (h : enclosing.context.advance segment = (context, none)) :
    context = (enclosing.after segment).context := by
  have hmoves := Context.moves_of_advance h
  cases enclosing with
  | comment =>
      cases hmoves with
      | newline hk => simp only [after, hk]; rfl
      | other hnone => rw [after_other hnone]
  | within openers =>
      cases openers with
      | nil =>
          cases hmoves with
          | comment hk => simp only [after, hk]; rfl
          | opener hk => simp only [after, hk]; rfl
          | other hnone => rw [after_other hnone]
      | cons innermost openers =>
          cases hmoves with
          | nested hk => simp only [after, hk]; rfl
          | closer hk => simp only [after, hk]; rfl
          | other hnone => rw [after_other hnone]

/-- A segment that does not fit is a closer without its opener. -/
theorem Surroundings.fault_iff {enclosing : Surroundings} {segment : Segment}
    {fault : Fault Nat} :
    (enclosing.context.advance segment).2 = some fault
      ↔ ∃ found, segment.kind = .longClose found ∧ enclosing ≠ .comment
        ∧ (∀ innermost ∈ enclosing.openers.head?, innermost.bracket.level ≠ found.level)
        ∧ fault = .mismatchedLongBracket segment.span.start
            (enclosing.openers.head?.map (·.bracket)) found := by
  constructor
  · intro h
    have hmoves := enclosing.context.moves segment
    rw [h] at hmoves
    generalize (enclosing.context.advance segment).1 = next at hmoves
    rcases enclosing with _ | _ | ⟨innermost, openers⟩
    · cases hmoves
    · cases hmoves with
      | stray hk => exact ⟨_, hk, nofun, nofun, rfl⟩
    · cases hmoves with
      | unfit hk hlevel => exact ⟨_, hk, nofun, hlevel, rfl⟩
  · rintro ⟨found, hk, hcomment, hlevel, rfl⟩
    rcases enclosing with _ | _ | ⟨innermost, openers⟩
    · exact absurd rfl hcomment
    · exact congrArg Prod.snd (Context.Moves.stray hk).advance_eq
    · exact congrArg Prod.snd (Context.Moves.unfit hk hlevel).advance_eq

/-- What the emitter knows of the segments it has taken. -/
structure Tracks (before : List Segment) (emitter : Emitter) : Prop where
  context : emitter.context = (surroundings before).context
  scopes : Opens emitter.scopes (code before)

theorem Tracks.inCode {before : List Segment} {emitter : Emitter} (h : Tracks before emitter) :
    emitter.context = .code ↔ surroundings before = .within [] := by
  rw [h.context]
  exact Surroundings.context_eq_code

theorem Tracks.start : Tracks [] {} :=
  ⟨rfl, .nil⟩

theorem Tracks.step {options : Options} {before : List Segment} {segment : Segment}
    {emitter next : Emitter} (h : Tracks before emitter)
    (hstep : Emitter.Step options emitter segment next) : Tracks (before ++ [segment]) next := by
  obtain ⟨hcontext, -, hout⟩ := hstep
  constructor
  · rw [surroundings_snoc]
    rw [h.context] at hcontext
    exact Surroundings.context_after hcontext
  · rw [code_snoc]
    generalize next.pieces = pieces, next.scopes = scopes at hout
    cases hout with
    | opens hctx hkind =>
        rw [if_pos (h.inCode.mp hctx)]
        exact h.scopes.push hkind _
    | closes hctx hkind hscopes =>
        rw [if_pos (h.inCode.mp hctx)]
        have hopen := h.scopes
        rw [hscopes] at hopen
        exact hopen.pop hkind
    | assigns hctx hkind =>
        rw [if_pos (h.inCode.mp hctx)]
        exact h.scopes.append (.single (by simp [hkind]) (by simp [hkind]))
    | copies hcopied =>
        -- what is copied in code is no brace, and the rest is not code
        split
        · rename_i hcode
          have hplain := hcopied (h.inCode.mpr hcode)
          exact h.scopes.append (.single (fun hk => hplain (.inl hk))
            (fun hk => hplain (.inr (.inl hk))))
        · rw [List.append_nil]
          exact h.scopes

theorem Tracks.of_accepts {options : Options} {segments : List Segment} {last : Emitter}
    (h : Emitter.Accepts options {} segments last) : Tracks segments last :=
  h.preserves .start fun _ _ _ _ _ _ htracks hstep => htracks.step hstep

/-- A closing brace in code is one too many when no scope is open. -/
theorem Tracks.closes_gt_iff {before : List Segment} {emitter : Emitter} {segment : Segment}
    (h : Tracks before emitter) (hcode : surroundings before = .within [])
    (hkind : segment.kind = .closeBrace) :
    opens (code before) < closes (code (before ++ [segment])) ↔ emitter.scopes = [] := by
  have hcount := h.scopes.count
  rw [code_snoc, if_pos hcode, closes_append, closes_cons, if_pos hkind, hcount,
    ← List.length_eq_zero_iff]
  unfold closes
  rw [List.countP_nil]
  omega

/-- A segment that is taken does not offend. -/
theorem Tracks.not_offends {options : Options} {before : List Segment} {segment : Segment}
    {emitter next : Emitter} {fault : Fault Nat} (h : Tracks before emitter)
    (hstep : Emitter.Step options emitter segment next) : ¬Offends before segment fault := by
  intro hoffends
  obtain ⟨hcontext, -, hout⟩ := hstep
  cases hoffends with
  | closer hkind hcomment hlevel =>
      have hfault := Surroundings.fault_iff.mpr ⟨_, hkind, hcomment, hlevel, rfl⟩
      rw [← h.context, hcontext] at hfault
      cases hfault
  | brace hkind hcode hcount =>
      have hscopes := (h.closes_gt_iff hcode hkind).mp hcount
      generalize next.pieces = pieces, next.scopes = scopes at hout
      cases hout with
      | opens _ hk => cases hkind.symm.trans hk
      | closes _ _ hscope => cases hscopes.symm.trans hscope
      | assigns _ hk => cases hkind.symm.trans hk
      | copies hcopied => exact hcopied (h.inCode.mpr hcode) (.inr (.inl hkind))

/-- A segment that is not taken offends. -/
theorem Tracks.offends {options : Options} {before : List Segment} {segment : Segment}
    {emitter next : Emitter} {fault : Fault Nat} (h : Tracks before emitter)
    (hfeed : emitter.feed options segment = (next, .error fault)) :
    Offends before segment fault := by
  rcases Emitter.feed_error hfeed with hfault | ⟨hctx, hkind, hscopes, rfl⟩
  · rw [h.context] at hfault
    obtain ⟨found, hkind, hcomment, hlevel, rfl⟩ := Surroundings.fault_iff.mp hfault
    exact .closer hkind hcomment hlevel
  · have hcode := h.inCode.mp hctx
    exact .brace hkind hcode ((h.closes_gt_iff hcode hkind).mpr hscopes)

/-! ## Whole scripts -/

/-- Segments that are all taken do not offend. -/
theorem not_offendsAt_of_accepts {options : Options} {before after : List Segment}
    {emitter : Emitter} (h : Emitter.Accepts options {} before emitter) {i : Nat}
    (hi : i < before.length) {fault : Fault Nat} : ¬OffendsAt (before ++ after) i fault := by
  -- the run is cut before the segment with this index
  have hcut : before = before.take i ++ before[i] :: before.drop (i + 1) := by
    rw [← List.drop_eq_getElem_cons hi, List.take_append_drop]
  rw [hcut] at h
  obtain ⟨middle, hbefore, hrest⟩ := Emitter.accepts_append h
  obtain ⟨next, hstep, -⟩ := Emitter.accepts_cons hrest
  have hoffends : ¬Offends (before.take i) before[i] fault :=
    (Tracks.of_accepts hbefore).not_offends hstep
  rintro ⟨segment, hsegment, h⟩
  rw [List.getElem?_append_left hi, List.getElem?_eq_getElem hi] at hsegment
  rw [List.take_append_of_le_length (Nat.le_of_lt hi)] at h
  cases hsegment
  exact hoffends h

/-- The first segment that offends decides. -/
theorem feedAll_of_offendsAt (options : Options) {segments : List Segment} {i : Nat}
    {fault : Fault Nat} (h : OffendsAt segments i fault)
    (hleast : ∀ j < i, ∀ other, ¬OffendsAt segments j other) :
    (({} : Emitter).feedAll options segments).2 = .error fault := by
  cases hrun : (({} : Emitter).feedAll options segments).2 with
  | ok last =>
      obtain ⟨segment, hsegment, -⟩ := id h
      have hi := (List.getElem?_eq_some_iff.mp hsegment).1
      rw [← List.append_nil segments] at h
      exact absurd h (not_offendsAt_of_accepts hrun hi)
  | error found =>
      obtain ⟨before, segment, after, middle, next, hsplit, hbefore, hfeed⟩ :=
        Emitter.feedAll_error hrun
      have hfound := (Tracks.of_accepts hbefore).offends hfeed
      rw [hsplit] at h hleast
      -- neither index is before the other, so the two segments are one
      rcases Nat.lt_trichotomy i before.length with hlt | rfl | hgt
      · exact absurd h (not_offendsAt_of_accepts hbefore hlt)
      · rw [(offendsAt_length.mp h).unique hfound]
      · exact absurd (offendsAt_length.mpr hfound) (hleast _ hgt _)

/-- Without a segment that offends, all are taken. -/
theorem accepts_of_not_offendsAt (options : Options) {segments : List Segment}
    (h : ∀ i fault, ¬OffendsAt segments i fault) :
    ∃ last, Emitter.Accepts options {} segments last := by
  cases hrun : (({} : Emitter).feedAll options segments).2 with
  | ok last => exact ⟨last, hrun⟩
  | error found =>
      obtain ⟨before, segment, after, middle, next, hsplit, hbefore, hfeed⟩ :=
        Emitter.feedAll_error hrun
      have hfound := (Tracks.of_accepts hbefore).offends hfeed
      rw [hsplit] at h
      exact absurd (offendsAt_length.mpr hfound) (h _ _)

/-- The outermost long bracket that is still open. -/
theorem Tracks.outermost {segments : List Segment} {emitter : Emitter}
    (h : Tracks segments emitter) :
    emitter.outermost? = (surroundings segments).openers.getLast? := by
  unfold Emitter.outermost?
  rw [h.context]
  cases surroundings segments with
  | comment => rfl
  | within openers => cases openers <;> rfl

/-- A long bracket that is still open, where that is not let pass. -/
theorem Tracks.finish_open {options : Options} {segments : List Segment} {emitter : Emitter}
    (h : Tracks segments emitter) {outermost : Opener}
    (houtermost : outermost ∈ (surroundings segments).openers.getLast?)
    (hreject : options.rejectUnterminated = true) :
    emitter.finish options
      = .error (.unterminatedLongBracket outermost.offset outermost.bracket) :=
  (Emitter.Finishes.bracket hreject (h.outermost.trans houtermost)).finish_eq

/-- Where the long brackets do not decide, the braces do. -/
theorem Tracks.no_open {options : Options} {segments : List Segment} {emitter : Emitter}
    (h : Tracks segments emitter)
    (hbrackets : (surroundings segments).openers = [] ∨ options.rejectUnterminated = false) :
    options.rejectUnterminated = true → emitter.outermost? = none := by
  intro hreject
  rcases hbrackets with hopeners | hlenient
  · rw [h.outermost, hopeners, List.getLast?_nil]
  · cases hreject.symm.trans hlenient

theorem Tracks.finish_unclosed {options : Options} {segments : List Segment} {emitter : Emitter}
    (h : Tracks segments emitter)
    (hbrackets : (surroundings segments).openers = [] ∨ options.rejectUnterminated = false)
    (hlt : closes (code segments) < opens (code segments)) :
    ∃ brace, Unclosed segments brace
      ∧ emitter.finish options = .error (.unbalancedOpen brace.span.start) := by
  have hopen := h.scopes
  have hcount := hopen.count
  cases hscopes : emitter.scopes with
  | nil =>
      rw [hscopes, List.length_nil] at hcount
      omega
  | cons scope outer =>
      rw [hscopes] at hopen
      obtain ⟨outside, brace, inside, hsplit, hkind, hoffset, -, hinside⟩ := hopen
      refine ⟨brace, ⟨outside, inside, hsplit, hkind, hinside⟩, ?_⟩
      rw [hoffset]
      exact (Emitter.Finishes.brace (h.no_open hbrackets) hscopes).finish_eq

theorem Tracks.finish_closed {options : Options} {segments : List Segment} {emitter : Emitter}
    (h : Tracks segments emitter)
    (hbrackets : (surroundings segments).openers = [] ∨ options.rejectUnterminated = false)
    (hle : opens (code segments) ≤ closes (code segments)) :
    emitter.finish options = .ok emitter.pieces.reverse := by
  have hcount := h.scopes.count
  have hscopes : emitter.scopes = [] := List.length_eq_zero_iff.mp (by omega)
  exact (Emitter.Finishes.whole (h.no_open hbrackets) hscopes).finish_eq

/-- **Which scripts become Lua, and what is wrong with the others.** The first segment that offends
decides. If there is none, a long bracket that is still open decides, unless that is let pass; then
the braces of the code do. -/
theorem transpile_verdict (options : Options) (source : String) :
    (∀ i fault, OffendsAt (lex source.toList) i fault →
        (∀ j < i, ∀ other, ¬OffendsAt (lex source.toList) j other) →
        transpile options source = .error (fault.locate source.toList))
      ∧ ((∀ i fault, ¬OffendsAt (lex source.toList) i fault) →
        (∀ outermost ∈ (surroundings (lex source.toList)).openers.getLast?,
          options.rejectUnterminated = true →
          transpile options source = .error ((Fault.unterminatedLongBracket outermost.offset
            outermost.bracket).locate source.toList))
        ∧ ((surroundings (lex source.toList)).openers = [] ∨ options.rejectUnterminated = false →
          (closes (code (lex source.toList)) < opens (code (lex source.toList)) →
            (∃ brace, Unclosed (lex source.toList) brace)
            ∧ ∀ brace, Unclosed (lex source.toList) brace → transpile options source
              = .error ((Fault.unbalancedOpen brace.span.start).locate source.toList))
          ∧ (opens (code (lex source.toList)) ≤ closes (code (lex source.toList)) →
            ∃ out, transpile options source = .ok out))) := by
  refine ⟨fun i fault h hleast => ?_, fun h => ?_⟩
  · exact transpile_of_error (emit_of_error (feedAll_of_offendsAt options h hleast))
  obtain ⟨last, hrun⟩ := accepts_of_not_offendsAt options h
  have hemit := emit_of_accepts hrun
  have htracks := Tracks.of_accepts hrun
  refine ⟨fun outermost houtermost hreject => ?_, fun hbrackets => ⟨fun hlt => ?_, fun hle => ?_⟩⟩
  · exact transpile_of_error (hemit.trans (htracks.finish_open houtermost hreject))
  · obtain ⟨brace, hbrace, hfinish⟩ := htracks.finish_unclosed hbrackets hlt
    refine ⟨⟨brace, hbrace⟩, fun other hother => ?_⟩
    rw [hother.unique hbrace]
    exact transpile_of_error (hemit.trans hfinish)
  · exact ⟨_, transpile_of_ok (hemit.trans (htracks.finish_closed hbrackets hle))⟩

end Keybind
