import Keybind.Json
import Keybind.Proofs.Listings
import Keybind.Proofs.Parsers

/-!
# The grammar of JSON texts, and a reader

`Json.Writes` is the grammar: which texts stand for a value. A text may hold
blanks between its parts, and a character of a string may be written in several
ways, so a value has many texts. There are no texts for what is no value here,
such as fractions. `Json.read?` reads a text without looking back, one part after
the other.

The two agree: a text is read as a value if and only if it stands for it
(`read?_eq_some_iff`), so no text stands for two values. The indented text of a
value is one of its texts (`writes_pretty`), and so is read as the value.

Both directions follow the nesting. A text that stands for a value is longer
than the texts of its parts, which is why the length of the text is nesting
enough for the reader.
-/

namespace Keybind.Json

open Keybind.Parser (Sound Advances Each)

/-! ## Characters of strings -/

/-- The character of a short escape. -/
def ofShortEscape? (e : Char) : Option Char :=
  match e with
  | '"' => some '"'
  | '\\' => some '\\'
  | '/' => some '/'
  | 'b' => some '\x08'
  | 'f' => some '\x0c'
  | 'n' => some '\n'
  | 'r' => some '\r'
  | 't' => some '\t'
  | _ => none

/-- The value of a hexadecimal digit, in either case. -/
def hexDigit? (c : Char) : Option Nat :=
  Text.hexDigit? c.toLower

/-- The number of four hexadecimal digits. -/
def unit? (digits : List Char) : Option Nat :=
  match digits with
  | [a, b, c, d] => do
    return 4096 * (← hexDigit? a) + 256 * (← hexDigit? b) + 16 * (← hexDigit? c) + (← hexDigit? d)
  | _ => none

/-- The character with a number, unless the number is a half of a pair. -/
def ofUnit? (n : Nat) : Option Char :=
  if n < 0xD800 ∨ 0xDFFF < n then some (Char.ofNat n) else none

/-- The character of a pair of numbers, each of which is a half. -/
def ofPair? (high low : Nat) : Option Char :=
  if 0xD800 ≤ high ∧ high < 0xDC00 ∧ 0xDC00 ≤ low ∧ low < 0xE000 then
    some (Char.ofNat (0x10000 + (high - 0xD800) * 0x400 + (low - 0xDC00)))
  else none

/-- How a character may be written within a string. -/
inductive Spells : Char → List Char → Prop where
  | plain {c : Char} : 0x20 ≤ c.toNat → c ≠ '"' → c ≠ '\\' → Spells c [c]
  | short {c e : Char} : ofShortEscape? e = some c → Spells c ['\\', e]
  | unit {c : Char} {n : Nat} {ds : List Char} : unit? ds = some n → ofUnit? n = some c →
      Spells c ('\\' :: 'u' :: ds)
  | pair {c : Char} {high low : Nat} {ds es : List Char} : unit? ds = some high →
      unit? es = some low → ofPair? high low = some c →
      Spells c ('\\' :: 'u' :: ds ++ '\\' :: 'u' :: es)

/-! ## Values -/

/-- What may stand between the parts of a text. -/
def isSpace (c : Char) : Bool :=
  c == ' ' || c == '\t' || c == '\n' || c == '\r'

/-- Blanks, as many as one likes. -/
def Blank (cs : List Char) : Prop :=
  ∀ c ∈ cs, isSpace c = true

/-- The digits of a count: at least one, and a zero in front stands alone. -/
def IsCount (digits : List Char) : Prop :=
  digits ≠ [] ∧ (∀ d ∈ digits, d.isDigit = true) ∧ (digits.head? = some '0' → digits = ['0'])

instance (digits : List Char) : Decidable (IsCount digits) :=
  inferInstanceAs (Decidable (_ ∧ _))

/-- A string with its quotation marks. -/
inductive Quotes : List Char → List Char → Prop where
  | mk {text cs : List Char} : Each Spells text cs → Quotes text ('"' :: cs ++ ['"'])

/-- At least one item, with blanks around each and a comma between any two. -/
inductive Listed {α : Type} (R : α → List Char → Prop) : List α → List Char → Prop where
  | last {a : α} {before cs after : List Char} : Blank before → R a cs → Blank after →
      Listed R [a] (before ++ cs ++ after)
  | more {a : α} {as : List α} {before cs after ds : List Char} : Blank before → R a cs →
      Blank after → Listed R as ds → Listed R (a :: as) (before ++ cs ++ after ++ ',' :: ds)

/-- What stands between two brackets: blanks, or items. -/
inductive Enclosed {α : Type} (R : α → List Char → Prop) : List α → List Char → Prop where
  | none {cs : List Char} : Blank cs → Enclosed R [] cs
  | some {as : List α} {cs : List Char} : Listed R as cs → Enclosed R as cs

/-- An entry of an object: its key, a colon, and its value. -/
inductive Entry (R : Json → List Char → Prop) : String × Json → List Char → Prop where
  | mk {key ks before after cs : List Char} {value : Json} : Quotes key ks → Blank before →
      Blank after → R value cs →
      Entry R (String.ofList key, value) (ks ++ before ++ ':' :: after ++ cs)

/-- The texts that stand for a value, without blanks around them. -/
inductive Writes : Json → List Char → Prop where
  | isTrue : Writes (bool true) ['t', 'r', 'u', 'e']
  | isFalse : Writes (bool false) ['f', 'a', 'l', 's', 'e']
  | number {ds : List Char} : IsCount ds → Writes (number (Nat.ofDigitChars 10 ds 0)) ds
  | string {text cs : List Char} : Quotes text cs → Writes (string text) cs
  | array {items : List Json} {cs : List Char} : Enclosed Writes items cs →
      Writes (array items) ('[' :: cs ++ [']'])
  | object {entries : List (String × Json)} {cs : List Char} : Enclosed (Entry Writes) entries cs →
      Writes (object entries) ('\x7b' :: cs ++ ['\x7d'])

/-- A text with blanks around it. -/
def Padded {α : Type} (R : α → List Char → Prop) (a : α) (cs : List Char) : Prop :=
  ∃ before core after, cs = before ++ core ++ after ∧ Blank before ∧ R a core ∧ Blank after

theorem blank_nil : Blank [] :=
  fun _ hc => (List.not_mem_nil hc).elim

theorem Blank.append {cs ds : List Char} (h : Blank cs) (h' : Blank ds) : Blank (cs ++ ds) :=
  List.forall_mem_append.mpr ⟨h, h'⟩

/-- Blanks may follow the last item. -/
theorem Listed.pad {α : Type} {R : α → List Char → Prop} {as : List α} {cs blanks : List Char}
    (h : Listed R as cs) (hblanks : Blank blanks) : Listed R as (cs ++ blanks) := by
  induction h with
  | @last a before cs after hbefore ha hafter =>
      rw [List.append_assoc]
      exact .last hbefore ha (hafter.append hblanks)
  | @more a as before cs after ds hbefore ha hafter _ ih =>
      rw [List.append_assoc, List.cons_append]
      exact .more hbefore ha hafter ih

theorem Spells.ne_nil {c : Char} {ds : List Char} (h : Spells c ds) : ds ≠ [] := by
  cases h <;> simp

theorem not_isDigit_of_isSpace {c : Char} (h : isSpace c = true) : c.isDigit = false := by
  simp only [isSpace, Bool.or_eq_true, beq_iff_eq] at h
  rcases h with ((rfl | rfl) | rfl) | rfl <;> rfl

/-- The text starts, and not with a blank. -/
def Unpadded (cs : List Char) : Prop :=
  ∃ c ∈ cs.head?, isSpace c = false

theorem Unpadded.append {cs : List Char} (h : Unpadded cs) (rest : List Char) :
    ∀ c ∈ (cs ++ rest).head?, isSpace c = false := by
  obtain ⟨d, hd, hspace⟩ := h
  intro c hc
  rw [List.head?_append, Option.mem_def.mp hd] at hc
  cases hc
  exact hspace

theorem Writes.unpadded {v : Json} {cs : List Char} (h : Writes v cs) : Unpadded cs := by
  cases h with
  | isTrue => exact ⟨'t', rfl, rfl⟩
  | isFalse => exact ⟨'f', rfl, rfl⟩
  | number hcount =>
      obtain ⟨d, ds, rfl⟩ := List.exists_cons_of_ne_nil hcount.1
      refine ⟨d, rfl, Bool.eq_false_iff.mpr fun hspace => ?_⟩
      have hdigit := hcount.2.1 d List.mem_cons_self
      rw [not_isDigit_of_isSpace hspace] at hdigit
      cases hdigit
  | string hquotes =>
      obtain ⟨htext⟩ := hquotes
      exact ⟨'"', rfl, rfl⟩
  | array _ => exact ⟨'[', rfl, rfl⟩
  | object _ => exact ⟨'\x7b', rfl, rfl⟩

theorem Entry.unpadded {item : String × Json} {cs : List Char} (h : Entry Writes item cs) :
    Unpadded cs := by
  obtain ⟨hkey, _, _, _⟩ := h
  obtain ⟨_⟩ := hkey
  exact ⟨'"', rfl, rfl⟩

/-! ## The reader -/

namespace Reader

open Keybind.Parser

/-- Four hexadecimal digits. -/
def unit : Parser Nat := fun cs =>
  (unit? (cs.take 4)).map (·, cs.drop 4)

/-- A number in hexadecimal, or two that are the halves of a pair. -/
def code : Parser Char := do
  let n ← unit
  match ofUnit? n with
  | some c => return c
  | none =>
    word ['\\', 'u']
    let low ← unit
    match ofPair? n low with
    | some c => return c
    | none => failure

/-- One character of a string. -/
def character : Parser Char
  | '\\' :: 'u' :: cs => code cs
  | '\\' :: e :: cs => (ofShortEscape? e).map (·, cs)
  | c :: cs => if 0x20 ≤ c.toNat ∧ c ≠ '"' ∧ c ≠ '\\' then some (c, cs) else none
  | [] => none

/-- A string with its quotation marks. -/
def quotes : Parser (List Char) := do
  let _ ← only '"'
  let text ← many character
  let _ ← only '"'
  return text

/-- A count. -/
def count : Parser Json := do
  let digits ← takeWhile Char.isDigit
  if IsCount digits then return .number (Nat.ofDigitChars 10 digits 0) else failure

/-- Something with blanks around it. -/
def padded {α : Type} (p : Parser α) : Parser α := do
  let _ ← takeWhile isSpace
  let a ← p
  let _ ← takeWhile isSpace
  return a

/-- Items between two brackets. -/
def enclosed {α : Type} (left right : Char) (p : Parser α) : Parser (List α) := do
  let _ ← only left
  let items ← separated (padded p) (only ',')
  let _ ← takeWhile isSpace
  let _ ← only right
  return items

/-- An entry of an object, given how values are read. -/
def entry (value : Parser Json) : Parser (String × Json) := do
  let key ← quotes
  let _ ← padded (only ':')
  let v ← value
  return (String.ofList key, v)

/-- A value that is nested no deeper than `depth`. Its first character tells what it is. -/
def value : Nat → Parser Json
  | 0, _ => none
  | depth + 1, cs =>
    match cs.head? with
    | some 't' => (do word ['t', 'r', 'u', 'e']; return .bool true : Parser Json) cs
    | some 'f' => (do word ['f', 'a', 'l', 's', 'e']; return .bool false : Parser Json) cs
    | some '"' => (.string <$> quotes) cs
    | some '[' => (.array <$> enclosed '[' ']' (value depth)) cs
    | some '\x7b' => (.object <$> enclosed '\x7b' '\x7d' (entry (value depth))) cs
    | _ => count cs

end Reader

/-- The value that a text stands for. -/
def read? (cs : List Char) : Option Json :=
  match Reader.padded (Reader.value cs.length) cs with
  | some (v, []) => some v
  | _ => none

/-! ## What is read is in the grammar -/

namespace Reader

open Keybind.Parser

theorem unit_eq_some_iff {cs rest : List Char} {n : Nat} :
    unit cs = some (n, rest) ↔ ∃ ds, cs = ds ++ rest ∧ unit? ds = some n := by
  constructor
  · intro h
    obtain ⟨m, hm, heq⟩ := Option.map_eq_some_iff.mp h
    cases heq
    exact ⟨cs.take 4, (List.take_append_drop 4 cs).symm, hm⟩
  · rintro ⟨ds, rfl, h⟩
    have hlength : ds.length = 4 := by
      unfold unit? at h
      split at h
      · rfl
      · cases h
    rw [unit, List.take_left' hlength, List.drop_left' hlength, h]
    rfl

theorem code_sound {cs rest : List Char} {c : Char} (h : code cs = some (c, rest)) :
    ∃ ds, cs = ds ++ rest ∧ Spells c ('\\' :: 'u' :: ds) := by
  obtain ⟨n, middle, hunit, htail⟩ := bind_eq_some_iff.mp h
  obtain ⟨ds, rfl, hds⟩ := unit_eq_some_iff.mp hunit
  cases hfound : ofUnit? n with
  | some found =>
      rw [hfound] at htail
      obtain ⟨rfl, rfl⟩ := pure_eq_some_iff.mp htail
      exact ⟨ds, rfl, .unit hds hfound⟩
  | none =>
      rw [hfound] at htail
      obtain ⟨_, behind, hword, hsecond⟩ := bind_eq_some_iff.mp htail
      obtain ⟨low, last, hlow, hchar⟩ := bind_eq_some_iff.mp hsecond
      obtain ⟨es, rfl, hes⟩ := unit_eq_some_iff.mp hlow
      cases hpair : ofPair? n low with
      | some found =>
          rw [hpair] at hchar
          obtain ⟨rfl, rfl⟩ := pure_eq_some_iff.mp hchar
          refine ⟨ds ++ '\\' :: 'u' :: es, ?_, .pair hds hes hpair⟩
          rw [word_eq_some_iff.mp hword]
          simp
      | none => rw [hpair] at hchar; cases hchar

theorem character_sound : Sound character Spells := by
  intro cs c rest h
  unfold character at h
  split at h
  · rename_i cs
    obtain ⟨ds, rfl, hspells⟩ := code_sound h
    exact ⟨'\\' :: 'u' :: ds, rfl, hspells⟩
  · rename_i e cs _
    obtain ⟨d, hd, heq⟩ := Option.map_eq_some_iff.mp h
    cases heq
    exact ⟨['\\', e], rfl, .short hd⟩
  · rename_i d cs _ _
    split at h
    · rename_i hplain
      cases h
      exact ⟨[c], rfl, .plain hplain.1 hplain.2.1 hplain.2.2⟩
    · cases h
  · cases h

theorem quotes_sound : Sound quotes Quotes := by
  intro cs text rest h
  obtain ⟨_, middle, hopen, h⟩ := bind_eq_some_iff.mp h
  obtain ⟨text, behind, htext, h⟩ := bind_eq_some_iff.mp h
  obtain ⟨_, last, hclose, h⟩ := bind_eq_some_iff.mp h
  obtain ⟨rfl, rfl⟩ := pure_eq_some_iff.mp h
  obtain ⟨-, rfl⟩ := only_eq_some_iff.mp hopen
  obtain ⟨-, rfl⟩ := only_eq_some_iff.mp hclose
  obtain ⟨ds, rfl, hds⟩ := many_sound character_sound htext
  exact ⟨'"' :: ds ++ ['"'], by simp, .mk hds⟩

theorem count_sound : Sound count Writes := by
  intro cs v rest h
  obtain ⟨digits, middle, hdigits, htail⟩ := bind_eq_some_iff.mp h
  obtain ⟨ds, rfl, rfl, -⟩ := takeWhile_sound _ hdigits
  split at htail
  · rename_i hcount
    obtain ⟨rfl, rfl⟩ := pure_eq_some_iff.mp htail
    exact ⟨digits, rfl, .number hcount⟩
  · cases htail

variable {α : Type} {p : Parser α} {R : α → List Char → Prop}

theorem padded_sound (hp : Sound p R) : Sound (padded p) (Padded R) := by
  intro cs a rest h
  obtain ⟨_, middle, hbefore, h⟩ := bind_eq_some_iff.mp h
  obtain ⟨a, behind, ha, h⟩ := bind_eq_some_iff.mp h
  obtain ⟨_, last, hafter, h⟩ := bind_eq_some_iff.mp h
  obtain ⟨rfl, rfl⟩ := pure_eq_some_iff.mp h
  obtain ⟨before, rfl, -, hblank⟩ := takeWhile_sound _ hbefore
  obtain ⟨core, rfl, hcore⟩ := hp ha
  obtain ⟨after, rfl, -, hblank'⟩ := takeWhile_sound _ hafter
  exact ⟨before ++ core ++ after, by simp, before, core, after, rfl, hblank, hcore, hblank'⟩

/-- An item behind a comma. -/
theorem behind_sound (hp : Sound p R) :
    Sound (only ',' *> padded p) fun a cs => ∃ ds, cs = ',' :: ds ∧ Padded R a ds := by
  intro cs a rest h
  rw [Parser.seqRight_eq_bind] at h
  obtain ⟨_, middle, hcomma, h⟩ := bind_eq_some_iff.mp h
  obtain ⟨-, rfl⟩ := only_eq_some_iff.mp hcomma
  obtain ⟨ds, rfl, hds⟩ := padded_sound hp h
  exact ⟨',' :: ds, rfl, ds, rfl, hds⟩

theorem listed_of_each {a : α} {as : List α} {cs ds : List Char} (ha : Padded R a cs)
    (h : Each (fun a cs => ∃ ds, cs = ',' :: ds ∧ Padded R a ds) as ds) :
    Listed R (a :: as) (cs ++ ds) := by
  induction h generalizing a cs with
  | nil =>
      obtain ⟨before, core, after, rfl, hbefore, hcore, hafter⟩ := ha
      rw [List.append_nil]
      exact .last hbefore hcore hafter
  | cons hnext _ ih =>
      obtain ⟨before, core, after, rfl, hbefore, hcore, hafter⟩ := ha
      obtain ⟨es, rfl, hes⟩ := hnext
      exact .more hbefore hcore hafter (ih hes)

theorem enclosed_sound (hp : Sound p R) (left right : Char) :
    Sound (enclosed left right p) fun items cs =>
      ∃ ds, cs = left :: ds ++ [right] ∧ Enclosed R items ds := by
  intro cs items rest h
  obtain ⟨_, middle, hleft, h⟩ := bind_eq_some_iff.mp h
  obtain ⟨items, behind, hitems, h⟩ := bind_eq_some_iff.mp h
  obtain ⟨_, last, hblanks, h⟩ := bind_eq_some_iff.mp h
  obtain ⟨_, _, hright, h⟩ := bind_eq_some_iff.mp h
  obtain ⟨rfl, rfl⟩ := pure_eq_some_iff.mp h
  obtain ⟨-, rfl⟩ := only_eq_some_iff.mp hleft
  obtain ⟨-, rfl⟩ := only_eq_some_iff.mp hright
  obtain ⟨blanks, rfl, -, hblank⟩ := takeWhile_sound _ hblanks
  rcases separated_cases hitems with ⟨rfl, rfl, -⟩ | ⟨a, others, next, rfl, hfirst, hothers⟩
  · exact ⟨left :: blanks ++ [right], by simp, blanks, rfl, .none hblank⟩
  · obtain ⟨ds, rfl, hds⟩ := padded_sound hp hfirst
    obtain ⟨es, rfl, hes⟩ := many_sound (behind_sound hp) hothers
    refine ⟨left :: (ds ++ es ++ blanks) ++ [right], by simp, _, rfl, .some ?_⟩
    exact (listed_of_each hds hes).pad hblank

theorem entry_sound {value : Parser Json} (h : Sound value Writes) :
    Sound (entry value) (Entry Writes) := by
  intro cs item rest hread
  obtain ⟨key, middle, hkey, htail⟩ := bind_eq_some_iff.mp hread
  obtain ⟨_, behind, hcolon, htail⟩ := bind_eq_some_iff.mp htail
  obtain ⟨v, last, hvalue, htail⟩ := bind_eq_some_iff.mp htail
  obtain ⟨rfl, rfl⟩ := pure_eq_some_iff.mp htail
  obtain ⟨ks, rfl, hks⟩ := quotes_sound hkey
  obtain ⟨ds, rfl, before, colon, after, rfl, hbefore, rfl, hafter⟩ :=
    padded_sound (only_sound ':') hcolon
  obtain ⟨es, rfl, hes⟩ := h hvalue
  exact ⟨ks ++ before ++ ':' :: after ++ es, by simp, .mk hks hbefore hafter hes⟩

/-- **What is read as a value stands for it.** -/
theorem value_sound (depth : Nat) : Sound (value depth) Writes := by
  induction depth with
  | zero =>
      intro cs v rest h
      cases h
  | succ depth ih =>
      intro cs v rest h
      rw [value] at h
      split at h
      · obtain ⟨_, middle, hword, h⟩ := bind_eq_some_iff.mp h
        obtain ⟨rfl, rfl⟩ := pure_eq_some_iff.mp h
        exact ⟨_, word_eq_some_iff.mp hword, .isTrue⟩
      · obtain ⟨_, middle, hword, h⟩ := bind_eq_some_iff.mp h
        obtain ⟨rfl, rfl⟩ := pure_eq_some_iff.mp h
        exact ⟨_, word_eq_some_iff.mp hword, .isFalse⟩
      · obtain ⟨text, htext, rfl⟩ := map_eq_some_iff.mp h
        obtain ⟨ds, hds, hquotes⟩ := quotes_sound htext
        exact ⟨ds, hds, .string hquotes⟩
      · obtain ⟨items, hitems, rfl⟩ := map_eq_some_iff.mp h
        obtain ⟨ds, hds, es, rfl, henclosed⟩ := enclosed_sound ih _ _ hitems
        exact ⟨_, hds, .array henclosed⟩
      · obtain ⟨entries, hentries, rfl⟩ := map_eq_some_iff.mp h
        obtain ⟨ds, hds, es, rfl, henclosed⟩ := enclosed_sound (entry_sound ih) _ _ hentries
        exact ⟨_, hds, .object henclosed⟩
      · exact count_sound h

/-! ## What is in the grammar is read -/

/-- No digit follows. -/
def NoDigit (rest : List Char) : Prop :=
  ∀ c ∈ rest.head?, c.isDigit = false

/-- Neither a blank nor a digit follows. -/
def Stops (rest : List Char) : Prop :=
  ∀ c ∈ rest.head?, isSpace c = false ∧ c.isDigit = false

theorem Stops.noDigit {after rest : List Char} (h : Stops rest) (hafter : Blank after) :
    NoDigit (after ++ rest) := by
  intro c hc
  cases after with
  | nil => exact (h c hc).2
  | cons d after =>
      cases hc
      exact not_isDigit_of_isSpace (hafter c List.mem_cons_self)

theorem unit_complete {ds rest : List Char} {n : Nat} (h : unit? ds = some n) :
    unit (ds ++ rest) = some (n, rest) :=
  unit_eq_some_iff.mpr ⟨ds, rfl, h⟩

theorem code_unit {ds rest : List Char} {n : Nat} {c : Char} (hn : unit? ds = some n)
    (hc : ofUnit? n = some c) : code (ds ++ rest) = some (c, rest) := by
  rw [code, bind_some (unit_complete hn), hc]
  rfl

theorem code_pair {ds es rest : List Char} {high low : Nat} {c : Char}
    (hhigh : unit? ds = some high) (hlow : unit? es = some low) (hc : ofPair? high low = some c) :
    code (ds ++ '\\' :: 'u' :: (es ++ rest)) = some (c, rest) := by
  -- a half is no character, so the reader goes on to the other half
  have hhalf : ofUnit? high = none := by
    unfold ofPair? at hc
    split at hc
    · exact if_neg (by omega)
    · cases hc
  have hword : word ['\\', 'u'] ('\\' :: 'u' :: (es ++ rest)) = some ((), es ++ rest) :=
    word_eq_some_iff.mpr rfl
  rw [code, bind_some (unit_complete hhigh), hhalf]
  dsimp only
  rw [bind_some hword, bind_some (unit_complete hlow), hc]
  rfl

theorem character_complete {c : Char} {ds rest : List Char} (h : Spells c ds) :
    character (ds ++ rest) = some (c, rest) := by
  cases h with
  | plain hc hquote hbackslash =>
      rw [List.singleton_append]
      unfold character
      split
      · rename_i heq
        cases heq
        exact absurd rfl hbackslash
      · rename_i heq
        cases heq
        exact absurd rfl hbackslash
      · rename_i heq
        cases heq
        exact if_pos ⟨hc, hquote, hbackslash⟩
      · rename_i heq
        cases heq
  | @short e he =>
      have hu : e ≠ 'u' := by
        rintro rfl
        cases he
      rw [List.cons_append, List.singleton_append, character, he]
      · rfl
      · exact hu
  | unit hn hc => exact code_unit hn hc
  | @pair _ _ ds es hhigh hlow hc =>
      have hshape : '\\' :: 'u' :: ds ++ '\\' :: 'u' :: es ++ rest
          = '\\' :: 'u' :: (ds ++ '\\' :: 'u' :: (es ++ rest)) := by
        simp
      rw [hshape]
      exact code_pair hhigh hlow hc

theorem quotes_complete {text cs rest : List Char} (h : Quotes text cs) :
    quotes (cs ++ rest) = some (text, rest) := by
  obtain ⟨htext⟩ := h
  have hadvances : Advances character := character_sound.advances Spells.ne_nil
  have hmark : character ('"' :: rest) = none := rfl
  have hmany := many_complete hadvances character_complete hmark htext
  rw [List.append_assoc, List.cons_append, List.singleton_append, quotes, bind_some (only_cons _ _),
    bind_some hmany, bind_some (only_cons _ _)]
  rfl

theorem count_complete {ds rest : List Char} (h : IsCount ds) (hrest : NoDigit rest) :
    count (ds ++ rest) = some (.number (Nat.ofDigitChars 10 ds 0), rest) := by
  rw [count, bind_some (takeWhile_append h.2.1 hrest), if_pos h]
  rfl

variable {a : α} {cs rest : List Char}

/-- Something that does not start with a blank is read with blanks around it. -/
theorem padded_complete {before after : List Char}
    (hread : p (cs ++ (after ++ rest)) = some (a, after ++ rest)) (hstart : Unpadded cs)
    (hbefore : Blank before) (hafter : Blank after)
    (hrest : ∀ c ∈ rest.head?, isSpace c = false) :
    padded p (before ++ cs ++ after ++ rest) = some (a, rest) := by
  rw [List.append_assoc, List.append_assoc, padded,
    bind_some (takeWhile_append hbefore (hstart.append _)), bind_some hread,
    bind_some (takeWhile_append hafter hrest)]
  rfl

/-- The parser reads all texts of the relation up to a length, if no digit follows. -/
def ReadsUpTo (n : Nat) (p : Parser α) (R : α → List Char → Prop) : Prop :=
  ∀ {a cs rest}, R a cs → cs.length ≤ n → NoDigit rest → p (cs ++ rest) = some (a, rest)

/-- What is read up to a length is read with blanks around it. -/
theorem ReadsUpTo.padded {n : Nat} {before after : List Char} (hread : ReadsUpTo n p R)
    (ha : R a cs) (hn : cs.length ≤ n) (hstart : Unpadded cs) (hbefore : Blank before)
    (hafter : Blank after) (hrest : Stops rest) :
    padded p (before ++ cs ++ after ++ rest) = some (a, rest) :=
  padded_complete (hread ha hn (hrest.noDigit hafter)) hstart hbefore hafter
    fun c hc => (hrest c hc).1

/-- **Items are read one after the other**, up to something that is no comma. -/
theorem listed_complete {n : Nat} (hp : Sound p R) (hread : ReadsUpTo n p R)
    (hstart : ∀ {a cs}, R a cs → Unpadded cs) {as : List α} (h : Listed R as cs)
    (hn : cs.length ≤ n) (hrest : Stops rest) (hcomma : rest.head? ≠ some ',') :
    separated (padded p) (only ',') (cs ++ rest) = some (as, rest) := by
  have hadvances : Advances (only ',' *> padded p) :=
    Sound.advances (behind_sound hp) fun ⟨ds, hds, _⟩ => hds ▸ List.cons_ne_nil _ _
  induction h with
  | last hbefore ha hafter =>
      simp only [List.length_append] at hn
      have hfirst := ReadsUpTo.padded hread ha (by omega) (hstart ha) hbefore hafter hrest
      exact separated_cons hfirst (many_nil (bind_none (only_none hcomma)))
  | @more a as before cs after ds hbefore ha hafter hlisted ih =>
      simp only [List.length_append, List.length_cons] at hn
      have hnext : Stops (',' :: (ds ++ rest)) := by
        rintro c ⟨⟩
        exact ⟨rfl, rfl⟩
      have hfirst := ReadsUpTo.padded hread ha (by omega) (hstart ha) hbefore hafter hnext
      rw [List.append_assoc, List.cons_append]
      refine separated_cons hfirst ?_
      -- what is left is read as items again, now behind a comma
      rcases separated_cases (ih (by omega)) with
        ⟨rfl, -, -⟩ | ⟨b, others, middle, rfl, hb, hothers⟩
      · cases hlisted
      · refine many_cons hadvances ?_ hothers
        rw [Parser.seqRight_eq_bind, bind_some (only_cons _ _)]
        exact hb

/-- A closing bracket is neither a blank nor a digit nor a comma. -/
structure IsRight (right : Char) : Prop where
  isSpace : isSpace right = false
  isDigit : right.isDigit = false
  ne_comma : right ≠ ','

theorem enclosed_complete {n : Nat} {left right : Char} (hright : IsRight right) (hp : Sound p R)
    (hread : ReadsUpTo n p R) (hstart : ∀ {a cs}, R a cs → Unpadded cs)
    (hnone : p (right :: rest) = none) {as : List α} (h : Enclosed R as cs) (hn : cs.length ≤ n) :
    enclosed left right p (left :: cs ++ [right] ++ rest) = some (as, rest) := by
  have hspace : ∀ c ∈ (right :: rest).head?, isSpace c = false := by
    rintro c ⟨⟩
    exact hright.isSpace
  have hblanks : ∀ {blanks}, Blank blanks →
      takeWhile isSpace (blanks ++ right :: rest) = some (blanks, right :: rest) :=
    fun hblank => takeWhile_append hblank hspace
  have hshape : left :: cs ++ [right] ++ rest = left :: (cs ++ right :: rest) := by simp
  rw [hshape, enclosed, bind_some (only_cons _ _)]
  cases h with
  | none hblank =>
      have hitems : padded p (cs ++ right :: rest) = none := by
        rw [padded, bind_some (hblanks hblank), bind_none hnone]
      rw [bind_some (separated_nil hitems), bind_some (hblanks hblank), bind_some (only_cons _ _)]
      rfl
  | some hlisted =>
      have hstops : Stops (right :: rest) := by
        rintro c ⟨⟩
        exact ⟨hright.isSpace, hright.isDigit⟩
      have hitems := listed_complete hp hread hstart hlisted hn hstops
        fun hcomma => hright.ne_comma (Option.some.inj hcomma)
      have hnoblank : takeWhile isSpace (right :: rest) = some ([], right :: rest) :=
        hblanks blank_nil
      rw [bind_some hitems, bind_some hnoblank, bind_some (only_cons _ _)]
      rfl

theorem entry_complete {n : Nat} {value : Parser Json} (hread : ReadsUpTo n value Writes) :
    ReadsUpTo n (entry value) (Entry Writes) := by
  intro item cs rest h hn hrest
  obtain @⟨key, ks, before, after, cs, v, hkey, hbefore, hafter, hv⟩ := h
  simp only [List.length_append, List.length_cons] at hn
  have hcolon : padded (only ':') (before ++ [':'] ++ after ++ (cs ++ rest))
      = some (':', cs ++ rest) :=
    padded_complete (only_cons _ _) ⟨':', rfl, rfl⟩ hbefore hafter (hv.unpadded.append rest)
  have hshape : ks ++ before ++ ':' :: after ++ cs ++ rest
      = ks ++ (before ++ [':'] ++ after ++ (cs ++ rest)) := by
    simp
  rw [hshape, entry, bind_some (quotes_complete hkey), bind_some hcolon,
    bind_some (hread hv (by omega) hrest)]
  rfl

/-- What starts with a digit is read as a count. -/
theorem value_digit {d : Char} (h : d.isDigit = true) (n : Nat) (cs : List Char) :
    value (n + 1) (d :: cs) = count (d :: cs) := by
  rw [value]
  split
  case h_6 => rfl
  all_goals
    -- no other value starts with a digit
    rename_i hd
    cases hd
    cases h

/-- A closing bracket is no value. -/
theorem value_right (n : Nat) : value n (']' :: rest) = none := by
  cases n with
  | zero => rfl
  | succ n => rfl

/-- **What stands for a value is read as it**, if the reader may nest deep enough. -/
theorem value_complete (n : Nat) : ReadsUpTo n (value n) Writes := by
  induction n with
  | zero =>
      intro v cs rest h hn _
      obtain ⟨c, hc, -⟩ := h.unpadded
      rw [List.eq_nil_of_length_eq_zero (Nat.le_zero.mp hn)] at hc
      cases hc
  | succ n ih =>
      intro v cs rest h hn hrest
      cases h with
      | isTrue =>
          have hword : word ['t', 'r', 'u', 'e'] (['t', 'r', 'u', 'e'] ++ rest) = some ((), rest) :=
            word_eq_some_iff.mpr rfl
          exact bind_some hword
      | isFalse =>
          have hword : word ['f', 'a', 'l', 's', 'e'] (['f', 'a', 'l', 's', 'e'] ++ rest)
              = some ((), rest) :=
            word_eq_some_iff.mpr rfl
          exact bind_some hword
      | number hcount =>
          obtain ⟨d, ds, rfl⟩ := List.exists_cons_of_ne_nil hcount.1
          rw [List.cons_append, value_digit (hcount.2.1 d List.mem_cons_self)]
          exact count_complete hcount hrest
      | @string text cs hquotes =>
          have hread : (Json.string <$> quotes) (cs ++ rest) = some (.string text, rest) :=
            map_some (quotes_complete hquotes)
          -- the quotation mark in front decides how the value is read
          obtain ⟨htext⟩ := hquotes
          exact hread
      | array hitems =>
          -- the brackets are part of the text, so what stands between them is shorter
          simp only [List.length_append, List.length_cons] at hn
          exact map_some (enclosed_complete ⟨rfl, rfl, by decide⟩ (value_sound n) ih Writes.unpadded
            (value_right n) hitems (by omega))
      | object hentries =>
          simp only [List.length_append, List.length_cons] at hn
          have hnone : entry (value n) ('\x7d' :: rest) = none := bind_none (bind_none rfl)
          exact map_some (enclosed_complete ⟨rfl, rfl, by decide⟩ (entry_sound (value_sound n))
            (entry_complete ih) Entry.unpadded hnone hentries (by omega))

end Reader

/-- **A text is read as a value if and only if it stands for it**, blanks around it aside. -/
theorem read?_eq_some_iff {cs : List Char} {v : Json} :
    read? cs = some v ↔ Padded Writes v cs := by
  constructor
  · intro h
    unfold read? at h
    split at h
    · rename_i found hread
      cases h
      obtain ⟨ds, rfl, hpadded⟩ := Reader.padded_sound (Reader.value_sound _) hread
      rwa [List.append_nil]
    · cases h
  · rintro ⟨before, core, after, rfl, hbefore, hcore, hafter⟩
    have hend : Reader.Stops [] := by
      rintro c ⟨⟩
    have hlength : core.length ≤ (before ++ core ++ after).length := by
      simp only [List.length_append]
      omega
    have hread := Reader.ReadsUpTo.padded (Reader.value_complete _) hcore hlength hcore.unpadded
      hbefore hafter hend
    rw [List.append_nil] at hread
    rw [read?, hread]

-- numbers in hexadecimal are read in either case, and two halves are one character
example : read? "\"\\u0041\\ud83d\\uDE00\"".toList = some (.string ['A', '😀']) := by
  cbv

/-- No text stands for two values. -/
theorem Padded.unique {cs : List Char} {v w : Json} (hv : Padded Writes v cs)
    (hw : Padded Writes w cs) : v = w :=
  Option.some.inj ((read?_eq_some_iff.mpr hv).symm.trans (read?_eq_some_iff.mpr hw))

/-! ## The indented text -/

theorem blank_freshLine (depth : Nat) : Blank (freshLine depth) := by
  intro c hc
  rcases List.mem_cons.mp hc with rfl | hc
  · rfl
  · rw [List.eq_of_mem_replicate hc]
    rfl

/-- A short escape can be undone. -/
theorem ofShortEscape?_eq {c e : Char} (h : shortEscape? c = some e) :
    ofShortEscape? e = some c := by
  unfold shortEscape? at h
  split at h <;> cases h <;> rfl

theorem unit?_control {n : Nat} (h : n < 0x20) :
    unit? ['0', '0', Nat.digitChar (n / 16), Nat.digitChar (n % 16)] = some n := by
  have hall : ∀ n : Fin 0x20,
      unit? ['0', '0', Nat.digitChar (n / 16), Nat.digitChar (n % 16)] = some (n : Nat) := by
    decide
  exact hall ⟨n, h⟩

theorem spells_escape (c : Char) : Spells c (escape c) := by
  unfold escape
  split
  · rename_i e he
    exact .short (ofShortEscape?_eq he)
  · rename_i hshort
    split
    · rename_i hcontrol
      refine .unit (unit?_control hcontrol) ?_
      rw [ofUnit?, if_pos (by omega), Char.ofNat_toNat]
    · rename_i hplain
      refine .plain (by omega) ?_ ?_
      -- both marks have a short escape
      · rintro rfl
        cases hshort
      · rintro rfl
        cases hshort

theorem quotes_quoted (text : List Char) : Quotes text (quoted text) :=
  .mk (Parser.each_flatMap spells_escape text)

/-- Only zero is written with a zero in front. -/
theorem toDigits_head {n : Nat} (h : (Nat.toDigits 10 n).head? = some '0') : n = 0 := by
  induction n using Nat.strongRecOn with
  | ind n ih =>
      rw [Nat.toDigits_eq_if (by decide : 1 < 10)] at h
      split at h
      · rename_i hlt
        have hall : ∀ n : Fin 10, (n : Nat).digitChar = '0' → (n : Nat) = 0 := by decide
        exact hall ⟨n, hlt⟩ (Option.some.inj h)
      · rename_i hge
        rw [List.head?_append_of_ne_nil _ Nat.toDigits_ne_nil] at h
        have hzero := ih (n / 10) (by omega) h
        omega

theorem isCount_toDigits (n : Nat) : IsCount (Nat.toDigits 10 n) := by
  refine ⟨Nat.toDigits_ne_nil, fun d hd => ?_, fun hzero => ?_⟩
  · exact Nat.isDigit_of_mem_toDigits (by decide) (by decide) hd
  · rw [toDigits_head hzero]
    rfl

theorem entry_pretty (key : String) {value : Json} {cs : List Char} (h : Writes value cs) :
    Entry Writes (key, value) (quoted key.toList ++ [':', ' '] ++ cs) := by
  have hspace : Blank [' '] := by
    intro c hc
    rw [List.mem_singleton.mp hc]
    rfl
  have hentry := Entry.mk (quotes_quoted key.toList) blank_nil hspace h
  rw [String.ofList_toList] at hentry
  simpa using hentry

mutual

/-- **The indented text of a value stands for it.** -/
theorem writes_pretty (depth : Nat) (v : Json) : Writes v (v.pretty depth) := by
  match v with
  | bool true => exact .isTrue
  | bool false => exact .isFalse
  | number n =>
      have hnumber := Writes.number (isCount_toDigits n)
      rw [Nat.ofDigitChars_toDigits (by decide) (by decide)] at hnumber
      rw [pretty, Nat.toString_eq_repr, Nat.toList_repr]
      exact hnumber
  | string text => exact .string (quotes_quoted text)
  | array [] => exact .array (.none blank_nil)
  | array (item :: items) =>
      have hitems := listed_prettyItems depth items (blank_freshLine (depth + 1))
        (writes_pretty (depth + 1) item) (blank_freshLine depth)
      rw [pretty]
      simpa using Writes.array (.some hitems)
  | object [] => exact .object (.none blank_nil)
  | object ((key, value) :: entries) =>
      have hentries := listed_prettyEntries depth entries (blank_freshLine (depth + 1))
        (entry_pretty key (writes_pretty (depth + 1) value)) (blank_freshLine depth)
      rw [pretty]
      simpa using Writes.object (.some hentries)

theorem listed_prettyItems (depth : Nat) {first : Json} (items : List Json)
    {before cs after : List Char} (hbefore : Blank before) (hfirst : Writes first cs)
    (hafter : Blank after) :
    Listed Writes (first :: items) (before ++ cs ++ prettyItems depth items ++ after) := by
  match items with
  | [] =>
      rw [prettyItems, List.append_nil]
      exact .last hbefore hfirst hafter
  | item :: items =>
      have hitems := listed_prettyItems depth items (blank_freshLine (depth + 1))
        (writes_pretty (depth + 1) item) hafter
      rw [prettyItems]
      simpa using Listed.more hbefore hfirst blank_nil hitems

theorem listed_prettyEntries (depth : Nat) {first : String × Json} (entries : List (String × Json))
    {before cs after : List Char} (hbefore : Blank before) (hfirst : Entry Writes first cs)
    (hafter : Blank after) :
    Listed (Entry Writes) (first :: entries)
      (before ++ cs ++ prettyEntries depth entries ++ after) := by
  match entries with
  | [] =>
      rw [prettyEntries, List.append_nil]
      exact .last hbefore hfirst hafter
  | (key, value) :: entries =>
      have hentries := listed_prettyEntries depth entries (blank_freshLine (depth + 1))
        (entry_pretty key (writes_pretty (depth + 1) value)) hafter
      rw [prettyEntries]
      simpa using Listed.more hbefore hfirst blank_nil hentries

end

end Keybind.Json
