import Keybind.Proofs.Parsers
import Keybind.Toml.Document

/-!
# Documents made of lines

Most lines of a configuration file are a comment, a header, or a key with its value.
Each of these is read the same whatever follows it (`Line`), so a document made of
such lines is read line by line (`statements_of_lines`).

Keys stand without quotation marks. Such a key and the values that are read here
start with a character by which all other readings are ruled out, so each lemma
first goes past these and then along the line.
-/

namespace Keybind.Toml

open Keybind.Parser

variable {origin : Option String} {blanks rest line : List Char}

/-! ## Blanks and ends of lines -/

/-- Blanks are passed over. -/
theorem ws_append (hblanks : ∀ c ∈ blanks, isWs c = true)
    (hrest : ∀ c ∈ rest.head?, isWs c = false) : ws (blanks ++ rest) = some ((), rest) := by
  rw [ws, bind_some (takeWhile_append hblanks hrest)]
  rfl

/-- And nothing else is. -/
theorem ws_none (h : ∀ c ∈ rest.head?, isWs c = false) : ws rest = some ((), rest) :=
  @ws_append [] rest (by simp) h

theorem lineEnd_newline (rest : List Char) : lineEnd ('\n' :: rest) = some ((), rest) :=
  rfl

/-! ## Keys -/

/-- A key that needs no quotation marks. -/
structure Bare (name : List Char) : Prop where
  ne_nil : name ≠ []
  all_isBareChar : name.all isBareChar = true

theorem Bare.isBareChar {name : List Char} (h : Bare name) :
    ∀ c ∈ name, Toml.isBareChar c = true :=
  List.all_eq_true.mp h.all_isBareChar

/-- A character of a key is none that does not belong to one. -/
theorem ne_of_isBareChar {c d : Char} (hc : isBareChar c = true) (hd : isBareChar d = false) :
    c ≠ d := by
  rintro rfl
  rw [hc] at hd
  cases hd

theorem head?_ne_of_isBareChar {c d : Char} {cs : List Char} (hc : isBareChar c = true)
    (hd : isBareChar d = false) : (c :: cs).head? ≠ some d :=
  fun heq => ne_of_isBareChar hc hd (Option.some.inj heq)

theorem isWs_of_isBareChar {c : Char} (hc : isBareChar c = true) : isWs c = false := by
  unfold isWs
  rw [beq_eq_false_iff_ne.mpr (ne_of_isBareChar hc (by decide)),
    beq_eq_false_iff_ne.mpr (ne_of_isBareChar hc (by decide))]
  rfl

theorem Bare.exists_cons {name : List Char} (h : Bare name) :
    ∃ c cs, name = c :: cs ∧ Toml.isBareChar c = true := by
  obtain ⟨c, cs, rfl⟩ := List.exists_cons_of_ne_nil h.ne_nil
  exact ⟨c, cs, rfl, h.isBareChar c List.mem_cons_self⟩

theorem basicString_none (h : rest.head? ≠ some '"') : basicString rest = none :=
  bind_none (only_none h)

theorem literalString_none (h : rest.head? ≠ some '\x27') : literalString rest = none :=
  bind_none (only_none h)

theorem bareKey_append {name : List Char} (h : Bare name)
    (hrest : ∀ c ∈ rest.head?, isBareChar c = false) :
    bareKey (name ++ rest) = some (name, rest) := by
  rw [bareKey, bind_some (takeWhile_append h.isBareChar hrest),
    List.isEmpty_eq_false_iff.mpr h.ne_nil]
  rfl

variable {name : String}

/-- **A part of a key** is read with the blanks behind it. -/
theorem keyPart_append (h : Bare name.toList) (hblanks : ∀ c ∈ blanks, isWs c = true)
    (hrest : ∀ c ∈ rest.head?, isWs c = false ∧ isBareChar c = false) :
    keyPart (name.toList ++ (blanks ++ rest)) = some (name, rest) := by
  have hafter : ∀ c ∈ (blanks ++ rest).head?, isBareChar c = false := by
    cases blanks with
    | nil => exact fun c hc => (hrest c hc).2
    | cons b blanks =>
        rintro c ⟨⟩
        by_contra hbare
        have hws := hblanks b List.mem_cons_self
        rw [isWs_of_isBareChar (Bool.of_not_eq_false hbare)] at hws
        cases hws
  obtain ⟨c, cs, hcons, hc⟩ := h.exists_cons
  have hother : ∀ d, isBareChar d = false → (name.toList ++ (blanks ++ rest)).head? ≠ some d := by
    rw [hcons]
    exact fun d hd => head?_ne_of_isBareChar hc hd
  have hname : (basicString <|> literalString <|> bareKey) (name.toList ++ (blanks ++ rest))
      = some (name.toList, blanks ++ rest) := by
    rw [orElse_none (basicString_none (hother '"' (by decide))),
      orElse_none (literalString_none (hother '\x27' (by decide)))]
    exact bareKey_append h hafter
  have hstart : ∀ d ∈ (name.toList ++ (blanks ++ rest)).head?, isWs d = false := by
    rw [hcons]
    rintro d ⟨⟩
    exact isWs_of_isBareChar hc
  rw [keyPart, bind_some (ws_none hstart), bind_some hname,
    bind_some (ws_append hblanks fun c hc => (hrest c hc).1), String.ofList_toList]
  rfl

/-- A key of one part. -/
theorem key_append (h : Bare name.toList) (hblanks : ∀ c ∈ blanks, isWs c = true)
    (hrest : ∀ c ∈ rest.head?, isWs c = false ∧ isBareChar c = false)
    (hdot : rest.head? ≠ some '.') :
    key (name.toList ++ (blanks ++ rest)) = some ([name], rest) := by
  have hothers : many (only '.' *> keyPart) rest = some ([], rest) :=
    many_nil (bind_none (only_none hdot))
  rw [key, bind_some (separated_cons (keyPart_append h hblanks hrest) hothers)]
  rfl

/-- A key of two parts. -/
theorem key_dotted {inner : String} (h : Bare name.toList) (hinner : Bare inner.toList)
    (hblanks : ∀ c ∈ blanks, isWs c = true)
    (hrest : ∀ c ∈ rest.head?, isWs c = false ∧ isBareChar c = false)
    (hdot : rest.head? ≠ some '.') :
    key (name.toList ++ '.' :: (inner.toList ++ (blanks ++ rest)))
      = some ([name, inner], rest) := by
  have hfirst : keyPart (name.toList ++ ([] ++ '.' :: (inner.toList ++ (blanks ++ rest))))
      = some (name, '.' :: (inner.toList ++ (blanks ++ rest))) :=
    keyPart_append h (by simp) (by rintro c ⟨⟩; decide)
  have hothers : many (only '.' *> keyPart) ('.' :: (inner.toList ++ (blanks ++ rest)))
      = some ([inner], rest) := by
    refine many_one ?_ (List.cons_ne_nil _ _) (bind_none (only_none hdot))
    rw [seqRight_eq_bind, bind_some (only_cons _ _)]
    exact keyPart_append hinner hblanks hrest
  rw [List.nil_append] at hfirst
  rw [key, bind_some (separated_cons hfirst hothers)]
  rfl

/-- A text that is read as a key in front of an equals sign. -/
structure KeyText (path : List String) (text : List Char) : Prop where
  start : ∃ c cs, text = c :: cs ∧ isBareChar c = true
  read : ∀ rest, key (text ++ ([' '] ++ '=' :: rest)) = some (path, '=' :: rest)

theorem Bare.keyText (h : Bare name.toList) : KeyText [name] name.toList where
  start := h.exists_cons
  read _ := key_append h (by simp [isWs]) (by rintro c ⟨⟩; decide) (by simp)

theorem Bare.keyText_dotted {inner : String} (h : Bare name.toList) (hinner : Bare inner.toList) :
    KeyText [name, inner] (name.toList ++ '.' :: inner.toList) where
  start := by
    obtain ⟨c, cs, hcons, hc⟩ := h.exists_cons
    exact ⟨c, _, by rw [hcons]; rfl, hc⟩
  read rest := by
    rw [List.append_assoc, List.cons_append]
    exact key_dotted h hinner (by simp [isWs]) (by rintro c ⟨⟩; decide) (by simp)

/-! ## Values -/

theorem string_append {content : List Char} (hne : content ≠ [])
    (hcontent : ∀ c ∈ content, isBasicChar c = true) (rest : List Char) :
    string ('"' :: (content ++ '"' :: rest)) = some (content, rest) := by
  have hread : many (char isBasicChar <|> escape) (content ++ '"' :: rest)
      = some (content, '"' :: rest) :=
    many_chars hcontent (orElse_none rfl)
  have hbasic : basicString ('"' :: (content ++ '"' :: rest)) = some (content, rest) := by
    rw [basicString, bind_some (only_cons _ _), bind_some hread, bind_some (only_cons _ _)]
    rfl
  obtain ⟨c, cs, rfl⟩ := List.exists_cons_of_ne_nil hne
  have hc : c ≠ '"' := by
    rintro rfl
    exact absurd (hcontent _ List.mem_cons_self) (by decide)
  -- a second mark at once would open a string of several lines
  refine (if_neg ?_).trans ((if_neg ?_).trans (orElse_some hbasic))
  · simp [List.isPrefixOf, Ne.symm hc]
  · simp [List.isPrefixOf]

theorem scalar_text {content : String} (hne : content.toList ≠ [])
    (hcontent : ∀ c ∈ content.toList, isBasicChar c = true) (rest : List Char) :
    scalar ('"' :: (content.toList ++ '"' :: rest)) = some (.text content, rest) := by
  refine orElse_some ?_
  rw [bind_some (string_append hne hcontent rest), String.ofList_toList]
  rfl

theorem scalar_true (rest : List Char) :
    scalar ('t' :: 'r' :: 'u' :: 'e' :: rest) = some (.bool true, rest) := by
  have hstring : string ('t' :: 'r' :: 'u' :: 'e' :: rest) = none :=
    (orElse_none (basicString_none (by simp))).trans (literalString_none (by simp))
  exact (orElse_none (bind_none hstring)).trans (orElse_some rfl)

theorem value_scalar {s : Scalar} {cs : List Char} (h : scalar cs = some (s, rest)) :
    value origin (limit - 1) cs = some (.scalar origin s, rest) :=
  orElse_some (map_some h)

/-! ## Lines -/

/-- The line is read as a statement whatever follows, and no blanks stand in front of it. -/
structure Line (origin : Option String) (result : Statement) (line : List Char) : Prop where
  read : ∀ rest, statement origin (line ++ rest) = some (result, rest)
  start : ∀ c ∈ line.head?, isWs c = false ∧ c ≠ '\ufeff'
  ne_nil : line ≠ []

theorem line_blank : Line origin .blank ['\n'] where
  read _ := rfl
  start := by rintro c ⟨⟩; decide
  ne_nil := List.cons_ne_nil _ _

theorem line_comment (hline : line = '#' :: (line.tail.dropLast ++ ['\n']))
    (h : line.tail.dropLast.all isCommentChar = true) : Line origin .blank line := by
  generalize line.tail.dropLast = text at hline h
  subst hline
  refine ⟨fun rest => ?_, by rintro c ⟨⟩; decide, List.cons_ne_nil _ _⟩
  have htext : takeWhile isCommentChar (text ++ '\n' :: rest) = some (text, '\n' :: rest) :=
    takeWhile_append (List.all_eq_true.mp h) (by rintro c ⟨⟩; decide)
  have hcomment : comment ('#' :: (text ++ '\n' :: rest)) = some ((), '\n' :: rest) := by
    rw [comment, bind_some (only_cons _ _), bind_some htext]
    rfl
  rw [List.cons_append, List.append_assoc, List.singleton_append, statement, seqRight_eq_bind,
    seqRight_eq_bind, bind_some (bind_some hcomment)]
  rfl

theorem line_header {name : String} (hline : line = '[' :: (name.toList ++ [']', '\n']))
    (h : Bare name.toList) : Line origin (.header false [] name) line := by
  subst hline
  refine ⟨fun rest => ?_, by rintro c ⟨⟩; decide, List.cons_ne_nil _ _⟩
  have hopening : word ['['] ('[' :: (name.toList ++ ']' :: '\n' :: rest))
      = some ((), name.toList ++ ([] ++ ']' :: '\n' :: rest)) := word_eq_some_iff.mpr rfl
  have hkey : key (name.toList ++ ([] ++ ']' :: '\n' :: rest))
      = some ([name], ']' :: '\n' :: rest) :=
    key_append h (by simp) (by rintro c ⟨⟩; decide) (by simp)
  have hclosing : word [']'] (']' :: '\n' :: rest) = some ((), '\n' :: rest) :=
    word_eq_some_iff.mpr rfl
  have hheader : header false ['['] [']'] ('[' :: (name.toList ++ ']' :: '\n' :: rest))
      = some (.header false [] name, rest) := by
    rw [header, bind_some hopening, bind_some hkey, bind_some hclosing,
      bind_some (lineEnd_newline rest)]
    rfl
  rw [List.cons_append, List.append_assoc]
  obtain ⟨c, cs, hname, hc⟩ := h.exists_cons
  rw [hname] at hheader ⊢
  unfold statement
  split
  · rename_i heq
    cases heq
  · -- two brackets would be the header of an item
    rename_i heq
    cases heq
    exact absurd hc (by decide)
  · rename_i heq
    cases heq
    exact hheader
  · rename_i hother
    exact absurd rfl (hother _)

/-- A line that starts like a key is an assignment. -/
theorem statement_of_isBareChar {c : Char} {cs : List Char} {path : List String} {v : Value}
    (hc : isBareChar c = true)
    (h : assignment (value origin (limit - 1)) (c :: cs) = some ((path, v), '\n' :: rest)) :
    statement origin (c :: cs) = some (.assign path v, rest) := by
  have hnewline : newline (c :: cs) = none := by
    have hfirst : only '\n' (c :: cs) = none :=
      only_none (head?_ne_of_isBareChar hc (by decide))
    have hsecond : only '\r' (c :: cs) = none :=
      only_none (head?_ne_of_isBareChar hc (by decide))
    exact (orElse_none (bind_none hfirst)).trans (bind_none hsecond)
  unfold statement
  split
  · rename_i heq
    cases heq
    exact absurd hc (by decide)
  · rename_i heq
    cases heq
    exact absurd hc (by decide)
  · rename_i heq
    cases heq
    exact absurd hc (by decide)
  · have hblank : (newline *> pure Statement.blank : Parser Statement) (c :: cs) = none :=
      bind_none hnewline
    refine (orElse_none hblank).trans ?_
    rw [bind_some h]
    dsimp only
    rw [bind_some (lineEnd_newline rest)]
    rfl

/-- **A key with its value**, given how the value is read. -/
theorem line_assign {keyText valueText : List Char} {path : List String} {s : Scalar}
    (hline : line = keyText ++ (" = ".toList ++ (valueText ++ ['\n'])))
    (hkey : KeyText path keyText)
    (hhead : ∀ rest, ∀ c ∈ (valueText ++ rest).head?, isWs c = false)
    (hvalue : ∀ rest, scalar (valueText ++ rest) = some (s, rest)) :
    Line origin (.assign path (.scalar origin s)) line := by
  subst hline
  obtain ⟨c, cs, hcons, hc⟩ := hkey.start
  refine ⟨fun rest => ?_, ?_, by simp [hcons]⟩
  · have hassign : assignment (value origin (limit - 1))
        (keyText ++ ([' '] ++ '=' :: ([' '] ++ (valueText ++ '\n' :: rest))))
          = some ((path, .scalar origin s), '\n' :: rest) := by
      rw [assignment, bind_some (hkey.read _), bind_some (only_cons _ _),
        bind_some (ws_append (by simp [isWs]) (hhead _)), bind_some (value_scalar (hvalue _))]
      rfl
    have hline : keyText ++ (" = ".toList ++ (valueText ++ ['\n'])) ++ rest
        = keyText ++ ([' '] ++ '=' :: ([' '] ++ (valueText ++ '\n' :: rest))) := by simp
    rw [hline]
    rw [hcons, List.cons_append] at hassign ⊢
    exact statement_of_isBareChar hc hassign
  · rw [hcons]
    rintro d ⟨⟩
    exact ⟨isWs_of_isBareChar hc, ne_of_isBareChar hc (by decide)⟩

theorem line_text {keyText : List Char} {path : List String} {content : String}
    (hline : line = keyText ++ (" = ".toList ++ ('"' :: (content.toList ++ ['"']) ++ ['\n'])))
    (hkey : KeyText path keyText) (hne : content.toList ≠ [])
    (hcontent : content.toList.all isBasicChar = true) :
    Line origin (.assign path (.scalar origin (.text content))) line := by
  refine line_assign hline hkey (by rintro rest c ⟨⟩; decide) fun rest => ?_
  rw [List.cons_append, List.append_assoc]
  exact scalar_text hne (List.all_eq_true.mp hcontent) rest

theorem line_true {keyText : List Char} {path : List String}
    (hline : line = keyText ++ (" = ".toList ++ ("true".toList ++ ['\n'])))
    (hkey : KeyText path keyText) :
    Line origin (.assign path (.scalar origin (.bool true))) line :=
  line_assign hline hkey (by rintro rest c ⟨⟩; decide) scalar_true

/-! ## Documents -/

variable {results : List Statement} {text : List Char}

/-- Where a line starts, or the text ends, there is nothing that is passed over. -/
theorem head?_of_lines (h : Each (Line origin) results text) :
    ∀ c ∈ text.head?, isWs c = false ∧ c ≠ '\ufeff' := by
  cases h with
  | nil => simp
  | @cons _ _ line _ hline _ =>
      intro c hc
      obtain ⟨d, ds, rfl⟩ := List.exists_cons_of_ne_nil hline.ne_nil
      exact hline.start c hc

/-- Lines are read one by one, as long as there is a round for each. -/
theorem atMost_of_lines (h : Each (Line origin) results text) {rounds : Nat}
    (hrounds : text.length ≤ rounds) :
    atMost (statement origin <* ws) rounds text = some (results, []) := by
  induction h generalizing rounds with
  | nil => exact atMost_nil rfl rounds
  | @cons result results line text hline hlines ih =>
      have hread : (statement origin <* ws) (line ++ text) = some (result, text) := by
        change (statement origin >>= fun result => ws >>= fun _ => pure result) _ = _
        rw [bind_some (hline.read text),
          bind_some (ws_none fun c hc => (head?_of_lines hlines c hc).1)]
        rfl
      have hpos := List.length_pos_iff.mpr hline.ne_nil
      rw [List.length_append] at hrounds
      obtain ⟨rounds, rfl⟩ := Nat.exists_eq_succ_of_ne_zero (show rounds ≠ 0 by omega)
      exact atMost_cons hread (ih (by omega))

/-- **A document made of lines** is read as their statements. -/
theorem statements_of_lines (h : Each (Line origin) results text) :
    statements origin text = some (results, []) := by
  have hhead := head?_of_lines h
  have hmark : optional (only '\ufeff') text = some (none, text) := by
    have hnone : (some <$> only '\ufeff' : Parser (Option Char)) text = none := by
      change (only '\ufeff' text).bind (fun x => some (some x.1, x.2)) = _
      rw [only_none fun heq => (hhead _ heq).2 rfl]
      rfl
    exact orElse_none hnone
  have hlines : many (statement origin <* ws) text = some (results, []) :=
    atMost_of_lines h (Nat.le_refl _)
  rw [statements, bind_some hmark, bind_some (ws_none fun c hc => (hhead c hc).1),
    bind_some hlines]
  rfl

theorem read?_of_lines {lines : List String} (h : Each (Line origin) results
    (lines.flatMap String.toList)) :
    read? origin (String.join lines) = (build results).map (toValues origin) := by
  unfold read?
  rw [String.toList_join, statements_of_lines h]
  change (build results).bind (fun entries => some (toValues origin entries)) = _
  cases build results <;> rfl

variable {table name content : String}

/-- **A key below the header of a table.** -/
theorem read?_header (htable : Bare table.toList) (hname : Bare name.toList)
    (hne : content.toList ≠ []) (hcontent : content.toList.all isBasicChar = true) :
    read? origin (("[" ++ table ++ "]\n") ++ (name ++ " = \"" ++ content ++ "\"\n"))
      = some [(table, .table origin [(name, .scalar origin (.text content))])] := by
  have hheader : Line origin (.header false [] table) ("[" ++ table ++ "]\n").toList :=
    line_header (by simp) htable
  have hassign : Line origin (.assign [name] (.scalar origin (.text content)))
      (name ++ " = \"" ++ content ++ "\"\n").toList :=
    line_text (by simp) hname.keyText hne hcontent
  have hlines : ("[" ++ table ++ "]\n") ++ (name ++ " = \"" ++ content ++ "\"\n")
      = String.join ["[" ++ table ++ "]\n", name ++ " = \"" ++ content ++ "\"\n"] := by
    simp [String.join]
  rw [hlines, read?_of_lines (.cons hheader (.cons hassign .nil))]
  rfl

/-- **A key behind the name of its table** gives the same. -/
theorem read?_dotted (htable : Bare table.toList) (hname : Bare name.toList)
    (hne : content.toList ≠ []) (hcontent : content.toList.all isBasicChar = true) :
    read? origin (table ++ "." ++ name ++ " = \"" ++ content ++ "\"\n")
      = some [(table, .table origin [(name, .scalar origin (.text content))])] := by
  have hassign : Line origin (.assign [table, name] (.scalar origin (.text content)))
      (table ++ "." ++ name ++ " = \"" ++ content ++ "\"\n").toList :=
    line_text (by simp) (htable.keyText_dotted hname) hne hcontent
  have hlines : table ++ "." ++ name ++ " = \"" ++ content ++ "\"\n"
      = String.join [table ++ "." ++ name ++ " = \"" ++ content ++ "\"\n"] := by
    simp [String.join]
  rw [hlines, read?_of_lines (.cons hassign .nil)]
  rfl

end Keybind.Toml
