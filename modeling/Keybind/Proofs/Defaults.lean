import Keybind.Config.Layers
import Keybind.Proofs.Documents

/-!
# The file of defaults

A configuration starts from a file. That file is well-formed, line by line
(`lines_defaultText`), and what it sets is the configuration of a run that asks for
nothing (`read_defaultText`). So a configuration is loaded as if its layers were laid
on that one (`Config.load_eq`, `Config.settings_defaults`).

An entry of a file is laid at the path that its key spells. A key of letters is a path
of one step, and two of them with a dot between are one of two (`parse?_key`,
`parse?_dotted`).
-/

namespace Keybind

/-! ## Keys and their paths -/

namespace KeyPath

open Keybind.Parser

/-- A key that spells a single step. -/
structure Plain (name : String) : Prop where
  ne_nil : name.toList ≠ []
  all_isKeyChar : name.toList.all isKeyChar = true

variable {name inner : String} {rest : List Char}

theorem Plain.key_append (h : Plain name) (hrest : ∀ c ∈ rest.head?, isKeyChar c = false) :
    key (name.toList ++ rest) = some (.key name, rest) := by
  have hname := takeWhile_append (List.all_eq_true.mp h.all_isKeyChar) hrest
  rw [key, bind_some hname, List.isEmpty_eq_false_iff.mpr h.ne_nil, String.ofList_toList]
  rfl

theorem Plain.key_self (h : Plain name) : key name.toList = some (.key name, []) := by
  have hkey : key (name.toList ++ []) = some (.key name, []) := h.key_append (by simp)
  rwa [List.append_nil] at hkey

theorem parse?_key (h : Plain name) : parse? name = some [.key name] := by
  have hsteps : many step [] = some ([], []) := many_nil rfl
  unfold parse?
  rw [bind_some h.key_self, bind_some hsteps]
  rfl

theorem parse?_dotted (h : Plain name) (hinner : Plain inner) :
    parse? (name ++ "." ++ inner) = some [.key name, .key inner] := by
  have htext : (name ++ "." ++ inner).toList = name.toList ++ '.' :: inner.toList := by
    rw [String.toList_append, String.toList_append, List.append_assoc]
    rfl
  have hstep : step ('.' :: inner.toList) = some (.key inner, []) := by
    refine orElse_some ?_
    rw [seqRight_eq_bind, bind_some (only_cons _ _)]
    exact hinner.key_self
  have hsteps : many step ('.' :: inner.toList) = some ([.key inner], []) :=
    many_one hstep (List.cons_ne_nil _ _) rfl
  unfold parse?
  rw [htext, bind_some (h.key_append (by rintro c ⟨⟩; decide)), bind_some hsteps]
  rfl

end KeyPath

theorem ConfigSection.plain_key (part : ConfigSection) : KeyPath.Plain part.key := by
  cases part <;> exact ⟨by decide, by decide⟩

theorem ConfigSection.lower_key (part : ConfigSection) : Text.lower part.key = part.key := by
  cases part <;> decide

/-- A table laid at the key of a section. -/
theorem ConfigSection.layEntry_eq (part : ConfigSection) (tree : Value) (origin : Option String)
    (fields : List (String × Value)) :
    tree.layEntry (part.key, .table origin fields)
      = tree.editKey part.key (.table none []) (Value.layEntries fields) := by
  rw [Value.layEntry, KeyPath.parse?_key part.plain_key]
  dsimp only
  rw [Value.lay, Value.layKey]

/-! ## The text -/

namespace Config

open Toml

/-- **The file of defaults is well-formed**: these are its lines. -/
theorem lines_defaultText :
    Parser.Each (Line none)
      [.blank, .blank,
       .header false [] "transpile",
       .blank, .assign ["match_table"] (.scalar none (.text "__match")),
       .blank, .assign ["scope_constructor"] (.scalar none (.text "MatchScope.new")),
       .blank, .assign ["reject_unterminated"] (.scalar none (.bool true)),
       .blank,
       .header false [] "output",
       .blank, .assign ["format"] (.scalar none (.text "lua")),
       .blank,
       .header false [] "log",
       .blank, .assign ["filter"] (.scalar none (.text "warn"))]
      (defaultLines.flatMap String.toList) := by
  have hmatchTable : Bare "match_table".toList := ⟨by decide, by decide⟩
  have hscopeConstructor : Bare "scope_constructor".toList := ⟨by decide, by decide⟩
  have hreject : Bare "reject_unterminated".toList := ⟨by decide, by decide⟩
  have hformat : Bare "format".toList := ⟨by decide, by decide⟩
  have hfilter : Bare "filter".toList := ⟨by decide, by decide⟩
  unfold defaultLines
  refine .cons (line_comment (by decide) (by decide)) ?_
  refine .cons line_blank ?_
  refine .cons (line_header (by decide) ⟨by decide, by decide⟩) ?_
  refine .cons (line_comment (by decide) (by decide)) ?_
  refine .cons (line_text (by decide) hmatchTable.keyText (by decide) (by decide)) ?_
  refine .cons (line_comment (by decide) (by decide)) ?_
  refine .cons (line_text (by decide) hscopeConstructor.keyText (by decide) (by decide)) ?_
  refine .cons (line_comment (by decide) (by decide)) ?_
  refine .cons (line_true (by decide) hreject.keyText) ?_
  refine .cons line_blank ?_
  refine .cons (line_header (by decide) ⟨by decide, by decide⟩) ?_
  refine .cons (line_comment (by decide) (by decide)) ?_
  refine .cons (line_text (by decide) hformat.keyText (by decide) (by decide)) ?_
  refine .cons line_blank ?_
  refine .cons (line_header (by decide) ⟨by decide, by decide⟩) ?_
  refine .cons (line_comment (by decide) (by decide)) ?_
  refine .cons (line_text (by decide) hfilter.keyText (by decide) (by decide)) ?_
  exact .nil

/-- **What the file of defaults sets** is the configuration of a run that asks for nothing. -/
theorem read_defaultText :
    Toml.read? none defaultText = some ({} : Config).toSettings.asTable.2 := by
  rw [defaultText, read?_of_lines lines_defaultText]
  rfl

/-- Laid on nothing, it is that configuration. -/
theorem layFile_defaults :
    (Value.table none []).layFile ({} : Config).toSettings.asTable.2
      = ({} : Config).toSettings := by
  have hsections : ({} : Config).toSettings.asTable.2
      = [(ConfigSection.transpile.key, .table none [
            ("match_table", .scalar none (.text "__match")),
            ("scope_constructor", .scalar none (.text "MatchScope.new")),
            ("reject_unterminated", .scalar none (.bool true))]),
         (ConfigSection.output.key, .table none [("format", .scalar none (.text "lua"))]),
         (ConfigSection.log.key, .table none [("filter", .scalar none (.text "warn"))])] := rfl
  rw [hsections, Value.layFile, List.foldl_cons, List.foldl_cons, List.foldl_cons, List.foldl_nil,
    ConfigSection.layEntry_eq, ConfigSection.layEntry_eq, ConfigSection.layEntry_eq]
  simp only [Value.layEntries, Value.layKey]
  rfl

theorem load_eq {m : Type → Type} [Monad m] (files : Files m) (layers : List Layer) :
    load files layers = loadOver files layers (some ({} : Config).toSettings.asTable.2) := by
  rw [load, read_defaultText]

theorem settings_defaults (documents : List (List (String × Value)))
    (single : List (KeyPath × Value)) :
    settings (({} : Config).toSettings.asTable.2 :: documents) single
      = single.foldl (fun settings (path, value) => value.lay path settings)
          (documents.foldl Value.layFile ({} : Config).toSettings) := by
  rw [settings, List.foldl_cons, layFile_defaults]

end Config

end Keybind
