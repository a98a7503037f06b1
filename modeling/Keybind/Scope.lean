/-!
# Scopes

A pair of braces in code is a scope. After an arrow it is the body of a match,
anywhere else it is a brace of the script's own.
-/

namespace Keybind

/-- What a pair of braces stands for. -/
inductive ScopeKind where
  /-- The body of a match. -/
  | body
  /-- Braces that are kept. -/
  | literal
  deriving DecidableEq, Repr, Inhabited

/-- The kind as events name it. -/
def ScopeKind.label : ScopeKind → String
  | body => "Match"
  | literal => "Literal"

/-- A scope that is still open. -/
structure Scope where
  kind : ScopeKind
  /-- The byte offset of its opening brace. -/
  offset : Nat
  deriving DecidableEq, Repr

end Keybind
