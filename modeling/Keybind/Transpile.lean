import Keybind.Event
import Keybind.Segment.Lexer

/-!
# Transpiling

A script is cut into segments, turned into pieces of Lua, and put together
again as Lua.
-/

namespace Keybind

/-- The outcome of a run together with the events on the way. -/
structure Traced (α : Type) where
  events : List Event
  outcome : α
  deriving Repr

/-- The pieces of the output, the events on the way, and the first fault if there is one. -/
def emit (options : Options) (segments : List Segment) :
    List EmitEvent × Except (Fault Nat) (List Piece) :=
  let (events, result) := ({} : Emitter).feedAll options segments
  (events, result >>= (·.finish options))

/-- A script turned into Lua, with the events of the run. -/
def trace (options : Options) (cs : List Char) : Traced (Except TranspileError (List Char)) :=
  let segments := lex cs
  let (steps, result) := emit options segments
  let events := .lexed (Text.byteSize cs) segments.length :: steps.map .emitted
  match result with
  | .error fault => ⟨events, .error (fault.locate cs)⟩
  | .ok pieces =>
    let lua := Piece.assemble pieces
    ⟨events ++ [.assembled pieces.length (Text.byteSize lua)], .ok lua⟩

/-- A script turned into Lua. -/
def transpile (options : Options) (source : String) : Except TranspileError String :=
  (trace options source.toList).outcome.map String.ofList

end Keybind
