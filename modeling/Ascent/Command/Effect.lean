import Ascent.Command.Fields
import Ascent.Supply

/-!
What a command does: the new state, documents for the knowledge index, and messages.

Main exports: `Effect`, `Effect.none`.
-/

namespace Ascent

/-- What a command does. -/
structure Effect where
  state : GameState
  updates : List IndexUpdate := []
  messages : List String := []
deriving DecidableEq

namespace Effect

/-- A command that does nothing. -/
def none (state : GameState) : Effect := { state := state }

end Effect
end Ascent
