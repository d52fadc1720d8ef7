import Ascent.GameState
import Ascent.Growth

/-!
How a game begins.

Main exports: `GameState.begin`.
-/

namespace Ascent

/-- A new game. The player stands at the given tier, or at the foot of the ladder, with the stats of
that tier where stats are kept. -/
def GameState.begin (playerName : String) (settings : Settings) (tier : Option String)
    (location : String) : Except Fault GameState := do
  let asked := tier.getD ""
  let label := if asked = "" then settings.label 0 0 else asked
  let fresh : StatBlock := { tier := label }
  let player ← if settings.enableStats then fresh.rebase label settings [] else pure fresh
  return { player, playerName, location, settings }

end Ascent
