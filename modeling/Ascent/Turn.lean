import Ascent.Command.Dispatch
import Ascent.Cultivation
import Ascent.Knowledge
import Ascent.Response

/-!
Turns: from a narrator's response to the next state.

The commands of a response are carried out in order and what they tell is published. Then the turn
ends: status effects wear off, people grow, and the turn is counted. A fault at the end of a turn
leaves the state as the commands left it.

Main exports: `Game`, `TurnResult`, `GameState.endTurn`, `Game.respond`, `Game.carryOut`.
-/

namespace Ascent

/-! ### The end of a turn -/

/-- Whether a status ends with the turn. -/
def StatusEffect.expires (e : StatusEffect) : Bool := e.duration.any (· ≤ 1)

/-- A status a turn later. -/
def StatusEffect.tick (e : StatusEffect) : StatusEffect :=
  { e with duration := e.duration.map (· - 1) }

namespace GameState

/-- The state with the durations of status effects counted down. Stats are computed afresh where one
has ended. -/
def tickStatus (state : GameState) : Except Fault (GameState × List String) := do
  let ended := state.player.statusEffects.filter (·.expires)
  let left := (state.player.statusEffects.filter (!·.expires)).map (·.tick)
  let player := { state.player with statusEffects := left }
  let player ← if ended.isEmpty then pure player else player.refresh state.inventory
  return ({ state with player := player }, ended.map fun e => s!"Status ended: {e.name}")

/-- The state at the end of a turn, and what is reported of it. -/
def endTurn (state : GameState) : Except Fault (GameState × List String) := do
  let (ticked, ended) ← state.tickStatus
  let (grown, advances) ← ticked.progressPeople
  return ({ grown with turn := grown.turn + 1 }.legalize, ended ++ advances)

end GameState

/-! ### Turns -/

/-- A game in play: its state, what it uses up, and the index that it publishes to, if there is
one. -/
structure Game where
  state : GameState
  supply : Supply := {}
  index : Option KnowledgeIndex := none
deriving DecidableEq

/-- What came of a turn. -/
structure TurnResult where
  narration : String := ""
  elsewhere : Option String := none
  commands : List Command := []
  ignored : List Ignored := []
  updates : List IndexUpdate := []
  messages : List String := []
deriving DecidableEq

namespace Game

/-- The game with updates published. -/
def publish (game : Game) (updates : List IndexUpdate) : Game :=
  { game with index := game.index.map fun index => (index.publish updates).2 }

/-- The turn ends. -/
def endTurn (game : Game) : Except Fault (List String) × Game :=
  match game.state.endTurn with
  | .ok (state, messages) => (.ok messages, { game with state := state })
  | .error fault => (.error fault, game)

/-- Turns end, one after another. -/
def endTurns (game : Game) : Nat → Except Fault (List (List String)) × Game
  | 0 => (.ok [], game)
  | times + 1 => match game.endTurn with
    | (.error fault, game) => (.error fault, game)
    | (.ok messages, game) =>
      let (rest, game) := endTurns game times
      (rest.map (messages :: ·), game)

/-- Commands are carried out, and the turn ends if `ends` says so. -/
def carryOut (registry : Registry) (game : Game) (commands : List Command) (ends : Bool) :
    Except Fault TurnResult × Game :=
  let done := dispatchAll registry game.state game.supply commands
  let game := { game.publish done.updates with state := done.state, supply := done.supply }
  let (ending, game) := if ends then game.endTurn else (.ok [], game)
  (ending.map fun messages =>
    { commands := commands
      ignored := done.ignored
      updates := done.updates
      messages := done.messages ++ messages }, game)

/-- A narrator's response is taken up. -/
def respond (registry : Registry) (game : Game) (raw : String) (ends : Bool) :
    Except Fault TurnResult × Game :=
  let response := Response.read raw
  let (result, game) := game.carryOut registry (response.tags.map Tag.toCommand) ends
  (result.map fun result =>
    { result with narration := response.narration, elsewhere := response.elsewhere }, game)

/-- The result of a fight is taken up. -/
def takeCombatResult (game : Game) (result : CombatResult) : Except Fault TurnResult × Game :=
  match applyCombatResult game.state result with
  | .ok effect =>
    (.ok { messages := effect.messages }, { game with state := effect.state.legalize })
  | .error fault => (.error fault, game)

end Game
end Ascent
