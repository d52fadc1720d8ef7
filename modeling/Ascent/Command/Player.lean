import Ascent.Command.Bonuses
import Ascent.Command.Effect
import Ascent.Reputation
import Ascent.StatChange

/-!
Commands about the player: stats, status effects, reputation and breakthroughs.

Main exports: `changePlayerStat`, `acquireStatus`, `removeStatus`, `changeReputation`,
`beginTrial`, `endTrial`.
-/

namespace Ascent

/-- One of the player's stats changes. -/
def changePlayerStat (state : GameState) (params : Params) : Except Fault Effect := do
  let amount := if params.has "amount" then params.value? "amount" else params.value? "value"
  let change ← changeStat state.player (params.required "name")
    ((params.value? "operation").getD "") state.settings amount (params.value? "level")
    state.inventory
  return { state := { state with player := change.stats }, messages := change.messages }

/-- The state with other status effects on the player, whose stats are computed afresh. -/
def GameState.withStatus (state : GameState) (effects : List StatusEffect) :
    Except Fault GameState := do
  let player ← { state.player with statusEffects := effects }.refresh state.inventory
  return { state with player := player }

/-- The longest duration of a status, in turns. -/
def maxStatusDuration : Int := 999

/-- What narrators call the kinds of status. -/
def StatusKind.names : List (String × StatusKind) :=
  [("buff", .buff), ("positive", .buff), ("debuff", .debuff), ("negative", .debuff),
   ("neutral", .neutral)]

/-- The status that a command describes. -/
def statusOf (player : StatBlock) (params : Params) : Except Fault StatusEffect := do
  let duration := (params.integer? "duration").map fun n =>
    max 1 (min maxStatusDuration n)
  let modifiers ← boundedModifiers params ["mod.", "modifier."] "statmodifiers" player
  let description ← params.textOr "description" ""
  let kind ← params.textOr "type" ""
  return {
    name := sanitizeName (params.required "name")
    description := Text.trim description
    kind := (StatusKind.names.lookup (Text.lower (Text.trim kind))).getD .neutral
    duration := duration
    modifiers := modifiers }

/-- The player comes under a status, in place of one of the same name. -/
def acquireStatus (state : GameState) (params : Params) : Except Fault Effect := do
  let status ← statusOf state.player params
  let others := state.player.statusEffects.filter fun e =>
    Text.fold e.name != Text.fold status.name
  return {
    state := ← state.withStatus (others ++ [status])
    messages := [s!"Status gained: {status.name}"] }

/-- A status of the player ends. -/
def removeStatus (state : GameState) (params : Params) : Except Fault Effect :=
  match findNamed? state.player.statusEffects (params.required "name") with
  | none => .ok (.none state)
  | some (place, status) => do
    return {
      state := ← state.withStatus (state.player.statusEffects.eraseIdx place)
      messages := [s!"Status ended: {status.name}"] }

/-- The player's reputation changes. -/
def changeReputation (state : GameState) (params : Params) : Except Fault Effect :=
  match Loose.integerOfText? (params.required "score") with
  | none => .ok (.none state)
  | some delta => do
    let score := moveReputation state.reputation delta
    let reason := Text.trim (← params.textOr "reason" "")
    let moved := "Reputation " ++ signed (score - state.reputation)
    return {
      state := { state with reputation := score }
      messages := [if reason = "" then moved else s!"{moved} ({reason})"] }

/-- The player's trial begins, where stats are kept. -/
def beginTrial (state : GameState) : Effect :=
  if !state.settings.enableStats then .none state
  else
    let climb := beginBreakthrough state.player
    { state := { state with player := climb.stats }, messages := climb.messages }

/-- The player's trial ends. -/
def settleTrial (state : GameState) (success : Bool) : Except Fault Effect := do
  let climb ← resolveBreakthrough state.player success state.settings state.inventory
    (.ofFormula state.settings state.inventory)
  return { state := { state with player := climb.stats }, messages := climb.messages }

/-- The player's trial ends as a command says, where stats are kept. -/
def endTrial (state : GameState) (params : Params) : Except Fault Effect :=
  if !state.settings.enableStats then .ok (.none state)
  else match Loose.truthOfText? (params.required "success") with
    | none => .ok (.none state)
    | some success => settleTrial state success

end Ascent
