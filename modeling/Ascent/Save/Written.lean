import Ascent.Json.Writer
import Ascent.Save.Records

/-!
The written form of the records of a game, and saving and loading whole states.

Every field of a record is written, under the name under which it is read.

Main exports: a `toJson` for each record, `GameState.save`, `GameState.load`, `GameState.reload`,
`GameState.changes`.
-/

namespace Ascent

/-- A list of texts, written. -/
def textsJson (texts : List String) : Json := .list (texts.map .str)

/-- A value that may be absent, written. -/
def optionalJson {α : Type} (f : α → Json) : Option α → Json
  | some a => f a
  | none => .null

/-- Named values, written. -/
def pairsJson {α : Type} (f : α → Json) (ps : Pairs α) : Json :=
  .object (ps.map fun (name, a) => (name, f a))

/-- The word for a kind of status. -/
def StatusKind.word : StatusKind → String
  | .buff => "buff"
  | .debuff => "debuff"
  | .neutral => "neutral"

/-- A status effect, written. -/
def StatusEffect.toJson (e : StatusEffect) : Json := .object
  [("name", .str e.name), ("description", .str e.description), ("kind", .str e.kind.word),
   ("duration_turns", optionalJson .int e.duration), ("stat_modifiers", pairsJson .str e.modifiers)]

/-- A lasting bonus, written: as a binary64 number, unless it lies beyond these. -/
def Bonus.toJson : Bonus → Json
  | .whole n => if (Double.ofInt n).isFinite then .real (.ofInt n) else .int n
  | .real x => .real x

/-- A stat block, written. -/
def StatBlock.toJson (s : StatBlock) : Json := .object
  [("vitality", .int s.vitality), ("max_vitality", .int s.current.maxVitality),
   ("resource", .int s.resource), ("max_resource", .int s.current.maxResource),
   ("offense", .int s.current.offense), ("defense", .int s.current.defense),
   ("speed", .int s.current.speed), ("experience", .int s.experience),
   ("experience_to_next", .int s.current.experienceToNext), ("currency", .int s.currency),
   ("tier", .str s.tier), ("at_peak", .bool s.atPeak), ("in_tribulation", .bool s.inTribulation),
   ("base_max_vitality", .int s.base.maxVitality), ("base_max_resource", .int s.base.maxResource),
   ("base_offense", .int s.base.offense), ("base_defense", .int s.base.defense),
   ("base_speed", .int s.base.speed),
   ("base_experience_to_next", .int s.base.experienceToNext),
   ("permanent_bonuses", pairsJson Bonus.toJson s.permanentBonuses),
   ("status_effects", .list (s.statusEffects.map StatusEffect.toJson)),
   ("combo_streak", .int s.comboStreak), ("lifespan", optionalJson .int s.lifespan),
   ("max_lifespan", optionalJson .int s.maxLifespan)]

/-- An emotion, written. -/
def Emotion.toJson (e : Emotion) : Json :=
  .object [("label", .str e.label), ("intensity", .int e.intensity)]

/-- What is remembered, written. -/
def Flag.toJson : Flag → Json
  | .truth b => .bool b
  | .whole n => .int n
  | .real x => .real x
  | .text s => .str s

/-- A person, written. -/
def Person.toJson (p : Person) : Json := .object
  [("id", .str p.id), ("name", .str p.name), ("description", .str p.description),
   ("personality", .str p.personality), ("thoughts_on_player", .str p.thoughtsOnPlayer),
   ("physical_state", .str p.physicalState), ("category", .str p.category),
   ("location", .str p.location), ("tags", textsJson p.tags), ("tier", optionalJson .str p.tier),
   ("stats", optionalJson StatBlock.toJson p.stats), ("affinity", .int p.affinity),
   ("memory_flags", pairsJson Flag.toJson p.memoryFlags),
   ("emotion", optionalJson Emotion.toJson p.emotion),
   ("archetype", optionalJson .str p.archetype), ("aptitude", optionalJson .str p.aptitude),
   ("physique", optionalJson .str p.physique),
   ("spiritual_root", optionalJson .str p.spiritualRoot), ("race", optionalJson .str p.race),
   ("title", optionalJson .str p.title), ("resistance", .int p.resistance),
   ("willpower", .int p.willpower), ("is_alive", .bool p.isAlive),
   ("bottleneck_turns", .int p.bottleneckTurns)]

/-- An item, written. -/
def Item.toJson (i : Item) : Json := .object
  [("name", .str i.name), ("description", .str i.description), ("quantity", .int i.quantity),
   ("category", .str i.category), ("rarity", .str i.rarity), ("tier", optionalJson .str i.tier),
   ("tags", textsJson i.tags), ("equipped", .bool i.equipped),
   ("stat_bonuses", pairsJson .str i.statBonuses),
   ("special_effects", textsJson i.specialEffects), ("value", optionalJson .int i.value)]

/-- A skill, written. -/
def Skill.toJson (s : Skill) : Json := .object
  [("name", .str s.name), ("description", .str s.description),
   ("resource_cost", .int s.resourceCost), ("effect", .str s.effect),
   ("proficiency", .int s.proficiency), ("max_proficiency", .int s.maxProficiency),
   ("proficiency_tier", .str s.proficiencyTier)]

/-- A lore entry, written. -/
def LoreEntry.toJson (e : LoreEntry) : Json := .object
  [("name", .str e.name), ("entity_type", .str e.entityType), ("description", .str e.description),
   ("category", .str e.category), ("tags", textsJson e.tags), ("location", .str e.location)]

/-- A faction, written. -/
def Faction.toJson (f : Faction) : Json := .object
  [("name", .str f.name), ("description", .str f.description), ("category", .str f.category),
   ("tags", textsJson f.tags)]

/-- A request for a fight, written. -/
def CombatRequest.toJson (r : CombatRequest) : Json :=
  .object [("opponents", textsJson r.opponents), ("location", .str r.location)]

/-- The result of a fight, written. -/
def CombatResult.toJson (r : CombatResult) : Json := .object
  [("outcome", .str r.outcome.word), ("summary", .str r.summary),
   ("final_vitality", optionalJson .int r.finalVitality),
   ("final_resource", optionalJson .int r.finalResource),
   ("dispositions", pairsJson (fun d => .str d.word) r.dispositions),
   ("final_inventory", optionalJson (fun is => .list (is.map Item.toJson)) r.finalInventory)]

/-- The word for a combat mode. -/
def CombatMode.word : CombatMode → String
  | .mechanical => "mechanical"
  | .narrative => "narrative"

/-- The settings of a world, written. -/
def Settings.toJson (s : Settings) : Json := .object
  [("enable_stats", .bool s.enableStats), ("combat_mode", .str s.combatMode.word),
   ("major_tiers", textsJson s.ladder.majors), ("minor_tiers", textsJson s.ladder.minors),
   ("mortal_label", .str s.mortal)]

/-- A standing in the world, written. -/
def reputationJson (score : Int) : Json := .object [("score", .int score)]

namespace GameState

/-- The members of the state of a game, written. -/
def members (s : GameState) : List (String × Json) :=
  let people (circle : Circle) := (circle.key, .list ((s.people circle).map Person.toJson))
  [("player", s.player.toJson), ("player_name", .str s.playerName),
   people .encountered, people .companions, people .wives, people .slaves, people .prisoners,
   ("inventory", .list (s.inventory.map Item.toJson)),
   ("skills", .list (s.skills.map Skill.toJson)),
   ("discovered_entities", .list (s.lore.map LoreEntry.toJson)),
   ("factions", .list (s.factions.map Faction.toJson)), ("memories", textsJson s.memories),
   ("pending_combat", optionalJson CombatRequest.toJson s.pendingCombat),
   ("reputation", reputationJson s.reputation), ("world_time", .int s.worldTime),
   ("current_location", .str s.location), ("turn", .int s.turn),
   ("settings", s.settings.toJson)]

/-- The state of a game, written. -/
def toJson (s : GameState) : Json := .object s.members

/-- The text that a game is saved as. -/
def save (s : GameState) : String := s.toJson.spread

/-- The members of the second state that are not written as those of the first are. -/
def changes (before after : GameState) : List (String × Json) :=
  (before.members.zip after.members).filterMap fun ((_, old), (name, new)) =>
    if old.compact = new.compact then none else some (name, new)

end GameState

/-- Why a value was not accepted as a record: the problems with it in the order of its fields, or a
fault that broke off the reading. -/
inductive Rejection where
  | problems (ps : List Problem)
  | fault (e : Fault)
deriving DecidableEq, Repr

namespace Shape

variable {α : Type}

/-- The record that a value stands for, with the number of the next fresh identifier before and
after; `ranged` tells whether ranges are checked. -/
def accept (shape : Shape α) (j : Json) (nextId : Nat) (ranged : Bool) :
    Except Rejection α × Nat :=
  match (shape [] j).run { nextId := nextId, ranged := ranged } with
  | (.error e, s) => (.error (.fault e), s.nextId)
  | (.ok (some a), s) => (.ok a, s.nextId)
  | (.ok none, s) => (.error (.problems s.problems.reverse), s.nextId)

/-- The record that a value stands for, if it is not nested too deep. -/
def acceptValue (shape : Shape α) (j : Json) (nextId : Nat) : Except Rejection α × Nat :=
  if j.fits Json.maxDepth then accept shape j nextId true
  else (.error (.problems [⟨[], .malformed⟩]), nextId)

/-- The record that a text stands for. -/
def acceptText (shape : Shape α) (text : String) (nextId : Nat) : Except Rejection α × Nat :=
  match Json.ofText? text with
  | some j => accept shape j nextId true
  | none => (.error (.problems [⟨[], .malformed⟩]), nextId)

end Shape

namespace GameState

/-- The game that a text was saved from. -/
def load (text : String) (nextId : Nat) : Except Rejection GameState × Nat :=
  GameState.shape.acceptText text nextId

/-- The game saved and loaded again. -/
def reload (s : GameState) (nextId : Nat) : Except Rejection GameState × Nat := load s.save nextId

end GameState
end Ascent
