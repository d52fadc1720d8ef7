import Ascent.GameState
import Ascent.Save.Shape

/-!
The shapes of the records of a game.

Main exports: a `shape` for each record, up to `GameState.shape`; `Person.keys` and its likes, the
names under which the fields of a record are kept.
-/

namespace Ascent

open Shape

/-- The kinds of status and their words. -/
def StatusKind.words : List (String × StatusKind) :=
  [("buff", .buff), ("debuff", .debuff), ("neutral", .neutral)]

/-- The shape of a status effect. -/
def StatusEffect.shape : Shape StatusEffect := record fun ms =>
  StatusEffect.mk <$> ms.required "name" Shape.text <*> ms.text "description"
    <*> ms.default "kind" (word StatusKind.words) .neutral
    <*> ms.integer? "duration_turns"
    <*> ms.default "stat_modifiers" (pairs Shape.text) []

/-- The shape of a stat block. -/
def StatBlock.shape : Shape StatBlock := record fun ms =>
  (fun vitality maxVitality resource maxResource offense defense speed experience experienceToNext
      currency tier atPeak inTribulation baseVitality baseResource baseOffense baseDefense baseSpeed
      baseExperience bonuses effects streak lifespan maxLifespan =>
    { vitality, resource, experience, currency, tier, atPeak, inTribulation
      current := ⟨maxVitality, maxResource, offense, defense, speed, experienceToNext⟩
      base := ⟨baseVitality, baseResource, baseOffense, baseDefense, baseSpeed, baseExperience⟩
      permanentBonuses := bonuses
      statusEffects := effects
      comboStreak := streak
      lifespan, maxLifespan : StatBlock })
    <$> ms.integer "vitality" 100 <*> ms.integer "max_vitality" 100
    <*> ms.integer "resource" 50 <*> ms.integer "max_resource" 50
    <*> ms.integer "offense" 10 <*> ms.integer "defense" 5 <*> ms.integer "speed" 10
    <*> ms.integer "experience" 0 <*> ms.integer "experience_to_next" 100
    <*> ms.integer "currency" 0 <*> ms.text "tier"
    <*> ms.truth "at_peak" false <*> ms.truth "in_tribulation" false
    <*> ms.integer "base_max_vitality" 100 <*> ms.integer "base_max_resource" 50
    <*> ms.integer "base_offense" 10 <*> ms.integer "base_defense" 5 <*> ms.integer "base_speed" 10
    <*> ms.integer "base_experience_to_next" 100
    <*> ms.default "permanent_bonuses" (pairs fun path j => Bonus.real <$> number path j) []
    <*> ms.list "status_effects" StatusEffect.shape
    <*> ms.integer "combo_streak" 0
    <*> ms.integer? "lifespan" <*> ms.integer? "max_lifespan"

/-- The shape of an emotion. -/
def Emotion.shape : Shape Emotion := record fun ms =>
  Emotion.mk <$> ms.required "label" Shape.text <*> ms.within "intensity" 0 100 50

/-- The shape of what is remembered: a value that is one of the four kinds as it stands is taken as
it is, and no other value is any of them. -/
def Flag.shape : Shape Flag := fun path j =>
  let refused (word : String) (kind : ProblemKind) : Reader Flag :=
    .problem (path ++ [.member word]) kind
  match j with
  | .bool b => pure (.truth b)
  | .int n => pure (.whole n)
  | .real x => pure (.real x)
  | .str s => pure (.text s)
  | _ =>
    (fun _ _ _ flag => flag) <$> refused "bool" .notATruth <*> refused "int" .notAnInteger
      <*> refused "float" .notANumber <*> refused "str" .notAText

/-- The names under which the fields of a person are kept. -/
def Person.keys : List (PersonField × String) :=
  [(.id, "id"), (.name, "name"), (.description, "description"), (.personality, "personality"),
   (.thoughtsOnPlayer, "thoughts_on_player"), (.physicalState, "physical_state"),
   (.category, "category"), (.location, "location"), (.tags, "tags"), (.tier, "tier"),
   (.stats, "stats"), (.affinity, "affinity"), (.memoryFlags, "memory_flags"),
   (.emotion, "emotion"), (.archetype, "archetype"), (.aptitude, "aptitude"),
   (.physique, "physique"), (.spiritualRoot, "spiritual_root"), (.race, "race"),
   (.title, "title"), (.resistance, "resistance"), (.willpower, "willpower"),
   (.isAlive, "is_alive"), (.bottleneckTurns, "bottleneck_turns")]

/-- The names under which the fields of an item are kept. -/
def Item.keys : List (ItemField × String) :=
  [(.name, "name"), (.description, "description"), (.quantity, "quantity"),
   (.category, "category"), (.rarity, "rarity"), (.tier, "tier"), (.tags, "tags"),
   (.equipped, "equipped"), (.statBonuses, "stat_bonuses"), (.specialEffects, "special_effects"),
   (.value, "value")]

/-- The names under which the fields of a status effect are kept. -/
def StatusEffect.keys : List (StatusField × String) :=
  [(.name, "name"), (.description, "description"), (.kind, "kind"), (.duration, "duration_turns"),
   (.modifiers, "stat_modifiers")]

/-- The names under which the fields of a skill are kept. -/
def Skill.keys : List (SkillField × String) :=
  [(.name, "name"), (.description, "description"), (.resourceCost, "resource_cost"),
   (.effect, "effect"), (.proficiency, "proficiency"), (.maxProficiency, "max_proficiency"),
   (.proficiencyTier, "proficiency_tier")]

/-- The names under which the fields of a lore entry are kept. -/
def LoreEntry.keys : List (LoreField × String) :=
  [(.name, "name"), (.entityType, "entity_type"), (.description, "description"),
   (.category, "category"), (.tags, "tags"), (.location, "location")]

/-- The names under which the fields of a faction are kept. -/
def Faction.keys : List (FactionField × String) :=
  [(.name, "name"), (.description, "description"), (.category, "category"), (.tags, "tags")]

/-- The fields whose names are among the members of an object. -/
def fieldsIn {F : Type} (keys : List (F × String)) (members : List (String × Json)) : List F :=
  (keys.filter fun (_, name) => members.any (·.1 == name)).map (·.1)

/-- The shape of a person. -/
def Person.shape : Shape Person := record fun ms =>
  (fun id name description personality thoughtsOnPlayer physicalState category location tags tier
      stats affinity memoryFlags emotion archetype aptitude physique spiritualRoot race title
      resistance willpower isAlive bottleneckTurns =>
    { id, name, description, personality, thoughtsOnPlayer, physicalState, category, location, tags,
      tier, stats, affinity, memoryFlags, emotion, archetype, aptitude, physique, spiritualRoot,
      race, title, resistance, willpower, isAlive, bottleneckTurns
      given := fieldsIn Person.keys ms.members : Person })
    <$> ms.orElse "id" Shape.text Reader.freshId <*> ms.required "name" Shape.text
    <*> ms.text "description" <*> ms.text "personality" <*> ms.text "thoughts_on_player"
    <*> ms.text "physical_state" <*> ms.default "category" Shape.text "npc" <*> ms.text "location"
    <*> ms.list "tags" Shape.text <*> ms.text? "tier"
    <*> ms.default "stats" (optional StatBlock.shape) none
    <*> ms.within "affinity" (-100) 100 0
    <*> ms.default "memory_flags" (pairs Flag.shape) []
    <*> ms.default "emotion" (optional Emotion.shape) none
    <*> ms.text? "archetype" <*> ms.text? "aptitude" <*> ms.text? "physique"
    <*> ms.text? "spiritual_root" <*> ms.text? "race" <*> ms.text? "title"
    <*> ms.within "resistance" 0 100 0 <*> ms.within "willpower" 0 100 0
    <*> ms.truth "is_alive" true <*> ms.integer "bottleneck_turns" 0

/-- The shape of an item. -/
def Item.shape : Shape Item := record fun ms =>
  Item.mk <$> ms.required "name" Shape.text <*> ms.text "description"
    <*> ms.default "quantity" (integerWithin (some 1) none) 1
    <*> ms.default "category" Shape.text "Material" <*> ms.default "rarity" Shape.text "Common"
    <*> ms.text? "tier" <*> ms.list "tags" Shape.text <*> ms.truth "equipped" false
    <*> ms.default "stat_bonuses" (pairs Shape.text) []
    <*> ms.list "special_effects" Shape.text <*> ms.integer? "value"

/-- The shape of a skill. -/
def Skill.shape : Shape Skill := record fun ms =>
  Skill.mk <$> ms.required "name" Shape.text <*> ms.text "description"
    <*> ms.integer "resource_cost" 0 <*> ms.text "effect" <*> ms.integer "proficiency" 0
    <*> ms.integer "max_proficiency" 100 <*> ms.default "proficiency_tier" Shape.text "Novice"

/-- The shape of a lore entry. -/
def LoreEntry.shape : Shape LoreEntry := record fun ms =>
  LoreEntry.mk <$> ms.required "name" Shape.text <*> ms.default "entity_type" Shape.text "lore"
    <*> ms.text "description" <*> ms.text "category" <*> ms.list "tags" Shape.text
    <*> ms.text "location"

/-- The shape of a faction. -/
def Faction.shape : Shape Faction := record fun ms =>
  Faction.mk <$> ms.required "name" Shape.text <*> ms.text "description" <*> ms.text "category"
    <*> ms.list "tags" Shape.text

/-- The shape of a request for a fight. -/
def CombatRequest.shape : Shape CombatRequest := record fun ms =>
  CombatRequest.mk <$> ms.list "opponents" Shape.text <*> ms.text "location"

/-- The shape of the result of a fight. -/
def CombatResult.shape : Shape CombatResult := record fun ms =>
  CombatResult.mk <$> ms.required "outcome" (word Outcome.words) <*> ms.text "summary"
    <*> ms.integer? "final_vitality" <*> ms.integer? "final_resource"
    <*> ms.default "dispositions" (pairs (word Disposition.words)) []
    <*> ms.default "final_inventory" (optional (Shape.list Item.shape)) none

/-- The combat modes and their words. -/
def CombatMode.words : List (String × CombatMode) :=
  [("mechanical", .mechanical), ("narrative", .narrative)]

/-- The names of tiers that a value describes: a list of names, or a text to be taken apart. -/
def tierNames : Json → Except Fault (List String)
  | .null => .ok []
  | .list items =>
    if items.any Json.hasEndlessInteger then .error .numeralTooLong
    else .ok (Ladder.cleanNames (items.map fun j => j.settled.text))
  | .str s => Ladder.readNames s
  | _ => .error .notText

/-- The shape of the names of tiers; where none are described, the standard ones are meant. -/
def tierShape (standard : List String) : Shape (List String) := fun path j =>
  match tierNames j with
  | .ok names => pure (if names.isEmpty then standard else names)
  | .error .numeralTooLong => .problem path .rejected
  | .error e => .fault e

/-- The shape of the settings of a world. -/
def Settings.shape : Shape Settings := record fun ms =>
  (fun enableStats combatMode majors minors mortal =>
    { enableStats, combatMode, mortal, ladder := ⟨majors, minors⟩ : Settings })
    <$> ms.truth "enable_stats" true
    <*> ms.default "combat_mode" (word CombatMode.words) .mechanical
    <*> ms.default "major_tiers" (tierShape Ladder.standard.majors) Ladder.standard.majors
    <*> ms.default "minor_tiers" (tierShape Ladder.standard.minors) Ladder.standard.minors
    <*> ms.default "mortal_label" Shape.text mortalLabel

/-- The shape of a standing in the world. -/
def reputationShape : Shape Int := record fun ms => ms.within "score" (-100) 100 0

/-- The name under which the people of a circle are kept. -/
def Circle.key : Circle → String
  | .encountered => "encountered_npcs"
  | .companions => "companions"
  | .wives => "wives"
  | .slaves => "slaves"
  | .prisoners => "prisoners"

/-- The shape of the state of a game. -/
def GameState.shape : Shape GameState := record fun ms =>
  let people (circle : Circle) := ms.list circle.key Person.shape
  (fun player playerName encountered companions wives slaves prisoners inventory skills lore
      factions memories pendingCombat reputation worldTime location turn settings =>
    { player, playerName, inventory, skills, lore, factions, memories, pendingCombat, reputation,
      worldTime, location, turn, settings
      cast := ⟨encountered, companions, wives, slaves, prisoners⟩ : GameState })
    <$> ms.default "player" StatBlock.shape {} <*> ms.text "player_name"
    <*> people .encountered <*> people .companions <*> people .wives <*> people .slaves
    <*> people .prisoners
    <*> ms.list "inventory" Item.shape <*> ms.list "skills" Skill.shape
    <*> ms.list "discovered_entities" LoreEntry.shape <*> ms.list "factions" Faction.shape
    <*> ms.list "memories" Shape.text
    <*> ms.default "pending_combat" (optional CombatRequest.shape) none
    <*> ms.default "reputation" reputationShape 0 <*> ms.integer "world_time" 0
    <*> ms.text "current_location" <*> ms.integer "turn" 0
    <*> ms.default "settings" Settings.shape {}

end Ascent
