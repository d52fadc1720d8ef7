import Ascent.Command.Fight
import Ascent.Command.Inventory
import Ascent.Command.Knowledge
import Ascent.Command.Learning
import Ascent.Command.People
import Ascent.Command.Time

/-!
Which commands there are, what they need, and what they do.

A command is known by a tag; case does not matter. Registering a tag again replaces what it does.

Main exports: `CommandRule`, `Registry`, `Registry.register`, `Registry.find?`, `Registry.tags`,
`Registry.standard`.
-/

namespace Ascent

/-- What a command does. -/
abbrev Handler := GameState → Params → Play Effect

/-- A kind of command: its tag, the arguments that it is not run without, whether chance plays a
part in it, and what it does. -/
structure CommandRule where
  tag : String
  required : List String := []
  chance : Bool := false
  run : Handler

/-- The kinds of command under their tags. -/
abbrev Registry := Pairs CommandRule

namespace Registry

/-- The registry with one more kind of command, or one replaced. -/
def register (registry : Registry) (rule : CommandRule) : Registry :=
  let tag := Text.upper rule.tag
  registry.put tag { rule with tag := tag }

/-- The kind of command that a tag means. -/
def find? (registry : Registry) (tag : String) : Option CommandRule :=
  registry.get? (Text.upper tag)

/-- The tags in order. -/
def tags (registry : Registry) : List String :=
  (registry.map (·.1)).mergeSort fun a b => decide (a ≤ b)

theorem find?_register (registry : Registry) (rule : CommandRule) (tag : String) :
    (registry.register rule).find? tag =
      if Text.upper tag = Text.upper rule.tag then some { rule with tag := Text.upper rule.tag }
      else registry.find? tag := by
  simp [find?, register, Pairs.get?_put]

/-- A command that cannot fail and leaves nothing to chance. -/
def certain (f : GameState → Params → Effect) : Handler := fun state params =>
  pure (f state params)

/-- A command that may fail but leaves nothing to chance. -/
def fallible (f : GameState → Params → Except Fault Effect) : Handler := fun state params =>
  Play.ofExcept (f state params)

/-- The commands about people. -/
def people : List CommandRule :=
  [⟨"NPC_NEW", ["name"], true, meetPerson⟩,
   ⟨"NPC_UPDATE", ["name"], true, updatePerson⟩,
   ⟨"MEM_FLAG", ["npc", "flag", "value"], true, remember⟩,
   ⟨"NPC_EMOTION", ["name", "state"], true, feel⟩,
   ⟨"COMPANION_NEW", ["name"], true, joinCompanion⟩,
   ⟨"COMPANION_REMOVE", ["name"], false, certain leaveCompanion⟩,
   ⟨"WIFE_UPDATE", ["name", "affinity"], false, certain (changeRelation .wives)⟩,
   ⟨"SLAVE_UPDATE", ["name", "affinity"], false, certain (changeRelation .slaves)⟩,
   ⟨"PRISONER_UPDATE", ["name", "affinity"], false, certain (changeRelation .prisoners)⟩]

/-- The commands about what is known. -/
def knowledge : List CommandRule :=
  [⟨"FACTION_UPDATE", ["name"], false, certain updateFaction⟩,
   ⟨"LOCATION_DISCOVERED", ["name"], false, certain discoverPlace⟩,
   ⟨"LORE_DISCOVERED", ["name"], false, certain discoverLore⟩,
   ⟨"ENTITY_DEFINITION", ["name"], false, certain defineEntity⟩]

/-- The commands about what the player has and can do. -/
def belongings : List CommandRule :=
  [⟨"ITEM_ADD", ["name"], false, fallible addItem⟩,
   ⟨"ITEM_REMOVE", ["name"], false, fallible removeItem⟩,
   ⟨"ITEM_EQUIP", ["name"], false, fallible (wearItem true)⟩,
   ⟨"ITEM_UNEQUIP", ["name"], false, fallible (wearItem false)⟩,
   ⟨"SKILL_LEARNED", ["name"], false, fallible learnSkill⟩]

/-- The commands about the player's condition. -/
def condition : List CommandRule :=
  [⟨"STAT_CHANGE", ["name"], false, fallible changePlayerStat⟩,
   ⟨"STATUS_ACQUIRED", ["name"], false, fallible acquireStatus⟩,
   ⟨"STATUS_REMOVED", ["name"], false, fallible removeStatus⟩,
   ⟨"REPUTATION_CHANGED", ["score"], false, fallible changeReputation⟩,
   ⟨"BREAKTHROUGH_BEGIN", [], false, certain fun state _ => beginTrial state⟩,
   ⟨"BREAKTHROUGH_RESULT", ["success"], false, fallible endTrial⟩]

/-- The commands about fights, time and memory. -/
def events : List CommandRule :=
  [⟨"BEGIN_COMBAT", ["opponentIds"], false, certain beginFight⟩,
   ⟨"COMBAT_END", ["outcome"], false, fallible endFight⟩,
   ⟨"TIME_PASS", [], false, fallible passTime⟩,
   ⟨"WORLD_TIME_SET", [], false, certain setClock⟩,
   ⟨"MEMORY_ADD", ["content"], false, certain addMemory⟩]

/-- A registry with the standard commands added. -/
def withStandard (registry : Registry) : Registry :=
  (people ++ knowledge ++ belongings ++ condition ++ events).foldl register registry

/-- The standard commands. -/
def standard : Registry := withStandard []

end Registry
end Ascent
