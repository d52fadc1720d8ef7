import Ascent.Ladder

/-!
The settings of a world.

Main exports: `Settings`, `CombatMode`.
-/

namespace Ascent

/-- How fights are settled: on a combat screen of their own, or in the story. -/
inductive CombatMode where
  | mechanical
  | narrative
deriving DecidableEq, Repr

/-- The settings of a world: whether stats are kept at all, how fights are settled, its ladder of
tiers, and the label of mortals. -/
structure Settings where
  enableStats : Bool := true
  combatMode : CombatMode := .mechanical
  ladder : Ladder := .standard
  mortal : String := mortalLabel
deriving DecidableEq, Repr

namespace Settings

/-- Whether a label is the world's label of mortals. -/
def isMortal (settings : Settings) (label : String) : Bool := Ascent.isMortal label settings.mortal

/-- The rung that a label stands for in this world. -/
def resolve (settings : Settings) (label : String) : Rung := settings.ladder.resolve label

/-- The label of a rung of this world. -/
def label (settings : Settings) (major minor : Int) : String := settings.ladder.label major minor

end Settings
end Ascent
