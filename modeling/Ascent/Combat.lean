import Ascent.Item

/-!
What is agreed with the combat screen: the request for a fight and the result it hands back.

Main exports: `CombatRequest`, `CombatResult`, `Outcome`, `Disposition`.
-/

namespace Ascent

/-- A fight that is about to be fought. -/
structure CombatRequest where
  opponents : List String := []
  location : String := ""
deriving DecidableEq, Repr

/-- How a fight ended for the player. -/
inductive Outcome where
  | victory
  | defeat
  | escaped
  | surrendered
deriving DecidableEq, Repr

/-- What becomes of an opponent. -/
inductive Disposition where
  | kill
  | capture
  | release
deriving DecidableEq, Repr

/-- The result of a fight. -/
structure CombatResult where
  outcome : Outcome
  summary : String := ""
  finalVitality : Option Int := none
  finalResource : Option Int := none
  dispositions : Pairs Disposition := []
  finalInventory : Option (List Item) := none
deriving DecidableEq, Repr

/-- The outcomes and their words. -/
def Outcome.words : List (String × Outcome) :=
  [("victory", .victory), ("defeat", .defeat), ("escaped", .escaped), ("surrendered", .surrendered)]

/-- The dispositions and their words. -/
def Disposition.words : List (String × Disposition) :=
  [("kill", .kill), ("capture", .capture), ("release", .release)]

/-- The word for an outcome. -/
def Outcome.word : Outcome → String
  | .victory => "victory"
  | .defeat => "defeat"
  | .escaped => "escaped"
  | .surrendered => "surrendered"

/-- The word for a disposition. -/
def Disposition.word : Disposition → String
  | .kill => "kill"
  | .capture => "capture"
  | .release => "release"

end Ascent
