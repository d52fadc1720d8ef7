/-!
Reputation: the player's standing in the world, from -100 to 100.

Main exports: `reputationTier`, `boundReputation`, `moveReputation`.
-/

namespace Ascent

/-- The most that one change may move the reputation. -/
def maxReputationStep : Int := 20

/-- A reputation within its bounds. -/
def boundReputation (score : Int) : Int := max (-100) (min 100 score)

/-- The tiers of reputation with the highest score of each, from the lowest up. -/
def reputationTiers : List (Int × String) :=
  [(-61, "infamous"), (-21, "notorious"), (-6, "distrusted"), (5, "unknown"), (20, "recognized"),
   (60, "respected"), (100, "renowned")]

/-- The name of the tier of a reputation. -/
def reputationTier (score : Int) : String :=
  ((reputationTiers.find? fun (highest, _) => boundReputation score ≤ highest).map (·.2)).getD
    "unknown"

/-- The reputation after a change, which is bounded in itself. -/
def moveReputation (current delta : Int) : Int :=
  boundReputation (current + max (-maxReputationStep) (min maxReputationStep delta))

end Ascent
