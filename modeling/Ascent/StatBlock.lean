import Ascent.Attribute
import Ascent.Number.Double
import Ascent.Pairs

/-!
The stats of a combatant: what is derived, what it is derived from, and the pools in between.

Main exports: `StatBlock`, `StatusEffect`, `Bonus`, `Phase`.
-/

namespace Ascent

/-- Whether a status helps or hurts. -/
inductive StatusKind where
  | buff
  | debuff
  | neutral
deriving DecidableEq, Repr

/-- A status that changes attributes while it lasts. Without a duration it lasts until it is
removed. -/
structure StatusEffect where
  name : String
  description : String := ""
  kind : StatusKind := .neutral
  duration : Option Int := none
  modifiers : Pairs String := []
deriving DecidableEq, Repr

/-- The fields of a status effect. -/
inductive StatusField where
  | name
  | description
  | kind
  | duration
  | modifiers
deriving DecidableEq, Repr

/-- A status effect with one field taken from another one. -/
def StatusEffect.take (f : StatusField) (source target : StatusEffect) : StatusEffect :=
  match f with
  | .name => { target with name := source.name }
  | .description => { target with description := source.description }
  | .kind => { target with kind := source.kind }
  | .duration => { target with duration := source.duration }
  | .modifiers => { target with modifiers := source.modifiers }

/-- A lasting bonus: an integer while it is counted up in play, a binary64 number when it was read
from a record. -/
inductive Bonus where
  | whole (n : Int)
  | real (x : Double)
deriving DecidableEq

/-- Where somebody stands between two tiers: on the way up, at the peak of a major tier, or in the
trial that decides on the next. -/
inductive Phase where
  | normal
  | atPeak
  | inTribulation
deriving DecidableEq, Repr

/-- The stats of a combatant. The current attributes are derived from the base ones, lasting
bonuses, equipment and status effects; vitality and resource are pools below their maxima. -/
structure StatBlock where
  vitality : Int := 100
  resource : Int := 50
  current : Attributes Int := ⟨100, 50, 10, 5, 10, 100⟩
  experience : Int := 0
  currency : Int := 0
  tier : String := ""
  atPeak : Bool := false
  inTribulation : Bool := false
  base : Attributes Int := ⟨100, 50, 10, 5, 10, 100⟩
  permanentBonuses : Pairs Bonus := []
  statusEffects : List StatusEffect := []
  comboStreak : Int := 0
  lifespan : Option Int := none
  maxLifespan : Option Int := none
deriving DecidableEq

namespace StatBlock

/-- Where the combatant stands between two tiers. -/
def phase (s : StatBlock) : Phase :=
  if s.inTribulation then .inTribulation else if s.atPeak then .atPeak else .normal

end StatBlock

/-- The name of a phase. -/
def Phase.word : Phase → String
  | .normal => "normal"
  | .atPeak => "at_peak"
  | .inTribulation => "in_tribulation"

end Ascent
