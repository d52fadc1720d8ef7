import Ascent.Item
import Ascent.Modifier
import Ascent.Settings
import Ascent.StatBlock

/-!
Attributes: what a tier gives as a base, and what bonuses, equipment and status effects make of it.

The current attributes are always computed afresh from the base ones, so nothing accumulates:
computing them twice gives what computing them once gives.

Main exports: `baseAttributes`, `StatBlock.refresh`, `StatBlock.rebase`.
-/

namespace Ascent

/-- The share of a rung's worth that each attribute gets. -/
def Attribute.share : Attribute → Double
  | .maxVitality => 1
  | .maxResource => 0.5
  | .offense => 0.1
  | .defense => 0.05
  | .speed => 0.1
  | .experienceToNext => 10

/-- The base attributes of mortals. -/
def mortalAttributes : Attributes Int := ⟨100, 0, 10, 5, 10, 100⟩

/-- The least base attributes that a tier gives. -/
def baseMinimums : Attributes Int := ⟨10, 1, 1, 1, 1, 10⟩

/-- The least current attributes. -/
def currentMinimums : Attributes Int := ⟨10, 0, 1, 0, 1, 10⟩

/-- The worth of a rung on the curve of the stats. -/
def Rung.worth (r : Rung) : Double :=
  Curve.standard.value r.major (.ofInt r.minor) (.ofInt r.minorCount)

/-- The base attributes of a tier: shares of the worth of its rung, rounded down but not below the
least ones. -/
def baseAttributes (label : String) (settings : Settings) : Except Fault (Attributes Int) :=
  if settings.isMortal label then .ok mortalAttributes
  else
    let worth := (settings.resolve label).worth
    Attributes.ofFnM fun a => return max (baseMinimums.get a) (← (worth * a.share).floor)

namespace StatBlock

/-- The values with a lasting bonus added. -/
def addBonus (values : Attributes Double) (key : String) (bonus : Bonus) :
    Except Fault (Attributes Double) :=
  match Attribute.ofName? key with
  | none => .ok values
  | some a => match bonus with
    | .real x => .ok (values.set a (values.get a + x))
    | .whole n => do return values.set a (values.get a + (← Double.ofInt? n))

/-- The values changed by written modifiers, one after another; what names no attribute or is no
modifier is passed over. -/
def modify (values : Attributes Double) (modifiers : Pairs String) : Attributes Double :=
  modifiers.foldl (fun values (key, text) =>
    match Attribute.ofName? key, Modifier.ofText? text with
    | some a, some m => values.set a (m.apply (values.get a))
    | _, _ => values) values

/-- The attributes before rounding: the base, lasting bonuses, the bonuses of what is equipped, and
status effects, in this order. -/
def derive (s : StatBlock) (items : List Item) : Except Fault (Attributes Double) := do
  let start ← Attributes.ofFnM fun a => Double.ofInt? (s.base.get a)
  let lasting ← s.permanentBonuses.foldlM (fun values (key, bonus) => addBonus values key bonus)
    start
  let equipped := (items.filter (·.equipped)).foldl (fun values i => modify values i.statBonuses)
    lasting
  return s.statusEffects.foldl (fun values e => modify values e.modifiers) equipped

/-- An amount kept within zero and a limit. -/
def clampPool (limit amount : Int) : Int := max 0 (min amount limit)

/-- The stats with the given current attributes; the pools stay within their maxima, and experience
is not negative. -/
def withCurrent (s : StatBlock) (current : Attributes Int) : StatBlock :=
  { s with
    current := current
    vitality := clampPool current.maxVitality s.vitality
    resource := clampPool current.maxResource s.resource
    experience := max 0 s.experience }

/-- The stats with their current attributes computed afresh: rounded, and not below the least
ones. -/
def refresh (s : StatBlock) (items : List Item) : Except Fault StatBlock := do
  let values ← s.derive items
  let current ← Attributes.ofFnM fun a =>
    return max (currentMinimums.get a) (← (values.get a).roundEven)
  return s.withCurrent current

/-- The stats with full pools. -/
def refill (s : StatBlock) : StatBlock :=
  { s with vitality := s.current.maxVitality, resource := s.current.maxResource }

/-- The stats moved to a tier: its base attributes, current ones computed afresh. -/
def retier (s : StatBlock) (label : String) (settings : Settings) (items : List Item) :
    Except Fault StatBlock := do
  let base ← baseAttributes label settings
  { s with base := base, tier := label }.refresh items

/-- The stats moved to a tier, with full pools. -/
def rebase (s : StatBlock) (label : String) (settings : Settings) (items : List Item) :
    Except Fault StatBlock := do
  return (← s.retier label settings items).refill

end StatBlock
end Ascent
