import Ascent.Archetype
import Ascent.Item
import Ascent.Modifier
import Ascent.Person
import Ascent.Settings

/-!
What items and captives are worth.

Main exports: `itemTierWorth`, `effectSurcharge`, `Item.worth`, `captiveTierWorth`, `Person.worth`.
-/

namespace Ascent

open Text
open scoped Power

/-! ### Items -/

/-- The fixed prices of currency. -/
def currencyPrices : List (String × Int) :=
  [("low-grade spirit stone", 10), ("mid-grade spirit stone", 20), ("high-grade spirit stone", 40),
   ("peak-grade spirit stone", 80), ("immortal-grade spirit stone", 160)]

/-- The worth of an item's tier: ten without a tier, fifty for mortals and unknown tiers, otherwise
the worth of the major tier, rounded down. -/
def itemTierWorth (label : String) (settings : Settings) : Except Fault Int :=
  if label = "" then .ok 10
  else
    let rung := settings.resolve label
    if !rung.known || settings.isMortal label then .ok 50
    else (Curve.standard.value rung.major 0 1).floor

/-- What a point of a flat bonus adds to the worth of equipment. -/
def pointPrice? : Attribute → Option Double
  | .offense => some 50
  | .maxVitality => some 1
  | .maxResource => some 2
  | _ => none

/-- What rarities multiply the worth by. -/
def rarityFactors : List (String × Double) :=
  [("common", 1), ("rare", 2.5), ("precious", 7.5), ("supreme", 20), ("mythic", 50),
   ("sovereign", 150)]

/-- What categories multiply the worth by. -/
def categoryFactors : List (String × Double) :=
  [("potion", 1.2), ("material", 0.8), ("technique", 3), ("skill", 3),
   ("professionskillbook", 2.5), ("professiontool", 1.5)]

/-- The words in special effects and what they cost; the first that an effect contains counts. -/
def effectPrices : List (String × Double) :=
  [("lifesteal", 0.08), ("critical damage", 0.015), ("critical", 0.07), ("armor pierce", 0.1),
   ("ignore defense", 0.1), ("reflect", 0.06), ("counter", 0.06), ("haste", 0.15),
   ("evasion", 0.09), ("accuracy", 0.08), ("resist all", 0.12), ("cooldown", 0.05),
   ("stun", 0.25), ("paralyze", 0.25), ("silence", 0.2), ("blind", 0.18), ("poison", 0.04),
   ("burn", 0.04), ("regen hp", 0.005), ("regen mp", 0.01), ("exp boost", 0.1),
   ("gold boost", 0.08), ("immunity", 0.8), ("mana cost reduction", 0.04),
   ("damage absorb", 0.11)]

/-- What an effect costs that is not known. -/
def unknownEffectPrice : Double := 0.15

/-- The descriptions of no effect. -/
def noEffects : List String := ["", "none", "nothing special", "no special effect"]

/-- The surcharge for one special effect: the price of its word times the first number in it. -/
def oneSurcharge (effect : String) : Double :=
  let text := (lower (trim effect)).toList
  match effectPrices.find? fun (word, _) => contains word.toList text with
  | some (_, price) => price * ((unsignedNumeral.first? text).map numeralNumber).getD 1
  | none => unknownEffectPrice

/-- The surcharge for all special effects, added up in order. -/
def effectSurcharge (effects : List String) : Double :=
  (effects.filter fun e => !noEffects.contains (lower (trim e))).foldl
    (fun total e => total + oneSurcharge e) 0

namespace Item

/-- Whether an item is worn. -/
def isEquipment (i : Item) : Bool := lower (trim i.category) == "equipment"

/-- A worth with the flat bonuses of an item added. -/
def addPoints (i : Item) (worth : Double) : Double :=
  i.statBonuses.foldl (fun worth (key, text) =>
    match (Attribute.ofName? key).bind pointPrice?, Modifier.ofText? text with
    | some price, some m => if m.percent then worth else worth + price * m.amount
    | _, _ => worth) worth

/-- The category of an item in compact form. -/
def compactCategory (i : Item) : String := squeeze (lower i.category)

/-- The worth of one of the stack. -/
def worth (i : Item) (settings : Settings) : Except Fault Int :=
  match currencyPrices.lookup (lower (trim i.name)) with
  | some price => .ok price
  | none => do
    let tierWorth ← Double.ofInt? (← itemTierWorth (i.tier.getD "") settings)
    let pointed := if i.isEquipment then i.addPoints tierWorth else tierWorth
    let rare := pointed * (rarityFactors.lookup (lower (trim i.rarity))).getD 1
    let sorted := rare * (categoryFactors.lookup i.compactCategory).getD 1
    let full := if i.isEquipment then sorted * (1 + effectSurcharge i.specialEffects) else sorted
    return max 1 (← full.roundEven)

end Item

/-! ### Captives -/

/-- What captives are kept for. -/
inductive Captivity where
  | slave
  | prisoner
deriving DecidableEq, Repr

/-- The worth of a captive of whom nothing is known. -/
def Captivity.default : Captivity → Int
  | .slave => 500
  | .prisoner => 300

/-- The least worth of a captive. -/
def Captivity.least : Captivity → Int
  | .slave => 100
  | .prisoner => 50

/-- The worth of captives of the lower major tiers. -/
def captiveTable : List Int := [500, 5000, 25000, 100000, 350000, 1000000]

/-- The powers of three that are not the nearest number to the exact ones, and how many units they
are off in the last place. Powers are reckoned through logarithms, whose error tells only where the
exact power lies almost half way between two numbers. -/
def powerSlips : List (Nat × Int) := [(34, 1), (61, 1), (631, -1)]

/-- A power of three; none is beyond the largest number. -/
def powerOfThree (exponent : Nat) : Except Fault Double := do
  let nearest ← Double.ofInt? (3 ^ exponent)
  return nearest.moved ((powerSlips.lookup exponent).getD 0)

/-- The worth of captives of a major tier; beyond the table it triples from tier to tier. -/
def captiveMajorWorth (major : Nat) : Except Fault Double :=
  match captiveTable[major]? with
  | some n => .ok (.ofInt n)
  | none => do
    let growth ← powerOfThree (major - captiveTable.length + 1)
    return Double.ofInt 1000000 * growth

/-- The worth of a captive's tier, or the default where the tier is not known. -/
def captiveTierWorth (label : String) (settings : Settings) (default : Quantity) :
    Except Fault Quantity :=
  if label = "" then .ok default
  else
    let rung := settings.resolve label
    if !rung.known then .ok default
    else do
      let base ← captiveMajorWorth rung.major
      return .real (if rung.minorKnown then base * (1.5 + 0.05 * Double.ofInt rung.minor) else base)

/-- What aptitudes multiply the worth of captives by. -/
def aptitudeFactors : List (String × Double) :=
  [("waste", 0.5), ("inferior", 0.8), ("ordinary", 1), ("talented", 1.5), ("prodigy", 2.5),
   ("immortal", 5), ("divine", 10)]

/-- The descriptions of an ordinary body. -/
def ordinaryBodies : List String := ["", "ordinary", "ordinary body", "mortal body", "none"]

/-- The descriptions of an ordinary root. -/
def ordinaryRoots : List String := ["", "ordinary", "ordinary root", "mortal root", "none"]

/-- What a special body or root multiplies the worth by. -/
def traitFactor (trait : String) (ordinary : List String) : Double :=
  if trait = "" || ordinary.contains (lower (trim trait)) then 1 else 1.25

namespace Person

/-- The label of a person's tier: the person's own, or that of the stats. -/
def tierLabel (p : Person) : String :=
  let own := p.tier.getD ""
  if own ≠ "" then own else (p.stats.map (·.tier)).getD ""

/-- The worth of a captive. Prisoners are worth less for their resistance and more for their
willpower. -/
def worth (p : Person) (settings : Settings) (captivity : Captivity) : Except Fault Int :=
  if p.tierLabel = "" then .ok captivity.default
  else do
    let base ← (← captiveTierWorth p.tierLabel settings (.whole captivity.default)).toDouble
    let apt := base * (aptitudeFactors.lookup (lower (trim (p.aptitude.getD "")))).getD 1
    let body := apt * traitFactor (p.physique.getD "") ordinaryBodies
    let root := body * traitFactor (p.spiritualRoot.getD "") ordinaryRoots
    match captivity with
    | .slave => return max captivity.least (← root.roundEven)
    | .prisoner =>
      let resisting := root * (1 - (← Double.quotient? p.resistance 200))
      let willing := resisting * (0.8 + (← Double.quotient? p.willpower 500))
      return max captivity.least (← willing.roundEven)

end Person
end Ascent
