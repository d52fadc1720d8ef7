import Ascent.Growth
import Ascent.Supply

/-!
The stats of people other than the player.

They are never taken from the narrator: they follow from the player's own stats, the distance
between the two tiers, an archetype and a little chance. Mortals are measured by the mortal
baseline.

Main exports: `Archetype`, `Archetype.ofName?`, `Archetype.choose`, `tierFactor`, `generateStats`.
-/

namespace Ascent

/-- The kinds of opponent and companion. -/
inductive Archetype where
  | balanced
  | tank
  | assassin
  | caster
  | boss
  | trivial
deriving DecidableEq, Repr

/-- A number for each attribute that people are generated with. -/
structure Build (α : Type) where
  maxVitality : α
  maxResource : α
  offense : α
  defense : α
  speed : α
deriving DecidableEq, Repr

namespace Archetype

/-- The archetypes under their names and other names for them. -/
def names : List (String × Archetype) :=
  [("balanced", .balanced), ("tank", .tank), ("assassin", .assassin), ("caster", .caster),
   ("boss", .boss), ("trivial", .trivial), ("mage", .caster), ("fodder", .trivial),
   ("minion", .trivial)]

/-- The name of an archetype. -/
def word : Archetype → String
  | .balanced => "balanced"
  | .tank => "tank"
  | .assassin => "assassin"
  | .caster => "caster"
  | .boss => "boss"
  | .trivial => "trivial"

/-- What each attribute is multiplied by. -/
def ratios : Archetype → Build Double
  | .balanced => ⟨1, 1, 1, 1, 1⟩
  | .tank => ⟨1.5, 0.8, 0.7, 1.3, 0.8⟩
  | .assassin => ⟨0.7, 0.8, 1.4, 0.6, 1.3⟩
  | .caster => ⟨0.6, 1.5, 1.5, 0.5, 1⟩
  | .boss => ⟨3, 2, 1.2, 1.2, 1⟩
  | .trivial => ⟨0.3, 0.5, 0.5, 0.5, 0.8⟩

/-- The words in a person's tags that tell the archetype; the first archetype with a matching word
counts. -/
def keywords : List (Archetype × List String) :=
  [(.boss,
      ["boss", "sect master", "patriarch", "ancestor", "overlord", "elder", "king", "emperor"]),
   (.trivial, ["fodder", "minion", "mob", "bandit", "thug", "servant", "weak", "disciple"]),
   (.tank, ["tank", "guardian", "golem", "warrior", "defender", "shield", "beast", "bulwark"]),
   (.assassin, ["assassin", "rogue", "thief", "ninja", "shadow", "killer", "swift"]),
   (.caster, ["caster", "mage", "sorcerer", "alchemist", "formation master", "priest",
     "spellcaster"])]

/-- The archetype with a name, case and blanks around it aside. -/
def ofName? (name : String) : Option Archetype := names.lookup (Text.lower (Text.trim name))

/-- The archetype of a person: the one that is named if it is known, otherwise the one that the tags
tell. -/
def choose (tags : List String) (named : String) : Archetype :=
  match ofName? named with
  | some a => a
  | none =>
    let words := tags.map fun t => Text.lower (Text.trim t)
    match keywords.find? fun (_, keys) => keys.any words.contains with
    | some (a, _) => a
    | none => .balanced

end Archetype

/-- The least attributes of people. -/
def personMinimums : Build Int := ⟨10, 0, 5, 1, 5⟩

/-- The attributes of people as a list, to go through in order. -/
def Build.toList {α : Type} (b : Build α) : List α :=
  [b.maxVitality, b.maxResource, b.offense, b.defense, b.speed]

/-- The five attributes of people among all six. -/
def Attributes.build {α : Type} (vs : Attributes α) : Build α :=
  ⟨vs.maxVitality, vs.maxResource, vs.offense, vs.defense, vs.speed⟩

/-- The attributes of people with a requirement of experience. -/
def Build.withRequirement {α : Type} (b : Build α) (experience : α) : Attributes α :=
  ⟨b.maxVitality, b.maxResource, b.offense, b.defense, b.speed, experience⟩

/-- How much one rung more or less changes the stats of a person. -/
def rungStep : Double := 0.125

/-- What the player's stats are multiplied by for a person of a tier. -/
def tierFactor (personTier playerTier : String) (settings : Settings) : Double :=
  let player := settings.resolve playerTier
  let person := settings.resolve (if personTier = "" then playerTier else personTier)
  1 + rungStep * Double.ofInt ((person.absolute : Int) - player.absolute)

/-- How far chance moves a stat to either side, as a fraction. -/
def chanceSpan : Double := 0.05

/-- A factor near one, by chance. -/
def chanceFactor : Play Double := do
  let r ← Play.draw
  return 1 + (-chanceSpan + (chanceSpan - -chanceSpan) * r)

/-- One attribute of a person: the reference times the factors, rounded, but not below the least. -/
def generateAttribute (reference : Int) (factor ratio : Double) (least : Int) : Play Int := do
  let scaled := (← Play.ofExcept (Double.ofInt? reference)) * factor * ratio
  let value := scaled * (← chanceFactor)
  return max least (← Play.ofExcept value.roundEven)

/-- The stats of a person of a tier, beside the player's. Pools begin full, and the requirement of
experience is the tier's own. -/
def generateStats (player : StatBlock) (personTier : String) (settings : Settings)
    (archetype : Archetype) : Play StatBlock := do
  let label := if personTier = "" then player.tier else personTier
  let mortal := settings.isMortal label
  let reference := (if mortal then mortalAttributes else player.current).build
  let factor := if mortal then 1 else tierFactor label player.tier settings
  let ratios := archetype.ratios
  let build : Build Int := ⟨
    ← generateAttribute reference.maxVitality factor ratios.maxVitality personMinimums.maxVitality,
    ← generateAttribute reference.maxResource factor ratios.maxResource personMinimums.maxResource,
    ← generateAttribute reference.offense factor ratios.offense personMinimums.offense,
    ← generateAttribute reference.defense factor ratios.defense personMinimums.defense,
    ← generateAttribute reference.speed factor ratios.speed personMinimums.speed⟩
  let base ← Play.ofExcept (baseAttributes label settings)
  let all := build.withRequirement base.experienceToNext
  return {
    tier := label
    vitality := all.maxVitality
    resource := all.maxResource
    experience := 0
    current := all
    base := all }

end Ascent
