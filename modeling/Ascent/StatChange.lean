import Ascent.Leveling
import Ascent.Loose

/-!
Changes of the player's stats that a narrator asks for.

An amount is a number, a percentage of what the stat stands at, or a level in words. Every change is
bounded before it lands.

Main exports: `StatKey`, `StatKey.ofName?`, `resolveAmount`, `changeStat`.
-/

namespace Ascent

open Text

/-- The stats that can be changed. -/
inductive StatKey where
  | vitality
  | resource
  | experience
  | currency
  | offense
  | defense
  | speed
deriving DecidableEq, Repr

/-- What can be done to a stat. -/
inductive StatOperation where
  | add
  | subtract
  | addMax
deriving DecidableEq, Repr

namespace StatKey

/-- The names of the stats, without blanks and underscores and in lower case. -/
def names : List (String × StatKey) :=
  [("hp", .vitality), ("health", .vitality), ("vitality", .vitality),
   ("mp", .resource), ("mana", .resource), ("qi", .resource), ("resource", .resource),
   ("exp", .experience), ("xp", .experience), ("experience", .experience),
   ("gold", .currency), ("money", .currency), ("currency", .currency),
   ("spiritstones", .currency),
   ("atk", .offense), ("attack", .offense), ("offense", .offense),
   ("def", .defense), ("defense", .defense), ("defence", .defense),
   ("spd", .speed), ("agility", .speed), ("speed", .speed)]

/-- The stat that a narrator means. -/
def ofName? (name : String) : Option StatKey :=
  names.lookup (remove (fun c => isBlank c || c = '_') (lower name))

/-- The name under which records hold a stat. -/
def word : StatKey → String
  | .vitality => "vitality"
  | .resource => "resource"
  | .experience => "experience"
  | .currency => "currency"
  | .offense => "offense"
  | .defense => "defense"
  | .speed => "speed"

/-- The stat with a word. -/
def ofWord? (s : String) : Option StatKey :=
  [vitality, resource, experience, currency, offense, defense, speed].find? (·.word == s)

end StatKey

/-- The operation that a narrator means. -/
def StatOperation.ofText? (s : String) : Option StatOperation :=
  [("add", add), ("subtract", subtract), ("add_max", addMax)].lookup (lower (trim s))

/-- What percentages and levels of a stat refer to: for pools and experience the maximum. -/
def StatBlock.reference (s : StatBlock) : StatKey → Int
  | .vitality => s.current.maxVitality
  | .resource => s.current.maxResource
  | .experience => s.current.experienceToNext
  | .currency => s.currency
  | .offense => s.current.offense
  | .defense => s.current.defense
  | .speed => s.current.speed

/-- The fractions that levels stand for. -/
def levelFractions : List (String × Double) := [("low", 0.1), ("medium", 0.25), ("high", 0.5)]

/-- The amount that a text gives: a number or a percentage of the reference, without its sign. -/
def amountOfText? (s : StatBlock) (key : StatKey) (text : String) : Except Fault (Option Double) :=
  let cs := trimChars text.toList
  match cs.getLast? with
  | some '%' => match Loose.numberOfText? (String.ofList cs.dropLast) with
    | some percent => do return some (percent.abs / 100 * (← Double.ofInt? (s.reference key)))
    | none => .ok none
  | _ => .ok ((Loose.numberOfText? (String.ofList cs)).map Double.abs)

/-- The size of a change: the amount if it can be read, otherwise the level. -/
def resolveAmount (s : StatBlock) (key : StatKey) (amount level : Option String) :
    Except Fault (Option Double) := do
  let read ← match amount with
    | some text => amountOfText? s key text
    | none => pure none
  match read, levelFractions.lookup (lower (trim (level.getD ""))) with
  | some x, _ => return some x
  | none, some fraction => return some (fraction * (← Double.ofInt? (s.reference key)))
  | none, none => return none

/-- What came of a change. -/
structure StatChange where
  stats : StatBlock
  applied : Bool := false
  messages : List String := []
  climb : Option Climb := none
deriving DecidableEq

/-- The most money that one can have. -/
def maxCurrency : Int := 1000000000000

/-- The least bound on how far one change may raise an attribute for good. -/
def minPermanentStep : Int := 10

/-- A number with its sign. -/
def signed (n : Int) : String := if 0 ≤ n then s!"+{n}" else s!"{n}"

/-- A bonus with an integer added. -/
def Bonus.add (bonus : Bonus) (n : Int) : Except Fault Bonus :=
  match bonus with
  | .whole m => .ok (.whole (m + n))
  | .real x => do return .real (x + (← Double.ofInt? n))

/-- How far a change of an attribute goes: it lowers it to zero at most, and raises it by the larger
of what it is, its base and the least bound. -/
def boundPermanent (s : StatBlock) (a : Attribute) (delta : Int) : Int :=
  let now := s.current.get a
  let cap := max (max now (s.base.get a)) minPermanentStep
  max (-now) (min cap delta)

/-- A lasting change of an attribute. -/
def addPermanent (s : StatBlock) (a : Attribute) (delta : Int) (items : List Item) :
    Except Fault StatChange := do
  let bounded := boundPermanent s a delta
  let bonus ← ((s.permanentBonuses.get? a.key).getD (.whole 0)).add bounded
  let updated ← { s with permanentBonuses := s.permanentBonuses.put a.key bonus }.refresh items
  return { stats := updated, applied := true
           messages := [s!"{a.key} changed by {signed bounded}"] }

/-- The pool of a stat with its maximum, or the attribute of one. -/
def StatKey.attribute? : StatKey → Option Attribute
  | .vitality => some .maxVitality
  | .resource => some .maxResource
  | .offense => some .offense
  | .defense => some .defense
  | .speed => some .speed
  | .experience => none
  | .currency => none

/-- An amount after a change that goes no further than the maximum either way. -/
def movePool (amount limit delta : Int) : Int :=
  max 0 (min limit (amount + max (-limit) (min limit delta)))

/-- A change by a whole number, negative for a loss. -/
def applyChange (s : StatBlock) (key : StatKey) (op : StatOperation) (delta : Int)
    (settings : Settings) (items : List Item) : Except Fault StatChange :=
  match key, op with
  | .vitality, .addMax => addPermanent s .maxVitality delta items
  | .vitality, _ =>
    .ok { stats := { s with vitality := movePool s.vitality s.current.maxVitality delta }
          applied := true }
  | .resource, .addMax => addPermanent s .maxResource delta items
  | .resource, _ =>
    .ok { stats := { s with resource := movePool s.resource s.current.maxResource delta }
          applied := true }
  | .experience, .addMax => .ok { stats := s }
  | .experience, op =>
    let updated := { s with experience := max 0 (s.experience + delta) }
    if op = .add ∧ settings.enableStats then do
      let climb ← checkLevel updated settings (.ofFormula settings items)
      return { stats := climb.stats, applied := true, messages := climb.messages, climb := climb }
    else .ok { stats := updated, applied := true }
  | .currency, .addMax => .ok { stats := s }
  | .currency, _ =>
    .ok { stats := { s with currency := max 0 (min maxCurrency (s.currency + delta)) }
          applied := true }
  | .offense, _ => addPermanent s .offense delta items
  | .defense, _ => addPermanent s .defense delta items
  | .speed, _ => addPermanent s .speed delta items

/-- A change that a narrator asks for. Unknown stats and operations and unreadable amounts change
nothing. -/
def changeStat (s : StatBlock) (name operation : String) (settings : Settings)
    (amount level : Option String) (items : List Item) : Except Fault StatChange :=
  let operation := if operation = "" then "add" else operation
  match StatKey.ofName? name, StatOperation.ofText? operation with
  | some key, some op => do
    match ← resolveAmount s key amount level with
    | none => return { stats := s }
    | some x =>
      let size ← x.roundEven
      applyChange s key op (if op = .subtract then -size else size) settings items
  | _, _ => .ok { stats := s }

end Ascent
