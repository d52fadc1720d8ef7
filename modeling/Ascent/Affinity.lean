import Ascent.Json
import Ascent.Text.Basic
import Ascent.Text.Numeral

/-!
Affinity: how somebody regards the player, from -100 to 100.

No single change moves it by more than ten, whatever is asked for.

Main exports: `affinityTier`, `clampAffinity`, `moveAffinity`, `AffinityChange`.
-/

namespace Ascent

open Text

/-- The names of the tiers of affinity and the least score of each, from the lowest up. -/
def affinityTiers : List (String × Int) :=
  [("Sworn Enemy", -100), ("Hostile", -60), ("Wary", -20), ("Stranger", -5), ("Acquaintance", 5),
   ("Friend", 30), ("Close Friend", 60), ("Devoted", 90)]

/-- The tier of a score: the last one whose least score is reached, or the first one. -/
def affinityTier (score : Int) : String × Int :=
  ((affinityTiers.reverse.find? fun (_, least) => least ≤ score)).getD ("Sworn Enemy", -100)

/-- The name of the tier of a score. -/
def affinityName (score : Int) : String := (affinityTier score).1

/-- The greatest score; the least is its negation. -/
def maxAffinity : Int := 100

/-- The most that one change may move a score. -/
def maxAffinityStep : Int := 10

/-- An integer within the bounds of a score. -/
def boundAffinity (score : Int) : Int := max (-maxAffinity) (min maxAffinity score)

/-- A number within the bounds of a score, rounded. -/
def clampAffinity (x : Double) : Int :=
  let limit := Double.ofInt maxAffinity
  let bounded := Double.maxOf (-limit) (Double.minOf limit x)
  bounded.roundEven.toOption.getD 0

/-- What is asked for: a score to go to, or a step up or down. -/
inductive AffinityChange where
  | target (score : Double)
  | up (amount : Double)
  | down (amount : Double)
deriving DecidableEq

namespace AffinityChange

/-- A signed numeral between blanks and nothing else. -/
def wholeNumeral? (cs : List Char) : Option Double := do
  let cs := trimChars cs
  let (numeral, size) ← signedNumeral cs
  if (cs.drop size).isEmpty then some (numeralNumber numeral) else none

/-- The change that a text asks for: `+=` or `-=` and a number for a step, a number for a target. -/
def ofText? (s : String) : Option AffinityChange :=
  match s.toList.dropWhile isBlank with
  | '+' :: '=' :: rest => (wholeNumeral? rest).map .up
  | '-' :: '=' :: rest => (wholeNumeral? rest).map .down
  | cs => (wholeNumeral? cs).map .target

/-- The change that a value asks for. A number is a target. -/
def ofJson? : Json → Except Fault (Option AffinityChange)
  | .null => .ok none
  | .bool _ => .ok none
  | .int n => (Double.ofInt? n).map fun x => some (.target x)
  | .real x => .ok (some (.target x))
  | j => .ok (ofText? j.text)

/-- The score that a change leads to from a score, before it is bounded. -/
def goal (change : AffinityChange) (current : Int) : Double :=
  match change with
  | .target x => x
  | .up amount => Double.ofInt current + amount
  | .down amount => Double.ofInt current - amount

end AffinityChange

/-- The score after a change, which moves it by no more than one step's bound. -/
def moveAffinity (current : Int) (change : Option AffinityChange) : Int :=
  let current := boundAffinity current
  match change with
  | none => current
  | some change =>
    let asked := change.goal current - Double.ofInt current
    let step := Double.maxOf (-Double.ofInt maxAffinityStep)
      (Double.minOf (Double.ofInt maxAffinityStep) asked)
    clampAffinity (Double.ofInt current + step)

end Ascent
