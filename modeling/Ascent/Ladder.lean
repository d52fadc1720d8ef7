import Ascent.Fault
import Ascent.Number.Quantity
import Ascent.Text.Basic
import Ascent.Text.Pattern

/-!
The ladder of tiers: major tiers, each with the same minor tiers, and labels for their rungs.

A label is a major tier's name, optionally followed by a minor tier's. It is read case aside: the
longest major name that it begins with counts, and of what is left an equal minor name or else the
longest that it begins with. A label that begins with no major name stands for the lowest rung.

Main exports: `Ladder`, `Rung`, `Ladder.resolve`, `Ladder.label`, `Ladder.readNames`, `Curve`.
-/

namespace Ascent

open Text

/-- Major tiers from the lowest up, and the minor tiers within each. -/
structure Ladder where
  majors : List String
  minors : List String
deriving DecidableEq, Repr

/-- A place on the ladder, with the size of the ladder and how much of its label was recognised. -/
structure Rung where
  major : Nat
  minor : Nat
  majorCount : Nat
  minorCount : Nat
  known : Bool
  minorKnown : Bool
deriving DecidableEq, Repr

namespace Rung

/-- The number of rungs below. -/
def absolute (r : Rung) : Nat := r.major * r.minorCount + r.minor

/-- Whether no minor tier of the same major tier is higher. -/
def isLastMinor (r : Rung) : Bool := r.minorCount - 1 ≤ r.minor

/-- Whether no major tier is higher. -/
def isTopMajor (r : Rung) : Bool := r.majorCount - 1 ≤ r.major

end Rung

/-- The label of those who do not climb. -/
def mortalLabel : String := "Mortal"

/-- Whether a label is the one of mortals, case and blanks around it aside. -/
def isMortal (label mortal : String) : Bool := label ≠ "" && fold (trim label) == fold mortal

namespace Ladder

/-! ### Reading a ladder's names -/

/-- Whether a character is a hyphen or a dash. -/
def isDash (c : Char) : Bool := c = '-' || c = '–' || c = '—'

/-- A dash between blanks, or a comma with the blanks around it. -/
def separator : Pattern Unit := fun cs =>
  let gap := cs.takeWhile isBlank
  match cs.dropWhile isBlank with
  | [] => none
  | c :: rest =>
    let after := rest.takeWhile isBlank
    if c = ',' || (isDash c && !gap.isEmpty && !after.isEmpty) then
      some ((), gap.length + 1 + after.length)
    else none

/-- A name that ends in a number: what stands before the number, and its digits. Nothing before the
number is a line end. -/
def numbered? (name : List Char) : Option (List Char × List Char) :=
  let digits := (name.reverse.takeWhile isDigit).reverse
  let stem := (name.reverse.dropWhile isDigit).reverse
  if digits.isEmpty || stem.contains '\n' then none else some (stem, digits)

/-- How many names a range may span, less one. -/
def maxRangeSpan : Nat := 100

/-- How many digits a number in a name may have. -/
def maxNumeralDigits : Nat := 4300

/-- The number that digits of any script stand for. -/
def numeralValue (digits : List Char) : Except Fault Nat :=
  if maxNumeralDigits < digits.length then .error .numeralTooLong
  else .ok (digits.foldl (fun n c => 10 * n + (digitValue? c).getD 0) 0)

/-- The names of a range, from a numbered name to one with the same stem and no lower number;
nothing where the two are no such pair, or too far apart. -/
def range? (first last : List Char) : Except Fault (Option (List String)) :=
  match numbered? first, numbered? last with
  | some (stem, lowDigits), some (lastStem, highDigits) =>
    if trimChars stem = trimChars lastStem then do
      let low ← numeralValue lowDigits
      let high ← numeralValue highDigits
      if low ≤ high ∧ high - low < maxRangeSpan then
        return some <| (List.range (high - low + 1)).map fun i =>
          String.ofList (trimChars (stem ++ (toString (low + i)).toList))
      else return none
    else return none
  | _, _ => return none

/-- The names that a text describes: parted by dashes between blanks or by commas, or, where just
two names with one stem are written, the range from one to the other. -/
def readNames (text : String) : Except Fault (List String) := do
  let parts := ((separator.split text.toList).map trimChars).filter (!·.isEmpty)
  let names := parts.map String.ofList
  match parts with
  | [first, last] => return (← range? first last).getD names
  | _ => return names

/-- Names trimmed, without empty ones. -/
def cleanNames (names : List String) : List String := (names.map trim).filter (· ≠ "")

/-! ### Labels -/

/-- The place of the first of the longest names that the folded text begins with, and its length;
`place` is the place of the first name. -/
def longestFrom (text : List Char) (place : Nat) : List String → Option (Nat × Nat)
  | [] => none
  | name :: rest =>
    let key := foldChars name.toList
    let later := longestFrom text (place + 1) rest
    if key.isPrefixOf text then
      match later with
      | some (i, size) => if key.length < size then some (i, size) else some (place, key.length)
      | none => some (place, key.length)
    else later

/-- The place of the first of the longest names that the folded text begins with, and its length. -/
def longest? (names : List String) (text : List Char) : Option (Nat × Nat) :=
  longestFrom text 0 names

/-- The minor tier that the rest of a folded label names. -/
def minorOf? (minors : List String) (rest : List Char) : Option Nat :=
  if rest.isEmpty then none
  else match minors.findIdx? fun name => foldChars name.toList = rest with
    | some i => some i
    | none => (longest? minors rest).map (·.1)

/-- Whether a character may stand between the two names of a label. -/
def isLabelGap (c : Char) : Bool := c = ' ' || isDash c || c = ','

/-- The rung that a label stands for. -/
def resolve (ladder : Ladder) (label : String) : Rung :=
  let majorCount := max 1 ladder.majors.length
  let minorCount := max 1 ladder.minors.length
  let text := foldChars (trimChars label.toList)
  match longest? ladder.majors text with
  | none => ⟨0, 0, majorCount, minorCount, false, false⟩
  | some (major, size) =>
    let minor := minorOf? ladder.minors (trimWhere isLabelGap (text.drop size))
    ⟨major, minor.getD 0, majorCount, minorCount, true, minor.isSome⟩

/-- The name at a place, or the one nearest to it. -/
def nameNear (names : List String) (place : Int) : String :=
  (names[(max 0 (min place (names.length - 1))).toNat]?).getD ""

/-- The label of a rung; places off the ladder stand for the nearest on it. -/
def label (ladder : Ladder) (major minor : Int) : String :=
  if ladder.majors.isEmpty then mortalLabel
  else if ladder.minors.isEmpty then nameNear ladder.majors major
  else nameNear ladder.majors major ++ " " ++ nameNear ladder.minors minor

/-- The ladder of a world that names none. -/
def standard : Ladder where
  majors :=
    ["Qi Refining", "Foundation Establishment", "Golden Core", "Nascent Soul", "Spirit Severing"]
  minors := (List.range 9).map fun i => s!"Layer {i + 1}"

end Ladder

/-- How the worth of a rung grows: from a base, each major tier multiplies it by a factor that
decays from one tier to the next but not below a floor. -/
structure Curve (α : Type) where
  base : α
  multiplier : α
  decay : α
  floor : α
deriving DecidableEq

namespace Curve

/-- The curve of the stats and of the values of items. -/
def standard : Curve Double := ⟨100, 5, 0.3, 3⟩

variable {α : Type} [Reckoning α]

/-- The factor of the step up from a major tier. -/
def factor (c : Curve α) (major : Nat) : α :=
  Reckoning.maxOf c.floor (c.multiplier - c.decay * Reckoning.ofInt major)

/-- The worth of a major tier. -/
def majorValue (c : Curve α) : Nat → α
  | 0 => c.base
  | major + 1 => majorValue c major * factor c major

/-- The worth of a rung: its major tier's, and for each minor tier an equal share of it more. -/
def value (c : Curve α) (major : Nat) (minor minorCount : α) : α :=
  let whole := c.majorValue major
  whole + minor * whole / Reckoning.maxOf (Reckoning.ofInt 1) minorCount

end Curve
end Ascent
