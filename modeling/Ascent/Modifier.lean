import Ascent.Attribute
import Ascent.Json
import Ascent.Text.Case
import Ascent.Text.Numeral

/-!
Modifiers of attributes, flat or in percent, and the names by which narrators call attributes.

Main exports: `Modifier`, `Modifier.ofText?`, `Modifier.apply`, `Attribute.ofName?`.
-/

namespace Ascent

open Text

/-- A change of an attribute: an amount to add, or a fraction of the value to add. -/
structure Modifier where
  amount : Double
  percent : Bool
deriving DecidableEq

namespace Modifier

/-- The modifier that a text stands for: a plain numeral, with a percent sign behind it or not. -/
def ofText? (s : String) : Option Modifier := do
  let cs := trimChars s.toList
  let (numeral, size) ← signedNumeral cs
  match (cs.drop size).dropWhile isBlank with
  | [] => some ⟨numeralNumber numeral, false⟩
  | ['%'] => some ⟨numeralNumber numeral / 100, true⟩
  | _ => none

/-- The modifier that a value stands for. A number is a flat amount. -/
def ofJson? : Json → Except Fault (Option Modifier)
  | .bool _ => .ok none
  | .int n => (Double.ofInt? n).map fun x => some ⟨x, false⟩
  | .real x => .ok (some ⟨x, false⟩)
  | j => .ok (ofText? j.text)

/-- A value changed by a modifier. -/
def apply (m : Modifier) (value : Double) : Double :=
  if m.percent then value * (1 + m.amount) else value + m.amount

end Modifier

/-- A key without blanks, underscores and hyphens. -/
def squeeze (key : String) : String := Text.remove (fun c => isBlank c || c = '_' || c = '-') key

/-- A key without blanks, underscores and hyphens, in lower case. -/
def compactKey (key : String) : String := lower (squeeze key)

namespace Attribute

/-- The names of the attributes, in compact form. -/
def names : List (String × Attribute) :=
  [("hp", .maxVitality), ("maxhp", .maxVitality), ("health", .maxVitality),
   ("vitality", .maxVitality), ("maxvitality", .maxVitality),
   ("mp", .maxResource), ("maxmp", .maxResource), ("mana", .maxResource), ("qi", .maxResource),
   ("resource", .maxResource), ("maxresource", .maxResource),
   ("atk", .offense), ("attack", .offense), ("offense", .offense),
   ("def", .defense), ("defence", .defense), ("defense", .defense),
   ("spd", .speed), ("agility", .speed), ("speed", .speed),
   ("maxexp", .experienceToNext), ("experiencetonext", .experienceToNext)]

/-- The attribute that a narrator means. -/
def ofName? (name : String) : Option Attribute := names.lookup (compactKey name)

end Attribute
end Ascent
