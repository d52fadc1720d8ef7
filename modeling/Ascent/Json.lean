import Ascent.Moment
import Ascent.Number.Decimal
import Ascent.Pairs
import Ascent.Text.Printable

/-!
Structured values: what save files, configurations and loosely typed arguments are made of.

Objects keep the order of their members. Integers have no bound and are told apart from binary64
numbers. Dates and times are told apart from texts; only configurations hold them.

Main exports: `Json`, `Json.text`.
-/

namespace Ascent

open scoped Power

/-- A structured value. -/
inductive Json where
  | null
  | bool (b : Bool)
  | int (n : Int)
  | real (x : Double)
  | str (s : String)
  | moment (m : Moment)
  | list (items : List Json)
  | object (members : List (String × Json))
deriving Inhabited

namespace Json

/-- The hexadecimal digits of a number, at least `width` of them. -/
def hex (width n : Nat) : List Char :=
  let digits := Nat.toDigits 16 n
  List.replicate (width - digits.length) '0' ++ digits

/-- A character inside a quoted text. -/
def quoteChar (quote c : Char) : List Char :=
  if c = quote || c = '\\' then ['\\', c]
  else if c = '\n' then ['\\', 'n']
  else if c = '\r' then ['\\', 'r']
  else if c = '\t' then ['\\', 't']
  else if Text.isPrintable c then [c]
  else if c.toNat < 256 then '\\' :: 'x' :: hex 2 c.toNat
  else if c.toNat < 65536 then '\\' :: 'u' :: hex 4 c.toNat
  else '\\' :: 'U' :: hex 8 c.toNat

/-- A text as it is shown inside a list: in single quotes, or in double ones where it holds a single
quote and no double one. -/
def quoted (s : String) : String :=
  let quote := if s.contains '\'' && !s.contains '"' then '"' else '\''
  String.ofList (quote :: s.toList.flatMap (quoteChar quote) ++ [quote])

mutual

/-- The text of a value that stands inside another one. -/
def innerText : Json → String
  | .null => "None"
  | .bool b => if b then "True" else "False"
  | .int n => toString n
  | .real x => x.text
  | .str s => quoted s
  | .moment m => m.inParts
  | .list items => "[" ++ ", ".intercalate (innerTexts items) ++ "]"
  | .object members => "\x7b" ++ ", ".intercalate (memberTexts members) ++ "\x7d"

/-- The texts of the items of a list. -/
def innerTexts : List Json → List String
  | [] => []
  | j :: rest => innerText j :: innerTexts rest

/-- The texts of the members of an object. -/
def memberTexts : List (String × Json) → List String
  | [] => []
  | (name, j) :: rest => (quoted name ++ ": " ++ innerText j) :: memberTexts rest

end

/-- How many digits an integer may be shown with. -/
def maxShownDigits : Nat := 4300

mutual

/-- Whether a value is or holds an integer of more digits than may be shown. -/
def hasEndlessInteger : Json → Bool
  | .int n => 10 ^ maxShownDigits ≤ n.natAbs
  | .list items => anyEndlessInteger items
  | .object members => anyEndlessMember members
  | _ => false

/-- Whether an item of a list is or holds such an integer. -/
def anyEndlessInteger : List Json → Bool
  | [] => false
  | j :: rest => hasEndlessInteger j || anyEndlessInteger rest

/-- Whether a member of an object is or holds such an integer. -/
def anyEndlessMember : List (String × Json) → Bool
  | [] => false
  | (_, j) :: rest => hasEndlessInteger j || anyEndlessMember rest

end

/-- The text that a value stands for where a text is expected. -/
def text : Json → String
  | .str s => s
  | .moment m => m.text
  | j => innerText j

end Json
end Ascent
