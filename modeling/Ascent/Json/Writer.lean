import Ascent.Json

/-!
Writing structured values as text, on one line or spread over many. Infinite numbers and what is not
a number have no numeral in this notation and are written as nothing (`null`).

Main exports: `Json.compact`, `Json.spread`.
-/

namespace Ascent.Json

/-- A character inside a written text. -/
def writeChar (c : Char) : List Char :=
  if c = '"' || c = '\\' then ['\\', c]
  else if c = '\n' then ['\\', 'n']
  else if c = '\r' then ['\\', 'r']
  else if c = '\t' then ['\\', 't']
  else if c.toNat = 8 then ['\\', 'b']
  else if c.toNat = 12 then ['\\', 'f']
  else if c.toNat < 32 then '\\' :: 'u' :: hex 4 c.toNat
  else [c]

/-- A text in double quotes. -/
def writeString (s : String) : List Char := '"' :: s.toList.flatMap writeChar ++ ['"']

/-- A value that holds no others. -/
def writeLeaf : Json → List Char
  | .bool b => (if b then "true" else "false").toList
  | .int n => (toString n).toList
  | .real x => (if x.isFinite then x.textIn .saved else "null").toList
  | .str s => writeString s
  | .moment m => writeString m.text
  | _ => "null".toList

/-- Where the items of a list or the members of an object are written: all on one line, or each on a
line of its own, indented. -/
structure Layout where
  separate : Bool
  depth : Nat

namespace Layout

/-- The layout one level deeper. -/
def inner (l : Layout) : Layout := { l with depth := l.depth + 1 }

/-- What stands before an item. -/
def lead (l : Layout) : List Char :=
  if l.separate then '\n' :: List.replicate (2 * l.depth) ' ' else []

/-- What stands between a name and its value. -/
def colon (l : Layout) : List Char := if l.separate then [':', ' '] else [':']

end Layout

mutual

/-- The characters of a value. -/
def writeChars (l : Layout) : Json → List Char
  | .list [] => ['[', ']']
  | .list (j :: rest) => '[' :: l.inner.lead ++ writeChars l.inner j ++ writeItems l.inner rest
      ++ l.lead ++ [']']
  | .object [] => ['\x7b', '\x7d']
  | .object ((name, j) :: rest) => '\x7b' :: l.inner.lead ++ writeString name ++ l.colon
      ++ writeChars l.inner j ++ writeMembers l.inner rest ++ l.lead ++ ['\x7d']
  | j => writeLeaf j

/-- The items of a list after the first. -/
def writeItems (l : Layout) : List Json → List Char
  | [] => []
  | j :: rest => ',' :: l.lead ++ writeChars l j ++ writeItems l rest

/-- The members of an object after the first. -/
def writeMembers (l : Layout) : List (String × Json) → List Char
  | [] => []
  | (name, j) :: rest =>
    ',' :: l.lead ++ writeString name ++ l.colon ++ writeChars l j ++ writeMembers l rest

end

/-- The text of a value, without spaces. -/
def compact (j : Json) : String := String.ofList (writeChars ⟨false, 0⟩ j)

/-- The text of a value, with items and members on lines of their own. -/
def spread (j : Json) : String := String.ofList (writeChars ⟨true, 0⟩ j)

end Ascent.Json
