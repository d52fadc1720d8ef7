import Ascent.Json

/-!
Reading structured values from their text.

The reader works on the list of characters and returns what is left of it. It recurses on a budget
of steps; each step takes a character, so the length of the text is enough. Values are nested to a
bounded depth. An object keeps all members that are written, also several of one name; settled, each
name stands once, in the place of its first mention with the value of its last.

Main exports: `Json.ofText?`, `Json.ofNestedText?`, `Json.settled`, `Json.fits`.
-/

namespace Ascent.Json

/-- How deep values may be nested in those of a record; empty ones do not count. -/
def maxDepth : Nat := 200

/-- How many digits the whole part of a number may have, its minus sign counted. -/
def maxIntegerDigits : Nat := 4300

/-- Whether a character may stand between values. -/
def isGap (c : Char) : Bool := c = ' ' || c = '\t' || c = '\n' || c = '\r'

/-- The text after the characters that may stand between values. -/
def skipGap (cs : List Char) : List Char := cs.dropWhile isGap

/-- The value of a hexadecimal digit. -/
def hexValue? (c : Char) : Option Nat :=
  if c.isDigit then some (c.toNat - 48)
  else if 'a' ≤ c && c ≤ 'f' then some (c.toNat - 87)
  else if 'A' ≤ c && c ≤ 'F' then some (c.toNat - 55)
  else none

/-- The character that a one-letter escape stands for. -/
def escape? (c : Char) : Option Char :=
  if c = '"' || c = '\\' || c = '/' then some c
  else if c = 'n' then some '\n'
  else if c = 't' then some '\t'
  else if c = 'r' then some '\r'
  else if c = 'b' then some (Char.ofNat 8)
  else if c = 'f' then some (Char.ofNat 12)
  else none

/-- The code units of a text up to its closing quote, and what follows. -/
def readUnits : List Char → Option (List Nat × List Char)
  | [] => none
  | '"' :: rest => some ([], rest)
  | '\\' :: 'u' :: a :: b :: c :: d :: rest => do
    let high := (← hexValue? a) * 16 + (← hexValue? b)
    let low := (← hexValue? c) * 16 + (← hexValue? d)
    let unit := high * 256 + low
    let (units, rest) ← readUnits rest
    some (unit :: units, rest)
  | '\\' :: c :: rest => do
    let c ← escape? c
    let (units, rest) ← readUnits rest
    some (c.toNat :: units, rest)
  | c :: rest => do
    if c.toNat < 32 then none
    else
      let (units, rest) ← readUnits rest
      some (c.toNat :: units, rest)

/-- The characters that code units stand for: a high and a low surrogate together make one, and
neither stands alone. -/
def joinUnits : List Nat → Option (List Char)
  | [] => some []
  | [u] => if 0xD800 ≤ u && u < 0xE000 then none else some [Char.ofNat u]
  | u :: v :: rest =>
    if 0xD800 ≤ u && u < 0xDC00 then
      if 0xDC00 ≤ v && v < 0xE000 then
        (joinUnits rest).map (Char.ofNat (0x10000 + (u - 0xD800) * 0x400 + (v - 0xDC00)) :: ·)
      else none
    else if 0xDC00 ≤ u && u < 0xE000 then none
    else (joinUnits (v :: rest)).map (Char.ofNat u :: ·)

/-- A text after its opening quote. -/
def readString? (cs : List Char) : Option (String × List Char) := do
  let (units, rest) ← readUnits cs
  some (String.ofList (← joinUnits units), rest)

/-- The digits at the head of the characters. -/
def takeDigits (cs : List Char) : List Char × List Char :=
  (cs.takeWhile Char.isDigit, cs.dropWhile Char.isDigit)

/-- An exponent, if one stands at the head: its value and what follows. -/
def readPower? : List Char → Option (Option Int × List Char)
  | c :: rest =>
    if c = 'e' || c = 'E' then
      let (negative, rest) := Text.takeSign rest
      let (digits, rest) := takeDigits rest
      if digits.isEmpty then none
      else
        let n : Int := Text.digitsValue digits
        some (some (if negative then -n else n), rest)
    else some (none, c :: rest)
  | [] => some (none, [])

/-- A number after its sign. Without a point and an exponent it is an integer; its whole part has no
needless zero in front. -/
def readNumber? (negative : Bool) (cs : List Char) : Option (Json × List Char) := do
  let (whole, rest) := takeDigits cs
  let size := whole.length + (if negative then 1 else 0)
  if whole.isEmpty || (whole.head? == some '0' && 1 < whole.length) then none
  else if maxIntegerDigits < size then none
  else
    let (part, rest) ← match rest with
      | '.' :: rest =>
        let (part, rest) := takeDigits rest
        if part.isEmpty then none else some (some part, rest)
      | rest => some (none, rest)
    let (power, rest) ← readPower? rest
    match part, power with
    | none, none =>
      let n : Int := Text.digitsValue whole
      some (.int (if negative then -n else n), rest)
    | part, power =>
      let part := part.getD []
      let d : Decimal :=
        ⟨negative, Text.digitsValue (whole ++ part), power.getD 0 - part.length⟩
      some (.real d.toDouble, rest)

/-- A value that is not a list and not an object. -/
def readLeaf? (cs : List Char) : Option (Json × List Char) :=
  let word (w : String) (j : Json) := (Text.dropStart? w.toList cs).map (j, ·)
  match cs with
  | '"' :: rest => (readString? rest).map fun (s, rest) => (.str s, rest)
  | '-' :: 'I' :: _ => word "-Infinity" (.real (.infinite true))
  | '-' :: rest => readNumber? true rest
  | 't' :: _ => word "true" (.bool true)
  | 'f' :: _ => word "false" (.bool false)
  | 'n' :: _ => word "null" .null
  | 'N' :: _ => word "NaN" (.real .nan)
  | 'I' :: _ => word "Infinity" (.real (.infinite false))
  | rest => readNumber? false rest

mutual

/-- A value at the head of the characters, with a budget of steps and of depth. -/
def readValue? (steps depth : Nat) (cs : List Char) : Option (Json × List Char) :=
  match steps with
  | 0 => none
  | steps + 1 => match cs with
    | '[' :: rest => match skipGap rest with
      | ']' :: rest => some (.list [], rest)
      | rest =>
        if depth = 0 then none
        else (readItems? steps (depth - 1) rest).map fun (items, rest) => (.list items, rest)
    | '\x7b' :: rest => match skipGap rest with
      | '\x7d' :: rest => some (.object [], rest)
      | rest =>
        if depth = 0 then none
        else (readMembers? steps (depth - 1) rest).map fun (members, rest) =>
          (.object members, rest)
    | cs => readLeaf? cs

/-- The items of a list up to its closing bracket. -/
def readItems? (steps depth : Nat) (cs : List Char) : Option (List Json × List Char) :=
  match steps with
  | 0 => none
  | steps + 1 => do
    let (item, rest) ← readValue? steps depth cs
    match skipGap rest with
    | ']' :: rest => some ([item], rest)
    | ',' :: rest =>
      let (items, rest) ← readItems? steps depth (skipGap rest)
      some (item :: items, rest)
    | _ => none

/-- The members of an object up to its closing brace. -/
def readMembers? (steps depth : Nat) (cs : List Char) : Option (List (String × Json) × List Char) :=
  match steps with
  | 0 => none
  | steps + 1 => match cs with
    | '"' :: rest => do
      let (name, rest) ← readString? rest
      match skipGap rest with
      | ':' :: rest =>
        let (value, rest) ← readValue? steps depth (skipGap rest)
        match skipGap rest with
        | '\x7d' :: rest => some ([(name, value)], rest)
        | ',' :: rest =>
          let (members, rest) ← readMembers? steps depth (skipGap rest)
          some ((name, value) :: members, rest)
        | _ => none
      | _ => none
    | _ => none

end

/-- The value that a whole text stands for, nested no deeper than a bound. -/
def ofNestedText? (depth : Nat) (s : String) : Option Json :=
  let cs := s.toList
  match readValue? (2 * cs.length + 2) depth (skipGap cs) with
  | some (j, rest) => if (skipGap rest).isEmpty then some j else none
  | none => none

/-- The value that a whole text stands for. -/
def ofText? (s : String) : Option Json := ofNestedText? maxDepth s

mutual

/-- A value with each member standing once in its object. -/
def settled : Json → Json
  | .list items => .list (settledItems items)
  | .object members => .object (Pairs.ofList (settledMembers members))
  | j => j

/-- The items of a list, settled. -/
def settledItems : List Json → List Json
  | [] => []
  | j :: rest => settled j :: settledItems rest

/-- The members of an object, each settled. -/
def settledMembers : List (String × Json) → List (String × Json)
  | [] => []
  | (name, j) :: rest => (name, settled j) :: settledMembers rest

end

mutual

/-- Whether values are nested no deeper than a bound; empty ones do not count. -/
def fits (depth : Nat) : Json → Bool
  | .list [] => true
  | .list items => depth ≠ 0 && itemsFit (depth - 1) items
  | .object [] => true
  | .object members => depth ≠ 0 && membersFit (depth - 1) members
  | _ => true

/-- Whether the items of a list are nested no deeper than a bound. -/
def itemsFit (depth : Nat) : List Json → Bool
  | [] => true
  | j :: rest => fits depth j && itemsFit depth rest

/-- Whether the members of an object are nested no deeper than a bound. -/
def membersFit (depth : Nat) : List (String × Json) → Bool
  | [] => true
  | (_, j) :: rest => fits depth j && membersFit depth rest

end

end Ascent.Json
