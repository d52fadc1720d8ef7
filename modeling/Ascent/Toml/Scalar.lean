import Ascent.Fault
import Ascent.Toml.Quoted

/-!
Numbers, dates and times in TOML.

Main exports: `Toml.readNumber?`, `Toml.readMoment?`.
-/

namespace Ascent.Toml

open Text

/-! ### Numbers -/

/-- The digits at the head of the characters with single underscores between them; `inside` tells
whether a digit stands before. -/
def takeGrouped (isDigit : Char → Bool) (inside : Bool) : List Char → List Char
  | [] => []
  | c :: rest =>
    if isDigit c then c :: takeGrouped isDigit true rest
    else if inside && c = '_' && rest.head?.any isDigit then c :: takeGrouped isDigit false rest
    else []

/-- The digits and underscores at the head of the characters, and what follows. -/
def splitGrouped (isDigit : Char → Bool) (cs : List Char) : List Char × List Char :=
  let run := takeGrouped isDigit false cs
  (run, cs.drop run.length)

/-- The integer that digits and underscores stand for. -/
def groupedValue (base : Nat) (run : List Char) : Nat :=
  (run.filterMap Json.hexValue?).foldl (fun n d => base * n + d) 0

/-- The marks of integers in other bases, and the bases. -/
def bases : List (Char × Nat) := [('x', 16), ('o', 8), ('b', 2)]

/-- An integer in another base, after its zero. -/
def readBased? : Read Json
  | [] => none
  | mark :: rest => do
    let base ← bases.lookup mark
    let (run, rest) := splitGrouped (fun c => (Json.hexValue? c).any (· < base)) rest
    if run.isEmpty then none else some (.int (groupedValue base run), rest)

/-- The sign at the head of the characters, and what follows. -/
def splitSign : List Char → List Char × List Char
  | '+' :: rest => (['+'], rest)
  | '-' :: rest => (['-'], rest)
  | cs => ([], cs)

/-- The whole part of a decimal number: a zero, or digits that do not begin with one. -/
def splitWhole : List Char → List Char × List Char
  | '0' :: rest => (['0'], rest)
  | cs => splitGrouped Char.isDigit cs

/-- The fraction at the head of the characters, with its point. -/
def splitFraction : List Char → List Char × List Char
  | '.' :: rest => match splitGrouped Char.isDigit rest with
    | ([], _) => ([], '.' :: rest)
    | (run, rest) => ('.' :: run, rest)
  | cs => ([], cs)

/-- The exponent at the head of the characters, with its mark. -/
def splitExponent : List Char → List Char × List Char
  | c :: rest =>
    let (sign, digits) := splitSign rest
    match splitGrouped Char.isDigit digits with
    | ([], _) => ([], c :: rest)
    | (run, left) =>
      if c = 'e' || c = 'E' then (c :: sign ++ run, left) else ([], c :: rest)
  | [] => ([], [])

/-- A decimal number: an integer, unless it has a fraction or an exponent. An integer must not have
too many digits. -/
def readDecimal? (cs : List Char) : Option (Except Fault Json × List Char) := do
  let (sign, rest) := splitSign cs
  let (whole, rest) := splitWhole rest
  let (fraction, rest) := splitFraction rest
  let (exponent, rest) := splitExponent rest
  if whole.isEmpty then none
  else if fraction.isEmpty && exponent.isEmpty then
    let n : Int := groupedValue 10 whole
    if Json.maxIntegerDigits < (whole.filter Char.isDigit).length then
      some (.error .numeralTooLong, rest)
    else some (.ok (.int (if sign = ['-'] then -n else n)), rest)
  else
    let x ← Double.ofNumeralChars? (sign ++ whole ++ fraction ++ exponent)
    some (.ok (.real x), rest)

/-- The words for numbers that are not finite. -/
def specialNumbers : List (String × Double) :=
  [("inf", .infinite false), ("nan", .nan), ("-inf", .infinite true), ("+inf", .infinite false),
   ("-nan", .nan), ("+nan", .nan)]

/-- A number that is not finite. -/
def readSpecial? : Read Json := fun cs =>
  specialNumbers.findSome? fun (word, x) =>
    (dropStart? word.toList cs).map fun rest => (.real x, rest)

/-- A number. -/
def readNumber? (cs : List Char) : Option (Except Fault Json × List Char) :=
  let based := match cs with
    | '0' :: rest => readBased? rest
    | _ => none
  match based with
  | some (j, rest) => some (.ok j, rest)
  | none => match readDecimal? cs with
    | some found => some found
    | none => (readSpecial? cs).map fun (j, rest) => (.ok j, rest)

/-! ### Dates and times -/

/-- A number of exactly so many digits, within bounds. -/
def readField? (width low high : Nat) : Read Nat := fun cs =>
  let digits := cs.take width
  let n := digitsValue digits
  if digits.length = width && digits.all Char.isDigit && low ≤ n && n ≤ high then
    some (n, cs.drop width)
  else none

/-- A character that has to stand at the head of the characters. -/
def expect? (c : Char) : List Char → Option (List Char)
  | d :: rest => if d = c then some rest else none
  | [] => none

/-- Parts of a second, in millionths, with the point in front; further digits count for nothing. -/
def readMillionths? : Read Nat
  | '.' :: rest =>
    let digits := rest.takeWhile Char.isDigit
    if digits.isEmpty then none
    else some (digitsValue ((digits ++ List.replicate 6 '0').take 6), rest.drop digits.length)
  | _ => none

/-- A time of day. -/
def readTime? (cs : List Char) : Option (TimeOfDay × List Char) := do
  let (hour, cs) ← readField? 2 0 23 cs
  let (minute, cs) ← readField? 2 0 59 (← expect? ':' cs)
  let (second, cs) ← readField? 2 0 59 (← expect? ':' cs)
  match readMillionths? cs with
  | some (millionths, cs) => some (⟨hour, minute, second, millionths⟩, cs)
  | none => some (⟨hour, minute, second, 0⟩, cs)

/-- How many minutes a time zone is ahead. -/
def readZone? : Read Int
  | [] => none
  | c :: rest =>
    if c = 'Z' || c = 'z' then some (0, rest)
    else if c = '+' || c = '-' then do
      let (hour, rest) ← readField? 2 0 23 rest
      let (minute, rest) ← readField? 2 0 59 (← expect? ':' rest)
      let minutes : Int := 60 * hour + minute
      some (if c = '-' then -minutes else minutes, rest)
    else none

/-- How many days a month has. -/
def daysIn (year month : Nat) : Nat :=
  if month = 2 then
    if year % 4 = 0 && (year % 100 ≠ 0 || year % 400 = 0) then 29 else 28
  else if [4, 6, 9, 11].contains month then 30
  else 31

/-- What may follow a date: a time of day, and the zone that it is in. -/
def readTimeOfDate (d : Day) (cs : List Char) : Moment × List Char :=
  let time := match cs with
    | c :: rest => if c = 'T' || c = 't' || c = ' ' then readTime? rest else none
    | [] => none
  match time with
  | none => (.date d, cs)
  | some (time, rest) => match readZone? rest with
    | some (zone, rest) => (.dated d time (some zone), rest)
    | none => (.dated d time none, rest)

/-- A date, with a time of day or without; a day that the calendar does not have is no date at
all. -/
def readDate? (cs : List Char) : Option (Option Json × List Char) := do
  let (year, cs) ← readField? 4 0 9999 cs
  let (month, cs) ← readField? 2 1 12 (← expect? '-' cs)
  let (day, cs) ← readField? 2 1 31 (← expect? '-' cs)
  let (moment, cs) := readTimeOfDate ⟨year, month, day⟩ cs
  some (if 1 ≤ year && day ≤ daysIn year month then some (.moment moment) else none, cs)

/-- A date or a time of day; nothing in place of a date that does not exist. -/
def readMoment? (cs : List Char) : Option (Option Json × List Char) :=
  match readDate? cs with
  | some found => some found
  | none => (readTime? cs).map fun (time, rest) => (some (.moment (.time time)), rest)

end Ascent.Toml
