import Ascent.Json.Reader

/-!
Numbers that are written as texts where a record wants a number.

An integer may have blanks around it, a sign, needless zeros in front, single underscores between
its digits, and a point with zeros behind it. A number that need not be an integer may have single
underscores anywhere but at its ends; it is read without them only if it cannot be read with them,
and then nothing may stand around it.

Main exports: `Numeral.readInteger`, `Numeral.readNumber?`.
-/

namespace Ascent.Numeral

/-- Whether a character is blank around a written number: the separators of files and records are
not. -/
def isGap (c : Char) : Bool := Text.isBlank c && !(28 ≤ c.toNat && c.toNat ≤ 31)

/-- The characters without the blanks around them. -/
def trimGaps (cs : List Char) : List Char := Text.trimWhere isGap cs

/-! ### Integers -/

/-- What is left of a numeral after a zero and other zeros and underscores; `last` is the latest of
these. It begins with a digit or a minus sign; the last zero is kept before a point and at the
end. -/
def afterZeros? (last : Char) : List Char → Option (List Char)
  | [] => some [last]
  | c :: rest =>
    if c = '0' || c = '_' then afterZeros? c rest
    else if c.isDigit || c = '-' then some (c :: rest)
    else if c = '.' then some (last :: c :: rest)
    else none

/-- A numeral that begins with a digit, without needless zeros in front. -/
def dropZeros? : List Char → Option (List Char)
  | [] => none
  | c :: rest =>
    if c = '0' then afterZeros? c rest else if c.isDigit then some (c :: rest) else none

/-- A numeral without a plus sign and needless zeros in front. -/
def dropFront? : List Char → Option (List Char)
  | '-' :: rest => (dropZeros? rest).map ('-' :: ·)
  | '+' :: rest => dropZeros? rest
  | cs => dropZeros? cs

/-- A numeral without a point and the zeros behind it, of which there must be one at least. -/
def dropFraction (cs : List Char) : List Char :=
  let zeros := (cs.dropWhile (· ≠ '.')).drop 1
  if !zeros.isEmpty && zeros.all (· = '0') then cs.takeWhile (· ≠ '.') else cs

/-- Whether two underscores follow each other. -/
def hasGroupGap : List Char → Bool
  | '_' :: '_' :: _ => true
  | _ :: rest => hasGroupGap rest
  | [] => false

/-- A numeral without its underscores, if these are single and not at its ends. -/
def joinGroups (cs : List Char) : List Char :=
  if cs.head? = some '_' || cs.getLast? = some '_' || hasGroupGap cs then cs
  else cs.filter (· ≠ '_')

/-- Why a text stands for no integer. -/
inductive Refusal where
  | unreadable
  /-- There are more digits than an integer may have. -/
  | oversize
deriving DecidableEq, Repr

/-- The integer of plain digits with or without a minus sign. How many digits there are is looked at
before what follows them. -/
def plainInteger (cs : List Char) : Except Refusal Int :=
  let (negative, cs) := match cs with
    | '-' :: rest => (true, rest)
    | cs => (false, cs)
  let digits := cs.takeWhile Char.isDigit
  let ends := digits.length = cs.length
  let size := digits.length + (if negative then 1 else 0)
  if digits.isEmpty || (digits.head? = some '0' && 1 < digits.length) then .error .unreadable
  else if Json.maxIntegerDigits < size then .error .oversize
  else if ends then
    let n : Int := Text.digitsValue digits
    .ok (if negative then -n else n)
  else .error .unreadable

/-- The integer that a text stands for. -/
def readInteger (s : String) : Except Refusal Int :=
  match dropFront? (trimGaps s.toList) with
  | some cs => plainInteger (joinGroups (dropFraction cs))
  | none => .error .unreadable

/-! ### Other numbers -/

/-- The number that a numeral in ASCII without underscores stands for. -/
def plainNumber? (cs : List Char) : Option Double :=
  if cs.all fun c => c.toNat < 128 && c ≠ '_' then Double.ofNumeralChars? cs else none

/-- The number that a text stands for. -/
def readNumber? (s : String) : Option Double :=
  (plainNumber? (trimGaps s.toList)).or (plainNumber? (joinGroups s.toList))

end Ascent.Numeral
