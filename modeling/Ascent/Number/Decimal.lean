import Ascent.Number.Double
import Ascent.Text.Basic

/-!
Binary64 numbers in decimal: reading a numeral and writing the shortest one that reads back.

A numeral is an optional sign, digits of any script with an optional point, and an optional
exponent; single underscores may stand between digits, and the words for infinity and "not a number"
are numerals too. The shortest numeral of a number is found by trying one digit after another, and
on each grid of so many digits the two neighbours of the number.

Main exports: `Decimal`, `Decimal.toDouble`, `Double.ofNumeral?`, `Double.shortest`, `NumeralStyle`,
`Double.textIn`, `Double.text`.
-/

namespace Ascent

open scoped Power

/-- The decimal number `digits * 10 ^ exponent`, negated if `negative`. -/
structure Decimal where
  negative : Bool
  digits : Nat
  exponent : Int
deriving DecidableEq, Repr

/-- How many decimal digits a number is written with. -/
def digitCount (n : Nat) : Nat := (Nat.toDigits 10 n).length

/-- The nearest binary64 number. Numerals far beyond the largest and far below the least number are
settled by their size alone. -/
def Decimal.toDouble (d : Decimal) : Double :=
  let size : Int := digitCount d.digits + d.exponent
  if d.digits = 0 then .zeroOf d.negative
  else if 310 < size then .infinite d.negative
  else if size < -330 then .zeroOf d.negative
  else .ofRatio d.negative (d.digits * 10 ^ d.exponent.toNat) (10 ^ (-d.exponent).toNat)

namespace Text

/-- The characters with every decimal digit replaced by the ASCII digit of its value. -/
def plainDigits (cs : List Char) : List Char :=
  cs.map fun c => match digitValue? c with
    | some d => Char.ofNat (48 + d)
    | none => c

/-- The number that ASCII digits stand for. -/
def digitsValue (cs : List Char) : Nat := cs.foldl (fun n c => 10 * n + (c.toNat - 48)) 0

/-- The characters without underscores, where each of these stands between two digits; `previous`
tells whether a digit stands before the characters. -/
def joinDigitGroups? (previous : Bool) : List Char → Option (List Char)
  | [] => some []
  | '_' :: c :: rest =>
    if previous && c.isDigit then (joinDigitGroups? true rest).map (c :: ·) else none
  | c :: rest => if c = '_' then none else (joinDigitGroups? c.isDigit rest).map (c :: ·)

/-- A leading sign and what follows it. -/
def takeSign : List Char → Bool × List Char
  | '-' :: rest => (true, rest)
  | '+' :: rest => (false, rest)
  | cs => (false, cs)

/-- An exponent mark with its integer, or nothing at the end of the text. -/
def readExponent? : List Char → Option Int
  | [] => some 0
  | c :: rest =>
    let (negative, digits) := takeSign rest
    if c.toLower = 'e' && !digits.isEmpty && digits.all Char.isDigit then
      let n : Int := digitsValue digits
      some (if negative then -n else n)
    else none

/-- A numeral without sign: digits, a point and an exponent, with a digit on one side of the point
at least. -/
def readUnsigned? (negative : Bool) (cs : List Char) : Option Decimal :=
  let whole := cs.takeWhile Char.isDigit
  let (part, rest) := match cs.dropWhile Char.isDigit with
    | '.' :: rest => (rest.takeWhile Char.isDigit, rest.dropWhile Char.isDigit)
    | rest => ([], rest)
  if whole.isEmpty && part.isEmpty then none
  else (readExponent? rest).map fun e =>
    ⟨negative, digitsValue (whole ++ part), e - part.length⟩

end Text

namespace Double

open Text in
/-- The number that a trimmed numeral stands for. -/
def ofNumeralChars? (cs : List Char) : Option Double := do
  let plain ← joinDigitGroups? false (plainDigits cs)
  let (negative, rest) := takeSign plain
  let word := String.ofList (rest.map Char.toLower)
  if word = "inf" || word = "infinity" then some (.infinite negative)
  else if word = "nan" then some .nan
  else (readUnsigned? negative rest).map Decimal.toDouble

/-- The number that a text stands for, blanks around it aside. -/
def ofNumeral? (s : String) : Option Double := ofNumeralChars? (Text.trimChars s.toList)

/-- How many places behind the point are looked at for the first digit of a quotient: one that is at
least as large as the least positive number has it there. -/
def pointSpan : Nat := 350

/-- The place of the decimal point of a positive quotient: `10 ^ (p - 1) ≤ num / den < 10 ^ p`. -/
def pointPlace (num den : Nat) : Int := (digitCount (num * 10 ^ pointSpan / den) : Int) - pointSpan

/-- The one of two numerals that reads back as `x`; the first if both do and it is preferred. -/
def readingBack? (x : Double) (low high : Decimal) (preferLow : Bool) : Option Decimal :=
  if low.toDouble = x then
    if high.toDouble = x then some (if preferLow then low else high) else some low
  else if high.toDouble = x then some high
  else none

/-- The numerals with `count` digits next to a positive quotient, below and above, that read back as
`x`; the nearer one if both do, the even one if both are equally near. -/
def onGrid? (x : Double) (num den : Nat) (count : Nat) : Option Decimal :=
  let place := pointPlace num den - count
  let top := num * 10 ^ (-place).toNat
  let bottom := den * 10 ^ place.toNat
  let digits := top / bottom
  readingBack? x ⟨false, digits, place⟩ ⟨false, digits + 1, place⟩
    (roundQuotient top bottom = digits)

/-- The decimal without trailing zeros among its first `count` digits from the right. -/
def dropZeros : Nat → Decimal → Decimal
  | 0, d => d
  | count + 1, d =>
    if d.digits ≠ 0 ∧ d.digits % 10 = 0 then
      dropZeros count { d with digits := d.digits / 10, exponent := d.exponent + 1 }
    else d

/-- The shortest numeral of a finite number, and among these the nearest: seventeen digits always
suffice. -/
def shortest (negative : Bool) (significand : Nat) (exponent : Int) : Decimal :=
  if significand = 0 then ⟨negative, 0, 0⟩
  else
    let num := significand * 2 ^ exponent.toNat
    let den := 2 ^ (-exponent).toNat
    let x := ofRatio false num den
    let found := ((List.range 17).findSome? fun i => onGrid? x num den (i + 1)).getD ⟨false, 0, 0⟩
    { dropZeros 18 found with negative := negative }

end Double

/-- How numerals are written: a number is positional where its point lies more than `first` and at
most `last` places right of its first digit's left side, and has an exponent of at least `width`
digits otherwise, with a sign in front also if it is positive where `plus` says so. -/
structure NumeralStyle where
  first : Int
  last : Int
  plus : Bool
  width : Nat
deriving DecidableEq, Repr

/-- The style of numbers that are shown: `0.0001`, `1e-05`, `1e+16`. -/
def NumeralStyle.shown : NumeralStyle := ⟨-4, 16, true, 2⟩

/-- The style of numbers that are saved: `0.00001`, `1e-6`, `1e16`. -/
def NumeralStyle.saved : NumeralStyle := ⟨-5, 16, false, 1⟩

namespace Decimal

/-- An exponent. -/
def exponentText (style : NumeralStyle) (power : Int) : String :=
  let digits := toString power.natAbs
  (if power < 0 then "-" else if style.plus then "+" else "")
    ++ String.ofList (List.replicate (style.width - digits.length) '0') ++ digits

/-- A decimal as a numeral with a point, or with one digit before it and an exponent. -/
def numeral (style : NumeralStyle) (d : Decimal) : String :=
  let digits := toString d.digits
  let count : Int := digits.length
  let point := count + d.exponent
  let zeros (n : Int) := String.ofList (List.replicate n.toNat '0')
  let left (n : Nat) := String.ofList (digits.toList.take n)
  let right (n : Nat) := String.ofList (digits.toList.drop n)
  let sign := if d.negative then "-" else ""
  if style.first < point && point ≤ style.last then
    if point ≤ 0 then sign ++ "0." ++ zeros (-point) ++ digits
    else if count ≤ point then sign ++ digits ++ zeros (point - count) ++ ".0"
    else sign ++ left point.toNat ++ "." ++ right point.toNat
  else
    sign ++ left 1 ++ (if count ≤ 1 then "" else "." ++ right 1) ++ "e"
      ++ exponentText style (point - 1)

end Decimal

namespace Double

/-- A number in a style: the shortest numeral that reads back. -/
def textIn (style : NumeralStyle) : Double → String
  | .nan => "nan"
  | .infinite negative => if negative then "-inf" else "inf"
  | .finite negative significand exponent _ =>
    (shortest negative significand exponent).numeral style

/-- A number as it is shown. -/
def text (x : Double) : String := x.textIn .shown

end Double
end Ascent
