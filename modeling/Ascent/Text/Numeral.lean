import Ascent.Number.Decimal
import Ascent.Text.Pattern

/-!
Plain numerals inside a text: digits of any script, with a fraction and a sign where one is allowed,
but without an exponent.

Main exports: `unsignedNumeral`, `signedNumeral`, `numeralNumber`.
-/

namespace Ascent.Text

/-- Digits, with a point and further digits if these follow. -/
def unsignedNumeral : Pattern (List Char) := fun cs =>
  let whole := cs.takeWhile isDigit
  let part := match cs.dropWhile isDigit with
    | '.' :: rest => rest.takeWhile isDigit
    | _ => []
  if whole.isEmpty then none
  else
    let numeral := if part.isEmpty then whole else whole ++ '.' :: part
    some (numeral, numeral.length)

/-- A numeral that may have a sign. -/
def signedNumeral : Pattern (List Char)
  | c :: rest =>
    if c = '+' || c = '-' then
      (unsignedNumeral rest).map fun (numeral, size) => (c :: numeral, size + 1)
    else unsignedNumeral (c :: rest)
  | [] => none

/-- The number that a plain numeral stands for; one with very many digits is infinite. -/
def numeralNumber (numeral : List Char) : Double := (Double.ofNumeralChars? numeral).getD 0

end Ascent.Text
