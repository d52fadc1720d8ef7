/-!
What an operation may fail with. A fault names its cause; `Fault.message` puts it into words.

Main exports: `Fault`, `Fault.message`.
-/

namespace Ascent

/-- Why an operation has no result. -/
inductive Fault where
  /-- An infinite number has no integer part. -/
  | infiniteToInteger
  /-- What is not a number has no integer part. -/
  | undefinedToInteger
  /-- An integer, or a quotient of integers, lies beyond the largest finite number. -/
  | beyondFinite
  /-- A division by zero. -/
  | divisionByZero
  /-- A numeral has more digits than a numeral may have. -/
  | numeralTooLong
  /-- Values are nested deeper than they may be. -/
  | nestedTooDeep
  /-- An argument without a value stands where its text is needed. -/
  | valueless
  /-- A value that is no text stands where a pattern is to be found in it. -/
  | notText
  /-- Records of this kind have no name to go by. -/
  | nameless
  /-- A new record would hold a number outside the range of its field. -/
  | outOfRange
  /-- A list has no record at a place. -/
  | noRecord
deriving DecidableEq, Repr

/-- A fault in words. -/
def Fault.message : Fault → String
  | .infiniteToInteger => "cannot convert float infinity to integer"
  | .undefinedToInteger => "cannot convert float NaN to integer"
  | .beyondFinite => "int too large to convert to float"
  | .divisionByZero => "division by zero"
  | .numeralTooLong => "numeral too long"
  | .nestedTooDeep => "nested too deep"
  | .valueless => "argument without a value"
  | .notText => "expected text"
  | .nameless => "record without a name"
  | .outOfRange => "value out of range"
  | .noRecord => "no record at this place"

end Ascent
