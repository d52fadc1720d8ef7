import Ascent.Fault
import Ascent.Number.Rounding

/-!
Binary64 numbers with correctly rounded arithmetic.

A `Double` is a sign, a significand and an exponent in canonical form, an infinity, or not a number.
Every operation computes its exact result in the integers and rounds it once, to the nearest
representable number, a half going to the even significand. So a law about an operation is a law
about integers followed by a law about `Double.ofRatio`.

Main exports: `Double`, `Double.ofRatio`, `Double.ofInt?`, `add`, `sub`, `mul`, `div`, `lt`,
`truncate`, `floor`, `roundEven`.
-/

namespace Ascent

open scoped Power

/-- The significand and exponent of a finite binary64 number: the exponent is the least one that
keeps the significand below `2 ^ 53`. -/
def Canonical (significand : Nat) (exponent : Int) : Prop :=
  significand < 2 ^ (53 : Nat) ∧ -1074 ≤ exponent ∧ exponent ≤ 971 ∧
    (exponent = -1074 ∨ 2 ^ (52 : Nat) ≤ significand)

instance (significand : Nat) (exponent : Int) : Decidable (Canonical significand exponent) :=
  inferInstanceAs (Decidable (_ ∧ _))

/-- A binary64 number. A finite one is `significand * 2 ^ exponent`, negated if `negative`; zero
has a sign as well. -/
inductive Double where
  | nan
  | infinite (negative : Bool)
  | finite (negative : Bool) (significand : Nat) (exponent : Int)
      (canonical : Canonical significand exponent)
deriving DecidableEq

namespace Double

/-- The zero of a sign. -/
def zeroOf (negative : Bool) : Double := .finite negative 0 (-1074) (by decide)

/-- The number of this sign, significand and exponent, or the infinity of the sign where they are
not canonical: rounding leaves only an exponent that is too large. -/
def build (negative : Bool) (significand : Nat) (exponent : Int) : Double :=
  if h : Canonical significand exponent then .finite negative significand exponent h
  else .infinite negative

/-- The exponent of the last place of the number nearest to `num / den`: 52 binary places below
the leading one, but not below the least exponent. -/
def lastPlace (num den : Nat) : Int :=
  let k : Int := (num.log2 : Int) - (den.log2 : Int)
  let leading := if num * 2 ^ (-k).toNat < den * 2 ^ k.toNat then k - 1 else k
  max (-1074) (leading - 52)

/-- The number nearest to `num / den` with the given sign, a half going to the even significand. -/
def ofRatio (negative : Bool) (num den : Nat) : Double :=
  if num = 0 then zeroOf negative
  else
    let e := lastPlace num den
    let m := roundQuotient (num * 2 ^ (-e).toNat) (den * 2 ^ e.toNat)
    if m = 2 ^ (53 : Nat) then build negative (2 ^ (52 : Nat)) (e + 1) else build negative m e

/-- The number nearest to `significand * 2 ^ exponent` with the given sign. -/
def ofScaled (negative : Bool) (significand : Nat) (exponent : Int) : Double :=
  ofRatio negative (significand * 2 ^ exponent.toNat) (2 ^ (-exponent).toNat)

/-- The number nearest to an integer. -/
def ofInt (n : Int) : Double := ofRatio (n < 0) n.natAbs 1

/-- Whether a number is neither infinite nor "not a number". -/
def isFinite : Double → Bool
  | .finite .. => true
  | _ => false

/-- The number nearest to an integer, unless the integer lies beyond the largest finite one. -/
def ofInt? (n : Int) : Except Fault Double :=
  if (ofInt n).isFinite then .ok (ofInt n) else .error .beyondFinite

/-- The number nearest to the quotient of two integers. -/
def quotient? (num : Int) (den : Nat) : Except Fault Double :=
  if den = 0 then .error .divisionByZero
  else
    let q := ofRatio (num < 0) num.natAbs den
    if q.isFinite then .ok q else .error .beyondFinite

instance (n : Nat) : OfNat Double n := ⟨ofInt n⟩

/-- The number nearest to a decimal: `0.3` is `ofRatio false 3 10`. -/
instance : OfScientific Double where
  ofScientific significand fractional exponent :=
    if fractional then ofRatio false significand (10 ^ exponent)
    else ofRatio false (significand * 10 ^ exponent) 1

instance : Inhabited Double := ⟨zeroOf false⟩

/-- The signed significand of a finite number, shifted to the exponent `e`, which is at most the
number's own. -/
def shifted (negative : Bool) (significand : Nat) (exponent e : Int) : Int :=
  let n : Int := significand * 2 ^ (exponent - e).toNat
  if negative then -n else n

/-- The negation. -/
def neg : Double → Double
  | .nan => .nan
  | .infinite s => .infinite (!s)
  | .finite s m e h => .finite (!s) m e h

/-- The magnitude. -/
def abs : Double → Double
  | .nan => .nan
  | .infinite _ => .infinite false
  | .finite _ m e h => .finite false m e h

/-- The sum. An exact sum of zero is negative only where both terms are. -/
def add : Double → Double → Double
  | .nan, _ => .nan
  | _, .nan => .nan
  | .infinite s, .infinite t => if s = t then .infinite s else .nan
  | .infinite s, .finite .. => .infinite s
  | .finite .., .infinite t => .infinite t
  | .finite s m e _, .finite t n f _ =>
    let least := min e f
    let total := shifted s m e least + shifted t n f least
    if total = 0 then zeroOf (s && t) else ofScaled (total < 0) total.natAbs least

/-- The difference. -/
def sub (x y : Double) : Double := add x (neg y)

/-- The product. -/
def mul : Double → Double → Double
  | .nan, _ => .nan
  | _, .nan => .nan
  | .infinite s, .infinite t => .infinite (s != t)
  | .infinite s, .finite t n _ _ => if n = 0 then .nan else .infinite (s != t)
  | .finite s m _ _, .infinite t => if m = 0 then .nan else .infinite (s != t)
  | .finite s m e _, .finite t n f _ => ofScaled (s != t) (m * n) (e + f)

/-- The quotient. A finite number other than zero over zero is infinite. -/
def div : Double → Double → Double
  | .nan, _ => .nan
  | _, .nan => .nan
  | .infinite _, .infinite _ => .nan
  | .infinite s, .finite t .. => .infinite (s != t)
  | .finite s .., .infinite t => zeroOf (s != t)
  | .finite s m e _, .finite t n f _ =>
    if n = 0 then (if m = 0 then .nan else .infinite (s != t))
    else ofRatio (s != t) (m * 2 ^ (e - f).toNat) (n * 2 ^ (f - e).toNat)

instance : Add Double := ⟨add⟩
instance : Sub Double := ⟨sub⟩
instance : Mul Double := ⟨mul⟩
instance : Div Double := ⟨div⟩
instance : Neg Double := ⟨neg⟩

/-- Whether one number is less than another; what is not a number is comparable to nothing, and
the two zeros are equal. -/
def lt : Double → Double → Bool
  | .nan, _ => false
  | _, .nan => false
  | .infinite s, .infinite t => s && !t
  | .infinite s, .finite .. => s
  | .finite .., .infinite t => !t
  | .finite s m e _, .finite t n f _ =>
    let least := min e f
    decide (shifted s m e least < shifted t n f least)

/-- The first number unless the second is greater. -/
def maxOf (x y : Double) : Double := if lt x y then y else x

/-- The first number unless the second is less. -/
def minOf (x y : Double) : Double := if lt y x then y else x

/-- A finite number as a quotient of an integer and a power of two. -/
def fraction (negative : Bool) (significand : Nat) (exponent : Int) : Int × Nat :=
  let n : Int := significand * 2 ^ exponent.toNat
  (if negative then -n else n, 2 ^ (-exponent).toNat)

/-- An integer made from a finite number's exact value. -/
def toIntBy (round : Int → Nat → Int) : Double → Except Fault Int
  | .nan => .error .undefinedToInteger
  | .infinite _ => .error .infiniteToInteger
  | .finite s m e _ => let (n, d) := fraction s m e; .ok (round n d)

/-- The integer part, toward zero. -/
def truncate : Double → Except Fault Int := toIntBy fun n d => Int.tdiv n d

/-- The greatest integer that is not greater. -/
def floor : Double → Except Fault Int := toIntBy fun n d => Int.fdiv n d

/-- The nearest integer, a half going to the even one. -/
def roundEven : Double → Except Fault Int := toIntBy roundSignedQuotient

/-- The number as an integer, where it is one. -/
def toInt? : Double → Option Int
  | .finite s m e _ => let (n, d) := fraction s m e; if n % d = 0 then some (n / d) else none
  | _ => none

/-- A finite number moved by so many units in its last place, away from zero where these are
positive. -/
def moved (x : Double) (places : Int) : Double :=
  match x with
  | .finite s m e _ => build s (m + places).toNat e
  | x => x

end Double
end Ascent
