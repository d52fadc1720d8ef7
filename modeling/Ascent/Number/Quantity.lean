import Ascent.Number.Double

/-!
Quantities: exact integers and binary64 numbers side by side.

Among themselves integers are added and multiplied exactly. Where a quantity of each kind meets the
other, the integer becomes the binary64 number nearest to it. An integer beyond the finite numbers
cannot, and what is computed with it is beyond all numbers. A quotient is always a binary64 number.

Main exports: `Quantity`, `Quantity.toDouble`, `Reckoning`.
-/

namespace Ascent

/-- What a formula is reckoned in. -/
class Reckoning (α : Type) extends Add α, Sub α, Mul α, Div α where
  /-- The number that an integer is. -/
  ofInt : Int → α
  /-- The first number unless the second is greater. -/
  maxOf : α → α → α

instance : Reckoning Double := ⟨Double.ofInt, Double.maxOf⟩

/-- An exact integer, a binary64 number, or what is beyond all numbers. -/
inductive Quantity where
  | whole (n : Int)
  | real (x : Double)
  | beyond
deriving DecidableEq

namespace Quantity

/-- The quantity as a binary64 number. -/
def toDouble : Quantity → Except Fault Double
  | .whole n => Double.ofInt? n
  | .real x => .ok x
  | .beyond => .error .beyondFinite

/-- The quantity of a number, if there is one. -/
def ofResult : Except Fault Double → Quantity
  | .ok x => .real x
  | .error _ => .beyond

/-- An operation on two quantities: exact on integers, rounded where one is no integer. -/
def combine (exact : Int → Int → Quantity) (rounded : Double → Double → Double)
    (x y : Quantity) : Quantity :=
  match x, y with
  | .whole n, .whole m => exact n m
  | x, y => match x.toDouble, y.toDouble with
    | .ok a, .ok b => .real (rounded a b)
    | _, _ => .beyond

/-- The quotient of integers, rounded once. -/
def quotient (n m : Int) : Quantity :=
  ofResult (Double.quotient? (if m < 0 then -n else n) m.natAbs)

/-- Whether an integer is less than a number. -/
def intLess (n : Int) : Double → Bool
  | .nan => false
  | .infinite negative => !negative
  | .finite s m e _ => let (a, b) := Double.fraction s m e; decide (n * b < a)

/-- Whether a number is less than an integer. -/
def lessInt (x : Double) (n : Int) : Bool :=
  match x with
  | .nan => false
  | .infinite negative => negative
  | .finite s m e _ => let (a, b) := Double.fraction s m e; decide (a < n * b)

/-- Whether one quantity is less than another, by their exact values. -/
def less : Quantity → Quantity → Bool
  | .whole n, .whole m => decide (n < m)
  | .whole n, .real x => intLess n x
  | .real x, .whole n => lessInt x n
  | .real x, .real y => Double.lt x y
  | _, _ => false

/-- The first quantity unless the second is greater. -/
def maxOf (x y : Quantity) : Quantity :=
  if x = .beyond || y = .beyond then .beyond else if less x y then y else x

instance : Reckoning Quantity where
  add := combine (fun n m => .whole (n + m)) (· + ·)
  sub := combine (fun n m => .whole (n - m)) (· - ·)
  mul := combine (fun n m => .whole (n * m)) (· * ·)
  div := combine quotient (· / ·)
  ofInt := .whole
  maxOf := maxOf

end Quantity
end Ascent
