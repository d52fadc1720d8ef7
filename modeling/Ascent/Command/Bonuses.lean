import Ascent.Command.Params
import Ascent.Modifier
import Ascent.StatBlock
import Ascent.Text.Numeral

/-!
The modifiers of attributes that a command brings along, and the bounds they are put under.

Modifiers come one by one, under keys such as `bonus.offense`, or packed into one argument, as in
`offense: 5, hp: 10%`. A percentage is kept within bounds of its own, a flat amount within what the
player has by nature.

Main exports: `collectModifiers`, `boundModifiers`, `boundedModifiers`.
-/

namespace Ascent

open Text

/-- A stat and its modifier inside a packed argument, `offense: 5` or `hp = 10%`. -/
def packedModifier : Pattern (String × String) := fun cs =>
  let called := cs.takeWhile fun c => isWord c || c = ' '
  match (cs.drop called.length).dropWhile isBlank with
  | [] => none
  | mark :: rest =>
    let written := rest.dropWhile isBlank
    match signedNumeral written with
    | none => none
    | some (numeral, size) =>
      let percent := (written.drop size).takeWhile (· = '%') |>.take 1
      let left := written.length - size - percent.length
      if called.isEmpty || !(mark = ':' || mark = '=') then none
      else some ((String.ofList (trimChars called), String.ofList (numeral ++ percent)),
        cs.length - left)

/-- What follows a head in a key, where the key begins with it in any case. -/
def dropHead? (key head : String) : Option String :=
  if head.toList.isPrefixOf (lower key).toList then
    some (String.ofList (key.toList.drop head.length))
  else none

/-- The modifiers with those of one more argument. -/
def collectModifier (heads : List String) (packed : String) (found : Pairs (Option String))
    (arg : String × Option String) : Except Fault (Pairs (Option String)) :=
  let named := (heads.filterMap (dropHead? arg.1)).foldl (fun found stat => found.put stat arg.2)
    found
  if compactKey arg.1 = packed then
    match arg.2 with
    | none => .error .notText
    | some text =>
      .ok ((packedModifier.findAll text.toList).foldl (fun found (stat, m) => found.put stat m)
        named)
  else .ok named

/-- The modifiers among the arguments of a command: those under keys with one of the heads, and
those in the packed argument. -/
def collectModifiers (params : Params) (heads : List String) (packed : String) :
    Except Fault (Pairs (Option String)) := params.foldlM (collectModifier heads packed) []

/-- The least and the greatest fraction of an attribute that a modifier may add. -/
def fractionBounds : Double × Double := (-0.9, 1)

/-- A count of hundredths as a numeral without trailing zeros. -/
def hundredthsText (negative : Bool) (hundredths : Nat) : String :=
  let part := hundredths % 100
  let tail :=
    if part = 0 then ""
    else if part % 10 = 0 then s!".{part / 10}"
    else if part < 10 then s!".0{part}"
    else s!".{part}"
  (if negative then "-" else "") ++ toString (hundredths / 100) ++ tail

/-- A fraction as a percentage with at most two decimals; halves go to the even one. -/
def percentText (fraction : Double) : String :=
  match fraction * 100 with
  | .finite negative significand exponent _ =>
    let (num, den) := Double.fraction false significand exponent
    hundredthsText negative (roundQuotient (num.natAbs * 100) den) ++ "%"
  | _ => "0%"

/-- An amount toward zero, but no further from it than a limit. -/
def boundFlat (limit : Int) (amount : Double) : Int :=
  match amount.truncate with
  | .ok n => max (-limit) (min limit n)
  | .error _ => if Double.lt amount 0 then -limit else limit

/-- A modifier put under its bound and written; flat amounts are bounded by a limit. -/
def Modifier.boundedText (m : Modifier) (limit : Int) : String :=
  if m.percent then
    percentText (Double.maxOf fractionBounds.1 (Double.minOf fractionBounds.2 m.amount))
  else toString (boundFlat limit m.amount)

/-- Modifiers under the names of the attributes and put under their bounds; what names no attribute
or could not be read is dropped. Flat amounts go no further than the player's own base value. -/
def boundModifiers (raw : Pairs (Option Modifier)) (player : StatBlock) : Pairs String :=
  raw.foldl (fun kept (stat, m) =>
    match Attribute.ofName? stat, m with
    | some a, some m => kept.put a.key (m.boundedText (max 1 (player.base.get a)))
    | _, _ => kept) []

/-- The modifiers among the arguments of a command, put under their bounds. -/
def boundedModifiers (params : Params) (heads : List String) (packed : String)
    (player : StatBlock) : Except Fault (Pairs String) := do
  let raw ← collectModifiers params heads packed
  return boundModifiers (raw.map fun (stat, text) => (stat, text.bind Modifier.ofText?)) player

end Ascent
