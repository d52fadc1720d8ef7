import Ascent.Save.Numeral
import Ascent.Text.Case

/-!
Shapes: what a structured value has to look like to stand for something, and everything that is
wrong with it if it does not.

A reader collects every problem of a record instead of stopping at the first. Numbers may be written
as texts and truths as words or as 0 and 1; a text must be a text. Records without an identifier are
given the next fresh one.

Main exports: `Reader`, `Shape`, `Problem`, `Shape.integer`, `Shape.list`, `Shape.record`.
-/

namespace Ascent

open scoped Power

/-- A step from a value to one inside it. -/
inductive Step where
  | member (name : String)
  | item (place : Nat)
deriving DecidableEq, Repr

/-- What is wrong with a value. -/
inductive ProblemKind where
  /-- A member that is needed is not there. -/
  | missing
  /-- The text is not a whole record. -/
  | malformed
  | notAText
  | notAList
  | notAnObject
  | notARecord
  /-- The value is none of the words that may stand here. -/
  | unknownWord
  | notAnInteger
  | unreadableInteger
  | fractionalInteger
  | infiniteInteger
  | oversizeInteger
  | notATruth
  | unreadableTruth
  | notANumber
  | unreadableNumber
  | belowRange
  | aboveRange
  /-- A member was rejected by the rule that prepares it. -/
  | rejected
deriving DecidableEq, Repr

/-- A problem and where it lies. -/
structure Problem where
  path : List Step
  kind : ProblemKind
deriving DecidableEq, Repr

/-- What reading keeps account of: the number of the next fresh identifier, the problems so far, the
latest first, and whether ranges are checked. -/
structure ReadState where
  nextId : Nat := 1
  problems : List Problem := []
  ranged : Bool := true
deriving Repr

/-- A reader gives a result, or none where it found a problem, or breaks off. -/
structure Reader (α : Type) where
  run : ReadState → Except Fault (Option α) × ReadState

namespace Reader

variable {α β : Type}

/-- A result that needs no reading. -/
def done (a : α) : Reader α := ⟨fun s => (.ok (some a), s)⟩

/-- Two readers one after the other; the second runs also where the first found a problem. -/
def both (f : Reader (α → β)) (x : Unit → Reader α) : Reader β := ⟨fun s =>
  match f.run s with
  | (.error e, s) => (.error e, s)
  | (.ok f?, s) => match (x ()).run s with
    | (.error e, s) => (.error e, s)
    | (.ok a?, s) => (.ok (f?.bind fun f => a?.map f), s)⟩

instance : Applicative Reader where
  pure := done
  seq := both

/-- No result, for the given reason. -/
def problem (path : List Step) (kind : ProblemKind) : Reader α :=
  ⟨fun s => (.ok none, { s with problems := ⟨path, kind⟩ :: s.problems })⟩

/-- Breaking off. -/
def fault (e : Fault) : Reader α := ⟨fun s => (.error e, s)⟩

/-- The identifier with a number. -/
def identifier (n : Nat) : String := s!"id-{n}"

/-- The next fresh identifier. -/
def freshId : Reader String :=
  ⟨fun s => (.ok (some (identifier s.nextId)), { s with nextId := s.nextId + 1 })⟩

/-- A result where a condition holds or ranges are not checked, a problem otherwise. -/
def require (path : List Step) (kind : ProblemKind) (holds : Bool) (a : α) : Reader α := ⟨fun s =>
  if holds || !s.ranged then (.ok (some a), s)
  else (.ok none, { s with problems := ⟨path, kind⟩ :: s.problems })⟩

end Reader

/-- How a value of a kind is read at a place. -/
abbrev Shape (α : Type) := List Step → Json → Reader α

namespace Shape

variable {α : Type}

/-- A text. -/
def text : Shape String
  | _, .str s => pure s
  | path, _ => .problem path .notAText

/-- The integer that a text stands for, or what is wrong with it. -/
def integerOfText (s : String) : Except ProblemKind Int :=
  (Numeral.readInteger s).mapError fun
    | .unreadable => .unreadableInteger
    | .oversize => .oversizeInteger

/-- The integer that a binary64 number is, within the 64-bit integers. -/
def integerOfDouble (x : Double) : Except ProblemKind Int :=
  if !x.isFinite then .error .infiniteInteger
  else match x.toInt? with
    | none => .error .fractionalInteger
    | some n => if n.natAbs < 2 ^ (63 : Nat) then .ok n else .error .oversizeInteger

/-- The integer that a value stands for, or what is wrong with it. -/
def integerOf : Json → Except ProblemKind Int
  | .int n => .ok n
  | .bool b => .ok (if b then 1 else 0)
  | .real x => integerOfDouble x
  | .str s => integerOfText s
  | _ => .error .notAnInteger

/-- The truth that an integer stands for. -/
def truthOfInt (n : Int) : Except ProblemKind Bool :=
  if n = 0 then .ok false else if n = 1 then .ok true else .error .unreadableTruth

/-- The truth that a value stands for, or what is wrong with it. -/
def truthOf : Json → Except ProblemKind Bool
  | .bool b => .ok b
  | .int n => if -(2 ^ (63 : Nat)) ≤ n ∧ n < 2 ^ (63 : Nat) then truthOfInt n else .error .notATruth
  | .real x => match integerOfDouble x with
    | .ok n => truthOfInt n
    | .error _ => .error .notATruth
  | .str s =>
    let word := s.toList.map Char.toLower |> String.ofList
    if ["1", "on", "t", "true", "y", "yes"].contains word then .ok true
    else if ["0", "off", "f", "false", "n", "no"].contains word then .ok false
    else .error .unreadableTruth
  | _ => .error .notATruth

/-- The number that a value stands for, or what is wrong with it. Integers beyond the finite numbers
are infinite. -/
def numberOf : Json → Except ProblemKind Double
  | .real x => .ok x
  | .int n => .ok (.ofInt n)
  | .bool b => .ok (if b then 1 else 0)
  | .str s => match Numeral.readNumber? s with
    | some x => .ok x
    | none => .error .unreadableNumber
  | _ => .error .notANumber

/-- The shape of what can be read or has one problem. -/
def ofRule (rule : Json → Except ProblemKind α) : Shape α := fun path j =>
  match rule j with
  | .ok a => pure a
  | .error kind => .problem path kind

/-- An integer. -/
def integer : Shape Int := ofRule integerOf

/-- A truth. -/
def truth : Shape Bool := ofRule truthOf

/-- A binary64 number. -/
def number : Shape Double := ofRule numberOf

/-- An integer within bounds, either of which may be missing. -/
def integerWithin (low high : Option Int) : Shape Int := fun path j =>
  match integerOf j with
  | .error kind => .problem path kind
  | .ok n =>
    if low.any (n < ·) then .require path .belowRange false n
    else .require path .aboveRange (!high.any (· < n)) n

/-- One of several words. -/
def word (words : List (String × α)) : Shape α := fun path j =>
  match j with
  | .str s => match words.lookup s with
    | some a => pure a
    | none => .problem path .unknownWord
  | _ => .problem path .unknownWord

/-- A value that may be absent. -/
def optional (shape : Shape α) : Shape (Option α) := fun path j =>
  match j with
  | .null => pure none
  | j => some <$> shape path j

/-- The items of a list from a place on. -/
def readItems (shape : Shape α) (path : List Step) (place : Nat) : List Json → Reader (List α)
  | [] => pure []
  | j :: rest =>
    (· :: ·) <$> shape (path ++ [.item place]) j <*> readItems shape path (place + 1) rest

/-- A list. -/
def list (shape : Shape α) : Shape (List α) := fun path j =>
  match j with
  | .list items => readItems shape path 0 items
  | _ => .problem path .notAList

/-- The values under names. -/
def readPairs (shape : Shape α) (path : List Step) : List (String × Json) → Reader (Pairs α)
  | [] => pure []
  | (name, j) :: rest =>
    (fun a rest => (name, a) :: rest) <$> shape (path ++ [.member name]) j
      <*> readPairs shape path rest

/-- Named values. All are looked at, of several with one name the last counts. -/
def pairs (shape : Shape α) : Shape (Pairs α) := fun path j =>
  match j with
  | .object members => Pairs.ofList <$> readPairs shape path members
  | _ => .problem path .notAnObject

/-- The members of a record, and where it lies. -/
structure Members where
  path : List Step
  members : List (String × Json)

/-- A record, read from its members. -/
def record (read : Members → Reader α) : Shape α := fun path j =>
  match j with
  | .object members => read ⟨path, members⟩
  | _ => .problem path .notARecord

namespace Members

/-- A member, the last of its name, or else what another reader gives. -/
def orElse (ms : Members) (name : String) (shape : Shape α) (absent : Reader α) : Reader α :=
  match Pairs.last? ms.members name with
  | some j => shape (ms.path ++ [.member name]) j
  | none => absent

/-- A member that must be there. -/
def required (ms : Members) (name : String) (shape : Shape α) : Reader α :=
  ms.orElse name shape (.problem (ms.path ++ [.member name]) .missing)

/-- A member with a default. -/
def default (ms : Members) (name : String) (shape : Shape α) (value : α) : Reader α :=
  ms.orElse name shape (pure value)

/-- A text that is empty by default. -/
def text (ms : Members) (name : String) : Reader String := ms.default name Shape.text ""

/-- A text that may be absent. -/
def text? (ms : Members) (name : String) : Reader (Option String) :=
  ms.default name (optional Shape.text) none

/-- An integer with a default. -/
def integer (ms : Members) (name : String) (value : Int) : Reader Int :=
  ms.default name Shape.integer value

/-- An integer that may be absent. -/
def integer? (ms : Members) (name : String) : Reader (Option Int) :=
  ms.default name (optional Shape.integer) none

/-- An integer within bounds. -/
def within (ms : Members) (name : String) (low high : Int) (value : Int) : Reader Int :=
  ms.default name (integerWithin (some low) (some high)) value

/-- A truth with a default. -/
def truth (ms : Members) (name : String) (value : Bool) : Reader Bool :=
  ms.default name Shape.truth value

/-- A list that is empty by default. -/
def list (ms : Members) (name : String) (shape : Shape α) : Reader (List α) :=
  ms.default name (Shape.list shape) []

end Members
end Shape
end Ascent
