import Ascent.Fault
import Ascent.Number.Double

/-!
What a run uses up: random draws and fresh identifiers.

Draws come from a list that starts over at its end. What a step has used stays used, also where the
step fails: a fault ends the step, not the account.

Main exports: `Supply`, `Play`, `draw`, `freshId`.
-/

namespace Ascent

/-- The draws with the number of those taken, and the number of the next fresh identifier. -/
structure Supply where
  draws : List Double := [0.5]
  taken : Nat := 0
  nextId : Nat := 1
deriving DecidableEq

/-- A step that may use up draws and identifiers, and may fail. -/
abbrev Play (α : Type) := ExceptT Fault (StateM Supply) α

namespace Supply

/-- The next draw, between 0 and 1. -/
def peek (s : Supply) : Double := (s.draws[s.taken % s.draws.length]?).getD 0.5

/-- The identifier with a number. -/
def identifier (n : Nat) : String := s!"id-{n}"

end Supply

namespace Play

variable {α : Type}

/-- The next draw. -/
def draw : Play Double := do
  let s ← get
  set { s with taken := s.taken + 1 }
  return s.peek

/-- The next fresh identifier. -/
def freshId : Play String := do
  let s ← get
  set { s with nextId := s.nextId + 1 }
  return Supply.identifier s.nextId

/-- A step that uses nothing. -/
def ofExcept (x : Except Fault α) : Play α := ExceptT.mk (pure x)

/-- The result of a step and what is left. -/
def outcome (x : Play α) (s : Supply) : Except Fault α × Supply := StateT.run (ExceptT.run x) s

end Play
end Ascent
