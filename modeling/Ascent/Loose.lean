import Ascent.Json
import Ascent.Text.Case

/-!
Loosely typed arguments: numbers, truths and lists as a narrator writes them.

Nothing here refuses a text: an argument that cannot be read is read as nothing, and the caller
falls back to a default.

Main exports: `Loose.number?`, `Loose.integer?`, `Loose.numberOr`, `Loose.integerOr`,
`Loose.truth?`, `Loose.parts`, `Loose.dedupe`, `Loose.slug`.
-/

namespace Ascent.Loose

/-- The finite number that a text stands for. -/
def numberOfText? (s : String) : Option Double :=
  match Double.ofNumeral? s with
  | some x => if x.isFinite then some x else none
  | none => none

theorem isFinite_of_numberOfText? {s : String} {x : Double} (read : numberOfText? s = some x) :
    x.isFinite := by
  unfold numberOfText? at read
  split at read
  · split at read
    · next finite => exact Option.some.inj read ▸ finite
    · cases read
  · cases read

/-- The integer part of the finite number that a text stands for. -/
def integerOfText? (s : String) : Option Int :=
  (numberOfText? s).bind fun x => x.truncate.toOption

/-- The words for true and for false. -/
def truthWords : List String × List String :=
  (["true", "yes", "1", "on"], ["false", "no", "0", "off"])

/-- The truth that a text stands for, blanks and case aside. -/
def truthOfText? (s : String) : Option Bool :=
  let word := Text.lower (Text.trim s)
  if truthWords.1.contains word then some true
  else if truthWords.2.contains word then some false
  else none

/-- The number that a value stands for. A written number is taken as it is, finite or not; an
integer must not lie beyond the finite numbers. -/
def number? : Json → Except Fault (Option Double)
  | .int n => (Double.ofInt? n).map some
  | .real x => .ok (some x)
  | .str s => .ok (numberOfText? s)
  | _ => .ok none

/-- The integer part of the number that a value stands for. -/
def integer? (j : Json) : Except Fault (Option Int) := do
  match ← number? j with
  | some x => return some (← x.truncate)
  | none => return none

/-- The number that a value stands for, or else the default. -/
def numberOr (default j : Json) : Except Fault Json := do
  return (← number? j).elim default .real

/-- The integer part of the number that a value stands for, or else the default. -/
def integerOr (default j : Json) : Except Fault Json := do
  return (← integer? j).elim default .int

/-- The truth that a value stands for. -/
def truth? : Json → Option Bool
  | .bool b => some b
  | .str s => truthOfText? s
  | _ => none

/-- Whether a character parts the items of a written list. -/
def isListMark (c : Char) : Bool := c = ',' || c = ';' || c = '|'

/-- The trimmed items of a written list; empty ones are left out. -/
def partsOfText (s : String) : List String :=
  ((Text.splitWhere isListMark s.toList).map fun cs => String.ofList (Text.trimChars cs)).filter
    (· ≠ "")

/-- The trimmed items of a value that stands for a list; empty ones are left out. -/
def parts : Json → List String
  | .null => []
  | .list items => (items.map fun j => Text.trim j.text).filter (· ≠ "")
  | j => partsOfText j.text

/-- The texts that do not repeat an earlier one in another case; `seen` holds the folded forms of
those before them. -/
def dedupeAfter (seen : List String) : List String → List String
  | [] => []
  | s :: rest =>
    if seen.contains (Text.fold s) then dedupeAfter seen rest
    else s :: dedupeAfter (Text.fold s :: seen) rest

/-- The texts without those that repeat an earlier one, case aside. -/
def dedupe (texts : List String) : List String := dedupeAfter [] texts

/-- Characters with every run of other than word characters replaced by one underscore; `inside`
tells whether such a run has begun. -/
def slugChars (inside : Bool) : List Char → List Char
  | [] => []
  | c :: rest =>
    if Text.isWord c then c :: slugChars false rest
    else if inside then slugChars true rest
    else '_' :: slugChars true rest

/-- The identifier made from a name: its word characters in lower case, joined by underscores. -/
def slug (name : String) : String :=
  let cs := slugChars false (Text.lower (Text.trim name)).toList
  let core := Text.trimWhere (· = '_') cs
  if core.isEmpty then "entity" else String.ofList core

end Ascent.Loose
