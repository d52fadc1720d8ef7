import Ascent.Toml.Scalar

/-!
TOML documents: what their lines say, and the tables that they build.

Every table is opened by one heading at most, and keys with points in them do not reach into a table
that a heading has opened. Lists and tables that are written as values are closed for good.

Main exports: `Toml.parse`.
-/

namespace Ascent.Toml

/-! ### Tables under construction -/

/-- What stands under a key: a value, a table, or a list of tables, of which the last is the open
one. -/
inductive Node where
  | value (j : Json)
  | table (closed : Bool) (members : List (String × Node))
  | tables (earlier : List (List (String × Node))) (last : List (String × Node))

/-- What stands under the keys of a table. -/
abbrev Members := List (String × Node)

mutual

/-- The value that a node stands for. -/
def Node.toJson : Node → Json
  | .value j => j
  | .table _ members => .object (membersJson members)
  | .tables earlier last => .list (tablesJson earlier ++ [.object (membersJson last)])

/-- The values of the members of a table. -/
def membersJson : Members → List (String × Json)
  | [] => []
  | (key, node) :: rest => (key, node.toJson) :: membersJson rest

/-- The values of tables. -/
def tablesJson : List Members → List Json
  | [] => []
  | members :: rest => .object (membersJson members) :: tablesJson rest

end

/-- A table with what stands at the end of a path changed. Tables on the way are made where there
are none; those beyond the first `free` ones must not have been opened by a heading. -/
def alter (change : Option Node → Option Node) (free : Nat) : List String → Members → Option Members
  | [], _ => none
  | [key], members => do
    let node ← change (Pairs.get? members key)
    some (Pairs.put members key node)
  | key :: path, members => do
    let node ← match Pairs.get? members key with
      | none => do some (.table false (← alter change (free - 1) path []))
      | some (.table closed inner) =>
        if closed && free = 0 then none
        else do some (.table closed (← alter change (free - 1) path inner))
      | some (.tables earlier last) =>
        if free = 0 then none else do some (.tables earlier (← alter change (free - 1) path last))
      | some (.value _) => none
    some (Pairs.put members key node)

/-- A value put where nothing stands. -/
def place (j : Json) : Option Node → Option Node
  | none => some (.value j)
  | some _ => none

/-- A table opened by a heading, which is done once. -/
def openTable : Option Node → Option Node
  | none => some (.table true [])
  | some (.table false members) => some (.table true members)
  | some _ => none

/-- One more table opened in a list of tables. -/
def openItem : Option Node → Option Node
  | none => some (.tables [] [])
  | some (.tables earlier last) => some (.tables (earlier ++ [last]) [])
  | some _ => none

/-- A table that headings cannot open any more. -/
def close : Option Node → Option Node
  | some (.table _ members) => some (.table true members)
  | node => node

/-! ### Values -/

/-- Why a document cannot be read. -/
inductive Problem where
  | malformed
  | fault (f : Fault)
deriving DecidableEq, Repr

/-- What an optional reader finds; nothing is a mistake in the document. -/
def found {α : Type} : Option α → Except Problem α
  | some a => .ok a
  | none => .error .malformed

/-- The characters after a comment, if one stands at their head, up to the end of its line. -/
def skipComment : List Char → Except Problem (List Char)
  | '#' :: rest =>
    if (rest.takeWhile (· ≠ '\n')).any isIllegal then .error .malformed
    else .ok (rest.dropWhile (· ≠ '\n'))
  | cs => .ok cs

/-- The characters after blanks, line breaks and comments. -/
def skipSpaceWithin : Nat → List Char → Except Problem (List Char)
  | 0, cs => .ok cs
  | lines + 1, cs => do
    let rest := cs.dropWhile fun c => isGap c || c = '\n'
    match rest with
    | '#' :: _ => skipSpaceWithin lines (← skipComment rest)
    | _ => .ok rest

/-- The characters after blanks, line breaks and comments; of these there are no more than
characters. -/
def skipSpace (cs : List Char) : Except Problem (List Char) := skipSpaceWithin (cs.length + 1) cs

/-- A value that holds no others. -/
def readScalar (cs : List Char) : Except Problem (Json × List Char) :=
  let text (quote : Char) (rest : List Char) : Except Problem (Json × List Char) := do
    let (s, rest) ← found (readQuoted? quote rest)
    return (.str (String.ofList s), rest)
  match cs with
  | '"' :: rest => text '"' rest
  | '\'' :: rest => text '\'' rest
  | 't' :: 'r' :: 'u' :: 'e' :: rest => .ok (.bool true, rest)
  | 'f' :: 'a' :: 'l' :: 's' :: 'e' :: rest => .ok (.bool false, rest)
  | cs => match readMoment? cs with
    | some (moment, rest) => do return (← found moment, rest)
    | none => match readNumber? cs with
      | some (.ok j, rest) => .ok (j, rest)
      | some (.error f, _) => .error (.fault f)
      | none => .error .malformed

/-- How much room there is for values inside others. -/
def nestingRoom : Nat := 980

/-- How much of it a list takes. -/
def listRoom : Nat := 2

/-- How much of it a table takes. -/
def tableRoom : Nat := 3

/-- The room that is left inside a value. -/
def roomInside (room taken : Nat) : Except Problem Nat :=
  if room < taken then .error (.fault .nestedTooDeep) else .ok (room - taken)

mutual

/-- A value, with a budget of steps and room for nesting. -/
def readValue (steps room : Nat) (cs : List Char) : Except Problem (Json × List Char) :=
  match steps with
  | 0 => .error .malformed
  | steps + 1 => match cs with
    | '[' :: rest => do
      let room ← roomInside room listRoom
      let (items, rest) ← readItems steps room (← skipSpace rest)
      return (.list items, rest)
    | '\x7b' :: rest => match skipGap rest with
      | '\x7d' :: rest => .ok (.object [], rest)
      | rest => do
        let room ← roomInside room tableRoom
        let (members, rest) ← readPairs steps room [] rest
        return (.object (membersJson members), rest)
    | cs => readScalar cs

/-- The items of a list up to its closing bracket. -/
def readItems (steps room : Nat) (cs : List Char) : Except Problem (List Json × List Char) :=
  match steps with
  | 0 => .error .malformed
  | steps + 1 => match cs with
    | ']' :: rest => .ok ([], rest)
    | cs => do
      let (item, rest) ← readValue steps room cs
      match ← skipSpace rest with
      | ']' :: rest => return ([item], rest)
      | ',' :: rest =>
        let (items, rest) ← readItems steps room (← skipSpace rest)
        return (item :: items, rest)
      | _ => throw .malformed

/-- The pairs of a table on one line up to its closing brace, put into the table so far. -/
def readPairs (steps room : Nat) (members : Members) (cs : List Char) :
    Except Problem (Members × List Char) :=
  match steps with
  | 0 => .error .malformed
  | steps + 1 => do
    let ((key, j), rest) ← readPair steps room cs
    let members ← found (alter (place j) 0 key members)
    match skipGap rest with
    | '\x7d' :: rest => return (members, rest)
    | ',' :: rest => readPairs steps room members (skipGap rest)
    | _ => throw .malformed

/-- A key and its value. -/
def readPair (steps room : Nat) (cs : List Char) :
    Except Problem ((List String × Json) × List Char) :=
  match steps with
  | 0 => .error .malformed
  | steps + 1 => do
    let (key, rest) ← found (readKey? cs)
    let rest ← found (expect? '=' rest)
    let (j, rest) ← readValue steps room (skipGap rest)
    return ((key, j), rest)

end

/-! ### Lines -/

/-- What a line says. -/
inductive Statement where
  | table (path : List String)
  | item (path : List String)
  | pair (key : List String) (value : Json)

/-- A line that is not empty: a heading or a pair. -/
def readStatement (cs : List Char) : Except Problem (Statement × List Char) :=
  match cs with
  | '[' :: '[' :: rest => do
    let (path, rest) ← found (readKey? (skipGap rest))
    return (.item path, ← found (Text.dropStart? [']', ']'] rest))
  | '[' :: rest => do
    let (path, rest) ← found (readKey? (skipGap rest))
    return (.table path, ← found (expect? ']' rest))
  | cs => do
    let ((key, j), rest) ← readPair (4 * cs.length + 4) nestingRoom cs
    return (.pair key j, rest)

/-! ### Documents -/

/-- A document so far: its tables, the path of the last heading, and the tables that keys with
points have named since. -/
structure Draft where
  root : Members := []
  heading : List String := []
  dotted : List (List String) := []

namespace Draft

/-- The draft at a new heading: tables that were named by keys with points are closed. -/
def finishSection (d : Draft) : Except Problem Draft := do
  let root ← d.dotted.foldlM (fun root path => found (alter close path.length path root)) d.root
  return { d with root := root, dotted := [] }

/-- The proper beginnings of a key. -/
def stems (key : List String) : List (List String) :=
  (List.range (key.length - 1)).map fun i => key.take (i + 1)

/-- The draft with one more line. -/
def add (d : Draft) : Statement → Except Problem Draft
  | .table path => do
    let d ← d.finishSection
    return { d with root := ← found (alter openTable path.length path d.root), heading := path }
  | .item path => do
    let d ← d.finishSection
    return { d with root := ← found (alter openItem path.length path d.root), heading := path }
  | .pair key j => do
    let root ← found (alter (place j) d.heading.length (d.heading ++ key) d.root)
    return { d with root := root, dotted := d.dotted ++ (stems key).map (d.heading ++ ·) }

end Draft

/-- A draft with what the lines of a text say; there are at most `lines` of them. Each is taken in
before the next one is read. -/
def addLines : Nat → List Char → Draft → Except Problem Draft
  | 0, _, d => .ok d
  | lines + 1, cs, d => do
    let start := skipGap cs
    let (d, rest) ← match start with
      | [] | '\n' :: _ | '#' :: _ => pure (d, start)
      | _ => do
        let (statement, rest) ← readStatement start
        pure (← d.add statement, skipGap rest)
    match ← skipComment rest with
    | [] => return d
    | '\n' :: rest => addLines lines rest d
    | _ => throw .malformed

/-- The characters with every line break written as one character. -/
def plainLines : List Char → List Char
  | '\r' :: '\n' :: rest => '\n' :: plainLines rest
  | c :: rest => c :: plainLines rest
  | [] => []

/-- The tables that a document describes. -/
def parse (text : String) : Except Problem (List (String × Json)) := do
  let cs := plainLines text.toList
  let draft ← addLines (cs.length + 1) cs {}
  return membersJson draft.root

end Ascent.Toml
