import Ascent.Save.Written

/-!
Overwriting members of a record in a state from outside. Ranges are not checked, so a patched state
need not be a legal one.

Main exports: `GameState.patch`.
-/

namespace Ascent

/-- Members with others laid over them. -/
def overwrite (members update : List (String × Json)) : List (String × Json) :=
  update.foldl (fun members (name, j) => Pairs.put members name j) members

/-- A record with members overwritten. -/
def patchRecord {α : Type} (shape : Shape α) (written : α → Json) (update : List (String × Json))
    (r : α) : Except Rejection α :=
  match written r with
  | .object members => (shape.accept (.object (overwrite members update)) 1 false).1
  | j => (shape.accept j 1 false).1

/-- A person with members overwritten; these count as set. -/
def Person.patch (update : List (String × Json)) (p : Person) : Except Rejection Person := do
  let changed ← patchRecord Person.shape Person.toJson update p
  return { changed with given := p.given }.giving (fieldsIn Person.keys update)

/-- The place in a list that a number means: from the end, if it is negative. -/
def placeOf? (n : Int) (size : Nat) : Option Nat :=
  let place := if n < 0 then n + size else n
  if 0 ≤ place && place < size then some place.toNat else none

/-- Records with the one at a place patched. -/
def patchAt {α : Type} (patch : α → Except Rejection α) (n : Int) (rs : List α) :
    Except Rejection (List α) :=
  match (placeOf? n rs.length).bind fun place => (rs[place]?).map fun r => (place, r) with
  | some (place, r) => do return rs.set place (← patch r)
  | none => .error (.fault .noRecord)

namespace GameState

/-- The state with the record at a place of one of its lists patched. -/
def patch (s : GameState) (list : String) (n : Int) (update : List (String × Json)) :
    Except Rejection GameState :=
  match Circle.all.find? (·.key == list) with
  | some circle => do
    let people := s.people circle
    return s.setPeople circle (← patchAt (Person.patch update) n people)
  | none =>
    if list = "inventory" then do
      let patch := patchRecord Item.shape Item.toJson update
      return { s with inventory := ← patchAt patch n s.inventory }
    else if list = "skills" then do
      let patch := patchRecord Skill.shape Skill.toJson update
      return { s with skills := ← patchAt patch n s.skills }
    else if list = "discovered_entities" then do
      let patch := patchRecord LoreEntry.shape LoreEntry.toJson update
      return { s with lore := ← patchAt patch n s.lore }
    else if list = "factions" then do
      let patch := patchRecord Faction.shape Faction.toJson update
      return { s with factions := ← patchAt patch n s.factions }
    else .ok s

end GameState
end Ascent
