import Ascent.GameState
import Ascent.Ladder
import Ascent.Loose

/-!
Records by name: looking them up, replacing and removing them, and merging duplicates.

A narrator's name for a record is trimmed and loses a qualifier behind a dash; it means the first
record whose name is equal to what is left, case aside.

Main exports: `sanitizeName`, `Named`, `findNamed?`, `mergePeople`, `mergeRecords`.
-/

namespace Ascent

open Text

/-- A qualifier at the head of the characters: a dash between blanks, and the rest of the text, if
that is one line. -/
def qualifier : Pattern Unit := fun cs =>
  let gap := cs.takeWhile isBlank
  match cs.dropWhile isBlank with
  | [] => none
  | c :: rest =>
    let after := rest.takeWhile isBlank
    let line := rest.dropWhile isBlank
    if Ladder.isDash c && !gap.isEmpty && !after.isEmpty && !line.contains '\n' then
      some ((), cs.length)
    else none

/-- The characters of a name without the blanks around it and without its qualifier. -/
def sanitizeChars (name : List Char) : List Char := trimChars (qualifier.before (trimChars name))

/-- A name without the blanks around it and without its qualifier: `Elder Mo - the treasurer` is
`Elder Mo`. -/
def sanitizeName (name : String) : String := String.ofList (sanitizeChars name.toList)

/-- Records that go by a name. -/
class Named (α : Type) where
  name : α → String

export Named (name)

instance : Named Person := ⟨Person.name⟩
instance : Named Item := ⟨Item.name⟩
instance : Named Skill := ⟨Skill.name⟩
instance : Named LoreEntry := ⟨LoreEntry.name⟩
instance : Named Faction := ⟨Faction.name⟩
instance : Named StatusEffect := ⟨StatusEffect.name⟩

section

variable {α : Type} [Named α]

/-- Whether a record goes by a folded name. -/
def goesBy (key : String) (r : α) : Bool := fold (name r) == key

/-- The place of the first record that a narrator's name means. -/
def findPlace? (records : List α) (called : String) : Option Nat :=
  let key := fold (sanitizeName called)
  if key = "" then none else records.findIdx? (goesBy key)

/-- The first record that a narrator's name means, with its place. -/
def findNamed? (records : List α) (called : String) : Option (Nat × α) := do
  let i ← findPlace? records called
  let r ← records[i]?
  some (i, r)

/-- Whether a narrator's name means one of the records. -/
def hasNamed (records : List α) (called : String) : Bool := (findPlace? records called).isSome

end

/-! ### Merging duplicates -/

section

variable {α : Type}

/-- The records with another one merged in: laid over the one with the same key, or put at the
end. -/
def mergeInto (key : α → String) (overlay : α → α → α) (r : α) : List α → List α
  | [] => [r]
  | first :: rest =>
    if key first = key r then overlay first r :: rest
    else first :: mergeInto key overlay r rest

/-- The records with one record for each key, later ones laid over the first. -/
def mergeBy (key : α → String) (overlay : α → α → α) (records : List α) : List α :=
  records.foldl (fun merged r => mergeInto key overlay r merged) []

/-- A record with the listed fields taken from another one. -/
def takeAll {F : Type} (take : F → α → α → α) (fields : List F) (source target : α) : α :=
  fields.foldl (fun target f => take f source target) target

end

namespace Person

/-- The fields that a merge takes from a later record: those set there, but not who it is. -/
def mergedFields (later : Person) : List PersonField :=
  later.given.filter fun f => f ≠ .id ∧ f ≠ .name

/-- A later record of one person laid over an earlier one. -/
def overlay (earlier later : Person) : Person :=
  (takeAll take later.mergedFields later earlier).giving later.mergedFields

end Person

/-- People with one record for each name, case aside. -/
def mergePeople (people : List Person) : List Person :=
  mergeBy (fun p => fold p.name) Person.overlay people

/-- Records of another kind with the fields set in each, merged: the name is never taken over. -/
def mergeRecords {α F : Type} [Named α] [DecidableEq F] (nameField : F) (take : F → α → α → α)
    (records : List (α × List F)) : List (α × List F) :=
  mergeBy (fun (r, _) => fold (name r))
    (fun (earlier, given) (later, fields) =>
      let fields := fields.filter (· ≠ nameField)
      (takeAll take fields later earlier, given ++ fields)) records

/-! ### Writing about records -/

/-- A text for the knowledge index: a heading and what else there is to say. -/
def describe (heading : String) (parts : List String) : String :=
  joinWith ". " (heading :: parts.filter (· ≠ ""))

/-- A part of such a text, where there is something to say. -/
def labelled (label value : String) : String := if value = "" then "" else label ++ ": " ++ value

/-- A document for the knowledge index under an identifier made from the name. -/
def indexByName (kind called content : String) : IndexUpdate := ⟨Loose.slug called, kind, content⟩

end Ascent
