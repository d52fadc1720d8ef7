/-!
What is known about the world: places, lore and factions.

Main exports: `LoreEntry`, `Faction` and their fields.
-/

namespace Ascent

/-- A place, a fragment of lore or anything else that was defined. -/
structure LoreEntry where
  name : String
  entityType : String := "lore"
  description : String := ""
  category : String := ""
  tags : List String := []
  location : String := ""
deriving DecidableEq, Repr

/-- The fields of a lore entry. -/
inductive LoreField where
  | name
  | entityType
  | description
  | category
  | tags
  | location
deriving DecidableEq, Repr

/-- An entry with one field taken from another one. -/
def LoreEntry.take (f : LoreField) (source target : LoreEntry) : LoreEntry :=
  match f with
  | .name => { target with name := source.name }
  | .entityType => { target with entityType := source.entityType }
  | .description => { target with description := source.description }
  | .category => { target with category := source.category }
  | .tags => { target with tags := source.tags }
  | .location => { target with location := source.location }

/-- The kinds of thing that can be defined. -/
def entityTypes : List String := ["npc", "item", "location", "faction", "lore"]

/-- A faction. -/
structure Faction where
  name : String
  description : String := ""
  category : String := ""
  tags : List String := []
deriving DecidableEq, Repr

/-- The fields of a faction. -/
inductive FactionField where
  | name
  | description
  | category
  | tags
deriving DecidableEq, Repr

/-- A faction with one field taken from another one. -/
def Faction.take (f : FactionField) (source target : Faction) : Faction :=
  match f with
  | .name => { target with name := source.name }
  | .description => { target with description := source.description }
  | .category => { target with category := source.category }
  | .tags => { target with tags := source.tags }

end Ascent
