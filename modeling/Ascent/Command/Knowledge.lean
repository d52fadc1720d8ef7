import Ascent.Command.Effect

/-!
Commands about what is known of the world: factions, places, lore, and whatever else is defined.

Main exports: `updateFaction`, `discoverPlace`, `discoverLore`, `defineEntity`.
-/

namespace Ascent

/-- Lore with the fields of an entry set, or the entry added. -/
def upsertLore (entries : List LoreEntry) (called : String)
    (fields : List (LoreField × FieldValue)) : List LoreEntry × LoreEntry :=
  match findNamed? entries (sanitizeName called) with
  | some (place, known) =>
    let merged := known.putAll fields
    (entries.set place merged, merged)
  | none =>
    let created := ({ name := sanitizeName called : LoreEntry }).putAll fields
    (entries ++ [created], created)

/-- Factions with the fields of one set, or the faction added. -/
def upsertFaction (factions : List Faction) (called : String)
    (fields : List (FactionField × FieldValue)) : List Faction × Faction :=
  match findNamed? factions (sanitizeName called) with
  | some (place, known) =>
    let merged := known.putAll fields
    (factions.set place merged, merged)
  | none =>
    let created := ({ name := sanitizeName called : Faction }).putAll fields
    (factions ++ [created], created)

/-- What the knowledge index holds about an entry. -/
def LoreEntry.indexContent (e : LoreEntry) : String :=
  describe s!"{Text.title e.entityType}: {e.name}" [e.description, labelled "Category" e.category]

/-- Something becomes known about a faction. -/
def updateFaction (state : GameState) (params : Params) : Effect :=
  let fields := pickFields factionKeys FactionField.kind params
  let (factions, faction) := upsertFaction state.factions (params.required "name") fields
  let content := describe s!"Faction: {faction.name}"
    [faction.description, labelled "Category" faction.category]
  { state := { state with factions := factions }
    updates := [indexByName "faction" faction.name content] }

/-- A place is discovered, and the player is there. -/
def discoverPlace (state : GameState) (params : Params) : Effect :=
  let fields := putField .entityType (.text "location") (pickFields loreKeys LoreField.kind params)
  let (entries, entry) := upsertLore state.lore (params.required "name") fields
  { state := { state with lore := entries, location := entry.name }
    updates := [indexByName "location" entry.name entry.indexContent] }

/-- Lore is discovered, at the player's place unless another one is given. -/
def discoverLore (state : GameState) (params : Params) : Effect :=
  let picked := putField .entityType (.text "lore") (pickFields loreKeys LoreField.kind params)
  let fields := if (fieldValue? picked .location).isNone && state.location ≠ "" then
      putField .location (.text state.location) picked
    else picked
  let (entries, entry) := upsertLore state.lore (params.required "name") fields
  { state := { state with lore := entries }
    updates := [indexByName "lore" entry.name entry.indexContent] }

/-- Something is defined that was mentioned before. A kind that is none of the known ones becomes
lore. -/
def defineEntity (state : GameState) (params : Params) : Effect :=
  let picked := pickFields loreKeys LoreField.kind params
  let written := (params.value? "type").getD ""
  let kind := Text.lower (Text.trim written)
  let fields := if written = "" then picked
    else putField .entityType (.text (if entityTypes.contains kind then kind else "lore")) picked
  let (entries, entry) := upsertLore state.lore (params.required "name") fields
  { state := { state with lore := entries }
    updates := [indexByName "entity_definition" entry.name entry.indexContent] }

end Ascent
