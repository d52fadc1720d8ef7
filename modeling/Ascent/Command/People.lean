import Ascent.Affinity
import Ascent.Archetype
import Ascent.Command.Effect
import Ascent.Located

/-!
Commands about people: meeting them, what they think, remember and feel, and who comes along.

A person who is mentioned before an introduction is introduced with a name alone. Stats are
generated anew with every introduction; other commands leave them alone.

Main exports: `meetPerson`, `updatePerson`, `remember`, `feel`, `joinCompanion`, `leaveCompanion`.
-/

namespace Ascent

namespace Person

/-- What the knowledge index holds about a person. -/
def indexContent (p : Person) : String :=
  describe p.name
    [p.description, labelled "Tier" (p.tier.getD ""), labelled "Personality" p.personality,
     labelled "Thoughts on player" p.thoughtsOnPlayer, labelled "Location" p.location]

/-- The document for the knowledge index about a person. -/
def indexUpdate (p : Person) (kind : String) : IndexUpdate :=
  ⟨if p.id = "" then Loose.slug p.name else p.id, kind, p.indexContent⟩

/-- A person of whom only the name and the given fields are known. -/
def introduce (called : String) (fields : List (PersonField × FieldValue)) : Play Person := do
  let id ← Play.freshId
  return { id := id, name := called : Person }.giving [.name] |>.putAll fields

/-- The tier that a person is taken to have: the person's own, the stats' or the player's. -/
def assumedTier (p : Person) (state : GameState) : String :=
  let own := p.tier.getD ""
  let held := (p.stats.map (·.tier)).getD ""
  if own ≠ "" then own else if held ≠ "" then held else state.player.tier

/-- A person with stats generated from tier, tags and archetype, where stats are kept at all. -/
def refreshStats (p : Person) (state : GameState) : Play Person :=
  if !state.settings.enableStats then return p
  else do
    let assumed := p.assumedTier state
    let tier :=
      if state.settings.isMortal assumed then assumed
      else
        let rung := state.settings.resolve assumed
        state.settings.label rung.major rung.minor
    let archetype := Archetype.choose p.tags (p.archetype.getD "")
    let stats ← generateStats state.player tier state.settings archetype
    return { p with stats := some stats, tier := some tier }.giving [.stats, .tier]

/-- A person after a change of affinity. -/
def moveAffinityTo (p : Person) (start : Int) (asked : Option String) : Person :=
  { p with affinity := moveAffinity start (asked.bind AffinityChange.ofText?) }.giving [.affinity]

end Person

namespace GameState

/-- The person of a name, introduced now if there is none. -/
def ensurePerson (state : GameState) (called : String) : Play (GameState × Located) := do
  match state.locate? called with
  | some found => return (state, found)
  | none =>
    let person ← (← Person.introduce (sanitizeName called) []).refreshStats state
    let people := state.cast.encountered
    return (state.setPeople .encountered (people ++ [person]),
      ⟨.encountered, people.length, person⟩)

end GameState

/-- The people of a circle with the fields of one person set, or the person introduced; and whether
the person is new. -/
def upsertPerson (people : List Person) (called : String)
    (fields : List (PersonField × FieldValue)) : Play (List Person × Person × Bool) := do
  match findNamed? people (sanitizeName called) with
  | some (place, known) =>
    let merged := known.putAll fields
    return (people.set place merged, merged, false)
  | none =>
    let created ← Person.introduce (sanitizeName called) fields
    return (people ++ [created], created, true)

/-- A person introduced in a circle, or met there again; `seed` is a record to start from where the
circle has none. -/
def introduceIn (state : GameState) (params : Params) (circle : Circle) (seed : Option Person) :
    Play (GameState × Person) := do
  let fields := pickFields personKeys PersonField.kind params
  let written := ((fieldValue? fields .name).map (·.asText)).getD ""
  let called := if written = "" then sanitizeName ((params.value? "name").getD "") else written
  let people := match seed with
    | some seed => if hasNamed (state.people circle) called then state.people circle
        else state.people circle ++ [seed]
    | none => state.people circle
  let (people, met, created) ← upsertPerson people called fields
  let liked := if params.has "affinity" then
      met.moveAffinityTo (if created then 0 else met.affinity) (params.value? "affinity")
    else met
  let person ← liked.refreshStats state
  let people := people.map fun p => if p.name = person.name then person else p
  return (state.setPeople circle people, person)

/-- Somebody is met. -/
def meetPerson (state : GameState) (params : Params) : Play Effect := do
  let (state, person) ← introduceIn state params .encountered none
  return { state := state, updates := [person.indexUpdate "npc"] }

/-- Something changes about somebody. -/
def updatePerson (state : GameState) (params : Params) : Play Effect := do
  let (state, found) ← state.ensurePerson (params.required "name")
  let changed := found.person.putAll (pickFields personUpdateKeys PersonField.kind params)
  let person := if params.has "affinity" then
      changed.moveAffinityTo changed.affinity (params.value? "affinity")
    else changed
  return { state := state.store found person, updates := [person.indexUpdate "npc"] }

/-- What a written value is remembered as: a truth, a number or the text itself. -/
def Flag.ofText (raw : String) : Flag :=
  match Loose.truthOfText? raw with
  | some b => .truth b
  | none => match Loose.numberOfText? raw with
    | none => .text raw
    | some x => match x.toInt? with
      | some n => .whole n
      | none => .real x

/-- Somebody remembers something. -/
def remember (state : GameState) (params : Params) : Play Effect := do
  let (state, found) ← state.ensurePerson (params.required "npc")
  let flags := found.person.memoryFlags.put (Text.trim (params.required "flag"))
    (Flag.ofText (params.required "value"))
  let person := { found.person with memoryFlags := flags }.giving [.memoryFlags]
  return .none (state.store found person)

/-- Somebody feels something. -/
def feel (state : GameState) (params : Params) : Play Effect := do
  let (state, found) ← state.ensurePerson (params.required "name")
  let intensity := (params.integer? "value").getD 50
  let emotion : Emotion := ⟨Text.trim (params.required "state"), max 0 (min 100 intensity)⟩
  return .none (state.store found ({ found.person with emotion := some emotion }.giving [.emotion]))

/-- The record that a new companion starts from: that of somebody met before. -/
def companionSeed (state : GameState) (called : String) : Option Person :=
  if hasNamed state.cast.companions called then none
  else (findNamed? state.cast.encountered called).map fun (_, p) =>
    { p with category := "companion" }.giving [.category]

/-- Somebody joins the player. -/
def joinCompanion (state : GameState) (params : Params) : Play Effect := do
  let seed := companionSeed state (params.required "name")
  let params := if seed.isNone then
      Pairs.ofList (("category", some "companion") :: params)
    else params
  let (state, person) ← introduceIn state params .companions seed
  return {
    state := state
    updates := [person.indexUpdate "companion"]
    messages := [s!"{person.name} joins you."] }

/-- A companion leaves. -/
def leaveCompanion (state : GameState) (params : Params) : Effect :=
  match findNamed? state.cast.companions (params.required "name") with
  | none => .none state
  | some (place, person) =>
    { state := state.setPeople .companions (state.cast.companions.eraseIdx place)
      messages := [s!"{person.name} leaves the party."] }

/-- Somebody in a circle changes towards the player; captives also in resistance and willpower. Who
is not in the circle stays out of it. -/
def changeRelation (circle : Circle) (state : GameState) (params : Params) : Effect :=
  match findNamed? (state.people circle) (params.required "name") with
  | none => .none state
  | some (place, person) =>
    let moved := person.moveAffinityTo person.affinity (params.value? "affinity")
    let changed := if circle = .slaves ∨ circle = .prisoners then
        moved.putAll (pickFields captiveKeys PersonField.kind params)
      else moved
    let before := affinityName person.affinity
    let after := affinityName moved.affinity
    { state := state.store ⟨circle, place, person⟩ changed
      messages := if after = before then [] else [s!"{person.name} now regards you as: {after}"] }

end Ascent
