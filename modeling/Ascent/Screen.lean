import Ascent.Affinity
import Ascent.Calendar
import Ascent.Command.Dispatch
import Ascent.Reputation
import Ascent.Worth

/-!
What is shown to the player: turns, and summaries of a state.

Only the content is decided here, not how it is drawn. A summary of which nothing can be said is
left out.

Main exports: `Shown`, `showTurn`, `showPlayer`, `showRelations`, `showSkills`, `showInventory`,
`showTier`.
-/

namespace Ascent

/-- Something that is shown: a line with markup, a table, or a panel around a text. -/
inductive Shown where
  | line (text : String)
  | table (title : String) (columns : List String) (rows : List (List String))
  | panel (text : String) (formatted : Bool) (title : Option String)
deriving DecidableEq, Repr

/-- A turn: the story, what happens elsewhere and, unless `mechanics` is off, the messages and the
commands that were left out with the reasons. -/
def showTurn (narration : String) (elsewhere : Option String) (messages : List String)
    (ignored : List (String × String)) (mechanics : Bool) : List Shown :=
  let story := if narration = "" then [] else [Shown.panel narration true none]
  let aside := elsewhere.getD ""
  let rest := if aside = "" then [] else [Shown.panel aside false (some "Elsewhere")]
  let details :=
    if mechanics then
      messages.map (fun m => Shown.line ("  [cyan]*[/cyan] " ++ m))
        ++ ignored.map (fun (name, reason) =>
          Shown.line ("  [dim]ignored [" ++ name ++ "]: " ++ reason ++ "[/dim]"))
    else []
  story ++ rest ++ details

/-- A text, or another one in place of the empty one. -/
def textOrElse (s other : String) : String := if s = "" then other else s

/-- The player. -/
def showPlayer (state : GameState) : Shown :=
  let p := state.player
  let called := textOrElse state.playerName "Player"
  let tier := textOrElse p.tier state.settings.mortal
  let place := if state.location = "" then [] else [["Location", state.location]]
  let effects := if p.statusEffects.isEmpty then []
    else [["Status", Text.joinWith ", " (p.statusEffects.map (·.name))]]
  .table s!"{called} - {tier}" ["Attribute", "Value"] <|
    [["Vitality", s!"{p.vitality}/{p.current.maxVitality}"],
     ["Resource", s!"{p.resource}/{p.current.maxResource}"],
     ["Offense", s!"{p.current.offense}"],
     ["Defense", s!"{p.current.defense}"],
     ["Speed", s!"{p.current.speed}"],
     ["Experience", s!"{p.experience}/{p.current.experienceToNext}"],
     ["Currency", s!"{p.currency}"],
     ["Progression", Text.substitute '_' ' ' p.phase.word],
     ["Reputation", s!"{state.reputation} (" ++ reputationTier state.reputation ++ ")"],
     ["Time", showTime state.worldTime]] ++ place ++ effects

/-- The circles of people with a bond to the player, what people there are called, and what they are
kept for if they are captives. -/
def bonds : List (Circle × String × Option Captivity) :=
  [(.companions, "Companion", none), (.wives, "Wife", none), (.slaves, "Slave", some .slave),
   (.prisoners, "Prisoner", some .prisoner)]

/-- The row of a person. -/
def relationRow (settings : Settings) (role : String) (captivity : Option Captivity) (p : Person) :
    Except Fault (List String) := do
  let worth ← match captivity with
    | some c => do pure (toString (← p.worth settings c))
    | none => pure ""
  return [p.name, role, textOrElse (p.tier.getD "") "-",
    s!"{p.affinity} " ++ affinityName p.affinity, worth]

/-- The people with a bond to the player, if there are any. -/
def showRelations (state : GameState) : Except Fault (List Shown) := do
  let rows ← bonds.mapM fun (circle, role, captivity) =>
    (state.people circle).mapM (relationRow state.settings role captivity)
  let rows := rows.flatten
  return if rows.isEmpty then []
    else [.table "Relations" ["Name", "Role", "Tier", "Affinity", "Worth"] rows]

/-- The row of a skill. -/
def skillRow (s : Skill) : Except Fault (List String) := do
  return [s.name, s!"{s.proficiencyTier} {s.proficiency}/{s.maxProficiency}",
    toString (← s.power), toString (← s.cost)]

/-- The skills, if there are any. -/
def showSkills (state : GameState) : Except Fault (List Shown) := do
  let rows ← state.skills.mapM skillRow
  return if rows.isEmpty then []
    else [.table "Skills" ["Skill", "Proficiency", "Power", "Cost"] rows]

/-- The row of an item. -/
def itemRow (i : Item) : List String :=
  [if i.equipped then "[green]E[/green]" else "", i.name, i.category, toString i.quantity,
   (i.value.map toString).getD "None"]

/-- The inventory by name, case aside. -/
def showInventory (state : GameState) : Shown :=
  if state.inventory.isEmpty then .line "[dim]Inventory is empty.[/dim]"
  else
    let sorted := state.inventory.mergeSort fun a b =>
      decide (Text.lower a.name ≤ Text.lower b.name)
    .table "Inventory" ["", "Item", "Type", "Qty", "Value"] (sorted.map itemRow)

/-- How the base of an attribute is called. -/
def baseCaption (key : String) : String :=
  Text.substitute '_' ' '
    (((Text.dropStart? "base_".toList key.toList).map String.ofList).getD key)

/-- A tier: its label, its place on the ladder, and values under keys. -/
def showTier (label position : String) (values : List (String × String)) : Shown :=
  .table s!"{label} ({position})" ["Stat", "Base"]
    (values.map fun (key, value) => [baseCaption key, value])

/-- A mistake. -/
def showError (message : String) : Shown := .line ("[bold red]Error:[/bold red] " ++ message)

/-- Something done. -/
def showSuccess (message : String) : Shown := .line ("[bold green]" ++ message ++ "[/bold green]")

end Ascent
