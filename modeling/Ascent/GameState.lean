import Ascent.Combat
import Ascent.Lore
import Ascent.Person
import Ascent.Settings
import Ascent.Skill

/-!
The state of a game: the one document that commands read and change.

Main exports: `GameState`, `IndexUpdate`.
-/

namespace Ascent

/-- The state of a game. Time is counted in minutes since the first day of the calendar. -/
structure GameState where
  player : StatBlock := {}
  playerName : String := ""
  cast : Cast := {}
  inventory : List Item := []
  skills : List Skill := []
  lore : List LoreEntry := []
  factions : List Faction := []
  memories : List String := []
  pendingCombat : Option CombatRequest := none
  reputation : Int := 0
  worldTime : Int := 0
  location : String := ""
  turn : Int := 0
  settings : Settings := {}
deriving DecidableEq

namespace GameState

/-- The people of a circle. -/
def people (state : GameState) (circle : Circle) : List Person := state.cast.get circle

/-- The state with the people of one circle changed. -/
def setPeople (state : GameState) (circle : Circle) (people : List Person) : GameState :=
  { state with cast := state.cast.set circle people }

end GameState

/-- A document for the knowledge index: the kind of thing that it tells of, that thing's identifier
among its kind, and the text. -/
structure IndexUpdate where
  id : String
  kind : String
  content : String
deriving DecidableEq, Repr

end Ascent
