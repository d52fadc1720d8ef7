import Ascent.Calendar
import Ascent.Command.Effect

/-!
Commands about time and memory.

Main exports: `passTime`, `setClock`, `addMemory`.
-/

namespace Ascent

/-- The words for lengths of time, in minutes. -/
def spanWords : List (String × Int) := [("short", 60), ("medium", 240), ("long", 720)]

/-- Time passes: a length in words, in units, or both. -/
def passTime (state : GameState) (params : Params) : Except Fault Effect := do
  let unit (key : String) : Int := (params.integer? key).getD 0
  let word := Text.lower (Text.trim (← params.textOr "duration" ""))
  let minutes := spanMinutes (unit "years") (unit "months") (unit "days") (unit "hours")
    (unit "minutes") + (spanWords.lookup word).getD 0
  if minutes ≤ 0 then return .none state
  else
    let now := advance state.worldTime minutes
    return {
      state := { state with worldTime := now }
      messages := ["Time passes: " ++ showTime now] }

/-- The clock is set, but never back. -/
def setClock (state : GameState) (params : Params) : Effect :=
  let change : DateChange :=
    { year := params.integer? "year"
      month := params.integer? "month"
      day := params.integer? "day"
      hour := params.integer? "hour"
      minute := params.integer? "minute" }
  .none { state with worldTime := setTime state.worldTime change }

/-- Something is remembered that is not remembered yet, case and blanks around it aside. -/
def addMemory (state : GameState) (params : Params) : Effect :=
  let content := Text.trim (params.required "content")
  if state.memories.any fun m => Text.fold (Text.trim m) == Text.fold content then .none state
  else
    { state := { state with memories := state.memories ++ [content] }
      messages := ["A new core memory was formed."] }

end Ascent
