import Ascent.Command.Player
import Ascent.Located

/-!
Commands about fights: one that is about to begin, and what came of one.

The engine does not fight. It raises a request for the combat screen and folds the result that comes
back into the state.

Main exports: `beginFight`, `applyCombatResult`, `readDispositions`, `endFight`.
-/

namespace Ascent

open Text

/-- Where a fight takes place if nothing is known of it. -/
def unknownPlace : String := "Unknown"

/-- The opponents that a text lists. -/
def readOpponents (written : String) : List String :=
  Loose.dedupe <|
    ((splitWhere (· = ',') written.toList).map fun cs => String.ofList (trimChars cs)).filter
      (· ≠ "")

/-- A fight is about to begin, unless fights are settled in the story. -/
def beginFight (state : GameState) (params : Params) : Effect :=
  let opponents := readOpponents (params.required "opponentIds")
  if state.settings.combatMode = .narrative ∨ opponents = [] then .none state
  else
    let named := trim ((params.value? "location").getD "")
    let place :=
      if named ≠ "" then named else if state.location ≠ "" then state.location else unknownPlace
    { state := { state with
        pendingCombat := some ⟨opponents, place⟩
        player := { state.player with comboStreak := 0 } }
      messages := ["Combat looms against " ++ joinWith ", " opponents ++ "."] }

/-! ### What becomes of opponents -/

/-- How strongly a new captive resists, and the strength of a new captive's will. -/
def captiveSpirit : Int := 50

namespace Person

/-- A person taken prisoner. -/
def captured (p : Person) : Person :=
  { p with category := "prisoner", resistance := captiveSpirit, willpower := captiveSpirit }.giving
    [.category, .resistance, .willpower]

/-- A person killed. -/
def killed (p : Person) : Person := { p with isAlive := false }.giving [.isAlive]

end Person

namespace GameState

/-- The state with somebody taken prisoner; who is one already stays so. -/
def capture (state : GameState) (called : String) : GameState :=
  match state.locateIn? (Circle.all.filter (· ≠ .prisoners)) called with
  | none => state
  | some found =>
    let freed := state.setPeople found.circle ((state.people found.circle).eraseIdx found.place)
    freed.setPeople .prisoners (freed.people .prisoners ++ [found.person.captured])

/-- The state with somebody killed. -/
def kill (state : GameState) (called : String) : GameState :=
  match state.locateIn? Circle.all called with
  | none => state
  | some found => state.store found found.person.killed

/-- The state with a disposition carried out; who is released is left alone. -/
def dispose (state : GameState) (called : String) : Disposition → GameState
  | .capture => state.capture called
  | .kill => state.kill called
  | .release => state

end GameState

/-! ### Results -/

/-- The player's pools after a fight. -/
def StatBlock.afterFight (s : StatBlock) (result : CombatResult) : StatBlock :=
  { s with
    vitality := (result.finalVitality.map (StatBlock.clampPool s.current.maxVitality)).getD
      s.vitality
    resource := (result.finalResource.map (StatBlock.clampPool s.current.maxResource)).getD
      s.resource }

/-- The result of a fight folded into the state. A fight during a trial decides it, unless the
player got away. -/
def applyCombatResult (state : GameState) (result : CombatResult) : Except Fault Effect := do
  let fought := { state with
    pendingCombat := none
    player := state.player.afterFight result }
  let disposed := result.dispositions.foldl (fun state (called, d) => state.dispose called d) fought
  let settled ← match result.finalInventory with
    | none => pure disposed
    | some inventory => do
      let player ← disposed.player.refresh inventory
      pure { disposed with player := player, inventory := inventory }
  let summary := if result.summary = "" then [] else [result.summary]
  if settled.player.phase = .inTribulation ∧ result.outcome ≠ .escaped then
    let trial ← settleTrial settled (result.outcome = .victory)
    return { state := trial.state, messages := summary ++ trial.messages }
  else return { state := settled, messages := summary }

/-- The word of a disposition at the head of the characters, in any case, as it is written in lower
case. -/
def dispositionWord : Pattern (List Char) := fun cs =>
  Disposition.words.findSome? fun (word, _) =>
    (dropWord? word.toList cs).map fun _ => (lowerChars (cs.take word.length), word.length)

/-- A name and the word of its disposition, `Wolf King: kill`. The name holds no comma and no
mark. -/
def namedDisposition : Pattern (String × String) := fun cs =>
  let called := cs.takeWhile fun c => !(c = ',' || c = ':' || c = '=')
  match cs.drop called.length with
  | [] => none
  | mark :: rest =>
    let written := rest.dropWhile isBlank
    match dispositionWord written with
    | none => none
    | some (word, size) =>
      if called.isEmpty || mark = ',' then none
      else some ((String.ofList (trimChars called), String.ofList word),
        cs.length - (written.length - size))

/-- The names that a text lists with the words of their dispositions. -/
def readDispositions (text : String) : Pairs String :=
  Pairs.ofList (namedDisposition.findAll text.toList)

/-- The result of a fight that a command tells. It has to name a known outcome, the words of its
dispositions have to be written in plain letters, and its summary must not be without a value. -/
def combatResultOf? (params : Params) : Option CombatResult := do
  let outcome ← Outcome.words.lookup (lower (trim (params.required "outcome")))
  let summary ← (params.textOr "summary" "").toOption
  let written := readDispositions ((params.value? "dispositions").getD "")
  let dispositions ← written.mapM fun (called, word) =>
    (Disposition.words.lookup word).map fun d => (called, d)
  return {
    outcome := outcome
    summary := summary
    finalVitality := params.integer? "finalVitality"
    finalResource := params.integer? "finalResource"
    dispositions := dispositions }

/-- A fight is over. -/
def endFight (state : GameState) (params : Params) : Except Fault Effect :=
  match combatResultOf? params with
  | none => .ok (.none state)
  | some result => applyCombatResult state result

end Ascent
