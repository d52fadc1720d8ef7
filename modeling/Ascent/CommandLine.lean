import Ascent.Config
import Ascent.Folder
import Ascent.Screen
import Ascent.Start
import Ascent.Turn

/-!
The command line: starting a game, applying a response to it, and looking at it.

Everything happens to a folder that is passed in and handed back, so a run is a function: of the
arguments and the files to what is shown, the files afterwards and how the run ended.

Main exports: `Invocation`, `Invocation.read`, `Invocation.paths`, `Invocation.run`, `Run`.
-/

namespace Ascent

/-! ### Arguments -/

/-- An option: how it is spelled, what it sets, and the value that it sets if it takes none. -/
structure OptionRule where
  spellings : List String
  key : String
  fixed : Option String := none
deriving DecidableEq, Repr

/-- Arguments that were read: the options in order, and what is no option. -/
structure Arguments where
  options : List (String × String) := []
  others : List String := []
deriving DecidableEq, Repr

namespace Arguments

/-- The value of an option; of several the last counts. -/
def value? (as : Arguments) (key : String) : Option String := as.options.reverse.lookup key

/-- Whether an option is switched on. -/
def isOn (as : Arguments) (key : String) (default : Bool) : Bool :=
  ((as.value? key).map (· == "on")).getD default

end Arguments

/-- What an argument sets, and the key of an option that waits for its value in the next one. -/
abbrev Setting := List (String × String) × Option String

/-- A cluster of one-letter options. One that takes a value takes what is left of the cluster. -/
def readCluster? (rules : List OptionRule) : List Char → Option Setting
  | [] => some ([], none)
  | c :: rest => do
    let rule ← rules.find? (·.spellings.contains (String.ofList ['-', c]))
    match rule.fixed with
    | some value =>
      let (later, waiting) ← readCluster? rules rest
      some ((rule.key, value) :: later, waiting)
    | none =>
      if rest.isEmpty then some ([], some rule.key)
      else some ([(rule.key, String.ofList rest)], none)

/-- An option spelled out, with its value behind an equals sign where it has one. -/
def readLong? (rules : List OptionRule) (arg : List Char) : Option Setting := do
  let spelled := arg.takeWhile (· ≠ '=')
  let rule ← rules.find? (·.spellings.contains (String.ofList spelled))
  match rule.fixed, arg.drop spelled.length with
  | some value, [] => some ([(rule.key, value)], none)
  | some _, _ => none
  | none, [] => some ([], some rule.key)
  | none, _ :: value => some ([(rule.key, String.ofList value)], none)

/-- An argument that begins with a hyphen. -/
def readOption? (rules : List OptionRule) (arg : List Char) : Option Setting :=
  match arg with
  | '-' :: '-' :: _ => readLong? rules arg
  | _ => readCluster? rules (arg.drop 1)

/-- Arguments, with the key of an option that waits for its value. A double hyphen ends the options;
`mixed` tells whether they may also follow other arguments. -/
def readArguments? (rules : List OptionRule) (mixed : Bool) :
    Option String → List String → Option Arguments
  | some _, [] => none
  | some key, value :: rest => do
    let as ← readArguments? rules mixed none rest
    some { as with options := (key, value) :: as.options }
  | none, [] => some {}
  | none, arg :: rest =>
    match arg.toList with
    | ['-', '-'] => some { others := rest }
    | '-' :: c :: cs => do
      let (settings, waiting) ← readOption? rules ('-' :: c :: cs)
      let as ← readArguments? rules mixed waiting rest
      some { as with options := settings ++ as.options }
    | _ =>
      if mixed then do
        let as ← readArguments? rules mixed none rest
        some { as with others := arg :: as.others }
      else some { others := arg :: rest }

/-! ### Invocations -/

/-- What is asked for. -/
inductive Invocation where
  | help
  | newGame (playerName : String) (out : Path) (tier : Option String) (location : String)
      (config : Option Path) (verbose : Bool)
  | respond (response state : Path) (out : Option Path) (config : Option Path)
      (ends publishes verbose : Bool)
  | summary (state : Path) (inventory : Bool)
  | tier (label : String) (config : Option Path)
deriving DecidableEq, Repr

namespace Invocation

/-- The option that asks for help. -/
def helpRule : OptionRule := ⟨["--help"], "help", some "on"⟩

/-- The option that names the configuration. -/
def configRule : OptionRule := ⟨["--config", "-c"], "config", none⟩

/-- The option that asks for more to be logged. -/
def verboseRule : OptionRule := ⟨["--verbose", "-v"], "verbose", some "on"⟩

/-- The option that names the file to write to. -/
def outRule : OptionRule := ⟨["--out", "-o"], "out", none⟩

/-- The option that names the file of the state. -/
def stateRule : OptionRule := ⟨["--state", "-s"], "state", none⟩

/-- The state's file unless another one is named. -/
def defaultState : String := "state.json"

/-- Arguments with the one that is needed, if nothing else is asked for and there are no more. -/
def withOne (rules : List OptionRule) (args : List String)
    (make : Arguments → String → Invocation) : Option Invocation := do
  let as ← readArguments? (helpRule :: rules) true none args
  if (as.value? "help").isSome then some .help
  else match as.others with
    | [only] => some (make as only)
    | _ => none

/-- The invocation that arguments stand for after the word that names it. -/
def readNamed (word : String) (args : List String) : Option Invocation :=
  match word with
  | "new" =>
    let rules := [outRule, configRule, verboseRule, ⟨["--tier", "-t"], "tier", none⟩,
      ⟨["--location", "-l"], "location", none⟩]
    withOne rules args fun as playerName =>
      .newGame playerName (Path.ofText ((as.value? "out").getD defaultState)) (as.value? "tier")
        ((as.value? "location").getD "") ((as.value? "config").map Path.ofText)
        (as.isOn "verbose" false)
  | "apply" =>
    let rules := [stateRule, outRule, configRule, verboseRule,
      ⟨["--end-turn"], "ends", some "on"⟩, ⟨["--no-end-turn"], "ends", some "off"⟩,
      ⟨["--index"], "index", some "on"⟩]
    withOne rules args fun as response =>
      .respond (Path.ofText response) (Path.ofText ((as.value? "state").getD defaultState))
        ((as.value? "out").map Path.ofText) ((as.value? "config").map Path.ofText)
        (as.isOn "ends" true) (as.isOn "index" false) (as.isOn "verbose" false)
  | "tier" =>
    withOne [configRule] args fun as label => .tier label ((as.value? "config").map Path.ofText)
  | "show" => do
    let inventoryRule : OptionRule := ⟨["--inventory", "-i"], "inventory", some "on"⟩
    let as ← readArguments? [helpRule, stateRule, inventoryRule] true none args
    if (as.value? "help").isSome then some .help
    else if as.others.isEmpty then
      let state := Path.ofText ((as.value? "state").getD defaultState)
      some (.summary state (as.isOn "inventory" false))
    else none
  | _ => none

/-- The paths that an invocation names. -/
def paths : Invocation → List Path
  | .help => []
  | .newGame _ out _ _ config _ => out :: config.toList
  | .respond response state out config _ _ _ => response :: state :: out.toList ++ config.toList
  | .summary state _ => [state]
  | .tier _ config => config.toList

/-- The invocation that arguments stand for; nothing where they cannot be understood or name what
is no path. -/
def read (args : List String) : Option Invocation := do
  let as ← readArguments? [helpRule] false none args
  if (as.value? "help").isSome then some .help
  else match as.others with
    | word :: rest => (readNamed word rest).filter fun i => i.paths.all (!·.isBad)
    | [] => none

end Invocation

/-! ### Runs -/

/-- Why a run broke off without a word. -/
inductive Crash where
  | fault (f : Fault)
  | file (f : FileFault)
  /-- The level of logging is none of the known ones. -/
  | unknownLevel
  /-- A value stands where a table is needed. -/
  | notATable
  /-- Something other than a text stands where a path is needed. -/
  | notAPath
deriving DecidableEq, Repr

/-- How a run can end early: with a mistake that was shown, or by breaking off. -/
inductive Ending where
  | failed
  | crashed (c : Crash)
deriving DecidableEq, Repr

/-- What a run has done so far. -/
structure Run where
  folder : Folder := {}
  shown : List Shown := []
deriving DecidableEq, Repr

/-- A part of a run. -/
abbrev Job (α : Type) := ExceptT Ending (StateM Run) α

namespace Job

variable {α : Type}

/-- Things are shown. -/
def present (things : List Shown) : Job Unit :=
  modify fun run => { run with shown := run.shown ++ things }

/-- The run ends with a mistake. -/
def fail (message : String) : Job α := do
  present [showError message]
  throw .failed

/-- The run breaks off. -/
def crash (c : Crash) : Job α := throw (.crashed c)

/-- A computation that may fail. -/
def compute (x : Except Fault α) : Job α :=
  match x with
  | .ok a => pure a
  | .error f => crash (.fault f)

/-- A change of the folder. -/
def change (f : Folder → Except FileFault Folder) : Job Unit := do
  let run ← get
  match f run.folder with
  | .ok folder => set { run with folder := folder }
  | .error e => crash (.file e)

/-- What a configuration gives, or the end of the run. -/
def configured (x : Except ConfigFailure α) : Job α :=
  match x with
  | .ok a => pure a
  | .error (.problem p) => fail p.message
  | .error (.fault f) => crash (.fault f)

/-- A text with every line break written as one character. -/
def unifyLines : List Char → List Char
  | '\r' :: '\n' :: rest => '\n' :: unifyLines rest
  | '\r' :: rest => '\n' :: unifyLines rest
  | c :: rest => c :: unifyLines rest
  | [] => []

/-- What a text file holds. -/
def readText (p : Path) : Job (Except FileFault String) := do
  let run ← get
  return (run.folder.read p).map fun text => String.ofList (unifyLines text.toList)

/-- The configuration at a path; one that is not there or not named is empty. What happens if the
path cannot be looked up is up to `misled`. -/
def loadConfig (misled : FileFault → Job Config) : Option Path → Job Config
  | none => pure []
  | some p => do
    let run ← get
    match run.folder.has p with
    | .error e => misled e
    | .ok false => return []
    | .ok true => match run.folder.read p with
      | .ok text => configured (Config.read p.text text)
      | .error _ => configured (.error (.problem (.unreadable p.text)))

/-- A table of a configuration, empty where it is not there. -/
def tableOf (config : Config) (name : String) : Job (List (String × Json)) :=
  match Pairs.get? config name with
  | none => pure []
  | some (.object members) => pure members
  | some _ => crash .notATable

/-- The levels of logging. -/
def logLevels : List String :=
  ["CRITICAL", "FATAL", "ERROR", "WARN", "WARNING", "INFO", "DEBUG", "NOTSET"]

/-- The level of logging in a configuration is checked, unless it is overruled. -/
def checkLogging (config : Config) (verbose : Bool) : Job Unit := do
  if verbose then return
  let table ← tableOf config "logging"
  let level := ((Pairs.get? table "level").map Json.text).getD "WARNING"
  if logLevels.contains (Text.upper level) then return else crash .unknownLevel

/-- The state that a file holds, with the number of the next fresh identifier. -/
def loadState (p : Path) : Job (GameState × Nat) := do
  match ← readText p with
  | .error _ => fail s!"Could not read state file {p.text}"
  | .ok text => match GameState.load text 1 with
    | (.ok state, nextId) => return (state, nextId)
    | (.error (.problems _), _) => fail s!"Invalid state file {p.text}"
    | (.error (.fault f), _) => crash (.fault f)

/-- The state is written to a file; folders are made where they are needed. -/
def saveState (state : GameState) (p : Path) : Job Unit := do
  change fun folder => folder.make p.parent
  change fun folder => folder.write p state.save

/-- The knowledge index that a configuration describes. -/
def openIndex (config : Config) : Job KnowledgeIndex := do
  let table ← tableOf config "rag"
  match (Pairs.get? table "persist_dir").getD (.str "data/chromadb") with
  | .str place => change fun folder => folder.make (Path.ofText place)
  | _ => crash .notAPath
  let family := ((Pairs.get? table "collection_prefix").map Json.text).getD "realm_rpg"
  return { store := { family := family } }

end Job

namespace Invocation

open Job

/-- A new game is written. -/
def runBegin (playerName : String) (out : Path) (tier : Option String) (location : String)
    (config : Option Path) (verbose : Bool) : Job Unit := do
  let config ← loadConfig (crash <| .file ·) config
  checkLogging config verbose
  let settings ← configured config.settings
  let state ← compute (GameState.begin playerName settings tier location)
  saveState state out
  present [showPlayer state, showSuccess s!"New game written to {out.text}"]

/-- What is shown of a state: the player, relations and skills. -/
def presentState (state : GameState) : Job Unit := do
  present [showPlayer state]
  present (← compute (showRelations state))
  present (← compute (showSkills state))

/-- A response is applied to a state. -/
def runRespond (response state : Path) (out : Option Path) (config : Option Path)
    (ends publishes verbose : Bool) : Job Unit := do
  let unread := s!"Could not read response file {response.text}"
  let config ← loadConfig (fun _ => fail unread) config
  checkLogging config verbose
  let (start, nextId) ← loadState state
  let raw ← match ← readText response with
    | .ok raw => pure raw
    | .error _ => fail unread
  let index ← if publishes then some <$> openIndex config else pure none
  let game : Game := { state := start, supply := { nextId := nextId }, index := index }
  let (result, game) := game.respond Registry.standard raw ends
  let turn ← compute result
  saveState game.state (out.getD state)
  present (showTurn turn.narration turn.elsewhere turn.messages
    (turn.ignored.map fun i => (i.name, i.reason.text)) true)
  presentState game.state
  match game.state.pendingCombat with
  | some fight =>
    present [.line ("[bold red]Combat pending[/bold red] against "
      ++ Text.joinWith ", " fight.opponents)]
  | none => pure ()
  match game.index with
  | some index =>
    let (n, _) := index.count index.collection
    present [.line s!"[dim]Knowledge index holds {n} document(s)[/dim]"]
  | none => pure ()

/-- A state is summed up. -/
def runSummary (state : Path) (inventory : Bool) : Job Unit := do
  let (state, _) ← loadState state
  presentState state
  if inventory then present [showInventory state]

/-- Where a label lies on the ladder. -/
def positionText (settings : Settings) (label : String) : String :=
  if settings.isMortal label then "mortal"
  else
    let r := settings.resolve label
    s!"major {r.major + 1}/{r.majorCount}, minor {r.minor + 1}/{r.minorCount}"
      ++ (if r.known then "" else ", unrecognised")

/-- A tier is looked up. -/
def runTier (label : String) (config : Option Path) : Job Unit := do
  let config ← loadConfig (crash <| .file ·) config
  let settings ← configured config.settings
  let base ← compute (baseAttributes label settings)
  present [showTier label (positionText settings label)
    (Attribute.all.map fun a => ("base_" ++ a.key, toString (base.get a)))]

/-- What an invocation does. -/
def job : Invocation → Job Unit
  | .help => pure ()
  | .newGame playerName out start location config verbose =>
    runBegin playerName out start location config verbose
  | .respond response state out config ends publishes verbose =>
    runRespond response state out config ends publishes verbose
  | .summary state inventory => runSummary state inventory
  | .tier label config => runTier label config

/-- How an invocation ends in a folder, and what it has done. -/
def run (i : Invocation) (folder : Folder) : Except Ending Unit × Run :=
  StateT.run (ExceptT.run i.job) { folder := folder }

end Invocation

/-- How a run on arguments ends: its exit code, why it broke off if it did, and what it has done.
Arguments that cannot be understood have the code 2. -/
structure RunResult where
  code : Nat
  crash : Option Crash := none
  run : Run
deriving DecidableEq, Repr

/-- The program run on arguments in a folder. -/
def runCommandLine (args : List String) (folder : Folder) : RunResult :=
  match Invocation.read args with
  | none => { code := 2, run := { folder := folder } }
  | some i => match i.run folder with
    | (.ok (), run) => { code := 0, run := run }
    | (.error .failed, run) => { code := 1, run := run }
    | (.error (.crashed c), run) => { code := 1, crash := some c, run := run }

end Ascent
