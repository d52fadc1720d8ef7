import Ascent.Archetype
import Ascent.GameState
import Ascent.Leveling

/-!
Passive growth: people with an aptitude cultivate on their own from turn to turn, and break through
after enough turns at a peak.

Main exports: `StatBlock.scaleTo`, `Person.progress`, `GameState.progressPeople`.
-/

namespace Ascent

/-- The stats of a person moved to a tier: each base attribute grows as the worth of the rung does,
so the proportions stay. -/
def StatBlock.scaleTo (s : StatBlock) (label : String) (settings : Settings) :
    Except Fault StatBlock := do
  let ratio := (settings.resolve label).worth / (settings.resolve s.tier).worth
  let scale (base least : Int) : Except Fault Int := do
    return max least (← ((← Double.ofInt? base) * ratio).floor)
  let build : Build Int := ⟨
    ← scale s.base.maxVitality personMinimums.maxVitality,
    ← scale s.base.maxResource personMinimums.maxResource,
    ← scale s.base.offense personMinimums.offense,
    ← scale s.base.defense personMinimums.defense,
    ← scale s.base.speed personMinimums.speed⟩
  let base ← baseAttributes label settings
  let all := build.withRequirement base.experienceToNext
  return { s with
    base := all
    current := all
    tier := label
    vitality := all.maxVitality
    resource := all.maxResource }

/-- The way that people's stats move to a tier: in proportion. -/
def Rebase.inProportion (settings : Settings) : Rebase := fun s label => s.scaleTo label settings

/-- How the aptitudes change the speed of growth. -/
def growthFactors : List (String × Double) :=
  [("waste", 0.5), ("ordinary", 1), ("talented", 1.5), ("prodigy", 2)]

/-- The share of the requirement that a turn brings at ordinary aptitude. -/
def growthShare : Double := 0.05

/-- How many turns a person stays at a peak. -/
def bottleneckLimit : Int := 10

namespace Person

/-- The person with new stats, of the tier of these. -/
def withStats (p : Person) (s : StatBlock) : Person :=
  { p with stats := some s, tier := some s.tier }.giving [.stats, .tier]

/-- What is reported of a person. -/
def report (p : Person) (messages : List String) : List String :=
  messages.map fun m => s!"{p.name}: {m}"

/-- One turn at the peak: a count, and a breakthrough when the count is full. -/
def waitAtPeak (p : Person) (s : StatBlock) (settings : Settings) :
    Except Fault (Person × List String) :=
  let turns := p.bottleneckTurns + 1
  if turns < bottleneckLimit then
    .ok ({ p with bottleneckTurns := turns }.giving [.bottleneckTurns], [])
  else do
    let climb ← resolveBreakthrough s true settings [] (.inProportion settings)
    let messages := if climb.brokeThrough then p.report climb.messages else []
    return ({ p.withStats climb.stats with bottleneckTurns := 0 }.giving [.bottleneckTurns],
      messages)

/-- One turn of growth on the way up. -/
def grow (p : Person) (s : StatBlock) (aptitude : String) (settings : Settings) :
    Except Fault (Person × List String) := do
  let factor := (growthFactors.lookup (Text.lower (Text.trim aptitude))).getD 1
  let gain ← (growthShare * factor * (← Double.ofInt? s.current.experienceToNext)).roundEven
  let climb ← gainExperience s gain settings (.inProportion settings)
  return (p.withStats climb.stats, p.report climb.messages)

/-- One turn of a person, with what is reported of it. The dead, mortals, and those without stats,
an aptitude or a tier stay as they are. -/
def progress (p : Person) (settings : Settings) : Except Fault (Person × List String) :=
  match p.stats, p.aptitude with
  | some s, some aptitude =>
    if !p.isAlive || aptitude = "" || s.tier = "" || settings.isMortal s.tier then .ok (p, [])
    else if s.atPeak then p.waitAtPeak s settings
    else p.grow s aptitude settings
  | _, _ => .ok (p, [])

end Person

/-- One turn of several people. -/
def progressAll (settings : Settings) : List Person → Except Fault (List Person × List String)
  | [] => .ok ([], [])
  | p :: rest => do
    let (p, messages) ← p.progress settings
    let (rest, later) ← progressAll settings rest
    return (p :: rest, messages ++ later)

/-- One turn of everybody, where stats are kept. -/
def GameState.progressPeople (state : GameState) : Except Fault (GameState × List String) :=
  if !state.settings.enableStats then .ok (state, [])
  else do
    let (encountered, m₁) ← progressAll state.settings state.cast.encountered
    let (companions, m₂) ← progressAll state.settings state.cast.companions
    let (wives, m₃) ← progressAll state.settings state.cast.wives
    let (slaves, m₄) ← progressAll state.settings state.cast.slaves
    let (prisoners, m₅) ← progressAll state.settings state.cast.prisoners
    return ({ state with cast := ⟨encountered, companions, wives, slaves, prisoners⟩ },
      m₁ ++ m₂ ++ m₃ ++ m₄ ++ m₅)

end Ascent
