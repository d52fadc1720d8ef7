import Ascent.Growth

/-!
Experience and the climb through the tiers.

On the way up, experience that covers the requirement is spent on the next minor tier. At the last
minor tier of a major tier it is held at the requirement until a breakthrough, which leads to the
next major tier or, where it fails, one step down.

Main exports: `Climb`, `checkLevel`, `gainExperience`, `beginBreakthrough`, `resolveBreakthrough`.
-/

namespace Ascent

/-- What came of a change of experience or of a breakthrough. -/
structure Climb where
  stats : StatBlock
  levelsGained : Int := 0
  reachedPeak : Bool := false
  brokeThrough : Bool := false
  messages : List String := []
deriving DecidableEq

/-- A way to move stats to a tier. -/
abbrev Rebase := StatBlock → String → Except Fault StatBlock

/-- The way that stats of the player move to a tier: from the formula, with what is equipped. -/
def Rebase.ofFormula (settings : Settings) (items : List Item) : Rebase := fun s label =>
  s.rebase label settings items

/-- The climb through at most `steps` more minor tiers from a rung. -/
def climbMinors (settings : Settings) (rebase : Rebase) : Nat → Rung → Climb → Except Fault Climb
  | 0, _, climb => .ok climb
  | steps + 1, rung, climb =>
    let s := climb.stats
    let needed := s.current.experienceToNext
    if s.experience < needed then .ok climb
    else if rung.isLastMinor then
      .ok { climb with
        stats := { s with atPeak := true, experience := needed }
        reachedPeak := true
        messages := climb.messages ++
          [s!"Reached the peak of {s.tier}. A breakthrough is required to advance."] }
    else do
      let label := settings.label rung.major (rung.minor + 1)
      let moved ← rebase { s with experience := s.experience - needed } label
      climbMinors settings rebase steps (settings.resolve label)
        { climb with
          stats := moved
          levelsGained := climb.levelsGained + 1
          messages := climb.messages ++ [s!"Advanced to {label}!"] }

/-- The climb that experience allows. Mortals and those at a peak do not climb; their experience is
kept within zero and the requirement. -/
def checkLevel (s : StatBlock) (settings : Settings) (rebase : Rebase) : Except Fault Climb :=
  if s.phase ≠ .normal ∨ settings.isMortal s.tier then
    .ok { stats := { s with experience := min (max 0 s.experience) s.current.experienceToNext } }
  else
    let rung := settings.resolve s.tier
    climbMinors settings rebase (rung.minorCount - rung.minor) rung { stats := s }

/-- The climb after experience is added or, for a negative amount, lost; none is left below zero. -/
def gainExperience (s : StatBlock) (amount : Int) (settings : Settings) (rebase : Rebase) :
    Except Fault Climb :=
  checkLevel { s with experience := max 0 (s.experience + amount) } settings rebase

/-- The trial begins, for those at a peak. -/
def beginBreakthrough (s : StatBlock) : Climb :=
  if s.phase = .atPeak then
    { stats := { s with inTribulation := true }, messages := ["The tribulation begins."] }
  else { stats := s }

/-- The stats after a failed breakthrough: one minor tier down, without experience, with half of the
vitality that was left. -/
def demote (s : StatBlock) (settings : Settings) (items : List Item) : Except Fault Climb := do
  let rung := settings.resolve s.tier
  let label := settings.label rung.major (max 0 ((rung.minor : Int) - 1))
  let cleared := { s with inTribulation := false, atPeak := false, experience := 0 }
  let fallen ← cleared.retier label settings items
  let hurt ← { fallen with vitality := max 1 (fallen.vitality / 2) }.refresh items
  return { stats := hurt, messages := [s!"The breakthrough failed. Fell back to {label}."] }

/-- The end of a breakthrough. Success leads to the first minor tier of the next major tier; at the
top the peak is kept. -/
def resolveBreakthrough (s : StatBlock) (success : Bool) (settings : Settings) (items : List Item)
    (rebase : Rebase) : Except Fault Climb :=
  if s.phase = .normal then .ok { stats := s }
  else if success then
    let rung := settings.resolve s.tier
    if rung.isTopMajor then
      .ok { stats := { s with
              inTribulation := false, atPeak := true, experience := s.current.experienceToNext }
            messages := ["There is no higher tier to reach."] }
    else do
      let label := settings.label (rung.major + 1) 0
      let risen ← rebase { s with inTribulation := false, atPeak := false, experience := 0 } label
      return { stats := risen, levelsGained := 1, brokeThrough := true
               messages := [s!"Breakthrough! Ascended to {label}."] }
  else demote s settings items

end Ascent
