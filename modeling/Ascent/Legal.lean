import Ascent.Affinity
import Ascent.Growth
import Ascent.Named

/-!
Legal states: what has to hold of a state after every command, and how it is restored.

Pools lie between zero and their maxima, nobody is at a peak below the last minor tier, affinities
are within their bounds, people's names are distinct in each circle, and no stack is empty.

Main exports: `StatBlock.legalize`, `GameState.legalize`.
-/

namespace Ascent

/-- Stats with their maxima, pools and experience restored, and without a peak that does not fit the
tier. -/
def StatBlock.legalize (s : StatBlock) (settings : Settings) : StatBlock :=
  let maxVitality := max 0 s.current.maxVitality
  let maxResource := max 0 s.current.maxResource
  let strayPeak := s.atPeak && !(settings.resolve s.tier).isLastMinor
  { s with
    current := { s.current with maxVitality, maxResource }
    vitality := StatBlock.clampPool maxVitality s.vitality
    resource := StatBlock.clampPool maxResource s.resource
    experience := max 0 s.experience
    atPeak := s.atPeak && !strayPeak
    inTribulation := s.inTribulation && !strayPeak }

/-- A person with affinity and stats restored. What had to be changed counts as set. -/
def Person.legalize (p : Person) (settings : Settings) : Person :=
  let affinity := boundAffinity p.affinity
  let stats := p.stats.map (·.legalize settings)
  let changed : List PersonField :=
    (if affinity = p.affinity then [] else [.affinity])
      ++ (if stats = p.stats then [] else [.stats])
  { p with affinity := affinity, stats := stats }.giving changed

/-- The people of a circle, each once and restored. -/
def legalizePeople (people : List Person) (settings : Settings) : List Person :=
  (mergePeople people).map (·.legalize settings)

/-- A state with everything restored that has to hold. -/
def GameState.legalize (s : GameState) : GameState :=
  { s with
    player := s.player.legalize s.settings
    cast := .ofFn fun circle => legalizePeople (s.people circle) s.settings
    inventory := s.inventory.filter (0 < ·.quantity) }

end Ascent
