import Ascent.Proofs.Merge
import Ascent.Proofs.Run

/-!
Restoring a state leads to a legal one, changes no legal one, and so is a projection.

What a legal state is, is said here without the function that restores it. The parts are restored
one by one: stats are clamped and lose a stray peak, a person's affinity and stats are restored
after all records of the name are merged, and empty stacks are dropped.

Main exports: `StatBlock.Legal`, `Person.Legal`, `GameState.Legal`, `legalize_projects`.
-/

namespace Ascent

open Text

/-! ### Stats -/

/-- Stats within their bounds, and at a peak only where the tier has one. -/
structure StatBlock.Legal (s : StatBlock) (settings : Settings) : Prop where
  maxVitality : 0 ≤ s.current.maxVitality
  maxResource : 0 ≤ s.current.maxResource
  vitality : 0 ≤ s.vitality ∧ s.vitality ≤ s.current.maxVitality
  resource : 0 ≤ s.resource ∧ s.resource ≤ s.current.maxResource
  experience : 0 ≤ s.experience
  peak : s.atPeak = true → (settings.resolve s.tier).isLastMinor = true

namespace StatBlock

theorem clampPool_nonneg (limit amount : Int) : 0 ≤ clampPool limit amount := by
  unfold clampPool; omega

theorem clampPool_le {limit : Int} (bound : 0 ≤ limit) (amount : Int) :
    clampPool limit amount ≤ limit := by
  unfold clampPool; omega

theorem clampPool_eq_self {limit amount : Int} (low : 0 ≤ amount) (high : amount ≤ limit) :
    clampPool limit amount = amount := by
  unfold clampPool; omega

theorem legalize_legal (s : StatBlock) (settings : Settings) :
    (s.legalize settings).Legal settings where
  maxVitality := Int.le_max_left _ _
  maxResource := Int.le_max_left _ _
  vitality := ⟨clampPool_nonneg _ _, clampPool_le (Int.le_max_left _ _) _⟩
  resource := ⟨clampPool_nonneg _ _, clampPool_le (Int.le_max_left _ _) _⟩
  experience := Int.le_max_left _ _
  peak := by
    intro peak
    simp only [legalize, Bool.and_eq_true, Bool.not_eq_true', Bool.and_eq_false_iff,
      Bool.not_eq_false'] at peak ⊢
    rcases peak with ⟨atPeak, notPeak | last⟩
    · rw [atPeak] at notPeak; cases notPeak
    · exact last

theorem legalize_eq_self {s : StatBlock} {settings : Settings} (legal : s.Legal settings) :
    s.legalize settings = s := by
  have fits : (s.atPeak && !(settings.resolve s.tier).isLastMinor) = false := by
    cases atPeak : s.atPeak with
    | false => rfl
    | true => simp [legal.peak atPeak]
  simp only [legalize, fits, Int.max_eq_right legal.maxVitality,
    Int.max_eq_right legal.maxResource, Int.max_eq_right legal.experience,
    clampPool_eq_self legal.vitality.1 legal.vitality.2,
    clampPool_eq_self legal.resource.1 legal.resource.2, Bool.not_false, Bool.and_true]

end StatBlock

/-! ### People -/

/-- A person whose affinity is within its bounds and whose stats are legal. -/
structure Person.Legal (p : Person) (settings : Settings) : Prop where
  affinity : -100 ≤ p.affinity ∧ p.affinity ≤ 100
  stats : ∀ s, p.stats = some s → s.Legal settings

theorem boundAffinity_bounds (n : Int) : -100 ≤ boundAffinity n ∧ boundAffinity n ≤ 100 := by
  unfold boundAffinity maxAffinity; omega

theorem boundAffinity_eq_self {n : Int} (bounds : -100 ≤ n ∧ n ≤ 100) : boundAffinity n = n := by
  unfold boundAffinity maxAffinity; omega

namespace Person

theorem giving_nil (p : Person) : p.giving [] = p := by
  simp [giving]

theorem legalize_legal (p : Person) (settings : Settings) :
    (p.legalize settings).Legal settings where
  affinity := boundAffinity_bounds p.affinity
  stats := by
    intro s known
    simp only [legalize, giving, Option.map_eq_some_iff] at known
    obtain ⟨before, _, rfl⟩ := known
    exact before.legalize_legal settings

theorem legalize_eq_self {p : Person} {settings : Settings} (legal : p.Legal settings) :
    p.legalize settings = p := by
  have stats : p.stats.map (·.legalize settings) = p.stats := by
    cases known : p.stats with
    | none => rfl
    | some s => simp [StatBlock.legalize_eq_self (legal.stats s known)]
  simp [legalize, boundAffinity_eq_self legal.affinity, stats, giving_nil]

theorem foldedName_legalize (p : Person) (settings : Settings) :
    (p.legalize settings).foldedName = p.foldedName := rfl

end Person

theorem map_name_legalizePeople (people : List Person) (settings : Settings) :
    (legalizePeople people settings).map Person.foldedName =
      (people.map Person.foldedName).eraseDups := by
  rw [← map_name_mergePeople, legalizePeople, List.map_map]
  exact List.map_congr_left fun p _ => p.foldedName_legalize settings

theorem legalizePeople_eq_self {people : List Person} {settings : Settings}
    (distinct : (people.map Person.foldedName).Nodup)
    (legal : ∀ p ∈ people, p.Legal settings) : legalizePeople people settings = people := by
  rw [legalizePeople, mergePeople_eq_self distinct]
  calc people.map (·.legalize settings) = people.map id :=
        List.map_congr_left fun p member => Person.legalize_eq_self (legal p member)
    _ = people := List.map_id people

/-! ### States -/

/-- A state in which everything holds that has to hold after every command. -/
structure GameState.Legal (s : GameState) : Prop where
  player : s.player.Legal s.settings
  people : ∀ circle, ∀ p ∈ s.people circle, p.Legal s.settings
  distinct : ∀ circle, ((s.people circle).map Person.foldedName).Nodup
  stocked : ∀ i ∈ s.inventory, 0 < i.quantity

namespace GameState

theorem people_legalize (s : GameState) (circle : Circle) :
    s.legalize.people circle = legalizePeople (s.people circle) s.settings :=
  Cast.get_ofFn _ circle

theorem legalize_legal (s : GameState) : s.legalize.Legal where
  player := s.player.legalize_legal s.settings
  people := by
    intro circle p member
    rw [people_legalize] at member
    obtain ⟨before, _, rfl⟩ := List.mem_map.mp member
    exact before.legalize_legal s.settings
  distinct := by
    intro circle
    rw [people_legalize, map_name_legalizePeople]
    exact nodup_eraseDups _
  stocked := by
    intro i member
    simpa using (List.mem_filter.mp member).2

theorem legalize_eq_self {s : GameState} (legal : s.Legal) : s.legalize = s := by
  have cast : Cast.ofFn (fun circle => legalizePeople (s.people circle) s.settings) = s.cast := by
    have kept := fun circle => legalizePeople_eq_self (legal.distinct circle) (legal.people circle)
    simp only [kept]
    rfl
  have inventory : s.inventory.filter (0 < ·.quantity) = s.inventory :=
    inventory_legalize legal.stocked
  simp only [legalize, cast, inventory, StatBlock.legalize_eq_self legal.player]

/-- Restoring is a projection onto the legal states that keeps whom there is: it leads to a legal
state from any state, in each circle with the same names in the order of first appearance, and a
state that is legal already is not changed. So a second restoring changes nothing, and every state
that an accepted command, the end of a turn or the result of a fight leads to is legal. -/
theorem legalize_projects :
    (∀ s : GameState, s.legalize.Legal ∧
      (∀ circle, (s.legalize.people circle).map Person.foldedName =
        ((s.people circle).map Person.foldedName).eraseDups) ∧
      s.legalize.legalize = s.legalize ∧ (s.Legal → s.legalize = s)) ∧
    (∀ registry s c supply effect rest,
      dispatch registry s c supply = (.ok effect, rest) → effect.state.Legal) ∧
    (∀ (game : Game) messages next, game.endTurn = (.ok messages, next) → next.state.Legal) ∧
    (∀ (game : Game) fought result next,
      game.takeCombatResult fought = (.ok result, next) → next.state.Legal) := by
  refine ⟨?_, ?_, ?_, ?_⟩
  · intro s
    refine ⟨legalize_legal s, ?_, legalize_eq_self (legalize_legal s), legalize_eq_self⟩
    intro circle
    rw [people_legalize, map_name_legalizePeople]
  · intro registry s c supply effect rest h
    obtain ⟨_, raw, _, _, rfl⟩ := dispatch_eq_ok h
    exact legalize_legal raw.state
  · intro game messages next h
    unfold Game.endTurn GameState.endTurn at h
    cases ticked : game.state.tickStatus with
    | error e => simp [ticked, bind, Except.bind] at h
    | ok first =>
        cases grown : first.1.progressPeople with
        | error e => simp [ticked, grown, bind, Except.bind] at h
        | ok second =>
            simp only [ticked, grown, bind, Except.bind, pure, Except.pure, Prod.mk.injEq] at h
            rw [← h.2]
            exact legalize_legal _
  · intro game fought result next h
    unfold Game.takeCombatResult at h
    split at h
    · simp only [Prod.mk.injEq] at h
      rw [← h.2]
      exact legalize_legal _
    · simp at h

/-- Stats above their bounds, a stray peak, an affinity out of range, a name told twice and an empty
stack are put right by whatever happens next. -/
theorem legalize_projects_patched :
    let s : GameState := {
      player := { vitality := 900, experience := -3, atPeak := true }
      cast := { encountered := [{ id := "a", name := "Mo", affinity := 900 },
        { id := "b", name := "MO", affinity := -900, given := [.affinity] }] }
      inventory := [{ name := "Sand", quantity := 0 }] }
    let t : GameState := { s with
      player := { s.player with vitality := 100, experience := 0, atPeak := false }
      cast := { encountered := [{ id := "a", name := "Mo", affinity := -100, given := [.affinity] }] }
      inventory := [] }
    s.legalize = t ∧ t.Legal ∧ t.legalize = t ∧
    (∃ effect rest, dispatch .standard s ⟨"MEMORY_ADD", [("content", "rain")]⟩ {} = (.ok effect, rest)
      ∧ effect.state.memories = ["rain"] ∧ effect.state.Legal) ∧
    (∃ messages next, Game.endTurn { state := s } = (.ok messages, next) ∧ next.state.Legal) ∧
    (∃ result next, Game.takeCombatResult { state := s } { outcome := .victory } = (.ok result, next)
      ∧ next.state.Legal) := by
  intro s t
  have restored : s.legalize = t := by decide +kernel
  have legal : t.Legal := restored ▸ (legalize_projects.1 s).1
  have told : ((dispatch .standard s ⟨"MEMORY_ADD", [("content", "rain")]⟩ {}).1.toOption.map
      (·.state.memories)) = some ["rain"] := by decide +kernel
  obtain ⟨effect, ok, memories⟩ := Option.map_eq_some_iff.mp told
  have command : dispatch .standard s ⟨"MEMORY_ADD", [("content", "rain")]⟩ {} = (.ok effect, _) :=
    Prod.ext (eq_ok_of_toOption ok) rfl
  have ended : (Game.endTurn { state := s }).1.toOption = some [] := by decide +kernel
  have turn : Game.endTurn { state := s } = (.ok [], _) := Prod.ext (eq_ok_of_toOption ended) rfl
  have won : (Game.takeCombatResult { state := s } { outcome := .victory }).1.toOption = some {} := by
    decide +kernel
  have fight : Game.takeCombatResult { state := s } { outcome := .victory } = (.ok {}, _) :=
    Prod.ext (eq_ok_of_toOption won) rfl
  exact ⟨restored, legal, (legalize_projects.1 t).2.2.2 legal,
    ⟨effect, _, command, memories, legalize_projects.2.1 _ s _ {} effect _ command⟩,
    ⟨_, _, turn, legalize_projects.2.2.1 _ _ _ turn⟩,
    ⟨_, _, fight, legalize_projects.2.2.2 _ _ _ _ fight⟩⟩

end GameState
end Ascent
