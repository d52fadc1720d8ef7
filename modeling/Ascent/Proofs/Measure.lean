import Ascent.Proofs.Lasting
import Ascent.Proofs.Provenance

/-!
The measure of people.

Where stats are kept everybody has them, and they fit the tier that the person is said to have: the
current attributes are the base ones and not below the least ones, the pools are full, and the
requirement of experience is the one of the tier. Stats are drawn up in this measure, growth keeps
it, and a merge takes tier and stats from the same record, since both count as set from the day on
which they were drawn up.

Main exports: `StatBlock.Measured`, `Person.Measured`, `Person.Arises.inMeasure`,
`measured_of_reachable`.
-/

namespace Ascent

/-- Every rung of a proper ladder has a label. -/
theorem Settings.WellFormed.label_ne_empty {world : Settings} (formed : world.WellFormed)
    (major minor : Int) : world.label major minor ≠ "" := by
  have minors : world.ladder.minors.isEmpty = false := by simpa using formed.minors.1
  intro empty
  unfold Settings.label Ladder.label at empty
  rw [minors] at empty
  split at empty
  · exact absurd empty (by decide)
  · have size := congrArg String.length empty
    simp [String.length_append] at size

/-! ### Stats in measure -/

/-- Stats in measure: current attributes equal to the base ones and not below the least ones, full
pools, and the requirement of experience of the tier. -/
structure StatBlock.Measured (s : StatBlock) (world : Settings) : Prop where
  current : s.current = s.base
  maxVitality : personMinimums.maxVitality ≤ s.current.maxVitality
  maxResource : personMinimums.maxResource ≤ s.current.maxResource
  offense : personMinimums.offense ≤ s.current.offense
  defense : personMinimums.defense ≤ s.current.defense
  speed : personMinimums.speed ≤ s.current.speed
  vitality : s.vitality = s.current.maxVitality
  resource : s.resource = s.current.maxResource
  requirement : ∃ base, baseAttributes s.tier world = .ok base ∧
    s.current.experienceToNext = base.experienceToNext

/-- A person with stats in measure, of the tier that the person is said to have. -/
def Person.Measured (p : Person) (world : Settings) : Prop :=
  ∃ s, p.stats = some s ∧ p.tier = some s.tier ∧ s.Measured world

section

variable {s t : StatBlock} {world : Settings}

theorem generateAttribute_least (reference : Int) (factor ratio : Double) (least : Int) :
    (generateAttribute reference factor ratio least).Ensures (least ≤ ·) :=
  .of_bind fun _ => .of_bind fun _ => .of_bind fun _ => .pure (Int.le_max_left _ _)

theorem generateStats_measured (player : StatBlock) {tier : String} (named : tier ≠ "")
    (archetype : Archetype) :
    (generateStats player tier world archetype).Ensures fun s =>
      s.tier = tier ∧ s.Measured world := by
  unfold generateStats
  simp only [if_neg named]
  refine .bind (generateAttribute_least _ _ _ _) fun maxVitality vitalityLeast => ?_
  refine .bind (generateAttribute_least _ _ _ _) fun maxResource resourceLeast => ?_
  refine .bind (generateAttribute_least _ _ _ _) fun offense offenseLeast => ?_
  refine .bind (generateAttribute_least _ _ _ _) fun defense defenseLeast => ?_
  refine .bind (generateAttribute_least _ _ _ _) fun speed speedLeast => ?_
  refine .bind (.ofExcept fun base based => based) fun base based => .pure ⟨rfl, ?_⟩
  exact ⟨rfl, vitalityLeast, resourceLeast, offenseLeast, defenseLeast, speedLeast, rfl, rfl,
    base, based, rfl⟩

/-- The greater of a value that is computed in two steps and the least is not below the least. -/
theorem least_le_of_max {α : Type} {x : Except Fault α} {f : α → Except Fault Int} {least n : Int}
    (h : (do return max least (← f (← x))) = Except.ok n) : least ≤ n := by
  obtain ⟨_, _, h⟩ := exists_of_bind_eq_ok h
  obtain ⟨m, _, h⟩ := exists_of_bind_eq_ok h
  rw [← Except.ok.inj h]
  exact Int.le_max_left least m

theorem scaleTo_measured {label : String} (h : s.scaleTo label world = .ok t) :
    t.Measured world := by
  obtain ⟨maxVitality, vitalityScaled, h⟩ := exists_of_bind_eq_ok h
  obtain ⟨maxResource, resourceScaled, h⟩ := exists_of_bind_eq_ok h
  obtain ⟨offense, offenseScaled, h⟩ := exists_of_bind_eq_ok h
  obtain ⟨defense, defenseScaled, h⟩ := exists_of_bind_eq_ok h
  obtain ⟨speed, speedScaled, h⟩ := exists_of_bind_eq_ok h
  obtain ⟨base, based, h⟩ := exists_of_bind_eq_ok h
  rw [← Except.ok.inj h]
  exact ⟨rfl, least_le_of_max vitalityScaled, least_le_of_max resourceScaled,
    least_le_of_max offenseScaled, least_le_of_max defenseScaled, least_le_of_max speedScaled,
    rfl, rfl, base, based, rfl⟩

theorem inProportion_keeps_measured (world : Settings) :
    (Rebase.inProportion world).Keeps (·.Measured world) where
  moves := fun _ moved => scaleTo_measured moved
  idles := fun _ _ _ measured => { measured with }

/-- Restoring leaves attributes and pools in measure as they are. -/
theorem legalize_measured (measured : s.Measured world) : (s.legalize world).Measured world := by
  have vitalityLeast : (10 : Int) ≤ s.current.maxVitality := measured.maxVitality
  have resourceLeast : (0 : Int) ≤ s.current.maxResource := measured.maxResource
  have vitality := measured.vitality
  have resource := measured.resource
  have maxVitality : max 0 s.current.maxVitality = s.current.maxVitality := by omega
  have maxResource : max 0 s.current.maxResource = s.current.maxResource := by omega
  have fullVitality : StatBlock.clampPool s.current.maxVitality s.vitality = s.vitality := by
    rw [StatBlock.clampPool]
    omega
  have fullResource : StatBlock.clampPool s.current.maxResource s.resource = s.resource := by
    rw [StatBlock.clampPool]
    omega
  simp only [StatBlock.legalize, maxVitality, maxResource, fullVitality, fullResource]
  exact { measured with }

end

/-! ### People in measure -/

/-- A person in measure, of whom stats and tier count as set. -/
structure Person.InMeasure (p : Person) (world : Settings) : Prop where
  measured : p.Measured world
  stats : .stats ∈ p.given
  tier : .tier ∈ p.given

namespace Person

variable {p q : Person} {world : Settings}

theorem InMeasure.of_same (h : p.InMeasure world) (stats : q.stats = p.stats)
    (tier : q.tier = p.tier) (given : q.given = p.given) : q.InMeasure world := by
  refine ⟨?_, given ▸ h.stats, given ▸ h.tier⟩
  rw [Measured, stats, tier]
  exact h.measured

/-- More fields count as set, and neither stats nor tier are changed. -/
theorem InMeasure.giving {fields : List PersonField} (h : p.InMeasure world)
    (stats : q.stats = p.stats) (tier : q.tier = p.tier) (given : q.given = p.given) :
    (q.giving fields).InMeasure world := by
  obtain ⟨measured, statsSet, tierSet⟩ := h.of_same stats tier given
  exact ⟨measured, (mem_given_giving q fields _).mpr (.inl statsSet),
    (mem_given_giving q fields _).mpr (.inl tierSet)⟩

theorem withStats_inMeasure {s : StatBlock} (measured : s.Measured world) :
    (p.withStats s).InMeasure world where
  measured := ⟨s, rfl, rfl, measured⟩
  stats := (mem_given_giving _ _ _).mpr (.inr (by decide))
  tier := (mem_given_giving _ _ _).mpr (.inr (by decide))

/-- Fields other than the tier leave the stats and the tier alone. -/
theorem putAll_inMeasure (h : p.InMeasure world) {fields : List (PersonField × FieldValue)}
    (tierless : ∀ x ∈ fields, x.1 ≠ .tier) : (p.putAll fields).InMeasure world := by
  refine putAll_keeps (P := fun q => q.InMeasure world) h ?_ fun _ _ kept => kept.giving rfl rfl rfl
  intro q x member kept
  have named := tierless x member
  refine kept.of_same ?_ ?_ ?_
  · cases x.1 <;> rfl
  · generalize x.1 = f at named
    cases f with
    | tier => exact absurd rfl named
    | _ => rfl
  · cases x.1 <;> rfl

theorem stats_takeAll (fields : List PersonField) (source target : Person) :
    (takeAll take fields source target).stats =
      if .stats ∈ fields then source.stats else target.stats :=
  get_takeAll Person.stats (fun _ _ => rfl)
    (fun g other _ _ => by cases g <;> first | rfl | exact absurd rfl other) fields source target

theorem tier_takeAll (fields : List PersonField) (source target : Person) :
    (takeAll take fields source target).tier =
      if .tier ∈ fields then source.tier else target.tier :=
  get_takeAll Person.tier (fun _ _ => rfl)
    (fun g other _ _ => by cases g <;> first | rfl | exact absurd rfl other) fields source target

/-- A merge takes stats and tier from the later record. -/
theorem overlay_inMeasure (later : q.InMeasure world) : (p.overlay q).InMeasure world := by
  have stats : .stats ∈ q.mergedFields := List.mem_filter.mpr ⟨later.stats, by decide⟩
  have tier : .tier ∈ q.mergedFields := List.mem_filter.mpr ⟨later.tier, by decide⟩
  refine ⟨?_, (mem_given_giving _ _ _).mpr (.inr stats), (mem_given_giving _ _ _).mpr (.inr tier)⟩
  obtain ⟨s, known, titled, measured⟩ := later.measured
  refine ⟨s, ?_, ?_, measured⟩
  · exact (stats_takeAll _ q p).trans ((if_pos stats).trans known)
  · exact (tier_takeAll _ q p).trans ((if_pos tier).trans titled)

theorem legalize_inMeasure (h : p.InMeasure world) : (p.legalize world).InMeasure world := by
  obtain ⟨s, known, titled, measured⟩ := h.measured
  refine ⟨⟨s.legalize world, ?_, titled, legalize_measured measured⟩, ?_, ?_⟩
  · exact congrArg (Option.map (·.legalize world)) known
  · exact (mem_given_giving _ _ _).mpr (.inl h.stats)
  · exact (mem_given_giving _ _ _).mpr (.inl h.tier)

theorem turn_inMeasure (h : p.InMeasure world) (turn : p.Turn world q) : q.InMeasure world := by
  obtain ⟨known, stats, _, measured⟩ := h.measured
  cases turn with
  | rests => exact h
  | waits => exact h.giving rfl rfl rfl
  | @breaks s climb own _ _ resolved =>
      obtain rfl : known = s := Option.some.inj (stats.symm.trans own)
      have risen := resolveBreakthrough_keeps (inProportion_keeps_measured world)
        (fun failed => by cases failed) measured resolved
      exact (withStats_inMeasure risen).giving rfl rfl rfl
  | @gains s gain climb own _ climbed =>
      obtain rfl : known = s := Option.some.inj (stats.symm.trans own)
      exact withStats_inMeasure
        (gainExperience_keeps (inProportion_keeps_measured world) measured climbed)

/-- Who has stats drawn up is in measure, whatever was known before. -/
theorem refreshStats_inMeasure (p : Person) {s : GameState}
    (kept : s.settings.enableStats = true) (formed : s.settings.WellFormed) :
    (p.refreshStats s).Ensures (·.InMeasure s.settings) := by
  unfold refreshStats
  rw [kept]
  dsimp only [Bool.not_true, Bool.false_eq_true, if_false]
  generalize htier : (if s.settings.isMortal (p.assumedTier s) then p.assumedTier s
    else s.settings.label (s.settings.resolve (p.assumedTier s)).major
      (s.settings.resolve (p.assumedTier s)).minor) = tier
  have named : tier ≠ "" := by
    rw [← htier]
    split
    · next mortal =>
        intro empty
        rw [empty] at mortal
        exact absurd mortal (by simp [Settings.isMortal, Ascent.isMortal])
    · exact formed.label_ne_empty _ _
  refine .bind (generateStats_measured s.player named _) fun stats generated => .pure ?_
  obtain ⟨rfl, measured⟩ := generated
  exact withStats_inMeasure measured

end Person

/-- Whoever has come about in play where stats are kept is in measure. -/
theorem Person.Arises.inMeasure {world : Settings} (kept : world.enableStats = true)
    (formed : world.WellFormed) {stage : Stage} {p : Person} (arises : p.Arises world stage)
    (done : stage = .kept) : p.InMeasure world := by
  induction arises with
  | unknown => cases done
  | again => cases done
  | told => cases done
  | @drawn p q s supply rest _ settings run _ =>
      subst settings
      exact refreshStats_inMeasure p kept formed supply q rest run
  | liked _ start asked ih => exact (ih done).giving rfl rfl rfl
  | changed _ keys tierless params ih =>
      refine putAll_inMeasure (ih rfl) fun x member isTier => tierless ?_
      exact isTier ▸ (of_mem_pickFields member).1
  | remembers _ _ _ ih => exact (ih rfl).giving rfl rfl rfl
  | feels _ _ _ ih => exact (ih rfl).giving rfl rfl rfl
  | joins _ ih => exact (ih rfl).giving rfl rfl rfl
  | captured _ ih => exact (ih rfl).giving rfl rfl rfl
  | killed _ ih => exact (ih rfl).giving rfl rfl rfl
  | merged _ _ _ later => exact overlay_inMeasure (later rfl)
  | restored _ ih => exact legalize_inMeasure (ih rfl)
  | turned _ turn ih => exact turn_inMeasure (ih rfl) turn

/-- Everybody's stats are well formed. In every reached state of a world that keeps stats, everybody
in every circle has stats of just the tier that the person is said to have, and they are in measure.
-/
theorem measured_of_reachable {s : GameState} (reached : Reachable s)
    (kept : s.settings.enableStats = true) (formed : s.settings.WellFormed) (circle : Circle) :
    ∀ p ∈ s.people circle, p.Measured s.settings :=
  fun p member => ((reached.arises circle p member).inMeasure kept formed rfl).measured

/-- A boss of a higher tier who is met, and then taken prisoner. -/
theorem measured_of_reachable_captive :
    let meet : Command := ⟨"NPC_NEW",
      [("name", "Mo"), ("realm", "golden core"), ("tags", "Boss, elder")]⟩
    let fight : Command := ⟨"COMBAT_END", [("outcome", "victory"), ("dispositions", "mo: capture")]⟩
    let base : Attributes Int := ⟨100, 50, 10, 5, 10, 1000⟩
    let drawn : Attributes Int := ⟨975, 325, 39, 20, 32, 23500⟩
    let mo : Person := {
      id := "id-1", name := "Mo", tags := ["Boss", "elder"]
      tier := some "Golden Core Layer 1"
      stats := some {
        tier := "Golden Core Layer 1"
        vitality := 975, resource := 325, current := drawn, base := drawn }
      given := [.name, .tier, .tags, .stats] }
    let s : GameState := {
      player := { tier := "Qi Refining Layer 1", current := base, base := base }
      playerName := "Lin"
      location := "Hall" }
    let t : GameState := { s with cast := { encountered := [mo] } }
    let u : GameState := { s with cast := { prisoners := [mo.captured] } }
    Reachable s ∧ Event.Leads (.command meet) s t ∧ Event.Leads (.command fight) t u ∧
      u.settings.enableStats = true ∧ u.settings.WellFormed ∧ mo.captured ∈ u.people .prisoners ∧
      mo.captured.Measured u.settings := by
  intro meet fight base drawn mo s t u
  have start : GameState.begin "Lin" {} none "Hall" = .ok s :=
    eq_ok_of_toOption (by decide +kernel)
  have begun : Reachable s := .begin start
  have met : Event.Leads (.command meet) s t := Event.leads_of_state {} (by decide +kernel)
  have fought : Event.Leads (.command fight) t u := Event.leads_of_state {} (by decide +kernel)
  have formed : u.settings.WellFormed := Settings.wellFormed_of_standard rfl
  have there : mo.captured ∈ u.people .prisoners := List.mem_singleton.mpr rfl
  exact ⟨begun, met, fought, rfl, formed, there,
    measured_of_reachable ((begun.step met).step fought) rfl formed .prisoners _ there⟩

end Ascent
