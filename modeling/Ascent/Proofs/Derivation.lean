import Ascent.Proofs.Branches

/-!
Current attributes as a function of what they are derived from.

`StatBlock.measure` computes the current attributes alone; refreshing puts them in place and keeps
the pools within them. What is measured depends on the base, lasting bonuses, the modifiers of
status effects and the equipped items and on nothing else, so stats that were just refreshed are in
sync, and they stay so under a change of anything else.

Main exports: `StatBlock.measure`, `StatBlock.InSync`, `refresh_eq_self_iff`, `inSync_of_refresh`,
`checkLevel_inSync`, `resolveBreakthrough_inSync`.
-/

namespace Ascent

namespace StatBlock

/-! ### Measuring -/

/-- The current attributes that the stats have with these items. -/
def measure (s : StatBlock) (items : List Item) : Except Fault (Attributes Int) := do
  let values ← s.derive items
  Attributes.ofFnM fun a =>
    return max (currentMinimums.get a) (← (values.get a).roundEven)

theorem refresh_eq_map (s : StatBlock) (items : List Item) :
    s.refresh items = (s.measure items).map s.withCurrent := by
  unfold refresh measure
  cases s.derive items with
  | error e => rfl
  | ok values => rfl

/-- What the current attributes are derived from, the items aside. -/
def sources (s : StatBlock) : Attributes Int × Pairs Bonus × List (Pairs String) :=
  (s.base, s.permanentBonuses, s.statusEffects.map (·.modifiers))

/-- Stats of the same sources measure the same, whichever items are carried unworn. -/
theorem measure_congr {s t : StatBlock} {items items' : List Item} (same : s.sources = t.sources)
    (worn : items.filter (·.equipped) = items'.filter (·.equipped)) :
    s.measure items = t.measure items' := by
  simp only [sources, Prod.mk.injEq] at same
  obtain ⟨base, bonuses, effects⟩ := same
  have status (values : Attributes Double) :
      s.statusEffects.foldl (fun values e => modify values e.modifiers) values =
        t.statusEffects.foldl (fun values e => modify values e.modifiers) values := by
    have fold (l : List StatusEffect) :
        l.foldl (fun values e => modify values e.modifiers) values =
          (l.map (·.modifiers)).foldl modify values := by
      rw [List.foldl_map]
    rw [fold, fold, effects]
  simp only [measure, derive, base, bonuses, worn, status]

theorem minimum_le_of_measure {s : StatBlock} {items : List Item} {vs : Attributes Int}
    (h : s.measure items = .ok vs) (a : Attribute) : currentMinimums.get a ≤ vs.get a := by
  obtain ⟨values, _, h⟩ := exists_of_bind_eq_ok h
  obtain ⟨n, _, h⟩ := exists_of_bind_eq_ok (Attributes.ofFnM_eq_ok.mp h a)
  rw [← Except.ok.inj h]
  exact Int.le_max_left _ _

/-! ### Being in sync -/

/-- The current attributes are those that are measured, the pools lie within them, and experience is
not negative. -/
structure InSync (s : StatBlock) (items : List Item) : Prop where
  measured : s.measure items = .ok s.current
  vitality : 0 ≤ s.vitality ∧ s.vitality ≤ s.current.maxVitality
  resource : 0 ≤ s.resource ∧ s.resource ≤ s.current.maxResource
  experience : 0 ≤ s.experience

theorem sources_withCurrent (s : StatBlock) (vs : Attributes Int) :
    (s.withCurrent vs).sources = s.sources := rfl

theorem withCurrent_inSync {s : StatBlock} {items : List Item} {vs : Attributes Int}
    (h : s.measure items = .ok vs) : (s.withCurrent vs).InSync items := by
  have vitality : 10 ≤ vs.maxVitality := minimum_le_of_measure h .maxVitality
  have resource : 0 ≤ vs.maxResource := minimum_le_of_measure h .maxResource
  refine ⟨?_, ?_, ?_, ?_⟩
  · rw [measure_congr (sources_withCurrent s vs) rfl, h]
    rfl
  all_goals
    dsimp only [withCurrent, clampPool]
    omega

/-- Refreshed stats are in sync. -/
theorem inSync_of_refresh {s t : StatBlock} {items : List Item} (h : s.refresh items = .ok t) :
    t.InSync items := by
  rw [refresh_eq_map] at h
  obtain ⟨current, measured, rfl⟩ := exists_of_map_eq_ok h
  exact withCurrent_inSync measured

/-- Stats are in sync just where refreshing them gives them back. -/
theorem refresh_eq_self_iff {s : StatBlock} {items : List Item} :
    s.refresh items = .ok s ↔ s.InSync items := by
  constructor
  · exact inSync_of_refresh
  · intro h
    rw [refresh_eq_map]
    have vitality := h.vitality
    have resource := h.resource
    have experience := h.experience
    rw [h.measured]
    simp only [Except.map, withCurrent, clampPool, Int.min_eq_left vitality.2,
      Int.max_eq_right vitality.1, Int.min_eq_left resource.2, Int.max_eq_right resource.1,
      Int.max_eq_right experience]

namespace InSync

variable {s t : StatBlock} {items items' : List Item}

theorem maxVitality (h : s.InSync items) : 10 ≤ s.current.maxVitality :=
  minimum_le_of_measure h.measured .maxVitality

theorem maxResource (h : s.InSync items) : 0 ≤ s.current.maxResource :=
  minimum_le_of_measure h.measured .maxResource

theorem experienceToNext (h : s.InSync items) : 10 ≤ s.current.experienceToNext :=
  minimum_le_of_measure h.measured .experienceToNext

/-- What is neither measured nor bounded may change. -/
theorem of_same (h : s.InSync items) (sources : t.sources = s.sources)
    (current : t.current = s.current)
    (worn : items'.filter (·.equipped) = items.filter (·.equipped))
    (vitality : 0 ≤ t.vitality ∧ t.vitality ≤ s.current.maxVitality)
    (resource : 0 ≤ t.resource ∧ t.resource ≤ s.current.maxResource)
    (experience : 0 ≤ t.experience) : t.InSync items' where
  measured := by rw [measure_congr sources worn, current, h.measured]
  vitality := current ▸ vitality
  resource := current ▸ resource
  experience := experience

/-- A change of experience, flags or counters. -/
theorem of_same_pools (h : s.InSync items) (sources : t.sources = s.sources)
    (current : t.current = s.current) (vitality : t.vitality = s.vitality)
    (resource : t.resource = s.resource) (experience : 0 ≤ t.experience) : t.InSync items :=
  h.of_same sources current rfl (vitality ▸ h.vitality) (resource ▸ h.resource) experience

/-- A change of what is carried unworn. -/
theorem of_same_worn (h : s.InSync items)
    (worn : items'.filter (·.equipped) = items.filter (·.equipped)) : s.InSync items' :=
  h.of_same rfl rfl worn h.vitality h.resource h.experience

theorem refill (h : s.InSync items) : s.refill.InSync items := by
  have vitality := h.maxVitality
  have resource := h.maxResource
  exact h.of_same rfl rfl rfl ⟨by simp only [StatBlock.refill]; omega, Int.le_refl _⟩
    ⟨resource, Int.le_refl _⟩ h.experience

end InSync

/-! ### Moving to a tier -/

theorem retier_inSync {s t : StatBlock} {label : String} {settings : Settings} {items : List Item}
    (h : s.retier label settings items = .ok t) : t.InSync items := by
  obtain ⟨_, _, h⟩ := exists_of_bind_eq_ok h
  exact inSync_of_refresh h

theorem rebase_inSync {s t : StatBlock} {label : String} {settings : Settings} {items : List Item}
    (h : s.rebase label settings items = .ok t) : t.InSync items := by
  obtain ⟨moved, retiered, h⟩ := exists_of_bind_eq_ok h
  rw [← Except.ok.inj h]
  exact (retier_inSync retiered).refill

end StatBlock

/-! ### Climbing and breaking through -/

section

variable {settings : Settings} {items : List Item}

theorem climbMinors_inSync {steps : Nat} {rung : Rung} {c result : Climb}
    (sync : c.stats.InSync items)
    (h : climbMinors settings (.ofFormula settings items) steps rung c = .ok result) :
    result.stats.InSync items := by
  induction steps generalizing rung c with
  | zero => exact Except.ok.inj h ▸ sync
  | succ steps ih =>
      cases climbMinors_rises h with
      | short => exact sync
      | peak =>
          have needed := sync.experienceToNext
          exact sync.of_same_pools rfl rfl rfl rfl (by dsimp only; omega)
      | @next moved _ _ _ rebased later =>
          have movedSync : moved.InSync items := StatBlock.rebase_inSync rebased
          exact ih movedSync later

theorem checkLevel_inSync {s : StatBlock} {result : Climb} (sync : s.InSync items)
    (h : checkLevel s settings (.ofFormula settings items) = .ok result) :
    result.stats.InSync items := by
  rcases checkLevel_eq_ok h with rfl | ⟨-, -, climbs⟩
  · have needed := sync.experienceToNext
    exact sync.of_same_pools rfl rfl rfl rfl (by dsimp only; omega)
  · exact climbMinors_inSync (c := { stats := s }) sync climbs

theorem beginBreakthrough_inSync {s : StatBlock} (sync : s.InSync items) :
    (beginBreakthrough s).stats.InSync items := by
  unfold beginBreakthrough
  split
  · exact sync.of_same_pools rfl rfl rfl rfl sync.experience
  · exact sync

theorem demote_inSync {s : StatBlock} {result : Climb} (h : demote s settings items = .ok result) :
    result.stats.InSync items := by
  obtain ⟨fallen, _, h⟩ := exists_of_bind_eq_ok h
  obtain ⟨hurt, refreshed, h⟩ := exists_of_bind_eq_ok h
  rw [← Except.ok.inj h]
  exact StatBlock.inSync_of_refresh refreshed

theorem resolveBreakthrough_inSync {s : StatBlock} {success : Bool} {result : Climb}
    (sync : s.InSync items)
    (h : resolveBreakthrough s success settings items (.ofFormula settings items) = .ok result) :
    result.stats.InSync items := by
  cases resolveBreakthrough_resolves h with
  | rest => exact sync
  | top _ _ stats =>
      have needed := sync.experienceToNext
      rw [stats]
      exact sync.of_same_pools rfl rfl rfl rfl (by dsimp only; omega)
  | ascent _ _ rebased => exact StatBlock.rebase_inSync rebased
  | fall _ fell => exact demote_inSync fell

end
end Ascent
