import Ascent.Proofs.Bottleneck
import Ascent.Proofs.Lasting
import Ascent.Proofs.Legality

/-!
Where no stats are kept, the player stands still.

Commands that would move the player on the ladder ask first whether stats are kept, and so does a
gain of experience. All that others do to the player's stats is to compute the current ones afresh,
which moves neither tier nor phase nor base. Only the result of a fight is taken up without asking:
it decides a trial that was begun before.

Main exports: `StatBlock.Frozen`, `GameState.Still`, `rule_still`, `frozen_iff_untried`,
`ascends_without_stats`.
-/

namespace Ascent

open Text

/-! ### Stats that stand still -/

/-- Both stand at the same tier, in the same phase, with the same base. -/
structure StatBlock.Frozen (s t : StatBlock) : Prop extends s.SamePlace t where
  base : t.base = s.base

namespace StatBlock.Frozen

variable {s t u : StatBlock}

theorem refl (s : StatBlock) : s.Frozen s := ⟨.refl s, rfl⟩

theorem trans (h : s.Frozen t) (k : t.Frozen u) : s.Frozen u :=
  ⟨h.toSamePlace.trans k.toSamePlace, k.base.trans h.base⟩

theorem of_refresh {items : List Item} (h : s.refresh items = .ok t) : s.Frozen t :=
  ⟨samePlace_of_refresh h, congrArg Marks.base (marks_of_refresh h)⟩

end StatBlock.Frozen

/-- A part of a run under unchanged settings, over which the player's stats stand still. -/
structure GameState.Still (s t : GameState) : Prop where
  settings : t.settings = s.settings
  player : s.player.Frozen t.player

namespace GameState.Still

variable {s t u : GameState}

theorem refl (s : GameState) : s.Still s := ⟨rfl, .refl _⟩

theorem trans (h : s.Still t) (k : t.Still u) : s.Still u :=
  ⟨k.settings.trans h.settings, h.player.trans k.player⟩

theorem of_sameHero (h : s.SameHero t) : s.Still t := by
  refine ⟨h.settings, ?_⟩
  rw [h.player]
  exact .refl _

/-- Restoring does not move the player from a place that was legal. -/
theorem legalize (h : s.Still t) (legal : s.Legal) : s.Still t.legalize := by
  have fits : (t.player.atPeak && !(t.settings.resolve t.player.tier).isLastMinor) = false := by
    rw [h.settings, h.player.tier, h.player.atPeak]
    cases peak : s.player.atPeak with
    | false => rfl
    | true => simp [legal.player.peak peak]
  have place : t.player.Frozen t.legalize.player := by
    refine ⟨⟨rfl, ?_, ?_⟩, rfl⟩ <;> simp [GameState.legalize, StatBlock.legalize, fits]
  exact ⟨h.settings, h.player.trans place⟩

end GameState.Still

open GameState

/-! ### What leaves the player in place -/

section

variable {s t : GameState} {effect : Effect}

theorem withInventory_still {worn : Bool} {inventory : List Item}
    (h : s.withInventory worn inventory = .ok t) : s.Still t := by
  obtain ⟨player, rfl, refreshed | ⟨-, rfl⟩⟩ := withInventory_eq_ok h
  · exact ⟨rfl, .of_refresh refreshed⟩
  · exact ⟨rfl, .refl _⟩

theorem withStatus_still {effects : List StatusEffect} (h : s.withStatus effects = .ok t) :
    s.Still t := by
  obtain ⟨player, refreshed, h⟩ := exists_of_bind_eq_ok h
  cases h
  have place : s.player.Frozen { s.player with statusEffects := effects } := ⟨⟨rfl, rfl, rfl⟩, rfl⟩
  exact ⟨rfl, place.trans (.of_refresh refreshed)⟩

theorem tickStatus_still {ended : List String} (h : s.tickStatus = .ok (t, ended)) :
    s.Still t := by
  obtain ⟨player, rfl, rfl | refreshed⟩ := tickStatus_eq_ok h
  · exact ⟨rfl, ⟨⟨rfl, rfl, rfl⟩, rfl⟩⟩
  · have place : s.player.Frozen s.player.outlast := ⟨⟨rfl, rfl, rfl⟩, rfl⟩
    exact ⟨rfl, place.trans (.of_refresh refreshed)⟩

/-! ### What moves the player where stats are kept -/

theorem addPermanent_frozen {s : StatBlock} {a : Attribute} {delta : Int} {items : List Item}
    {change : StatChange} (h : addPermanent s a delta items = .ok change) :
    s.Frozen change.stats := by
  obtain ⟨bonus, _, h⟩ := exists_of_bind_eq_ok h
  obtain ⟨updated, refreshed, h⟩ := exists_of_bind_eq_ok h
  cases h
  have place : s.Frozen { s with permanentBonuses := s.permanentBonuses.put a.key bonus } :=
    ⟨⟨rfl, rfl, rfl⟩, rfl⟩
  exact place.trans (.of_refresh refreshed)

/-- A change of stats moves nobody where no stats are kept: experience is added without a climb. -/
theorem StatBlock.Changes.frozen {s : StatBlock} {key : StatKey} {op : StatOperation} {delta : Int}
    {settings : Settings} {items : List Item} {change : StatChange}
    (off : settings.enableStats = false) (h : s.Changes delta settings items key op change) :
    s.Frozen change.stats := by
  cases h with
  | lasting _ added => exact addPermanent_frozen added
  | climbed kept => exact absurd off (by rw [kept]; decide)
  | rest => exact .refl s
  | vitality | resource | currency | gained => exact ⟨⟨rfl, rfl, rfl⟩, rfl⟩

/-- Where no stats are kept, what the player feels leaves the player in place, if it is not the end
of a fight. -/
theorem GameState.Deed.still {params : Params} {tag : String} (other : tag ≠ "COMBAT_END")
    (off : s.settings.enableStats = false) (h : s.Deed params tag t) : s.Still t := by
  cases h with
  | rest => exact .refl s
  | grown _ _ stored => exact withInventory_still stored
  | begun => exact ⟨rfl, .refl _⟩
  | lessened _ _ stored => exact withInventory_still stored
  | lost _ stored => exact withInventory_still stored
  | worn _ stored => exact withInventory_still stored
  | changed changed =>
      refine ⟨rfl, ?_⟩
      rcases changeStat_eq_ok changed with rfl | ⟨key, op, delta, -, -, changes⟩
      · exact .refl _
      · exact changes.frozen off
  | acquired _ stored => exact withStatus_still stored
  | ended _ stored => exact withStatus_still stored
  | esteemed => exact ⟨rfl, .refl _⟩
  | tried kept => exact absurd off (by rw [kept]; decide)
  | settled kept => exact absurd off (by rw [kept]; decide)
  | provoked => exact ⟨rfl, ⟨⟨rfl, rfl, rfl⟩, rfl⟩⟩
  | fought => exact absurd rfl other

/-! ### Results of fights -/

theorem takeStock_still {r : CombatResult} (h : (s.fought r).takeStock r = .ok t) :
    s.Still t := by
  have left : s.Still { s with pendingCombat := none, player := s.player.afterFight r } :=
    ⟨rfl, ⟨⟨rfl, rfl, rfl⟩, rfl⟩⟩
  have fought : s.Still (s.fought r) := left.trans (.of_sameHero (fought_sameHero s r))
  unfold GameState.takeStock at h
  split at h
  · cases h
    exact fought
  · obtain ⟨player, refreshed, h⟩ := exists_of_bind_eq_ok h
    cases h
    exact fought.trans ⟨rfl, .of_refresh refreshed⟩

/-- A fight that decides no trial leaves the player in place. -/
theorem applyCombatResult_still {r : CombatResult}
    (undecided : ¬ (s.player.inTribulation = true ∧ r.outcome ≠ .escaped))
    (h : applyCombatResult s r = .ok effect) : s.Still effect.state := by
  rw [applyCombatResult_eq] at h
  obtain ⟨settled, taken, h⟩ := exists_of_bind_eq_ok h
  have still := takeStock_still taken
  unfold GameState.concludeFight at h
  dsimp only at h
  split at h
  · next decides =>
      refine absurd ⟨?_, decides.2⟩ undecided
      rw [← still.player.inTribulation]
      exact StatBlock.phase_eq_inTribulation_iff.mp decides.1
  · cases h
    exact still

theorem demote_released {s : StatBlock} {settings : Settings} {items : List Item} {fall : Climb}
    (h : demote s settings items = .ok fall) : fall.stats.inTribulation = false := by
  obtain ⟨fallen, retiered, h⟩ := exists_of_bind_eq_ok h
  obtain ⟨hurt, refreshed, h⟩ := exists_of_bind_eq_ok h
  cases h
  have released : fallen.inTribulation = false :=
    (StatBlock.samePlace_of_retier retiered).inTribulation
  exact (StatBlock.samePlace_of_refresh refreshed).inTribulation.trans released

/-- However a breakthrough ends, the trial is over. -/
theorem resolveBreakthrough_released {s : StatBlock} {success : Bool} {settings : Settings}
    {items : List Item} {result : Climb} (trying : s.inTribulation = true)
    (h : resolveBreakthrough s success settings items (.ofFormula settings items) = .ok result) :
    result.stats.inTribulation = false := by
  have trial : s.phase = .inTribulation := StatBlock.phase_eq_inTribulation_iff.mpr trying
  cases resolveBreakthrough_resolves h with
  | rest normal => exact absurd (trial.symm.trans normal) (by decide)
  | top _ _ stats => rw [stats]
  | ascent _ _ rebased => exact (StatBlock.samePlace_of_rebase rebased).inTribulation
  | fall _ fell => exact demote_released fell

/-- A fight that the player did not get away from ends the trial, whether stats are kept or not. -/
theorem applyCombatResult_released {r : CombatResult} (trying : s.player.inTribulation = true)
    (stayed : r.outcome ≠ .escaped) (h : applyCombatResult s r = .ok effect) :
    effect.state.player.inTribulation = false := by
  rw [applyCombatResult_eq] at h
  obtain ⟨settled, taken, h⟩ := exists_of_bind_eq_ok h
  have still := takeStock_still taken
  have trying : settled.player.inTribulation = true := still.player.inTribulation.trans trying
  unfold GameState.concludeFight at h
  dsimp only at h
  rw [if_pos ⟨StatBlock.phase_eq_inTribulation_iff.mpr trying, stayed⟩] at h
  obtain ⟨trial, ended, h⟩ := exists_of_bind_eq_ok h
  obtain ⟨climb, resolved, ended⟩ := exists_of_bind_eq_ok ended
  cases h
  cases ended
  exact resolveBreakthrough_released trying resolved

end

/-! ### Steps -/

/-- Where no stats are kept, every rule but the end of a fight leaves the player in place. -/
theorem rule_still {s : GameState} {params : Params} {r : CommandRule} (member : r ∈ Registry.rules)
    (other : upper r.tag ≠ "COMBAT_END") (off : s.settings.enableStats = false) :
    (r.run s params).Ensures fun e => s.Still e.state := by
  rcases Registry.bystander_or_deed member with aside | deed
  · exact (Registry.sameHero_of_bystander aside s params).mono fun _ same => .of_sameHero same
  · exact (Registry.deed_of_rule deed s params).mono fun _ done => done.still other off

/-- A step that tells of no fight leaves the player in place where no stats are kept. -/
theorem Event.Leads.still {event : Event} {s t : GameState} (leads : event.Leads s t)
    (legal : s.Legal) (off : s.settings.enableStats = false) (untold : ∀ r, ¬ event.Tells r) :
    s.Still t := by
  cases leads with
  | @command c _ _ _ _ run =>
      apply dispatch_keeps_untold (P := s.Still) run untold (.refl s)
      · intro r member other _ _
        exact rule_still member other off
      · intro u still
        exact still.legalize legal
  | turnEnd run =>
      obtain ⟨ticked, ended, cast, news, ticking, -, -, rfl⟩ := endTurn_eq_ok run
      have turned := GameState.SameHero.turned ticked cast (ticked.turn + 1)
      have still := (tickStatus_still ticking).trans (.of_sameHero turned)
      exact still.legalize legal
  | @fight r _ _ _ _ => exact absurd rfl (untold r)

/-- Where no stats are kept, a step of any kind leaves the player's tier, phase and base as they are,
unless it tells of a fight that the player did not get away from while in a trial; and such a step
never does. -/
theorem frozen_iff_untried {event : Event} {s t : GameState} (legal : s.legalize = s)
    (off : s.settings.enableStats = false) (leads : event.Leads s t) :
    s.player.Frozen t.player ↔
      ¬ (s.player.inTribulation = true ∧ ∃ r, event.Tells r ∧ r.outcome ≠ .escaped) := by
  have legal : s.Legal := legal ▸ legalize_legal s
  constructor
  · rintro frozen ⟨trying, r, tells, stayed⟩
    obtain ⟨effect, done, rfl⟩ := leads.told tells
    have released := applyCombatResult_released trying stayed done
    have ended : effect.state.legalize.player.inTribulation = false := by
      simp [GameState.legalize, StatBlock.legalize, released]
    rw [frozen.inTribulation, trying] at ended
    cases ended
  · intro untried
    by_cases told : ∃ r, event.Tells r
    · obtain ⟨r, tells⟩ := told
      obtain ⟨effect, done, rfl⟩ := leads.told tells
      have undecided : ¬ (s.player.inTribulation = true ∧ r.outcome ≠ .escaped) :=
        fun trial => untried ⟨trial.1, r, tells, trial.2⟩
      exact ((applyCombatResult_still undecided done).legalize legal).player
    · exact (leads.still legal off (not_exists.mp told)).player

/-- Who gets away from a fight amid a trial stays in it. -/
theorem frozen_iff_untried_escaped :
    let c : Command := ⟨"combat_end", [("outcome", some "Escaped"), ("finalVitality", some "7")]⟩
    let s : GameState := {
      player := { tier := "Qi Refining Layer 9", atPeak := true, inTribulation := true }
      settings := { enableStats := false } }
    let t : GameState := { s with player := { s.player with vitality := 7 } }
    s.legalize = s ∧ s.settings.enableStats = false ∧ Event.Leads (.command c) s t ∧
      s.player.inTribulation = true ∧ s.player.Frozen t.player := by
  intro c s t
  have legal : s.legalize = s := by decide +kernel
  have leads : Event.Leads (.command c) s t := Event.leads_of_state {} (by decide +kernel)
  refine ⟨legal, rfl, leads, rfl, (frozen_iff_untried legal rfl leads).mpr ?_⟩
  rintro ⟨-, r, ⟨-, told⟩, stayed⟩
  have escaped : (combatResultOf? c.params).map (·.outcome) = some .escaped := by decide +kernel
  rw [told] at escaped
  exact stayed (Option.some.inj escaped)

/-- A fight that is won amid a trial leads to the next major tier, although no stats are kept. -/
theorem ascends_without_stats :
    let c : Command := ⟨"COMBAT_END", [("outcome", some "victory")]⟩
    let s : GameState := {
      player := { tier := "Qi Refining Layer 9", atPeak := true, inTribulation := true }
      settings := { enableStats := false } }
    s.legalize = s ∧ s.settings.enableStats = false ∧
      ∃ t, Event.Leads (.command c) s t ∧ t.player.tier = "Foundation Establishment Layer 1" ∧
        ¬ s.player.Frozen t.player := by
  intro c s
  have legal : s.legalize = s := by decide +kernel
  let next : Attributes Int := ⟨500, 250, 50, 25, 50, 5000⟩
  let t : GameState := { s with player := {
    tier := "Foundation Establishment Layer 1", current := next, base := next
    vitality := 500, resource := 250 } }
  have leads : Event.Leads (.command c) s t := Event.leads_of_state {} (by decide +kernel)
  refine ⟨legal, rfl, t, leads, rfl, fun frozen => ?_⟩
  exact absurd frozen.tier (by decide)

end Ascent
