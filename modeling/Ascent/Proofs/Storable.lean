import Ascent.Proofs.Aside
import Ascent.Proofs.Populace
import Ascent.Proofs.Saving

/-!
Every state of a run may be saved and loaded again.

Play keeps to what a record may hold: bonuses and modifiers stand under names of their own, numbers
are finite, and reputation, affinity and percentages stay within their bounds. What it does not
bound is the number of digits of an integer, and a reader refuses integers with too many of them.

Main exports: `GameState.Grown`, `Reachable.grown`, `Reachable.wellFormed`.
-/

namespace Ascent

open Text

/-- A state as play makes one, people aside. -/
structure GameState.Grown (s : GameState) : Prop where
  player : s.player.marks.Grown
  inventory : ∀ i ∈ s.inventory, (i.statBonuses.map Prod.fst).Nodup
  reputation : -100 ≤ s.reputation ∧ s.reputation ≤ 100

/-! ### The start -/

theorem begin_grown {playerName : String} {settings : Settings} {tier : Option String}
    {location : String} {s : GameState}
    (h : GameState.begin playerName settings tier location = .ok s) : s.Grown := by
  have unmarked (label : String) : StatBlock.marks { tier := label } =
      ⟨⟨100, 50, 10, 5, 10, 100⟩, [], []⟩ := rfl
  have fresh (label : String) : (StatBlock.marks { tier := label }).Grown := by
    rw [unmarked]
    refine ⟨fun a => Double.whole_of_small ?_, by simp, by simp, by simp⟩
    cases a <;> decide
  have standing : (-100 : Int) ≤ 0 ∧ (0 : Int) ≤ 100 := by decide
  obtain ⟨label, player, rfl, rebased | rfl⟩ := begin_eq_ok h
  · exact ⟨rebase_grown (fresh label) rebased, by simp, standing⟩
  · exact ⟨fresh label, by simp, standing⟩

/-! ### Modifiers -/

/-- Bounded modifiers stand under names of their own. -/
theorem boundModifiers_nodup (raw : Pairs (Option Modifier)) (player : StatBlock) :
    ((boundModifiers raw player).map Prod.fst).Nodup := by
  unfold boundModifiers
  refine List.foldlRecOn raw _ (motive := fun kept : Pairs String => (kept.map Prod.fst).Nodup)
    List.nodup_nil ?_
  intro kept nodup first _
  dsimp only
  split
  · exact Pairs.nodup_put nodup _ _
  · exact nodup

theorem boundedModifiers_nodup {params : Params} {heads : List String} {packed : String}
    {player : StatBlock} {kept : Pairs String}
    (h : boundedModifiers params heads packed player = .ok kept) : (kept.map Prod.fst).Nodup := by
  obtain ⟨raw, _, h⟩ := exists_of_bind_eq_ok h
  rw [← Except.ok.inj h]
  exact boundModifiers_nodup _ player

/-! ### What the player feels -/

section

variable {s t : GameState} {params : Params} {effect : Effect}

theorem withPlayer_grown (h : s.Grown) {player : StatBlock} (grown : player.marks.Grown) :
    GameState.Grown { s with player := player } := ⟨grown, h.inventory, h.reputation⟩

theorem withInventory_grown {worn : Bool} {inventory : List Item} (h : s.Grown)
    (named : ∀ i ∈ inventory, (i.statBonuses.map Prod.fst).Nodup)
    (stored : s.withInventory worn inventory = .ok t) : t.Grown := by
  obtain ⟨player, rfl, refreshed | ⟨-, rfl⟩⟩ := withInventory_eq_ok stored
  · refine ⟨?_, named, h.reputation⟩
    rw [StatBlock.marks_of_refresh refreshed]
    exact h.player
  · exact ⟨h.player, named, h.reputation⟩

theorem named_set {items : List Item} {item : Item}
    (named : ∀ i ∈ items, (i.statBonuses.map Prod.fst).Nodup)
    (new : (item.statBonuses.map Prod.fst).Nodup) (place : Nat) :
    ∀ i ∈ items.set place item, (i.statBonuses.map Prod.fst).Nodup := by
  intro i member
  rcases List.mem_or_eq_of_mem_set member with old | rfl
  · exact named i old
  · exact new

theorem gained_grown {i : Item} {bonuses : Pairs String} {worth : Int}
    (bounded : boundedModifiers params ["bonus.", "stat.", "stats."] "statbonuses" s.player =
      .ok bonuses) (before : (i.statBonuses.map Prod.fst).Nodup) :
    ((s.gained params i bonuses worth).statBonuses.map Prod.fst).Nodup := by
  rw [GameState.gained_statBonuses]
  split
  · exact before
  · exact boundedModifiers_nodup bounded

theorem withStatus_grown {effects : List StatusEffect} (h : s.Grown)
    (formed : ∀ e ∈ effects, e.WellFormed) (stored : s.withStatus effects = .ok t) : t.Grown := by
  obtain ⟨player, refreshed, stored⟩ := exists_of_bind_eq_ok stored
  rw [← Except.ok.inj stored]
  refine withPlayer_grown h ?_
  rw [StatBlock.marks_of_refresh refreshed]
  exact ⟨h.player.base, h.player.names, h.player.bonuses, formed⟩

theorem statusOf_wellFormed {player : StatBlock} {status : StatusEffect}
    (described : statusOf player params = .ok status) : status.WellFormed := by
  obtain ⟨modifiers, bounded, described⟩ := exists_of_bind_eq_ok described
  obtain ⟨_, _, described⟩ := exists_of_bind_eq_ok described
  obtain ⟨_, _, described⟩ := exists_of_bind_eq_ok described
  rw [← Except.ok.inj described]
  exact boundedModifiers_nodup bounded

theorem settleTrial_grown {success : Bool} (h : s.Grown)
    (done : settleTrial s success = .ok effect) : effect.state.Grown := by
  obtain ⟨climb, resolved, done⟩ := exists_of_bind_eq_ok done
  rw [← Except.ok.inj done]
  exact withPlayer_grown h (resolveBreakthrough_grown h.player resolved)

/-! ### Fights and turns -/

theorem afterFight_marks (player : StatBlock) (r : CombatResult) :
    (player.afterFight r).marks = player.marks := rfl

theorem fought_grown (h : s.Grown) (r : CombatResult) : (s.fought r).Grown := by
  have same := fought_sameHero s r
  refine ⟨?_, ?_, ?_⟩
  · rw [same.player]
    exact afterFight_marks s.player r ▸ h.player
  · rw [same.inventory]
    exact h.inventory
  · rw [same.reputation]
    exact h.reputation

theorem applyCombatResult_grown {r : CombatResult} (h : s.Grown) (formed : r.WellFormed)
    (done : applyCombatResult s r = .ok effect) : effect.state.Grown := by
  obtain ⟨settled, inventory, trial⟩ := applyCombatResult_eq_ok done
  have after := fought_grown h r
  have settledGrown : settled.Grown := by
    rcases inventory with ⟨_, rfl⟩ | ⟨items, player, given, refreshed, rfl⟩
    · exact after
    · refine ⟨?_, fun i member => (formed items given i member).bonuses, after.reputation⟩
      rw [StatBlock.marks_of_refresh refreshed]
      exact after.player
  rcases trial with kept | ⟨_, _, trial, ended, decided⟩
  · exact kept ▸ settledGrown
  · exact decided ▸ settleTrial_grown settledGrown ended

/-- Whatever the player feels, the state is one that a record may hold. -/
theorem GameState.Deed.grows {tag : String} (h : s.Grown) (done : s.Deed params tag t) :
    t.Grown := by
  cases done with
  | rest => exact h
  | @grown place known _ _ _ found bounded stored =>
      have named := h.inventory known (mem_of_findNamed? found)
      exact withInventory_grown h (named_set h.inventory (gained_grown bounded named) place) stored
  | begun _ bounded =>
      refine ⟨h.player, fun i member => ?_, h.reputation⟩
      rcases List.mem_append.mp member with old | new
      · exact h.inventory i old
      · rw [List.mem_singleton.mp new]
        exact gained_grown bounded List.nodup_nil
  | @lessened place item _ found _ stored =>
      have named := h.inventory item (mem_of_findNamed? found)
      refine withInventory_grown h (named_set h.inventory ?_ place) stored
      exact named
  | lost _ stored =>
      exact withInventory_grown h (fun i member => h.inventory i (List.mem_of_mem_eraseIdx member))
        stored
  | @worn _ place item _ found stored =>
      have named := h.inventory item (mem_of_findNamed? found)
      refine withInventory_grown h (named_set h.inventory ?_ place) stored
      exact named
  | changed changed => exact withPlayer_grown h (changeStat_grown h.player changed)
  | acquired described stored =>
      refine withStatus_grown h (fun e member => ?_) stored
      rcases List.mem_append.mp member with old | new
      · exact h.player.effects e (List.mem_filter.mp old).1
      · rw [List.mem_singleton.mp new]
        exact statusOf_wellFormed described
  | ended _ stored =>
      exact withStatus_grown h (fun e member =>
        h.player.effects e (List.mem_of_mem_eraseIdx member)) stored
  | esteemed delta =>
      refine ⟨h.player, h.inventory, ?_⟩
      dsimp only [moveReputation, boundReputation]
      omega
  | tried =>
      refine withPlayer_grown h ?_
      rw [beginBreakthrough_marks]
      exact h.player
  | settled _ settled => exact settleTrial_grown h settled
  | provoked => exact ⟨h.player, h.inventory, h.reputation⟩
  | fought told done => exact applyCombatResult_grown h (combatResultOf?_wellFormed told) done

theorem tickStatus_grown {ended : List String} (h : s.Grown)
    (done : s.tickStatus = .ok (t, ended)) : t.Grown := by
  obtain ⟨player, rfl, rfl | refreshed⟩ := tickStatus_eq_ok done
  · refine withPlayer_grown h ⟨h.player.base, h.player.names, h.player.bonuses, ?_⟩
    intro e member
    obtain ⟨before, known, rfl⟩ := List.mem_map.mp member
    exact h.player.effects before known
  · refine withPlayer_grown h ?_
    rw [StatBlock.marks_of_refresh refreshed]
    refine ⟨h.player.base, h.player.names, h.player.bonuses, ?_⟩
    intro e member
    obtain ⟨before, kept, rfl⟩ := List.mem_map.mp member
    exact h.player.effects before (List.mem_filter.mp kept).1

theorem GameState.Grown.legalize (h : s.Grown) : s.legalize.Grown where
  player := h.player
  inventory := fun i member => h.inventory i (List.mem_filter.mp member).1
  reputation := h.reputation

theorem GameState.Grown.of_sameHero (h : s.Grown) (same : s.SameHero t) : t.Grown := by
  refine ⟨?_, ?_, ?_⟩
  · rw [same.player]
    exact h.player
  · rw [same.inventory]
    exact h.inventory
  · rw [same.reputation]
    exact h.reputation

theorem endTurn_grown {messages : List String} (h : s.Grown)
    (done : s.endTurn = .ok (t, messages)) : t.Grown := by
  obtain ⟨ticked, ended, cast, news, ticking, -, -, rfl⟩ := endTurn_eq_ok done
  exact ((tickStatus_grown h ticking).of_sameHero (.turned ticked cast _)).legalize

end

/-! ### Steps -/

theorem rule_grown {s : GameState} (h : s.Grown) {r : CommandRule} (member : r ∈ Registry.rules)
    (params : Params) : (r.run s params).Ensures fun e => e.state.Grown := by
  rcases Registry.bystander_or_deed member with aside | deed
  · exact (Registry.sameHero_of_bystander aside s params).mono fun _ => h.of_sameHero
  · exact (Registry.deed_of_rule deed s params).mono fun _ done => done.grows h

theorem Event.Leads.grown {event : Event} {s t : GameState} (leads : event.Leads s t)
    (h : s.Grown) : t.Grown := by
  cases leads with
  | @command c _ _ _ _ run =>
      exact dispatch_keeps (P := GameState.Grown) (Q := GameState.Grown) run
        (fun _ member _ => rule_grown h member c.params) fun _ restored => restored.legalize
  | turnEnd run => exact endTurn_grown h run
  | fight formed run => exact (applyCombatResult_grown h formed run).legalize

/-- Whatever happens, the state that it leads to has been made legal. -/
theorem Event.Leads.legal {event : Event} {s t : GameState} (leads : event.Leads s t) :
    t.Legal := by
  cases leads with
  | command run =>
      obtain ⟨_, raw, _, _, rfl⟩ := dispatch_eq_ok run
      exact raw.state.legalize_legal
  | turnEnd run =>
      obtain ⟨_, _, _, _, _, _, _, rfl⟩ := endTurn_eq_ok run
      exact GameState.legalize_legal _
  | fight formed run => exact GameState.legalize_legal _

namespace Reachable

variable {s : GameState}

theorem grown (reached : Reachable s) : s.Grown :=
  reached.invariant (P := GameState.Grown) begin_grown fun _ before leads => leads.grown before

/-- In a reached state nobody shares a name with somebody else in the circle. -/
theorem distinct (reached : Reachable s) (circle : Circle) :
    ((s.people circle).map Person.foldedName).Nodup := by
  cases reached with
  | begin start => rw [begin_nobody start]; exact List.nodup_nil
  | step before leads => exact leads.legal.distinct circle

theorem legal_people (reached : Reachable s) (circle : Circle) :
    ∀ p ∈ s.people circle, p.Legal s.settings := by
  cases reached with
  | begin start => rw [begin_nobody start]; simp
  | step before leads => exact leads.legal.people circle

/-- A record may hold every reached state, where it may hold the settings. -/
theorem wellFormed (reached : Reachable s) (settings : s.settings.WellFormed) : s.WellFormed where
  player := wellFormed_of_inSync reached.grown.player reached.sound.sync
  people := fun circle p member =>
    Person.wellFormed_of_grown (reached.arises circle p member).grown
      (reached.legal_people circle p member)
  inventory := fun i member =>
    ⟨reached.sound.stocked i member, reached.grown.inventory i member⟩
  reputation := reached.grown.reputation
  settings := settings

end Reachable
end Ascent
