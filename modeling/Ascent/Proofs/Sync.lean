import Ascent.Proofs.Derivation
import Ascent.Proofs.Doings

/-!
The player's stats are never stale.

A state is in sync where refreshing the player with the inventory gives the player back. Commands
refresh the player only where they have to: what is carried unworn, a status that goes on, a pool
and a peak that is kept are left without it, and each time the measured attributes are not
concerned.

Main exports: `GameState.InSync`, `GameState.Sound`, `inSync_of_play`.
-/

namespace Ascent

open Text

/-! ### Lists of which a part is looked at -/

section

variable {α : Type} {p : α → Bool} {l : List α} {i : Nat} {a b : α}

/-- Replacing an item that is not looked at by another such item is not seen. -/
theorem filter_set_of_not (at_ : l[i]? = some a) (old : p a = false) (new : p b = false) :
    (l.set i b).filter p = l.filter p := by
  induction l generalizing i with
  | nil => simp at at_
  | cons c rest ih =>
      cases i with
      | zero =>
          simp only [List.getElem?_cons_zero, Option.some.injEq] at at_
          simp [at_, old, new]
      | succ i =>
          simp only [List.getElem?_cons_succ] at at_
          simp [List.filter_cons, ih at_]

/-- Taking out an item that is not looked at is not seen. -/
theorem filter_eraseIdx_of_not (at_ : l[i]? = some a) (old : p a = false) :
    (l.eraseIdx i).filter p = l.filter p := by
  induction l generalizing i with
  | nil => simp at at_
  | cons c rest ih =>
      cases i with
      | zero =>
          simp only [List.getElem?_cons_zero, Option.some.injEq] at at_
          simp [at_, old]
      | succ i =>
          simp only [List.getElem?_cons_succ] at at_
          simp [List.filter_cons, ih at_]

end

/-! ### States in sync -/

namespace GameState

/-- Refreshing the player with the inventory gives the player back. -/
def InSync (s : GameState) : Prop := s.player.refresh s.inventory = .ok s.player

/-- No stack of the inventory is empty. -/
def Stocked (s : GameState) : Prop := ∀ i ∈ s.inventory, 1 ≤ i.quantity

/-- A state in sync whose stacks are not empty. -/
structure Sound (s : GameState) : Prop where
  sync : s.player.InSync s.inventory
  stocked : s.Stocked

namespace Sound

variable {s t : GameState}

theorem inSync (h : s.Sound) : s.InSync := StatBlock.refresh_eq_self_iff.mpr h.sync

theorem of_sameHero (h : s.Sound) (same : s.SameHero t) : t.Sound where
  sync := by rw [same.player, same.inventory]; exact h.sync
  stocked := by
    intro i member
    rw [same.inventory] at member
    exact h.stocked i member

/-- Restoring a sound state changes the player's flags at most. -/
theorem legalize (h : s.Sound) : s.legalize.Sound := by
  have kept : s.inventory.filter (0 < ·.quantity) = s.inventory := inventory_legalize h.stocked
  have current : (s.player.legalize s.settings).current = s.player.current := by
    have vitality : (0 : Int) ≤ s.player.current.maxVitality := by have := h.sync.maxVitality; omega
    simp only [StatBlock.legalize, Int.max_eq_right vitality, Int.max_eq_right h.sync.maxResource]
  have vitality := h.sync.vitality
  have resource := h.sync.resource
  have experience := h.sync.experience
  refine ⟨?_, ?_⟩
  · refine h.sync.of_same rfl current ?_ ?_ ?_ ?_
    · simp only [GameState.legalize, kept]
    all_goals
      dsimp only [GameState.legalize, StatBlock.legalize, StatBlock.clampPool]
      omega
  · intro i member
    simp only [GameState.legalize, kept] at member
    exact h.stocked i member

/-- Other stats of the player, in sync with the same inventory. -/
theorem withPlayer (h : s.Sound) {player : StatBlock} (sync : player.InSync s.inventory) :
    Sound { s with player := player } := ⟨sync, h.stocked⟩

end Sound
end GameState

open GameState

/-! ### The start -/

/-- The stats that nobody has set are in sync, whatever the tier. -/
theorem default_inSync (tier : String) : StatBlock.InSync { tier := tier } [] where
  measured := by
    have untiered : StatBlock.measure {} [] = .ok ⟨100, 50, 10, 5, 10, 100⟩ := by rfl
    exact untiered
  vitality := (by decide : (0 : Int) ≤ 100 ∧ (100 : Int) ≤ 100)
  resource := (by decide : (0 : Int) ≤ 50 ∧ (50 : Int) ≤ 50)
  experience := Int.le_refl 0

theorem begin_sound {playerName : String} {settings : Settings} {tier : Option String}
    {location : String} {s : GameState}
    (h : GameState.begin playerName settings tier location = .ok s) : s.Sound := by
  have empty : ∀ i ∈ ([] : List Item), 1 ≤ i.quantity := fun _ member => absurd member (by simp)
  obtain ⟨label, player, rfl, rebased | rfl⟩ := begin_eq_ok h
  · exact ⟨StatBlock.rebase_inSync rebased, empty⟩
  · exact ⟨default_inSync label, empty⟩

/-! ### Changes of stats -/

section

variable {s : StatBlock} {settings : Settings} {items : List Item}

theorem addPermanent_inSync {a : Attribute} {delta : Int} {change : StatChange}
    (h : addPermanent s a delta items = .ok change) : change.stats.InSync items := by
  obtain ⟨_, _, h⟩ := exists_of_bind_eq_ok h
  obtain ⟨updated, refreshed, h⟩ := exists_of_bind_eq_ok h
  rw [← Except.ok.inj h]
  exact StatBlock.inSync_of_refresh refreshed

theorem movePool_bounds {amount limit : Int} (bound : 0 ≤ limit) (delta : Int) :
    0 ≤ movePool amount limit delta ∧ movePool amount limit delta ≤ limit := by
  unfold movePool
  omega

theorem StatBlock.Changes.inSync {key : StatKey} {op : StatOperation} {delta : Int}
    {change : StatChange} (sync : s.InSync items)
    (h : s.Changes delta settings items key op change) : change.stats.InSync items := by
  have vitality := sync.maxVitality
  have gained : StatBlock.InSync { s with experience := max 0 (s.experience + delta) } items :=
    sync.of_same_pools rfl rfl rfl rfl (Int.le_max_left _ _)
  cases h with
  | lasting _ added => exact addPermanent_inSync added
  | vitality =>
      exact sync.of_same rfl rfl rfl (movePool_bounds (by omega) delta) sync.resource
        sync.experience
  | resource =>
      exact sync.of_same rfl rfl rfl sync.vitality (movePool_bounds sync.maxResource delta)
        sync.experience
  | currency => exact sync.of_same_pools rfl rfl rfl rfl sync.experience
  | gained => exact gained
  | climbed _ climbed => exact checkLevel_inSync gained climbed
  | rest => exact sync

theorem changeStat_inSync {name operation : String} {amount level : Option String}
    {change : StatChange} (sync : s.InSync items)
    (h : changeStat s name operation settings amount level items = .ok change) :
    change.stats.InSync items := by
  rcases changeStat_eq_ok h with rfl | ⟨key, op, delta, -, -, changed⟩
  · exact sync
  · exact changed.inSync sync

theorem afterFight_inSync (sync : s.InSync items) (result : CombatResult) :
    (s.afterFight result).InSync items := by
  have vitality := sync.maxVitality
  have clamped (limit : Int) (bound : 0 ≤ limit) (given : Option Int) (now : Int)
      (within : 0 ≤ now ∧ now ≤ limit) :
      0 ≤ (given.map (StatBlock.clampPool limit)).getD now ∧
        (given.map (StatBlock.clampPool limit)).getD now ≤ limit := by
    cases given with
    | none => exact within
    | some n => dsimp only [Option.map, Option.getD, StatBlock.clampPool]; omega
  exact sync.of_same rfl rfl rfl (clamped _ (by omega) _ _ sync.vitality)
    (clamped _ sync.maxResource _ _ sync.resource) sync.experience

end

/-! ### What the player carries -/

section

variable {s : GameState} {params : Params} {effect : Effect}

/-- Another inventory, where what is worn has changed only if the player is refreshed. -/
theorem withInventory_sound {worn : Bool} {inventory : List Item} {t : GameState} (sound : s.Sound)
    (stocked : ∀ i ∈ inventory, 1 ≤ i.quantity)
    (kept : worn = false →
      inventory.filter (·.equipped) = s.inventory.filter (·.equipped))
    (h : s.withInventory worn inventory = .ok t) : t.Sound := by
  obtain ⟨player, rfl, refreshed | ⟨unworn, rfl⟩⟩ := withInventory_eq_ok h
  · exact ⟨StatBlock.inSync_of_refresh refreshed, stocked⟩
  · exact ⟨sound.sync.of_same_worn (kept unworn), stocked⟩

theorem stocked_set {items : List Item} {item : Item} (place : Nat)
    (stocked : ∀ i ∈ items, 1 ≤ i.quantity) (quantity : 1 ≤ item.quantity) :
    ∀ i ∈ items.set place item, 1 ≤ i.quantity := by
  intro i member
  rcases List.mem_or_eq_of_mem_set member with old | rfl
  · exact stocked i old
  · exact quantity

/-- A stack takes the place of another one; the player is refreshed if it is worn. -/
theorem replaceStack_sound {place : Nat} {known i : Item} {t : GameState} (sound : s.Sound)
    (there : s.inventory[place]? = some known) (same : i.equipped = known.equipped)
    (quantity : 1 ≤ i.quantity)
    (h : s.withInventory known.equipped (s.inventory.set place i) = .ok t) : t.Sound :=
  withInventory_sound sound (stocked_set place sound.stocked quantity)
    (fun unworn => filter_set_of_not there unworn (same.trans unworn)) h

/-- A new stack that is not worn. -/
theorem appendStack_sound {i : Item} (sound : s.Sound) (unworn : i.equipped = false)
    (quantity : 1 ≤ i.quantity) :
    Sound { s with inventory := s.inventory ++ [i] } where
  sync := sound.sync.of_same_worn (by simp [unworn])
  stocked := by
    intro j member
    rcases List.mem_append.mp member with old | new
    · exact sound.stocked j old
    · rw [List.mem_singleton.mp new]
      exact quantity

theorem gained_quantity_pos (params : Params) (i : Item) (bonuses : Pairs String) (worth : Int)
    (stocked : ∀ i ∈ s.inventory, 1 ≤ i.quantity) :
    1 ≤ (s.gained params i bonuses worth).quantity := by
  have asked := askedQuantity_pos params
  have carried := carried_nonneg stocked (params.required "name")
  rw [gained_quantity]
  omega

/-! ### The player's condition -/

theorem withStatus_sound {effects : List StatusEffect} {t : GameState} (sound : s.Sound)
    (h : s.withStatus effects = .ok t) : t.Sound := by
  obtain ⟨player, refreshed, h⟩ := exists_of_bind_eq_ok h
  rw [← Except.ok.inj h]
  exact sound.withPlayer (StatBlock.inSync_of_refresh refreshed)

theorem settleTrial_sound {success : Bool} (sound : s.Sound)
    (h : settleTrial s success = .ok effect) : effect.state.Sound := by
  obtain ⟨climb, resolved, h⟩ := exists_of_bind_eq_ok h
  rw [← Except.ok.inj h]
  exact sound.withPlayer (resolveBreakthrough_inSync sound.sync resolved)

/-! ### Fights -/

theorem applyCombatResult_sound {r : CombatResult} (sound : s.Sound) (formed : r.WellFormed)
    (h : applyCombatResult s r = .ok effect) : effect.state.Sound := by
  obtain ⟨settled, inventory, trial⟩ := applyCombatResult_eq_ok h
  have left : Sound { s with pendingCombat := none, player := s.player.afterFight r } :=
    ⟨afterFight_inSync sound.sync r, sound.stocked⟩
  have after : (s.fought r).Sound := left.of_sameHero (fought_sameHero s r)
  have settledSound : settled.Sound := by
    rcases inventory with ⟨_, rfl⟩ | ⟨items, player, given, refreshed, rfl⟩
    · exact after
    · exact ⟨StatBlock.inSync_of_refresh refreshed, fun i member =>
        (formed items given i member).quantity⟩
  rcases trial with kept | ⟨_, _, trial, ended, decided⟩
  · exact kept ▸ settledSound
  · exact decided ▸ settleTrial_sound settledSound ended

theorem combatResultOf?_wellFormed {r : CombatResult} (h : combatResultOf? params = some r) :
    r.WellFormed := by
  intro items given
  rw [finalInventory_of_combatResultOf? h] at given
  cases given

/-- Whatever the player feels, the stats are computed afresh where they have to be. -/
theorem GameState.Deed.sound {tag : String} {t : GameState} (sound : s.Sound)
    (h : s.Deed params tag t) : t.Sound := by
  cases h with
  | rest => exact sound
  | grown found _ stored =>
      exact replaceStack_sound sound (getElem?_of_findNamed? found) (s.gained_equipped ..)
        (gained_quantity_pos _ _ _ _ sound.stocked) stored
  | begun =>
      exact appendStack_sound sound (s.gained_equipped ..)
        (gained_quantity_pos _ _ _ _ sound.stocked)
  | @lessened place _ _ found left stored =>
      refine withInventory_sound sound ?_ (fun unworn => ?_) stored
      · exact stocked_set place sound.stocked (by dsimp only; omega)
      · exact filter_set_of_not (getElem?_of_findNamed? found) unworn unworn
  | lost found stored =>
      refine withInventory_sound sound ?_ (fun unworn => ?_) stored
      · exact fun i member => sound.stocked i (List.mem_of_mem_eraseIdx member)
      · exact filter_eraseIdx_of_not (getElem?_of_findNamed? found) unworn
  | @worn _ place item _ found stored =>
      refine withInventory_sound sound ?_ (fun refreshed => by cases refreshed) stored
      exact stocked_set place sound.stocked (sound.stocked item (mem_of_findNamed? found))
  | changed changed => exact sound.withPlayer (changeStat_inSync sound.sync changed)
  | acquired _ stored => exact withStatus_sound sound stored
  | ended _ stored => exact withStatus_sound sound stored
  | esteemed => exact ⟨sound.sync, sound.stocked⟩
  | tried => exact sound.withPlayer (beginBreakthrough_inSync sound.sync)
  | settled _ settled => exact settleTrial_sound sound settled
  | provoked =>
      exact ⟨sound.sync.of_same_pools rfl rfl rfl rfl sound.sync.experience, sound.stocked⟩
  | fought told done => exact applyCombatResult_sound sound (combatResultOf?_wellFormed told) done

end

/-! ### Steps -/

/-- Whatever a command is given, the state that its rule leads to is sound. -/
theorem rule_sound {s : GameState} (sound : s.Sound) {r : CommandRule} (member : r ∈ Registry.rules)
    (params : Params) : (r.run s params).Ensures fun e => e.state.Sound := by
  rcases Registry.bystander_or_deed member with aside | deed
  · exact (Registry.sameHero_of_bystander aside s params).mono fun _ same => sound.of_sameHero same
  · exact (Registry.deed_of_rule deed s params).mono fun _ done => done.sound sound

/-- Where no status ends, only durations change, and none of these is measured. -/
theorem tickStatus_sound {s t : GameState} {ended : List String} (sound : s.Sound)
    (h : s.tickStatus = .ok (t, ended)) : t.Sound := by
  obtain ⟨player, rfl, rfl | refreshed⟩ := tickStatus_eq_ok h
  · refine sound.withPlayer (sound.sync.of_same_pools ?_ rfl rfl rfl sound.sync.experience)
    simp only [StatBlock.sources, List.map_map]
    rfl
  · exact sound.withPlayer (StatBlock.inSync_of_refresh refreshed)

theorem Event.Leads.sound {event : Event} {s t : GameState} (leads : event.Leads s t)
    (sound : s.Sound) : t.Sound := by
  cases leads with
  | @command c _ _ _ _ run =>
      exact dispatch_keeps (P := Sound) (Q := Sound) run
        (fun _ member _ => rule_sound sound member c.params) fun _ restored => restored.legalize
  | turnEnd run =>
      obtain ⟨ticked, ended, cast, news, ticking, -, -, rfl⟩ := endTurn_eq_ok run
      exact ((tickStatus_sound sound ticking).of_sameHero (.turned ticked cast _)).legalize
  | fight formed run => exact (applyCombatResult_sound sound formed run).legalize

theorem Reachable.sound {s : GameState} (reached : Reachable s) : s.Sound :=
  reached.invariant (P := Sound) begin_sound fun _ before leads => leads.sound before

/-- The player's stats are never stale: a new game begins in sync, whatever its settings and tier;
every step keeps a state in sync whose stacks are not empty; so every reached state is in sync. -/
theorem inSync_of_play :
    (∀ playerName settings tier location s,
      GameState.begin playerName settings tier location = .ok s → s.InSync) ∧
    (∀ (event : Event) (s t : GameState),
      s.InSync → s.Stocked → event.Leads s t → t.InSync) ∧
    (∀ s, Reachable s → s.InSync) := by
  refine ⟨?_, ?_, ?_⟩
  · intro playerName settings tier location s start
    exact (begin_sound start).inSync
  · intro event s t sync stocked leads
    have sound : s.Sound := ⟨StatBlock.refresh_eq_self_iff.mp sync, stocked⟩
    exact (leads.sound sound).inSync
  · intro s reached
    exact reached.sound.inSync

/-- A sword that is taken acts once it is drawn. -/
theorem inSync_of_play_drawn_sword :
    let sword : Item := { name := "Sword", statBonuses := [("offense", "5")], value := some 8 }
    let player : StatBlock := {
      tier := "Qi Refining Layer 1"
      current := ⟨100, 50, 10, 5, 10, 1000⟩
      base := ⟨100, 50, 10, 5, 10, 1000⟩ }
    let s : GameState := { player, playerName := "Lin", location := "Hall" }
    let t : GameState := { s with inventory := [sword] }
    let u : GameState := { s with
      player := { player with current := ⟨100, 50, 15, 5, 10, 1000⟩ }
      inventory := [{ sword with equipped := true }] }
    GameState.begin "Lin" {} none "Hall" = .ok s ∧ s.InSync ∧
    Event.Leads (.command ⟨"ITEM_ADD", [("name", "Sword"), ("bonus.offense", "5")]⟩) s t ∧
    t.InSync ∧ t.Stocked ∧ Event.Leads (.command ⟨"ITEM_EQUIP", [("name", "sword")]⟩) t u ∧
    u.InSync := by
  intro sword player s t u
  have start : GameState.begin "Lin" {} none "Hall" = .ok s :=
    eq_ok_of_toOption (by decide +kernel)
  have taken : Event.Leads (.command ⟨"ITEM_ADD", [("name", "Sword"), ("bonus.offense", "5")]⟩) s t :=
    Event.leads_of_state {} (by decide +kernel)
  have drawn : Event.Leads (.command ⟨"ITEM_EQUIP", [("name", "sword")]⟩) t u :=
    Event.leads_of_state {} (by decide +kernel)
  have reached : Reachable t := (Reachable.begin start).step taken
  have stocked : t.Stocked := reached.sound.stocked
  have before : t.InSync := inSync_of_play.2.2 t reached
  exact ⟨start, inSync_of_play.1 _ _ _ _ s start, taken, before, stocked, drawn,
    inSync_of_play.2.1 _ t u before stocked drawn⟩

end Ascent
