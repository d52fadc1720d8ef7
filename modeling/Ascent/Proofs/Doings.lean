import Ascent.Proofs.Bystander
import Ascent.Proofs.Naming

/-!
What the commands can do that the player feels.

A rule finds its item or status or it does not, is refused by the settings or not, and then writes a
few fields of the state. Here everything that such a rule may come to is listed once, under the tag
of the rule and with what is known where it happens. What is to hold after each of these commands is
shown by going through the list; how the rules are programmed matters to it alone.

Main exports: `GameState.gained`, `withInventory_eq_ok`, `GameState.Deed`, `addItem_eq_ok`,
`Registry.deed_of_rule`.
-/

namespace Ascent

open Text

/-! ### Items as commands describe them -/

theorem Item.name_putAll (i : Item) (fields : List (ItemField × FieldValue)) :
    (i.putAll fields).name = i.name :=
  get_foldl_put Item.name (fun f _ _ => by cases f <;> rfl) fields i

theorem Item.name_describedBy (i : Item) (fields : List (ItemField × FieldValue))
    (bonuses : Pairs String) (quantity : Int) :
    (i.describedBy fields bonuses quantity).name = i.name := i.name_putAll fields

theorem Item.equipped_describedBy (i : Item) (fields : List (ItemField × FieldValue))
    (bonuses : Pairs String) (quantity : Int) :
    (i.describedBy fields bonuses quantity).equipped = i.equipped :=
  get_foldl_put Item.equipped (fun f _ _ => by cases f <;> rfl) fields i

theorem askedQuantity_pos (params : Params) : 1 ≤ askedQuantity params :=
  Int.le_max_left _ _

theorem carried_nonneg {s : GameState} (stocked : ∀ i ∈ s.inventory, 1 ≤ i.quantity)
    (called : String) : 0 ≤ s.carried called := by
  unfold GameState.carried
  cases found : findNamed? s.inventory called with
  | none => exact Int.le_refl 0
  | some known =>
      have := stocked known.2 (mem_of_findNamed? (i := known.1) found)
      dsimp only [Option.map, Option.getD]
      omega

/-! ### The state after a command -/

/-- Another inventory is stored with the player refreshed, where something worn is concerned. -/
theorem withInventory_eq_ok {s t : GameState} {worn : Bool} {inventory : List Item}
    (h : s.withInventory worn inventory = .ok t) :
    ∃ player, t = { s with player := player, inventory := inventory } ∧
      (s.player.refresh inventory = .ok player ∨ worn = false ∧ player = s.player) := by
  unfold GameState.withInventory at h
  cases worn with
  | true =>
      obtain ⟨player, refreshed, h⟩ := exists_of_bind_eq_ok h
      exact ⟨player, (Except.ok.inj h).symm, .inl refreshed⟩
  | false => exact ⟨s.player, (Except.ok.inj h).symm, .inr ⟨rfl, rfl⟩⟩

namespace GameState

/-- An item of which a command brings more, as the command describes it. -/
def gained (s : GameState) (params : Params) (i : Item) (bonuses : Pairs String) (worth : Int) :
    Item :=
  { i.describedBy (pickFields itemKeys ItemField.kind params) bonuses
      (s.carried (params.required "name") + askedQuantity params) with value := some worth }

section

variable (s : GameState) (params : Params) (i : Item) (bonuses : Pairs String) (worth : Int)

theorem gained_name : (s.gained params i bonuses worth).name = i.name := by
  dsimp only [gained]
  exact i.name_describedBy _ _ _

theorem gained_equipped : (s.gained params i bonuses worth).equipped = i.equipped := by
  dsimp only [gained]
  exact i.equipped_describedBy _ _ _

theorem gained_quantity : (s.gained params i bonuses worth).quantity =
    s.carried (params.required "name") + askedQuantity params := rfl

theorem gained_statBonuses : (s.gained params i bonuses worth).statBonuses =
    if bonuses.isEmpty then i.statBonuses else bonuses := rfl

end

/-- What a rule of some tag may make of a state. -/
inductive Deed (s : GameState) (params : Params) : String → GameState → Prop
  | rest {tag : String} : s.Deed params tag s
  | grown {place : Nat} {known : Item} {bonuses : Pairs String} {worth : Int} {t : GameState}
      (found : findNamed? s.inventory (sanitizeName (params.required "name")) =
        some (place, known))
      (bounded : boundedModifiers params ["bonus.", "stat.", "stats."] "statbonuses" s.player =
        .ok bonuses)
      (stored : s.withInventory known.equipped
        (s.inventory.set place (s.gained params known bonuses worth)) = .ok t) :
      s.Deed params "ITEM_ADD" t
  | begun {bonuses : Pairs String} {worth : Int}
      (missing : findNamed? s.inventory (sanitizeName (params.required "name")) = none)
      (bounded : boundedModifiers params ["bonus.", "stat.", "stats."] "statbonuses" s.player =
        .ok bonuses)
      (some_ : 1 ≤ s.carried (params.required "name") + askedQuantity params) :
      s.Deed params "ITEM_ADD" { s with inventory := s.inventory ++
        [s.gained params { name := sanitizeName (params.required "name") } bonuses worth] }
  | lessened {place : Nat} {item : Item} {t : GameState}
      (found : findNamed? s.inventory (params.required "name") = some (place, item))
      (left : askedQuantity params < item.quantity)
      (stored : s.withInventory item.equipped (s.inventory.set place
        { item with quantity := item.quantity - askedQuantity params }) = .ok t) :
      s.Deed params "ITEM_REMOVE" t
  | lost {place : Nat} {item : Item} {t : GameState}
      (found : findNamed? s.inventory (params.required "name") = some (place, item))
      (stored : s.withInventory item.equipped (s.inventory.eraseIdx place) = .ok t) :
      s.Deed params "ITEM_REMOVE" t
  | worn {worn : Bool} {place : Nat} {item : Item} {t : GameState}
      (found : findNamed? s.inventory (params.required "name") = some (place, item))
      (stored : s.withInventory true (s.inventory.set place { item with equipped := worn }) =
        .ok t) :
      s.Deed params (if worn then "ITEM_EQUIP" else "ITEM_UNEQUIP") t
  | changed {amount : Option String} {change : StatChange}
      (changed : changeStat s.player (params.required "name") ((params.value? "operation").getD "")
        s.settings amount (params.value? "level") s.inventory = .ok change) :
      s.Deed params "STAT_CHANGE" { s with player := change.stats }
  | acquired {status : StatusEffect} {t : GameState}
      (described : statusOf s.player params = .ok status)
      (stored : s.withStatus ((s.player.statusEffects.filter fun e =>
        fold e.name != fold status.name) ++ [status]) = .ok t) :
      s.Deed params "STATUS_ACQUIRED" t
  | ended {place : Nat} {status : StatusEffect} {t : GameState}
      (found : findNamed? s.player.statusEffects (params.required "name") = some (place, status))
      (stored : s.withStatus (s.player.statusEffects.eraseIdx place) = .ok t) :
      s.Deed params "STATUS_REMOVED" t
  | esteemed (delta : Int) :
      s.Deed params "REPUTATION_CHANGED" { s with reputation := moveReputation s.reputation delta }
  | tried (kept : s.settings.enableStats = true) :
      s.Deed params "BREAKTHROUGH_BEGIN" { s with player := (beginBreakthrough s.player).stats }
  | settled {success : Bool} {effect : Effect} (kept : s.settings.enableStats = true)
      (settled : settleTrial s success = .ok effect) :
      s.Deed params "BREAKTHROUGH_RESULT" effect.state
  | provoked (request : CombatRequest) :
      s.Deed params "BEGIN_COMBAT" { s with
        pendingCombat := some request, player := { s.player with comboStreak := 0 } }
  | fought {r : CombatResult} {effect : Effect} (told : combatResultOf? params = some r)
      (done : applyCombatResult s r = .ok effect) :
      s.Deed params "COMBAT_END" effect.state

end GameState

open GameState

/-! ### The rules -/

section

variable {s : GameState} {params : Params} {effect : Effect}

/-- More of an item is put on its stack, which is begun where there is none. -/
theorem addItem_eq_ok (h : addItem s params = .ok effect) :
    ∃ bonuses worth,
      boundedModifiers params ["bonus.", "stat.", "stats."] "statbonuses" s.player = .ok bonuses ∧
      ((∃ place known,
          findNamed? s.inventory (sanitizeName (params.required "name")) = some (place, known) ∧
          s.withInventory known.equipped
            (s.inventory.set place (s.gained params known bonuses worth)) = .ok effect.state) ∨
        findNamed? s.inventory (sanitizeName (params.required "name")) = none ∧
          1 ≤ s.carried (params.required "name") + askedQuantity params ∧
          effect.state = { s with
            inventory := s.inventory ++
              [s.gained params { name := sanitizeName (params.required "name") } bonuses worth] }) := by
  obtain ⟨bonuses, bounded, h⟩ := exists_of_bind_eq_ok h
  dsimp only at h
  split at h
  · next place known found =>
      obtain ⟨worth, _, h⟩ := exists_of_bind_eq_ok h
      obtain ⟨state, stored, h⟩ := exists_of_bind_eq_ok h
      have valued : { known.describedBy (pickFields itemKeys ItemField.kind params) bonuses
          (s.carried (params.required "name") + askedQuantity params) with value := some worth } =
          s.gained params known bonuses worth := rfl
      rw [valued, Item.equipped_describedBy] at stored
      rw [← Except.ok.inj h]
      exact ⟨bonuses, worth, bounded, .inl ⟨place, known, found, stored⟩⟩
  · next missing =>
      split at h
      · cases h
      · next some_ =>
          obtain ⟨worth, _, h⟩ := exists_of_bind_eq_ok h
          rw [← Except.ok.inj h]
          exact ⟨bonuses, worth, bounded, .inr ⟨missing, Int.not_lt.mp some_, rfl⟩⟩

theorem addItem_deed (h : addItem s params = .ok effect) :
    s.Deed params "ITEM_ADD" effect.state := by
  obtain ⟨bonuses, worth, bounded, ⟨place, known, found, stored⟩ | ⟨missing, some_, same⟩⟩ :=
    addItem_eq_ok h
  · exact .grown found bounded stored
  · rw [same]
    exact .begun missing bounded some_

theorem removeItem_deed (h : removeItem s params = .ok effect) :
    s.Deed params "ITEM_REMOVE" effect.state := by
  unfold removeItem at h
  split at h
  · exact Except.ok.inj h ▸ .rest
  · next place item found =>
      obtain ⟨state, stored, h⟩ := exists_of_bind_eq_ok h
      rw [← Except.ok.inj h]
      split at stored
      · exact .lost found stored
      · next left => exact .lessened found (Int.not_le.mp left) stored

theorem wearItem_deed {worn : Bool} (h : wearItem worn s params = .ok effect) :
    s.Deed params (if worn then "ITEM_EQUIP" else "ITEM_UNEQUIP") effect.state := by
  unfold wearItem at h
  split at h
  · exact Except.ok.inj h ▸ .rest
  · next place item found =>
      split at h
      · exact Except.ok.inj h ▸ .rest
      · obtain ⟨state, stored, h⟩ := exists_of_bind_eq_ok h
        rw [← Except.ok.inj h]
        exact .worn found stored

theorem changePlayerStat_deed (h : changePlayerStat s params = .ok effect) :
    s.Deed params "STAT_CHANGE" effect.state := by
  obtain ⟨change, changed, h⟩ := exists_of_bind_eq_ok h
  rw [← Except.ok.inj h]
  exact .changed changed

theorem acquireStatus_deed (h : acquireStatus s params = .ok effect) :
    s.Deed params "STATUS_ACQUIRED" effect.state := by
  obtain ⟨status, described, h⟩ := exists_of_bind_eq_ok h
  obtain ⟨state, stored, h⟩ := exists_of_bind_eq_ok h
  rw [← Except.ok.inj h]
  exact .acquired described stored

theorem removeStatus_deed (h : removeStatus s params = .ok effect) :
    s.Deed params "STATUS_REMOVED" effect.state := by
  unfold removeStatus at h
  split at h
  · exact Except.ok.inj h ▸ .rest
  · next place status found =>
      obtain ⟨state, stored, h⟩ := exists_of_bind_eq_ok h
      rw [← Except.ok.inj h]
      exact .ended found stored

theorem changeReputation_deed (h : changeReputation s params = .ok effect) :
    s.Deed params "REPUTATION_CHANGED" effect.state := by
  unfold changeReputation at h
  split at h
  · exact Except.ok.inj h ▸ .rest
  · next delta _ =>
      obtain ⟨_, _, h⟩ := exists_of_bind_eq_ok h
      rw [← Except.ok.inj h]
      exact .esteemed delta

theorem beginTrial_deed : s.Deed params "BREAKTHROUGH_BEGIN" (beginTrial s).state := by
  unfold beginTrial
  split
  · exact .rest
  · next kept => exact .tried (by simpa using kept)

theorem endTrial_deed (h : endTrial s params = .ok effect) :
    s.Deed params "BREAKTHROUGH_RESULT" effect.state := by
  unfold endTrial at h
  split at h
  · exact Except.ok.inj h ▸ .rest
  · next kept =>
      split at h
      · exact Except.ok.inj h ▸ .rest
      · exact .settled (by simpa using kept) h

theorem beginFight_deed : s.Deed params "BEGIN_COMBAT" (beginFight s params).state := by
  unfold beginFight
  dsimp only
  split
  · exact .rest
  · exact .provoked _

theorem endFight_deed (h : endFight s params = .ok effect) :
    s.Deed params "COMBAT_END" effect.state := by
  unfold endFight at h
  split at h
  · exact Except.ok.inj h ▸ .rest
  · next told => exact .fought told h

end

namespace Registry

theorem upper_tag_of_deed : ∀ r ∈ deeds, upper r.tag = r.tag := by decide +kernel

/-- Whatever a rule is given that the player feels, what it does is on the list. -/
theorem deed_of_rule {r : CommandRule} (member : r ∈ deeds) (s : GameState) (params : Params) :
    (r.run s params).Ensures fun e => s.Deed params (upper r.tag) e.state := by
  rw [upper_tag_of_deed r member]
  simp only [deeds, List.mem_cons, List.not_mem_nil, or_false] at member
  rcases member with rfl | rfl | rfl | rfl | rfl | rfl | rfl | rfl | rfl | rfl | rfl | rfl
  · exact fallible_ensures fun _ => addItem_deed
  · exact fallible_ensures fun _ => removeItem_deed
  · exact fallible_ensures fun _ => wearItem_deed
  · exact fallible_ensures fun _ => wearItem_deed
  · exact fallible_ensures fun _ => changePlayerStat_deed
  · exact fallible_ensures fun _ => acquireStatus_deed
  · exact fallible_ensures fun _ => removeStatus_deed
  · exact fallible_ensures fun _ => changeReputation_deed
  · have begun : (fun e : Effect => s.Deed params "BREAKTHROUGH_BEGIN" e.state) (beginTrial s) :=
      beginTrial_deed
    exact .pure begun
  · exact fallible_ensures fun _ => endTrial_deed
  · exact certain_ensures beginFight_deed
  · exact fallible_ensures fun _ => endFight_deed

end Registry
end Ascent
