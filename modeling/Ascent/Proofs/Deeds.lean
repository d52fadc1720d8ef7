import Ascent.Proofs.Beside

/-!
What the player feels, in a game and in its twin.

Commands about belongings and about the player's condition ask for the player's stats, the inventory
and the settings, and never for people. They do the same beside a player who is a twin; only a
lasting change has to be reckoned exactly.

Main exports: `GameState.Kin.player`, `Registry.errand_kin`, `changePlayerStat_kin`,
`settleTrial_kin`.
-/

namespace Ascent

open Text

/-! ### Games that are kin -/

namespace GameState.Kin

variable {s t : GameState}

theorem exists_amid (h : s.Kin t) : ∃ player cast, t = s.amid player cast := by
  obtain ⟨player, cast, same, _⟩ := h
  exact ⟨player, cast, same⟩

theorem player (h : s.Kin t) : s.player.Twin t.player := by
  obtain ⟨_, _, rfl, twin, _⟩ := h
  exact twin

theorem inventory (h : s.Kin t) : t.inventory = s.inventory := by
  obtain ⟨_, _, rfl, _⟩ := h
  rfl

theorem settings (h : s.Kin t) : t.settings = s.settings := by
  obtain ⟨_, _, rfl, _⟩ := h
  rfl

theorem withPlayer (h : s.Kin t) {p q : StatBlock} (twin : p.Twin q) :
    GameState.Kin { s with player := p } { t with player := q } := by
  obtain ⟨_, cast, rfl, _, kin⟩ := h
  exact ⟨q, cast, rfl, twin, kin⟩

theorem withInventory (h : s.Kin t) (items : List Item) :
    GameState.Kin { s with inventory := items } { t with inventory := items } := by
  obtain ⟨player, cast, rfl, twin, kin⟩ := h
  exact ⟨player, cast, rfl, twin, kin⟩

end GameState.Kin

/-! ### Errands -/

namespace Registry

/-- What leaves everybody alone does the same in both games. -/
theorem Aside.kin {f : Handler} (h : Aside f) {s t : GameState} (kin : s.Kin t) (params : Params) :
    Play.Agree Effect.Kin (f s params) (f t params) := by
  obtain ⟨player, cast, rfl, twin, people⟩ := kin
  intro supply
  have kept := h.ensures s params supply
  rw [h s params player cast supply]
  rcases run : (f s params).outcome supply with ⟨_ | e, rest⟩
  · exact ⟨.error _, rfl⟩
  · obtain ⟨samePlayer, sameCast⟩ := kept e rest run
    refine ⟨.ok ⟨⟨player, cast, rfl, ?_, ?_⟩, rfl, rfl⟩, rfl⟩
    · rw [samePlayer]
      exact twin
    · intro circle
      rw [GameState.people, sameCast]
      exact people circle

theorem errand_kin {r : CommandRule} (member : r ∈ errands) {s t : GameState} (kin : s.Kin t)
    (params : Params) : Play.Agree Effect.Kin (r.run s params) (r.run t params) :=
  (aside_of_errand member).kin kin params

end Registry

/-! ### Belongings -/

theorem boundedModifiers_twin {p q : StatBlock} (h : p.Twin q) (params : Params)
    (heads : List String) (packed : String) :
    boundedModifiers params heads packed q = boundedModifiers params heads packed p := by
  have base : q.base = p.base := by
    obtain ⟨_, rfl, _⟩ := h
    rfl
  simp only [boundedModifiers, boundModifiers, base]

section

variable {s t : GameState} {params : Params}

theorem withInventory_kin (h : s.Kin t) (worn : Bool) (items : List Item) :
    Agree GameState.Kin (s.withInventory worn items) (t.withInventory worn items) := by
  cases worn with
  | false => exact .ok (h.withInventory items)
  | true =>
      exact .bind (h.player.refresh items) fun _ _ twin =>
        .ok ((h.withPlayer twin).withInventory items)

theorem addItem_kin (h : s.Kin t) : Agree Effect.Kin (addItem s params) (addItem t params) := by
  have carried : t.carried (params.required "name") = s.carried (params.required "name") := by
    rw [GameState.carried, GameState.carried, h.inventory]
  obtain ⟨_, _, rfl⟩ := h.exists_amid
  unfold addItem
  dsimp only
  rw [boundedModifiers_twin h.player, carried, h.inventory, h.settings]
  refine .bind_same fun bonuses _ => ?_
  generalize pickFields itemKeys ItemField.kind params = fields
  generalize s.carried (params.required "name") + askedQuantity params = total
  cases findNamed? s.inventory (sanitizeName (params.required "name")) with
  | some found =>
      dsimp only
      generalize found.2.describedBy fields bonuses total = item
      refine .bind_same fun worth _ => ?_
      exact .bind (withInventory_kin h _ _) fun _ _ kin => .ok ⟨kin, rfl, rfl⟩
  | none =>
      dsimp only
      split
      · exact .error _
      · generalize Item.describedBy { name := sanitizeName (params.required "name") } fields
          bonuses total = item
        refine .bind_same fun worth _ => ?_
        exact .ok ⟨h.withInventory _, rfl, rfl⟩

theorem removeItem_kin (h : s.Kin t) :
    Agree Effect.Kin (removeItem s params) (removeItem t params) := by
  unfold removeItem
  rw [h.inventory]
  split
  · exact .ok ⟨h, rfl, rfl⟩
  · exact .bind (withInventory_kin h _ _) fun _ _ kin => .ok ⟨kin, rfl, rfl⟩

theorem wearItem_kin {worn : Bool} (h : s.Kin t) :
    Agree Effect.Kin (wearItem worn s params) (wearItem worn t params) := by
  unfold wearItem
  rw [h.inventory]
  split
  · exact .ok ⟨h, rfl, rfl⟩
  · split
    · exact .ok ⟨h, rfl, rfl⟩
    · exact .bind (withInventory_kin h _ _) fun _ _ kin => .ok ⟨kin, rfl, rfl⟩

/-! ### Condition -/

theorem changePlayerStat_kin (h : s.Kin t) (exact : s.player.Exact) :
    Agree Effect.Kin (changePlayerStat s params) (changePlayerStat t params) := by
  obtain ⟨_, _, rfl⟩ := h.exists_amid
  unfold changePlayerStat
  rw [h.inventory, h.settings]
  exact .bind (changeStat_twin h.player exact) fun _ _ change =>
    .ok ⟨h.withPlayer change.stats, rfl, change.messages⟩

theorem withStatus_kin (h : s.Kin t) (effects : List StatusEffect) :
    Agree GameState.Kin (s.withStatus effects) (t.withStatus effects) := by
  have under : StatBlock.Twin { s.player with statusEffects := effects }
      { t.player with statusEffects := effects } := by
    obtain ⟨bonuses, same, twins⟩ := h.player
    exact ⟨bonuses, by rw [same], twins⟩
  obtain ⟨_, _, rfl⟩ := h.exists_amid
  unfold GameState.withStatus
  rw [h.inventory]
  exact .bind (under.refresh s.inventory) fun _ _ twin => .ok (h.withPlayer twin)

theorem StatBlock.Twin.statusEffects {p q : StatBlock} (h : p.Twin q) :
    q.statusEffects = p.statusEffects := by
  obtain ⟨_, rfl, _⟩ := h
  rfl

theorem acquireStatus_kin (h : s.Kin t) :
    Agree Effect.Kin (acquireStatus s params) (acquireStatus t params) := by
  have described : statusOf t.player params = statusOf s.player params := by
    rw [statusOf, statusOf, boundedModifiers_twin h.player]
  unfold acquireStatus
  rw [described, h.player.statusEffects]
  refine .bind_same fun status _ => ?_
  exact .bind (withStatus_kin h _) fun _ _ kin => .ok ⟨kin, rfl, rfl⟩

theorem removeStatus_kin (h : s.Kin t) :
    Agree Effect.Kin (removeStatus s params) (removeStatus t params) := by
  unfold removeStatus
  rw [h.player.statusEffects]
  split
  · exact .ok ⟨h, rfl, rfl⟩
  · exact .bind (withStatus_kin h _) fun _ _ kin => .ok ⟨kin, rfl, rfl⟩

theorem changeReputation_kin (h : s.Kin t) :
    Agree Effect.Kin (changeReputation s params) (changeReputation t params) := by
  obtain ⟨player, cast, rfl, twin, kin⟩ := h
  rw [changeReputation_amid]
  unfold changeReputation
  split
  · exact .ok ⟨⟨player, cast, rfl, twin, kin⟩, rfl, rfl⟩
  · cases params.textOr "reason" "" with
    | error e => exact .error e
    | ok reason => exact .ok ⟨⟨player, cast, rfl, twin, kin⟩, rfl, rfl⟩

theorem beginTrial_kin (h : s.Kin t) : (beginTrial s).Kin (beginTrial t) := by
  obtain ⟨_, _, rfl⟩ := h.exists_amid
  unfold beginTrial
  rw [h.settings]
  split
  · exact ⟨h, rfl, rfl⟩
  · obtain ⟨stats, climb, twin⟩ := beginBreakthrough_twin h.player
    dsimp only
    rw [climb]
    exact ⟨h.withPlayer twin, rfl, rfl⟩

theorem settleTrial_kin (h : s.Kin t) (success : Bool) :
    Agree Effect.Kin (settleTrial s success) (settleTrial t success) := by
  obtain ⟨_, _, rfl⟩ := h.exists_amid
  unfold settleTrial
  rw [h.inventory, h.settings]
  refine .bind (resolveBreakthrough_twin h.player) ?_
  rintro climb _ ⟨stats, rfl, twin⟩
  exact .ok ⟨h.withPlayer twin, rfl, rfl⟩

theorem endTrial_kin (h : s.Kin t) :
    Agree Effect.Kin (endTrial s params) (endTrial t params) := by
  unfold endTrial
  rw [h.settings]
  split
  · exact .ok ⟨h, rfl, rfl⟩
  · split
    · exact .ok ⟨h, rfl, rfl⟩
    · exact settleTrial_kin h _

theorem beginFight_kin (h : s.Kin t) (params : Params) :
    (beginFight s params).Kin (beginFight t params) := by
  obtain ⟨player, cast, rfl, twin, kin⟩ := h
  have eased : StatBlock.Twin { s.player with comboStreak := 0 }
      { player with comboStreak := 0 } := by
    obtain ⟨bonuses, rfl, twins⟩ := twin
    exact ⟨bonuses, rfl, twins⟩
  have settings : (s.amid player cast).settings = s.settings := rfl
  have location : (s.amid player cast).location = s.location := rfl
  unfold beginFight
  dsimp only
  rw [settings, location]
  split
  · exact ⟨⟨player, cast, rfl, twin, kin⟩, rfl, rfl⟩
  · exact ⟨⟨_, cast, rfl, eased, kin⟩, rfl, rfl⟩

end
end Ascent
