import Ascent.Proofs.Legality
import Ascent.Proofs.Losses

/-!
Putting on again what was taken off never compounds.

Stats are measured afresh from the same sources each time, so taking an item off brings the old
attributes back, and putting it on again the new ones. Only the pools remember that it was worn:
they were cut down to the lower maxima once, and so the second cut takes nothing more.

Main exports: `withCurrent_cycle`, `wearItem_of_other`, `wearItem_of_same`, `Command.Wears`,
`Command.Takes`, `rewearing_never_compounds`.
-/

namespace Ascent

open Text

/-! ### Stats measured twice -/

/-- Going back to the old attributes and forth to the new ones again leaves what going to them has
left. -/
theorem withCurrent_cycle {s : StatBlock} {items : List Item} (sync : s.InSync items)
    (current : Attributes Int) :
    ((s.withCurrent current).withCurrent s.current).withCurrent current =
      s.withCurrent current := by
  have vitality := sync.vitality
  have resource := sync.resource
  -- The old maxima are no bound for pools that the new ones have cut.
  have cut (limit old pool : Int) (low : 0 ≤ pool) (high : pool ≤ old) :
      StatBlock.clampPool limit (StatBlock.clampPool old (StatBlock.clampPool limit pool)) =
        StatBlock.clampPool limit pool := by
    unfold StatBlock.clampPool
    omega
  unfold StatBlock.withCurrent
  dsimp only
  rw [cut _ _ _ vitality.1 vitality.2, cut _ _ _ resource.1 resource.2]
  congr 1
  omega

/-! ### Putting on and taking off -/

/-- A record that takes the place of a namesake is found there. -/
theorem findNamed?_set {α : Type} [Named α] {records : List α} {called : String} {place : ℕ}
    {q r : α} (found : findNamed? records called = some (place, q)) (same : name r = name q) :
    findNamed? (records.set place r) called = some (place, r) := by
  have there := getElem?_of_findNamed? found
  have byName (key : String) (l : List α) :
      l.findIdx? (goesBy key) = (namesOf l).findIdx? (· == key) := by
    rw [namesOf, List.findIdx?_map]
    rfl
  have same : findPlace? (records.set place r) called = findPlace? records called := by
    unfold findPlace?
    simp only [byName, namesOf_set there (congrArg fold same)]
  have bound := (List.getElem?_eq_some_iff.mp there).1
  simp only [findNamed?, Option.bind_eq_bind, Option.bind_eq_some_iff, Option.some.injEq,
    Prod.mk.injEq] at found ⊢
  obtain ⟨i, here, -, -, rfl, -⟩ := found
  exact ⟨i, same.trans here, r, List.getElem?_set_self bound, rfl, rfl⟩

section

variable {s : GameState} {place : ℕ} {item : Item} {worn : Bool} (params : Params)

/-- Nothing happens to an item that is worn already, or not worn. -/
theorem wearItem_of_same
    (found : findNamed? s.inventory (params.required "name") = some (place, item))
    (same : item.equipped = worn) : wearItem worn s params = .ok (.none s) := by
  unfold wearItem
  rw [found]
  exact if_pos same

/-- An item that is put on or taken off: the stats are measured with it, or without it. -/
theorem wearItem_of_other
    (found : findNamed? s.inventory (params.required "name") = some (place, item))
    (other : item.equipped ≠ worn) :
    let inventory := s.inventory.set place { item with equipped := worn }
    ∃ messages, wearItem worn s params = (s.player.measure inventory).map fun current =>
      { state := { s with player := s.player.withCurrent current, inventory := inventory }
        messages := messages } := by
  refine ⟨[(if worn then "Equipped " else "Unequipped ") ++ item.name], ?_⟩
  unfold wearItem
  rw [found]
  dsimp only
  rw [if_neg other, GameState.withInventory, if_pos rfl, StatBlock.refresh_eq_map]
  cases s.player.measure (s.inventory.set place { item with equipped := worn }) with
  | error fault => rfl
  | ok current => rfl

/-- Putting on and taking off leaves no stack empty. -/
theorem stocked_worn {called : String} (stocked : ∀ i ∈ s.inventory, 0 < i.quantity)
    (found : findNamed? s.inventory called = some (place, item)) (worn : Bool) :
    ∀ i ∈ s.inventory.set place { item with equipped := worn }, 0 < i.quantity :=
  stocked_set place stocked (stocked item (mem_of_findNamed? found))

/-- A legal state stays so when stats are measured with other stacks that are not empty. -/
theorem legal_of_measured {inventory : List Item} {current : Attributes Int} (legal : s.Legal)
    (stocked : ∀ i ∈ inventory, 0 < i.quantity)
    (measured : s.player.measure inventory = .ok current) :
    GameState.Legal { s with player := s.player.withCurrent current, inventory := inventory } := by
  have sync := StatBlock.withCurrent_inSync measured
  have vitality := sync.maxVitality
  have least : 0 ≤ (s.player.withCurrent current).current.maxVitality := by omega
  exact {
    player := ⟨least, sync.maxResource, sync.vitality, sync.resource, sync.experience,
      legal.player.peak⟩
    people := legal.people
    distinct := legal.distinct
    stocked := stocked }

end

/-! ### The commands -/

namespace Command

/-- The command puts on, or takes off, what goes by a name. -/
structure Wears (c : Command) (worn : Bool) (called : String) : Prop where
  tag : upper c.name = if worn then "ITEM_EQUIP" else "ITEM_UNEQUIP"
  named : c.params.required "name" = called

/-- The command is accepted and leads from one state to another, whatever is at hand to draw. -/
def Takes (c : Command) (s t : GameState) : Prop :=
  ∀ supply, ∃ effect, dispatch .standard s c supply = (.ok effect, supply) ∧ effect.state = t

variable {c : Command} {worn : Bool} {called : String} {s : GameState}

/-- The rule of such a command. -/
theorem Wears.exists_rule (wears : c.Wears worn called) :
    ∃ r ∈ Registry.rules, r.required = ["name"] ∧ r.run = Registry.fallible (wearItem worn) ∧
      upper c.name = upper r.tag := by
  rw [wears.tag]
  cases worn with
  | true =>
      refine ⟨⟨"ITEM_EQUIP", ["name"], false, Registry.fallible (wearItem true)⟩, ?_, rfl, rfl, ?_⟩
      · simp [Registry.rules, Registry.belongings]
      · decide +kernel
  | false =>
      refine ⟨⟨"ITEM_UNEQUIP", ["name"], false, Registry.fallible (wearItem false)⟩, ?_, rfl, rfl,
        ?_⟩
      · simp [Registry.rules, Registry.belongings]
      · decide +kernel

theorem lacks_of_written {params : Params} {key : String}
    (written : isBlankText (params.required key) = false) : params.lacks key = false := by
  unfold Params.required at written
  unfold Params.lacks
  cases known : params.value? key with
  | none =>
      rw [known] at written
      cases written
  | some value => simpa [known] using written

/-- A command under a name is accepted where putting on or taking off leads to a legal state. -/
theorem Wears.takes (wears : c.Wears worn called) (written : isBlankText called = false)
    {effect : Effect} (done : wearItem worn s c.params = .ok effect) (legal : effect.state.Legal) :
    c.Takes s effect.state := by
  obtain ⟨r, member, needs, does, tag⟩ := wears.exists_rule
  have complete : ∀ key ∈ r.required, c.params.lacks key = false := by
    rw [needs]
    intro key only
    obtain rfl := List.mem_singleton.mp only
    exact lacks_of_written (wears.named.symm ▸ written)
  intro supply
  exact ⟨_, dispatch_of_done member does tag complete done supply,
    GameState.legalize_eq_self legal⟩

/-- Where the item is worn already, or not worn, the command changes nothing. -/
theorem Wears.takes_of_same (wears : c.Wears worn called) (written : isBlankText called = false)
    (legal : s.Legal) {place : ℕ} {item : Item}
    (found : findNamed? s.inventory called = some (place, item)) (same : item.equipped = worn) :
    c.Takes s s := by
  have done := wearItem_of_same c.params (wears.named.symm ▸ found) same
  exact wears.takes written done legal

/-- Where it is not, the stats are measured with the item put on, or taken off. -/
theorem Wears.takes_of_other (wears : c.Wears worn called) (written : isBlankText called = false)
    (legal : s.Legal) {place : ℕ} {item : Item} {current : Attributes Int}
    (found : findNamed? s.inventory called = some (place, item)) (other : item.equipped ≠ worn)
    (measured : s.player.measure (s.inventory.set place { item with equipped := worn }) =
      .ok current) :
    c.Takes s { s with
      player := s.player.withCurrent current
      inventory := s.inventory.set place { item with equipped := worn } } := by
  obtain ⟨messages, done⟩ := wearItem_of_other c.params (wears.named.symm ▸ found) other
  rw [measured] at done
  have stocked := stocked_worn legal.stocked found worn
  exact wears.takes written done (legal_of_measured legal stocked measured)

/-- What the command has done where it was accepted. -/
theorem Wears.of_dispatch (wears : c.Wears worn called) (legal : s.Legal) {place : ℕ} {item : Item}
    (found : findNamed? s.inventory called = some (place, item)) (other : item.equipped ≠ worn)
    {supply rest : Supply} {effect : Effect}
    (run : dispatch .standard s c supply = (.ok effect, rest)) :
    isBlankText called = false ∧ ∃ current,
      s.player.measure (s.inventory.set place { item with equipped := worn }) = .ok current ∧
      effect.state = { s with
        player := s.player.withCurrent current
        inventory := s.inventory.set place { item with equipped := worn } } := by
  obtain ⟨r, member, needs, does, tag⟩ := wears.exists_rule
  constructor
  · have complete := complete_of_dispatch run (Registry.find?_of_mem member tag)
    exact wears.named ▸ Params.written_of_lacks (complete "name" (needs ▸ List.mem_cons_self))
  · obtain ⟨raw, done, led⟩ := done_of_dispatch member does tag run
    obtain ⟨messages, wearing⟩ :=
      wearItem_of_other c.params (wears.named.symm ▸ found) other
    rw [wearing] at done
    obtain ⟨current, measured, rfl⟩ := exists_of_map_eq_ok done
    refine ⟨current, measured, led.trans ?_⟩
    apply GameState.legalize_eq_self
    exact legal_of_measured legal (stocked_worn legal.stocked found worn) measured

end Command

open GameState

/-- What was put on and is taken off stands in the inventory as it stood. -/
theorem set_taken_off {s : GameState} {called : String} {place : ℕ} {item : Item}
    (found : findNamed? s.inventory called = some (place, item)) (unworn : item.equipped = false) :
    (s.inventory.set place { item with equipped := true }).set place
      { item with equipped := false } = s.inventory := by
  obtain ⟨bound, there⟩ := List.getElem?_eq_some_iff.mp (getElem?_of_findNamed? found)
  have same : { item with equipped := false } = s.inventory[place] := by
    rw [there, ← unworn]
  rw [List.set_set, same, List.set_getElem_self]

/-- Putting on again what was taken off never compounds. In a legal state in sync, where a name
means an item that is not worn and putting it on is accepted, taking it off is accepted next, and
then putting it on leads to exactly the state that it led to first, whatever the bonuses of the item
are. To put on what is worn, and to take off what is not, changes nothing. -/
theorem rewearing_never_compounds {s : GameState} {called : String} {place : ℕ} {item : Item}
    {c : Command} {supply rest : Supply} {effect : Effect} (legal : s.legalize = s)
    (sync : s.InSync) (found : findNamed? s.inventory called = some (place, item))
    (unworn : item.equipped = false) (puts : c.Wears true called)
    (run : dispatch .standard s c supply = (.ok effect, rest)) :
    ∃ u, (∀ off : Command, off.Wears false called → off.Takes effect.state u) ∧
      (∀ on : Command, on.Wears true called → on.Takes u effect.state) ∧
      (∀ on : Command, on.Wears true called → on.Takes effect.state effect.state) ∧
      (∀ off : Command, off.Wears false called → off.Takes u u ∧ off.Takes s s) := by
  have legal : s.Legal := legal ▸ legalize_legal s
  have sync : s.player.InSync s.inventory := StatBlock.refresh_eq_self_iff.mp sync
  have other : item.equipped ≠ true := by simp [unworn]
  obtain ⟨written, current, measured, same⟩ := puts.of_dispatch legal found other run
  rw [same]
  let t : GameState := { s with
    player := s.player.withCurrent current
    inventory := s.inventory.set place { item with equipped := true } }
  let u : GameState := { s with
    player := (s.player.withCurrent current).withCurrent s.player.current }
  -- The sources are the same all the way.
  have unmeasured : t.player.measure s.inventory = .ok s.player.current :=
    (StatBlock.measure_congr rfl rfl).trans sync.measured
  have remeasured : u.player.measure t.inventory = .ok current :=
    (StatBlock.measure_congr rfl rfl).trans measured
  have legalT : t.Legal :=
    legal_of_measured legal (stocked_worn legal.stocked found true) measured
  have legalU : u.Legal := legal_of_measured legalT legal.stocked unmeasured
  have foundT : findNamed? t.inventory called = some (place, { item with equipped := true }) :=
    findNamed?_set found rfl
  have back : t.inventory.set place { item with equipped := false } = s.inventory :=
    set_taken_off found unworn
  have cycle : u.player.withCurrent current = t.player := withCurrent_cycle sync current
  refine ⟨u, ?_, ?_, ?_, ?_⟩
  · intro off wears
    have takes := wears.takes_of_other written legalT foundT Bool.false_ne_true.symm
      (back.symm ▸ unmeasured)
    rw [back] at takes
    exact takes
  · intro on wears
    have takes := wears.takes_of_other written legalU found other remeasured
    rw [cycle] at takes
    exact takes
  · exact fun on wears => wears.takes_of_same written legalT foundT rfl
  · intro off wears
    exact ⟨wears.takes_of_same written legalU found unworn,
      wears.takes_of_same written legal found unworn⟩

/-- Armour that halves the maximum of vitality halves the vitality once. Taken off it gives the
maximum back, put on again it halves nothing more. -/
theorem rewearing_never_compounds_armour :
    let armour : Item := { name := "Bone armour", statBonuses := [("hp", "-50%"), ("def", "4")] }
    let s : GameState := { inventory := [armour] }
    let on : Command := ⟨"ITEM_EQUIP", [("name", "bone armour")]⟩
    let off : Command := ⟨"item_unequip", [("name", "bone armour")]⟩
    let t : GameState := { s with
      player := { vitality := 50, current := ⟨50, 50, 10, 9, 10, 100⟩ }
      inventory := [{ armour with equipped := true }] }
    let u : GameState := { s with player := { vitality := 50 } }
    s.legalize = s ∧ s.InSync ∧ findNamed? s.inventory "bone armour" = some (0, armour) ∧
      armour.equipped = false ∧ on.Wears true "bone armour" ∧ off.Wears false "bone armour" ∧
      ((dispatch .standard s on {}).1.toOption.map (·.state)) = some t ∧
      off.Takes t u ∧ on.Takes u t ∧ on.Takes t t ∧ off.Takes u u := by
  intro armour s on off t u
  have legal : s.legalize = s := by decide +kernel
  have sync : s.InSync := eq_ok_of_toOption (by decide +kernel)
  have found : findNamed? s.inventory "bone armour" = some (0, armour) := by decide +kernel
  have puts : on.Wears true "bone armour" := ⟨by decide +kernel, rfl⟩
  have removes : off.Wears false "bone armour" := ⟨by decide +kernel, rfl⟩
  have led : ((dispatch .standard s on {}).1.toOption.map (·.state)) = some t := by decide +kernel
  obtain ⟨effect, done, same⟩ := Option.map_eq_some_iff.mp led
  have run : dispatch .standard s on {} = (.ok effect, _) := Prod.ext (eq_ok_of_toOption done) rfl
  obtain ⟨u', back, forth, again, rest⟩ := rewearing_never_compounds legal sync found rfl puts run
  rw [same] at back forth again
  have left : ((dispatch .standard t off {}).1.toOption.map (·.state)) = some u := by decide +kernel
  obtain ⟨other, undone, reached⟩ := Option.map_eq_some_iff.mp left
  obtain ⟨effect', run', same'⟩ := back off removes {}
  obtain rfl : u' = u := by
    rw [← same', ← reached]
    rw [run'] at undone
    exact congrArg Effect.state (Option.some.inj undone)
  exact ⟨legal, sync, found, rfl, puts, removes, led, back off removes, forth on puts,
    again on puts, (rest off removes).1⟩

end Ascent
