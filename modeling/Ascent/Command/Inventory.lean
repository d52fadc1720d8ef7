import Ascent.Command.Bonuses
import Ascent.Command.Effect
import Ascent.Growth
import Ascent.Worth

/-!
Commands about what the player carries: taking, losing, wearing.

Items of one name are one stack. Bonuses act as soon as an item is worn, and a change of a worn item
is felt at once.

Main exports: `addItem`, `removeItem`, `wearItem`.
-/

namespace Ascent

/-- The most items that one command may bring or take. -/
def maxQuantity : Int := 9999

/-- How many items a command is about: one unless it says otherwise, and one at least. -/
def askedQuantity (params : Params) : Int :=
  max 1 (min maxQuantity ((params.integer? "quantity").getD 1))

/-- What the knowledge index holds about an item. -/
def Item.indexContent (i : Item) : String :=
  describe s!"Item: {i.name}"
    [i.description, s!"Category: {i.category}", s!"Rarity: {i.rarity}"]

namespace GameState

/-- The state with another inventory; the player's stats are computed afresh if `worn` items have
changed. -/
def withInventory (state : GameState) (worn : Bool) (inventory : List Item) :
    Except Fault GameState := do
  let player ← if worn then state.player.refresh inventory else pure state.player
  return { state with player := player, inventory := inventory }

/-- How many items of a name there are. -/
def carried (state : GameState) (called : String) : Int :=
  ((findNamed? state.inventory called).map fun (_, i) => i.quantity).getD 0

end GameState

/-- An item as a command describes it. -/
def Item.describedBy (i : Item) (fields : List (ItemField × FieldValue)) (bonuses : Pairs String)
    (quantity : Int) : Item :=
  { i.putAll fields with
    statBonuses := if bonuses.isEmpty then i.statBonuses else bonuses
    quantity := quantity }

/-- Items are added to the inventory. A stack grows and takes over what the command says of it; a
new one begins with one item at least. -/
def addItem (state : GameState) (params : Params) : Except Fault Effect := do
  let quantity := askedQuantity params
  let called := params.required "name"
  let fields := pickFields itemKeys ItemField.kind params
  let bonuses ← boundedModifiers params ["bonus.", "stat.", "stats."] "statbonuses" state.player
  let total := state.carried called + quantity
  match findNamed? state.inventory (sanitizeName called) with
  | some (place, known) =>
    let item := known.describedBy fields bonuses total
    let valued := { item with value := some (← item.worth state.settings) }
    return {
      state := ← state.withInventory valued.equipped (state.inventory.set place valued)
      updates := [indexByName "item" valued.name valued.indexContent]
      messages := [s!"Gained {quantity} x {valued.name}"] }
  | none =>
    if total < 1 then throw .outOfRange
    let item := ({ name := sanitizeName called : Item }).describedBy fields bonuses total
    let valued := { item with value := some (← item.worth state.settings) }
    return {
      state := { state with inventory := state.inventory ++ [valued] }
      updates := [indexByName "item" valued.name valued.indexContent]
      messages := [s!"Obtained {quantity} x {valued.name}"] }

/-- Items are lost. A stack that runs out is gone; what is not there is not missed. -/
def removeItem (state : GameState) (params : Params) : Except Fault Effect :=
  match findNamed? state.inventory (params.required "name") with
  | none => .ok (.none state)
  | some (place, item) => do
    let quantity := askedQuantity params
    let inventory :=
      if item.quantity ≤ quantity then state.inventory.eraseIdx place
      else state.inventory.set place { item with quantity := item.quantity - quantity }
    let lost := min quantity item.quantity
    return {
      state := ← state.withInventory item.equipped inventory
      messages := [s!"Lost {lost} x {item.name}"] }

/-- An item is put on, or taken off. -/
def wearItem (worn : Bool) (state : GameState) (params : Params) : Except Fault Effect :=
  match findNamed? state.inventory (params.required "name") with
  | none => .ok (.none state)
  | some (place, item) =>
    if item.equipped = worn then .ok (.none state)
    else do
      let inventory := state.inventory.set place { item with equipped := worn }
      return {
        state := ← state.withInventory true inventory
        messages := [(if worn then "Equipped " else "Unequipped ") ++ item.name] }

end Ascent
