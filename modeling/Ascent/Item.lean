import Ascent.Pairs

/-!
Items of an inventory.

Main exports: `Item`, `ItemField`.
-/

namespace Ascent

/-- A stack of equal items. Bonuses are flat (`"5"`) or percentages (`"10%"`). -/
structure Item where
  name : String
  description : String := ""
  quantity : Int := 1
  category : String := "Material"
  rarity : String := "Common"
  tier : Option String := none
  tags : List String := []
  equipped : Bool := false
  statBonuses : Pairs String := []
  specialEffects : List String := []
  value : Option Int := none
deriving DecidableEq, Repr

/-- The fields of an item. -/
inductive ItemField where
  | name
  | description
  | quantity
  | category
  | rarity
  | tier
  | tags
  | equipped
  | statBonuses
  | specialEffects
  | value
deriving DecidableEq, Repr

/-- An item with one field taken from another one. -/
def Item.take (f : ItemField) (source target : Item) : Item :=
  match f with
  | .name => { target with name := source.name }
  | .description => { target with description := source.description }
  | .quantity => { target with quantity := source.quantity }
  | .category => { target with category := source.category }
  | .rarity => { target with rarity := source.rarity }
  | .tier => { target with tier := source.tier }
  | .tags => { target with tags := source.tags }
  | .equipped => { target with equipped := source.equipped }
  | .statBonuses => { target with statBonuses := source.statBonuses }
  | .specialEffects => { target with specialEffects := source.specialEffects }
  | .value => { target with value := source.value }

end Ascent
