import Ascent.Named

/-!
Finding people among the circles around the player.

Main exports: `Located`, `GameState.locate?`, `GameState.store`.
-/

namespace Ascent

/-- Where a person is: the circle, the place in it, and the record. -/
structure Located where
  circle : Circle
  place : Nat
  person : Person
deriving DecidableEq

namespace GameState

/-- The first person of a name in one of several circles. -/
def locateIn? (state : GameState) (circles : List Circle) (called : String) : Option Located :=
  circles.findSome? fun circle =>
    (findNamed? (state.people circle) called).map fun (place, person) => ⟨circle, place, person⟩

/-- Who is looked for in several circles is found in one of them. -/
theorem findNamed?_of_locateIn? {state : GameState} {circles : List Circle} {called : String}
    {found : Located} (there : state.locateIn? circles called = some found) :
    found.circle ∈ circles ∧
      findNamed? (state.people found.circle) called = some (found.place, found.person) := by
  obtain ⟨circle, member, there⟩ := List.exists_of_findSome?_eq_some there
  obtain ⟨_, named, rfl⟩ := Option.map_eq_some_iff.mp there
  exact ⟨member, named⟩

/-- The first person of a name, looked for in every circle in order. -/
def locate? (state : GameState) (called : String) : Option Located :=
  state.locateIn? Circle.all called

/-- The state with the record of a located person replaced. -/
def store (state : GameState) (at_ : Located) (person : Person) : GameState :=
  state.setPeople at_.circle ((state.people at_.circle).set at_.place person)

end GameState
end Ascent
