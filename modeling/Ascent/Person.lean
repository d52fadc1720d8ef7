import Ascent.StatBlock

/-!
The people of a world.

Main exports: `Person`, `PersonField`, `Flag`, `Circle`, `Cast`.
-/

namespace Ascent

/-- A feeling and how strong it is. -/
structure Emotion where
  label : String
  intensity : Int := 50
deriving DecidableEq, Repr

/-- What a person remembers under a name. -/
inductive Flag where
  | truth (b : Bool)
  | whole (n : Int)
  | real (x : Double)
  | text (s : String)
deriving DecidableEq

/-- The fields of a person. -/
inductive PersonField where
  | id
  | name
  | description
  | personality
  | thoughtsOnPlayer
  | physicalState
  | category
  | location
  | tags
  | tier
  | stats
  | affinity
  | memoryFlags
  | emotion
  | archetype
  | aptitude
  | physique
  | spiritualRoot
  | race
  | title
  | resistance
  | willpower
  | isAlive
  | bottleneckTurns
deriving DecidableEq, Repr

/-- A person. `given` lists the fields that were ever set explicitly: the others hold defaults,
which count for nothing when two records of one person are merged. -/
structure Person where
  id : String
  name : String
  description : String := ""
  personality : String := ""
  thoughtsOnPlayer : String := ""
  physicalState : String := ""
  category : String := "npc"
  location : String := ""
  tags : List String := []
  tier : Option String := none
  stats : Option StatBlock := none
  affinity : Int := 0
  memoryFlags : Pairs Flag := []
  emotion : Option Emotion := none
  archetype : Option String := none
  aptitude : Option String := none
  physique : Option String := none
  spiritualRoot : Option String := none
  race : Option String := none
  title : Option String := none
  resistance : Int := 0
  willpower : Int := 0
  isAlive : Bool := true
  bottleneckTurns : Int := 0
  given : List PersonField := []
deriving DecidableEq

namespace Person

/-- A person with one field taken from another one. -/
def take (f : PersonField) (source target : Person) : Person :=
  match f with
  | .id => { target with id := source.id }
  | .name => { target with name := source.name }
  | .description => { target with description := source.description }
  | .personality => { target with personality := source.personality }
  | .thoughtsOnPlayer => { target with thoughtsOnPlayer := source.thoughtsOnPlayer }
  | .physicalState => { target with physicalState := source.physicalState }
  | .category => { target with category := source.category }
  | .location => { target with location := source.location }
  | .tags => { target with tags := source.tags }
  | .tier => { target with tier := source.tier }
  | .stats => { target with stats := source.stats }
  | .affinity => { target with affinity := source.affinity }
  | .memoryFlags => { target with memoryFlags := source.memoryFlags }
  | .emotion => { target with emotion := source.emotion }
  | .archetype => { target with archetype := source.archetype }
  | .aptitude => { target with aptitude := source.aptitude }
  | .physique => { target with physique := source.physique }
  | .spiritualRoot => { target with spiritualRoot := source.spiritualRoot }
  | .race => { target with race := source.race }
  | .title => { target with title := source.title }
  | .resistance => { target with resistance := source.resistance }
  | .willpower => { target with willpower := source.willpower }
  | .isAlive => { target with isAlive := source.isAlive }
  | .bottleneckTurns => { target with bottleneckTurns := source.bottleneckTurns }

/-- A person of whom more fields count as set. -/
def giving (fields : List PersonField) (p : Person) : Person :=
  { p with given := p.given ++ fields.filter (!p.given.contains ·) }

end Person

/-- The circles of people around the player. -/
inductive Circle where
  | encountered
  | companions
  | wives
  | slaves
  | prisoners
deriving DecidableEq, Repr

/-- All circles, in the order in which people are looked for. -/
def Circle.all : List Circle := [.encountered, .companions, .wives, .slaves, .prisoners]

/-- The people of each circle. -/
structure Cast where
  encountered : List Person := []
  companions : List Person := []
  wives : List Person := []
  slaves : List Person := []
  prisoners : List Person := []
deriving DecidableEq

namespace Cast

/-- The people of a circle. -/
def get (cast : Cast) : Circle → List Person
  | .encountered => cast.encountered
  | .companions => cast.companions
  | .wives => cast.wives
  | .slaves => cast.slaves
  | .prisoners => cast.prisoners

/-- The people with those of one circle changed. -/
def set (cast : Cast) (circle : Circle) (people : List Person) : Cast :=
  match circle with
  | .encountered => { cast with encountered := people }
  | .companions => { cast with companions := people }
  | .wives => { cast with wives := people }
  | .slaves => { cast with slaves := people }
  | .prisoners => { cast with prisoners := people }

/-- The people that a rule gives each circle. -/
def ofFn (f : Circle → List Person) : Cast :=
  ⟨f .encountered, f .companions, f .wives, f .slaves, f .prisoners⟩

theorem get_set (cast : Cast) (c d : Circle) (people : List Person) :
    (cast.set c people).get d = if d = c then people else cast.get d := by
  cases c <;> cases d <;> rfl

theorem get_ofFn (f : Circle → List Person) (c : Circle) : (ofFn f).get c = f c := by
  cases c <;> rfl

end Cast
end Ascent
