/-!
The attributes that tiers, bonuses and equipment act on.

Main exports: `Attribute`, `Attributes`, `Attributes.get`, `Attributes.set`, `Attributes.map`.
-/

namespace Ascent

/-- An attribute of a combatant. -/
inductive Attribute where
  | maxVitality
  | maxResource
  | offense
  | defense
  | speed
  | experienceToNext
deriving DecidableEq, Repr

/-- One value for each attribute. -/
structure Attributes (α : Type) where
  maxVitality : α
  maxResource : α
  offense : α
  defense : α
  speed : α
  experienceToNext : α
deriving DecidableEq, Repr

namespace Attribute

/-- All attributes, in the order in which they are shown. -/
def all : List Attribute :=
  [.maxVitality, .maxResource, .offense, .defense, .speed, .experienceToNext]

/-- The name under which records hold an attribute. -/
def key : Attribute → String
  | .maxVitality => "max_vitality"
  | .maxResource => "max_resource"
  | .offense => "offense"
  | .defense => "defense"
  | .speed => "speed"
  | .experienceToNext => "experience_to_next"

end Attribute

namespace Attributes

variable {α β : Type}

/-- The value of an attribute. -/
def get (vs : Attributes α) : Attribute → α
  | .maxVitality => vs.maxVitality
  | .maxResource => vs.maxResource
  | .offense => vs.offense
  | .defense => vs.defense
  | .speed => vs.speed
  | .experienceToNext => vs.experienceToNext

/-- The values with one of them changed. -/
def set (vs : Attributes α) (a : Attribute) (v : α) : Attributes α :=
  match a with
  | .maxVitality => { vs with maxVitality := v }
  | .maxResource => { vs with maxResource := v }
  | .offense => { vs with offense := v }
  | .defense => { vs with defense := v }
  | .speed => { vs with speed := v }
  | .experienceToNext => { vs with experienceToNext := v }

/-- The value that a rule gives each attribute. -/
def ofFn (f : Attribute → α) : Attributes α :=
  ⟨f .maxVitality, f .maxResource, f .offense, f .defense, f .speed, f .experienceToNext⟩

/-- The values changed one by one. -/
def map (f : α → β) (vs : Attributes α) : Attributes β := ofFn fun a => f (vs.get a)

/-- The values of a rule that may fail, tried attribute after attribute. -/
def ofFnM {m : Type → Type} [Monad m] (f : Attribute → m α) : m (Attributes α) := do
  return ⟨← f .maxVitality, ← f .maxResource, ← f .offense, ← f .defense, ← f .speed,
    ← f .experienceToNext⟩

theorem get_ofFn (f : Attribute → α) (a : Attribute) : (ofFn f).get a = f a := by cases a <;> rfl

theorem get_set (vs : Attributes α) (a b : Attribute) (v : α) :
    (vs.set a v).get b = if b = a then v else vs.get b := by cases a <;> cases b <;> rfl

theorem ext_get {vs ws : Attributes α} (h : ∀ a, vs.get a = ws.get a) : vs = ws := by
  cases vs
  cases ws
  have h₁ := h .maxVitality
  have h₂ := h .maxResource
  have h₃ := h .offense
  have h₄ := h .defense
  have h₅ := h .speed
  have h₆ := h .experienceToNext
  simp_all [get]

end Attributes
end Ascent
