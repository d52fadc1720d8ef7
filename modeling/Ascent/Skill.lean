import Ascent.Fault
import Ascent.Number.Double
import Ascent.Text.Basic
import Ascent.Text.Case

/-!
Skills and how one gets better at them.

A skill has a grade and a proficiency within it. Proficiency beyond the ceiling of a grade carries
over into the next one; the last grade keeps its proficiency below its ceiling and is never left.

Main exports: `Skill`, `Grade`, `Skill.ofName`, `Skill.practise`, `Skill.power`, `Skill.cost`.
-/

namespace Ascent

/-- A skill. -/
structure Skill where
  name : String
  description : String := ""
  resourceCost : Int := 0
  effect : String := ""
  proficiency : Int := 0
  maxProficiency : Int := 100
  proficiencyTier : String := "Novice"
deriving DecidableEq, Repr

/-- The fields of a skill. -/
inductive SkillField where
  | name
  | description
  | resourceCost
  | effect
  | proficiency
  | maxProficiency
  | proficiencyTier
deriving DecidableEq, Repr

/-- The grades of proficiency. -/
inductive Grade where
  | novice
  | adept
  | expert
  | master
  | transcendent
deriving DecidableEq, Repr

namespace Grade

/-- All grades, from the lowest up. -/
def all : List Grade := [.novice, .adept, .expert, .master, .transcendent]

/-- The name of a grade. -/
def name : Grade → String
  | .novice => "Novice"
  | .adept => "Adept"
  | .expert => "Expert"
  | .master => "Master"
  | .transcendent => "Transcendent"

/-- The proficiency at which a grade is left; the last one, which is not, has the ceiling of the one
before. -/
def ceiling : Grade → Int
  | .novice => 100
  | .adept => 200
  | .expert => 400
  | .master => 800
  | .transcendent => 800

/-- The grades above. -/
def above : Grade → List Grade
  | .novice => [.adept, .expert, .master, .transcendent]
  | .adept => [.expert, .master, .transcendent]
  | .expert => [.master, .transcendent]
  | .master => [.transcendent]
  | .transcendent => []

/-- What the power of a skill is multiplied by. -/
def powerFactor : Grade → Double
  | .novice => 1
  | .adept => 2
  | .expert => 3
  | .master => 4
  | .transcendent => 5

/-- What the cost of a skill is multiplied by. -/
def costFactor : Grade → Double
  | .novice => 1
  | .adept => 0.8
  | .expert => 0.6
  | .master => 0.4
  | .transcendent => 0.2

/-- The grade with a name, case and blanks around it aside; the lowest for any other name. -/
def ofName (name : String) : Grade :=
  let key := Text.lower (Text.trim name)
  (all.find? fun g => Text.lower g.name == key).getD .novice

/-- The grade whose name is written exactly so. -/
def ofExactName? (name : String) : Option Grade := all.find? fun g => g.name == name

/-- The grade and proficiency reached from a proficiency in a grade, through the grades above. -/
def climb : List Grade → Grade → Int → Grade × Int
  | [], g, proficiency => (g, proficiency)
  | next :: above, g, proficiency =>
    if g.ceiling ≤ proficiency then climb above next (proficiency - g.ceiling)
    else (g, proficiency)

end Grade

/-- What a kind of skill does, how strongly, and at what cost. -/
structure SkillTemplate where
  effect : String
  power : Int
  cost : Int
deriving DecidableEq, Repr

namespace SkillTemplate

/-- What every skill without a template of its own does. -/
def basic : SkillTemplate := ⟨"DAMAGE_HP", 10, 0⟩

/-- The known kinds of skill. -/
def known : List (String × SkillTemplate) :=
  [("basic attack", basic), ("heavy strike", ⟨"DAMAGE_HP", 30, 10⟩),
   ("healing art", ⟨"HEAL_HP", 40, 15⟩), ("qi restoration", ⟨"RESTORE_MP", 40, 0⟩)]

/-- The template of a skill's name, case and blanks around it aside. -/
def ofName? (name : String) : Option SkillTemplate := known.lookup (Text.lower (Text.trim name))

end SkillTemplate

namespace Skill

/-- What a skill without a template costs. -/
def unknownCost : Int := 5

/-- A skill that has just been learned. -/
def ofName (name : String) (description : String) : Skill :=
  let template := (SkillTemplate.ofName? name).getD .basic
  { name := name
    description := description
    effect := template.effect
    resourceCost := ((SkillTemplate.ofName? name).map (·.cost)).getD unknownCost }

/-- A skill after an amount of practice, promoted through the grades; what is lost by a negative
amount is never more than the grade holds. -/
def practise (skill : Skill) (amount : Int) : Skill :=
  let grade := Grade.ofName skill.proficiencyTier
  let (reached, proficiency) := Grade.climb grade.above grade (max 0 (skill.proficiency + amount))
  { skill with
    proficiency := min proficiency reached.ceiling
    maxProficiency := reached.ceiling
    proficiencyTier := reached.name }

/-- The product of an integer and a factor, toward zero. -/
def scaled (n : Int) (factor : Double) : Except Fault Int := do
  ((← Double.ofInt? n) * factor).truncate

/-- The power of a skill at its grade. -/
def power (skill : Skill) : Except Fault Int :=
  scaled ((SkillTemplate.ofName? skill.name).getD .basic).power
    (((Grade.ofExactName? skill.proficiencyTier).map Grade.powerFactor).getD 1)

/-- The cost of a skill at its grade. -/
def cost (skill : Skill) : Except Fault Int := do
  return max 0 (← scaled skill.resourceCost
    (((Grade.ofExactName? skill.proficiencyTier).map Grade.costFactor).getD 1))

/-- A skill with one field taken from another one. -/
def take (f : SkillField) (source target : Skill) : Skill :=
  match f with
  | .name => { target with name := source.name }
  | .description => { target with description := source.description }
  | .resourceCost => { target with resourceCost := source.resourceCost }
  | .effect => { target with effect := source.effect }
  | .proficiency => { target with proficiency := source.proficiency }
  | .maxProficiency => { target with maxProficiency := source.maxProficiency }
  | .proficiencyTier => { target with proficiencyTier := source.proficiencyTier }

end Skill
end Ascent
