import Ascent.Command.Effect

/-!
Commands about skills.

Main exports: `learnSkill`.
-/

namespace Ascent

/-- What learning a known skill again is worth in practice. -/
def relearnPractice : Int := 10

/-- The most practice that one command may give or take. -/
def maxPractice : Int := 800

/-- The document for the knowledge index about a skill. -/
def Skill.indexUpdate (s : Skill) : IndexUpdate :=
  indexByName "skill" s.name (describe s!"Skill: {s.name}" [s.description])

/-- A known skill after it is learned again. -/
def Skill.relearn (s : Skill) (gain : Option Int) (description : String) : Skill :=
  let practised := s.practise (max (-maxPractice) (min maxPractice (gain.getD relearnPractice)))
  if description = "" then practised else { practised with description := Text.trim description }

/-- A skill that is learned for the first time; practice can only add to it. -/
def Skill.learn (called description : String) (gain : Option Int) : Skill :=
  let s := Skill.ofName called (Text.trim description)
  match gain with
  | none => s
  | some gain => if gain = 0 then s else s.practise (max 0 (min maxPractice gain))

/-- A skill is learned, or practised where it is known. -/
def learnSkill (state : GameState) (params : Params) : Except Fault Effect :=
  let called := sanitizeName (params.required "name")
  let gain := params.integer? "proficiency"
  match findNamed? state.skills called with
  | some (place, known) =>
    let s := known.relearn gain ((params.value? "description").getD "")
    .ok {
      state := { state with skills := state.skills.set place s }
      updates := [s.indexUpdate]
      messages := [s!"{s.name} proficiency: {s.proficiencyTier} "
        ++ s!"({s.proficiency}/{s.maxProficiency})"] }
  | none => do
    let s := Skill.learn called (← params.textOr "description" "") gain
    return {
      state := { state with skills := state.skills ++ [s] }
      updates := [s.indexUpdate]
      messages := [s!"Learned {s.name}"] }

end Ascent
