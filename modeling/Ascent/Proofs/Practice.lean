import Ascent.Skill
import Mathlib.Algebra.BigOperators.Group.List.Basic
import Mathlib.Algebra.Order.Group.Int
import Mathlib.Algebra.Ring.Int.Defs

/-!
Practice is conserved from grade to grade.

What a skill has been practised in all is its proficiency and the ceilings of the grades below its
own. A promotion takes a ceiling off the one and puts it on the other, so only the amount itself
changes the sum: by all of it, except that a loss ends at the foot of the grade and a gain at the
ceiling of the last one. What is left within the grade is less than its ceiling, so the sum alone
says how the skill stands, and gains may be made in any portions and in any order.

Main exports: `Grade.base`, `Grade.summit`, `Grade.climb_reaches`, `Skill.total`, `Skill.Settled`,
`Skill.Settled.eq_of_total`, `Skill.practise_practise`, `practice_adds_up`.
-/

namespace Ascent

namespace Grade

/-! ### The climb through the grades -/

/-- What it takes to reach a grade: the ceilings of the grades below. -/
def base (g : Grade) : Int := ((all.takeWhile (· ≠ g)).map ceiling).sum

/-- The most that a skill can be practised: the ceilings of all grades. -/
def summit : Int := (all.map ceiling).sum

theorem ofName_name (g : Grade) : ofName g.name = g := by
  cases g <;> decide +kernel

/-- The next grade begins where the ceiling of the one before ends. -/
theorem next_of_above {g next : Grade} {rest : List Grade} (h : g.above = next :: rest) :
    next.above = rest ∧ next.base = g.base + g.ceiling := by
  cases g <;> cases h <;> exact ⟨rfl, by decide⟩

theorem eq_transcendent_of_above {g : Grade} (h : g.above = []) : g = .transcendent := by
  cases g with
  | transcendent => rfl
  | _ => cases h

theorem ceiling_pos (g : Grade) : 0 < g.ceiling := by
  cases g <;> decide

theorem base_add_ceiling_le (g : Grade) : g.base + g.ceiling ≤ summit := by
  cases g <;> decide

theorem base_add_ceiling_le_base {g higher : Grade} (h : higher ∈ g.above) :
    g ≠ .transcendent ∧ g.base + g.ceiling ≤ higher.base := by
  cases g <;> cases higher <;> revert h <;> decide

theorem eq_or_above (g h : Grade) : g = h ∨ h ∈ g.above ∨ g ∈ h.above := by
  cases g <;> cases h <;> decide

/-- A proficiency within a grade is less than it takes to reach a higher one. -/
theorem eq_of_total {g h : Grade} {p q : Int} (nonneg : 0 ≤ p) (nonneg' : 0 ≤ q)
    (below : g ≠ .transcendent → p < g.ceiling) (below' : h ≠ .transcendent → q < h.ceiling)
    (same : g.base + p = h.base + q) : g = h := by
  rcases eq_or_above g h with rfl | higher | lower
  · rfl
  · obtain ⟨left_, room⟩ := base_add_ceiling_le_base higher
    have := below left_
    omega
  · obtain ⟨left_, room⟩ := base_add_ceiling_le_base lower
    have := below' left_
    omega

/-- The grade and proficiency that a climb reaches from a proficiency in a grade. -/
structure Reaches (g : Grade) (proficiency : Int) (reached : Grade × Int) : Prop where
  total : reached.1.base + reached.2 = g.base + proficiency
  nonneg : 0 ≤ reached.2
  below : reached.1 ≠ .transcendent → reached.2 < reached.1.ceiling
  grade : reached.1 = g ∨ reached.1 ∈ g.above

theorem climb_reaches {above : List Grade} {g : Grade} {proficiency : Int}
    (grades : g.above = above) (nonneg : 0 ≤ proficiency) :
    g.Reaches proficiency (climb above g proficiency) := by
  induction above generalizing g proficiency with
  | nil =>
      have last := eq_transcendent_of_above grades
      exact ⟨rfl, nonneg, fun other => absurd last other, .inl rfl⟩
  | cons next rest ih =>
      obtain ⟨later, start⟩ := next_of_above grades
      unfold climb
      split
      -- the ceiling that is covered goes from the proficiency to the base of the next grade
      · next covered =>
          have reaches := ih later (Int.sub_nonneg_of_le covered)
          refine ⟨?_, reaches.nonneg, reaches.below, .inr ?_⟩
          · rw [reaches.total, start]
            omega
          · rw [grades]
            rcases reaches.grade with here | further
            · rw [here]
              exact List.mem_cons_self
            · exact List.mem_cons_of_mem next (later ▸ further)
      · next short => exact ⟨rfl, nonneg, fun _ => Int.lt_of_not_ge short, .inl rfl⟩

end Grade

namespace Skill

/-! ### What a skill has been practised -/

/-- The grade of a skill. -/
def grade (s : Skill) : Grade := Grade.ofName s.proficiencyTier

/-- What a skill has been practised in all. -/
def total (s : Skill) : Int := s.grade.base + s.proficiency

/-- How a skill stands once it has been practised: under the name of its grade, with the ceiling of
that grade, and within it, below the ceiling unless the grade is the last one. -/
structure Settled (s : Skill) : Prop where
  named : s.proficiencyTier = s.grade.name
  ceiling : s.maxProficiency = s.grade.ceiling
  nonneg : 0 ≤ s.proficiency
  within : s.proficiency ≤ s.maxProficiency
  below : s.grade ≠ .transcendent → s.proficiency < s.maxProficiency

/-- The skills differ in how far they have been practised at most. -/
def Alike (s t : Skill) : Prop := ∃ proficiency maxProficiency proficiencyTier,
  t = { s with proficiency, maxProficiency, proficiencyTier }

variable {s t : Skill} {a b : Int}

/-- What a settled skill has been practised in all says how it stands. -/
theorem Settled.eq_of_total (h : s.Settled) (k : t.Settled) (alike : s.Alike t)
    (same : s.total = t.total) : s = t := by
  have grades : s.grade = t.grade :=
    Grade.eq_of_total h.nonneg k.nonneg (h.ceiling ▸ h.below) (k.ceiling ▸ k.below) same
  have proficiencies : s.proficiency = t.proficiency := by
    unfold total at same
    rw [grades] at same
    omega
  have ceilings : s.maxProficiency = t.maxProficiency := by
    rw [h.ceiling, k.ceiling, grades]
  have names : s.proficiencyTier = t.proficiencyTier := by
    rw [h.named, k.named, grades]
  obtain ⟨proficiency, maxProficiency, proficiencyTier, rfl⟩ := alike
  obtain rfl : s.proficiency = proficiency := proficiencies
  obtain rfl : s.maxProficiency = maxProficiency := ceilings
  obtain rfl : s.proficiencyTier = proficiencyTier := names
  rfl

theorem Alike.symm_trans {u : Skill} (h : s.Alike t) (k : s.Alike u) : t.Alike u := by
  obtain ⟨_, _, _, rfl⟩ := h
  obtain ⟨_, _, _, rfl⟩ := k
  exact ⟨_, _, _, rfl⟩

theorem Alike.trans {u : Skill} (h : s.Alike t) (k : t.Alike u) : s.Alike u := by
  obtain ⟨_, _, _, rfl⟩ := h
  obtain ⟨_, _, _, rfl⟩ := k
  exact ⟨_, _, _, rfl⟩

/-! ### Practice -/

/-- The skill at a grade, with a proficiency in it or else the ceiling. -/
def standing (s : Skill) (reached : Grade × Int) : Skill :=
  { s with
    proficiency := min reached.2 reached.1.ceiling
    maxProficiency := reached.1.ceiling
    proficiencyTier := reached.1.name }

theorem grade_standing (s : Skill) (reached : Grade × Int) :
    (s.standing reached).grade = reached.1 := Grade.ofName_name reached.1

section

variable {g : Grade} {proficiency : Int} {reached : Grade × Int}

theorem settled_standing (h : g.Reaches proficiency reached) : (s.standing reached).Settled where
  named := by
    rw [grade_standing]
    rfl
  ceiling := by
    rw [grade_standing]
    rfl
  nonneg := le_min h.nonneg (Grade.ceiling_pos reached.1).le
  within := min_le_right _ _
  below lower := by
    rw [grade_standing] at lower
    exact lt_of_le_of_lt (min_le_left _ _) (h.below lower)

theorem total_standing (h : g.Reaches proficiency reached) :
    (s.standing reached).total = min Grade.summit (g.base + proficiency) := by
  have room := Grade.base_add_ceiling_le reached.1
  rw [total, grade_standing, ← h.total]
  change reached.1.base + min reached.2 reached.1.ceiling = _
  by_cases last : reached.1 = .transcendent
  · have full : reached.1.base + reached.1.ceiling = Grade.summit := by
      rw [last]
      decide
    omega
  · have below := h.below last
    omega

end

/-- What an amount of practice does: the skill is settled, no lower than it was, and what it has
been practised in all has changed by the amount, between the foot of its grade and the summit. -/
structure Practised (s : Skill) (amount : Int) (after : Skill) : Prop where
  alike : s.Alike after
  settled : after.Settled
  grade : after.grade = s.grade ∨ after.grade ∈ s.grade.above
  total : after.total = min Grade.summit (max s.grade.base (s.total + amount))

theorem practise_practised (s : Skill) (amount : Int) :
    s.Practised amount (s.practise amount) := by
  have reaches : s.grade.Reaches (max 0 (s.proficiency + amount))
      (Grade.climb s.grade.above s.grade (max 0 (s.proficiency + amount))) :=
    Grade.climb_reaches rfl (le_max_left 0 _)
  have after : s.practise amount =
      s.standing (Grade.climb s.grade.above s.grade (max 0 (s.proficiency + amount))) := rfl
  rw [after]
  refine ⟨⟨_, _, _, rfl⟩, settled_standing reaches, ?_, ?_⟩
  · rw [grade_standing]
    exact reaches.grade
  · have foot : s.grade.base + max 0 (s.proficiency + amount) =
        max s.grade.base (s.total + amount) := by
      unfold total
      omega
    rw [total_standing reaches, foot]

/-- A gain is a gain in all. -/
theorem total_practise (start : 0 ≤ s.proficiency) (gain : 0 ≤ a) :
    (s.practise a).total = min Grade.summit (s.total + a) := by
  have foot : s.grade.base ≤ s.total + a := by
    unfold total
    omega
  rw [(s.practise_practised a).total, max_eq_right foot]

/-- To practise twice comes to the same as to practise once. -/
theorem practise_practise (start : 0 ≤ s.proficiency) (gain : 0 ≤ a) (gain' : 0 ≤ b) :
    (s.practise a).practise b = s.practise (a + b) := by
  have first := s.practise_practised a
  have second := (s.practise a).practise_practised b
  have whole := s.practise_practised (a + b)
  refine second.settled.eq_of_total whole.settled
    ((first.alike.trans second.alike).symm_trans whole.alike) ?_
  rw [total_practise first.settled.nonneg gain', total_practise start gain,
    total_practise start (Int.add_nonneg gain gain')]
  omega

theorem foldl_practise {gains : List Int} (start : 0 ≤ s.proficiency) (gain : 0 ≤ a)
    (all : ∀ b ∈ gains, 0 ≤ b) :
    gains.foldl practise (s.practise a) = s.practise (a + gains.sum) := by
  induction gains generalizing a with
  | nil => rw [List.foldl_nil, List.sum_nil, Int.add_zero]
  | cons b gains ih =>
      have gain' : 0 ≤ b := all b List.mem_cons_self
      rw [List.foldl_cons, practise_practise start gain gain',
        ih (Int.add_nonneg gain gain') fun c later => all c (List.mem_cons_of_mem b later),
        List.sum_cons, Int.add_assoc]

end Skill

/-- **Practice adds up.** An amount of practice moves what a skill has been practised in all by
just that amount, between the foot of its grade and the summit, and the skill stands where that
total says. So gains, in whatever portions and order, leave the skill as their sum would. -/
theorem practice_adds_up (s : Skill) (start : 0 ≤ s.proficiency) :
    (∀ amount, s.Practised amount (s.practise amount)) ∧
    ∀ gains portions : List Int, gains ≠ [] → (∀ a ∈ gains, 0 ≤ a) → portions.Perm gains →
      portions.foldl Skill.practise s = s.practise gains.sum := by
  refine ⟨s.practise_practised, fun gains portions some_ all order => ?_⟩
  cases portions with
  | nil => exact absurd order.nil_eq.symm some_
  | cons a rest =>
      have each (b : Int) (member : b ∈ a :: rest) : 0 ≤ b := all b (order.mem_iff.mp member)
      rw [List.foldl_cons, Skill.foldl_practise start (each a List.mem_cons_self)
        fun b later => each b (List.mem_cons_of_mem a later), ← List.sum_cons, order.sum_eq]

/-- A skill under a grade that does not exist, practised past two ceilings, then set back, and the
same gains in another order. -/
theorem practice_adds_up_two_ceilings :
    let s : Skill := { name := "Sword Dance", proficiencyTier := "Legend", proficiency := 40 }
    0 ≤ s.proficiency ∧ (s.practise 300).total = 340 ∧ (s.practise (-50)).total = 0 ∧
      [200, 0, 100].foldl Skill.practise s = s.practise 300 := by
  intro s
  have start : 0 ≤ s.proficiency := by decide
  refine ⟨start, ?_, ?_, ?_⟩
  · exact ((practice_adds_up s start).1 300).total.trans (by decide +kernel)
  · exact ((practice_adds_up s start).1 (-50)).total.trans (by decide +kernel)
  · exact (practice_adds_up s start).2 [100, 200, 0] [200, 0, 100] (by decide) (by decide)
      (by decide)

end Ascent
