import Ascent.Proofs.Labels
import Ascent.Proofs.Portions
import Mathlib.Algebra.BigOperators.Fin

/-!
What experience is spent on.

A climb pays the requirement of each rung that it leaves, and goes on until what is left does not
cover the next one, or the last minor tier is reached. There the requirement is paid once more, for
the peak, and the rest is dropped. How far it may go is reckoned from the rung where it begins; that
is just far enough for the peak, so no climb is cut short.

Main exports: `StatBlock.risen`, `Climb.Spends`, `climbMinors_spends`, `checkLevel_spends`.
-/

namespace Ascent

open Finset

/-- The stats after so many rebases, each to the next minor tier, with what experience they have. -/
def StatBlock.risen (settings : Settings) (rebase : Rebase) : ℕ → StatBlock → Except Fault StatBlock
  | 0, s => .ok s
  | k + 1, s => do
    let rung := settings.resolve s.tier
    let moved ← rebase s (settings.label rung.major (rung.minor + 1))
    risen settings rebase k moved

/-- What a climb with some experience `e` leads to: `n` levels up, where `stage k` are the stats
after `k` rebases. The requirement of each stage that was left is paid, and the climb ends either on
the way up, with what is left and does not cover the next requirement, or at the peak, where the
requirement is covered. -/
structure Climb.Spends (settings : Settings) (rebase : Rebase) (s : StatBlock) (e : ℤ)
    (result : Climb) (n : ℕ) (stage : ℕ → StatBlock) : Prop where
  stages : ∀ k ≤ n, s.risen settings rebase k = .ok (stage k)
  stats : result.stats = { stage n with
    experience := result.stats.experience, atPeak := result.reachedPeak }
  gained : result.levelsGained = n
  below : (settings.resolve s.tier).minor + n < settings.minorCount
  major : (settings.resolve result.stats.tier).major = (settings.resolve s.tier).major
  tier : 0 < n → result.stats.tier =
    settings.label (settings.resolve s.tier).major ((settings.resolve s.tier).minor + n : ℕ)
  spent :
    (result.stats.phase = .normal ∧ result.reachedPeak = false ∧
      result.stats.experience < (stage n).current.experienceToNext ∧
      e = ∑ k ∈ range n, (stage k).current.experienceToNext + result.stats.experience) ∨
    (result.stats.phase = .atPeak ∧ result.reachedPeak = true ∧
      (settings.resolve result.stats.tier).minor + 1 = settings.minorCount ∧
      result.stats.experience = (stage n).current.experienceToNext ∧
      ∑ k ∈ range (n + 1), (stage k).current.experienceToNext ≤ e)

/-- The stages of a climb that begins with one stage more. -/
def stagesFrom (first : StatBlock) (stage : ℕ → StatBlock) : ℕ → StatBlock
  | 0 => first
  | k + 1 => stage k

theorem sum_stagesFrom (first : StatBlock) (stage : ℕ → StatBlock) (n : ℕ) :
    ∑ k ∈ range (n + 1), (stagesFrom first stage k).current.experienceToNext =
      ∑ k ∈ range n, (stage k).current.experienceToNext + first.current.experienceToNext :=
  sum_range_succ' _ n

namespace Climb.Spends

variable {settings : Settings} {rebase : Rebase} {s : StatBlock} {e : ℤ}

/-- A climb that the experience is not enough for. -/
theorem of_short (normal : s.phase = .normal) (short : e < s.current.experienceToNext) :
    Spends settings rebase s e { stats := s.withExperience e } 0 fun _ => s where
  stages k within := by
    rw [Nat.le_zero.mp within]
    rfl
  stats := by
    obtain ⟨-, noPeak⟩ := StatBlock.phase_eq_normal_iff.mp normal
    rw [StatBlock.withExperience, ← noPeak]
  gained := rfl
  below := (settings.resolve_lt s.tier).2
  major := rfl
  tier more := absurd more (Nat.lt_irrefl 0)
  spent := .inl ⟨normal, rfl, short, by simp [StatBlock.withExperience]⟩

/-- A climb at the last minor tier, to the peak. -/
theorem of_last (normal : s.phase = .normal) (covered : s.current.experienceToNext ≤ e)
    (last : (settings.resolve s.tier).minor + 1 = settings.minorCount) (messages : List String) :
    Spends settings rebase s e
      { stats := { s with atPeak := true, experience := s.current.experienceToNext }
        reachedPeak := true
        messages := messages } 0 fun _ => s where
  stages k within := by
    rw [Nat.le_zero.mp within]
    rfl
  stats := rfl
  gained := rfl
  below := (settings.resolve_lt s.tier).2
  major := rfl
  tier more := absurd more (Nat.lt_irrefl 0)
  spent := by
    obtain ⟨noTrial, -⟩ := StatBlock.phase_eq_normal_iff.mp normal
    exact .inr ⟨by simp [StatBlock.phase, noTrial], rfl, last, rfl, by simpa using covered⟩

/-- One rung up, and a climb from there with what is left. -/
theorem of_rise {moved : StatBlock} {later : Climb} {n : ℕ} {stage : ℕ → StatBlock}
    (messages : List String)
    (rises : rebase s (settings.label (settings.resolve s.tier).major
      ((settings.resolve s.tier).minor + 1)) = .ok moved)
    (tier : moved.tier = settings.label (settings.resolve s.tier).major
      ((settings.resolve s.tier).minor + 1 : ℕ))
    (major : (settings.resolve moved.tier).major = (settings.resolve s.tier).major)
    (minor : (settings.resolve moved.tier).minor = (settings.resolve s.tier).minor + 1)
    (h : Spends settings rebase moved (e - s.current.experienceToNext) later n stage) :
    Spends settings rebase s e
      (({ stats := s, levelsGained := 1, messages := messages } : Climb).followedBy later) (n + 1)
      (stagesFrom s stage) where
  stages k within := by
    cases k with
    | zero => rfl
    | succ k =>
        rw [StatBlock.risen, rises]
        exact h.stages k (by omega)
  stats := h.stats
  gained := by
    change (1 : ℤ) + later.levelsGained = _
    rw [h.gained]
    push_cast
    omega
  below := by
    have := h.below
    omega
  major := h.major.trans major
  tier _ := by
    rcases Nat.eq_zero_or_pos n with rfl | more
    · have start : stage 0 = moved := (Except.ok.inj (h.stages 0 (Nat.le_refl 0))).symm
      have arrived : later.stats.tier = moved.tier := by
        rw [h.stats, start]
      exact arrived.trans tier
    · have arrived := h.tier more
      rw [major, minor] at arrived
      have place : (settings.resolve s.tier).minor + (n + 1) =
          (settings.resolve s.tier).minor + 1 + n := by omega
      rw [place]
      exact arrived
  spent := by
    rcases h.spent with ⟨normal, open_, short, paid⟩ | ⟨peak, reached, last, full, paid⟩
    · refine .inl ⟨normal, by simpa [Climb.followedBy] using open_, short, ?_⟩
      rw [sum_stagesFrom]
      change e = _ + later.stats.experience
      omega
    · refine .inr ⟨peak, by simpa [Climb.followedBy] using reached, last, full, ?_⟩
      rw [sum_stagesFrom]
      omega

end Climb.Spends

/-- A climb that may go as far as the peak of the major tier is never cut short. -/
theorem climbMinors_spends {settings : Settings} {rebase : Rebase} (own : settings.OwnLabels)
    (carries : rebase.Carries) {steps : ℕ} {s : StatBlock} {e : ℤ} {result : Climb}
    (normal : s.phase = .normal)
    (enough : steps = settings.minorCount - (settings.resolve s.tier).minor)
    (h : climbMinors settings rebase steps (settings.resolve s.tier)
      { stats := s.withExperience e } = .ok result) :
    ∃ n stage, result.Spends settings rebase s e n stage := by
  obtain ⟨majorLt, minorLt⟩ := settings.resolve_lt s.tier
  induction steps generalizing s e result with
  | zero => omega
  | succ steps ih =>
      rcases Int.lt_or_le e s.current.experienceToNext with short | covered
      · rw [climbMinors_short steps { stats := s } short] at h
        exact Except.ok.inj h ▸ ⟨0, _, .of_short normal short⟩
      cases last : (settings.resolve s.tier).isLastMinor with
      | true =>
          rw [climbMinors_peak steps { stats := s } covered last] at h
          have final := settings.isLastMinor_iff.mp last
          exact Except.ok.inj h ▸ ⟨0, _, .of_last normal covered final _⟩
      | false =>
          rw [climbMinors_rise carries steps { stats := s } covered last] at h
          obtain ⟨moved, rises, h⟩ := exists_of_bind_eq_ok h
          have place := carries.place rises
          have tier : moved.tier = settings.label (settings.resolve s.tier).major
            ((settings.resolve s.tier).minor + 1 : ℕ) := place.tier
          -- The label of the next rung stands for it, so the climb goes on from there.
          obtain ⟨major, minor⟩ := own _ _ majorLt (settings.isLastMinor_eq_false_iff.mp last)
          rw [← tier] at major minor
          let before : Climb :=
            { stats := s, levelsGained := 1, messages := [s!"Advanced to {moved.tier}!"] }
          obtain ⟨later, climbed, rfl⟩ : ∃ later, climbMinors settings rebase steps
              (settings.resolve moved.tier)
              { stats := moved.withExperience (e - s.current.experienceToNext) } = .ok later ∧
              before.followedBy later = result := by
            refine exists_of_map_eq_ok ((climbMinors_followedBy ..).symm.trans ?_)
            simp only [followedBy_start, before, tier]
            exact h
          obtain ⟨movedMajor, movedMinor⟩ := settings.resolve_lt moved.tier
          obtain ⟨n, stage, spends⟩ :=
            ih (place.phase.trans normal) (by omega) climbed movedMajor movedMinor
          exact ⟨n + 1, _, .of_rise _ rises tier major minor spends⟩

/-- **Experience is spent and neither lost nor invented.** On a ladder whose labels stand for their
own rungs, the climb of somebody on the way up, by the formula or in proportion, pays the
requirement of every rung that it leaves, and stops only where the rest does not cover the next one
or at the peak of the major tier. -/
theorem checkLevel_spends {settings : Settings} (own : settings.OwnLabels) (items : List Item)
    {rebase : Rebase}
    (way : rebase = .ofFormula settings items ∨ rebase = .inProportion settings)
    {s : StatBlock} (normal : s.phase = .normal) (climber : settings.isMortal s.tier = false)
    {result : Climb} (h : checkLevel s settings rebase = .ok result) :
    ∃ n stage, result.Spends settings rebase s s.experience n stage := by
  have carries : rebase.Carries := by
    rcases way with rfl | rfl
    · exact Rebase.ofFormula_carries settings items
    · exact Rebase.inProportion_carries settings
  rw [checkLevel_climber normal climber] at h
  exact climbMinors_spends own carries normal rfl h

/-- Two requirements are paid, the second raised by what is worn, and then the one of the peak. -/
theorem checkLevel_spends_past_two_rungs :
    let token : Item :=
      { name := "Jade Token", equipped := true, statBonuses := [("maxexp", "10%")] }
    let s : StatBlock := { tier := "Qi Refining Layer 7", experience := 5090 }
    ∃ result, checkLevel s {} (.ofFormula {} [token]) = .ok result ∧
      (result.levelsGained, result.reachedPeak, result.stats.experience) = (2, true, 2077) ∧
      ∃ n stage, result.Spends {} (.ofFormula {} [token]) s 5090 n stage := by
  intro token s
  have told : (checkLevel s {} (.ofFormula {} [token])).toOption.map
      (fun r => (r.levelsGained, r.reachedPeak, r.stats.experience)) = some (2, true, 2077) := by
    decide +kernel
  obtain ⟨result, ok, same⟩ := Option.map_eq_some_iff.mp told
  have run : checkLevel s {} (.ofFormula {} [token]) = .ok result := eq_ok_of_toOption ok
  exact ⟨result, run, same, checkLevel_spends Settings.standard_regular.ownLabels [token]
    (.inl rfl) rfl (by decide +kernel) run⟩

end Ascent
