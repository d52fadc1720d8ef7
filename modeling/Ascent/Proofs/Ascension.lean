import Ascent.Proofs.Branches
import Ascent.Proofs.Longest

/-!
The moves on the ladder of tiers.

On a ladder whose labels stand for their own rungs, experience moves stats up within a major tier,
and only a breakthrough leads out of it: up to the next one, or back by a minor tier. Who is at a
peak stands at the last minor tier, and who is in a trial is at a peak.

Main exports: `Settings.Regular`, `StatBlock.Phased`, `Move`, `Passage`, `checkLevel_passage`,
`resolveBreakthrough_passage`.
-/

namespace Ascent

open Text

/-! ### Rungs -/

namespace Settings

/-- How many major tiers there are; a ladder without names has one. -/
def majorCount (settings : Settings) : Nat := max 1 settings.ladder.majors.length

/-- How many minor tiers each major tier has. -/
def minorCount (settings : Settings) : Nat := max 1 settings.ladder.minors.length

theorem minorCount_resolve (settings : Settings) (label : String) :
    (settings.resolve label).minorCount = settings.minorCount := by
  unfold resolve Ladder.resolve
  dsimp only
  split <;> rfl

theorem majorCount_resolve (settings : Settings) (label : String) :
    (settings.resolve label).majorCount = settings.majorCount := by
  unfold resolve Ladder.resolve
  dsimp only
  split <;> rfl

/-- Whatever a label says, it stands for a rung of the ladder. -/
theorem resolve_lt (settings : Settings) (label : String) :
    (settings.resolve label).major < settings.majorCount ∧
      (settings.resolve label).minor < settings.minorCount := by
  unfold resolve Ladder.resolve majorCount minorCount
  dsimp only
  split
  · dsimp only
    omega
  · next major size found =>
      have majorLt := Ladder.longest?_lt found
      refine ⟨by dsimp only; omega, ?_⟩
      dsimp only
      cases named : Ladder.minorOf? settings.ladder.minors (Text.trimWhere Ladder.isLabelGap
        ((Text.foldChars (Text.trimChars label.toList)).drop size)) with
      | none => dsimp only [Option.getD]; omega
      | some minor =>
          have := Ladder.minorOf?_lt named
          dsimp only [Option.getD]
          omega

theorem isLastMinor_iff (settings : Settings) {label : String} :
    (settings.resolve label).isLastMinor = true ↔
      (settings.resolve label).minor + 1 = settings.minorCount := by
  have below := (settings.resolve_lt label).2
  simp only [Rung.isLastMinor, decide_eq_true_eq, settings.minorCount_resolve]
  omega

theorem isLastMinor_eq_false_iff (settings : Settings) {label : String} :
    (settings.resolve label).isLastMinor = false ↔
      (settings.resolve label).minor + 1 < settings.minorCount := by
  have below := (settings.resolve_lt label).2
  rw [← Bool.not_eq_true, isLastMinor_iff]
  omega

/-- Each label of a rung stands for that rung, and none of them is the label of mortals. -/
structure Regular (settings : Settings) : Prop where
  label : ∀ i j : Nat, i < settings.majorCount → j < settings.minorCount →
    (settings.resolve (settings.label i j)).major = i ∧
      (settings.resolve (settings.label i j)).minor = j
  climber : ∀ i j : Nat, i < settings.majorCount → j < settings.minorCount →
    settings.isMortal (settings.label i j) = false

/-- Labels that differ once blanks and case are set aside are told apart. -/
theorem isMortal_eq_false {label mortal : String}
    (h : foldChars (trimChars label.toList) ≠ foldChars mortal.toList) :
    Ascent.isMortal label mortal = false := by
  have differ : fold (trim label) ≠ fold mortal := by
    intro same
    refine h ?_
    simpa [fold, trim] using congrArg String.toList same
  simp [Ascent.isMortal, differ]

/-- The ladder of a world that names none is regular. -/
theorem standard_regular : Regular {} := by
  have majors : Settings.majorCount {} = 5 := by decide +kernel
  have minors : Settings.minorCount {} = 9 := by decide +kernel
  have labels : ∀ i < (5 : Nat), ∀ j < (9 : Nat),
      ((Settings.resolve {} (Settings.label {} i j)).major = i ∧
        (Settings.resolve {} (Settings.label {} i j)).minor = j) ∧
      foldChars (trimChars (Settings.label {} i j).toList) ≠ foldChars mortalLabel.toList := by
    decide +kernel
  constructor <;> intro i j major minor
  · exact (labels i (majors ▸ major) j (minors ▸ minor)).1
  · exact isMortal_eq_false (labels i (majors ▸ major) j (minors ▸ minor)).2

end Settings

/-! ### Moves -/

/-- A way to another rung. -/
inductive Move where
  | climb
  | ascend
  | fall
deriving DecidableEq

/-- A move from the tier and phase of some stats to the tier of others: on the way up to a higher
minor tier, and out of a peak or a trial to the foot of the next major tier, or back to the minor
tier below if there is one. -/
def Move.Takes (settings : Settings) (s t : StatBlock) : Move → Prop
  | .climb => s.phase = .normal ∧
      (settings.resolve t.tier).major = (settings.resolve s.tier).major ∧
      (settings.resolve s.tier).minor < (settings.resolve t.tier).minor
  | .ascend => s.phase ≠ .normal ∧
      (settings.resolve t.tier).major = (settings.resolve s.tier).major + 1 ∧
      (settings.resolve t.tier).minor = 0
  | .fall => s.phase ≠ .normal ∧
      (settings.resolve t.tier).major = (settings.resolve s.tier).major ∧
      (settings.resolve t.tier).minor = (settings.resolve s.tier).minor - 1

/-- No two moves lead from the same rung and phase to the same rung. -/
theorem Move.Takes.unique {settings : Settings} {s t : StatBlock} {m m' : Move}
    (h : m.Takes settings s t) (h' : m'.Takes settings s t) : m' = m := by
  cases m <;> cases m' <;> simp only [Move.Takes] at h h' <;> first
    | rfl
    | exact absurd h.1 h'.1
    | exact absurd h'.1 h.1
    | omega

namespace StatBlock

/-- Who is in a trial is at a peak, and who is at a peak stands at a last minor tier and is no
mortal. -/
structure Phased (s : StatBlock) (settings : Settings) : Prop where
  trial : s.inTribulation = true → s.atPeak = true
  peak : s.atPeak = true → (settings.resolve s.tier).isLastMinor = true
  climber : s.atPeak = true → settings.isMortal s.tier = false

/-- Both stand at the same tier, in the same phase. -/
structure SamePlace (s t : StatBlock) : Prop where
  tier : t.tier = s.tier
  atPeak : t.atPeak = s.atPeak
  inTribulation : t.inTribulation = s.inTribulation

namespace SamePlace

variable {s t u : StatBlock}

theorem refl (s : StatBlock) : s.SamePlace s := ⟨rfl, rfl, rfl⟩

theorem trans (h : s.SamePlace t) (k : t.SamePlace u) : s.SamePlace u :=
  ⟨k.tier.trans h.tier, k.atPeak.trans h.atPeak, k.inTribulation.trans h.inTribulation⟩

theorem phase (h : s.SamePlace t) : t.phase = s.phase := by
  unfold StatBlock.phase
  rw [h.atPeak, h.inTribulation]

theorem phased {settings : Settings} (h : s.SamePlace t) (before : s.Phased settings) :
    t.Phased settings where
  trial := by rw [h.inTribulation, h.atPeak]; exact before.trial
  peak := by rw [h.atPeak, h.tier]; exact before.peak
  climber := by rw [h.atPeak, h.tier]; exact before.climber

end SamePlace

theorem samePlace_of_refresh {s t : StatBlock} {items : List Item} (h : s.refresh items = .ok t) :
    s.SamePlace t := by
  obtain ⟨_, _, h⟩ := exists_of_bind_eq_ok h
  obtain ⟨_, _, h⟩ := exists_of_bind_eq_ok h
  rw [← Except.ok.inj h]
  exact ⟨rfl, rfl, rfl⟩

theorem samePlace_of_retier {s t : StatBlock} {label : String} {settings : Settings}
    {items : List Item} (h : s.retier label settings items = .ok t) :
    SamePlace { s with tier := label } t := by
  obtain ⟨base, _, h⟩ := exists_of_bind_eq_ok h
  have based : SamePlace { s with tier := label } { s with base := base, tier := label } :=
    ⟨rfl, rfl, rfl⟩
  exact based.trans (samePlace_of_refresh h)

theorem samePlace_of_rebase {s t : StatBlock} {label : String} {settings : Settings}
    {items : List Item} (h : s.rebase label settings items = .ok t) :
    SamePlace { s with tier := label } t := by
  obtain ⟨moved, retiered, h⟩ := exists_of_bind_eq_ok h
  rw [← Except.ok.inj h]
  exact (samePlace_of_retier retiered).trans ⟨rfl, rfl, rfl⟩

theorem phase_eq_normal_iff {s : StatBlock} :
    s.phase = .normal ↔ s.inTribulation = false ∧ s.atPeak = false := by
  unfold phase
  cases s.inTribulation <;> cases s.atPeak <;> simp

theorem phase_eq_inTribulation_iff {s : StatBlock} :
    s.phase = .inTribulation ↔ s.inTribulation = true := by
  unfold phase
  cases s.inTribulation <;> cases s.atPeak <;> simp

/-- Stats on the way up are in order at any tier. -/
theorem phased_of_normal {s : StatBlock} {settings : Settings} (h : s.phase = .normal) :
    s.Phased settings := by
  obtain ⟨trial, peak⟩ := phase_eq_normal_iff.mp h
  exact ⟨by simp [trial], by simp [peak], by simp [peak]⟩

/-- Stats that are out of the way up are at a peak. -/
theorem Phased.atPeak {s : StatBlock} {settings : Settings} (h : s.Phased settings)
    (phase : s.phase ≠ .normal) : s.atPeak = true := by
  cases trial : s.inTribulation with
  | true => exact h.trial trial
  | false =>
      cases peak : s.atPeak with
      | true => rfl
      | false => exact absurd (phase_eq_normal_iff.mpr ⟨trial, peak⟩) phase

end StatBlock

open StatBlock

/-- From some stats to others in order, at the same tier or by one of the ways that are open;
mortals keep their tier. -/
structure Passage (settings : Settings) (ways : Move → Prop) (s t : StatBlock) : Prop where
  phased : t.Phased settings
  tier : t.tier = s.tier ∨ ∃ m, ways m ∧ m.Takes settings s t
  mortal : settings.isMortal s.tier = true → t.tier = s.tier

namespace Passage

variable {settings : Settings} {ways ways' : Move → Prop} {s s' t t' : StatBlock}

theorem of_sameTier (after : t.Phased settings) (same : t.tier = s.tier) :
    Passage settings ways s t := ⟨after, .inl same, fun _ => same⟩

theorem of_samePlace (before : s.Phased settings) (same : s.SamePlace t) :
    Passage settings ways s t := of_sameTier (same.phased before) same.tier

theorem mono (h : Passage settings ways s t) (more : ∀ m, ways m → ways' m) :
    Passage settings ways' s t where
  phased := h.phased
  tier := h.tier.imp_right fun ⟨m, way, takes⟩ => ⟨m, more m way, takes⟩
  mortal := h.mortal

/-- Only the place counts from which a passage starts and the one where it ends. -/
theorem congr (h : Passage settings ways s t) (start : s'.SamePlace s) (arrival : t.SamePlace t') :
    Passage settings ways s' t' where
  phased := arrival.phased h.phased
  tier := by
    rw [arrival.tier, ← start.tier]
    refine h.tier.imp_right fun ⟨m, way, takes⟩ => ⟨m, way, ?_⟩
    cases m <;> simpa only [Move.Takes, start.tier, start.phase, arrival.tier] using takes
  mortal := by rw [arrival.tier, ← start.tier]; exact h.mortal

end Passage

/-! ### Climbing -/

section

variable {settings : Settings} {items : List Item}

/-- What the climb from a rung may come to: the same tier, or the label of a higher minor tier. -/
structure Climbed (settings : Settings) (s t : StatBlock) : Prop where
  phased : t.Phased settings
  tier : t.tier = s.tier ∨ (settings.resolve t.tier).major = (settings.resolve s.tier).major ∧
    (settings.resolve s.tier).minor < (settings.resolve t.tier).minor

theorem climbMinors_climbed (regular : settings.Regular) {steps : Nat} {c result : Climb}
    (normal : c.stats.phase = .normal) (climber : settings.isMortal c.stats.tier = false)
    (h : climbMinors settings (.ofFormula settings items) steps
      (settings.resolve c.stats.tier) c = .ok result) :
    Climbed settings c.stats result.stats := by
  induction steps generalizing c with
  | zero => exact Except.ok.inj h ▸ ⟨phased_of_normal normal, .inl rfl⟩
  | succ steps ih =>
      cases climbMinors_rises h with
      | short => exact ⟨phased_of_normal normal, .inl rfl⟩
      | peak _ last => exact ⟨⟨fun _ => rfl, fun _ => last, fun _ => climber⟩, .inl rfl⟩
      | @next moved _ _ notLast rebased later =>
          have place := samePlace_of_rebase rebased
          obtain ⟨majorLt, _⟩ := settings.resolve_lt c.stats.tier
          have minorLt := settings.isLastMinor_eq_false_iff.mp notLast
          -- The label of the next rung stands for it, so the climb goes on from there.
          have tier : moved.tier = settings.label (settings.resolve c.stats.tier).major
            ((settings.resolve c.stats.tier).minor + 1 : Nat) := place.tier
          obtain ⟨major, minor⟩ := regular.label _ _ majorLt minorLt
          have notMortal := regular.climber _ _ majorLt minorLt
          rw [← tier] at major minor notMortal
          have movedNormal : moved.phase = .normal := place.phase.trans normal
          have further := ih (c := ⟨moved, _, _, _, _⟩) movedNormal notMortal
            (by rw [tier]; exact later)
          refine ⟨further.phased, .inr ?_⟩
          rcases further.tier with same | ⟨sameMajor, higher⟩
          · rw [same, major, minor]
            exact ⟨rfl, Nat.lt_succ_self _⟩
          · rw [major] at sameMajor
            rw [minor] at higher
            exact ⟨sameMajor, by omega⟩

/-- Experience moves nobody out of a major tier. -/
theorem checkLevel_passage (regular : settings.Regular) {s : StatBlock} {result : Climb}
    (before : s.Phased settings)
    (h : checkLevel s settings (.ofFormula settings items) = .ok result) :
    Passage settings (· = .climb) s result.stats := by
  rcases checkLevel_eq_ok h with rfl | ⟨normal, climber, climbs⟩
  · exact .of_samePlace before ⟨rfl, rfl, rfl⟩
  · have climbed := climbMinors_climbed regular (c := { stats := s }) normal climber climbs
    refine ⟨climbed.phased, climbed.tier.imp_right fun higher => ⟨.climb, rfl, normal, higher⟩, ?_⟩
    intro mortal
    rw [climber] at mortal
    cases mortal

/-! ### Breaking through -/

theorem beginBreakthrough_passage {ways : Move → Prop} {s : StatBlock}
    (before : s.Phased settings) :
    Passage settings ways s (beginBreakthrough s).stats := by
  unfold beginBreakthrough
  split
  · next phase =>
      have peak := before.atPeak (by rw [phase]; decide)
      exact .of_sameTier ⟨fun _ => peak, before.peak, before.climber⟩ rfl
  · exact .of_samePlace before (.refl s)

theorem demote_passage (regular : settings.Regular) {s : StatBlock} {result : Climb}
    (before : s.Phased settings) (peak : s.phase ≠ .normal)
    (h : demote s settings items = .ok result) :
    Passage settings (· ≠ .climb) s result.stats := by
  obtain ⟨fallen, retiered, h⟩ := exists_of_bind_eq_ok h
  obtain ⟨hurt, refreshed, h⟩ := exists_of_bind_eq_ok h
  rw [← Except.ok.inj h]
  have wounded : fallen.SamePlace { fallen with vitality := max 1 (fallen.vitality / 2) } :=
    ⟨rfl, rfl, rfl⟩
  have place :=
    ((samePlace_of_retier retiered).trans wounded).trans (samePlace_of_refresh refreshed)
  obtain ⟨majorLt, minorLt⟩ := settings.resolve_lt s.tier
  have lower : max 0 (((settings.resolve s.tier).minor : Int) - 1) =
      (((settings.resolve s.tier).minor - 1 : Nat) : Int) := by omega
  obtain ⟨major, minor⟩ := regular.label _ ((settings.resolve s.tier).minor - 1) majorLt (by omega)
  have tier := place.tier
  dsimp only at tier
  rw [lower] at tier
  refine ⟨phased_of_normal (place.phase.trans rfl), .inr ⟨.fall, by decide, peak, ?_⟩, ?_⟩
  · rw [tier]
    exact ⟨major, minor⟩
  · intro mortal
    rw [before.climber (before.atPeak peak)] at mortal
    cases mortal

/-- The end of a breakthrough leads out of a major tier by one step, or back by one. -/
theorem resolveBreakthrough_passage (regular : settings.Regular) {s : StatBlock} {success : Bool}
    {result : Climb} (before : s.Phased settings)
    (h : resolveBreakthrough s success settings items (.ofFormula settings items) = .ok result) :
    Passage settings (· ≠ .climb) s result.stats := by
  cases resolveBreakthrough_resolves h with
  | rest => exact .of_samePlace before (.refl s)
  | top peak _ stats =>
      rw [stats]
      exact .of_sameTier ⟨by simp, fun _ => before.peak (before.atPeak peak),
        fun _ => before.climber (before.atPeak peak)⟩ rfl
  | ascent peak notHighest rebased =>
      have place := samePlace_of_rebase rebased
      have majorLt : (settings.resolve s.tier).major + 1 < settings.majorCount := by
        simp only [Rung.isTopMajor, decide_eq_false_iff_not, settings.majorCount_resolve]
          at notHighest
        omega
      have minorLt : 0 < settings.minorCount := by unfold Settings.minorCount; omega
      obtain ⟨major, minor⟩ := regular.label _ 0 majorLt minorLt
      have tier : result.stats.tier =
        settings.label ((settings.resolve s.tier).major + 1 : Nat) (0 : Nat) := place.tier
      refine ⟨phased_of_normal (place.phase.trans rfl), .inr ⟨.ascend, by decide, peak, ?_⟩, ?_⟩
      · rw [tier]
        exact ⟨major, minor⟩
      · intro mortal
        rw [before.climber (before.atPeak peak)] at mortal
        cases mortal
  | fall peak fell => exact demote_passage regular before peak fell

end
end Ascent
