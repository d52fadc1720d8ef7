import Ascent.Proofs.Ascension
import Ascent.Proofs.Derivation

/-!
Experience in portions.

To gain an amount and then another comes to the same as to gain both at once. A climb that stops
short of the next requirement goes on from there with the rest, and at a peak, or for mortals, what
is beyond the requirement is dropped either way. The argument needs of the way in which stats move
to a tier only that it neither asks for experience nor changes it.

Main exports: `Climb.followedBy`, `Rebase.Carries`, `climbMinors_add`, `gainExperience_add`.
-/

namespace Ascent

/-- Two climbs one after the other: the stats after the second, and what came of both. -/
def Climb.followedBy (first second : Climb) : Climb where
  stats := second.stats
  levelsGained := first.levelsGained + second.levelsGained
  reachedPeak := first.reachedPeak || second.reachedPeak
  brokeThrough := first.brokeThrough || second.brokeThrough
  messages := first.messages ++ second.messages

/-- The stats with another amount of experience. -/
def StatBlock.withExperience (s : StatBlock) (amount : Int) : StatBlock :=
  { s with experience := amount }

/-! ### Ways to a tier that carry experience along -/

/-- Stats move to a tier with the experience that they have, and how they move does not depend on
it. -/
structure Rebase.Carries (rebase : Rebase) : Prop where
  experience : ∀ (s : StatBlock) (label : String) (amount : Int), 0 ≤ amount →
    rebase (s.withExperience amount) label = (·.withExperience amount) <$> rebase s label
  place : ∀ {s t : StatBlock} {label : String}, rebase s label = .ok t →
    StatBlock.SamePlace { s with tier := label } t

theorem Rebase.ofFormula_carries (settings : Settings) (items : List Item) :
    (Rebase.ofFormula settings items).Carries where
  experience s label amount nonneg := by
    have kept : max 0 amount = amount := Int.max_eq_right nonneg
    simp only [ofFormula, StatBlock.rebase, StatBlock.retier, map_bind, bind_assoc]
    refine congrArg _ (funext fun base => ?_)
    rw [StatBlock.refresh_eq_map, StatBlock.refresh_eq_map]
    have measured :
        StatBlock.measure { s.withExperience amount with base := base, tier := label } items =
          StatBlock.measure { s with base := base, tier := label } items := rfl
    rw [measured]
    cases StatBlock.measure { s with base := base, tier := label } items with
    | error e => rfl
    | ok current =>
        simp only [Except.map, StatBlock.withCurrent, StatBlock.withExperience, kept]
        rfl
  place := StatBlock.samePlace_of_rebase

theorem Rebase.inProportion_carries (settings : Settings) :
    (Rebase.inProportion settings).Carries where
  experience s label amount _ := by
    simp only [inProportion, StatBlock.scaleTo, map_bind]
    rfl
  place h := by
    obtain ⟨all, rfl⟩ := scaleTo_eq_ok h
    exact ⟨rfl, rfl, rfl⟩

/-! ### Climbing in two goes -/

section

variable {settings : Settings} {rebase : Rebase}

/-- What came of an earlier climb is only carried along. -/
theorem climbMinors_followedBy (steps : Nat) (rung : Rung) (c d : Climb) :
    climbMinors settings rebase steps rung (c.followedBy d) =
      c.followedBy <$> climbMinors settings rebase steps rung d := by
  induction steps generalizing rung d with
  | zero => rfl
  | succ steps ih =>
      unfold climbMinors
      dsimp only [Climb.followedBy]
      split
      · rfl
      · split
        · simp [Functor.map, Except.map, Climb.followedBy, List.append_assoc]
        · rw [map_bind]
          refine congrArg _ (funext fun moved => ?_)
          rw [← ih]
          simp only [Climb.followedBy, Int.add_assoc, List.append_assoc]

theorem followedBy_start (c : Climb) (s : StatBlock) :
    c.followedBy { stats := s } = { c with stats := s } := by
  simp [Climb.followedBy]

/-- Those on the way up climb as far as their experience goes. -/
theorem checkLevel_climber {s : StatBlock} (normal : s.phase = .normal)
    (climber : settings.isMortal s.tier = false) :
    checkLevel s settings rebase =
      climbMinors settings rebase (settings.minorCount - (settings.resolve s.tier).minor)
        (settings.resolve s.tier) { stats := s } := by
  have climbs : ¬ (s.phase ≠ .normal ∨ settings.isMortal s.tier = true) := by
    rintro (held | mortal)
    · exact held normal
    · exact Bool.false_ne_true (climber.symm.trans mortal)
  rw [← settings.minorCount_resolve s.tier]
  exact if_neg climbs

/-- Those on the way up climb with what they gain. -/
theorem gainExperience_climber {s : StatBlock} {b : Int} (earned : 0 ≤ s.experience + b)
    (normal : s.phase = .normal) (climber : settings.isMortal s.tier = false) :
    gainExperience s b settings rebase =
      climbMinors settings rebase (settings.minorCount - (settings.resolve s.tier).minor)
        (settings.resolve s.tier) { stats := s.withExperience (s.experience + b) } := by
  rw [gainExperience, Int.max_eq_right earned]
  exact checkLevel_climber (s := s.withExperience (s.experience + b)) normal climber

/-- Mortals and those at a peak keep what they gain up to the requirement. -/
theorem gainExperience_held {s : StatBlock} {b : Int}
    (held : s.phase ≠ .normal ∨ settings.isMortal s.tier) :
    gainExperience s b settings rebase =
      .ok { stats := s.withExperience
              (min (max 0 (s.experience + b)) s.current.experienceToNext) } := by
  have kept : max 0 (max 0 (s.experience + b)) = max 0 (s.experience + b) := by omega
  rw [← kept]
  exact if_pos held

/-- One rung up: what is left of the experience goes on from the next one. -/
theorem climbMinors_rise (carries : rebase.Carries) (steps : Nat) (c : Climb) {s : StatBlock}
    {e : Int} (covered : s.current.experienceToNext ≤ e)
    (notLast : (settings.resolve s.tier).isLastMinor = false) :
    climbMinors settings rebase (steps + 1) (settings.resolve s.tier)
        { c with stats := s.withExperience e } =
      (do
        let label := settings.label (settings.resolve s.tier).major
          ((settings.resolve s.tier).minor + 1)
        let moved ← rebase s label
        climbMinors settings rebase steps (settings.resolve label)
          { c with
            stats := moved.withExperience (e - s.current.experienceToNext)
            levelsGained := c.levelsGained + 1
            messages := c.messages ++ [s!"Advanced to {label}!"] }) := by
  have notShort : ¬ e < s.current.experienceToNext := by omega
  have carried := carries.experience s (settings.label (settings.resolve s.tier).major
    ((settings.resolve s.tier).minor + 1)) (e - s.current.experienceToNext) (by omega)
  unfold StatBlock.withExperience at carried
  conv => lhs; unfold climbMinors
  dsimp only [StatBlock.withExperience]
  rw [if_neg notShort, notLast, if_neg Bool.false_ne_true, carried, bind_map_left]

/-- The last minor tier: experience is kept at the requirement. -/
theorem climbMinors_peak (steps : Nat) (c : Climb) {s : StatBlock} {e : Int}
    (covered : s.current.experienceToNext ≤ e)
    (last : (settings.resolve s.tier).isLastMinor = true) :
    climbMinors settings rebase (steps + 1) (settings.resolve s.tier)
        { c with stats := s.withExperience e } =
      .ok { c with
        stats := { s with atPeak := true, experience := s.current.experienceToNext }
        reachedPeak := true
        messages := c.messages ++
          [s!"Reached the peak of {s.tier}. A breakthrough is required to advance."] } := by
  have notShort : ¬ e < s.current.experienceToNext := by omega
  unfold climbMinors
  dsimp only [StatBlock.withExperience]
  rw [if_neg notShort, if_pos last]

/-- Not enough for the next rung: the climb ends where it is. -/
theorem climbMinors_short (steps : Nat) (c : Climb) {s : StatBlock} {e : Int}
    (short : e < s.current.experienceToNext) :
    climbMinors settings rebase (steps + 1) (settings.resolve s.tier)
        { c with stats := s.withExperience e } = .ok { c with stats := s.withExperience e } :=
  if_pos short

/-- Where the climb ends at once, more that is gained starts there with all of the experience. -/
theorem climbMinors_add_short {b : Int} (nonneg : 0 ≤ b) (c : Climb) {s : StatBlock} {e : Int}
    (earned : 0 ≤ e) (normal : s.phase = .normal) (climber : settings.isMortal s.tier = false) :
    c.followedBy <$> gainExperience (s.withExperience e) b settings rebase =
      climbMinors settings rebase (settings.minorCount - (settings.resolve s.tier).minor)
        (settings.resolve s.tier) { c with stats := s.withExperience (e + b) } := by
  have more : 0 ≤ (s.withExperience e).experience + b := by
    change 0 ≤ e + b
    omega
  have goesOn := @gainExperience_climber settings rebase (s.withExperience e) b more normal climber
  rw [goesOn, ← climbMinors_followedBy, followedBy_start]
  rfl

/-- At the peak, what is beyond the requirement is dropped. -/
theorem gainExperience_peak {b : Int} (nonneg : 0 ≤ b) (s : StatBlock) :
    gainExperience { s with atPeak := true, experience := s.current.experienceToNext } b settings
        rebase =
      .ok { stats := { s with atPeak := true, experience := s.current.experienceToNext } } := by
  have peak : StatBlock.phase { s with
      atPeak := true, experience := s.current.experienceToNext } ≠ .normal := by
    simp [StatBlock.phase_eq_normal_iff]
  have kept : min (max 0 (s.current.experienceToNext + b)) s.current.experienceToNext =
      s.current.experienceToNext := by omega
  rw [gainExperience_held (.inl peak)]
  simp [StatBlock.withExperience, kept]

/-- A climb after which more is gained comes to the same as the climb with all of it. -/
theorem climbMinors_add (regular : settings.Regular) (carries : rebase.Carries) {b : Int}
    (nonneg : 0 ≤ b) {steps : Nat} (c : Climb) {s : StatBlock} {e : Int} (earned : 0 ≤ e)
    (normal : s.phase = .normal) (climber : settings.isMortal s.tier = false)
    (enough : steps = settings.minorCount - (settings.resolve s.tier).minor) :
    (climbMinors settings rebase steps (settings.resolve s.tier)
        { c with stats := s.withExperience e } >>= fun first =>
          first.followedBy <$> gainExperience first.stats b settings rebase) =
      climbMinors settings rebase steps (settings.resolve s.tier)
        { c with stats := s.withExperience (e + b) } := by
  obtain ⟨majorLt, minorLt⟩ := settings.resolve_lt s.tier
  induction steps generalizing c s e with
  | zero => omega
  | succ steps ih =>
      rcases Int.lt_or_le e s.current.experienceToNext with short | covered
      · rw [climbMinors_short steps c short, enough]
        exact climbMinors_add_short nonneg { c with stats := s.withExperience e } earned normal
          climber
      have coveredBoth : s.current.experienceToNext ≤ e + b := by omega
      cases last : (settings.resolve s.tier).isLastMinor with
      | true =>
          rw [climbMinors_peak steps c covered last, climbMinors_peak steps c coveredBoth last]
          change Climb.followedBy _ <$> gainExperience _ b settings rebase = _
          rw [gainExperience_peak nonneg]
          simp [Functor.map, Except.map, Climb.followedBy]
      | false =>
          have next := settings.isLastMinor_eq_false_iff.mp last
          obtain ⟨-, minor⟩ := regular.label _ _ majorLt next
          have notMortal := regular.climber _ _ majorLt next
          rw [climbMinors_rise carries steps c covered last,
            climbMinors_rise carries steps c coveredBoth last]
          dsimp only
          rw [bind_assoc]
          cases moves : rebase s (settings.label (settings.resolve s.tier).major
              ((settings.resolve s.tier).minor + 1)) with
          | error fault => rfl
          | ok moved =>
              have place := carries.place moves
              have tier : moved.tier = settings.label (settings.resolve s.tier).major
                ((settings.resolve s.tier).minor + 1 : Nat) := place.tier
              have shift : e + b - s.current.experienceToNext =
                  e - s.current.experienceToNext + b := by omega
              rw [← tier] at minor notMortal
              rw [shift]
              obtain ⟨movedMajor, movedMinor⟩ := settings.resolve_lt moved.tier
              have later := @ih { c with
                  levelsGained := c.levelsGained + 1
                  messages := c.messages ++ [s!"Advanced to {moved.tier}!"] }
                moved (e - s.current.experienceToNext) (by omega) (place.phase.trans normal)
                notMortal (by omega) movedMajor movedMinor
              rw [tier] at later
              exact later

/-- To gain twice comes to the same as to gain once, or fails alike, for every way to a tier that
carries experience along. -/
theorem gainExperience_add_of_carries (regular : settings.Regular) (carries : rebase.Carries)
    {s : StatBlock} (earned : 0 ≤ s.experience) {a b : Int} (ha : 0 ≤ a) (hb : 0 ≤ b) :
    (gainExperience s a settings rebase >>= fun first =>
        first.followedBy <$> gainExperience first.stats b settings rebase) =
      gainExperience s (a + b) settings rebase := by
  by_cases held : s.phase ≠ .normal ∨ settings.isMortal s.tier
  · have heldAfter (e : Int) : (s.withExperience e).phase ≠ .normal ∨
        settings.isMortal (s.withExperience e).tier := held
    rw [gainExperience_held held, gainExperience_held held]
    change Climb.followedBy _ <$> gainExperience (s.withExperience _) b settings rebase = _
    rw [gainExperience_held (heldAfter _)]
    simp [Functor.map, Except.map, Climb.followedBy, StatBlock.withExperience]
    omega
  · simp only [ne_eq, not_or, Decidable.not_not, Bool.not_eq_true] at held
    obtain ⟨normal, climber⟩ := held
    rw [gainExperience_climber (by omega) normal climber,
      gainExperience_climber (by omega) normal climber, ← Int.add_assoc]
    exact climbMinors_add regular carries hb { stats := s } (by omega) normal climber rfl

end

/-- **Experience can be granted in any portions**, to the player and to people: the two climbs come
to the same as the one, or fail alike. -/
theorem gainExperience_add {settings : Settings} (regular : settings.Regular) (items : List Item)
    {s : StatBlock} (earned : 0 ≤ s.experience) {a b : Int} (ha : 0 ≤ a) (hb : 0 ≤ b) :
    (gainExperience s a settings (.ofFormula settings items) >>= fun first =>
        first.followedBy <$> gainExperience first.stats b settings (.ofFormula settings items)) =
      gainExperience s (a + b) settings (.ofFormula settings items) ∧
    (gainExperience s a settings (.inProportion settings) >>= fun first =>
        first.followedBy <$> gainExperience first.stats b settings (.inProportion settings)) =
      gainExperience s (a + b) settings (.inProportion settings) :=
  ⟨gainExperience_add_of_carries regular (Rebase.ofFormula_carries settings items) earned ha hb,
    gainExperience_add_of_carries regular (Rebase.inProportion_carries settings) earned ha hb⟩

/-- From the last minor tier but one: the first portion leads up, the second to the peak. -/
theorem gainExperience_add_to_peak :
    let s : StatBlock := { tier := "Qi Refining Layer 8", experience := 30 }
    (gainExperience s 90 {} (.ofFormula {} []) >>= fun first =>
        first.followedBy <$> gainExperience first.stats 5000 {} (.ofFormula {} [])) =
      gainExperience s 5090 {} (.ofFormula {} []) ∧
    (gainExperience s 90 {} (.inProportion {}) >>= fun first =>
        first.followedBy <$> gainExperience first.stats 5000 {} (.inProportion {})) =
      gainExperience s 5090 {} (.inProportion {}) :=
  gainExperience_add Settings.standard_regular [] (by decide) (by decide) (by decide)

end Ascent
