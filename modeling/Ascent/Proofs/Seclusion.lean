import Ascent.Proofs.Provenance
import Ascent.Proofs.Spending

/-!
People who cultivate on their own only climb.

A turn adds to the experience of whoever is on the way up, and counts at a peak. Experience leads to
higher minor tiers and never out of a major tier; the tenth turn at a peak leads to the foot of the
next one, where there is one. So whatever the number of turns, the place on the ladder is not below
the one before, and nothing but stats, tier and count has changed.

Main exports: `Person.Rests`, `Person.Grows`, `Person.afterTurns`, `Person.Advances`,
`Person.Turn.advances`, `Person.afterTurns_waits`, `Person.afterTurns_top`, `progress_only_climbs`.
-/

namespace Ascent

/-! ### Who grows -/

namespace Person

/-- Who does not grow: the dead, and those without stats, an aptitude or a tier, or with the tier of
mortals. -/
def Rests (world : Settings) (p : Person) : Prop :=
  p.isAlive = false ∨ p.stats = none ∨ p.aptitude.getD "" = "" ∨
    ∃ s, p.stats = some s ∧ (s.tier = "" ∨ world.isMortal s.tier = true)

/-- Who grows, with these stats. -/
structure Grows (world : Settings) (p : Person) (s : StatBlock) : Prop where
  alive : p.isAlive = true
  stats : p.stats = some s
  gifted : p.aptitude.getD "" ≠ ""
  tiered : s.tier ≠ ""
  climber : world.isMortal s.tier = false

/-- The person after so many turns of growth. -/
def afterTurns (world : Settings) (p : Person) : ℕ → Except Fault Person
  | 0 => .ok p
  | n + 1 => do
    let q ← afterTurns world p n
    let (next, _) ← q.progress world
    return next

variable {world : Settings} {p q : Person} {s : StatBlock} {messages : List String} {n : ℕ}

theorem grows_of_not_rests (awake : ¬ p.Rests world) (stats : p.stats = some s) :
    p.Grows world s := by
  simp only [Rests, not_or, not_exists, not_and, Bool.not_eq_false, Bool.not_eq_true] at awake
  obtain ⟨alive, -, gifted, tiered⟩ := awake
  exact ⟨alive, stats, gifted, (tiered s stats).1, (tiered s stats).2⟩

theorem progress_of_rests (rests : p.Rests world) : p.progress world = .ok (p, []) := by
  unfold progress
  split
  · next s aptitude stats gift =>
      have idle : (!p.isAlive || aptitude = "" || s.tier = "" || world.isMortal s.tier) = true := by
        rcases rests with dead | none | giftless | ⟨t, same, low⟩
        · simp [dead]
        · rw [none] at stats
          cases stats
        · rw [gift] at giftless
          simp [Option.getD] at giftless
          simp [giftless]
        · obtain rfl : s = t := Option.some.inj (stats.symm.trans same)
          rcases low with empty | mortal
          · simp [empty]
          · simp [mortal]
      rw [if_pos idle]
  · rfl

theorem Grows.progress_of_peak (grows : p.Grows world s) (peak : s.atPeak = true) :
    p.progress world = p.waitAtPeak s world := by
  obtain ⟨alive, stats, gifted, tiered, climber⟩ := grows
  unfold progress
  cases gift : p.aptitude with
  | none =>
      rw [gift] at gifted
      exact absurd rfl gifted
  | some aptitude =>
      have written : aptitude ≠ "" := by simpa [gift] using gifted
      simp [stats, alive, written, tiered, climber, peak]

/-! ### One turn -/

/-- A turn of growth leaves all but stats, tier and count of turns as it was. -/
def SameBut (p q : Person) : Prop :=
  q = { p with
    stats := q.stats, tier := q.tier, bottleneckTurns := q.bottleneckTurns, given := q.given }

theorem Turn.sameBut (turn : p.Turn world q) : p.SameBut q := by cases turn <;> rfl

/-- Where stats at a tier stand after a turn: at the same major tier and no lower, or, for somebody
who has counted nine turns at a peak, at the foot of the next one. -/
def Advances (world : Settings) (p : Person) (s t : StatBlock) : Prop :=
  (world.resolve t.tier).major = (world.resolve s.tier).major ∧
      (world.resolve s.tier).minor ≤ (world.resolve t.tier).minor ∨
    (world.resolve t.tier).major = (world.resolve s.tier).major + 1 ∧
      (world.resolve t.tier).minor = 0 ∧ s.atPeak = true ∧ 9 ≤ p.bottleneckTurns

theorem Advances.absolute_le {t : StatBlock} (h : p.Advances world s t) :
    (world.resolve s.tier).absolute ≤ (world.resolve t.tier).absolute := by
  have below := (world.resolve_lt s.tier).2
  unfold Rung.absolute
  rw [world.minorCount_resolve, world.minorCount_resolve]
  rcases h with ⟨major, minor⟩ | ⟨major, minor, -⟩
  · rw [major]
    omega
  · rw [major, minor, Nat.succ_mul]
    omega

end Person

section

variable {world : Settings} {s : StatBlock}

/-- A climb ends as many rungs above its start as levels were gained. -/
theorem Climb.Spends.minor {rebase : Rebase} {e : ℤ} {result : Climb} {n : ℕ}
    {stage : ℕ → StatBlock} (own : world.OwnLabels)
    (h : result.Spends world rebase s e n stage) :
    (world.resolve result.stats.tier).minor = (world.resolve s.tier).minor + n := by
  rcases Nat.eq_zero_or_pos n with rfl | more
  · have start : stage 0 = s := (Except.ok.inj (h.stages 0 (Nat.le_refl 0))).symm
    have same : result.stats.tier = s.tier := by rw [h.stats, start]
    rw [same, Nat.add_zero]
  · rw [h.tier more]
    exact (own _ _ (world.resolve_lt s.tier).1 h.below).2

/-- Experience leads out of no major tier and never down. -/
theorem checkLevel_advances (own : world.OwnLabels) {climb : Climb}
    (h : checkLevel s world (.inProportion world) = .ok climb) :
    (world.resolve climb.stats.tier).major = (world.resolve s.tier).major ∧
      (world.resolve s.tier).minor ≤ (world.resolve climb.stats.tier).minor := by
  by_cases held : s.phase ≠ .normal ∨ world.isMortal s.tier = true
  · rw [checkLevel, if_pos held] at h
    rw [← Except.ok.inj h]
    exact ⟨rfl, Nat.le_refl _⟩
  · rw [checkLevel, if_neg held] at h
    simp only [ne_eq, not_or, Decidable.not_not] at held
    obtain ⟨n, stage, spends⟩ := climbMinors_spends own (Rebase.inProportion_carries world)
      held.1 (by rw [← world.minorCount_resolve s.tier]) h
    have minor := spends.minor own
    exact ⟨spends.major, by omega⟩

/-- The end of a wait at the top of the ladder keeps the peak. -/
theorem resolveBreakthrough_top {items : List Item} {rebase : Rebase} (peak : s.atPeak = true)
    (top : (world.resolve s.tier).isTopMajor = true) :
    resolveBreakthrough s true world items rebase =
      .ok { stats := { s with
              inTribulation := false, atPeak := true, experience := s.current.experienceToNext }
            messages := ["There is no higher tier to reach."] } := by
  have held : s.phase ≠ .normal := by simp [StatBlock.phase_eq_normal_iff, peak]
  rw [resolveBreakthrough, if_neg held, if_pos rfl]
  dsimp only
  rw [if_pos top]

/-- The end of a wait below the top leads to the foot of the next major tier. -/
theorem resolveBreakthrough_ascends (own : world.OwnLabels) {items : List Item} {rebase : Rebase}
    (carries : rebase.Carries) {climb : Climb} (peak : s.atPeak = true)
    (below : (world.resolve s.tier).isTopMajor = false)
    (h : resolveBreakthrough s true world items rebase = .ok climb) :
    (world.resolve climb.stats.tier).major = (world.resolve s.tier).major + 1 ∧
      (world.resolve climb.stats.tier).minor = 0 ∧ climb.stats.atPeak = false ∧
      climb.brokeThrough = true := by
  have held : s.phase ≠ .normal := by simp [StatBlock.phase_eq_normal_iff, peak]
  rw [resolveBreakthrough, if_neg held, if_pos rfl] at h
  dsimp only at h
  rw [below, if_neg Bool.false_ne_true] at h
  obtain ⟨risen, rises, h⟩ := exists_of_bind_eq_ok h
  rw [← Except.ok.inj h]
  have place := carries.place rises
  have majorLt : (world.resolve s.tier).major + 1 < world.majorCount := by
    simp only [Rung.isTopMajor, decide_eq_false_iff_not, world.majorCount_resolve] at below
    omega
  have minorLt : 0 < world.minorCount := by
    unfold Settings.minorCount
    omega
  obtain ⟨major, minor⟩ := own _ 0 majorLt minorLt
  have tier : risen.tier = world.label ((world.resolve s.tier).major + 1 : ℕ) (0 : ℕ) := place.tier
  rw [← tier] at major minor
  exact ⟨major, minor, place.atPeak, rfl⟩

end

namespace Person

variable {world : Settings} {p q : Person} {s : StatBlock} {messages : List String} {n : ℕ}

theorem Turn.advances (own : world.OwnLabels) (turn : p.Turn world q) (stats : p.stats = some s) :
    ∃ t, q.stats = some t ∧ p.Advances world s t := by
  cases turn with
  | rests => exact ⟨s, stats, .inl ⟨rfl, Nat.le_refl _⟩⟩
  | waits => exact ⟨s, stats, .inl ⟨rfl, Nat.le_refl _⟩⟩
  | @breaks s' climb stats' peak late resolved =>
      obtain rfl : s = s' := Option.some.inj (stats.symm.trans stats')
      refine ⟨climb.stats, rfl, ?_⟩
      cases top : (world.resolve s.tier).isTopMajor with
      | true =>
          rw [resolveBreakthrough_top peak top] at resolved
          rw [← Except.ok.inj resolved]
          exact .inl ⟨rfl, Nat.le_refl _⟩
      | false =>
          obtain ⟨major, minor, -⟩ := resolveBreakthrough_ascends own
            (Rebase.inProportion_carries world) peak top resolved
          have counted : 10 ≤ p.bottleneckTurns + 1 := late
          exact .inr ⟨major, minor, peak, by omega⟩
  | @gains s' gain climb stats' _ climbed =>
      obtain rfl : s = s' := Option.some.inj (stats.symm.trans stats')
      have advances := checkLevel_advances (s := s.withExperience (max 0 (s.experience + gain)))
        own climbed
      exact ⟨climb.stats, rfl, .inl advances⟩

/-! ### Many turns -/

theorem afterTurns_succ_eq_ok {r : Person} :
    p.afterTurns world (n + 1) = .ok r ↔
      ∃ q messages, p.afterTurns world n = .ok q ∧ q.progress world = .ok (r, messages) := by
  constructor
  · intro h
    obtain ⟨q, before, h⟩ := exists_of_bind_eq_ok h
    obtain ⟨⟨next, messages⟩, turned, h⟩ := exists_of_bind_eq_ok h
    cases h
    exact ⟨q, messages, before, turned⟩
  · rintro ⟨q, messages, before, turned⟩
    rw [afterTurns, before]
    simp only [bind, Except.bind, turned]
    rfl

theorem afterTurns_of_rests (rests : p.Rests world) (n : ℕ) : p.afterTurns world n = .ok p := by
  induction n with
  | zero => rfl
  | succ n ih => exact afterTurns_succ_eq_ok.mpr ⟨p, [], ih, progress_of_rests rests⟩

/-- What holds at first and after every further turn holds after any number of turns. -/
theorem afterTurns_invariant {P : Person → Prop} (start : P p)
    (step : ∀ q r, P q → q.Turn world r → P r) (h : p.afterTurns world n = .ok q) : P q := by
  induction n generalizing q with
  | zero => exact Except.ok.inj h ▸ start
  | succ n ih =>
      obtain ⟨before, messages, run, turned⟩ := afterTurns_succ_eq_ok.mp h
      exact step before q (ih run) (turn_of_progress turned)

theorem afterTurns_sameBut (h : p.afterTurns world n = .ok q) : p.SameBut q := by
  have start : p.SameBut p := rfl
  refine afterTurns_invariant (P := p.SameBut) start (fun q r before turn => ?_) h
  have after := turn.sameBut
  unfold SameBut at *
  rw [after, before]

theorem afterTurns_absolute_le (own : world.OwnLabels) (stats : p.stats = some s)
    (h : p.afterTurns world n = .ok q) :
    ∃ t, q.stats = some t ∧
      (world.resolve s.tier).absolute ≤ (world.resolve t.tier).absolute := by
  refine afterTurns_invariant (P := fun q => ∃ t, q.stats = some t ∧
    (world.resolve s.tier).absolute ≤ (world.resolve t.tier).absolute)
    ⟨s, stats, Nat.le_refl _⟩ (fun q r before turn => ?_) h
  obtain ⟨t, known, lower⟩ := before
  obtain ⟨u, next, advances⟩ := turn.advances own known
  exact ⟨u, next, Nat.le_trans lower advances.absolute_le⟩

/-- Turns at a peak are counted, and nothing else happens until the count is full. -/
theorem afterTurns_waits (grows : p.Grows world s) (peak : s.atPeak = true)
    (early : p.bottleneckTurns + n < bottleneckLimit) :
    ∃ q, p.afterTurns world n = .ok q ∧ q.Grows world s ∧
      q.bottleneckTurns = p.bottleneckTurns + n := by
  induction n with
  | zero => exact ⟨p, rfl, grows, by simp⟩
  | succ n ih =>
      obtain ⟨q, run, growsOn, count⟩ := ih (by push_cast at early; omega)
      have counts : q.bottleneckTurns + 1 < bottleneckLimit := by
        push_cast at early
        omega
      refine ⟨{ q with bottleneckTurns := q.bottleneckTurns + 1 }.giving [.bottleneckTurns],
        afterTurns_succ_eq_ok.mpr ⟨q, [], run, ?_⟩, ?_, ?_⟩
      · rw [growsOn.progress_of_peak peak, waitAtPeak]
        exact if_pos counts
      · exact { growsOn with }
      · change q.bottleneckTurns + 1 = _
        push_cast
        omega

/-- The turn that makes the count full ends the wait. -/
theorem progress_ascends (own : world.OwnLabels) (grows : p.Grows world s) (peak : s.atPeak = true)
    (below : (world.resolve s.tier).isTopMajor = false)
    (late : bottleneckLimit ≤ p.bottleneckTurns + 1)
    (h : p.progress world = .ok (q, messages)) :
    ∃ t, q.stats = some t ∧ (world.resolve t.tier).major = (world.resolve s.tier).major + 1 ∧
      (world.resolve t.tier).minor = 0 ∧ t.atPeak = false ∧ q.bottleneckTurns = 0 := by
  rw [grows.progress_of_peak peak, waitAtPeak] at h
  dsimp only at h
  rw [if_neg (Int.not_lt.mpr late)] at h
  obtain ⟨climb, resolved, h⟩ := exists_of_bind_eq_ok h
  obtain ⟨major, minor, slope, -⟩ := resolveBreakthrough_ascends own
    (Rebase.inProportion_carries world) peak below resolved
  cases h
  exact ⟨climb.stats, rfl, major, minor, slope, rfl⟩

/-- At the top of the ladder turns go on without end, and the peak stays. -/
theorem afterTurns_top (stats : p.stats = some s) (peak : s.atPeak = true)
    (top : (world.resolve s.tier).isTopMajor = true) (n : ℕ) :
    ∃ q t, p.afterTurns world n = .ok q ∧ q.stats = some t ∧ t.tier = s.tier ∧
      t.atPeak = true := by
  induction n with
  | zero => exact ⟨p, s, rfl, stats, rfl, peak⟩
  | succ n ih =>
      obtain ⟨q, t, run, known, tier, peakStill⟩ := ih
      by_cases rests : q.Rests world
      · exact ⟨q, t, afterTurns_succ_eq_ok.mpr ⟨q, [], run, progress_of_rests rests⟩, known, tier,
          peakStill⟩
      · have turn := (grows_of_not_rests rests known).progress_of_peak peakStill
        by_cases early : q.bottleneckTurns + 1 < bottleneckLimit
        · rw [waitAtPeak, if_pos early] at turn
          exact ⟨_, t, afterTurns_succ_eq_ok.mpr ⟨q, [], run, turn⟩, known, tier, peakStill⟩
        · rw [waitAtPeak, if_neg early,
            resolveBreakthrough_top peakStill (by rw [tier]; exact top)] at turn
          exact ⟨_, _, afterTurns_succ_eq_ok.mpr ⟨q, _, run, turn⟩, rfl, tier, rfl⟩

end Person

open Person

/-- **Growth on one's own only climbs**, on every ladder whose labels stand for their own rungs.

Who rests stays just the same. Of the others nothing but stats, tier and count of turns changes, and
the place on the ladder never gets lower; a single turn keeps the major tier, or leads to the foot
of the next one after nine turns that were counted at a peak. Who has just come to a peak below the
top waits for nine turns and breaks through in the tenth; who is at the peak of the top stays there.
-/
theorem progress_only_climbs {world : Settings} (own : world.OwnLabels) (p : Person) :
    (p.Rests world → p.progress world = .ok (p, []) ∧ ∀ n, p.afterTurns world n = .ok p) ∧
    (∀ n q, p.afterTurns world n = .ok q → p.SameBut q ∧
      ∀ s, p.stats = some s → ∃ t, q.stats = some t ∧
        (world.resolve s.tier).absolute ≤ (world.resolve t.tier).absolute) ∧
    (∀ q messages, p.progress world = .ok (q, messages) → ∀ s, p.stats = some s →
      ∃ t, q.stats = some t ∧ p.Advances world s t) ∧
    (∀ s, p.Grows world s → s.atPeak = true → (world.resolve s.tier).isTopMajor = false →
      p.bottleneckTurns = 0 →
      (∀ n < 10, ∃ q, p.afterTurns world n = .ok q ∧ q.stats = some s ∧ q.bottleneckTurns = n) ∧
      ∀ q, p.afterTurns world 10 = .ok q → ∃ t, q.stats = some t ∧
        (world.resolve t.tier).major = (world.resolve s.tier).major + 1 ∧
        (world.resolve t.tier).minor = 0 ∧ t.atPeak = false ∧ q.bottleneckTurns = 0) ∧
    (∀ s, p.stats = some s → s.atPeak = true → (world.resolve s.tier).isTopMajor = true →
      ∀ n, ∃ q t, p.afterTurns world n = .ok q ∧ q.stats = some t ∧ t.tier = s.tier ∧
        t.atPeak = true) := by
  refine ⟨fun rests => ⟨progress_of_rests rests, afterTurns_of_rests rests⟩,
    fun n q run => ⟨afterTurns_sameBut run, fun s stats => afterTurns_absolute_le own stats run⟩,
    fun q messages turned s stats => (turn_of_progress turned).advances own stats, ?_,
    fun s stats peak top => afterTurns_top stats peak top⟩
  intro s grows peak below none
  have waits (n : ℕ) (early : n < 10) : ∃ q, p.afterTurns world n = .ok q ∧ q.Grows world s ∧
      q.bottleneckTurns = n := by
    have limit : p.bottleneckTurns + n < bottleneckLimit := by
      rw [none, bottleneckLimit]
      omega
    simpa [none] using afterTurns_waits grows peak limit
  constructor
  · intro n early
    obtain ⟨q, run, growsOn, count⟩ := waits n early
    exact ⟨q, run, growsOn.stats, count⟩
  · intro q run
    obtain ⟨before, messages, nine, tenth⟩ := afterTurns_succ_eq_ok.mp run
    obtain ⟨same, run', growsOn, count⟩ := waits 9 (by decide)
    obtain rfl : same = before := Except.ok.inj (run'.symm.trans nine)
    refine progress_ascends own growsOn peak below ?_ tenth
    rw [count, bottleneckLimit]
    decide

/-- Tiers of which one is the start of another one: a person at the peak of the lower one, told to
grow for ten turns, is an early cultivator of the higher one. -/
theorem progress_only_climbs_core_formation :
    let world : Settings := { ladder := ⟨["Core", "Core Formation"], ["Early", "Early Peak"]⟩ }
    let s : StatBlock := { tier := "Core Early Peak", atPeak := true }
    let mo : Person := { id := "id-1", name := "Mo", aptitude := some "talented", stats := some s }
    world.OwnLabels ∧ mo.Grows world s ∧ (world.resolve s.tier).isTopMajor = false ∧
      (∃ q, mo.afterTurns world 9 = .ok q ∧ q.stats = some s ∧ q.bottleneckTurns = 9) ∧
      ∃ q t, mo.afterTurns world 10 = .ok q ∧ mo.SameBut q ∧ q.stats = some t ∧
        t.tier = "Core Formation Early" ∧ (world.resolve t.tier).major = 1 ∧ t.atPeak = false := by
  intro world s mo
  have own : world.OwnLabels := by
    refine Settings.ownLabels_of_unmistakable (by decide) (by decide)
      fun i j major minor majorThere minorThere => ?_
    rcases i with _ | _ | i <;> rcases j with _ | _ | j <;> cases majorThere <;>
      cases minorThere <;> constructor <;> decide +kernel
  have grows : mo.Grows world s :=
    { alive := rfl, stats := rfl, gifted := by decide, tiered := by decide
      climber := by decide +kernel }
  have below : (world.resolve s.tier).isTopMajor = false := by decide +kernel
  obtain ⟨-, run, -, peak, -⟩ := progress_only_climbs own mo
  obtain ⟨waits, tenth⟩ := peak s grows rfl below rfl
  refine ⟨own, grows, below, waits 9 (by decide), ?_⟩
  have told : (mo.afterTurns world 10).toOption.map (fun q => q.stats.map (·.tier)) =
      some (some "Core Formation Early") := by decide +kernel
  obtain ⟨q, ok, tier⟩ := Option.map_eq_some_iff.mp told
  have ten : mo.afterTurns world 10 = .ok q := eq_ok_of_toOption ok
  obtain ⟨t, stats, major, -, slope, -⟩ := tenth q ten
  rw [stats] at tier
  have foot : (world.resolve s.tier).major = 0 := by decide +kernel
  rw [foot] at major
  exact ⟨q, t, ten, (run 10 q ten).1, stats, Option.some.inj tier, major, slope⟩

end Ascent
