import Ascent.Proofs.Ascension
import Ascent.Proofs.Monotone
import Mathlib.Data.Prod.Lex

/-!
What climbing the ladder does to the worth of a rung.

The worth of a major tier is multiplied by three at least on the way up, and its minor tiers add
less than that worth once more, so the last rung of a major tier is still below the first one of the
next. In exact arithmetic every rung is worth more than the one before. In rounded arithmetic the
minor tiers add no more than twice the worth, however many there are, and rounding keeps the order;
so no base attribute is lower on a higher rung, as long as there are numbers for both.

Main exports: `Curve.exact`, `Curve.value_lt_value`, `rungWorth_le_rungWorth`,
`baseAttributes_climb`.
-/

namespace Ascent

open Double

/-! ### Exact arithmetic -/

instance : Reckoning ℚ := ⟨fun n => n, max⟩

namespace Curve

/-- The curve of the stats, reckoned exactly. -/
def exact : Curve ℚ := ⟨100, 5, 3 / 10, 3⟩

section

variable {c : Curve ℚ} {i j k n i' j' : Nat}

theorem majorValue_succ_exact (c : Curve ℚ) (k : Nat) :
    c.majorValue (k + 1) = c.majorValue k * c.factor k := rfl

theorem floor_le_factor (c : Curve ℚ) (k : Nat) : c.floor ≤ c.factor k := le_max_left _ _

theorem majorValue_pos (base : 0 < c.base) (floor : 2 ≤ c.floor) (k : Nat) :
    0 < c.majorValue k := by
  induction k with
  | zero => exact base
  | succ k ih =>
      have factor := floor_le_factor c k
      rw [majorValue_succ_exact]
      exact mul_pos ih (by linarith)

theorem two_mul_majorValue_le (base : 0 < c.base) (floor : 2 ≤ c.floor) (k : Nat) :
    2 * c.majorValue k ≤ c.majorValue (k + 1) := by
  have pos := majorValue_pos base floor k
  have factor := floor_le_factor c k
  rw [majorValue_succ_exact, mul_comm]
  gcongr
  linarith

theorem majorValue_le_majorValue (base : 0 < c.base) (floor : 2 ≤ c.floor) (le : i ≤ k) :
    c.majorValue i ≤ c.majorValue k := by
  induction k, le using Nat.le_induction with
  | base => exact le_rfl
  | succ k _ ih =>
      have pos := majorValue_pos base floor k
      have doubled := two_mul_majorValue_le base floor k
      linarith

theorem value_exact (c : Curve ℚ) (i : Nat) (minor : ℚ) (some_ : 0 < n) :
    c.value i minor n = c.majorValue i + minor * c.majorValue i / n := by
  have one : (1 : ℚ) ≤ n := by exact_mod_cast some_
  show c.majorValue i + minor * c.majorValue i / max ((1 : Int) : ℚ) n = _
  rw [Int.cast_one, max_eq_right one]

/-- In exact arithmetic every rung is worth more than the rungs before it. -/
theorem value_lt_value (base : 0 < c.base) (floor : 2 ≤ c.floor) (minor : j < n)
    (less : toLex (i, j) < toLex (i', j')) : c.value i j n < c.value i' j' n := by
  have some_ : 0 < n := by omega
  have count : (0 : ℚ) < n := by exact_mod_cast some_
  have pos := majorValue_pos base floor
  rw [value_exact c i j some_, value_exact c i' j' some_]
  rcases Prod.Lex.toLex_lt_toLex.mp less with above | ⟨same, further⟩
  · -- the minor tiers add less than the worth of the major tier once more
    have share : (j : ℚ) * c.majorValue i / n < c.majorValue i := by
      have minor : (j : ℚ) < n := by exact_mod_cast minor
      rw [div_lt_iff₀ count, mul_comm (c.majorValue i)]
      exact mul_lt_mul_of_pos_right minor (pos i)
    have share' : 0 ≤ (j' : ℚ) * c.majorValue i' / n := by
      have := pos i'
      positivity
    have doubled := two_mul_majorValue_le base floor i
    have higher := majorValue_le_majorValue base floor (show i + 1 ≤ i' from above)
    linarith
  · dsimp only at same further
    subst same
    have further : (j : ℚ) < j' := by exact_mod_cast further
    have := pos i
    gcongr

end
end Curve

/-! ### Rounded arithmetic -/

section

variable {i j k n i' j' : Nat} {v w x : ℚ}

/-- The worth of a major tier, as a number. -/
def majorWorth (k : Nat) : Double := Curve.standard.majorValue k

/-- What the minor tiers below a rung add to the worth of its major tier. -/
def minorWorth (i j n : Nat) : Double :=
  ofInt j * majorWorth i / Double.maxOf (ofInt 1) (ofInt n)

/-- The worth of a rung. -/
def rungWorth (i j n : Nat) : Double := Curve.standard.value i (ofInt j) (ofInt n)

theorem majorWorth_succ (k : Nat) :
    majorWorth (k + 1) = majorWorth k * Curve.standard.factor k := rfl

theorem rungWorth_eq (i j n : Nat) : rungWorth i j n = majorWorth i + minorWorth i j n := rfl

theorem three_le_factor {f : ℚ} (h : (Curve.standard.factor k).Is f) : 3 ≤ f := by
  have three : (ofInt 3).Is 3 := is_ofInt (by decide)
  exact three.le_of_maxOf h

/-- Where the worth of a major tier is finite, that of the tier below is, and it is multiplied by
three at least. -/
theorem exists_of_majorWorth_succ (h : (majorWorth (k + 1)).Is w) :
    ∃ v f, (majorWorth k).Is v ∧ 3 ≤ f ∧
      (0 ≤ v → (majorWorth (k + 1)).Rounds (v * f)) := by
  rw [majorWorth_succ] at h ⊢
  obtain ⟨whole, factor⟩ := isFinite_of_mul (isFinite_iff.mpr ⟨w, h⟩)
  obtain ⟨v, isv⟩ := isFinite_iff.mp whole
  obtain ⟨f, isf⟩ := isFinite_iff.mp factor
  have three := three_le_factor isf
  exact ⟨v, f, isv, three, fun nonneg => isv.mul_rounds isf nonneg (by linarith)⟩

theorem hundred_le_majorWorth (h : (majorWorth k).Is v) : 100 ≤ v := by
  induction k generalizing v with
  | zero =>
      have hundred : (ofInt 100).Is 100 := is_ofInt (by decide)
      exact (hundred.unique h).le
  | succ k ih =>
      obtain ⟨u, f, isu, three, rounds⟩ := exists_of_majorWorth_succ h
      have below := ih isu
      have kept := (isu.rounds (by linarith)).mono (rounds (by linarith)) (by nlinarith) isu h
      linarith

/-- The worth of a major tier is at least three times that of the tier below, but for rounding. -/
theorem majorWorth_triples (h : (majorWorth (k + 1)).Is w) :
    ∃ v, (majorWorth k).Is v ∧ 100 ≤ v ∧
      ∀ {x : Double} {q r : ℚ}, x.Rounds q → q ≤ 3 * v → x.Is r → r ≤ w := by
  obtain ⟨v, f, isv, three, rounds⟩ := exists_of_majorWorth_succ h
  have hundred := hundred_le_majorWorth isv
  refine ⟨v, isv, hundred, fun rx le isx => ?_⟩
  exact rx.mono (rounds (by linarith)) (by nlinarith) isx h

theorem majorWorth_le_majorWorth (le : i ≤ k) (h : (majorWorth k).Is w) :
    ∃ v, (majorWorth i).Is v ∧ v ≤ w := by
  induction k, le using Nat.le_induction generalizing w with
  | base => exact ⟨w, h, le_rfl⟩
  | succ k _ ih =>
      obtain ⟨u, isu, hundred, triples⟩ := majorWorth_triples h
      obtain ⟨v, isv, below⟩ := ih isu
      have kept := triples (isu.rounds (by linarith)) (by linarith) isu
      exact ⟨v, isv, below.trans kept⟩

/-- Sharing among so many is multiplying by a rate, by which none of the numbers up to that many
comes to more than one. -/
theorem exists_rate (n : Nat) : ∃ rate : ℚ, 0 ≤ rate ∧ rate ≤ 1 ∧
    (∀ j ≤ n, ∀ {q : ℚ}, (ofInt j).Is q → q * rate ≤ 1) ∧
    ∀ {x : Double} {q : ℚ}, x.Is q → 0 ≤ q →
      (x / Double.maxOf (ofInt 1) (ofInt n)).Rounds (q * rate) := by
  have one : (ofInt 1).Is 1 := is_ofInt (by decide)
  by_cases finite : (ofInt n).isFinite
  · obtain ⟨count, isn⟩ := isFinite_iff.mp finite
    have pos : 0 < max 1 count := lt_max_of_lt_left one_pos
    refine ⟨1 / max 1 count, by positivity, (div_le_one pos).mpr (le_max_left _ _),
      fun j le q isj => ?_, fun isx nonneg => ?_⟩
    · have below : q ≤ count :=
        (rounds_ofInt j).mono (rounds_ofInt n) (by exact_mod_cast le) isj isn
      rw [mul_one_div, div_le_one pos]
      exact below.trans (le_max_right _ _)
    · rw [mul_one_div]
      exact isx.div_rounds (one.maxOf isn) nonneg pos
  · refine ⟨0, le_rfl, zero_le_one, by simp, fun isx nonneg => ?_⟩
    have most : Double.maxOf (ofInt 1) (infinite false) = infinite false := by
      obtain ⟨_, _, _, _, same, -⟩ := one
      rw [same]
      rfl
    have positive : decide ((n : Int) < 0) = false := by simp
    rw [ofInt_eq_infinite finite, positive, most, mul_zero]
    exact isx.div_infinite false

/-- What a rung of finite worth is put together from: the worth of its major tier, the product of
that with its minor place, and the share of the product. -/
structure WorthParts (i j n : Nat) (v p x w : ℚ) : Prop where
  whole : (majorWorth i).Is v
  product : (ofInt j * majorWorth i).Is p
  share : (minorWorth i j n).Is x
  worth : (rungWorth i j n).Is w

theorem exists_parts (h : (rungWorth i j n).Is w) : ∃ v p x, WorthParts i j n v p x w := by
  have finite := isFinite_iff.mpr ⟨w, h⟩
  rw [rungWorth_eq] at finite
  obtain ⟨whole, share⟩ := isFinite_of_add finite
  obtain ⟨v, isv⟩ := isFinite_iff.mp whole
  obtain ⟨x, isx⟩ := isFinite_iff.mp share
  obtain ⟨p, isp⟩ := isFinite_iff.mp (isFinite_of_div share)
  exact ⟨v, p, x, isv, isp, isx, h⟩

namespace WorthParts

variable {p p' x' w' : ℚ}

theorem hundred_le (parts : WorthParts i j n v p x w) : 100 ≤ v := hundred_le_majorWorth parts.whole

theorem product_rounds (parts : WorthParts i j n v p x w) :
    ∃ q, (ofInt j).Is q ∧ 0 ≤ q ∧ (ofInt j * majorWorth i).Rounds (q * v) := by
  have hundred := parts.hundred_le
  obtain ⟨q, isq⟩ := isFinite_iff.mp (isFinite_of_mul (isFinite_iff.mpr ⟨p, parts.product⟩)).1
  have nonneg := (rounds_ofInt j).nonneg isq
  exact ⟨q, isq, nonneg, isq.mul_rounds parts.whole nonneg (by linarith)⟩

theorem product_nonneg (parts : WorthParts i j n v p x w) : 0 ≤ p := by
  obtain ⟨q, -, -, rounds⟩ := parts.product_rounds
  exact rounds.nonneg parts.product

theorem share_nonneg (parts : WorthParts i j n v p x w) : 0 ≤ x := by
  obtain ⟨rate, -, -, -, shared⟩ := exists_rate n
  exact (shared parts.product parts.product_nonneg).nonneg parts.share

theorem rounds (parts : WorthParts i j n v p x w) : (rungWorth i j n).Rounds (v + x) := by
  have hundred := parts.hundred_le
  rw [rungWorth_eq]
  exact parts.whole.add_rounds parts.share (by linarith) parts.share_nonneg

/-- The minor tiers add no more than twice the worth of the major tier, rounding included. -/
theorem share_le (parts : WorthParts i j n v p x w) (minor : j ≤ n) : x ≤ 2 * v := by
  have hundred := parts.hundred_le
  obtain ⟨rate, nonneg, small, most, shared⟩ := exists_rate n
  obtain ⟨q, isq, qNonneg, rounds⟩ := parts.product_rounds
  have portion : p * rate ≤ 9 / 8 * v := by
    rcases nonneg.eq_or_lt with none | some_
    · rw [← none]
      linarith
    · -- the product is at most the worth divided by the rate, which is one at least
      have limit : q * v ≤ v / rate := by
        rw [le_div_iff₀ some_]
        nlinarith [most j minor isq]
      have one : 1 ≤ v / rate := by
        rw [le_div_iff₀ some_]
        linarith
      calc p * rate ≤ 9 / 8 * (v / rate) * rate :=
            mul_le_mul_of_nonneg_right (rounds.le parts.product one limit) nonneg
        _ = 9 / 8 * v := by field_simp
  have bounded := (shared parts.product parts.product_nonneg).le parts.share
    (show (1 : ℚ) ≤ 9 / 8 * v by linarith) portion
  linarith

theorem whole_le (parts : WorthParts i j n v p x w) : v ≤ w := by
  have hundred := parts.hundred_le
  have share := parts.share_nonneg
  exact (parts.whole.rounds (by linarith)).mono parts.rounds (by linarith) parts.whole parts.worth

/-- A rung is worth no more than the next major tier. -/
theorem le_next (parts : WorthParts i j n v p x w) (minor : j ≤ n) {u : ℚ}
    (next : (majorWorth (i + 1)).Is u) : w ≤ u := by
  obtain ⟨v', isv, -, triples⟩ := majorWorth_triples next
  obtain rfl := parts.whole.unique isv
  have share := parts.share_le minor
  exact triples parts.rounds (by linarith) parts.worth

/-- Within a major tier, a higher minor tier is worth no less. -/
theorem le_of_minor (parts : WorthParts i j n v p x w) (parts' : WorthParts i j' n v p' x' w')
    (le : j ≤ j') : w ≤ w' := by
  have hundred := parts.hundred_le
  obtain ⟨rate, nonneg, -, -, shared⟩ := exists_rate n
  obtain ⟨q, isq, -, rounds⟩ := parts.product_rounds
  obtain ⟨q', isq', -, rounds'⟩ := parts'.product_rounds
  have place : q ≤ q' := (rounds_ofInt j).mono (rounds_ofInt j') (by exact_mod_cast le) isq isq'
  have product : p ≤ p' := rounds.mono rounds'
    (mul_le_mul_of_nonneg_right place (by linarith)) parts.product parts'.product
  have share : x ≤ x' := (shared parts.product parts.product_nonneg).mono
    (shared parts'.product parts'.product_nonneg) (mul_le_mul_of_nonneg_right product nonneg)
    parts.share parts'.share
  exact parts.rounds.mono parts'.rounds (by linarith) parts.worth parts'.worth

end WorthParts

/-- A higher rung is worth no less, where both are worth something finite. -/
theorem rungWorth_le_rungWorth (minor : j ≤ n) (le : toLex (i, j) ≤ toLex (i', j')) {w' : ℚ}
    (h : (rungWorth i j n).Is w) (h' : (rungWorth i' j' n).Is w') : w ≤ w' := by
  obtain ⟨v, p, x, parts⟩ := exists_parts h
  obtain ⟨v', p', x', parts'⟩ := exists_parts h'
  rcases Prod.Lex.toLex_le_toLex.mp le with above | ⟨same, further⟩
  · obtain ⟨u, next, below⟩ := majorWorth_le_majorWorth (show i + 1 ≤ i' from above) parts'.whole
    exact (parts.le_next minor next).trans (below.trans parts'.whole_le)
  · dsimp only at same further
    subst same
    obtain rfl := parts.whole.unique parts'.whole
    exact parts.le_of_minor parts' further

end

/-! ### Base attributes -/

theorem exists_is_share (a : Attribute) : ∃ s, a.share.Is s ∧ 0 ≤ s := by
  have finite : a.share.isFinite := by cases a <;> decide +kernel
  have least : lt a.share (ofInt 0) = false := by cases a <;> decide +kernel
  have zero : (ofInt 0).Is 0 := is_ofInt (by decide)
  obtain ⟨s, is⟩ := isFinite_iff.mp finite
  refine ⟨s, is, not_lt.mp fun below => ?_⟩
  rw [(is.lt_iff zero).mpr below] at least
  cases least

section

variable {settings : Settings} {i j i' j' : Nat} {a b : Attributes Int}

/-- The base attributes of a rung, where they are finite: shares of its worth. -/
theorem exists_of_baseAttributes (regular : settings.Regular) (major : i < settings.majorCount)
    (minor : j < settings.minorCount)
    (h : baseAttributes (settings.label i j) settings = .ok a) (x : Attribute) :
    ∃ w r, (rungWorth i j settings.minorCount).Is w ∧
      (rungWorth i j settings.minorCount * x.share).Is r ∧
      a.get x = max (baseMinimums.get x) ⌊r⌋ := by
  obtain ⟨own, ownMinor⟩ := regular.label i j major minor
  have worth : (settings.resolve (settings.label i j)).worth =
      rungWorth i j settings.minorCount := by
    rw [Rung.worth, own, ownMinor, settings.minorCount_resolve]
    rfl
  unfold baseAttributes at h
  rw [regular.climber i j major minor, if_neg Bool.false_ne_true, worth] at h
  obtain ⟨n, rounded, same⟩ := exists_of_bind_eq_ok (Attributes.ofFnM_eq_ok.mp h x)
  have finite := isFinite_of_floor rounded
  obtain ⟨r, isr⟩ := isFinite_iff.mp finite
  obtain ⟨w, isw⟩ := isFinite_iff.mp (isFinite_of_mul finite).1
  refine ⟨w, r, isw, isr, ?_⟩
  rw [← Except.ok.inj same, Except.ok.inj (rounded.symm.trans isr.floor)]

/-- Climbing the ladder lowers no base attribute, where there are numbers for both rungs; and in
exact arithmetic each rung is worth more than those below it. -/
theorem baseAttributes_climb (regular : settings.Regular) :
    (∀ i j i' j' : Nat, i < settings.majorCount → j < settings.minorCount →
      i' < settings.majorCount → j' < settings.minorCount → toLex (i, j) ≤ toLex (i', j') →
      ∀ a b, baseAttributes (settings.label i j) settings = .ok a →
        baseAttributes (settings.label i' j') settings = .ok b → ∀ x, a.get x ≤ b.get x) ∧
    ∀ i j i' j' : Nat, j < settings.minorCount → j' < settings.minorCount →
      toLex (i, j) < toLex (i', j') →
      Curve.exact.value i j settings.minorCount < Curve.exact.value i' j' settings.minorCount := by
  constructor
  · intro i j i' j' major minor major' minor' le a b ha hb x
    obtain ⟨w, r, isw, isr, shown⟩ := exists_of_baseAttributes regular major minor ha x
    obtain ⟨w', r', isw', isr', shown'⟩ := exists_of_baseAttributes regular major' minor' hb x
    obtain ⟨s, iss, nonneg⟩ := exists_is_share x
    have worth := rungWorth_le_rungWorth minor.le le isw isw'
    obtain ⟨_, _, _, parts⟩ := exists_parts isw
    have positive : 0 ≤ w := le_trans (by norm_num) (parts.hundred_le.trans parts.whole_le)
    have share : r ≤ r' := (isw.mul_rounds iss positive nonneg).mono
      (isw'.mul_rounds iss (positive.trans worth) nonneg)
      (mul_le_mul_of_nonneg_right worth nonneg) isr isr'
    rw [shown, shown']
    exact max_le_max_left _ (Int.floor_le_floor share)
  · intro i j i' j' minor _ less
    exact Curve.value_lt_value (by norm_num [Curve.exact]) (by norm_num [Curve.exact]) minor less

/-- From the last rung of the first major tier to the first rung of the second. -/
theorem baseAttributes_climb_standard :
    Settings.Regular {} ∧
      baseAttributes (Settings.label {} 0 8) {} = .ok ⟨188, 94, 18, 9, 18, 1888⟩ ∧
      baseAttributes (Settings.label {} 1 0) {} = .ok ⟨500, 250, 50, 25, 50, 5000⟩ ∧
      (∀ x, (⟨188, 94, 18, 9, 18, 1888⟩ : Attributes Int).get x ≤
        (⟨500, 250, 50, 25, 50, 5000⟩ : Attributes Int).get x) ∧
      Curve.exact.value 0 8 (Settings.minorCount {}) <
        Curve.exact.value 1 0 (Settings.minorCount {}) := by
  have lower : baseAttributes (Settings.label {} 0 8) {} = .ok ⟨188, 94, 18, 9, 18, 1888⟩ := by
    decide +kernel
  have upper : baseAttributes (Settings.label {} 1 0) {} = .ok ⟨500, 250, 50, 25, 50, 5000⟩ := by
    decide +kernel
  obtain ⟨climbs, exactly⟩ := baseAttributes_climb Settings.standard_regular
  refine ⟨Settings.standard_regular, lower, upper, ?_, ?_⟩
  · exact climbs 0 8 1 0 (by decide) (by decide +kernel) (by decide) (by decide +kernel)
      (by decide) _ _ lower upper
  · exact_mod_cast exactly 0 8 1 0 (by decide +kernel) (by decide +kernel) (by decide)

end
end Ascent
