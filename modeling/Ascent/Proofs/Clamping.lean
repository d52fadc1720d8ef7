import Ascent.Proofs.Legality
import Ascent.Proofs.Whole

/-!
How far one change moves a score.

What is asked for is a binary64 number, perhaps infinite; it is cut down to a step before it is
added. Numbers between two integers stay between them through negation, comparison, addition and
rounding, because the integers are numbers themselves and rounding never goes past a number. So a
score that moves from an integer by a step lands within that step of it, whatever is asked for.

Main exports: `Double.Is`, `Double.Abreast`, `Double.exists_is_ofRatio`, `Double.Is.add`,
`Double.Is.roundEven`, `Double.is_add`, `Double.exists_is_clamped`, `moveAffinity_near`.
-/

namespace Ascent

namespace Double

/-! ### The value of a finite number -/

/-- A number is finite and has a value. -/
def Is (x : Double) (q : ℚ) : Prop := ∃ negative m e canonical,
  x = .finite negative m e canonical ∧
    (if negative then -((m : ℚ) * 2 ^ e) else m * 2 ^ e) = q

variable {x y : Double} {q r : ℚ}

theorem is_zeroOf (negative : Bool) : (zeroOf negative).Is 0 :=
  ⟨negative, 0, -1074, by decide, rfl, by cases negative <;> simp⟩

theorem is_ofInt {n : Int} (small : n.natAbs ≤ 2 ^ 53) : (ofInt n).Is n := by
  obtain ⟨m, e, canonical, value⟩ := whole_of_small small
  refine ⟨_, m, e, canonical, ofInt_eq canonical value, ?_⟩
  rw [value]
  by_cases negative : n < 0
  · simp [negative, Nat.cast_natAbs, abs_of_neg negative]
  · simp [negative, Nat.cast_natAbs, abs_of_nonneg (Int.not_lt.mp negative)]

theorem Is.neg (h : x.Is q) : (-x).Is (-q) := by
  obtain ⟨negative, m, e, canonical, rfl, rfl⟩ := h
  exact ⟨!negative, m, e, canonical, rfl, by cases negative <;> simp⟩

theorem Is.lt_iff (hx : x.Is q) (hy : y.Is r) : lt x y = true ↔ q < r := by
  obtain ⟨s, m, e, _, rfl, rfl⟩ := hx
  obtain ⟨t, n, f, _, rfl, rfl⟩ := hy
  rw [← shifted_value s m (min_le_left e f), ← shifted_value t n (min_le_right e f)]
  have unit := two_zpow_pos (min e f)
  rw [mul_lt_mul_iff_left₀ unit, lt, decide_eq_true_iff]
  exact Int.cast_lt.symm

theorem Is.maxOf (hx : x.Is q) (hy : y.Is r) : (Double.maxOf x y).Is (max q r) := by
  unfold Double.maxOf
  split
  · next less => rwa [max_eq_right ((hx.lt_iff hy).mp less).le]
  · next notLess =>
      rwa [max_eq_left (not_lt.mp fun less => notLess ((hx.lt_iff hy).mpr less))]

theorem Is.minOf (hx : x.Is q) (hy : y.Is r) : (Double.minOf x y).Is (min q r) := by
  unfold Double.minOf
  split
  · next less => rwa [min_eq_right ((hy.lt_iff hx).mp less).le]
  · next notLess =>
      rwa [min_eq_left (not_lt.mp fun less => notLess ((hy.lt_iff hx).mpr less))]

/-- Whatever is kept within two finite numbers is finite and lies between them. -/
theorem exists_is_clamped {low high : Double} (hl : low.Is q) (hh : high.Is r) (le : q ≤ r)
    (x : Double) : ∃ v, (Double.maxOf low (Double.minOf high x)).Is v ∧ q ≤ v ∧ v ≤ r := by
  cases x with
  | finite negative m e canonical =>
      refine ⟨_, hl.maxOf (hh.minOf ⟨negative, m, e, canonical, rfl, rfl⟩), le_max_left _ _, ?_⟩
      exact max_le le (min_le_left _ _)
  | nan =>
      have top : Double.minOf high .nan = high := by
        obtain ⟨_, _, _, _, rfl, _⟩ := hh
        rfl
      rw [top]
      exact ⟨_, hl.maxOf hh, le_max_left _ _, max_le le le_rfl⟩
  | infinite negative =>
      obtain ⟨_, _, _, _, rfl, value⟩ := id hl
      obtain ⟨_, _, _, _, rfl, value'⟩ := id hh
      cases negative with
      | true => exact ⟨q, hl, le_rfl, le⟩
      | false => exact ⟨_, hl.maxOf hh, le_max_left _ _, max_le le le_rfl⟩

/-! ### Rounding between integers -/

theorem is_build (negative : Bool) {m : Nat} {e : Int} (canonical : Canonical m e) :
    (build negative m e).Is (if negative then -((m : ℚ) * 2 ^ e) else m * 2 ^ e) := by
  rw [build, dif_pos canonical]
  exact ⟨negative, m, e, canonical, rfl, rfl⟩

/-- A quotient that is not large has its last place no higher than the units, and is rounded to a
finite number there. -/
theorem is_ofRatio (negative : Bool) {num den : Nat} (numPos : 0 < num) (denPos : 0 < den)
    (small : (num : ℚ) / den ≤ 2 ^ 52) : ∃ e ≤ 0, (ofRatio negative num den).Is
      (if negative then -((roundedAt num den e : ℚ) * 2 ^ e) else roundedAt num den e * 2 ^ e) := by
  have pos : (0 : ℚ) < (num : ℚ) / den := by positivity
  have place := lastPlace_eq numPos denPos
  have log : Int.log 2 ((num : ℚ) / den) < 53 := by
    refine (lt_two_zpow_iff pos).mp (lt_of_le_of_lt small ?_)
    norm_num
  have most := roundedAt_most numPos denPos
  have least := roundedAt_least numPos denPos
  refine ⟨lastPlace num den, by omega, ?_⟩
  rw [ofRatio_of_pos negative numPos]
  generalize lastPlace num den = e at place most least
  generalize roundedAt num den e = m at most least
  split
  · next full =>
      rw [full, full_value]
      exact is_build negative ⟨by norm_num, by omega, by omega, .inr le_rfl⟩
  · exact is_build negative ⟨by omega, by omega, by omega, least⟩

/-- No integer lies between two values: each is on the same side of both, or at one of them. -/
def Abreast (q v : ℚ) : Prop := ∀ n : Int, ((n : ℚ) ≤ q → (n : ℚ) ≤ v) ∧ (q ≤ n → v ≤ n)

theorem Abreast.neg {v : ℚ} (h : Abreast q v) : Abreast (-q) (-v) := fun n => by
  obtain ⟨above, below⟩ := h (-n)
  push_cast at above below
  exact ⟨fun le => le_neg.mp (below (le_neg.mp le)), fun le => neg_le.mp (above (neg_le.mp le))⟩

theorem Abreast.le {k n : Int} (h : Abreast q k) (above : (n : ℚ) ≤ q) : n ≤ k :=
  Int.cast_le.mp ((h n).1 above)

theorem Abreast.ge {k n : Int} (h : Abreast q k) (below : q ≤ n) : k ≤ n :=
  Int.cast_le.mp ((h n).2 below)

/-- Values that are not negative are compared with the natural numbers alone. -/
theorem abreast_of_nat {v : ℚ} (nonneg : 0 ≤ q)
    (h : ∀ k : Nat, ((k : ℚ) ≤ q → (k : ℚ) ≤ v) ∧ (q ≤ k → v ≤ k)) : Abreast q v := fun n => by
  have least : 0 ≤ v := by simpa using (h 0).1 (by simpa using nonneg)
  rcases Int.lt_or_le n 0 with negative | nonnegative
  · have below : (n : ℚ) < 0 := by exact_mod_cast negative
    exact ⟨fun _ => by linarith, fun le => by linarith⟩
  · obtain ⟨k, rfl⟩ := Int.eq_ofNat_of_zero_le nonnegative
    simpa using h k

/-- Rounding never goes past an integer. -/
theorem exists_is_ofRatio (negative : Bool) {num den : Nat} (denPos : 0 < den)
    (small : (num : ℚ) / den ≤ 2 ^ 52) : ∃ v : ℚ,
      (ofRatio negative num den).Is (if negative then -v else v) ∧ Abreast (num / den) v := by
  rcases Nat.eq_zero_or_pos num with rfl | numPos
  · refine ⟨0, ?_, by simp [Abreast]⟩
    rw [ofRatio, if_pos rfl]
    simpa using is_zeroOf negative
  · obtain ⟨e, fine, value⟩ := is_ofRatio negative numPos denPos small
    refine ⟨_, value, abreast_of_nat (by positivity) fun k => ?_⟩
    have unit := two_zpow_pos e
    -- an integer is a whole number of units of the last place
    have units : (k : ℚ) = (k * 2 ^ (-e).toNat : Nat) * 2 ^ e := by
      rw [← zpow_toNat e, show e.toNat = 0 by omega]
      push_cast
      field_simp
    rw [units]
    constructor
    · intro above
      have := le_roundedAt denPos above
      exact mul_le_mul_of_nonneg_right (by exact_mod_cast this) unit.le
    · intro below
      have := roundedAt_le denPos below
      exact mul_le_mul_of_nonneg_right (by exact_mod_cast this) unit.le

theorem exists_is_ofScaled {total least : Int} (value : (total : ℚ) * 2 ^ least = q)
    (small : |q| ≤ 2 ^ 52) :
    ∃ v, (ofScaled (total < 0) total.natAbs least).Is v ∧ Abreast q v := by
  have unit := two_zpow_pos least
  have size : ((total.natAbs * 2 ^ least.toNat : Nat) : ℚ) / (2 ^ (-least).toNat : Nat) = |q| := by
    rw [← value, abs_mul, abs_of_pos unit, ← zpow_toNat least]
    push_cast
    rw [Nat.cast_natAbs]
    push_cast
    ring
  have pos : 0 < 2 ^ (-least).toNat := by positivity
  obtain ⟨v, is, near⟩ := exists_is_ofRatio (total < 0) pos (size.trans_le small)
  rw [size] at near
  refine ⟨_, is, ?_⟩
  by_cases negative : total < 0
  · have below : q ≤ 0 := by
      rw [← value]
      exact mul_nonpos_of_nonpos_of_nonneg (by exact_mod_cast negative.le) unit.le
    simpa [negative, abs_of_nonpos below] using near.neg
  · have above : 0 ≤ q := by
      rw [← value]
      exact mul_nonneg (by exact_mod_cast not_lt.mp negative) unit.le
    simpa [negative, abs_of_nonneg above] using near

/-- A sum that is not large is rounded between the integers around it. -/
theorem Is.add (hx : x.Is q) (hy : y.Is r) (small : |q + r| ≤ 2 ^ 52) :
    ∃ v, (x + y).Is v ∧ Abreast (q + r) v := by
  obtain ⟨s, m, e, _, rfl, rfl⟩ := hx
  obtain ⟨t, n, f, _, rfl, rfl⟩ := hy
  rw [← shifted_value s m (min_le_left e f), ← shifted_value t n (min_le_right e f),
    ← add_mul] at small ⊢
  show ∃ v, (Double.add _ _).Is v ∧ _
  unfold Double.add
  dsimp only
  have cast : (shifted s m e (min e f) : ℚ) + shifted t n f (min e f) =
      ((shifted s m e (min e f) + shifted t n f (min e f) : Int) : ℚ) := by push_cast; rfl
  rw [cast] at small ⊢
  split
  · next zero => exact ⟨0, is_zeroOf _, by simp [zero, Abreast]⟩
  · exact exists_is_ofScaled rfl small

theorem fraction_value (negative : Bool) (m : Nat) (e : Int) :
    ((fraction negative m e).1 : ℚ) / (fraction negative m e).2 =
      if negative then -((m : ℚ) * 2 ^ e) else m * 2 ^ e := by
  rw [← zpow_toNat e]
  cases negative <;> simp [fraction] <;> ring

theorem abreast_roundSignedQuotient (num : Int) {den : Nat} (pos : 0 < den) :
    Abreast (num / den) (roundSignedQuotient num den) := by
  have near : Abreast (|(num : ℚ)| / den) (roundQuotient num.natAbs den) := by
    rw [← Int.cast_abs, ← Nat.cast_natAbs]
    exact abreast_of_nat (by positivity) fun k =>
      ⟨fun above => by exact_mod_cast le_roundQuotient pos above,
        fun below => by exact_mod_cast roundQuotient_le_of_le pos below⟩
  unfold roundSignedQuotient
  by_cases negative : num < 0
  · have below : (num : ℚ) < 0 := by exact_mod_cast negative
    simpa [negative, abs_of_neg below, neg_div] using near.neg
  · have above : (0 : ℚ) ≤ num := by exact_mod_cast not_lt.mp negative
    simpa [negative, abs_of_nonneg above] using near

/-- The nearest integer to a number does not go past an integer. -/
theorem Is.roundEven (h : x.Is q) : ∃ n, x.roundEven = .ok n ∧ Abreast q n := by
  obtain ⟨negative, m, e, _, rfl, rfl⟩ := h
  rw [← fraction_value]
  exact ⟨_, rfl, abreast_roundSignedQuotient _ (Nat.two_pow_pos _)⟩

/-! ### Integers among the numbers -/

/-- The value of a number, where it has one. -/
protected def value : Double → ℚ
  | .finite negative m e _ => ((fraction negative m e).1 : ℚ) / (fraction negative m e).2
  | _ => 0

theorem Is.value_eq (h : x.Is q) : x.value = q := by
  obtain ⟨negative, m, e, _, rfl, rfl⟩ := h
  exact fraction_value negative m e

theorem is_of_toInt? {n : Int} (h : x.toInt? = some n) : x.Is n := by
  cases x with
  | nan => cases h
  | infinite negative => cases h
  | finite negative m e canonical =>
      refine ⟨negative, m, e, canonical, rfl, ?_⟩
      rw [← fraction_value]
      unfold toInt? at h
      dsimp only at h
      split at h
      · next even =>
          rw [← Option.some.inj h, Int.cast_div_charZero (Int.dvd_of_emod_eq_zero even)]
          rfl
      · cases h

theorem eq_of_ofInt? {n : Int} (h : ofInt? n = .ok x) : x = ofInt n := by
  unfold ofInt? at h
  split at h
  · exact (Except.ok.inj h).symm
  · cases h

theorem is_of_ofInt? {n : Int} (small : n.natAbs ≤ 2 ^ 53)
    (h : ofInt? n = .ok x) : x.Is n :=
  eq_of_ofInt? h ▸ is_ofInt small

/-- What is abreast of an integer is that integer. -/
theorem Abreast.eq {v : ℚ} {n : Int} (h : Abreast n v) : v = n :=
  le_antisymm ((h n).2 le_rfl) ((h n).1 le_rfl)

/-- The sum of integers that are not large is exact. -/
theorem is_add {m n : Int} (hx : x.Is m) (hy : y.Is n)
    (small : (m + n).natAbs ≤ 2 ^ 52) : (x + y).Is (m + n : Int) := by
  have within : |(m : ℚ) + n| ≤ 2 ^ 52 := by
    have size : |m + n| ≤ 2 ^ 52 := abs_le.mpr ⟨by omega, by omega⟩
    exact_mod_cast size
  obtain ⟨v, is, near⟩ := hx.add hy within
  rw [← Int.cast_add] at near
  exact near.eq ▸ is

end Double

/-! ### The moved score -/

open Double

theorem clampAffinity_abreast {x : Double} {q : ℚ} (h : x.Is q) :
    Abreast (max (-100) (min 100 q)) (clampAffinity x) := by
  have limit : (ofInt maxAffinity).Is 100 := is_ofInt (by decide)
  obtain ⟨n, rounded, near⟩ := (limit.neg.maxOf (limit.minOf h)).roundEven
  rw [clampAffinity, rounded]
  exact near

/-- One change moves a score by no more than ten and leaves it within its bounds, whatever is
asked for. -/
theorem moveAffinity_near (score : Int) (change : Option AffinityChange) :
    |moveAffinity score change - boundAffinity score| ≤ 10 ∧ |moveAffinity score change| ≤ 100 := by
  have within := boundAffinity_bounds score
  rw [abs_le, abs_le]
  rcases change with _ | change
  · have same : moveAffinity score none = boundAffinity score := rfl
    omega
  · unfold moveAffinity
    dsimp only
    generalize boundAffinity score = c at within
    generalize change.goal c - ofInt c = asked
    have whole : (ofInt c).Is c := is_ofInt (by omega)
    have most : (ofInt maxAffinityStep).Is 10 := is_ofInt (by decide)
    obtain ⟨step, is, low, high⟩ := exists_is_clamped most.neg most (by norm_num) asked
    have least : (-100 : ℚ) ≤ c := by exact_mod_cast within.1
    have greatest : (c : ℚ) ≤ 100 := by exact_mod_cast within.2
    obtain ⟨v, sum, near⟩ := whole.add is (abs_le.mpr ⟨by linarith, by linarith⟩)
    have lower : (c : ℚ) - 10 ≤ v := by
      have := (near (c - 10)).1
      push_cast at this
      exact this (by linarith)
    have upper : v ≤ (c : ℚ) + 10 := by
      have := (near (c + 10)).2
      push_cast at this
      exact this (by linarith)
    have clamped := clampAffinity_abreast sum
    generalize clampAffinity _ = n at clamped ⊢
    have down : c - 10 ≤ n := clamped.le (by
      push_cast
      exact le_max_of_le_right (le_min (by linarith) lower))
    have up : n ≤ c + 10 := clamped.ge (by
      push_cast
      exact max_le (by linarith) (min_le_of_right_le upper))
    have least : -100 ≤ n := clamped.le (by
      push_cast
      exact le_max_left _ _)
    have most : n ≤ 100 := clamped.ge (by
      push_cast
      exact max_le (by norm_num) (min_le_left _ _))
    omega

end Ascent
