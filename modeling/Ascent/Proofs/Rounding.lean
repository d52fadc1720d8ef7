import Ascent.Number.Double
import Mathlib.Algebra.Order.Field.Power
import Mathlib.Data.Int.Log
import Mathlib.Data.Rat.Floor
import Mathlib.Tactic.Linarith
import Mathlib.Tactic.Positivity
import Mathlib.Tactic.FieldSimp
import Mathlib.Tactic.Ring
import Mathlib.Tactic.NormNum

/-!
Rounding to binary64 numbers as a function of a rational number.

The last place of the rounded number follows from the logarithm of the quotient, so the rounding
depends on the quotient alone and not on the numerator and denominator that give it. Whatever lies
closer to a number than one part in `2 ^ 54` rounds to it; in particular a number rounds to itself.

Main exports: `Double.roundedAt`, `Double.ofRatio_congr`, `Double.ofRatio_eq_of_near`,
`Double.ofRatio_fraction`.
-/

namespace Ascent

/-! ### Quotients -/

theorem roundQuotient_mul {k : Nat} (pos : 0 < k) (num den : Nat) :
    roundQuotient (k * num) (k * den) = roundQuotient num den := by
  unfold roundQuotient
  rw [Nat.mul_div_mul_left num den pos, Nat.mul_mod_mul_left]
  have less : 2 * (k * (num % den)) < k * den ↔ 2 * (num % den) < den := by
    rw [Nat.mul_left_comm, Nat.mul_lt_mul_left pos]
  have half : 2 * (k * (num % den)) = k * den ↔ 2 * (num % den) = den := by
    rw [Nat.mul_left_comm, Nat.mul_right_inj (Nat.ne_of_gt pos)]
  simp only [less, half]

/-- An integer that is closer than a half is the nearest one. -/
theorem roundQuotient_eq_of_near {num den m : Nat}
    (low : (den : Int) * (2 * m - 1) < 2 * num) (high : 2 * (num : Int) < den * (2 * m + 1)) :
    roundQuotient num den = m := by
  have parts : (den : Int) * (num / den : Nat) + (num % den : Nat) = num := by
    exact_mod_cast Nat.div_add_mod num den
  have pos : 0 < den := by
    rcases Nat.eq_zero_or_pos den with rfl | pos
    · simp at low high; omega
    · exact pos
  have rest : num % den < den := Nat.mod_lt num pos
  unfold roundQuotient
  dsimp only
  generalize num / den = w at parts ⊢
  generalize num % den = r at parts rest ⊢
  -- The quotient is `m` with less than half a rest, or `m - 1` with more.
  have upper : w < m + 1 := by
    by_contra far
    have : (den : Int) * (m + 1) ≤ den * w := by
      apply Int.mul_le_mul_of_nonneg_left <;> omega
    linarith [this, high, parts]
  have lower : m < w + 2 := by
    by_contra far
    have : (den : Int) * (w + 2) ≤ den * m := by
      apply Int.mul_le_mul_of_nonneg_left <;> omega
    have : (r : Int) < den := by exact_mod_cast rest
    linarith [this, low, parts]
  rcases Nat.lt_or_ge w m with below | above
  · obtain rfl : m = w + 1 := by omega
    push_cast at low
    have more : (den : Int) < 2 * r := by linarith
    rw [if_neg (by omega)]
  · obtain rfl : m = w := by omega
    have less : 2 * (r : Int) < den := by linarith
    rw [if_pos (by omega)]

theorem roundQuotient_eq_of_lt {num den m : Nat} (pos : 0 < den)
    (low : (m : ℚ) - 1 / 2 < (num : ℚ) / den) (high : (num : ℚ) / den < m + 1 / 2) :
    roundQuotient num den = m := by
  have cast : (0 : ℚ) < den := by exact_mod_cast pos
  rw [lt_div_iff₀ cast] at low
  rw [div_lt_iff₀ cast] at high
  have low' : (den : ℚ) * (2 * m - 1) < 2 * num := by linarith
  have high' : 2 * (num : ℚ) < den * (2 * m + 1) := by linarith
  exact roundQuotient_eq_of_near (by exact_mod_cast low') (by exact_mod_cast high')

/-! ### The last place -/

namespace Double

theorem zpow_toNat (e : Int) : ((2 : ℚ) ^ e.toNat) / 2 ^ (-e).toNat = 2 ^ e := by
  rw [← zpow_natCast, ← zpow_natCast, ← zpow_sub₀ (by norm_num)]
  congr 1
  omega

theorem two_zpow_pos (e : Int) : (0 : ℚ) < 2 ^ e := by positivity

/-! The logarithm to the base 2, without the cast of the base. -/

theorem two_zpow_le_iff {q : ℚ} (pos : 0 < q) {k : Int} :
    (2 : ℚ) ^ k ≤ q ↔ k ≤ Int.log 2 q := by
  exact_mod_cast Int.zpow_le_iff_le_log (by norm_num) pos

theorem lt_two_zpow_iff {q : ℚ} (pos : 0 < q) {k : Int} :
    q < (2 : ℚ) ^ k ↔ Int.log 2 q < k := by
  exact_mod_cast Int.lt_zpow_iff_log_lt (by norm_num) pos

theorem two_zpow_log_le {q : ℚ} (pos : 0 < q) : (2 : ℚ) ^ Int.log 2 q ≤ q :=
  (two_zpow_le_iff pos).mpr le_rfl

theorem lt_two_zpow_log {q : ℚ} (pos : 0 < q) : q < (2 : ℚ) ^ (Int.log 2 q + 1) :=
  (lt_two_zpow_iff pos).mpr (lt_add_one _)

theorem log2_bounds {n : Nat} (pos : 0 < n) :
    (2 : ℚ) ^ (n.log2 : Int) ≤ n ∧ (n : ℚ) < 2 ^ ((n.log2 : Int) + 1) := by
  rw [← Nat.cast_succ, zpow_natCast, zpow_natCast]
  exact ⟨by exact_mod_cast Nat.log2_self_le pos.ne', by exact_mod_cast Nat.lt_log2_self⟩

/-- The logarithms of the parts leave two numbers for that of a quotient. -/
theorem log_quotient_bounds {num den : Nat} (numPos : 0 < num) (denPos : 0 < den) :
    (num.log2 : Int) - den.log2 - 1 ≤ Int.log 2 ((num : ℚ) / den) ∧
      Int.log 2 ((num : ℚ) / den) < num.log2 - den.log2 + 1 := by
  have denCast : (0 : ℚ) < den := by exact_mod_cast denPos
  have pos : (0 : ℚ) < (num : ℚ) / den := by positivity
  obtain ⟨numLow, numHigh⟩ := log2_bounds numPos
  obtain ⟨denLow, denHigh⟩ := log2_bounds denPos
  rw [← two_zpow_le_iff pos, ← lt_two_zpow_iff pos, le_div_iff₀ denCast, div_lt_iff₀ denCast]
  constructor
  · calc (2 : ℚ) ^ ((num.log2 : Int) - den.log2 - 1) * den
        ≤ 2 ^ ((num.log2 : Int) - den.log2 - 1) * 2 ^ ((den.log2 : Int) + 1) := by gcongr
      _ = 2 ^ (num.log2 : Int) := by rw [← zpow_add₀ (by norm_num)]; congr 1; omega
      _ ≤ num := numLow
  · calc (num : ℚ) < 2 ^ ((num.log2 : Int) + 1) := numHigh
      _ = 2 ^ ((num.log2 : Int) - den.log2 + 1) * 2 ^ (den.log2 : Int) := by
        rw [← zpow_add₀ (by norm_num)]; congr 1; omega
      _ ≤ 2 ^ ((num.log2 : Int) - den.log2 + 1) * den := by gcongr

/-- The comparison that decides between them, as one of the quotient. -/
theorem scaled_lt_iff (num : Nat) {den : Nat} (denPos : 0 < den) (k : Int) :
    num * 2 ^ (-k).toNat < den * 2 ^ k.toNat ↔ (num : ℚ) / den < 2 ^ k := by
  have denCast : (0 : ℚ) < den := by exact_mod_cast denPos
  rw [div_lt_iff₀ denCast, ← zpow_toNat k, div_mul_eq_mul_div, lt_div_iff₀ (by positivity),
    mul_comm (2 ^ k.toNat) (den : ℚ)]
  exact_mod_cast Iff.rfl

/-- The last place as a function of the quotient. -/
theorem lastPlace_eq {num den : Nat} (numPos : 0 < num) (denPos : 0 < den) :
    lastPlace num den = max (-1074) (Int.log 2 ((num : ℚ) / den) - 52) := by
  have pos : (0 : ℚ) < (num : ℚ) / den := by positivity
  have bounds := log_quotient_bounds numPos denPos
  unfold lastPlace
  simp only [scaled_lt_iff num denPos, lt_two_zpow_iff pos]
  split <;> omega

/-- The fraction that a finite number is written as has its value. -/
theorem zpow_fraction (m : Nat) (e : Int) :
    ((m * 2 ^ e.toNat : Nat) : ℚ) / (2 ^ (-e).toNat : Nat) = m * 2 ^ e := by
  rw [← zpow_toNat e]
  push_cast
  ring

/-- What is rounded at a last place, as a quotient. -/
theorem scaled_quotient (num den : Nat) (e : Int) :
    ((num * 2 ^ (-e).toNat : Nat) : ℚ) / (den * 2 ^ e.toNat : Nat) = (num : ℚ) / den / 2 ^ e := by
  rw [← zpow_toNat e]
  push_cast
  field_simp

/-- The significand that a quotient is rounded to at its last place. -/
def roundedAt (num den : Nat) (e : Int) : Nat :=
  roundQuotient (num * 2 ^ (-e).toNat) (den * 2 ^ e.toNat)

theorem ofRatio_of_pos (negative : Bool) {num den : Nat} (numPos : 0 < num) :
    ofRatio negative num den =
      if roundedAt num den (lastPlace num den) = 2 ^ (53 : Nat) then
        build negative (2 ^ (52 : Nat)) (lastPlace num den + 1)
      else build negative (roundedAt num den (lastPlace num den)) (lastPlace num den) :=
  if_neg (Nat.ne_of_gt numPos)

/-- Rounding depends on the quotient alone. -/
theorem ofRatio_mul {k : Nat} (pos : 0 < k) (negative : Bool) {num den : Nat} (denPos : 0 < den) :
    ofRatio negative (k * num) (k * den) = ofRatio negative num den := by
  rcases Nat.eq_zero_or_pos num with rfl | numPos
  · rfl
  · have place : lastPlace (k * num) (k * den) = lastPlace num den := by
      rw [lastPlace_eq (Nat.mul_pos pos numPos) (Nat.mul_pos pos denPos),
        lastPlace_eq numPos denPos]
      have : (k : ℚ) ≠ 0 := by exact_mod_cast Nat.ne_of_gt pos
      push_cast
      rw [mul_div_mul_left _ _ this]
    have scaled (e : Int) : roundQuotient (k * num * 2 ^ (-e).toNat) (k * den * 2 ^ e.toNat) =
        roundQuotient (num * 2 ^ (-e).toNat) (den * 2 ^ e.toNat) := by
      rw [Nat.mul_assoc, Nat.mul_assoc, roundQuotient_mul pos]
    unfold ofRatio
    rw [if_neg (Nat.ne_of_gt (Nat.mul_pos pos numPos)), if_neg (Nat.ne_of_gt numPos)]
    simp only [place, scaled]

theorem ofRatio_congr (negative : Bool) {num den num' den' : Nat} (pos : 0 < den) (pos' : 0 < den')
    (same : num * den' = num' * den) :
    ofRatio negative num den = ofRatio negative num' den' := by
  calc ofRatio negative num den = ofRatio negative (den' * num) (den' * den) :=
        (ofRatio_mul pos' negative pos).symm
    _ = ofRatio negative (den * num') (den * den') := by
        rw [Nat.mul_comm den' num, same, Nat.mul_comm num' den, Nat.mul_comm den' den]
    _ = ofRatio negative num' den' := ofRatio_mul pos negative pos'

/-! ### What rounds to a number -/

/-- The part by which a quotient may miss a number that it is to be rounded to. -/
def slack : ℚ := 1 / 2 ^ 54

section

variable {num den m : Nat} {e : Int} (denPos : 0 < den)
  (low : (m : ℚ) * 2 ^ e * (1 - slack) < (num : ℚ) / den)
  (high : (num : ℚ) / den < m * 2 ^ e * (1 + slack))
include low high

/-- Measured in the last place, what lies so close to a number is closer than a half to its
significand. -/
theorem near_bounds (most : m ≤ 2 ^ 53) :
    ((m : ℚ) - 1 / 2) * 2 ^ e < (num : ℚ) / den ∧ (num : ℚ) / den < (m + 1 / 2) * 2 ^ e := by
  have part : (m : ℚ) * slack ≤ 1 / 2 := by
    have most : (m : ℚ) ≤ 2 ^ 53 := by exact_mod_cast most
    unfold slack
    linarith
  constructor
  · calc ((m : ℚ) - 1 / 2) * 2 ^ e ≤ (m - m * slack) * 2 ^ e := by gcongr
      _ = m * 2 ^ e * (1 - slack) := by ring
      _ < (num : ℚ) / den := low
  · calc (num : ℚ) / den < m * 2 ^ e * (1 + slack) := high
      _ = (m + m * slack) * 2 ^ e := by ring
      _ ≤ (m + 1 / 2) * 2 ^ e := by gcongr

include denPos

theorem roundedAt_eq_of_near (most : m ≤ 2 ^ 53) : roundedAt num den e = m := by
  have unit := two_zpow_pos e
  obtain ⟨above, below⟩ := near_bounds low high most
  apply roundQuotient_eq_of_lt (Nat.mul_pos denPos (by positivity)) <;> rw [scaled_quotient]
  · rwa [lt_div_iff₀ unit]
  · rwa [div_lt_iff₀ unit]

/-- What lies so close to a number has the number's last place. Only below a power of two the places
may be twice as close. -/
theorem lastPlace_of_near (canonical : Canonical m e) (pos : 0 < m) (numPos : 0 < num) :
    lastPlace num den = e ∨ lastPlace num den = e - 1 ∧ m = 2 ^ 52 := by
  obtain ⟨small, least, -, large⟩ := canonical
  have quotient : (0 : ℚ) < (num : ℚ) / den := by positivity
  have unit := two_zpow_pos e
  obtain ⟨above, below⟩ := near_bounds low high small.le
  have place := lastPlace_eq numPos denPos
  -- How many places the number spans bounds the logarithm of the quotient.
  have logBelow : Int.log 2 ((num : ℚ) / den) < 53 + e := by
    rw [← lt_two_zpow_iff quotient, zpow_add₀ (by norm_num)]
    have most : (m : ℚ) + 1 ≤ 2 ^ 53 := by exact_mod_cast small
    calc (num : ℚ) / den < (m + 1 / 2) * 2 ^ e := below
      _ ≤ 2 ^ (53 : Int) * 2 ^ e := by
        gcongr
        norm_num at most ⊢
        linarith
  have logAbove (k : Nat) (le : (2 : ℚ) ^ k ≤ m - 1 / 2) :
      (k : Int) + e ≤ Int.log 2 ((num : ℚ) / den) := by
    rw [← two_zpow_le_iff quotient, zpow_add₀ (by norm_num), zpow_natCast]
    calc (2 : ℚ) ^ k * 2 ^ e ≤ (m - 1 / 2) * 2 ^ e := by gcongr
      _ ≤ (num : ℚ) / den := above.le
  rcases large with bottom | large
  · left; omega
  rcases Nat.lt_or_eq_of_le large with more | rfl
  · have more : (2 : ℚ) ^ 52 + 1 ≤ m := by exact_mod_cast more
    have := logAbove 52 (by linarith)
    left; omega
  · have := logAbove 51 (by norm_num)
    omega

end

/-- A significand that grows by a place moves up by one. -/
theorem full_value (e : Int) :
    ((2 ^ 53 : Nat) : ℚ) * 2 ^ e = ((2 ^ 52 : Nat) : ℚ) * 2 ^ (e + 1) := by
  rw [zpow_add₀ (by norm_num)]
  push_cast
  ring

/-- Whatever lies closer to a number than one part in `2 ^ 54` rounds to it. -/
theorem ofRatio_eq_of_near {m : Nat} {e : Int} (canonical : Canonical m e) (pos : 0 < m)
    (negative : Bool) {num den : Nat} (denPos : 0 < den)
    (low : (m : ℚ) * 2 ^ e * (1 - slack) < (num : ℚ) / den)
    (high : (num : ℚ) / den < m * 2 ^ e * (1 + slack)) :
    ofRatio negative num den = .finite negative m e canonical := by
  have numPos : 0 < num := by
    refine Nat.pos_of_ne_zero fun zero => absurd low (not_lt.mpr ?_)
    rw [zero, Nat.cast_zero, zero_div]
    unfold slack
    positivity
  rw [ofRatio_of_pos negative numPos]
  obtain same | ⟨lower, rfl⟩ := lastPlace_of_near denPos low high canonical pos numPos
  · rw [same, roundedAt_eq_of_near denPos low high canonical.1.le, if_neg canonical.1.ne, build,
      dif_pos canonical]
  · -- The quotient fills the significand at the lower place and is carried up.
    have value : ((2 ^ 53 : Nat) : ℚ) * 2 ^ (e - 1) = ((2 ^ 52 : Nat) : ℚ) * 2 ^ e := by
      rw [full_value, Int.sub_add_cancel]
    have full : roundedAt num den (e - 1) = 2 ^ 53 := by
      apply roundedAt_eq_of_near denPos _ _ le_rfl <;> rwa [value]
    rw [lower, full, if_pos rfl, Int.sub_add_cancel, build, dif_pos canonical]

/-- A finite number rounds to itself. -/
theorem ofRatio_fraction (negative : Bool) {m : Nat} {e : Int} (canonical : Canonical m e) :
    ofRatio negative (m * 2 ^ e.toNat) (2 ^ (-e).toNat) = .finite negative m e canonical := by
  rcases Nat.eq_zero_or_pos m with rfl | pos
  · obtain rfl : e = -1074 := by
      obtain ⟨_, _, _, least | large⟩ := canonical
      · exact least
      · omega
    simp [ofRatio, zeroOf]
  · have value := zpow_fraction m e
    have size : (0 : ℚ) < m * 2 ^ e := by
      have := two_zpow_pos e
      have : (0 : ℚ) < m := by exact_mod_cast pos
      positivity
    have some_ : (0 : ℚ) < slack := by unfold slack; norm_num
    apply ofRatio_eq_of_near canonical pos negative (by positivity)
    · rw [value]; nlinarith
    · rw [value]; nlinarith

end Double
end Ascent
