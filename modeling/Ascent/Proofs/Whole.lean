import Ascent.Proofs.Overflow

/-!
Integers that are binary64 numbers.

Every integer of magnitude up to `2 ^ 53` is one, and so is whatever is rounded from a number. The
sum of two of them as numbers is the number nearest to their sum as integers.

Main exports: `Double.Whole`, `Double.whole_of_small`, `Double.whole_of_roundEven`,
`Double.isFinite_ofInt_add`, `Double.ofInt_add_ofInt`.
-/

namespace Ascent

namespace Double

/-- An integer that is a binary64 number: the significand and exponent of its magnitude. -/
def Whole (n : Int) : Prop := ∃ m e, Canonical m e ∧ (m : ℚ) * 2 ^ e = n.natAbs

theorem ofInt_eq {n : Int} {m : Nat} {e : Int} (canonical : Canonical m e)
    (value : (m : ℚ) * 2 ^ e = n.natAbs) : ofInt n = .finite (n < 0) m e canonical := by
  have same : n.natAbs * 2 ^ (-e).toNat = m * 2 ^ e.toNat * 1 := by
    have cast : ((n.natAbs * 2 ^ (-e).toNat : Nat) : ℚ) = (m * 2 ^ e.toNat * 1 : Nat) := by
      push_cast
      rw [← value, ← zpow_toNat e]
      field_simp
    exact_mod_cast cast
  rw [ofInt, ofRatio_congr (n < 0) (by norm_num) (by positivity) same]
  exact ofRatio_fraction _ canonical

theorem isFinite_of_whole {n : Int} (whole : Whole n) : (ofInt n).isFinite := by
  obtain ⟨m, e, canonical, value⟩ := whole
  rw [ofInt_eq canonical value]
  rfl

theorem whole_neg {n : Int} (whole : Whole n) : Whole (-n) := by
  obtain ⟨m, e, canonical, value⟩ := whole
  exact ⟨m, e, canonical, by rw [value, Int.natAbs_neg]⟩

theorem whole_max {n k : Int} (hn : Whole n) (hk : Whole k) : Whole (max n k) := by
  rcases max_choice n k with same | same <;> rw [same] <;> assumption

theorem whole_min {n k : Int} (hn : Whole n) (hk : Whole k) : Whole (min n k) := by
  rcases min_choice n k with same | same <;> rw [same] <;> assumption

theorem whole_of_small {n : Int} (small : n.natAbs ≤ 2 ^ 53) : Whole n := by
  rcases Nat.eq_zero_or_pos n.natAbs with zero | pos
  · exact ⟨0, -1074, by decide, by rw [zero]; norm_num⟩
  · rcases Nat.lt_or_eq_of_le small with less | most
    · have low : 2 ^ n.natAbs.log2 ≤ n.natAbs := Nat.log2_self_le (by omega)
      have high : n.natAbs < 2 ^ (n.natAbs.log2 + 1) := Nat.lt_log2_self
      have places : n.natAbs.log2 ≤ 52 := by
        by_contra more
        have : 2 ^ 53 ≤ 2 ^ n.natAbs.log2 := Nat.pow_le_pow_right (by norm_num) (by omega)
        omega
      generalize n.natAbs.log2 = k at low high places
      refine ⟨n.natAbs * 2 ^ (52 - k), (k : Int) - 52, ⟨?_, by omega, by omega, .inr ?_⟩, ?_⟩
      · have : n.natAbs * 2 ^ (52 - k) < 2 ^ (k + 1) * 2 ^ (52 - k) :=
          Nat.mul_lt_mul_of_pos_right high (by positivity)
        rwa [← Nat.pow_add, show k + 1 + (52 - k) = 53 by omega] at this
      · have : 2 ^ k * 2 ^ (52 - k) ≤ n.natAbs * 2 ^ (52 - k) := Nat.mul_le_mul_right _ low
        rwa [← Nat.pow_add, show k + (52 - k) = 52 by omega] at this
      · push_cast
        rw [mul_assoc, ← zpow_natCast, ← zpow_add₀ (by norm_num),
          show ((52 - k : Nat) : Int) + ((k : Int) - 52) = 0 by omega]
        norm_num
    · exact ⟨2 ^ 52, 1, by decide, by rw [most]; norm_num⟩

/-- The greatest integer that is not greater, and the nearest integer, are numbers again: a number
with a fraction is small. -/
theorem whole_of_toIntBy {round : Int → Nat → Int} {x : Double} {n : Int}
    (unit : ∀ k, round k 1 = k) (near : ∀ k d, (round k d).natAbs ≤ k.natAbs + 1)
    (h : x.toIntBy round = .ok n) : Whole n := by
  cases x with
  | nan => cases h
  | infinite negative => cases h
  | finite negative m e canonical =>
      have rounded : round (fraction negative m e).1 (fraction negative m e).2 = n :=
        Except.ok.inj h
      have size : (fraction negative m e).1.natAbs = m * 2 ^ e.toNat := by
        cases negative <;> simp [fraction, Int.natAbs_mul, Int.natAbs_pow]
      rcases Int.lt_or_le e 0 with below | above
      · apply whole_of_small
        have none : e.toNat = 0 := by omega
        rw [none, Nat.pow_zero, Nat.mul_one] at size
        have limit := near (fraction negative m e).1 (fraction negative m e).2
        rw [rounded, size] at limit
        have := canonical.1
        omega
      · have one : (fraction negative m e).2 = 1 := by
          simp [fraction, show (-e).toNat = 0 by omega]
        rw [one, unit] at rounded
        refine ⟨m, e, canonical, ?_⟩
        rw [← rounded, size, ← zpow_toNat e, show (-e).toNat = 0 by omega]
        push_cast
        ring

theorem roundQuotient_le (num den : Nat) : roundQuotient num den ≤ num + 1 := by
  have := Nat.div_le_self num den
  unfold roundQuotient
  dsimp only
  split <;> omega

theorem whole_of_roundEven {x : Double} {n : Int} (h : x.roundEven = .ok n) : Whole n := by
  refine whole_of_toIntBy (fun k => ?_) (fun k d => ?_) h
  · have one (i : Nat) : roundQuotient i 1 = i := by simp [roundQuotient, Nat.mod_one]
    unfold roundSignedQuotient
    split <;> rw [one] <;> omega
  · have := roundQuotient_le k.natAbs d
    unfold roundSignedQuotient
    split <;> omega

theorem whole_of_floor {x : Double} {n : Int} (h : x.floor = .ok n) : Whole n := by
  refine whole_of_toIntBy (fun k => ?_) (fun k d => ?_) h
  · exact Int.fdiv_one k
  · rw [Int.fdiv_eq_ediv_of_nonneg k (by omega)]
    have := Int.natAbs_ediv_le_natAbs k d
    omega

theorem shifted_value (negative : Bool) (m : Nat) {e least : Int} (le : least ≤ e) :
    (shifted negative m e least : ℚ) * 2 ^ least =
      if negative then -((m : ℚ) * 2 ^ e) else m * 2 ^ e := by
  have scale : (2 : ℚ) ^ (e - least).toNat * 2 ^ least = 2 ^ e := by
    rw [← zpow_natCast, ← zpow_add₀ (by norm_num)]
    congr 1
    omega
  unfold shifted
  cases negative <;> simp [mul_assoc, scale]

/-- A scaled integer that stands for an integer is rounded as that one is. -/
theorem ofScaled_eq_ofInt {total least n : Int} (value : (total : ℚ) * 2 ^ least = n) :
    ofScaled (total < 0) total.natAbs least = ofInt n := by
  have unit := two_zpow_pos least
  have sign : total < 0 ↔ n < 0 := by
    have cast : (total : ℚ) < 0 ↔ (n : ℚ) < 0 := by
      rw [← value]
      constructor
      · intro below
        exact mul_neg_of_neg_of_pos below unit
      · intro below
        by_contra above
        have := mul_nonneg (not_lt.mp above) unit.le
        linarith
    exact_mod_cast cast
  have size : (total.natAbs : ℚ) * 2 ^ least = n.natAbs := by
    have magnitude : |(total : ℚ) * 2 ^ least| = |(n : ℚ)| := by rw [value]
    rw [abs_mul, abs_of_pos unit] at magnitude
    simpa [Nat.cast_natAbs] using magnitude
  have same : total.natAbs * 2 ^ least.toNat * 1 = n.natAbs * 2 ^ (-least).toNat := by
    have cast : ((total.natAbs * 2 ^ least.toNat * 1 : Nat) : ℚ) =
        (n.natAbs * 2 ^ (-least).toNat : Nat) := by
      push_cast
      rw [← size, ← zpow_toNat least]
      field_simp
    exact_mod_cast cast
  rw [ofScaled, ofInt, decide_eq_decide.mpr sign]
  exact ofRatio_congr _ (by positivity) (by norm_num) same

/-- The sum of a small integer and an integer that is a number is within the finite numbers: the
largest of these is further from where they end than the small one. -/
theorem isFinite_ofInt_add {n k : Int} (small : n.natAbs ≤ 2 ^ 53) (hk : Whole k) :
    (ofInt (n + k)).isFinite := by
  obtain ⟨m, e, canonical, value⟩ := hk
  have less : (n.natAbs : ℚ) ≤ 2 ^ 53 := by exact_mod_cast small
  have most : (k.natAbs : ℚ) ≤ (2 ^ 53 - 1) * 2 ^ (971 : Int) := by
    have few : (m : ℚ) ≤ 2 ^ 53 - 1 := by
      have : m + 1 ≤ 2 ^ 53 := canonical.1
      have : (m : ℚ) + 1 ≤ 2 ^ 53 := by exact_mod_cast this
      linarith
    rw [← value]
    gcongr
    · norm_num
    · exact canonical.2.2.1
  have total : ((n + k).natAbs : ℚ) ≤ n.natAbs + k.natAbs := by
    exact_mod_cast Int.natAbs_add_le n k
  have far : (2 : ℚ) ^ (54 : Int) < 2 ^ (971 : Int) :=
    zpow_lt_zpow_right₀ (by norm_num) (by norm_num)
  rw [isFinite_ofInt_iff_lt, limit_eq]
  generalize (2 : ℚ) ^ (971 : Int) = x at most far ⊢
  norm_num at far
  linarith

/-- Integers that are numbers are added as numbers are. -/
theorem ofInt_add_ofInt {n k : Int} (hn : Whole n) (hk : Whole k) :
    ofInt n + ofInt k = ofInt (n + k) := by
  obtain ⟨m, e, canonical, value⟩ := hn
  obtain ⟨l, f, canonical', value'⟩ := hk
  have signed (i : Int) : (if (decide (i < 0)) = true then -(i.natAbs : ℚ) else i.natAbs) = i := by
    by_cases negative : i < 0
    · simp [negative, Nat.cast_natAbs, abs_of_neg negative]
    · simp [negative, Nat.cast_natAbs, abs_of_nonneg (Int.not_lt.mp negative)]
  have total : ((shifted (n < 0) m e (min e f) + shifted (k < 0) l f (min e f) : Int) : ℚ) *
      2 ^ min e f = (n + k : Int) := by
    push_cast
    rw [add_mul, shifted_value _ m (min_le_left e f), shifted_value _ l (min_le_right e f), value,
      value', signed, signed]
  rw [ofInt_eq canonical value, ofInt_eq canonical' value']
  show add _ _ = _
  unfold add
  dsimp only
  split
  · next zero =>
      rw [zero] at total
      have opposite : n + k = 0 := by
        have : (0 : ℚ) = (n + k : Int) := by simpa using total
        exact_mod_cast this.symm
      have apart : ¬ (n < 0 ∧ k < 0) := by omega
      rw [opposite, ← Bool.decide_and, decide_eq_false apart]
      rfl
  · exact ofScaled_eq_ofInt total

end Double
end Ascent
