import Ascent.Proofs.Rounding

/-!
Where the finite binary64 numbers end.

A quotient is rounded to a significand at its last place; the significand is at least half full
there and no more than full. The largest finite number has a full one at the highest place. What
lies in the middle between it and the power of two after it goes to that power, the even one of the
two, and so does all that is greater: it becomes infinite.

Main exports: `Double.isFinite_ofRatio_iff`, `Double.ofRatio_eq_infinite`,
`Double.isFinite_ofInt_iff`.
-/

namespace Ascent

namespace Double

/-! ### Quotients between integers -/

theorem le_roundQuotient {num den k : Nat} (pos : 0 < den) (above : (k : ℚ) ≤ (num : ℚ) / den) :
    k ≤ roundQuotient num den := by
  have cast : (0 : ℚ) < den := by exact_mod_cast pos
  have whole : k * den ≤ num := by exact_mod_cast (le_div_iff₀ cast).mp above
  have least : k ≤ num / den := (Nat.le_div_iff_mul_le pos).mpr whole
  unfold roundQuotient
  dsimp only
  split <;> omega

theorem roundQuotient_bounds {num den low high : Nat} (pos : 0 < den) (above : low * den ≤ num)
    (below : num < high * den) : low ≤ roundQuotient num den ∧ roundQuotient num den ≤ high := by
  have least : low ≤ num / den := (Nat.le_div_iff_mul_le pos).mpr above
  have greatest : num / den < high := (Nat.div_lt_iff_lt_mul pos).mpr below
  unfold roundQuotient
  dsimp only
  split <;> omega

theorem roundQuotient_le_of_le {num den k : Nat} (pos : 0 < den)
    (below : (num : ℚ) / den ≤ k) : roundQuotient num den ≤ k := by
  have cast : (0 : ℚ) < den := by exact_mod_cast pos
  have whole : num ≤ k * den := by exact_mod_cast (div_le_iff₀ cast).mp below
  rcases Nat.lt_or_eq_of_le whole with less | same
  · exact (roundQuotient_bounds pos (Nat.div_mul_le_self num den) less).2
  · simp [same, roundQuotient, Nat.mul_div_cancel k pos, pos]

/-- An even integer is reached from the half below it on. -/
theorem two_mul_le_roundQuotient_iff {num den k : Nat} (pos : 0 < den) :
    2 * k ≤ roundQuotient num den ↔ (2 * k : ℚ) - 1 / 2 ≤ (num : ℚ) / den := by
  have cast : (0 : ℚ) < den := by exact_mod_cast pos
  have parts := Nat.div_add_mod num den
  have rest := Nat.mod_lt num pos
  have units : (2 * k : ℚ) - 1 / 2 ≤ (num : ℚ) / den ↔ den * (4 * k) ≤ 2 * num + den := by
    rw [le_div_iff₀ cast]
    constructor
    · intro le
      have le : (den : ℚ) * (4 * k) ≤ 2 * num + den := by linarith
      exact_mod_cast le
    · intro le
      have le : (den : ℚ) * (4 * k) ≤ 2 * num + den := by exact_mod_cast le
      linarith
  rw [units]
  unfold roundQuotient
  dsimp only
  generalize num / den = w at parts ⊢
  generalize num % den = r at parts rest ⊢
  subst parts
  -- Only the integer before the even one leaves it open: its half is what counts there.
  rcases Nat.lt_trichotomy (w + 1) (2 * k) with below | before | above
  · have far : den * (w + 2) ≤ den * (2 * k) := Nat.mul_le_mul_left den (by omega)
    have short : ¬ den * (4 * k) ≤ 2 * (den * w + r) + den := by linarith
    split <;> omega
  · have near : den * (2 * k) = den * w + den := by rw [← before]; ring
    have half : den * (4 * k) ≤ 2 * (den * w + r) + den ↔ den ≤ 2 * r := by
      constructor <;> intro <;> linarith
    split <;> omega
  · have far : den * (2 * k) ≤ den * w := Nat.mul_le_mul_left den (by omega)
    have reached : den * (4 * k) ≤ 2 * (den * w + r) + den := by linarith
    split <;> omega

/-! ### The significand at the last place -/

theorem roundedAt_le {num den k : Nat} {e : Int} (denPos : 0 < den)
    (below : (num : ℚ) / den ≤ k * 2 ^ e) : roundedAt num den e ≤ k := by
  apply roundQuotient_le_of_le (by positivity)
  rwa [scaled_quotient, div_le_iff₀ (two_zpow_pos e)]

theorem le_roundedAt {num den k : Nat} {e : Int} (denPos : 0 < den)
    (above : (k : ℚ) * 2 ^ e ≤ (num : ℚ) / den) : k ≤ roundedAt num den e := by
  apply le_roundQuotient (by positivity)
  rwa [scaled_quotient, le_div_iff₀ (two_zpow_pos e)]

/-- The significand at the last place is no more than full. -/
theorem roundedAt_most {num den : Nat} (numPos : 0 < num) (denPos : 0 < den) :
    roundedAt num den (lastPlace num den) ≤ 2 ^ 53 := by
  have place := lastPlace_eq numPos denPos
  have high := lt_two_zpow_log (by positivity : (0 : ℚ) < (num : ℚ) / den)
  generalize lastPlace num den = e at place
  apply roundedAt_le denPos
  calc (num : ℚ) / den ≤ 2 ^ (Int.log 2 ((num : ℚ) / den) + 1) := high.le
    _ ≤ 2 ^ (53 + e) := zpow_le_zpow_right₀ (by norm_num) (by omega)
    _ = (2 ^ 53 : Nat) * 2 ^ e := by rw [zpow_add₀ (by norm_num)]; norm_num

/-- The significand at the last place is at least half full, unless the last place is the least. -/
theorem roundedAt_least {num den : Nat} (numPos : 0 < num) (denPos : 0 < den) :
    lastPlace num den = -1074 ∨ 2 ^ 52 ≤ roundedAt num den (lastPlace num den) := by
  have pos : (0 : ℚ) < (num : ℚ) / den := by positivity
  have place := lastPlace_eq numPos denPos
  have low := two_zpow_log_le pos
  generalize lastPlace num den = e at place
  rcases Int.lt_or_le (-1074) e with above | below
  · right
    apply le_roundedAt denPos
    calc ((2 ^ 52 : Nat) : ℚ) * 2 ^ e = 2 ^ (52 + e) := by
          rw [zpow_add₀ (by norm_num)]; norm_num
      _ = 2 ^ Int.log 2 ((num : ℚ) / den) := by congr 1; omega
      _ ≤ (num : ℚ) / den := low
  · exact .inl (by omega)

theorem two_mul_le_roundedAt_iff {num den k : Nat} {e : Int} (denPos : 0 < den) :
    2 * k ≤ roundedAt num den e ↔ ((2 * k : ℚ) - 1 / 2) * 2 ^ e ≤ (num : ℚ) / den := by
  rw [roundedAt, two_mul_le_roundQuotient_iff (by positivity), scaled_quotient,
    le_div_iff₀ (two_zpow_pos e)]

/-! ### The end of the finite numbers -/

theorem isFinite_build_iff (negative : Bool) (m : Nat) (e : Int) :
    (build negative m e).isFinite ↔ Canonical m e := by
  unfold build
  split
  · next canonical => exact iff_of_true rfl canonical
  · next other => exact iff_of_false (by simp [isFinite]) other

/-- The middle between the largest finite number and the power of two after it, in units of the
highest place. -/
theorem limit_eq : (2 : ℚ) ^ 1024 - 2 ^ 970 = (2 ^ 53 - 1 / 2) * 2 ^ (971 : Int) := by
  have top : (2 : ℚ) ^ 1024 = 2 ^ 53 * 2 ^ (971 : Int) := by
    rw [← zpow_natCast, ← zpow_natCast, ← zpow_add₀ (by norm_num)]
    rfl
  have half : (2 : ℚ) ^ 970 = 1 / 2 * 2 ^ (971 : Int) := by
    rw [← zpow_natCast, one_div, ← zpow_neg_one, ← zpow_add₀ (by norm_num)]
    rfl
  rw [top, half]
  ring

section

variable {num den : Nat} (numPos : 0 < num) (denPos : 0 < den)
include numPos denPos

/-- A quotient becomes infinite if its last place is too high, or if its significand is full at the
highest place and has to be carried beyond it. -/
theorem isFinite_ofRatio_iff_lastPlace (negative : Bool) :
    (ofRatio negative num den).isFinite ↔ lastPlace num den < 971 ∨
      lastPlace num den = 971 ∧ roundedAt num den (lastPlace num den) < 2 ^ 53 := by
  have most := roundedAt_most numPos denPos
  have least := roundedAt_least numPos denPos
  have bottom : -1074 ≤ lastPlace num den := le_max_left ..
  rw [ofRatio_of_pos negative numPos]
  generalize lastPlace num den = e at most least bottom ⊢
  generalize roundedAt num den e = m at most least ⊢
  split <;> rw [isFinite_build_iff, Canonical] <;> omega

theorem lt_limit_of_lastPlace_lt (below : lastPlace num den < 971) :
    (num : ℚ) / den < (2 ^ 53 - 1 / 2) * 2 ^ (971 : Int) := by
  have place := lastPlace_eq numPos denPos
  calc (num : ℚ) / den < 2 ^ (52 + 971 : Int) :=
        (lt_two_zpow_iff (by positivity)).mpr (by omega)
    _ = 2 ^ 52 * 2 ^ (971 : Int) := zpow_add₀ (by norm_num) 52 971
    _ ≤ (2 ^ 53 - 1 / 2) * 2 ^ (971 : Int) := by
      gcongr
      norm_num

theorem limit_le_of_lt_lastPlace (above : 971 < lastPlace num den) :
    (2 ^ 53 - 1 / 2) * 2 ^ (971 : Int) ≤ (num : ℚ) / den := by
  have place := lastPlace_eq numPos denPos
  calc ((2 : ℚ) ^ 53 - 1 / 2) * 2 ^ (971 : Int) ≤ 2 ^ 53 * 2 ^ (971 : Int) := by
        gcongr
        norm_num
    _ = 2 ^ (53 + 971 : Int) := (zpow_add₀ (by norm_num) 53 971).symm
    _ ≤ (num : ℚ) / den := (two_zpow_le_iff (by positivity)).mpr (by omega)

/-- A quotient is rounded to a finite number exactly below that middle. -/
theorem isFinite_ofRatio_iff (negative : Bool) :
    (ofRatio negative num den).isFinite ↔ (num : ℚ) / den < 2 ^ 1024 - 2 ^ 970 := by
  rw [isFinite_ofRatio_iff_lastPlace numPos denPos, limit_eq]
  rcases Int.lt_trichotomy (lastPlace num den) 971 with below | last | above
  · exact iff_of_true (.inl below) (lt_limit_of_lastPlace_lt numPos denPos below)
  · -- at the highest place it is the full significand that has no room
    have full : 2 * 2 ^ 52 ≤ roundedAt num den 971 ↔ _ := two_mul_le_roundedAt_iff denPos
    have double : (2 * (2 ^ 52 : Nat) : ℚ) = 2 ^ 53 := by norm_num
    rw [double] at full
    rw [last, ← not_le (b := (num : ℚ) / den), ← full]
    omega
  · refine iff_of_false (by omega) (not_lt.mpr (limit_le_of_lt_lastPlace numPos denPos above))

end

theorem ofRatio_eq_infinite {negative : Bool} {num den : Nat}
    (beyond : ¬ (ofRatio negative num den).isFinite) :
    ofRatio negative num den = infinite negative := by
  rcases Nat.eq_zero_or_pos num with rfl | pos
  · exact absurd rfl beyond
  · obtain ⟨m, e, built⟩ : ∃ m e, ofRatio negative num den = build negative m e := by
      rw [ofRatio_of_pos negative pos]
      split <;> exact ⟨_, _, rfl⟩
    rw [built, isFinite_build_iff] at beyond
    rw [built, build, dif_neg beyond]

theorem ofInt_eq_infinite {n : Int} (beyond : ¬ (ofInt n).isFinite) :
    ofInt n = infinite (n < 0) := ofRatio_eq_infinite beyond

theorem isFinite_ofInt_iff_lt (n : Int) :
    (ofInt n).isFinite ↔ (n.natAbs : ℚ) < 2 ^ 1024 - 2 ^ 970 := by
  rcases Nat.eq_zero_or_pos n.natAbs with zero | pos
  · rw [ofInt, zero, limit_eq, Nat.cast_zero]
    exact iff_of_true rfl (mul_pos (by norm_num) (two_zpow_pos 971))
  · rw [ofInt, isFinite_ofRatio_iff pos Nat.one_pos, Nat.cast_one, div_one]

/-- An integer is rounded to a finite number exactly below that middle. -/
theorem isFinite_ofInt_iff (n : Int) : (ofInt n).isFinite ↔ n.natAbs < 2 ^ 1024 - 2 ^ 970 := by
  have order : 2 ^ 970 ≤ 2 ^ 1024 := pow_le_pow_right₀ (by norm_num) (by norm_num)
  rw [isFinite_ofInt_iff_lt, ← Nat.cast_lt (α := ℚ), Nat.cast_sub order, Nat.cast_pow,
    Nat.cast_pow, Nat.cast_ofNat]

end Double
end Ascent
