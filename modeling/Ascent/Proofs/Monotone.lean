import Ascent.Proofs.Clamping

/-!
Arithmetic that keeps the order of numbers.

Where no number is negative, an operation rounds its exact result once, and what is rounded depends
on nothing but that result. A greater result has its last place as high or higher, so it is not
rounded to a smaller number. A finite result comes from finite numbers, and it is never more than an
eighth above the exact one where this is one at least.

Main exports: `Double.Rounds`, `Double.Rounds.mono`, `Double.Rounds.le`, `Double.Is.mul_rounds`,
`Double.Is.add_rounds`, `Double.Is.div_rounds`, `Double.Is.floor`.
-/

namespace Ascent
namespace Double

/-! ### Rounded quotients in order -/

theorem roundQuotient_near (num : Nat) {den : Nat} (pos : 0 < den) :
    |(roundQuotient num den : ℚ) - num / den| ≤ 1 / 2 := by
  have cast : (0 : ℚ) < den := by exact_mod_cast pos
  have parts : (num : ℚ) / den = (num / den : Nat) + (num % den : Nat) / den := by
    rw [← Nat.div_add_mod num den]
    push_cast
    rw [Nat.div_add_mod, add_div, mul_div_cancel_left₀ _ cast.ne']
  have rest : (0 : ℚ) ≤ (num % den : Nat) / den := by positivity
  have part : ((num % den : Nat) : ℚ) / den < 1 := by
    rw [div_lt_one cast]
    exact_mod_cast Nat.mod_lt num pos
  rw [parts, abs_le]
  unfold roundQuotient
  dsimp only
  split
  · next low =>
      have half : ((num % den : Nat) : ℚ) / den ≤ 1 / 2 := by
        have le : 2 * (num % den) ≤ den := by omega
        have le : 2 * ((num % den : Nat) : ℚ) ≤ den := by exact_mod_cast le
        rw [div_le_iff₀ cast]
        linarith
      constructor <;> linarith
  · next high =>
      have half : 1 / 2 ≤ ((num % den : Nat) : ℚ) / den := by
        have le : den ≤ 2 * (num % den) := by omega
        have le : (den : ℚ) ≤ 2 * ((num % den : Nat) : ℚ) := by exact_mod_cast le
        rw [le_div_iff₀ cast]
        linarith
      push_cast
      constructor <;> linarith

theorem roundQuotient_congr {num den num' den' : Nat} (pos : 0 < den) (pos' : 0 < den')
    (same : (num : ℚ) / den = num' / den') : roundQuotient num den = roundQuotient num' den' := by
  have cross : num * den' = num' * den := by
    have cast : (den : ℚ) ≠ 0 := by exact_mod_cast pos.ne'
    have cast' : (den' : ℚ) ≠ 0 := by exact_mod_cast pos'.ne'
    exact_mod_cast (div_eq_div_iff cast cast').mp same
  rw [← roundQuotient_mul pos' num den, ← roundQuotient_mul pos num' den', Nat.mul_comm den' num,
    cross, Nat.mul_comm num' den, Nat.mul_comm den' den]

/-- A greater quotient is not rounded to a smaller integer: two that are less than one apart have
the same half between them only if they are equal. -/
theorem roundQuotient_mono {num den num' den' : Nat} (pos : 0 < den) (pos' : 0 < den')
    (le : (num : ℚ) / den ≤ num' / den') : roundQuotient num den ≤ roundQuotient num' den' := by
  rcases le.lt_or_eq with less | same
  · have near := abs_le.mp (roundQuotient_near num pos)
    have near' := abs_le.mp (roundQuotient_near num' pos')
    have apart : (roundQuotient num den : ℚ) < roundQuotient num' den' + 1 := by linarith
    have apart : roundQuotient num den < roundQuotient num' den' + 1 := by exact_mod_cast apart
    omega
  · exact (roundQuotient_congr pos pos' same).le

theorem lastPlace_mono {num den num' den' : Nat} (numPos : 0 < num) (pos : 0 < den)
    (numPos' : 0 < num') (pos' : 0 < den') (le : (num : ℚ) / den ≤ num' / den') :
    lastPlace num den ≤ lastPlace num' den' := by
  rw [lastPlace_eq numPos pos, lastPlace_eq numPos' pos']
  have log := Int.log_mono_right (b := 2) (by positivity : (0 : ℚ) < (num : ℚ) / den) le
  omega

/-- What a quotient is rounded to. -/
def nearest (num den : Nat) : ℚ := roundedAt num den (lastPlace num den) * 2 ^ lastPlace num den

section

variable {num den num' den' : Nat} (numPos : 0 < num) (pos : 0 < den) (numPos' : 0 < num')
  (pos' : 0 < den')
include numPos pos

/-- A quotient is rounded by no more than half a unit of its last place. -/
theorem nearest_le_add : nearest num den ≤ (num : ℚ) / den + 2 ^ lastPlace num den / 2 := by
  have unit := two_zpow_pos (lastPlace num den)
  have near : (roundedAt num den (lastPlace num den) : ℚ) ≤
      (num : ℚ) / den / 2 ^ lastPlace num den + 1 / 2 := by
    have near := (abs_le.mp (roundQuotient_near (num * 2 ^ (-lastPlace num den).toNat)
      (Nat.mul_pos pos (Nat.two_pow_pos (lastPlace num den).toNat)))).2
    rw [scaled_quotient] at near
    unfold roundedAt
    linarith
  calc nearest num den
      ≤ ((num : ℚ) / den / 2 ^ lastPlace num den + 1 / 2) * 2 ^ lastPlace num den := by
        unfold nearest
        gcongr
    _ = (num : ℚ) / den + 2 ^ lastPlace num den / 2 := by field_simp

/-- A unit of the last place is small beside a quotient of one and more, and smaller quotients have
no greater one. -/
theorem two_zpow_lastPlace_le {k : ℚ} (one : 1 ≤ k) (below : (num : ℚ) / den ≤ k) :
    (2 : ℚ) ^ lastPlace num den ≤ k / 4 := by
  have low := two_zpow_log_le (by positivity : (0 : ℚ) < (num : ℚ) / den)
  rw [lastPlace_eq numPos pos]
  rcases le_total (-1074) (Int.log 2 ((num : ℚ) / den) - 52) with above | beneath
  · rw [max_eq_right above]
    calc (2 : ℚ) ^ (Int.log 2 ((num : ℚ) / den) - 52)
        ≤ 2 ^ (Int.log 2 ((num : ℚ) / den) - 2) :=
          zpow_le_zpow_right₀ (by norm_num) (by omega)
      _ = 2 ^ Int.log 2 ((num : ℚ) / den) / 4 := by rw [zpow_sub₀ (by norm_num)]; norm_num
      _ ≤ k / 4 := by linarith
  · rw [max_eq_left beneath]
    calc (2 : ℚ) ^ (-1074 : Int) ≤ 2 ^ (-2 : Int) :=
          zpow_le_zpow_right₀ (by norm_num) (by norm_num)
      _ ≤ k / 4 := by norm_num; linarith

include numPos' pos'

/-- A full significand at a lower last place is at most a half full one at the higher place. -/
theorem nearest_le_of_lastPlace_lt (lower : lastPlace num den < lastPlace num' den') :
    nearest num den ≤ nearest num' den' := by
  have unit := two_zpow_pos (lastPlace num den)
  have unit' := two_zpow_pos (lastPlace num' den')
  have most : (roundedAt num den (lastPlace num den) : ℚ) ≤ 2 ^ 53 := by
    exact_mod_cast roundedAt_most numPos pos
  have half : 2 ^ 52 ≤ roundedAt num' den' (lastPlace num' den') := by
    rcases roundedAt_least numPos' pos' with least | half
    · have := lastPlace_eq numPos pos
      omega
    · exact half
  have half : (2 : ℚ) ^ 52 ≤ roundedAt num' den' (lastPlace num' den') := by exact_mod_cast half
  calc nearest num den ≤ 2 ^ 53 * 2 ^ lastPlace num den := by
        unfold nearest
        gcongr
    _ = 2 ^ 52 * 2 ^ (lastPlace num den + 1) := by
        rw [zpow_add₀ (by norm_num)]
        norm_num
        ring
    _ ≤ 2 ^ 52 * 2 ^ lastPlace num' den' := by
        gcongr
        · norm_num
        · omega
    _ ≤ nearest num' den' := by
        unfold nearest
        gcongr

theorem nearest_mono (le : (num : ℚ) / den ≤ num' / den') :
    nearest num den ≤ nearest num' den' := by
  rcases (lastPlace_mono numPos pos numPos' pos' le).lt_or_eq with lower | same
  · exact nearest_le_of_lastPlace_lt numPos pos numPos' pos' lower
  · have rounded : roundedAt num den (lastPlace num den) ≤
        roundedAt num' den' (lastPlace num' den') := by
      have unit := two_zpow_pos (lastPlace num den)
      rw [← same]
      refine roundQuotient_mono (by positivity) (by positivity) ?_
      rw [scaled_quotient, scaled_quotient]
      gcongr
    rw [same] at rounded
    have unit := two_zpow_pos (lastPlace num' den')
    unfold nearest
    rw [same]
    gcongr

end

/-! ### What a quotient is rounded to -/

variable {x y : Double} {q r v w : ℚ}

theorem Is.unique (h : x.Is q) (h' : x.Is r) : q = r := by
  rw [← h.value_eq, h'.value_eq]

theorem not_is_infinite {negative : Bool} : ¬ (infinite negative).Is q := by
  rintro ⟨_, _, _, _, same, -⟩
  cases same

theorem Is.of_build {negative : Bool} {m : Nat} {e : Int} (h : (build negative m e).Is v) :
    v = if negative then -((m : ℚ) * 2 ^ e) else m * 2 ^ e := by
  by_cases canonical : Canonical m e
  · exact h.unique (is_build negative canonical)
  · rw [build, dif_neg canonical] at h
    exact absurd h not_is_infinite

theorem Is.of_ofRatio {num den : Nat} (numPos : 0 < num) (h : (ofRatio false num den).Is v) :
    v = nearest num den := by
  rw [ofRatio_of_pos false numPos] at h
  unfold nearest
  split at h
  · next full => rw [h.of_build, full, full_value]; rfl
  · exact h.of_build

theorem nearest_nonneg (num den : Nat) : 0 ≤ nearest num den := by
  unfold nearest
  have := two_zpow_pos (lastPlace num den)
  positivity

/-- A number is what a value that is not negative is rounded to; a zero may have either sign. -/
def Rounds (x : Double) (q : ℚ) : Prop :=
  (∃ num den : Nat, 0 < num ∧ 0 < den ∧ (num : ℚ) / den = q ∧ x = ofRatio false num den) ∨
    q = 0 ∧ ∃ negative, x = zeroOf negative

theorem rounds_ofRatio {num den : Nat} (pos : 0 < den) (value : (num : ℚ) / den = q)
    {negative : Bool} (sign : negative = true → num = 0) : (ofRatio negative num den).Rounds q := by
  rcases Nat.eq_zero_or_pos num with rfl | numPos
  · exact .inr ⟨by simp [← value], negative, if_pos rfl⟩
  · cases negative with
    | false => exact .inl ⟨num, den, numPos, pos, value, rfl⟩
    | true => exact absurd (sign rfl) numPos.ne'

namespace Rounds

theorem nonneg (h : x.Rounds q) (is : x.Is v) : 0 ≤ v := by
  rcases h with ⟨num, den, numPos, _, -, rfl⟩ | ⟨-, negative, rfl⟩
  · exact is.of_ofRatio numPos ▸ nearest_nonneg num den
  · exact (is.unique (is_zeroOf negative)).ge

/-- Rounding keeps the order. -/
theorem mono (hx : x.Rounds q) (hy : y.Rounds r) (le : q ≤ r) (isx : x.Is v) (isy : y.Is w) :
    v ≤ w := by
  rcases hx with ⟨num, den, numPos, pos, rfl, rfl⟩ | ⟨-, negative, rfl⟩
  · rcases hy with ⟨num', den', numPos', pos', rfl, rfl⟩ | ⟨zero, negative, rfl⟩
    · rw [isx.of_ofRatio numPos, isy.of_ofRatio numPos']
      exact nearest_mono numPos pos numPos' pos' le
    · have : (0 : ℚ) < (num : ℚ) / den := by positivity
      linarith
  · rw [isx.unique (is_zeroOf negative)]
    exact hy.nonneg isy

/-- Rounding adds no more than an eighth to values of one and more, and leads no smaller value
beyond that. -/
theorem le (h : x.Rounds q) (is : x.Is v) {k : ℚ} (one : 1 ≤ k) (below : q ≤ k) :
    v ≤ 9 / 8 * k := by
  rcases h with ⟨num, den, numPos, pos, rfl, rfl⟩ | ⟨-, negative, rfl⟩
  · have unit := two_zpow_lastPlace_le numPos pos one below
    calc v = nearest num den := is.of_ofRatio numPos
      _ ≤ (num : ℚ) / den + 2 ^ lastPlace num den / 2 := nearest_le_add numPos pos
      _ ≤ 9 / 8 * k := by linarith
  · rw [is.unique (is_zeroOf negative)]
    linarith

end Rounds

/-! ### Operations -/

theorem not_negative_of_nonneg {negative : Bool} {m : Nat} {e : Int}
    (nonneg : 0 ≤ if negative then -((m : ℚ) * 2 ^ e) else m * 2 ^ e) (sign : negative = true) :
    m = 0 := by
  have unit := two_zpow_pos e
  rw [if_pos sign] at nonneg
  by_contra some_
  have : (0 : ℚ) < m := by exact_mod_cast Nat.pos_of_ne_zero some_
  have : (0 : ℚ) < m * 2 ^ e := by positivity
  linarith

theorem magnitude_of_nonneg {negative : Bool} {m : Nat} {e : Int}
    (nonneg : 0 ≤ if negative then -((m : ℚ) * 2 ^ e) else m * 2 ^ e) :
    (if negative then -((m : ℚ) * 2 ^ e) else m * 2 ^ e) = m * 2 ^ e := by
  cases negative with
  | false => rfl
  | true => simp [not_negative_of_nonneg nonneg rfl]

/-- A number that is not negative is what its own value is rounded to. -/
theorem Is.rounds (h : x.Is q) (nonneg : 0 ≤ q) : x.Rounds q := by
  obtain ⟨negative, m, e, canonical, rfl, rfl⟩ := h
  rw [← ofRatio_fraction negative canonical]
  refine rounds_ofRatio (by positivity) ?_ fun sign => ?_
  · rw [magnitude_of_nonneg nonneg, ← zpow_toNat e]
    push_cast
    ring
  · simp [not_negative_of_nonneg nonneg sign]

theorem rounds_ofInt (n : Nat) : (ofInt n).Rounds n :=
  rounds_ofRatio Nat.one_pos (by simp) (by simp)

theorem Is.mul_rounds (hx : x.Is q) (hy : y.Is r) (qNonneg : 0 ≤ q) (rNonneg : 0 ≤ r) :
    (x * y).Rounds (q * r) := by
  obtain ⟨s, m, e, _, rfl, rfl⟩ := hx
  obtain ⟨t, n, f, _, rfl, rfl⟩ := hy
  refine rounds_ofRatio (by positivity) ?_ fun sign => ?_
  · rw [magnitude_of_nonneg qNonneg, magnitude_of_nonneg rNonneg]
    push_cast
    rw [mul_div_assoc, zpow_toNat, zpow_add₀ (by norm_num)]
    ring
  · cases s with
    | true => simp [not_negative_of_nonneg qNonneg rfl]
    | false => simp [not_negative_of_nonneg rNonneg (by simpa using sign)]

theorem Is.add_rounds (hx : x.Is q) (hy : y.Is r) (qNonneg : 0 ≤ q) (rNonneg : 0 ≤ r) :
    (x + y).Rounds (q + r) := by
  obtain ⟨s, m, e, _, rfl, rfl⟩ := hx
  obtain ⟨t, n, f, _, rfl, rfl⟩ := hy
  have sum := add_nonneg qNonneg rNonneg
  rw [← shifted_value s m (min_le_left e f), ← shifted_value t n (min_le_right e f),
    ← add_mul] at sum ⊢
  show (Double.add _ _).Rounds _
  unfold Double.add
  dsimp only
  have unit := two_zpow_pos (min e f)
  generalize shifted s m e (min e f) = a at sum ⊢
  generalize shifted t n f (min e f) = b at sum ⊢
  have total : (0 : ℚ) ≤ (a + b : Int) := by
    push_cast
    exact nonneg_of_mul_nonneg_left sum unit
  have total : 0 ≤ a + b := by exact_mod_cast total
  split
  · next zero =>
      refine .inr ⟨?_, _, rfl⟩
      have zero : (a : ℚ) + b = 0 := by exact_mod_cast zero
      rw [zero, zero_mul]
  · refine rounds_ofRatio (by positivity) ?_ fun sign => ?_
    · push_cast
      rw [mul_div_assoc, zpow_toNat, Nat.cast_natAbs, abs_of_nonneg total]
      push_cast
      rfl
    · exact absurd (of_decide_eq_true sign) (not_lt.mpr total)

theorem Is.div_rounds (hx : x.Is q) (hy : y.Is r) (nonneg : 0 ≤ q) (pos : 0 < r) :
    (x / y).Rounds (q / r) := by
  obtain ⟨s, m, e, _, rfl, rfl⟩ := hx
  obtain ⟨t, n, f, _, rfl, rfl⟩ := hy
  have some_ : n ≠ 0 := by
    rintro rfl
    simp at pos
  have positive : t = false := by
    by_contra negative
    exact some_ (not_negative_of_nonneg pos.le (by simpa using negative))
  subst positive
  show (Double.div _ _).Rounds _
  unfold Double.div
  dsimp only
  rw [if_neg some_]
  refine rounds_ofRatio (by positivity) ?_ fun sign => ?_
  · rw [magnitude_of_nonneg nonneg]
    have scale : (2 : ℚ) ^ (e - f).toNat / 2 ^ (f - e).toNat = 2 ^ e / 2 ^ f := by
      have opposite : f - e = -(e - f) := by ring
      rw [opposite, zpow_toNat, zpow_sub₀ (by norm_num)]
    push_cast
    rw [mul_div_mul_comm, scale, mul_div_mul_comm]
  · simp [not_negative_of_nonneg nonneg (by simpa using sign)]

/-- Nothing is left of a finite number that is shared among infinitely many. -/
theorem Is.div_infinite (h : x.Is q) (negative : Bool) : (x / infinite negative).Rounds 0 := by
  obtain ⟨s, m, e, _, rfl, -⟩ := h
  exact .inr ⟨rfl, _, rfl⟩

/-- The greatest integer that is not greater is that of the value. -/
theorem Is.floor (h : x.Is q) : x.floor = .ok ⌊q⌋ := by
  obtain ⟨negative, m, e, _, rfl, rfl⟩ := h
  rw [← fraction_value, Rat.floor_intCast_div_natCast]
  exact congrArg Except.ok (Int.fdiv_eq_ediv_of_nonneg _ (by positivity))

/-! ### Where finite numbers come from -/

theorem isFinite_iff : x.isFinite ↔ ∃ q, x.Is q := by
  constructor
  · intro finite
    cases x with
    | nan => cases finite
    | infinite negative => cases finite
    | finite negative m e canonical => exact ⟨_, negative, m, e, canonical, rfl, rfl⟩
  · rintro ⟨_, _, _, _, _, rfl, -⟩
    rfl

theorem isFinite_of_floor {n : Int} (h : x.floor = .ok n) : x.isFinite := by
  cases x with
  | nan => cases h
  | infinite negative => cases h
  | finite negative m e canonical => rfl

theorem isFinite_of_add (h : (x + y).isFinite) : x.isFinite ∧ y.isFinite := by
  change (Double.add x y).isFinite at h
  cases x <;> cases y <;> simp only [Double.add] at h <;> first
    | exact ⟨rfl, rfl⟩
    | cases h
    | split at h <;> cases h

theorem isFinite_of_mul (h : (x * y).isFinite) : x.isFinite ∧ y.isFinite := by
  change (Double.mul x y).isFinite at h
  cases x <;> cases y <;> simp only [Double.mul] at h <;> first
    | exact ⟨rfl, rfl⟩
    | cases h
    | split at h <;> cases h

theorem isFinite_of_div (h : (x / y).isFinite) : x.isFinite := by
  change (Double.div x y).isFinite at h
  cases x <;> cases y <;> simp only [Double.div] at h <;> first
    | rfl
    | cases h

/-- The greater of two numbers is no less than the first. -/
theorem Is.le_of_maxOf (hx : x.Is q) (h : (Double.maxOf x y).Is r) : q ≤ r := by
  unfold Double.maxOf at h
  split at h
  · next less => exact ((hx.lt_iff h).mp less).le
  · exact (hx.unique h).le

end Double
end Ascent
