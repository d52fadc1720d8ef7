import Ascent.Number.Decimal
import Ascent.Proofs.Rounding
import Mathlib.Algebra.Order.Floor.Semifield
import Mathlib.Data.Nat.Cast.Order.Field

/-!
The shortest numeral of a number reads back as the number.

Every numeral that the search considers is tried before it is taken, so what it finds reads back. It
always finds one: on the grid of seventeen digits one of the two neighbours of a number lies within
half a place, which is less than the part by which a numeral may miss the number.

Main exports: `Decimal.toDouble_shift`, `Double.toDouble_shortest`.
-/

namespace Ascent

/-! ### Counting digits -/

theorem digitCount_pos (n : Nat) : 0 < digitCount n := Nat.length_toDigits_pos

theorem lt_pow_digitCount (n : Nat) : n < 10 ^ digitCount n :=
  (Nat.length_toDigits_le_iff (by norm_num) (digitCount_pos n)).mp (Nat.le_refl _)

theorem pow_digitCount_le {n : Nat} (pos : 0 < n) : 10 ^ (digitCount n - 1) ≤ n := by
  by_contra less
  rcases Nat.eq_zero_or_pos (digitCount n - 1) with one | more
  · rw [one] at less
    omega
  · have few : digitCount n ≤ digitCount n - 1 :=
      (Nat.length_toDigits_le_iff (by norm_num) more).mpr (Nat.lt_of_not_le less)
    omega

theorem digitCount_mul_ten {n : Nat} (pos : 0 < n) : digitCount (n * 10) = digitCount n + 1 := by
  have split := Nat.toDigits_append_toDigits (b := 10) (n := n) (d := 0) (by norm_num) pos
    (by norm_num)
  have := congrArg List.length split
  simp only [List.length_append, Nat.toDigits_zero, List.length_singleton, Nat.add_zero] at this
  unfold digitCount
  rw [Nat.mul_comm n 10, ← this]

/-! ### Decimals of one value -/

namespace Double

/-- A number with another sign. -/
def signed (negative : Bool) : Double → Double
  | .nan => .nan
  | .infinite _ => .infinite negative
  | .finite _ m e h => .finite negative m e h

theorem ofRatio_signed (negative : Bool) (num den : Nat) :
    ofRatio negative num den = (ofRatio false num den).signed negative := by
  have built (m : Nat) (e : Int) : build negative m e = (build false m e).signed negative := by
    unfold build
    split <;> rfl
  unfold ofRatio
  dsimp only
  split
  · rfl
  · split <;> exact built _ _

end Double

namespace Decimal

theorem toDouble_signed (negative : Bool) (n : Nat) (e : Int) :
    (Decimal.mk negative n e).toDouble = (Decimal.mk false n e).toDouble.signed negative := by
  unfold toDouble
  dsimp only
  split
  · rfl
  · split
    · rfl
    · split
      · rfl
      · exact Double.ofRatio_signed negative _ _

/-- A zero at the end of the digits may be counted in the exponent. -/
theorem toDouble_shift (negative : Bool) (n : Nat) (e : Int) :
    (Decimal.mk negative (n * 10) e).toDouble = (Decimal.mk negative n (e + 1)).toDouble := by
  rcases Nat.eq_zero_or_pos n with rfl | pos
  · rfl
  · have size : ((digitCount (n * 10) : Nat) : Int) + e = digitCount n + (e + 1) := by
      rw [digitCount_mul_ten pos]
      push_cast
      ring
    have ratio : Double.ofRatio negative (n * 10 * 10 ^ e.toNat) (10 ^ (-e).toNat) =
        Double.ofRatio negative (n * 10 ^ (e + 1).toNat) (10 ^ (-(e + 1)).toNat) := by
      apply Double.ofRatio_congr negative (by positivity) (by positivity)
      have powers : 10 * 10 ^ e.toNat * 10 ^ (-(e + 1)).toNat =
          10 ^ (e + 1).toNat * 10 ^ (-e).toNat := by
        rw [← Nat.pow_succ', ← Nat.pow_add, ← Nat.pow_add]
        congr 1
        omega
      rw [Nat.mul_assoc n 10, Nat.mul_assoc n, powers, Nat.mul_assoc n]
    have nonzero : n ≠ 0 := by omega
    have nonzero' : n * 10 ≠ 0 := by omega
    unfold toDouble
    dsimp only
    rw [if_neg nonzero, if_neg nonzero', size, ratio]

/-- The value is found from the ratio where the size is within bounds. -/
theorem toDouble_eq_ofRatio {negative : Bool} {n : Nat} {e : Int} (pos : 0 < n)
    (low : -330 ≤ (digitCount n : Int) + e) (high : (digitCount n : Int) + e ≤ 310) :
    (Decimal.mk negative n e).toDouble =
      Double.ofRatio negative (n * 10 ^ e.toNat) (10 ^ (-e).toNat) := by
  unfold toDouble
  dsimp only
  rw [if_neg (by omega), if_neg (by omega), if_neg (by omega)]

end Decimal

namespace Double

theorem toDouble_dropZeros (count : Nat) (d : Decimal) :
    (dropZeros count d).toDouble = d.toDouble := by
  induction count generalizing d with
  | zero => rfl
  | succ count ih =>
      unfold dropZeros
      split
      · next ends =>
          rw [ih, ← Decimal.toDouble_shift, Nat.div_mul_cancel (Nat.dvd_of_mod_eq_zero ends.2)]
      · rfl

/-! ### The grid of seventeen digits -/

theorem zpow_toNat_ten (e : Int) : ((10 : ℚ) ^ e.toNat) / 10 ^ (-e).toNat = 10 ^ e := by
  rw [← zpow_natCast, ← zpow_natCast, ← zpow_sub₀ (by norm_num)]
  congr 1
  omega

/-- How many digits a quotient has before the point, where enough places are looked at to reach its
first digit. -/
theorem digitCount_quotient (num : Nat) {den : Nat} (places : Nat) (denPos : 0 < den)
    (least : ((10 : ℚ) ^ places)⁻¹ ≤ (num : ℚ) / den) :
    (10 : ℚ) ^ ((digitCount (num * 10 ^ places / den) : Int) - places - 1) ≤ (num : ℚ) / den ∧
      (num : ℚ) / den < 10 ^ ((digitCount (num * 10 ^ places / den) : Int) - places) := by
  have cast : (0 : ℚ) < den := by exact_mod_cast denPos
  have scale : (0 : ℚ) < 10 ^ places := by positivity
  have whole : 0 < num * 10 ^ places / den := by
    refine Nat.div_pos ?_ denPos
    rw [le_div_iff₀ cast, inv_mul_le_iff₀ scale, mul_comm] at least
    exact_mod_cast least
  have high := lt_pow_digitCount (num * 10 ^ places / den)
  have low := pow_digitCount_le whole
  have count := digitCount_pos (num * 10 ^ places / den)
  generalize digitCount (num * 10 ^ places / den) = c at low high count ⊢
  constructor
  · have low : 10 ^ (c - 1) * den ≤ num * 10 ^ places := (Nat.le_div_iff_mul_le denPos).mp low
    have low : (10 : ℚ) ^ (c - 1) * den ≤ num * 10 ^ places := by exact_mod_cast low
    have parts : (10 : ℚ) ^ ((c : Int) - places - 1) = 10 ^ (c - 1) / 10 ^ places := by
      rw [← zpow_natCast, ← zpow_natCast, ← zpow_sub₀ (by norm_num)]
      congr 1
      omega
    rw [parts, div_le_div_iff₀ scale cast]
    exact low
  · have high : num * 10 ^ places < 10 ^ c * den := (Nat.div_lt_iff_lt_mul denPos).mp high
    have high : (num : ℚ) * 10 ^ places < 10 ^ c * den := by exact_mod_cast high
    have parts : (10 : ℚ) ^ ((c : Int) - places) = 10 ^ c / 10 ^ places := by
      rw [← zpow_natCast, ← zpow_natCast, ← zpow_sub₀ (by norm_num)]
    rw [parts, div_lt_div_iff₀ cast scale]
    exact high

theorem readingBack?_eq_some {x : Double} {low high d : Decimal} {preferLow : Bool}
    (h : readingBack? x low high preferLow = some d) : d.toDouble = x ∧ (d = low ∨ d = high) := by
  unfold readingBack? at h
  split at h
  · next reads =>
      split at h
      · next reads' =>
          rw [← Option.some.inj h]
          split
          · exact ⟨reads, .inl rfl⟩
          · exact ⟨reads', .inr rfl⟩
      · exact Option.some.inj h ▸ ⟨reads, .inl rfl⟩
  · split at h
    · next reads' => exact Option.some.inj h ▸ ⟨reads', .inr rfl⟩
    · cases h

theorem readingBack?_isSome {x : Double} {low high : Decimal} (preferLow : Bool)
    (h : low.toDouble = x ∨ high.toDouble = x) :
    ∃ d, readingBack? x low high preferLow = some d := by
  unfold readingBack?
  split
  · split <;> exact ⟨_, rfl⟩
  · next fails => exact ⟨high, by rw [if_pos (h.resolve_left fails)]⟩

/-- What the search finds reads back. -/
theorem toDouble_of_onGrid? {x : Double} {num den count : Nat} {d : Decimal}
    (h : onGrid? x num den count = some d) : d.toDouble = x ∧ d.negative = false := by
  unfold onGrid? at h
  obtain ⟨reads, rfl | rfl⟩ := readingBack?_eq_some h
  · exact ⟨reads, rfl⟩
  · exact ⟨reads, rfl⟩

/-- A numeral of seventeen digits within half a place of a number reads back as the number. -/
theorem toDouble_eq_of_half {m : Nat} {e place : Int} (canonical : Canonical m e) (pos : 0 < m)
    {n : Nat} {r : ℚ} (value : (m : ℚ) * 2 ^ e = r * 10 ^ place) (least : (10 : ℚ) ^ 16 ≤ r)
    (low : r - 1 / 2 ≤ n) (high : (n : ℚ) ≤ r + 1 / 2)
    (small : -330 ≤ (digitCount n : Int) + place) (large : (digitCount n : Int) + place ≤ 310) :
    (Decimal.mk false n place).toDouble = .finite false m e canonical := by
  have unit : (0 : ℚ) < 10 ^ place := by positivity
  have digits : 0 < n := by
    have : (0 : ℚ) < n := by linarith
    exact_mod_cast this
  have ratio : (((n * 10 ^ place.toNat : Nat) : ℚ) / (10 ^ (-place).toNat : Nat)) =
      n * 10 ^ place := by
    rw [← zpow_toNat_ten place]
    push_cast
    ring
  rw [Decimal.toDouble_eq_ofRatio digits small large]
  apply ofRatio_eq_of_near canonical pos false (by positivity)
  · rw [ratio, value, mul_right_comm]
    refine mul_lt_mul_of_pos_right ?_ unit
    unfold slack
    linarith
  · rw [ratio, value, mul_right_comm]
    refine mul_lt_mul_of_pos_right ?_ unit
    unfold slack
    linarith

/-- Every finite number lies below a one with 309 zeros. -/
theorem two_pow_1024_lt : (2 : ℚ) ^ 1024 < 10 ^ 309 := by
  calc (2 : ℚ) ^ 1024 = (2 ^ 93) ^ 11 * 2 := by rw [← pow_mul, ← pow_succ]
    _ ≤ (10 ^ 28) ^ 11 * 2 := by gcongr; norm_num
    _ < (10 ^ 28) ^ 11 * 10 := by gcongr; norm_num
    _ = 10 ^ 309 := by rw [← pow_mul, ← pow_succ]

/-- No positive number lies below one with 328 zeros between the point and its first digit. -/
theorem two_pow_1074_le : (2 : ℚ) ^ 1074 ≤ 10 ^ 329 := by
  calc (2 : ℚ) ^ 1074 ≤ 2 ^ 1081 := pow_le_pow_right₀ (by norm_num) (by norm_num)
    _ = (2 ^ 23) ^ 47 := by rw [← pow_mul]
    _ ≤ (10 ^ 7) ^ 47 := by gcongr; norm_num
    _ = 10 ^ 329 := by rw [← pow_mul]

theorem ten_zpow_le_value {m : Nat} {e : Int} (canonical : Canonical m e) (pos : 0 < m) :
    (10 : ℚ) ^ (-329 : Int) ≤ m * 2 ^ e := by
  have least : (1 : ℚ) ≤ m := by exact_mod_cast pos
  calc (10 : ℚ) ^ (-329 : Int) = (10 ^ 329)⁻¹ := by rw [zpow_neg]; rfl
    _ ≤ (2 ^ 1074)⁻¹ := by
        gcongr
        exact two_pow_1074_le
    _ = 2 ^ (-1074 : Int) := by rw [zpow_neg]; rfl
    _ ≤ 2 ^ e := zpow_le_zpow_right₀ (by norm_num) canonical.2.1
    _ ≤ m * 2 ^ e := le_mul_of_one_le_left (by positivity) least

theorem value_lt_ten_zpow {m : Nat} {e : Int} (canonical : Canonical m e) :
    (m : ℚ) * 2 ^ e < 10 ^ (309 : Int) := by
  obtain ⟨small, -, greatest, -⟩ := canonical
  have small : (m : ℚ) < 2 ^ 53 := by exact_mod_cast small
  calc (m : ℚ) * 2 ^ e < 2 ^ 53 * 2 ^ e := by gcongr
    _ ≤ 2 ^ 53 * 2 ^ (971 : Int) := by
        gcongr
        norm_num
    _ = 2 ^ 1024 := by
        rw [← zpow_natCast, ← zpow_natCast, ← zpow_add₀ (by norm_num)]
        rfl
    _ < 10 ^ 309 := two_pow_1024_lt
    _ = 10 ^ (309 : Int) := (zpow_natCast 10 309).symm

/-- Between which powers of ten the point of a positive number is placed. -/
theorem pointPlace_bounds {m : Nat} {e : Int} (canonical : Canonical m e) (pos : 0 < m) :
    let place := pointPlace (m * 2 ^ e.toNat) (2 ^ (-e).toNat)
    (10 : ℚ) ^ (place - 1) ≤ m * 2 ^ e ∧ (m : ℚ) * 2 ^ e < 10 ^ place ∧
      -329 < place ∧ place ≤ 309 := by
  intro place
  have lowest := ten_zpow_le_value canonical pos
  have highest := value_lt_ten_zpow canonical
  have reached : ((10 : ℚ) ^ pointSpan)⁻¹ ≤ m * 2 ^ e := by
    refine le_trans ?_ lowest
    calc ((10 : ℚ) ^ pointSpan)⁻¹ = 10 ^ (-pointSpan : Int) := by rw [zpow_neg, zpow_natCast]
      _ ≤ 10 ^ (-329 : Int) := zpow_le_zpow_right₀ (by norm_num) (by decide)
  have bounds := digitCount_quotient (m * 2 ^ e.toNat) pointSpan
    (show 0 < 2 ^ (-e).toNat by positivity) (by rw [zpow_fraction]; exact reached)
  rw [zpow_fraction] at bounds
  refine ⟨bounds.1, bounds.2, ?_, ?_⟩
  · exact (zpow_lt_zpow_iff_right₀ (by norm_num : (1 : ℚ) < 10)).mp (lowest.trans_lt bounds.2)
  · have := (zpow_lt_zpow_iff_right₀ (by norm_num : (1 : ℚ) < 10)).mp
      (bounds.1.trans_lt highest)
    change place - 1 < 309 at this
    omega

theorem digitCount_of_seventeen {k : Nat} (least : 10 ^ 16 ≤ k) (greatest : k ≤ 10 ^ 17) :
    16 < digitCount k ∧ digitCount k ≤ 18 :=
  ⟨(Nat.pow_lt_pow_iff_right (by norm_num)).mp (least.trans_lt (lt_pow_digitCount k)),
    (Nat.length_toDigits_le_iff (by norm_num) (by norm_num)).mpr (by omega)⟩

/-- Of the two neighbours of a number on the grid of seventeen digits one is within half a place, so
it reads back. -/
theorem neighbour_toDouble {m : Nat} {e place : Int} (canonical : Canonical m e) (pos : 0 < m)
    {n : Nat} {r : ℚ} (value : (m : ℚ) * 2 ^ e = r * 10 ^ place) (least : (10 : ℚ) ^ 16 ≤ r)
    (greatest : r < 10 ^ 17) (above : (n : ℚ) ≤ r) (below : r < n + 1) (small : -347 ≤ place)
    (large : place ≤ 292) :
    (Decimal.mk false n place).toDouble = .finite false m e canonical ∨
      (Decimal.mk false (n + 1) place).toDouble = .finite false m e canonical := by
  have nLeast : 10 ^ 16 < n + 1 := by exact_mod_cast least.trans_lt below
  have nGreatest : n < 10 ^ 17 := by exact_mod_cast above.trans_lt greatest
  rcases le_total r (n + 1 / 2) with near | near
  · have count := digitCount_of_seventeen (k := n) (by omega) (by omega)
    exact .inl (toDouble_eq_of_half canonical pos value least (by linarith) (by linarith) (by omega)
      (by omega))
  · have count := digitCount_of_seventeen (k := n + 1) (by omega) (by omega)
    refine .inr (toDouble_eq_of_half canonical pos value least ?_ ?_ (by omega) (by omega))
    · push_cast; linarith
    · push_cast; linarith

/-- Seventeen digits suffice. -/
theorem exists_onGrid? {m : Nat} {e : Int} (canonical : Canonical m e) (pos : 0 < m) :
    ∃ d, onGrid? (.finite false m e canonical) (m * 2 ^ e.toNat) (2 ^ (-e).toNat) 17 = some d := by
  obtain ⟨low, high, least, greatest⟩ := pointPlace_bounds canonical pos
  unfold onGrid?
  dsimp only
  generalize pointPlace (m * 2 ^ e.toNat) (2 ^ (-e).toNat) = point at low high least greatest ⊢
  generalize hplace : point - ((17 : Nat) : Int) = place
  have unit : (0 : ℚ) < 10 ^ place := by positivity
  have ratio : (((m * 2 ^ e.toNat * 10 ^ (-place).toNat : Nat) : ℚ) /
      (2 ^ (-e).toNat * 10 ^ place.toNat : Nat)) = m * 2 ^ e / 10 ^ place := by
    rw [← zpow_toNat_ten place, ← zpow_toNat e]
    push_cast
    field_simp
  generalize m * 2 ^ e.toNat * 10 ^ (-place).toNat = top at ratio ⊢
  generalize 2 ^ (-e).toNat * 10 ^ place.toNat = bottom at ratio ⊢
  -- The number is between 17-digit integers on this grid; its floor is the lower neighbour.
  have rLeast : (10 : ℚ) ^ 16 ≤ (top : ℚ) / bottom := by
    rw [ratio, le_div_iff₀ unit, ← zpow_natCast, ← zpow_add₀ (by norm_num)]
    calc (10 : ℚ) ^ (((16 : Nat) : Int) + place) = 10 ^ (point - 1) := by congr 1; omega
      _ ≤ m * 2 ^ e := low
  have rGreatest : (top : ℚ) / bottom < 10 ^ 17 := by
    rw [ratio, div_lt_iff₀ unit, ← zpow_natCast, ← zpow_add₀ (by norm_num)]
    calc (m : ℚ) * 2 ^ e < 10 ^ point := high
      _ = 10 ^ (((17 : Nat) : Int) + place) := by congr 1; omega
  have floorHigh : (top : ℚ) / bottom < (top / bottom : Nat) + 1 := by
    rw [← Nat.floor_div_eq_div (K := ℚ)]
    exact Nat.lt_floor_add_one _
  exact readingBack?_isSome _ (neighbour_toDouble canonical pos (by rw [ratio]; field_simp) rLeast
    rGreatest Nat.cast_div_le floorHigh (by omega) (by omega))

/-- The shortest numeral of a finite number reads back as the number. -/
theorem toDouble_shortest (negative : Bool) {m : Nat} {e : Int} (canonical : Canonical m e) :
    (shortest negative m e).toDouble = .finite negative m e canonical := by
  rcases Nat.eq_zero_or_pos m with rfl | pos
  · obtain rfl : e = -1074 := by
      obtain ⟨_, _, _, least | large⟩ := canonical
      · exact least
      · omega
    rfl
  · have exact_ := ofRatio_fraction false canonical
    unfold shortest
    rw [if_neg (Nat.ne_of_gt pos)]
    dsimp only
    rw [exact_]
    obtain ⟨d, found⟩ := exists_onGrid? canonical pos
    have searched : ((List.range 17).findSome? fun i => onGrid? (.finite false m e canonical)
        (m * 2 ^ e.toNat) (2 ^ (-e).toNat) (i + 1)).isSome := by
      rw [List.findSome?_isSome_iff]
      exact ⟨16, by decide, by rw [found]; rfl⟩
    obtain ⟨taken, took⟩ := Option.isSome_iff_exists.mp searched
    obtain ⟨i, _, atGrid⟩ := List.exists_of_findSome?_eq_some took
    rw [took, Option.getD_some]
    have reads := (toDouble_of_onGrid? atGrid).1
    rw [← toDouble_dropZeros 18] at reads
    generalize dropZeros 18 taken = kept at reads ⊢
    obtain ⟨sign, digits, power⟩ := kept
    rw [Decimal.toDouble_signed] at reads ⊢
    cases unsigned : (Decimal.mk false digits power).toDouble with
    | nan => rw [unsigned] at reads; cases reads
    | infinite sign => rw [unsigned] at reads; cases reads
    | finite sign n f h =>
        rw [unsigned] at reads
        cases reads
        rfl

end Double
end Ascent
