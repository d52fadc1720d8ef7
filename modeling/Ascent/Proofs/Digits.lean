import Ascent.Ladder
import Ascent.Number.Decimal
import Mathlib.Data.Nat.Log
import Mathlib.Tactic.Positivity

/-!
Decimal numerals, and the characters that they are written with.

A numeral begins with the numeral of each number that is left of its own when some of its last
digits are cut off, and with no other one; what comes to more digits is the greater number. The
digits that a number is written with are read back as the number, are no blanks, dashes or commas,
and have no case.

Main exports: `Text.digitsValue_toDigits`, `Heads`, `toDigits_prefix_iff`, `not_heads_iff`,
`forall_isDigit`, `Text.isDigit_of_plain`, `foldChars_toDigits`.
-/

namespace Ascent

open Text

/-! ### Values of digits -/

namespace Text

theorem digitsValue_toDigits (n : Nat) : digitsValue (Nat.toDigits 10 n) = n :=
  Nat.ofDigitChars_ten_toDigits

theorem digitsValue_zeros_append (count : Nat) (cs : List Char) :
    digitsValue (List.replicate count '0' ++ cs) = digitsValue cs := by
  show Nat.ofDigitChars 10 (List.replicate count '0' ++ cs) 0 = Nat.ofDigitChars 10 cs 0
  rw [Nat.ofDigitChars_append, Nat.ofDigitChars_replicate_zero, Nat.mul_zero]

theorem digitsValue_append_zeros (cs : List Char) (count : Nat) :
    digitsValue (cs ++ List.replicate count '0') = digitsValue cs * 10 ^ count := by
  show Nat.ofDigitChars 10 (cs ++ List.replicate count '0') 0 =
    Nat.ofDigitChars 10 cs 0 * 10 ^ count
  rw [Nat.ofDigitChars_append, Nat.ofDigitChars_replicate_zero, Nat.mul_comm]

end Text

theorem isDigit_of_mem_toDigits {n : Nat} {c : Char} (h : c ∈ Nat.toDigits 10 n) : c.isDigit :=
  Nat.isDigit_of_mem_toDigits (by decide) (by decide) h

theorem isDigit_of_mem_zeros {count : Nat} {c : Char} (h : c ∈ List.replicate count '0') :
    c.isDigit := by
  rw [List.eq_of_mem_replicate h]
  rfl

theorem isDigit_of_mem_padded {count n : Nat} {c : Char}
    (h : c ∈ List.replicate count '0' ++ Nat.toDigits 10 n) : c.isDigit :=
  (List.mem_append.mp h).elim isDigit_of_mem_zeros isDigit_of_mem_toDigits

/-- A numeral of a positive integer has no needless zero in front. -/
theorem head?_toDigits_ne {n : Nat} (pos : 0 < n) : (Nat.toDigits 10 n).head? ≠ some '0' := by
  induction n using Nat.strong_induction_on with
  | _ n ih =>
      by_cases small : n < 10
      · have one : ∀ d < 10, 0 < d → [d.digitChar].head? ≠ some '0' := by decide
        rw [Nat.toDigits_of_lt_base small]
        exact one n small pos
      · rw [Nat.toDigits_of_base_le (by decide) (by omega), List.head?_append]
        have first := ih (n / 10) (by omega) (by omega)
        cases digits : Nat.toDigits 10 (n / 10) with
        | nil => exact absurd digits Nat.toDigits_ne_nil
        | cons d rest => simpa [digits] using first

/-! ### Numerals that begin with a numeral -/

/-- The number is what is left of another one when some of its last digits are cut off. -/
def Heads (j k : Nat) : Prop := ∃ cut, k / 10 ^ cut = j

section

variable {j k l : Nat}

theorem heads_iff : Heads j k ↔ j = k ∨ Heads j (k / 10) := by
  constructor
  · rintro ⟨cut, rfl⟩
    cases cut with
    | zero => exact .inl (by rw [Nat.pow_zero, Nat.div_one])
    | succ cut => exact .inr ⟨cut, by rw [Nat.pow_succ', Nat.div_div_eq_div_mul]⟩
  · rintro (rfl | ⟨cut, rfl⟩)
    · exact ⟨0, by rw [Nat.pow_zero, Nat.div_one]⟩
    · exact ⟨cut + 1, by rw [Nat.pow_succ', Nat.div_div_eq_div_mul]⟩

theorem Heads.le (h : Heads j k) : j ≤ k := by
  obtain ⟨cut, rfl⟩ := h
  exact Nat.div_le_self k _

theorem toDigits_injective (same : Nat.toDigits 10 j = Nat.toDigits 10 k) : j = k := by
  rw [← Text.digitsValue_toDigits j, same, Text.digitsValue_toDigits]

/-- A numeral begins with another one exactly if that is its number with some last digits cut off.
-/
theorem toDigits_prefix_iff (pos : 0 < j) :
    Nat.toDigits 10 j <+: Nat.toDigits 10 k ↔ Heads j k := by
  induction k using Nat.strong_induction_on with
  | _ k ih =>
      have whole : Nat.toDigits 10 j = Nat.toDigits 10 k ↔ j = k :=
        ⟨toDigits_injective, fun same => by rw [same]⟩
      rw [heads_iff]
      by_cases small : k < 10
      · have digit := Nat.toDigits_of_lt_base small
        have none : ¬ Heads j (k / 10) := fun h => by
          have := h.le
          omega
        rw [or_iff_left none, ← whole, digit, ← List.nil_append [k.digitChar],
          List.prefix_concat_iff, List.prefix_nil, or_iff_left Nat.toDigits_ne_nil]
      · have digits := Nat.toDigits_of_base_le (b := 10) (by decide) (Nat.le_of_not_lt small)
        rw [← ih (k / 10) (by omega), ← whole, digits, List.prefix_concat_iff]

/-- Of the numbers that head another one, the longer in writing is the greater. -/
theorem Heads.le_of_length_le (pos : 0 < j) (pos' : 0 < l) (h : Heads j k) (h' : Heads l k)
    (short : (Nat.toDigits 10 j).length ≤ (Nat.toDigits 10 l).length) : j ≤ l := by
  have within := List.prefix_of_prefix_length_le ((toDigits_prefix_iff pos).mpr h)
    ((toDigits_prefix_iff pos').mpr h') short
  exact ((toDigits_prefix_iff pos).mp within).le

/-- No number up to a bound heads another one exactly if its first digit is beyond the bound. -/
theorem not_heads_iff {n : Nat} (pos : 0 < k) :
    (∀ j, 0 < j → j ≤ n → ¬ Heads j k) ↔ n < k / 10 ^ Nat.log 10 k := by
  constructor
  · intro none
    by_contra within
    have digit : 0 < k / 10 ^ Nat.log 10 k :=
      Nat.div_pos (Nat.pow_log_le_self 10 pos.ne') (by positivity)
    exact none _ digit (Nat.le_of_not_lt within) ⟨_, rfl⟩
  · rintro beyond j digit within ⟨cut, rfl⟩
    have reached : 10 ^ cut ≤ k := by
      by_contra large
      rw [Nat.div_eq_of_lt (Nat.lt_of_not_le large)] at digit
      exact absurd digit (Nat.lt_irrefl 0)
    have less : 10 ^ cut ≤ 10 ^ Nat.log 10 k :=
      Nat.pow_le_pow_right (by decide) (Nat.le_log_of_pow_le (by decide) reached)
    have := Nat.div_le_div_left less (by positivity) (a := k)
    omega

end

/-! ### Digits -/

/-- What is so of the ten digits is so of each digit. -/
theorem forall_isDigit {P : Char → Prop} (each : ∀ n < 10, P (Char.ofNat (48 + n))) {c : Char}
    (digit : c.isDigit) : P c := by
  obtain ⟨first, last⟩ := Char.isDigit_iff_toNat.mp digit
  change 48 ≤ c.toNat at first
  change c.toNat ≤ 57 at last
  have here := each (c.toNat - 48) (by omega)
  rwa [Nat.add_sub_cancel' first, Char.ofNat_toNat] at here

section

variable {c : Char}

theorem digitValue?_of_plain (digit : c.isDigit) : digitValue? c = some (c.toNat - 48) :=
  forall_isDigit (P := fun c => digitValue? c = some (c.toNat - 48)) (by decide) digit

theorem Text.isDigit_of_plain (digit : c.isDigit) : isDigit c := by
  rw [isDigit, digitValue?_of_plain digit]
  rfl

theorem foldChar_of_digit (digit : c.isDigit) : foldChar c = [c] :=
  forall_isDigit (P := fun c => foldChar c = [c]) (by decide) digit

theorem isLabelGap_of_digit (digit : c.isDigit) : Ladder.isLabelGap c = false :=
  forall_isDigit (P := fun c => Ladder.isLabelGap c = false) (by decide) digit

theorem isDash_of_digit (digit : c.isDigit) : Ladder.isDash c = false :=
  forall_isDigit (P := fun c => Ladder.isDash c = false) (by decide) digit

theorem isBlank_of_digit (digit : c.isDigit) : isBlank c = false :=
  forall_isDigit (P := fun c => isBlank c = false) (by decide) digit

end

theorem foldChars_toDigits (n : Nat) : foldChars (Nat.toDigits 10 n) = Nat.toDigits 10 n := by
  have each : ∀ c ∈ Nat.toDigits 10 n, foldChar c = [c] := fun c member =>
    foldChar_of_digit (isDigit_of_mem_toDigits member)
  rw [foldChars, List.flatMap_congr each, List.flatMap_singleton']

end Ascent
