import Ascent.Proofs.Digits
import Ascent.Proofs.Shortest

/-!
The parts of a numeral.

A numeral is put together from digits, a point with further digits and an exponent, of which the
last two may be missing. In any style a decimal has four layouts, which the place of the point tells
apart; in each the digits, the place of the point and the exponent are those of the decimal.

Main exports: `Spelling`, `Decimal.spelling`, `Decimal.toList_numeral_eq`, `Decimal.digit_spelling`,
`Decimal.power_spelling`, `Decimal.toDouble_spelling`.
-/

namespace Ascent

open Text

/-! ### Signs -/

theorem Text.takeSign_of_head {cs : List Char} (signless : ∀ c ∈ cs.head?, c ≠ '-' ∧ c ≠ '+') :
    takeSign cs = (false, cs) := by
  cases cs with
  | nil => rfl
  | cons c rest =>
      obtain ⟨minus, plus⟩ := signless c rfl
      simp [takeSign, minus, plus]

theorem Text.not_sign_of_digit {c : Char} (digit : c.isDigit) : c ≠ '-' ∧ c ≠ '+' :=
  forall_isDigit (P := fun c => c ≠ '-' ∧ c ≠ '+') (by decide) digit

theorem signed_natAbs (n : Int) : (if n < 0 then -(n.natAbs : Int) else n.natAbs) = n := by
  split <;> omega

/-! ### The parts of a numeral -/

/-- What a numeral after its sign is put together from: the digits in front of the point, those
behind it, where there are some, and the exponent with its mark, where there is one. -/
structure Spelling where
  whole : List Char
  part : List Char
  power : List Char

/-- The characters of a numeral after its sign. -/
def Spelling.chars (s : Spelling) : List Char :=
  s.whole ++ ((if s.part = [] then [] else '.' :: s.part) ++ s.power)

namespace Decimal

/-- The four layouts of a decimal in a style. -/
def spelling (style : NumeralStyle) (d : Decimal) : Spelling :=
  let digits := Nat.toDigits 10 d.digits
  let count : Int := digits.length
  let point := count + d.exponent
  if style.first < point ∧ point ≤ style.last then
    if point ≤ 0 then ⟨['0'], List.replicate (-point).toNat '0' ++ digits, []⟩
    else if count ≤ point then ⟨digits ++ List.replicate (point - count).toNat '0', ['0'], []⟩
    else ⟨digits.take point.toNat, digits.drop point.toNat, []⟩
  else ⟨digits.take 1, digits.drop 1, 'e' :: (exponentText style (point - 1)).toList⟩

theorem toList_numeral_eq (style : NumeralStyle) (d : Decimal) :
    (d.numeral style).toList = (if d.negative then ['-'] else []) ++ (d.spelling style).chars := by
  have sign : (if d.negative then "-" else "").toList = if d.negative then ['-'] else [] := by
    split <;> rfl
  have digits : (toString d.digits).toList = Nat.toDigits 10 d.digits := Nat.toList_repr
  have count : (toString d.digits).length = (Nat.toDigits 10 d.digits).length := by
    rw [← digits, String.length_toList]
  have nonempty : Nat.toDigits 10 d.digits ≠ [] := Nat.toDigits_ne_nil
  unfold numeral spelling
  dsimp only
  simp only [count, digits, Bool.and_eq_true, decide_eq_true_eq]
  generalize hcs : Nat.toDigits 10 d.digits = cs at nonempty
  split
  · split
    · simp [Spelling.chars, sign, nonempty, hcs]
    · split
      · simp [Spelling.chars, sign, hcs]
      · next less =>
          have written : cs.drop ((cs.length : Int) + d.exponent).toNat ≠ [] := by
            simp
            omega
          simp [Spelling.chars, sign, written]
  · by_cases one : cs.length ≤ 1
    · have none : cs.tail = [] := by
        rw [← List.length_eq_zero_iff, List.length_tail]
        omega
      simp [Spelling.chars, sign, one, none]
    · have more : cs.tail ≠ [] := by
        rw [ne_eq, ← List.length_eq_zero_iff, List.length_tail]
        omega
      simp [Spelling.chars, sign, one, more]

theorem toList_exponentText_eq (style : NumeralStyle) (power : Int) :
    (exponentText style power).toList =
      (if power < 0 then ['-'] else if style.plus then ['+'] else []) ++
        (List.replicate (style.width - power.natAbs.repr.length) '0' ++
          Nat.toDigits 10 power.natAbs) := by
  unfold exponentText
  split
  · simp
  · split <;> simp

/-- An exponent in a style is a sign, where there is one, and digits that stand for its size. -/
theorem takeSign_exponentText (style : NumeralStyle) (power : Int) :
    ∃ digits, (∀ rest, takeSign ((exponentText style power).toList ++ rest) =
        (decide (power < 0), digits ++ rest)) ∧
      digits ≠ [] ∧ (∀ c ∈ digits, c.isDigit) ∧ digitsValue digits = power.natAbs := by
  rw [toList_exponentText_eq]
  generalize style.width - power.natAbs.repr.length = count
  have written : List.replicate count '0' ++ Nat.toDigits 10 power.natAbs ≠ [] := by
    simp [Nat.toDigits_ne_nil]
  have digit : ∀ c ∈ List.replicate count '0' ++ Nat.toDigits 10 power.natAbs, c.isDigit :=
    fun _ => isDigit_of_mem_padded
  refine ⟨_, fun rest => ?_, written, digit, ?_⟩
  · by_cases negative : power < 0
    · simp [negative, takeSign]
    · by_cases plus : style.plus
      · simp [negative, plus, takeSign]
      · rw [if_neg negative, if_neg plus, List.nil_append, decide_eq_false negative]
        refine takeSign_of_head fun c first => not_sign_of_digit (digit c ?_)
        rw [List.head?_append_of_ne_nil _ written] at first
        exact List.mem_of_mem_head? first
  · rw [digitsValue_zeros_append, digitsValue_toDigits]

/-- An exponent is read back, whatever sign and zeros are put in front of it. -/
theorem readExponent?_exponentText (style : NumeralStyle) (power : Int) :
    readExponent? ('e' :: (exponentText style power).toList) = some power := by
  obtain ⟨digits, sign, written, digit, value⟩ := takeSign_exponentText style power
  have all : digits.all Char.isDigit = true := List.all_eq_true.mpr digit
  have signed := sign []
  rw [List.append_nil, List.append_nil] at signed
  rw [readExponent?, signed]
  simp only [value, all, decide_eq_true_eq, signed_natAbs]
  simp [written]

/-! ### Layouts of a decimal -/

theorem digit_spelling (style : NumeralStyle) (d : Decimal) :
    (∀ c ∈ (d.spelling style).whole, c.isDigit) ∧ (d.spelling style).whole ≠ [] ∧
      ∀ c ∈ (d.spelling style).part, c.isDigit := by
  have written : Nat.toDigits 10 d.digits ≠ [] := Nat.toDigits_ne_nil
  have digit : ∀ c ∈ Nat.toDigits 10 d.digits, c.isDigit := fun _ => isDigit_of_mem_toDigits
  have zeros (count : Nat) : ∀ c ∈ List.replicate count '0', c.isDigit :=
    fun _ => isDigit_of_mem_zeros
  have low (k : Nat) : ∀ c ∈ (Nat.toDigits 10 d.digits).take k, c.isDigit :=
    fun c member => digit c (List.mem_of_mem_take member)
  have high (k : Nat) : ∀ c ∈ (Nat.toDigits 10 d.digits).drop k, c.isDigit :=
    fun c member => digit c (List.mem_of_mem_drop member)
  unfold spelling
  dsimp only
  generalize Nat.toDigits 10 d.digits = cs at written digit low high
  split
  · split
    · exact ⟨by simp, by simp, List.forall_mem_append.mpr ⟨zeros _, digit⟩⟩
    · split
      · exact ⟨List.forall_mem_append.mpr ⟨digit, zeros _⟩, by simp [written], by simp⟩
      · refine ⟨low _, ?_, high _⟩
        have := List.length_pos_iff.mpr written
        rw [← List.length_pos_iff, List.length_take]
        omega
  · exact ⟨low _, by simpa using written, high _⟩

/-- Without an exponent there are digits behind the point. -/
theorem power_spelling (style : NumeralStyle) (d : Decimal) :
    ((d.spelling style).power = [] ∧ (d.spelling style).part ≠ []) ∨
      ∃ power, (d.spelling style).power = 'e' :: (exponentText style power).toList := by
  have written : Nat.toDigits 10 d.digits ≠ [] := Nat.toDigits_ne_nil
  unfold spelling
  dsimp only
  generalize Nat.toDigits 10 d.digits = cs at written
  split
  · refine .inl ?_
    split
    · exact ⟨rfl, by simp [written]⟩
    · split
      · exact ⟨rfl, by simp⟩
      · refine ⟨rfl, ?_⟩
        rw [← List.length_pos_iff, List.length_drop]
        omega
  · exact .inr ⟨_, rfl⟩

theorem toDouble_shifts (negative : Bool) (n count : Nat) (e : Int) :
    (Decimal.mk negative (n * 10 ^ count) e).toDouble =
      (Decimal.mk negative n (e + count)).toDouble := by
  induction count generalizing e with
  | zero => simp
  | succ count ih =>
      rw [Nat.pow_succ, ← Nat.mul_assoc, toDouble_shift, ih]
      congr 2
      push_cast
      ring

/-- In each layout the digits and the place of the point are those of the decimal. -/
theorem toDouble_spelling (style : NumeralStyle) (d : Decimal) :
    ((readExponent? (d.spelling style).power).map fun e => toDouble ⟨d.negative,
      digitsValue ((d.spelling style).whole ++ (d.spelling style).part),
      e - (d.spelling style).part.length⟩) = some d.toDouble := by
  obtain ⟨negative, n, e⟩ := d
  have value := digitsValue_toDigits n
  have count : 0 < (Nat.toDigits 10 n).length := Nat.length_toDigits_pos
  unfold spelling
  dsimp only
  generalize Nat.toDigits 10 n = cs at value count
  subst value
  -- The place of the point tells the layouts apart: before all digits, behind all of them, between
  -- them, or out of the style's range, where an exponent is written.
  split
  · split
    · next below =>
        have part : digitsValue (['0'] ++ (List.replicate (-(cs.length + e)).toNat '0' ++ cs)) =
            digitsValue cs := digitsValue_zeros_append ((-(cs.length + e)).toNat + 1) cs
        have place :
            0 - ((List.replicate (-(cs.length + e)).toNat '0' ++ cs).length : Int) = e := by
          simp only [List.length_append, List.length_replicate]
          omega
        rw [part, readExponent?, Option.map_some, place]
    · split
      · next above =>
          have zeros : ((cs.length : Int) + e - cs.length).toNat = e.toNat := by omega
          have whole : digitsValue (cs ++ List.replicate e.toNat '0' ++ ['0']) =
              digitsValue cs * 10 ^ (e.toNat + 1) := by
            rw [← digitsValue_append_zeros, List.replicate_succ', List.append_assoc]
          have place : 0 - (['0'].length : Int) + ((e.toNat + 1 : Nat) : Int) = e := by
            simp
            omega
          rw [zeros, whole, readExponent?, Option.map_some, toDouble_shifts, place]
      · next within =>
          have place : 0 - ((cs.drop (cs.length + e).toNat).length : Int) = e := by
            rw [List.length_drop]
            omega
          rw [List.take_append_drop, readExponent?, Option.map_some, place]
  · have place : (cs.length + e - 1) - ((cs.drop 1).length : Int) = e := by
      rw [List.length_drop]
      omega
    rw [List.take_append_drop, readExponent?_exponentText, Option.map_some, place]

end Decimal
end Ascent
