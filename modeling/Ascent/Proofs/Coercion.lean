import Ascent.Loose
import Ascent.Proofs.Clamping
import Ascent.Proofs.Shown

/-!
Loosely typed numbers are read without a fault, but for the boundless ones.

A value stands for a finite number or for none, and where it stands for none the default is given
for the number and for its integer part alike. That is so of whatever is written as a text, for a
text of a number that is too great has none. It is not so of a number itself: an integer beyond the
finite numbers is refused, and infinite numbers and "not a number" are passed on as they are, so
that no integer can be made of them.

Main exports: `Loose.isBoundless`, `Loose.Coerced`, `Double.truncate_eq`, `Decimal.toDouble_whole`,
`Loose.coerced_of_number?`, `Loose.coerced_iff_bounded`.
-/

namespace Ascent

/-! ### Integer parts -/

/-- The integer part of a rational number, toward zero. -/
def towardZero (q : ℚ) : Int := if 0 ≤ q then ⌊q⌋ else ⌈q⌉

theorem tdiv_eq_towardZero (n : Int) {d : Nat} (pos : 0 < d) :
    Int.tdiv n d = towardZero ((n : ℚ) / d) := by
  have cast : (0 : ℚ) < d := by exact_mod_cast pos
  unfold towardZero
  rcases Int.lt_or_le n 0 with negative | nonneg
  · have below : ¬ (0 : ℚ) ≤ n / d := by
      rw [le_div_iff₀ cast, zero_mul, not_le]
      exact_mod_cast negative
    rw [if_neg below, Rat.ceil_intCast_div_natCast, ← Int.neg_neg n, Int.neg_tdiv, Int.neg_neg,
      Int.tdiv_eq_ediv_of_nonneg (by omega)]
  · have above : (0 : ℚ) ≤ n / d := by positivity
    rw [if_pos above, Rat.floor_intCast_div_natCast, Int.tdiv_eq_ediv_of_nonneg nonneg]

/-- The integer part of a finite number is that of its value. -/
theorem Double.truncate_eq {x : Double} (finite : x.isFinite) :
    x.truncate = .ok (towardZero x.value) := by
  cases x with
  | nan => cases finite
  | infinite negative => cases finite
  | finite negative m e canonical =>
      exact congrArg Except.ok (tdiv_eq_towardZero _ (Nat.two_pow_pos _))

/-! ### Integers written in full -/

/-- An integer that is written in full is rounded as the integer is. -/
theorem Decimal.toDouble_whole (n : Int) :
    (Decimal.mk (n < 0) n.natAbs 0).toDouble = Double.ofInt n := by
  rcases Nat.eq_zero_or_pos n.natAbs with zero | pos
  · obtain rfl : n = 0 := by omega
    rfl
  · rcases Int.lt_or_le 310 (digitCount n.natAbs + 0) with long | short
    -- With more than 310 digits a decimal is not rounded at all but taken for infinite.
    · have beyond : ¬ (Double.ofInt n).isFinite := by
        have power : 2 ^ 1024 < 10 ^ 309 := by exact_mod_cast Double.two_pow_1024_lt
        have digits : 10 ^ 309 ≤ 10 ^ (digitCount n.natAbs - 1) :=
          pow_le_pow_right₀ (by norm_num) (by omega)
        rw [Double.isFinite_ofInt_iff, not_lt]
        exact (Nat.sub_le _ _).trans (power.le.trans (digits.trans (pow_digitCount_le pos)))
      rw [Double.ofInt_eq_infinite beyond, toDouble]
      dsimp only
      rw [if_neg (by omega), if_pos long]
    · rw [toDouble_eq_ofRatio pos (by omega) short, Double.ofInt]
      simp

namespace Loose

/-! ### What coercion promises -/

/-- Whether a value is a number that none of the finite ones is near: an integer from the middle
between the largest of them and the power of two after it on, an infinite number, or what is not a
number. -/
def isBoundless : Json → Bool
  | .int n => 2 ^ 1024 - 2 ^ 970 ≤ n.natAbs
  | .real x => !x.isFinite
  | _ => false

/-- What is promised of a value that is coerced, whatever the default. -/
structure Coerced (j : Json) : Prop where
  /-- Its number is the default or a finite number. -/
  number : ∀ default, numberOr default j = .ok default ∨
    ∃ x : Double, x.isFinite ∧ numberOr default j = .ok (.real x)
  /-- Its integer is the default or the integer part, toward zero, of its number. -/
  integer : ∀ default, integerOr default j = .ok default ∨
    ∃ x : Double, numberOr .null j = .ok (.real x) ∧
      integerOr default j = .ok (.int (towardZero x.value))
  /-- Its integer is the default exactly where it has no number. -/
  fallback : (∀ default, integerOr default j = .ok default) ↔ numberOr .null j = .ok .null

variable {j : Json} {number : Option Double}

theorem numberOr_of_number? (read : number? j = .ok number) (default : Json) :
    numberOr default j = .ok (number.elim default .real) := by
  rw [numberOr, read]
  rfl

theorem integerOr_of_number? (read : number? j = .ok number) (finite : ∀ x ∈ number, x.isFinite)
    (default : Json) :
    integerOr default j = .ok (number.elim default fun x => .int (towardZero x.value)) := by
  rw [integerOr, integer?, read]
  cases number with
  | none => rfl
  | some x =>
      have whole := Double.truncate_eq (finite x rfl)
      simp only [bind, Except.bind, whole]
      rfl

/-- The promise is kept of a value that stands for a finite number or for none. -/
theorem coerced_of_number? (read : number? j = .ok number) (finite : ∀ x ∈ number, x.isFinite) :
    Coerced j := by
  have numbers := numberOr_of_number? read
  have integers := integerOr_of_number? read finite
  cases number with
  | none =>
      exact ⟨fun default => .inl (numbers default), fun default => .inl (integers default),
        iff_of_true integers (numbers .null)⟩
  | some x =>
      refine ⟨fun default => .inr ⟨x, finite x rfl, numbers default⟩,
        fun default => .inr ⟨x, numbers .null, integers default⟩, iff_of_false ?_ ?_⟩
      · intro same
        cases (integers .null).symm.trans (same .null)
      · intro same
        cases (numbers .null).symm.trans same

/-! ### Bounded and boundless values -/

theorem isBoundless_int_eq_false (n : Int) :
    isBoundless (.int n) = false ↔ (Double.ofInt n).isFinite := by
  rw [Double.isFinite_ofInt_iff]
  simp only [isBoundless, decide_eq_false_iff_not, not_le]

theorem not_isFinite_of_boundless {n : Int} (boundless : isBoundless (.int n)) :
    ¬ (Double.ofInt n).isFinite := by
  rw [← isBoundless_int_eq_false, boundless]
  decide

theorem number?_int {n : Int} (bounded : isBoundless (.int n) = false) :
    number? (.int n) = .ok (some (Double.ofInt n)) := by
  rw [number?, Double.ofInt?, if_pos ((isBoundless_int_eq_false n).mp bounded)]
  rfl

theorem number?_int_of_boundless {n : Int} (boundless : isBoundless (.int n)) :
    number? (.int n) = .error .beyondFinite := by
  rw [number?, Double.ofInt?, if_neg (not_isFinite_of_boundless boundless)]
  rfl

theorem exists_number? (bounded : isBoundless j = false) :
    ∃ number, number? j = .ok number ∧ ∀ x ∈ number, x.isFinite := by
  cases j with
  | int n => exact ⟨_, number?_int bounded, by simpa using (isBoundless_int_eq_false n).mp bounded⟩
  | real x => exact ⟨some x, rfl, by simpa [isBoundless] using bounded⟩
  | str s => exact ⟨numberOfText? s, rfl, fun x => isFinite_of_numberOfText?⟩
  | _ => exact ⟨none, rfl, by simp⟩

/-- No integer is made of a boundless value, whatever the default. -/
theorem exists_integerOr_error (boundless : isBoundless j) :
    ∃ fault, ∀ default, integerOr default j = .error fault := by
  cases j with
  | int n =>
      refine ⟨.beyondFinite, fun default => ?_⟩
      rw [integerOr, integer?, number?_int_of_boundless boundless]
      rfl
  | real x =>
      cases x with
      | nan => exact ⟨_, fun _ => rfl⟩
      | infinite negative => exact ⟨_, fun _ => rfl⟩
      | finite negative m e canonical => cases boundless
  | _ => cases boundless

/-- As a number a boundless value is refused or passed on as it is, whatever the default. -/
theorem numberOr_of_boundless (boundless : isBoundless j) (default : Json) :
    numberOr default j = .error .beyondFinite ∨ numberOr default j = .ok j := by
  cases j with
  | int n =>
      left
      rw [numberOr, number?_int_of_boundless boundless]
      rfl
  | real x => exact .inr rfl
  | _ => cases boundless

theorem not_coerced_of_fault {fault : Fault}
    (fails : ∀ default, integerOr default j = .error fault) :
    ¬ Coerced j := by
  intro kept
  rcases kept.integer .null with same | ⟨x, -, same⟩
  · cases (fails .null).symm.trans same
  · cases (fails .null).symm.trans same

/-! ### Values and what they are shown as -/

theorem numberOfText?_of_some {s : String} {x : Double} (read : Double.ofNumeral? s = some x) :
    numberOfText? s = if x.isFinite then some x else none := by
  rw [numberOfText?, read]

theorem numberOfText?_of_none {s : String} (read : Double.ofNumeral? s = none) :
    numberOfText? s = none := by
  rw [numberOfText?, read]

theorem numberOfText?_toString (n : Int) : numberOfText? (toString n) =
    if (Double.ofInt n).isFinite then some (Double.ofInt n) else none := by
  rw [numberOfText?_of_some (Double.ofNumeral?_toString n), Decimal.toDouble_whole]

theorem text_int (n : Int) : (Json.int n).text = toString n := by simp [Json.text, Json.innerText]

theorem text_real (x : Double) : (Json.real x).text = x.textIn .shown := by
  simp [Json.text, Json.innerText, Double.text]

/-- What a boundless value is shown as stands for no number. -/
theorem numberOfText?_text_of_boundless (boundless : isBoundless j) :
    numberOfText? j.text = none := by
  cases j with
  | int n => rw [text_int, numberOfText?_toString, if_neg (not_isFinite_of_boundless boundless)]
  | real x =>
      cases x with
      | nan => decide +kernel
      | infinite negative => cases negative <;> decide +kernel
      | finite negative m e canonical => cases boundless
  | _ => cases boundless

/-- What any other value is shown as stands for the number that the value stands for. -/
theorem numberOfText?_text (bounded : isBoundless j = false) (read : number? j = .ok number) :
    numberOfText? j.text = number := by
  cases j with
  | int n =>
      rw [number?_int bounded] at read
      rw [text_int, numberOfText?_toString, if_pos ((isBoundless_int_eq_false n).mp bounded)]
      exact Except.ok.inj read
  | real x =>
      have finite : x.isFinite := by simpa [isBoundless] using bounded
      rw [text_real, numberOfText?_of_some (Double.ofNumeral?_textIn .shown finite), if_pos finite]
      exact Except.ok.inj read
  | str s => exact Except.ok.inj read
  -- The other values stand for no number, so what they are shown as must be no numeral.
  | null => exact (numberOfText?_of_none (by decide +kernel)).trans (Except.ok.inj read)
  | bool b =>
      exact (numberOfText?_of_none (by cases b <;> decide +kernel)).trans (Except.ok.inj read)
  | moment m => exact (numberOfText?_of_none (Json.ofNumeral?_moment m)).trans (Except.ok.inj read)
  | list items =>
      exact (numberOfText?_of_none (Json.ofNumeral?_list items)).trans (Except.ok.inj read)
  | object members =>
      exact (numberOfText?_of_none (Json.ofNumeral?_object members)).trans (Except.ok.inj read)

theorem numberOr_str (default : Json) (s : String) :
    numberOr default (.str s) = .ok ((numberOfText? s).elim default .real) := rfl

/-- Coercion keeps its promise of every value but the boundless ones. Of these alone no integer is
made, and they are refused or passed on where a number is wanted. A value is coerced as what it is
shown as, but that for a boundless value the latter gives the default. -/
theorem coerced_iff_bounded (j : Json) :
    (Coerced j ↔ isBoundless j = false) ∧ ∀ default,
      ((∃ fault, integerOr default j = .error fault) ↔ isBoundless j) ∧
      (isBoundless j → numberOr default j = .error .beyondFinite ∨ numberOr default j = .ok j) ∧
      numberOr default (.str j.text) =
        if isBoundless j then .ok default else numberOr default j := by
  cases bound : isBoundless j with
  | false =>
      obtain ⟨number, read, finite⟩ := exists_number? bound
      refine ⟨iff_of_true (coerced_of_number? read finite) rfl,
        fun default => ⟨?_, nofun, ?_⟩⟩
      · refine iff_of_false ?_ (by decide)
        rintro ⟨fault, fails⟩
        rw [integerOr_of_number? read finite] at fails
        cases fails
      · rw [numberOr_str, numberOfText?_text bound read, numberOr_of_number? read]
        rfl
  | true =>
      obtain ⟨fault, fails⟩ := exists_integerOr_error bound
      refine ⟨iff_of_false (not_coerced_of_fault fails) (by decide),
        fun default => ⟨?_, fun _ => numberOr_of_boundless bound default, ?_⟩⟩
      · exact iff_of_true ⟨fault, fails default⟩ rfl
      · rw [numberOr_str, numberOfText?_text_of_boundless bound]
        rfl

/-- The integer with 309 zeros behind a one is refused, although there is a default. -/
theorem not_coerced_beyond : integerOr (.int 7) (.int (10 ^ 309)) = .error .beyondFinite ∧
    ¬ Coerced (.int (10 ^ 309)) := by
  have beyond : number? (.int (10 ^ 309)) = .error .beyondFinite :=
    number?_int_of_boundless (by decide +kernel)
  have fails (default : Json) : integerOr default (.int (10 ^ 309)) = .error .beyondFinite := by
    rw [integerOr, integer?, beyond]
    rfl
  exact ⟨fails _, not_coerced_of_fault fails⟩

end Loose
end Ascent
