import Ascent.Json.Writer
import Ascent.Json.Reader
import Ascent.Proofs.Spelling

/-!
Written numerals are read back as the numbers they were written for.

A numeral is read up to the first character that cannot be part of one, so what is known of it is
stated with the text that follows it. A binary64 number is written as its shortest numeral. In no
layout is there a needless zero in front, and digits behind a point or an exponent tell it from an
integer.

Main exports: `Json.EndsNumeral`, `Json.readLeaf?_integer`, `Json.readLeaf?_real`.
-/

namespace Ascent

namespace Json

/-! ### The parts of a numeral -/

/-- What may follow a numeral: nothing that could be part of it. -/
def EndsNumeral (rest : List Char) : Prop :=
  ∀ c ∈ rest.head?, c.isDigit = false ∧ c ≠ '.' ∧ c ≠ 'e' ∧ c ≠ 'E'

theorem takeDigits_append {digits rest : List Char} (all : ∀ c ∈ digits, c.isDigit)
    (ends : ∀ c ∈ rest.head?, c.isDigit = false) :
    takeDigits (digits ++ rest) = (digits, rest) := by
  unfold takeDigits
  rw [Text.takeWhile_append_of_stop all ends, Text.dropWhile_append_of_stop all ends]

theorem readPower?_of_ends {rest : List Char} (ends : EndsNumeral rest) :
    readPower? rest = some (none, rest) := by
  cases rest with
  | nil => rfl
  | cons c rest =>
      obtain ⟨-, -, low, high⟩ := ends c rfl
      simp [readPower?, low, high]

theorem readPower?_exponentText (style : NumeralStyle) (power : Int) {rest : List Char}
    (ends : ∀ c ∈ rest.head?, c.isDigit = false) :
    readPower? ('e' :: (Decimal.exponentText style power).toList ++ rest) =
      some (some power, rest) := by
  obtain ⟨digits, sign, written, digit, value⟩ := Decimal.takeSign_exponentText style power
  rw [List.cons_append, readPower?, sign rest]
  dsimp only
  rw [takeDigits_append digit ends]
  simp only [value, decide_eq_true_eq, signed_natAbs]
  simp [written]

/-! ### Numbers after their sign -/

/-- The whole part of a numeral: digits without a needless zero in front, and not too many. -/
structure WholePart (negative : Bool) (digits : List Char) : Prop where
  digit : ∀ c ∈ digits, c.isDigit
  nonempty : digits ≠ []
  lead : digits.head? = some '0' → digits.length = 1
  short : digits.length + (if negative then 1 else 0) ≤ maxIntegerDigits

theorem WholePart.zero {negative : Bool} : WholePart negative ['0'] :=
  ⟨by simp, by simp, by simp, by cases negative <;> decide⟩

theorem WholePart.toDigits {negative : Bool} {n : Nat}
    (short : digitCount n + (if negative then 1 else 0) ≤ maxIntegerDigits) :
    WholePart negative (Nat.toDigits 10 n) where
  digit := fun _ => isDigit_of_mem_toDigits
  nonempty := Nat.toDigits_ne_nil
  lead := by
    intro zero
    rcases Nat.eq_zero_or_pos n with rfl | pos
    · rfl
    · exact absurd zero (head?_toDigits_ne pos)
  short := short

variable {negative : Bool} {whole part rest : List Char}

/-- The reading of a number goes on to the point and the exponent. -/
theorem readNumber?_eq (formed : WholePart negative whole)
    (ends : ∀ c ∈ rest.head?, c.isDigit = false) :
    readNumber? negative (whole ++ rest) = (do
      let (part, rest) ← match rest with
        | '.' :: rest =>
          let (part, rest) := takeDigits rest
          if part.isEmpty then none else some (some part, rest)
        | rest => some (none, rest)
      let (power, rest) ← readPower? rest
      match part, power with
      | none, none =>
        let n : Int := Text.digitsValue whole
        some (.int (if negative then -n else n), rest)
      | part, power =>
        let part := part.getD []
        let d : Decimal :=
          ⟨negative, Text.digitsValue (whole ++ part), power.getD 0 - part.length⟩
        some (.real d.toDouble, rest)) := by
  have proper :
      (whole.isEmpty || (whole.head? == some '0' && decide (1 < whole.length))) = false := by
    have lead := formed.lead
    have nonempty := formed.nonempty
    grind
  unfold readNumber?
  rw [takeDigits_append formed.digit ends]
  dsimp only
  refine (if_neg (by simp [proper])).trans ((if_neg (Nat.not_lt.mpr formed.short)).trans ?_)
  rfl

theorem readNumber?_whole (formed : WholePart negative whole) (ends : EndsNumeral rest) :
    readNumber? negative (whole ++ rest) =
      some (.int (if negative then -(Text.digitsValue whole : Int) else Text.digitsValue whole),
        rest) := by
  rw [readNumber?_eq formed fun c h => (ends c h).1]
  cases rest with
  | nil => simp [readPower?]
  | cons c rest =>
      have noPoint := (ends c rfl).2.1
      simp [noPoint, readPower?_of_ends ends]

/-- A numeral with digits behind the point or an exponent is read as the decimal that its parts
give. -/
theorem readNumber?_spelling {s : Spelling} (formed : WholePart negative s.whole)
    (digit : ∀ c ∈ s.part, c.isDigit) {power : Option Int}
    (exponent : readPower? (s.power ++ rest) = some (power, rest))
    (stop : ∀ c ∈ (s.power ++ rest).head?, c.isDigit = false ∧ c ≠ '.')
    (fraction : s.part ≠ [] ∨ power.isSome) :
    readNumber? negative (s.chars ++ rest) = some (.real (Decimal.toDouble
      ⟨negative, Text.digitsValue (s.whole ++ s.part), power.getD 0 - s.part.length⟩), rest) := by
  have ends : ∀ c ∈ (s.power ++ rest).head?, c.isDigit = false := fun c first => (stop c first).1
  rw [Spelling.chars, List.append_assoc, List.append_assoc]
  by_cases none : s.part = []
  · rw [if_pos none, List.nil_append, readNumber?_eq formed ends]
    obtain ⟨power, rfl⟩ := Option.isSome_iff_exists.mp (fraction.resolve_left (not_not.mpr none))
    generalize s.power ++ rest = cs at exponent stop
    cases cs with
    | nil => simp [exponent, none]
    | cons c cs => simp [exponent, none, (stop c rfl).2]
  · rw [if_neg none, List.cons_append, readNumber?_eq formed (by simp)]
    simp [takeDigits_append digit ends, none, exponent]

end Json

/-! ### Numerals of decimals -/

namespace Decimal

open Json

variable {negative : Bool} {cs rest : List Char}

theorem wholePart_take (digit : ∀ c ∈ cs, c.isDigit) (nonempty : cs ≠ [])
    (first : cs.head? = some '0' → cs.length = 1) {count : Nat} (pos : 0 < count)
    (few : count ≤ 16) : WholePart negative (cs.take count) where
  digit c member := digit c (List.mem_of_mem_take member)
  nonempty := by
    have := List.length_pos_iff.mpr nonempty
    rw [← List.length_pos_iff, List.length_take]
    omega
  lead zero := by
    rw [List.head?_take, if_neg (by omega)] at zero
    rw [List.length_take, first zero]
    omega
  short := by
    have length := List.length_take_le count cs
    cases negative <;> simp [maxIntegerDigits] <;> omega

/-- The whole part of a saved numeral is one: no layout has a needless zero in front. -/
theorem wholePart_spelling {d : Decimal} (lead : d.digits ≠ 0 ∨ d.exponent = 0) :
    WholePart d.negative (d.spelling .saved).whole := by
  obtain ⟨negative, n, e⟩ := d
  have nonempty : Nat.toDigits 10 n ≠ [] := Nat.toDigits_ne_nil
  have digit : ∀ c ∈ Nat.toDigits 10 n, c.isDigit := fun _ => isDigit_of_mem_toDigits
  have first : (Nat.toDigits 10 n).head? = some '0' → (Nat.toDigits 10 n).length = 1 ∧ e = 0 := by
    intro zero
    rcases Nat.eq_zero_or_pos n with rfl | pos
    · exact ⟨rfl, lead.resolve_left (by simp)⟩
    · exact absurd zero (head?_toDigits_ne pos)
  have single := fun zero => (first zero).1
  unfold spelling
  dsimp only
  generalize Nat.toDigits 10 n = cs at nonempty digit first single
  split
  · next near =>
      have last : (cs.length : Int) + e ≤ 16 := near.2
      split
      · exact .zero
      · split
        · refine ⟨List.forall_mem_append.mpr ⟨digit, fun _ => isDigit_of_mem_zeros⟩,
            by simp [nonempty], fun zero => ?_, ?_⟩
          · dsimp only at zero ⊢
            rw [List.head?_append_of_ne_nil _ nonempty] at zero
            obtain ⟨one, rfl⟩ := first zero
            simp [one]
          · simp only [List.length_append, List.length_replicate]
            cases negative <;> simp [maxIntegerDigits] <;> omega
        · exact wholePart_take digit nonempty single (by omega) (by omega)
  · exact wholePart_take digit nonempty single Nat.one_pos (by decide)

/-- A saved numeral is read as the decimal that it was written for. -/
theorem readNumber?_numeral {d : Decimal} (lead : d.digits ≠ 0 ∨ d.exponent = 0)
    (ends : EndsNumeral rest) :
    readNumber? d.negative ((d.spelling .saved).chars ++ rest) =
      some (.real d.toDouble, rest) := by
  have whole := wholePart_spelling lead
  obtain ⟨-, -, part⟩ := d.digit_spelling .saved
  have value := d.toDouble_spelling .saved
  rcases d.power_spelling .saved with ⟨none, fraction⟩ | ⟨power, exponent⟩
  · have read : readPower? ((d.spelling .saved).power ++ rest) = some (Option.none, rest) := by
      rw [none, List.nil_append, readPower?_of_ends ends]
    have stop : ∀ c ∈ ((d.spelling .saved).power ++ rest).head?, c.isDigit = false ∧ c ≠ '.' := by
      rw [none, List.nil_append]
      exact fun c first => ⟨(ends c first).1, (ends c first).2.1⟩
    rw [none, Text.readExponent?, Option.map_some, Option.some.injEq] at value
    rw [readNumber?_spelling whole part read stop (.inl fraction), ← value]
    rfl
  · have read : readPower? ((d.spelling .saved).power ++ rest) = some (some power, rest) := by
      rw [exponent, readPower?_exponentText .saved power fun c first => (ends c first).1]
    have stop : ∀ c ∈ ((d.spelling .saved).power ++ rest).head?, c.isDigit = false ∧ c ≠ '.' := by
      simp [exponent]
    rw [exponent, readExponent?_exponentText, Option.map_some, Option.some.injEq] at value
    rw [readNumber?_spelling whole part read stop (.inr rfl), ← value]
    rfl

end Decimal

/-! ### Numbers as values -/

theorem toList_toString_int (n : Int) :
    (toString n).toList = (if n < 0 then ['-'] else []) ++ Nat.toDigits 10 n.natAbs := by
  cases n with
  | ofNat m =>
      have nonneg : ¬ Int.ofNat m < 0 := Int.not_lt.mpr (Int.natCast_nonneg m)
      rw [if_neg nonneg]
      exact Nat.toList_repr
  | negSucc m =>
      rw [if_pos (Int.negSucc_lt_zero m)]
      show ("-" ++ (m + 1).repr).toList = _
      rw [String.toList_append, Nat.toList_repr]
      rfl

namespace Json

variable {rest : List Char}

/-- A number is read as such after its sign. -/
theorem readLeaf?_of_number {negative : Bool} {cs : List Char} {result : Json × List Char}
    (h : readNumber? negative cs = some result) :
    readLeaf? ((if negative then ['-'] else []) ++ cs) = some result := by
  cases cs with
  | nil => simp [readNumber?, takeDigits] at h
  | cons c tail =>
      have digit : c.isDigit := by
        by_contra other
        simp [readNumber?, takeDigits, other] at h
      have other (d : Char) (no : d.isDigit = false) : c ≠ d := by
        rintro rfl
        simp [no] at digit
      have quote := other '"' rfl
      have minus := other '-' rfl
      have t := other 't' rfl
      have f := other 'f' rfl
      have n := other 'n' rfl
      have big := other 'N' rfl
      have infinity := other 'I' rfl
      cases negative <;> simp [readLeaf?, quote, minus, t, f, n, big, infinity, h]

/-- An integer reads back where it has not too many digits. -/
theorem readLeaf?_integer {n : Int} (short : (toString n).length ≤ maxIntegerDigits)
    (ends : EndsNumeral rest) : readLeaf? ((toString n).toList ++ rest) = some (.int n, rest) := by
  rw [← String.length_toList, toList_toString_int, List.length_append] at short
  have whole : WholePart (decide (n < 0)) (Nat.toDigits 10 n.natAbs) := by
    apply WholePart.toDigits
    unfold digitCount
    by_cases negative : n < 0
    · simp only [negative, if_true, List.length_singleton, decide_true] at short ⊢
      omega
    · simp only [negative, if_false, List.length_nil, decide_false, Bool.false_eq_true] at short ⊢
      omega
  have value : (if decide (n < 0) = true then -(n.natAbs : Int) else n.natAbs) = n := by
    simpa only [decide_eq_true_eq] using signed_natAbs n
  have reads := readNumber?_whole whole ends
  rw [Text.digitsValue_toDigits, value] at reads
  have leaf := readLeaf?_of_number reads
  rw [toList_toString_int, List.append_assoc]
  simpa using leaf

/-- A finite number reads back. -/
theorem readLeaf?_real {x : Double} (finite : x.isFinite) (ends : EndsNumeral rest) :
    readLeaf? ((x.textIn .saved).toList ++ rest) = some (.real x, rest) := by
  cases x with
  | nan => cases finite
  | infinite negative => cases finite
  | finite negative m e canonical =>
      have same := Double.toDouble_shortest negative canonical
      have lead : (Double.shortest negative m e).digits ≠ 0 ∨
          (Double.shortest negative m e).exponent = 0 := by
        by_cases zero : m = 0
        · exact .inr (by rw [Double.shortest, if_pos zero])
        · refine .inl fun none => zero ?_
          rw [Decimal.toDouble, if_pos none] at same
          exact (Double.finite.inj same).2.1.symm
      have reads := Decimal.readNumber?_numeral lead ends
      have leaf := readLeaf?_of_number reads
      rw [same] at leaf
      rw [Double.textIn, Decimal.toList_numeral_eq, List.append_assoc]
      exact leaf

end Json
end Ascent
