import Ascent.Affinity
import Mathlib.Data.List.TakeWhile

/-!
Which texts ask for a change of affinity.

A text is read as a change exactly if it is worded as one: a decimal number between blanks for a
score to go to, or `+=` or `-=` and such a number for a step. Of a number there is a sign or none,
digits, and a point with further digits or neither; so neither digits before a bare point nor an
exponent make a number.

Main exports: `IsWholeNumeral`, `AffinityChange.Worded`, `AffinityChange.isSome_ofText?_iff`.
-/

namespace Ascent

open Text

/-! ### The wording of a change -/

/-- Digits, perhaps with a point and further digits. -/
inductive IsUnsignedNumeral : List Char → Prop where
  | whole {digits : List Char} (some : digits ≠ []) (all : ∀ c ∈ digits, isDigit c) :
      IsUnsignedNumeral digits
  | parted {digits part : List Char} (some : digits ≠ []) (all : ∀ c ∈ digits, isDigit c)
      (more : part ≠ []) (rest : ∀ c ∈ part, isDigit c) : IsUnsignedNumeral (digits ++ '.' :: part)

/-- A decimal number, perhaps with a sign. -/
inductive IsSignedNumeral : List Char → Prop where
  | plain {cs : List Char} (h : IsUnsignedNumeral cs) : IsSignedNumeral cs
  | signed {sign : Char} {cs : List Char} (sign_ : sign = '+' ∨ sign = '-')
      (h : IsUnsignedNumeral cs) : IsSignedNumeral (sign :: cs)

/-- A decimal number between blanks. -/
def IsWholeNumeral (cs : List Char) : Prop := ∃ before numeral after,
  cs = before ++ (numeral ++ after) ∧ (∀ c ∈ before ++ after, isBlank c) ∧ IsSignedNumeral numeral

/-- A text that asks for a change: a decimal number, or `+=` or `-=` followed by one. -/
inductive AffinityChange.Worded : List Char → Prop where
  | target {cs : List Char} (h : IsWholeNumeral cs) : Worded cs
  | step {before rest : List Char} {sign : Char} (blank : ∀ c ∈ before, isBlank c)
      (sign_ : sign = '+' ∨ sign = '-') (h : IsWholeNumeral rest) :
      Worded (before ++ sign :: '=' :: rest)

/-! ### What is read is worded -/

section

variable {cs numeral : List Char} {size : Nat}

theorem exists_dropWhile_isBlank (cs : List Char) :
    ∃ after, cs.dropWhile isBlank = trimChars cs ++ after ∧ ∀ c ∈ after, isBlank c := by
  refine ⟨((cs.dropWhile isBlank).reverse.takeWhile isBlank).reverse, ?_, fun c member => ?_⟩
  · rw [trimChars, trimWhere, ← List.reverse_append, List.takeWhile_append_dropWhile,
      List.reverse_reverse]
  · exact List.mem_takeWhile_imp (List.mem_reverse.mp member)

theorem exists_trimChars (cs : List Char) :
    ∃ before after, cs = before ++ (trimChars cs ++ after) ∧ ∀ c ∈ before ++ after, isBlank c := by
  obtain ⟨after, split, blank⟩ := exists_dropWhile_isBlank cs
  refine ⟨cs.takeWhile isBlank, after, ?_, fun c member => ?_⟩
  · rw [← split, List.takeWhile_append_dropWhile]
  · rcases List.mem_append.mp member with first | last
    · exact List.mem_takeWhile_imp first
    · exact blank c last

theorem isUnsignedNumeral_of_read (read : unsignedNumeral cs = some (numeral, size))
    (all : cs.drop size = []) : IsUnsignedNumeral cs := by
  have split := List.takeWhile_append_dropWhile (p := isDigit) (l := cs)
  have digits : ∀ c ∈ cs.takeWhile isDigit, isDigit c := fun _ => List.mem_takeWhile_imp
  rw [unsignedNumeral] at read
  dsimp only at read
  generalize cs.takeWhile isDigit = whole at split digits read
  generalize cs.dropWhile isDigit = rest at split read
  subst split
  split at read
  · cases read
  · next some_ =>
      have some_ : whole ≠ [] := by simpa using some_
      obtain ⟨rfl, rfl⟩ := Prod.mk.inj (Option.some.inj read)
      split at all
      · next tail =>
          have split := List.takeWhile_append_dropWhile (p := isDigit) (l := tail)
          have digits' : ∀ c ∈ tail.takeWhile isDigit, isDigit c := fun _ => List.mem_takeWhile_imp
          generalize tail.takeWhile isDigit = part at split digits' all
          generalize tail.dropWhile isDigit = after at split
          subst split
          split at all
          · simp at all
          · next more =>
              rw [← List.cons_append, ← List.append_assoc, List.drop_left] at all
              rw [all, List.append_nil]
              exact .parted some_ digits (by simpa using more) digits'
      · rw [if_pos List.isEmpty_nil, List.drop_left] at all
        rw [all, List.append_nil]
        exact .whole some_ digits

theorem isSignedNumeral_of_read (read : signedNumeral cs = some (numeral, size))
    (all : cs.drop size = []) : IsSignedNumeral cs := by
  cases cs with
  | nil => cases read
  | cons c rest =>
      rw [signedNumeral] at read
      split at read
      · next sign =>
          obtain ⟨⟨_, size⟩, unsigned, same⟩ := Option.map_eq_some_iff.mp read
          obtain ⟨rfl, rfl⟩ := Prod.mk.inj same
          exact .signed (by simpa using sign) (isUnsignedNumeral_of_read unsigned all)
      · exact .plain (isUnsignedNumeral_of_read read all)

theorem isWholeNumeral_of_read {x : Double} (read : AffinityChange.wholeNumeral? cs = some x) :
    IsWholeNumeral cs := by
  simp only [AffinityChange.wholeNumeral?, Option.bind_eq_bind, Option.bind_eq_some_iff] at read
  obtain ⟨⟨numeral, size⟩, signed, read⟩ := read
  split at read
  · next all =>
      obtain ⟨before, after, same, blank⟩ := exists_trimChars cs
      exact ⟨before, _, after, same, blank,
        isSignedNumeral_of_read signed (List.isEmpty_iff.mp all)⟩
  · cases read

/-- A text that is read as a change is worded as one. -/
theorem AffinityChange.worded_of_ofText? {text : String} {change : AffinityChange}
    (read : ofText? text = some change) : Worded text.toList := by
  have blank : ∀ c ∈ text.toList.takeWhile isBlank, isBlank c := fun _ => List.mem_takeWhile_imp
  have whole := List.takeWhile_append_dropWhile (p := isBlank) (l := text.toList)
  unfold ofText? at read
  split at read
  · next rest start =>
      obtain ⟨x, read, _⟩ := Option.map_eq_some_iff.mp read
      rw [← whole, start]
      exact .step blank (.inl rfl) (isWholeNumeral_of_read read)
  · next rest start =>
      obtain ⟨x, read, _⟩ := Option.map_eq_some_iff.mp read
      rw [← whole, start]
      exact .step blank (.inr rfl) (isWholeNumeral_of_read read)
  · obtain ⟨x, read, _⟩ := Option.map_eq_some_iff.mp read
    obtain ⟨before, numeral, after, same, blank', signed⟩ := isWholeNumeral_of_read read
    refine .target ⟨text.toList.takeWhile isBlank ++ before, numeral, after, ?_, ?_, signed⟩
    · rw [List.append_assoc, ← same, whole]
    · intro c member
      rw [List.append_assoc] at member
      exact (List.mem_append.mp member).elim (blank c) (blank' c)

end

/-! ### What is worded is read -/

namespace Text

theorem digitZeros_of_blank : ∀ r ∈ blankRanges, ∀ n ∈ List.range' r.1 (r.2 - r.1 + 1),
    (digitZeros.find? fun z => z ≤ n && n < z + 10) = none := by
  decide +kernel

/-- No blank is a digit. -/
theorem isDigit_of_isBlank {c : Char} (blank : isBlank c) : isDigit c = false := by
  by_cases ascii : c.toNat < 128
  · have all : ∀ n < 128, isBlank (Char.ofNat n) → isDigit (Char.ofNat n) = false := by decide
    rw [← Char.ofNat_toNat c] at blank ⊢
    exact all c.toNat ascii blank
  · rw [isBlank, if_neg ascii] at blank
    obtain ⟨r, known, within⟩ := List.any_eq_true.mp blank
    simp only [Bool.and_eq_true, decide_eq_true_eq] at within
    rw [isDigit, digitValue?, if_neg ascii,
      digitZeros_of_blank r known c.toNat (List.mem_range'_1.mpr (by omega))]
    rfl

theorem isBlank_of_isDigit {c : Char} (digit : isDigit c) : isBlank c = false := by
  by_contra blank
  rw [isDigit_of_isBlank (by simpa using blank)] at digit
  cases digit

end Text

section

variable {cs : List Char}

theorem IsUnsignedNumeral.read (h : IsUnsignedNumeral cs) :
    unsignedNumeral cs = some (cs, cs.length) := by
  have stop (rest : List Char) : ∀ c ∈ ('.' :: rest).head?, isDigit c = false := by
    intro c first
    obtain rfl := Option.some.inj first
    decide
  rw [unsignedNumeral]
  cases h with
  | whole some_ all =>
      have run : cs.takeWhile isDigit = cs := List.takeWhile_eq_self_iff.mpr all
      have none : cs.dropWhile isDigit = [] := List.dropWhile_eq_nil_iff.mpr all
      rw [run, none]
      simp [some_]
  | @parted digits part some_ all more rest =>
      have run : part.takeWhile isDigit = part := List.takeWhile_eq_self_iff.mpr rest
      rw [takeWhile_append_of_stop all (stop part), dropWhile_append_of_stop all (stop part)]
      simp [some_, more, run]

/-- A number begins with a digit. -/
theorem IsUnsignedNumeral.head (h : IsUnsignedNumeral cs) :
    ∃ c rest, cs = c :: rest ∧ isDigit c := by
  cases h with
  | whole some_ all =>
      obtain ⟨c, rest, rfl⟩ := List.exists_cons_of_ne_nil some_
      exact ⟨c, rest, rfl, all c List.mem_cons_self⟩
  | @parted digits part some_ all =>
      obtain ⟨c, rest, rfl⟩ := List.exists_cons_of_ne_nil some_
      exact ⟨c, rest ++ '.' :: part, rfl, all c List.mem_cons_self⟩

/-- A number ends with a digit. -/
theorem IsUnsignedNumeral.last (h : IsUnsignedNumeral cs) :
    ∃ rest c, cs = rest ++ [c] ∧ isDigit c := by
  cases h with
  | whole some_ all =>
      obtain ⟨rest, c, rfl⟩ := (List.eq_nil_or_concat cs).resolve_left some_
      exact ⟨rest, c, List.concat_eq_append, all c (by simp)⟩
  | @parted digits part _ _ more digits' =>
      obtain ⟨rest, c, rfl⟩ := (List.eq_nil_or_concat part).resolve_left more
      exact ⟨digits ++ '.' :: rest, c, by simp, digits' c (by simp)⟩

theorem isDigit_ne {c d : Char} (digit : isDigit c) (other : isDigit d = false) : c ≠ d := by
  rintro rfl
  rw [digit] at other
  cases other

theorem IsSignedNumeral.read (h : IsSignedNumeral cs) :
    signedNumeral cs = some (cs, cs.length) := by
  cases h with
  | plain h =>
      obtain ⟨c, rest, rfl, digit⟩ := h.head
      have plus := isDigit_ne digit (d := '+') (by decide)
      have minus := isDigit_ne digit (d := '-') (by decide)
      rw [signedNumeral, if_neg (by simp [plus, minus]), h.read]
  | @signed sign rest sign_ h =>
      rw [signedNumeral, if_pos (by simpa using sign_), h.read]
      rfl

/-- A number is not blank at its ends. -/
theorem IsSignedNumeral.solid (h : IsSignedNumeral cs) :
    (∀ c ∈ cs.head?, isBlank c = false) ∧ ∀ c ∈ cs.getLast?, isBlank c = false := by
  cases h with
  | plain h =>
      obtain ⟨c, rest, start, digit⟩ := h.head
      obtain ⟨rest', c', stop, digit'⟩ := h.last
      refine ⟨?_, ?_⟩
      · simp [start, isBlank_of_isDigit digit]
      · simp [stop, isBlank_of_isDigit digit']
  | @signed sign rest sign_ h =>
      obtain ⟨rest', c', rfl, digit'⟩ := h.last
      have solid : isBlank sign = false := by rcases sign_ with rfl | rfl <;> decide
      refine ⟨by simp [solid], ?_⟩
      rw [← List.cons_append, List.getLast?_concat]
      simp [isBlank_of_isDigit digit']

/-- A number does not begin as a step does. -/
theorem IsSignedNumeral.ne_step (h : IsSignedNumeral cs) {sign : Char}
    (sign_ : sign = '+' ∨ sign = '-') (after rest : List Char) :
    cs ++ after ≠ sign :: '=' :: rest := by
  have noDigit : isDigit sign = false := by rcases sign_ with rfl | rfl <;> decide
  intro same
  cases h with
  | plain h =>
      obtain ⟨c, tail, rfl, digit⟩ := h.head
      exact isDigit_ne digit noDigit (List.cons.inj same).1
  | signed _ h =>
      obtain ⟨c, tail, rfl, digit⟩ := h.head
      exact isDigit_ne digit (by decide) (List.cons.inj (List.cons.inj same).2).1

/-- What stands between blanks is left when these are trimmed. -/
theorem trimChars_between {before numeral after : List Char}
    (blank : ∀ c ∈ before ++ after, isBlank c) (h : IsSignedNumeral numeral) :
    (before ++ (numeral ++ after)).dropWhile isBlank = numeral ++ after ∧
      trimChars (before ++ (numeral ++ after)) = numeral := by
  obtain ⟨first, last⟩ := h.solid
  have front : ∀ c ∈ (numeral ++ after).head?, isBlank c = false := by
    cases numeral with
    | nil => cases h.read
    | cons c rest => exact first
  have back : ∀ c ∈ numeral.reverse.head?, isBlank c = false := by
    rwa [List.head?_reverse]
  have start := dropWhile_append_of_stop (fun c member => blank c (List.mem_append_left _ member))
    front
  refine ⟨start, ?_⟩
  rw [trimChars, trimWhere, start, List.reverse_append, dropWhile_append_of_stop _ back,
    List.reverse_reverse]
  intro c member
  exact blank c (List.mem_append_right _ (List.mem_reverse.mp member))

theorem IsWholeNumeral.read (h : IsWholeNumeral cs) : (AffinityChange.wholeNumeral? cs).isSome := by
  obtain ⟨before, numeral, after, rfl, blank, signed⟩ := h
  simp [AffinityChange.wholeNumeral?, (trimChars_between blank signed).2, signed.read]

/-- A text is read as a change exactly if it is worded as one. -/
theorem AffinityChange.isSome_ofText?_iff {text : String} :
    (ofText? text).isSome ↔ Worded text.toList := by
  constructor
  · intro read
    obtain ⟨change, read⟩ := Option.isSome_iff_exists.mp read
    exact worded_of_ofText? read
  · intro worded
    unfold ofText?
    generalize text.toList = cs at worded
    cases worded with
    | target h =>
        obtain ⟨before, numeral, after, rfl, blank, signed⟩ := h
        rw [(trimChars_between blank signed).1]
        split
        · next rest same => exact absurd same (signed.ne_step (.inl rfl) after rest)
        · next rest same => exact absurd same (signed.ne_step (.inr rfl) after rest)
        · have left : IsWholeNumeral (numeral ++ after) :=
            ⟨[], numeral, after, rfl, fun c member => blank c (List.mem_append_right _ member),
              signed⟩
          simpa using left.read
    | @step before rest sign blank sign_ h =>
        have stop : ∀ c ∈ (sign :: '=' :: rest).head?, isBlank c = false := by
          rcases sign_ with rfl | rfl <;> simp <;> decide
        rw [dropWhile_append_of_stop blank stop]
        rcases sign_ with rfl | rfl <;> simpa using h.read

end

end Ascent
