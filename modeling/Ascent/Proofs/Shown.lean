import Ascent.Json
import Ascent.Proofs.Numerals

/-!
What a value is shown as, read as a number.

A numeral in any style is digits, a point with further digits and an exponent, of which the last two
may be missing. In each layout its digits and the place of its point are those of the decimal that
it was written for, so a finite number is read back from what it is shown as. What a value other
than a number or a text is shown as is no numeral: it has a mark in front, or right behind its first
digits, that no numeral has there.

Main exports: `Spelling.Formed`, `Double.ofNumeral?_of_formed`, `Double.ofNumeral?_numeral`,
`Double.ofNumeral?_textIn`, `Double.ofNumeral?_toString`, `Double.ofNumeral?_eq_none`.
-/

namespace Ascent

open Text

/-! ### Plain characters -/

namespace Text

/-- The characters that numbers are shown with. -/
def IsNumeralChar (c : Char) : Prop := c.isDigit ∨ c = '.' ∨ c = 'e' ∨ c = '-' ∨ c = '+'

variable {c : Char} {cs : List Char}

/-- What is so of the ten digits and the four marks is so of each character of a numeral. -/
theorem forall_isNumeralChar {P : Char → Prop} (each : ∀ n < 10, P (Char.ofNat (48 + n)))
    (marks : P '.' ∧ P 'e' ∧ P '-' ∧ P '+') (plain : IsNumeralChar c) : P c := by
  obtain ⟨point, power, minus, plus⟩ := marks
  rcases plain with digit | rfl | rfl | rfl | rfl
  · exact forall_isDigit each digit
  · exact point
  · exact power
  · exact minus
  · exact plus

theorem plainDigits_of_plain (plain : ∀ c ∈ cs, IsNumeralChar c) : plainDigits cs = cs := by
  have same {c : Char} : IsNumeralChar c → plainDigits [c] = [c] :=
    forall_isNumeralChar (P := fun c => plainDigits [c] = [c]) (by decide) (by decide)
  induction cs with
  | nil => rfl
  | cons c rest ih =>
      calc plainDigits (c :: rest) = plainDigits [c] ++ plainDigits rest := rfl
        _ = c :: rest := by
          rw [same (plain c List.mem_cons_self), ih fun c member =>
            plain c (List.mem_cons_of_mem _ member), List.singleton_append]

theorem joinDigitGroups?_of_plain (plain : ∀ c ∈ cs, IsNumeralChar c) (previous : Bool) :
    joinDigitGroups? previous cs = some cs := by
  induction cs generalizing previous with
  | nil => rfl
  | cons c rest ih =>
      have solid : c ≠ '_' := forall_isNumeralChar (P := (· ≠ '_')) (by decide) (by decide)
        (plain c List.mem_cons_self)
      rw [joinDigitGroups?, if_neg solid,
        ih fun c member => plain c (List.mem_cons_of_mem _ member)]
      · rfl
      · simp [solid]

theorem isBlank_of_plain (plain : IsNumeralChar c) : isBlank c = false :=
  forall_isNumeralChar (P := fun c => isBlank c = false) (by decide) (by decide) plain

theorem trimChars_of_plain (plain : ∀ c ∈ cs, IsNumeralChar c) : trimChars cs = cs :=
  trimWhere_eq_self (fun c first => isBlank_of_plain (plain c (List.mem_of_mem_head? first)))
    (fun c last => isBlank_of_plain (plain c (List.mem_of_mem_getLast? last)))

/-- A digit is no sign and begins no word that is a numeral. -/
theorem begins_of_digit (digit : c.isDigit) :
    (c ≠ '-' ∧ c ≠ '+') ∧ c.toLower ≠ 'i' ∧ c.toLower ≠ 'n' :=
  ⟨not_sign_of_digit digit,
    forall_isDigit (P := fun c => c.toLower ≠ 'i' ∧ c.toLower ≠ 'n') (by decide) digit⟩

end Text

/-! ### Numerals in parts -/

namespace Spelling

/-- The parts are those of a numeral that begins with a digit. -/
structure Formed (s : Spelling) : Prop where
  whole : ∀ c ∈ s.whole, c.isDigit
  written : s.whole ≠ []
  part : ∀ c ∈ s.part, c.isDigit
  power : ∀ c ∈ s.power, IsNumeralChar c
  mark : ∀ c ∈ s.power.head?, c = 'e'

variable {s : Spelling} (formed : s.Formed)
include formed

theorem Formed.plain : ∀ c ∈ s.chars, IsNumeralChar c := by
  intro c member
  rcases List.mem_append.mp member with whole | rest
  · exact .inl (formed.whole c whole)
  · rcases List.mem_append.mp rest with pointed | power
    · split at pointed
      · cases pointed
      · rcases List.mem_cons.mp pointed with rfl | part
        · exact .inr (.inl rfl)
        · exact .inl (formed.part c part)
    · exact formed.power c power

theorem Formed.head : ∀ c ∈ s.chars.head?, c.isDigit := by
  intro c first
  rw [chars, List.head?_append_of_ne_nil _ formed.written] at first
  exact formed.whole c (List.mem_of_mem_head? first)

theorem Formed.readUnsigned? (negative : Bool) : Text.readUnsigned? negative s.chars =
    (readExponent? s.power).map fun e =>
      ⟨negative, digitsValue (s.whole ++ s.part), e - s.part.length⟩ := by
  obtain ⟨whole, part, power⟩ := s
  have written := formed.written
  have stop : ∀ c ∈ power.head?, c.isDigit = false := fun c first => by
    rw [formed.mark c first]
    rfl
  have stop' : ∀ c ∈ ((if part = [] then [] else '.' :: part) ++ power).head?,
      c.isDigit = false := by
    split
    · exact stop
    · simp
  unfold Text.readUnsigned? chars
  dsimp only at written ⊢
  rw [takeWhile_append_of_stop formed.whole stop', dropWhile_append_of_stop formed.whole stop']
  by_cases none : part = []
  · subst none
    cases power with
    | nil => simp [written]
    | cons c rest =>
        obtain rfl := formed.mark c rfl
        simp [written]
  · rw [if_neg none, List.cons_append]
    simp [takeWhile_append_of_stop formed.part stop, dropWhile_append_of_stop formed.part stop,
      written]

end Spelling

namespace Double

variable {cs rest plain : List Char} {negative : Bool}

/-- Only an `i` or an `n` begins a numeral that is a word. -/
theorem ofNumeralChars?_eq (joined : joinDigitGroups? false (plainDigits cs) = some plain)
    (signed : takeSign plain = (negative, rest))
    (other : ∀ c ∈ rest.head?, c.toLower ≠ 'i' ∧ c.toLower ≠ 'n') :
    ofNumeralChars? cs = (readUnsigned? negative rest).map Decimal.toDouble := by
  have apart (word : List Char) (first : word.head? = some 'i' ∨ word.head? = some 'n') :
      String.ofList (rest.map Char.toLower) ≠ String.ofList word := by
    intro same
    rw [String.ofList_inj] at same
    subst same
    cases rest with
    | nil => simp at first
    | cons c rest =>
        obtain ⟨i, n⟩ := other c rfl
        simp [i, n] at first
  have inf := apart ['i', 'n', 'f'] (.inl rfl)
  have infinity := apart ['i', 'n', 'f', 'i', 'n', 'i', 't', 'y'] (.inl rfl)
  have nan := apart ['n', 'a', 'n'] (.inr rfl)
  unfold ofNumeralChars?
  rw [joined]
  dsimp only [Option.bind_eq_bind, Option.bind_some]
  rw [signed]
  dsimp only
  rw [if_neg (by simpa using ⟨inf, infinity⟩), if_neg nan]

/-- A numeral stands for the decimal that its digits and its exponent give. -/
theorem ofNumeral?_of_formed {s : Spelling} (formed : s.Formed) {text : String}
    (spelt : text.toList = (if negative then ['-'] else []) ++ s.chars) :
    ofNumeral? text = (readExponent? s.power).map fun e =>
      Decimal.toDouble ⟨negative, digitsValue (s.whole ++ s.part), e - s.part.length⟩ := by
  have all : ∀ c ∈ text.toList, IsNumeralChar c := by
    intro c member
    rw [spelt] at member
    rcases List.mem_append.mp member with sign | member
    · split at sign
      · exact .inr (.inr (.inr (.inl (List.mem_singleton.mp sign))))
      · cases sign
    · exact formed.plain c member
  have signed : takeSign text.toList = (negative, s.chars) := by
    rw [spelt]
    cases negative with
    | true => rfl
    | false => exact takeSign_of_head fun c first => (begins_of_digit (formed.head c first)).1
  rw [ofNumeral?, trimChars_of_plain all, ofNumeralChars?_eq _ signed
    fun c first => (begins_of_digit (formed.head c first)).2, formed.readUnsigned?, Option.map_map]
  · rfl
  · rw [plainDigits_of_plain all, joinDigitGroups?_of_plain all]

end Double

/-! ### Numerals of decimals -/

namespace Decimal

theorem isNumeralChar_of_mem_exponentText {style : NumeralStyle} {power : Int} {c : Char}
    (member : c ∈ (exponentText style power).toList) : IsNumeralChar c := by
  rw [toList_exponentText_eq] at member
  rcases List.mem_append.mp member with sign | digits
  · have mark : c = '-' ∨ c = '+' := by
      split at sign
      · exact .inl (List.mem_singleton.mp sign)
      · split at sign
        · exact .inr (List.mem_singleton.mp sign)
        · cases sign
    exact .inr (.inr (.inr mark))
  · exact .inl (isDigit_of_mem_padded digits)

theorem formed_spelling (style : NumeralStyle) (d : Decimal) : (d.spelling style).Formed := by
  obtain ⟨whole, written, part⟩ := d.digit_spelling style
  rcases d.power_spelling style with ⟨none, -⟩ | ⟨power, exponent⟩
  · exact ⟨whole, written, part, by simp [none], by simp [none]⟩
  · refine ⟨whole, written, part, fun c member => ?_, by simp [exponent]⟩
    rw [exponent] at member
    rcases List.mem_cons.mp member with rfl | member
    · exact .inr (.inr (.inl rfl))
    · exact isNumeralChar_of_mem_exponentText member

end Decimal

/-! ### Numbers -/

namespace Double

/-- A numeral in any style is read as the decimal that it was written for. -/
theorem ofNumeral?_numeral (style : NumeralStyle) (d : Decimal) :
    ofNumeral? (d.numeral style) = some d.toDouble := by
  rw [ofNumeral?_of_formed (d.formed_spelling style) (d.toList_numeral_eq style)]
  exact d.toDouble_spelling style

/-- A finite number is read back from what it is shown as. -/
theorem ofNumeral?_textIn (style : NumeralStyle) {x : Double} (finite : x.isFinite) :
    ofNumeral? (x.textIn style) = some x := by
  cases x with
  | nan => cases finite
  | infinite negative => cases finite
  | finite negative m e canonical =>
      rw [textIn, ofNumeral?_numeral, toDouble_shortest negative canonical]

/-- An integer is read as a decimal without a fraction. -/
theorem ofNumeral?_toString (n : Int) :
    ofNumeral? (toString n) = some (Decimal.mk (n < 0) n.natAbs 0).toDouble := by
  have formed : (Spelling.mk (Nat.toDigits 10 n.natAbs) [] []).Formed :=
    ⟨fun _ => isDigit_of_mem_toDigits, Nat.toDigits_ne_nil, by simp, by simp, by simp⟩
  have spelt : (toString n).toList = (if decide (n < 0) then ['-'] else []) ++
      (Spelling.mk (Nat.toDigits 10 n.natAbs) [] []).chars := by
    rw [toList_toString_int]
    simp [Spelling.chars]
  rw [ofNumeral?_of_formed formed spelt]
  simp [readExponent?, digitsValue_toDigits]

end Double

/-! ### Other values -/

namespace Text

variable {digits rest plain : List Char} {c : Char}

/-- Of a text that begins with no blank, what stands behind a character that is none is all that may
be trimmed. -/
theorem exists_trimChars_append (first : ∀ c ∈ digits, isBlank c = false)
    (solid : isBlank c = false) (rest : List Char) :
    ∃ rest', trimChars (digits ++ c :: rest) = digits ++ c :: rest' := by
  have head : ∀ d ∈ (digits ++ c :: rest).head?, isBlank d = false := by
    cases digits with
    | nil => simpa using solid
    | cons d digits => simpa using first d List.mem_cons_self
  have back : (rest.reverse ++ c :: digits.reverse).dropWhile isBlank =
      rest.reverse.dropWhile isBlank ++ c :: digits.reverse := by
    rw [List.dropWhile_append]
    split
    · next none => simp [List.isEmpty_iff.mp none, solid]
    · rfl
  refine ⟨(rest.reverse.dropWhile isBlank).reverse, ?_⟩
  rw [trimChars, trimWhere, dropWhile_eq_self_of_head head, List.reverse_append, List.reverse_cons,
    List.append_assoc, List.singleton_append, back]
  simp

theorem exists_joinDigitGroups? (first : ∀ c ∈ digits, c ≠ '_') (solid : c ≠ '_') {previous : Bool}
    (joined : joinDigitGroups? previous (digits ++ c :: rest) = some plain) :
    ∃ rest', plain = digits ++ c :: rest' := by
  induction digits generalizing previous plain with
  | nil =>
      rw [List.nil_append, joinDigitGroups?, if_neg solid] at joined
      · obtain ⟨rest', -, rfl⟩ := Option.map_eq_some_iff.mp joined
        exact ⟨rest', rfl⟩
      · simp [solid]
  | cons d digits ih =>
      have other := first d List.mem_cons_self
      rw [List.cons_append, joinDigitGroups?, if_neg other] at joined
      · obtain ⟨tail, after, rfl⟩ := Option.map_eq_some_iff.mp joined
        obtain ⟨rest', rfl⟩ := ih (fun c member => first c (List.mem_cons_of_mem _ member)) after
        exact ⟨rest', rfl⟩
      · simp [other]

theorem plainDigits_append (digit : ∀ c ∈ digits, c.isDigit) (valueless : digitValue? c = none) :
    plainDigits (digits ++ c :: rest) = digits ++ c :: plainDigits rest := by
  have same : plainDigits digits = digits :=
    plainDigits_of_plain fun d member => .inl (digit d member)
  rw [plainDigits, List.map_append, List.map_cons, valueless]
  exact congrArg (· ++ c :: plainDigits rest) same

theorem readUnsigned?_eq_none (digit : ∀ c ∈ digits, c.isDigit)
    (mark : c.isDigit = false ∧ c ≠ '.' ∧ c.toLower ≠ 'e') (negative : Bool) :
    readUnsigned? negative (digits ++ c :: rest) = none := by
  obtain ⟨noDigit, point, power⟩ := mark
  have stop : ∀ d ∈ (c :: rest).head?, d.isDigit = false := by simpa using noDigit
  unfold readUnsigned?
  dsimp only
  rw [takeWhile_append_of_stop digit stop, dropWhile_append_of_stop digit stop]
  simp [point, readExponent?, power]

end Text

namespace Double

/-- A text is no numeral where its first digits are followed by a mark that no numeral has there. -/
theorem ofNumeral?_eq_none {digits : List Char} {c : Char} {text : String}
    (spelt : digits ++ [c] <+: text.toList) (digit : ∀ c ∈ digits, c.isDigit)
    (mark : c ∈ ['[', '\x7b'] ∨ digits ≠ [] ∧ c ∈ ['-', ':']) : ofNumeral? text = none := by
  obtain ⟨rest, spelt⟩ := spelt
  rw [List.append_assoc, List.singleton_append] at spelt
  have odd : ∀ c ∈ ['[', '\x7b', '-', ':'], isBlank c = false ∧ c ≠ '_' ∧ digitValue? c = none ∧
      c.isDigit = false ∧ c ≠ '.' ∧ c.toLower ≠ 'e' := List.forall_iff_forall_mem.mp (by decide)
  have known : c ∈ ['[', '\x7b', '-', ':'] := List.mem_append.mpr (mark.imp_right And.right)
  obtain ⟨solid, single, valueless, ends⟩ := odd c known
  have begins (rest : List Char) : ∀ d ∈ (digits ++ c :: rest).head?,
      (d ≠ '-' ∧ d ≠ '+') ∧ d.toLower ≠ 'i' ∧ d.toLower ≠ 'n' := by
    intro d first
    cases digits with
    | nil =>
        have marks : ∀ c ∈ ['[', '\x7b'],
            (c ≠ '-' ∧ c ≠ '+') ∧ c.toLower ≠ 'i' ∧ c.toLower ≠ 'n' :=
          List.forall_iff_forall_mem.mp (by decide)
        obtain rfl : c = d := by simpa using first
        exact marks c (mark.resolve_right fun h => h.1 rfl)
    | cons d' digits =>
        obtain rfl : d' = d := by simpa using first
        exact begins_of_digit (digit d' List.mem_cons_self)
  obtain ⟨rest', trimmed⟩ := exists_trimChars_append
    (fun d member => isBlank_of_digit (digit d member)) solid rest
  rw [ofNumeral?, ← spelt, trimmed]
  -- Trimming and joining groups of digits change nothing up to the mark, and there reading stops.
  cases joined : joinDigitGroups? false (plainDigits (digits ++ c :: rest')) with
  | none =>
      rw [ofNumeralChars?, joined]
      rfl
  | some cs =>
      have other : ∀ d ∈ digits, d ≠ '_' := fun d member => by
        rintro rfl
        simpa using digit '_' member
      obtain ⟨rest'', rfl⟩ := exists_joinDigitGroups? other single
        (plainDigits_append digit valueless ▸ joined)
      rw [ofNumeralChars?_eq joined (takeSign_of_head fun d first => (begins _ d first).1)
        fun d first => (begins _ d first).2, readUnsigned?_eq_none digit ends, Option.map_none]

end Double

namespace Json

theorem exists_toList_padded (width n : Nat) :
    ∃ digits ≠ [], (padded width n).toList = digits ∧ ∀ c ∈ digits, c.isDigit := by
  refine ⟨_, ?_, rfl, fun c member => ?_⟩
  · simp [padded, Nat.toDigits_ne_nil]
  · rw [padded, String.toList_append, String.toList_ofList] at member
    exact isDigit_of_mem_padded (n := n) (by simpa using member)

/-- A moment begins with digits, and these are followed by a dash or a colon. -/
theorem ofNumeral?_moment (m : Moment) : Double.ofNumeral? m.text = none := by
  have after {width n : Nat} {mark : Char} (known : mark ∈ ['-', ':'])
      (spelt : (padded width n).toList ++ [mark] <+: m.text.toList) :
      Double.ofNumeral? m.text = none := by
    obtain ⟨digits, written, same, digit⟩ := exists_toList_padded width n
    exact Double.ofNumeral?_eq_none (same ▸ spelt) digit (.inr ⟨written, known⟩)
  have date (d : Day) : (padded 4 d.year).toList ++ ['-'] <+: d.text.toList :=
    ⟨_, by simp [Day.text]; rfl⟩
  have time (t : TimeOfDay) : (padded 2 t.hour).toList ++ [':'] <+: t.text.toList := by
    unfold TimeOfDay.text
    dsimp only
    split <;> exact ⟨_, by simp; rfl⟩
  cases m with
  | date d => exact after (by simp) (date d)
  | time t => exact after (by simp) (time t)
  | dated d t zone => exact after (by simp) ((date d).trans ⟨_, by simp [Moment.text]; rfl⟩)

theorem ofNumeral?_list (items : List Json) : Double.ofNumeral? (list items).text = none := by
  have spelt : [] ++ ['['] <+: (list items).text.toList :=
    ⟨(", ".intercalate (innerTexts items)).toList ++ [']'], by simp [text, innerText]⟩
  exact Double.ofNumeral?_eq_none spelt (by simp) (.inl (by simp))

theorem ofNumeral?_object (members : List (String × Json)) :
    Double.ofNumeral? (object members).text = none := by
  have spelt : [] ++ ['\x7b'] <+: (object members).text.toList :=
    ⟨(", ".intercalate (memberTexts members)).toList ++ ['\x7d'], by simp [text, innerText]⟩
  exact Double.ofNumeral?_eq_none spelt (by simp) (.inl (by simp))

end Json
end Ascent
