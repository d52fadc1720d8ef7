import Ascent.Proofs.Digits
import Ascent.Proofs.Labels
import Ascent.Proofs.Reading
import Ascent.Proofs.Wording
import Mathlib.Data.List.Chain
import Mathlib.Data.List.Intervals

/-!
Texts that describe the names of a ladder.

Names are written one after another with dashes between blanks or commas between them. Within a name
no blank stands next to a dash, and its ends are not blank, so no separator is found inside a name
or across its ends, and the names are read as they were written. Only two numbered names with one
stem stand for more: for the range from one to the other, where it is not too long.

Main exports: `Text.Pattern.split_append`, `Ladder.Unparted`, `Ladder.split_intercalate`,
`Ladder.WholeName`, `Ladder.NumberedAlike`, `Ladder.Stem`, `Ladder.names_read_back`.
-/

namespace Ascent

open Text

/-! ### Splitting -/

namespace Text.Pattern

variable {α : Type} {p : Pattern α} {word gap rest : List Char} {a : α}

theorem splitFrom_eq_drop (p : Pattern α) (n : Nat) (cs : List Char) :
    splitFrom p n cs = split p (cs.drop n) := by
  induction cs generalizing n with
  | nil => simp [splitFrom, split]
  | cons c rest ih =>
      cases n with
      | zero => rfl
      | succ n => simpa [splitFrom] using ih n

theorem split_of_match (some_ : gap ≠ []) (found : p (gap ++ rest) = some (a, gap.length)) :
    split p (gap ++ rest) = [] :: split p rest := by
  obtain ⟨c, gap, rfl⟩ := List.exists_cons_of_ne_nil some_
  rw [List.cons_append] at found ⊢
  rw [split, splitFrom, found]
  simp [splitFrom_eq_drop]

theorem split_of_none {c : Char} {piece : List Char} {pieces : List (List Char)}
    (barren : p (c :: rest) = none) (later : split p rest = piece :: pieces) :
    split p (c :: rest) = (c :: piece) :: pieces := by
  rw [split] at later
  rw [split, splitFrom, barren]
  dsimp only
  rw [later]

/-- A word at no place of which a match begins is the first piece. -/
theorem split_append {piece : List Char} {pieces : List (List Char)}
    (barren : ∀ end_, end_ <:+ word → end_ ≠ [] → p (end_ ++ rest) = none)
    (later : split p rest = piece :: pieces) :
    split p (word ++ rest) = (word ++ piece) :: pieces := by
  induction word with
  | nil => exact later
  | cons c word ih =>
      exact split_of_none (barren (c :: word) (List.suffix_refl _) (List.cons_ne_nil _ _))
        (ih fun end_ within => barren end_ (within.trans (List.suffix_cons c word)))

end Text.Pattern

namespace Ladder

/-! ### Names that no separator parts -/

/-- Two characters that may stand side by side in a name: a dash and a blank may not. -/
def Beside (c d : Char) : Prop := ¬ (isDash c ∧ isBlank d) ∧ ¬ (isBlank c ∧ isDash d)

instance : DecidableRel Beside := fun c d =>
  inferInstanceAs (Decidable (¬ (isDash c ∧ isBlank d) ∧ ¬ (isBlank c ∧ isDash d)))

/-- Characters in which no separator is found and at whose ends none can begin or end. -/
structure Unparted (cs : List Char) : Prop where
  written : cs ≠ []
  first : ∀ c ∈ cs.head?, isBlank c = false
  last : ∀ c ∈ cs.getLast?, isBlank c = false
  comma : ',' ∉ cs
  dashes : cs.IsChain Beside

/-- What is written between two names, and read so whatever name follows. -/
structure Parts (gap : List Char) : Prop where
  written : gap ≠ []
  found : ∀ rest, (∀ c ∈ rest.head?, isBlank c = false) →
    separator (gap ++ rest) = some ((), gap.length)

section

variable {cs rest gap : List Char} {names : List (List Char)}

/-- Whether a separator begins at some blanks depends on the character behind them. -/
theorem separator_of_mark {before : List Char} {mark : Char} (blank : ∀ c ∈ before, isBlank c)
    (solid : isBlank mark = false) (rest : List Char) :
    separator (before ++ mark :: rest) =
      if mark = ',' ∨ isDash mark ∧ before ≠ [] ∧ rest.takeWhile isBlank ≠ [] then
        some ((), before.length + 1 + (rest.takeWhile isBlank).length)
      else none := by
  have stop : ∀ c ∈ (mark :: rest).head?, isBlank c = false := by
    intro c first
    obtain rfl : mark = c := Option.some.inj first
    exact solid
  rw [separator]
  dsimp only
  rw [takeWhile_append_of_stop blank stop, dropWhile_append_of_stop blank stop]
  simp [and_assoc]

/-- No separator begins at the characters of a name: behind its blanks stands neither a dash nor a
comma. -/
theorem separator_eq_none (written : cs ≠ []) (last : ∀ c ∈ cs.getLast?, isBlank c = false)
    (comma : ',' ∉ cs) (dashes : cs.IsChain Beside) (rest : List Char) :
    separator (cs ++ rest) = none := by
  have whole := List.takeWhile_append_dropWhile (p := isBlank) (l := cs)
  have blank : ∀ c ∈ cs.takeWhile isBlank, isBlank c := fun _ => List.mem_takeWhile_imp
  have head := List.head?_dropWhile_not isBlank cs
  cases solid : cs.dropWhile isBlank with
  | nil =>
      have end_ := List.getLast_mem written
      have blankEnd := List.dropWhile_eq_nil_iff.mp solid _ end_
      rw [last _ (List.getLast?_eq_getLast_of_ne_nil written)] at blankEnd
      cases blankEnd
  | cons d tail =>
      rw [solid] at whole head
      generalize cs.takeWhile isBlank = blanks at whole blank
      subst whole
      have solid : isBlank d = false := by simpa using head
      have noComma : d ≠ ',' := by
        rintro rfl
        simp at comma
      have noDash : blanks ≠ [] → isDash d = false := by
        intro some_
        obtain ⟨-, -, beside⟩ := List.isChain_append.mp dashes
        have apart := (beside _ (List.getLast?_eq_getLast_of_ne_nil some_) d rfl).2
        simpa [blank _ (List.getLast_mem some_)] using apart
      rw [List.append_assoc, List.cons_append, separator_of_mark blank solid, if_neg]
      -- a dash parts only behind blanks, and behind blanks no dash stands in a name
      rintro (comma | ⟨dash, some_, -⟩)
      · exact noComma comma
      · exact Bool.noConfusion ((noDash some_).symm.trans dash)

theorem Unparted.separator_eq_none (h : Unparted cs) {end_ : List Char} (within : end_ <:+ cs)
    (some_ : end_ ≠ []) (rest : List Char) : separator (end_ ++ rest) = none := by
  obtain ⟨before, rfl⟩ := within
  refine Ladder.separator_eq_none some_ ?_ ?_ ?_ rest
  · have last := h.last
    rwa [List.getLast?_append_of_ne_nil _ some_] at last
  · exact fun comma => h.comma (List.mem_append_right before comma)
  · exact h.dashes.right_of_append

/-- A dash between blanks parts, and a comma whatever blanks are around it. -/
theorem parts_mark (before : List Char) (mark : Char) (after : List Char)
    (blank : ∀ c ∈ before, isBlank c) (blank' : ∀ c ∈ after, isBlank c)
    (solid : isBlank mark = false)
    (parts : mark = ',' ∨ isDash mark ∧ before ≠ [] ∧ after ≠ []) :
    Parts (before ++ mark :: after) where
  written := by simp
  found rest beyond := by
    rw [List.append_assoc, List.cons_append, separator_of_mark blank solid,
      takeWhile_append_of_stop blank' beyond, if_pos parts, List.length_append, List.length_cons,
      Nat.add_right_comm, Nat.add_assoc]

theorem parts_dash : Parts " - ".toList := by
  have written : " - ".toList = [' '] ++ '-' :: [' '] := by decide
  have blank : ∀ c ∈ [' '], isBlank c := List.forall_mem_singleton.mpr (by decide)
  rw [written]
  exact parts_mark [' '] '-' [' '] blank blank (by decide) (.inr (by decide))

theorem parts_comma : Parts ", ".toList := by
  have written : ", ".toList = [] ++ ',' :: [' '] := by decide
  have blank : ∀ c ∈ [' '], isBlank c := List.forall_mem_singleton.mpr (by decide)
  rw [written]
  exact parts_mark [] ',' [' '] (List.forall_mem_nil _) blank (by decide) (.inl rfl)

theorem parts_of_mem {gap : String} (separates : gap ∈ [" - ", ", "]) : Parts gap.toList := by
  rcases List.mem_pair.mp separates with rfl | rfl
  · exact parts_dash
  · exact parts_comma

/-- Names that are written with separators between them are parted there and nowhere else. -/
theorem split_intercalate (parts : Parts gap) (some_ : names ≠ [])
    (each : ∀ cs ∈ names, Unparted cs) : separator.split (gap.intercalate names) = names := by
  induction names with
  | nil => exact absurd rfl some_
  | cons cs names ih =>
      have whole := each cs List.mem_cons_self
      cases names with
      | nil =>
          have piece : separator.split (cs ++ []) = [cs ++ []] := Pattern.split_append
            (fun end_ within some_ => whole.separator_eq_none within some_ []) rfl
          rw [List.append_nil] at piece
          rwa [List.intercalate_singleton]
      | cons next names =>
          have others := ih (List.cons_ne_nil _ _) fun cs member =>
            each cs (List.mem_cons_of_mem _ member)
          -- the separator ends where the next name begins, as that begins with no blank
          have solid : ∀ c ∈ (gap.intercalate (next :: names)).head?, isBlank c = false := by
            have following := each next (by simp)
            cases names with
            | nil =>
                rw [List.intercalate_singleton]
                exact following.first
            | cons _ _ =>
                rw [List.intercalate_cons_cons, List.append_assoc,
                  List.head?_append_of_ne_nil _ following.written]
                exact following.first
          rw [List.intercalate_cons_cons, List.append_assoc]
          have gap_ := Pattern.split_of_match parts.written (parts.found _ solid)
          rw [Pattern.split_append (fun end_ within some_ => whole.separator_eq_none within some_ _)
            gap_, List.append_nil, others]

end

/-! ### Numbered names -/

/-- A name that ends in a number, whole with all its digits. -/
structure Numbered (name stem digits : List Char) : Prop where
  split : name = stem ++ digits
  written : digits ≠ []
  digit : ∀ c ∈ digits, isDigit c
  whole : ∀ c ∈ stem.getLast?, isDigit c = false

/-- Two names that end in numbers and have one stem, blanks around it aside. -/
def NumberedAlike (first last : List Char) : Prop := ∃ stem digits stem' digits',
  Numbered first stem digits ∧ Numbered last stem' digits' ∧ trimChars stem = trimChars stem'

section

variable {name stem digits first last : List Char}

/-- The stem and the digits of a name are found from its end. -/
theorem Numbered.eq (h : Numbered name stem digits) :
    (name.reverse.takeWhile isDigit).reverse = digits ∧
      (name.reverse.dropWhile isDigit).reverse = stem := by
  obtain ⟨rfl, written, digit, whole⟩ := h
  have all : ∀ c ∈ digits.reverse, isDigit c := fun c member => digit c (List.mem_reverse.mp member)
  have stop : ∀ c ∈ stem.reverse.head?, isDigit c = false := by rwa [List.head?_reverse]
  rw [List.reverse_append, takeWhile_append_of_stop all stop, dropWhile_append_of_stop all stop,
    List.reverse_reverse, List.reverse_reverse]
  exact ⟨rfl, rfl⟩

theorem numbered?_eq (h : Numbered name stem digits) :
    numbered? name = if stem.contains '\n' then none else some (stem, digits) := by
  rw [numbered?, h.eq.1, h.eq.2]
  simp [h.written]

theorem numbered_of_numbered? (h : numbered? name = some (stem, digits)) :
    Numbered name stem digits := by
  rw [numbered?] at h
  split at h
  · cases h
  · next some_ =>
      cases h
      refine ⟨?_, ?_, ?_, ?_⟩
      · rw [← List.reverse_append, List.takeWhile_append_dropWhile, List.reverse_reverse]
      · simp at some_
        simpa using some_.1
      · intro c member
        exact List.mem_takeWhile_imp (List.mem_reverse.mp member)
      · intro c member
        rw [List.getLast?_reverse] at member
        have head := List.head?_dropWhile_not isDigit name.reverse
        rw [member] at head
        simpa using head

/-- Names that are not numbered alike stand for no range. -/
theorem range?_eq_none (other : ¬ NumberedAlike first last) : range? first last = .ok none := by
  unfold range?
  split
  · next stem digits stem' digits' found found' =>
      rw [if_neg]
      · rfl
      · exact fun same => other ⟨stem, digits, stem', digits', numbered_of_numbered? found,
          numbered_of_numbered? found', same⟩
  · rfl

end

/-! ### Lists of names -/

/-- Names without blanks at their ends are kept as they are. -/
theorem filter_map_trimChars {parts : List (List Char)} (each : ∀ cs ∈ parts, Unparted cs) :
    (parts.map trimChars).filter (!·.isEmpty) = parts := by
  have trimmed : ∀ cs ∈ parts, trimChars cs = cs := fun cs member =>
    trimWhere_eq_self (each cs member).first (each cs member).last
  rw [List.map_congr_left trimmed, List.map_id', List.filter_eq_self]
  exact fun cs member => by simpa using (each cs member).written

section

variable {text first last : String} {names : List String}

theorem readNames_of_pair (split : separator.split text.toList = [first.toList, last.toList])
    (whole : Unparted first.toList) (whole' : Unparted last.toList) :
    readNames text = (range? first.toList last.toList).map (·.getD [first, last]) := by
  have parts : ([first.toList, last.toList].map trimChars).filter (!·.isEmpty) =
      [first.toList, last.toList] := filter_map_trimChars (by simp [whole, whole'])
  unfold readNames
  simp only [split, parts]
  simp only [List.map_cons, List.map_nil, String.ofList_toList]
  rfl

theorem readNames_of_others (split : separator.split text.toList = names.map String.toList)
    (each : ∀ name ∈ names, Unparted name.toList) (others : names.length ≠ 2) :
    readNames text = .ok names := by
  have parts : ((names.map String.toList).map trimChars).filter (!·.isEmpty) =
      names.map String.toList := filter_map_trimChars (by simpa using each)
  have back : (names.map String.toList).map String.ofList = names := by
    simp [Function.comp_def]
  unfold readNames
  simp only [split, parts, back]
  match names, others with
  | [], _ => rfl
  | [_], _ => rfl
  | [_, _], others => exact absurd rfl others
  | _ :: _ :: _ :: _, _ => rfl

end

/-- A name that can stand in a list of names as it is: without blanks around it, and without a comma
or a dash next to a blank. -/
structure WholeName (name : String) : Prop where
  trimmed : trim name = name
  written : name ≠ ""
  comma : ',' ∉ name.toList
  dashes : name.toList.IsChain Beside

theorem WholeName.unparted {name : String} (h : WholeName name) : Unparted name.toList := by
  obtain ⟨written, first, last⟩ := ends_of_trimmed ⟨h.trimmed, h.written⟩
  exact ⟨written, first, last, h.comma, h.dashes⟩

/-- Names that are written one after another are read back, unless they are two that are numbered
alike. -/
theorem readNames_joinWith {gap : String} {names : List String} (parts : Parts gap.toList)
    (whole : ∀ name ∈ names, WholeName name)
    (other : ∀ first last, names = [first, last] → ¬ NumberedAlike first.toList last.toList) :
    readNames (joinWith gap names) = .ok names := by
  have each : ∀ name ∈ names, Unparted name.toList := fun name member =>
    (whole name member).unparted
  by_cases some_ : names = []
  · subst some_
    rfl
  · have split : separator.split (joinWith gap names).toList = names.map String.toList := by
      rw [joinWith, String.toList_intercalate]
      exact split_intercalate parts (by simpa using some_) (by simpa using each)
    by_cases pair : names.length = 2
    · obtain ⟨first, last, rfl⟩ := List.length_eq_two.mp pair
      rw [readNames_of_pair split (each first (by simp)) (each last (by simp)),
        range?_eq_none (other first last rfl)]
      rfl
    · exact readNames_of_others split each pair

/-! ### Ranges -/

theorem numeralValue_toDigits (n : Nat) : numeralValue (Nat.toDigits 10 n) =
    if maxNumeralDigits < digitCount n then .error .numeralTooLong else .ok n := by
  have value : (Nat.toDigits 10 n).foldl (fun n c => 10 * n + (digitValue? c).getD 0) 0 = n := by
    refine Eq.trans ?_ (digitsValue_toDigits n)
    refine List.foldl_ext _ _ _ fun m c member => ?_
    rw [digitValue?_of_plain (isDigit_of_mem_toDigits member), Option.getD_some]
  rw [numeralValue, value, digitCount]

/-- What a numbered name may begin with: no blank at its head, no comma and no line end, no dash
next to a blank, and no digit at its end. -/
structure Stem (stem : String) : Prop where
  first : ∀ c ∈ stem.toList.head?, isBlank c = false
  comma : ',' ∉ stem.toList
  line : '\n' ∉ stem.toList
  dashes : stem.toList.IsChain Beside
  whole : ∀ c ∈ stem.toList.getLast?, isDigit c = false

/-- A stem and a number. -/
def numberedName (stem : String) (n : Nat) : String := stem ++ toString n

theorem beside_of_digit {c d : Char} (digit : d.isDigit) : Beside c d := by
  simp [Beside, isBlank_of_digit digit, isDash_of_digit digit]

theorem toList_numbered (stem : String) (n : Nat) :
    (numberedName stem n).toList = stem.toList ++ Nat.toDigits 10 n := by
  rw [numberedName, String.toList_append]
  exact congrArg _ Nat.toList_repr

namespace Stem

variable {stem : String}

theorem numbered (h : Stem stem) (n : Nat) :
    Numbered (numberedName stem n).toList stem.toList (Nat.toDigits 10 n) where
  split := toList_numbered stem n
  written := Nat.toDigits_ne_nil
  digit _ member := isDigit_of_plain (isDigit_of_mem_toDigits member)
  whole := h.whole

theorem unparted (h : Stem stem) (n : Nat) : Unparted (numberedName stem n).toList := by
  have digit : ∀ c ∈ Nat.toDigits 10 n, c.isDigit := fun _ => isDigit_of_mem_toDigits
  have digits : (Nat.toDigits 10 n).IsChain Beside :=
    (List.pairwise_of_forall_mem_list fun c _ d member => beside_of_digit (digit d member)).isChain
  rw [toList_numbered]
  refine ⟨by simp, ?_, ?_, ?_, ?_⟩
  · intro c first
    by_cases named : stem.toList = []
    · rw [named, List.nil_append] at first
      exact isBlank_of_digit (digit c (List.mem_of_head? first))
    · rw [List.head?_append_of_ne_nil _ named] at first
      exact h.first c first
  · intro c last
    rw [List.getLast?_append_of_ne_nil _ Nat.toDigits_ne_nil] at last
    exact isBlank_of_digit (digit c (List.mem_of_getLast? last))
  · intro comma
    rcases List.mem_append.mp comma with inStem | inNumber
    · exact h.comma inStem
    · exact absurd (digit ',' inNumber) (by decide)
  · exact List.isChain_append.mpr ⟨h.dashes, digits, fun c _ d first =>
      beside_of_digit (digit d (List.mem_of_head? first))⟩

/-- The names of a range: the stem and each number. -/
theorem map_range (h : Stem stem) (low count : Nat) :
    ((List.range count).map fun i =>
      String.ofList (trimChars (stem.toList ++ (toString (low + i)).toList))) =
      (List.Ico low (low + count)).map (numberedName stem) := by
  rw [List.Ico, Nat.add_sub_cancel_left, List.range'_eq_map_range, List.map_map]
  refine List.map_congr_left fun i _ => ?_
  have whole := h.unparted (low + i)
  have written : stem.toList ++ (toString (low + i)).toList =
      (numberedName stem (low + i)).toList := by
    rw [numberedName, String.toList_append]
  rw [written, trimChars, trimWhere_eq_self whole.first whole.last, String.ofList_toList]
  rfl

theorem range?_eq (h : Stem stem) (low high : Nat) :
    range? (numberedName stem low).toList (numberedName stem high).toList =
      if maxNumeralDigits < digitCount low ∨ maxNumeralDigits < digitCount high then
        .error .numeralTooLong
      else .ok (if low ≤ high ∧ high < low + maxRangeSpan then
        some ((List.Ico low (high + 1)).map (numberedName stem)) else none) := by
  have line : stem.toList.contains '\n' = false := by simpa using h.line
  rw [range?, numbered?_eq (h.numbered low), numbered?_eq (h.numbered high), line]
  simp only [Bool.false_eq_true, if_false, if_true, numeralValue_toDigits]
  by_cases long : maxNumeralDigits < digitCount low
  · rw [if_pos long, if_pos (Or.inl long)]
    rfl
  · by_cases long' : maxNumeralDigits < digitCount high
    · rw [if_neg long, if_pos long', if_pos (Or.inr long')]
      rfl
    · rw [if_neg long, if_neg long', if_neg (not_or.mpr ⟨long, long'⟩)]
      change (if low ≤ high ∧ high - low < maxRangeSpan then
        Except.ok (some ((List.range (high - low + 1)).map fun i =>
          String.ofList (trimChars (stem.toList ++ (toString (low + i)).toList))))
        else Except.ok none) = _
      by_cases within : low ≤ high ∧ high < low + maxRangeSpan
      · have last : low + (high - low + 1) = high + 1 := by omega
        rw [if_pos within, if_pos ⟨within.1, by omega⟩, h.map_range, last]
      · rw [if_neg within, if_neg (by omega)]

/-- What is read of two numbered names with one stem. -/
theorem readNames_eq (h : Stem stem) {gap : String} (parts : Parts gap.toList) (low high : Nat) :
    readNames (numberedName stem low ++ gap ++ numberedName stem high) =
      if maxNumeralDigits < digitCount low ∨ maxNumeralDigits < digitCount high then
        .error .numeralTooLong
      else .ok (if low ≤ high ∧ high < low + maxRangeSpan then
        (List.Ico low (high + 1)).map (numberedName stem)
        else [numberedName stem low, numberedName stem high]) := by
  have written : (numberedName stem low ++ gap ++ numberedName stem high).toList =
      gap.toList.intercalate [(numberedName stem low).toList, (numberedName stem high).toList] := by
    rw [List.intercalate_cons_cons, List.intercalate_singleton, String.toList_append,
      String.toList_append]
  have split : separator.split (numberedName stem low ++ gap ++ numberedName stem high).toList =
      [(numberedName stem low).toList, (numberedName stem high).toList] := by
    rw [written]
    refine split_intercalate parts (List.cons_ne_nil _ _) fun cs member => ?_
    rcases List.mem_pair.mp member with rfl | rfl
    · exact h.unparted low
    · exact h.unparted high
  rw [readNames_of_pair split (h.unparted low) (h.unparted high), h.range?_eq]
  split_ifs <;> rfl

end Stem

/-! ### What is read is read again -/

/-- A name as it is kept: written, and without blanks around it. -/
def Kept (name : String) : Prop := trim name = name ∧ name ≠ ""

theorem cleanNames_eq_self {names : List String} (kept : ∀ name ∈ names, Kept name) :
    cleanNames names = names := by
  rw [cleanNames, List.map_congr_left fun name member => (kept name member).1, List.map_id',
    List.filter_eq_self]
  exact fun name member => by simpa using (kept name member).2

theorem kept_of_mem_cleanNames {names : List String} {name : String}
    (member : name ∈ cleanNames names) : Kept name := by
  rw [cleanNames, List.mem_filter] at member
  obtain ⟨there, written⟩ := member
  obtain ⟨raw, -, rfl⟩ := List.mem_map.mp there
  exact ⟨trim_trim raw, by simpa using written⟩

theorem kept_ofList_trimChars {cs : List Char} (written : trimChars cs ≠ []) :
    Kept (String.ofList (trimChars cs)) := by
  refine ⟨?_, by simpa using written⟩
  rw [trim, String.toList_ofList]
  exact congrArg String.ofList trimWhere_trimWhere

theorem kept_of_range? {first last : List Char} {names : List String} {name : String}
    (found : range? first last = .ok (some names)) (member : name ∈ names) : Kept name := by
  unfold range? at found
  split at found
  · next stem digits _ digits' _ _ =>
      split at found
      · obtain ⟨low, _, found⟩ := exists_of_bind_eq_ok found
        obtain ⟨high, _, found⟩ := exists_of_bind_eq_ok found
        split at found
        · cases found
          obtain ⟨i, _, rfl⟩ := List.mem_map.mp member
          have some_ : Nat.toDigits 10 (low + i) ≠ [] := Nat.toDigits_ne_nil
          obtain ⟨c, digit⟩ := List.exists_mem_of_ne_nil _ some_
          have solid := isBlank_of_digit (isDigit_of_mem_toDigits digit)
          have there : c ∈ stem ++ (toString (low + i)).toList :=
            List.mem_append_right stem ((congrArg (c ∈ ·) Nat.toList_repr).mpr digit)
          exact kept_ofList_trimChars (trimWhere_ne_nil there solid)
        · cases found
      · cases found
  · cases found

theorem kept_of_readNames {text : String} {names : List String} {name : String}
    (found : readNames text = .ok names) (member : name ∈ names) : Kept name := by
  have each : ∀ cs ∈ ((separator.split text.toList).map trimChars).filter (!·.isEmpty),
      Kept (String.ofList cs) := by
    intro cs there
    rw [List.mem_filter] at there
    obtain ⟨there, written⟩ := there
    obtain ⟨raw, -, rfl⟩ := List.mem_map.mp there
    exact kept_ofList_trimChars (by simpa using written)
  unfold readNames at found
  dsimp only at found
  generalize ((separator.split text.toList).map trimChars).filter (!·.isEmpty) = parts at each found
  have plain : ∀ name ∈ parts.map String.ofList, Kept name := by simpa using each
  split at found
  · obtain ⟨range, read, found⟩ := exists_of_bind_eq_ok found
    cases found
    cases range with
    | none => exact plain name member
    | some names => exact kept_of_range? read member
  · cases found
    exact plain name member

end Ladder

/-- What a value describes is described by the list of just these names too. -/
theorem tierNames_textsJson {names : List String} (kept : ∀ name ∈ names, Ladder.Kept name) :
    tierNames (textsJson names) = .ok names := by
  have short : (names.map Json.str).any Json.hasEndlessInteger = false := by
    simp [Json.hasEndlessInteger]
  have texts : (names.map Json.str).map (fun j => j.settled.text) = names := by
    simp [Function.comp_def, Json.settled, Json.text]
  simp only [tierNames, textsJson, short, texts, Ladder.cleanNames_eq_self kept]
  rfl

theorem kept_of_tierNames {j : Json} {names : List String} {name : String}
    (found : tierNames j = .ok names) (member : name ∈ names) : Ladder.Kept name := by
  unfold tierNames at found
  split at found
  · cases found
    cases member
  · split at found
    · cases found
    · cases found
      exact Ladder.kept_of_mem_cleanNames member
  · exact Ladder.kept_of_readNames found member
  · cases found

namespace Ladder

/-- **Descriptions of a ladder are read back.** Names that no separator parts are read as they are
written one after another, unless they are two that are numbered alike. Two numbers behind one stem
are read as the names of the range from one to the other, or as the two names where the second
number is lower or too far off, or not at all where a number has more digits than a numeral may
have. And what is read of a value is read again of the list of its names. -/
theorem names_read_back {gap : String} (separates : gap ∈ [" - ", ", "]) :
    (∀ names : List String, (∀ name ∈ names, WholeName name) →
      (∀ first last, names = [first, last] → ¬ NumberedAlike first.toList last.toList) →
      tierNames (.str (joinWith gap names)) = .ok names) ∧
    (∀ stem, Stem stem → ∀ low high : Nat,
      tierNames (.str (numberedName stem low ++ gap ++ numberedName stem high)) =
        if maxNumeralDigits < digitCount low ∨ maxNumeralDigits < digitCount high then
          .error .numeralTooLong
        else .ok (if low ≤ high ∧ high < low + 100 then
          (List.Ico low (high + 1)).map (numberedName stem)
          else [numberedName stem low, numberedName stem high])) ∧
    ∀ j names, tierNames j = .ok names → tierNames (textsJson names) = .ok names := by
  have parts := parts_of_mem separates
  refine ⟨fun names whole other => ?_, fun stem plain low high => ?_, fun j names found => ?_⟩
  · exact readNames_joinWith parts whole other
  · exact plain.readNames_eq parts low high
  · exact tierNames_textsJson fun name member => kept_of_tierNames found member

/-- Two names with the number at the end and a dash in them, and a range of three names. -/
theorem names_read_back_hyphens :
    let names := ["Layer-1", "Stage–9"]
    (∀ name ∈ names, WholeName name) ∧ ¬ NumberedAlike "Layer-1".toList "Stage–9".toList ∧
      " - " ∈ [" - ", ", "] ∧ tierNames (.str "Layer-1 - Stage–9") = .ok names ∧
      Stem "Layer " ∧
      tierNames (.str "Layer 9 - Layer 11") = .ok ["Layer 9", "Layer 10", "Layer 11"] ∧
      tierNames (textsJson ["Layer 9", "Layer 10", "Layer 11"]) =
        .ok ["Layer 9", "Layer 10", "Layer 11"] := by
  intro names
  have whole : ∀ name ∈ names, WholeName name := by
    intro name member
    rcases List.mem_pair.mp member with rfl | rfl <;> constructor <;> decide +kernel
  have other : ¬ NumberedAlike "Layer-1".toList "Stage–9".toList := by
    rintro ⟨_, _, _, _, first, last, same⟩
    rw [← first.eq.2, ← last.eq.2] at same
    exact absurd same (by decide +kernel)
  have separates : " - " ∈ [" - ", ", "] := List.mem_cons_self
  obtain ⟨joined, ranged, again⟩ := names_read_back separates
  have both : tierNames (.str (joinWith " - " names)) = .ok names := by
    refine joined names whole fun first last pair => ?_
    change ["Layer-1", "Stage–9"] = [first, last] at pair
    cases pair
    exact other
  have stem : Stem "Layer " := by
    constructor <;> simp <;> decide +kernel
  have range := ranged "Layer " stem 9 11
  rw [if_neg (by decide +kernel), if_pos (by decide)] at range
  exact ⟨whole, other, separates, both, stem, range, again _ _ range⟩

/-- Not all pairs of numbered names that stand for no range are read as the two names: a number may
have more digits than a numeral. -/
theorem long_numerals_are_not_read :
    ¬ ∀ stem, Stem stem → ∀ low high : Nat, ¬ (low ≤ high ∧ high < low + 100) →
      tierNames (.str (numberedName stem low ++ " - " ++ numberedName stem high)) =
        .ok [numberedName stem low, numberedName stem high] := by
  intro all
  have stem : Stem "" := by
    constructor <;> simp
  have long : maxNumeralDigits < digitCount (10 ^ maxNumeralDigits) := by
    refine Nat.lt_of_not_le fun short => ?_
    exact absurd ((Nat.length_toDigits_le_iff (by decide) (by decide)).mp short) (Nat.lt_irrefl _)
  have far : 10 ^ 3 ≤ 10 ^ maxNumeralDigits := Nat.pow_le_pow_right (by decide) (by decide)
  have read := all "" stem 1 (10 ^ maxNumeralDigits) (by omega)
  have refused := stem.readNames_eq parts_dash 1 (10 ^ maxNumeralDigits)
  rw [if_pos (Or.inr long)] at refused
  cases refused.symm.trans read

end Ladder
end Ascent
