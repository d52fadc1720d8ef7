import Ascent.Proofs.Numerals

/-!
What is written in the notation of structured values is read back as it was.

A value reads back where each of its leaves does: integers must not have too many digits, numbers
must be finite, and there is no notation for moments. What is known of the reader is stated with the
text that follows, by induction on the value; the budget of steps that it needs is bounded by the
length of the text.

Main exports: `Json.leaves`, `Json.Every`, `Json.Legible`, `Json.ofText?_spread`.
-/

namespace Ascent.Json

open Text

/-! ### Texts -/

/-- The character of its own code unit is a character outside the surrogates. -/
theorem toNat_not_surrogate (c : Char) : ¬ (0xD800 ≤ c.toNat ∧ c.toNat < 0xE000) := by
  have valid : c.toNat < 0xD800 ∨ (0xDFFF < c.toNat ∧ c.toNat < 0x110000) := c.valid
  omega

theorem joinUnits_toNat (cs : List Char) : joinUnits (cs.map Char.toNat) = some cs := by
  induction cs with
  | nil => rfl
  | cons c rest ih =>
      have first := toNat_not_surrogate c
      cases rest with
      | nil => simp [joinUnits, first]
      | cons d rest =>
          have high : ¬ (0xD800 ≤ c.toNat ∧ c.toNat < 0xDC00) := by omega
          have low : ¬ (0xDC00 ≤ c.toNat ∧ c.toNat < 0xE000) := by omega
          rw [List.map_cons] at ih
          simp [joinUnits, high, low, ih]

theorem hex_control {n : Nat} (small : n < 32) :
    ∃ a b, hex 4 n = ['0', '0', a, b] ∧ hexValue? a = some (n / 16) ∧
      hexValue? b = some (n % 16) := by
  have each : ∀ n < 32, hex 4 n = ['0', '0', (hex 4 n).getD 2 '0', (hex 4 n).getD 3 '0'] ∧
      hexValue? ((hex 4 n).getD 2 '0') = some (n / 16) ∧
      hexValue? ((hex 4 n).getD 3 '0') = some (n % 16) := by
    decide
  exact ⟨_, _, each n small⟩

theorem eq_ofNat_of_toNat {c : Char} {n : Nat} (h : c.toNat = n) : c = Char.ofNat n := by
  rw [← h, Char.ofNat_toNat]

/-- A written character is read as its code. -/
theorem readUnits_writeChar (c : Char) (rest : List Char) :
    readUnits (writeChar c ++ rest) =
      (readUnits rest).map fun (units, rest) => (c.toNat :: units, rest) := by
  have bind (n : Nat) : ((readUnits rest).bind fun (units, rest) => some (n :: units, rest)) =
      (readUnits rest).map fun (units, rest) => (n :: units, rest) := by
    cases readUnits rest <;> rfl
  unfold writeChar
  split
  · next quoted =>
      have quoted : c = '"' ∨ c = '\\' := by simpa using quoted
      rcases quoted with rfl | rfl <;> simp [readUnits, escape?, bind]
  split
  · next newline => subst newline; simp [readUnits, escape?, bind]
  split
  · next return_ => subst return_; simp [readUnits, escape?, bind]
  split
  · next tab => subst tab; simp [readUnits, escape?, bind]
  split
  · next back => rw [eq_ofNat_of_toNat back]; simp [readUnits, escape?, bind]
  split
  · next feed => rw [eq_ofNat_of_toNat feed]; simp [readUnits, escape?, bind]
  split
  · next small =>
      obtain ⟨a, b, digits, high, low⟩ := hex_control small
      have zero : hexValue? '0' = some 0 := rfl
      have value : c.toNat / 16 * 16 + c.toNat % 16 = c.toNat := Nat.div_add_mod' _ _
      simp [digits, readUnits, zero, high, low, value, bind]
  · next quoted _ _ _ _ _ large =>
      have quoted : c ≠ '"' ∧ c ≠ '\\' := by simpa using quoted
      simp [readUnits, quoted.1, quoted.2, large, bind]

theorem readUnits_flatMap (cs rest : List Char) :
    readUnits (cs.flatMap writeChar ++ '"' :: rest) = some (cs.map Char.toNat, rest) := by
  induction cs with
  | nil => simp [readUnits]
  | cons c tail ih =>
      rw [List.flatMap_cons, List.append_assoc, readUnits_writeChar, ih]
      rfl

/-- A text reads back after its opening quote. -/
theorem readString?_flatMap (s : String) (rest : List Char) :
    readString? (s.toList.flatMap writeChar ++ '"' :: rest) = some (s, rest) := by
  simp [readString?, readUnits_flatMap, joinUnits_toNat]

/-! ### Leaves -/

mutual

/-- The values in a value that hold no others. -/
def leaves : Json → List Json
  | .list items => leavesOfItems items
  | .object members => leavesOfMembers members
  | j => [j]

/-- The leaves of the items of a list. -/
def leavesOfItems : List Json → List Json
  | [] => []
  | j :: rest => leaves j ++ leavesOfItems rest

/-- The leaves of the members of an object. -/
def leavesOfMembers : List (String × Json) → List Json
  | [] => []
  | (_, j) :: rest => leaves j ++ leavesOfMembers rest

end

theorem leaves_list (items : List Json) : (list items).leaves = items.flatMap leaves := by
  show leavesOfItems items = _
  induction items with
  | nil => rfl
  | cons j rest ih => rw [leavesOfItems, ih, List.flatMap_cons]

theorem leaves_object (members : List (String × Json)) :
    (object members).leaves = members.flatMap fun m => m.2.leaves := by
  show leavesOfMembers members = _
  induction members with
  | nil => rfl
  | cons m rest ih => rw [leavesOfMembers, ih, List.flatMap_cons]

/-- A value whose leaves all satisfy `P`. -/
def Every (P : Json → Prop) (j : Json) : Prop := ∀ leaf ∈ j.leaves, P leaf

theorem every_list {P : Json → Prop} {items : List Json} :
    (list items).Every P ↔ ∀ j ∈ items, j.Every P := by
  simp only [Every, leaves_list, List.mem_flatMap]
  constructor
  · intro all j member leaf inside
    exact all leaf ⟨j, member, inside⟩
  · rintro each leaf ⟨j, member, inside⟩
    exact each j member leaf inside

theorem every_object {P : Json → Prop} {members : List (String × Json)} :
    (object members).Every P ↔ ∀ m ∈ members, m.2.Every P := by
  simp only [Every, leaves_object, List.mem_flatMap]
  constructor
  · intro all m member leaf inside
    exact all leaf ⟨m, member, inside⟩
  · rintro each leaf ⟨m, member, inside⟩
    exact each m member leaf inside

/-- Whether a leaf has a notation that reads back. -/
def ReadableLeaf : Json → Prop
  | .int n => (toString n).length ≤ maxIntegerDigits
  | .real x => x.isFinite
  | .moment _ => False
  | _ => True

/-- Every leaf reads back. -/
def Legible (j : Json) : Prop := j.Every ReadableLeaf

/-- Whether a value is written without brackets. -/
def isLeaf : Json → Bool
  | .list _ => false
  | .object _ => false
  | _ => true

theorem leaves_of_isLeaf {j : Json} (leaf : j.isLeaf) : j.leaves = [j] := by
  cases j <;> first | rfl | cases leaf

theorem readLeaf?_writeLeaf {j : Json} (leaf : j.isLeaf) (readable : j.ReadableLeaf)
    {rest : List Char} (ends : EndsNumeral rest) :
    readLeaf? (writeLeaf j ++ rest) = some (j, rest) := by
  cases j with
  | null => simp [writeLeaf, readLeaf?, dropStart?]
  | bool b => cases b <;> simp [writeLeaf, readLeaf?, dropStart?]
  | int n => exact readLeaf?_integer readable ends
  | real x =>
      have finite : x.isFinite := readable
      rw [writeLeaf, if_pos finite]
      exact readLeaf?_real finite ends
  | str s => simp [writeLeaf, writeString, readLeaf?, readString?_flatMap]
  | moment m => exact readable.elim
  | list items => cases leaf
  | object members => cases leaf

/-- The characters that a written value does not begin with. -/
def isOutside (c : Char) : Bool := isGap c || c = ']' || c = '\x7d'

theorem readLeaf?_first {cs : List Char} {result : Json × List Char}
    (h : readLeaf? cs = some result) :
    ∃ c rest, cs = c :: rest ∧ isOutside c = false ∧ c ≠ '[' ∧ c ≠ '\x7b' := by
  cases cs with
  | nil => simp [readLeaf?, readNumber?, takeDigits] at h
  | cons c rest =>
      have not (d : Char) (no : readLeaf? (d :: rest) = none) : c ≠ d := by
        rintro rfl
        simp [no] at h
      have space := not ' ' (by simp [readLeaf?, readNumber?, takeDigits])
      have tab := not '\t' (by simp [readLeaf?, readNumber?, takeDigits])
      have line := not '\n' (by simp [readLeaf?, readNumber?, takeDigits])
      have return_ := not '\r' (by simp [readLeaf?, readNumber?, takeDigits])
      have bracket := not ']' (by simp [readLeaf?, readNumber?, takeDigits])
      have brace := not '\x7d' (by simp [readLeaf?, readNumber?, takeDigits])
      refine ⟨c, rest, rfl, ?_, ?_, ?_⟩
      · simp [isOutside, isGap, space, tab, line, return_, bracket, brace]
      · exact not '[' (by simp [readLeaf?, readNumber?, takeDigits])
      · exact not '\x7b' (by simp [readLeaf?, readNumber?, takeDigits])

theorem readValue?_of_leaf {cs : List Char} {result : Json × List Char} (steps depth : Nat)
    (h : readLeaf? cs = some result) : readValue? (steps + 1) depth cs = some result := by
  obtain ⟨c, rest, rfl, -, bracket, brace⟩ := readLeaf?_first h
  simp [readValue?, bracket, brace, h]

/-! ### Gaps -/

theorem skipGap_lead (l : Layout) (cs : List Char) : skipGap (l.lead ++ cs) = skipGap cs := by
  have blanks (count : Nat) : skipGap (List.replicate count ' ' ++ cs) = skipGap cs := by
    induction count with
    | zero => rfl
    | succ count ih =>
        rw [List.replicate_succ, ← ih]
        rfl
  unfold Layout.lead
  split
  · exact blanks (2 * l.depth)
  · rfl

theorem skipGap_of_not {c : Char} (rest : List Char) (solid : isGap c = false) :
    skipGap (c :: rest) = c :: rest := by
  simp [skipGap, solid]

theorem writeChars_of_isLeaf (l : Layout) {j : Json} (leaf : j.isLeaf) :
    writeChars l j = writeLeaf j := by
  cases j <;> first | rfl | cases leaf

theorem writeChars_first (l : Layout) {j : Json} (legible : j.Legible) :
    ∃ c rest, writeChars l j = c :: rest ∧ isOutside c = false := by
  by_cases leaf : j.isLeaf
  · have ends : EndsNumeral [] := by simp [EndsNumeral]
    have reads := readLeaf?_writeLeaf leaf (legible j (by simp [leaves_of_isLeaf leaf])) ends
    obtain ⟨c, rest, first, outside, -, -⟩ := readLeaf?_first reads
    rw [List.append_nil] at first
    exact ⟨c, rest, by rw [writeChars_of_isLeaf l leaf, first], outside⟩
  · cases j with
    | list items => cases items <;> exact ⟨'[', _, rfl, rfl⟩
    | object members => cases members <;> exact ⟨'\x7b', _, rfl, rfl⟩
    | _ => exact absurd rfl leaf

/-! ### Values -/

theorem endsNumeral_close (l : Layout) {c : Char} (rest : List Char)
    (close : c = ']' ∨ c = '\x7d') : EndsNumeral (l.lead ++ c :: rest) := by
  unfold EndsNumeral Layout.lead
  rcases close with rfl | rfl <;> split <;> simp

theorem endsNumeral_items (inner l : Layout) (items : List Json) (rest : List Char) :
    EndsNumeral (writeItems inner items ++ (l.lead ++ ']' :: rest)) := by
  cases items with
  | nil => exact endsNumeral_close l rest (.inl rfl)
  | cons j items => simp [writeItems, EndsNumeral]

theorem endsNumeral_members (inner l : Layout) (members : List (String × Json))
    (rest : List Char) :
    EndsNumeral (writeMembers inner members ++ (l.lead ++ '\x7d' :: rest)) := by
  cases members with
  | nil => exact endsNumeral_close l rest (.inr rfl)
  | cons m members => simp [writeMembers, EndsNumeral]

theorem skipGap_writeChars (l : Layout) {j : Json} (legible : j.Legible) (rest : List Char) :
    skipGap (writeChars l j ++ rest) = writeChars l j ++ rest := by
  obtain ⟨c, tail, first, outside⟩ := writeChars_first l legible
  have solid : isGap c = false := by
    unfold isOutside at outside
    simp_all
  rw [first]
  exact skipGap_of_not _ solid

theorem skipGap_colon (l : Layout) (rest : List Char) :
    ∃ gap, l.colon ++ rest = ':' :: gap ∧ skipGap gap = skipGap rest := by
  unfold Layout.colon
  split
  · exact ⟨' ' :: rest, rfl, rfl⟩
  · exact ⟨rest, rfl, rfl⟩

/-- A value reads back wherever it stands, within a budget of two steps for each character. -/
def ReadsBack (j : Json) : Prop :=
  ∀ (l : Layout) (steps depth : Nat) (rest : List Char), j.fits depth → EndsNumeral rest →
    2 * (writeChars l j).length ≤ steps →
    readValue? steps depth (writeChars l j ++ rest) = some (j, rest)

theorem readItems?_writeItems (inner l : Layout) (j : Json) (items : List Json)
    {steps depth : Nat} (rest : List Char) (each : ∀ k ∈ j :: items, k.Legible ∧ k.ReadsBack)
    (fits : j.fits depth) (allFit : itemsFit depth items)
    (enough : 2 * (writeChars inner j ++ writeItems inner items).length + 1 ≤ steps) :
    readItems? steps depth
      (writeChars inner j ++ (writeItems inner items ++ (l.lead ++ ']' :: rest))) =
      some (j :: items, rest) := by
  induction items generalizing j steps with
  | nil =>
      rw [List.length_append] at enough
      obtain ⟨steps, rfl⟩ : ∃ k, steps = k + 1 := ⟨steps - 1, by omega⟩
      have first := (each j List.mem_cons_self).2 inner steps depth _ fits
        (endsNumeral_items inner l [] rest) (by omega)
      have bracket : skipGap (']' :: rest) = ']' :: rest := skipGap_of_not rest rfl
      rw [readItems?, first]
      simp [writeItems, skipGap_lead, bracket]
  | cons k items ih =>
      rw [List.length_append] at enough
      obtain ⟨steps, rfl⟩ : ∃ k, steps = k + 1 := ⟨steps - 1, by omega⟩
      have first := (each j List.mem_cons_self).2 inner steps depth _ fits
        (endsNumeral_items inner l (k :: items) rest) (by omega)
      rw [itemsFit, Bool.and_eq_true] at allFit
      have later := @ih k steps (fun i h => each i (List.mem_cons_of_mem j h)) allFit.1 allFit.2
        (by
          rw [writeItems] at enough
          simp only [List.length_append, List.length_cons] at enough ⊢
          omega)
      have legible := (each k (by simp)).1
      have comma (cs : List Char) : skipGap (',' :: cs) = ',' :: cs := skipGap_of_not cs rfl
      rw [readItems?, first]
      simp [writeItems, comma, skipGap_lead, skipGap_writeChars inner legible, later]

theorem readMembers?_member (inner : Layout) (name : String) {j : Json} {steps depth : Nat}
    {after : List Char} (legible : j.Legible) (reads : j.ReadsBack) (fits : j.fits depth)
    (ends : EndsNumeral after) (enough : 2 * (writeChars inner j).length ≤ steps) :
    readMembers? (steps + 1) depth
        (writeString name ++ (inner.colon ++ (writeChars inner j ++ after))) =
      match skipGap after with
      | '\x7d' :: rest => some ([(name, j)], rest)
      | ',' :: rest => do
        let (members, rest) ← readMembers? steps depth (skipGap rest)
        some ((name, j) :: members, rest)
      | _ => none := by
  have value := reads inner steps depth after fits ends enough
  have colon (cs : List Char) : skipGap (':' :: cs) = ':' :: cs := skipGap_of_not cs rfl
  obtain ⟨gap, written, skipped⟩ := skipGap_colon inner (writeChars inner j ++ after)
  rw [skipGap_writeChars inner legible] at skipped
  rw [written]
  simp [writeString, readMembers?, readString?_flatMap, colon, skipped, value]
  -- What may be left are the same cases under two names.
  all_goals rfl

theorem readMembers?_writeMembers (inner l : Layout) (name : String) (j : Json)
    (members : List (String × Json)) {steps depth : Nat} (rest : List Char)
    (each : ∀ m ∈ (name, j) :: members, m.2.Legible ∧ m.2.ReadsBack)
    (fits : j.fits depth) (allFit : membersFit depth members)
    (enough : 2 * (writeChars inner j ++ writeMembers inner members).length + 1 ≤ steps) :
    readMembers? steps depth
      (writeString name ++ (inner.colon ++ (writeChars inner j ++
        (writeMembers inner members ++ (l.lead ++ '\x7d' :: rest))))) =
      some ((name, j) :: members, rest) := by
  induction members generalizing name j steps with
  | nil =>
      rw [List.length_append] at enough
      obtain ⟨steps, rfl⟩ : ∃ k, steps = k + 1 := ⟨steps - 1, by omega⟩
      obtain ⟨legible, reads⟩ : j.Legible ∧ j.ReadsBack := each (name, j) List.mem_cons_self
      have brace : skipGap ('\x7d' :: rest) = '\x7d' :: rest := skipGap_of_not rest rfl
      rw [readMembers?_member inner name legible reads fits (endsNumeral_members inner l [] rest)
        (by omega)]
      simp [writeMembers, skipGap_lead, brace]
  | cons m members ih =>
      obtain ⟨next, k⟩ := m
      rw [List.length_append] at enough
      obtain ⟨steps, rfl⟩ : ∃ k, steps = k + 1 := ⟨steps - 1, by omega⟩
      obtain ⟨legible, reads⟩ : j.Legible ∧ j.ReadsBack := each (name, j) List.mem_cons_self
      rw [membersFit, Bool.and_eq_true] at allFit
      have later := @ih next k steps (fun i h => each i (List.mem_cons_of_mem _ h))
        allFit.1 allFit.2 (by
          rw [writeMembers] at enough
          simp only [List.length_append, List.length_cons] at enough ⊢
          omega)
      have comma (cs : List Char) : skipGap (',' :: cs) = ',' :: cs := skipGap_of_not cs rfl
      have quote (cs : List Char) : skipGap (writeString next ++ cs) = writeString next ++ cs :=
        skipGap_of_not _ rfl
      rw [readMembers?_member inner name legible reads fits
        (endsNumeral_members inner l ((next, k) :: members) rest) (by omega)]
      simp [writeMembers, comma, skipGap_lead, quote, later]

theorem readsBack_leaf {j : Json} (leaf : j.isLeaf) (legible : j.Legible) : j.ReadsBack := by
  intro l steps depth rest fits ends enough
  have reads := readLeaf?_writeLeaf leaf (legible j (by simp [leaves_of_isLeaf leaf])) ends
  obtain ⟨c, tail, first, -⟩ := writeChars_first l legible
  obtain ⟨steps, rfl⟩ : ∃ k, steps = k + 1 := by
    rw [first, List.length_cons] at enough
    exact ⟨steps - 1, by omega⟩
  rw [writeChars_of_isLeaf l leaf]
  exact readValue?_of_leaf steps depth reads

theorem readsBack_list {items : List Json} (each : ∀ k ∈ items, k.Legible ∧ k.ReadsBack) :
    (list items).ReadsBack := by
  intro l steps depth rest fits ends enough
  obtain ⟨steps, rfl⟩ : ∃ k, steps = k + 1 := by
    cases items <;> simp only [writeChars, List.length_append, List.length_cons] at enough <;>
      exact ⟨steps - 1, by omega⟩
  cases items with
  | nil => simp [writeChars, readValue?, skipGap, isGap]
  | cons j items =>
      have legible := (each j List.mem_cons_self).1
      obtain ⟨c, tail, first, outside⟩ := writeChars_first l.inner legible
      have bracket : c ≠ ']' := by
        rintro rfl
        cases outside
      simp only [Json.fits, Bool.and_eq_true, decide_eq_true_eq, itemsFit] at fits
      have inside := @readItems?_writeItems l.inner l j items steps (depth - 1) rest each
        fits.2.1 fits.2.2 (by
          simp only [writeChars, List.length_append, List.length_cons] at enough ⊢
          omega)
      have skipped := skipGap_writeChars l.inner legible
        (writeItems l.inner items ++ (l.lead ++ ']' :: rest))
      rw [first] at inside skipped
      simp only [List.cons_append] at inside skipped
      simp [writeChars, first, readValue?, skipGap_lead, skipped, bracket, fits.1, inside]

theorem readsBack_object {members : List (String × Json)}
    (each : ∀ m ∈ members, m.2.Legible ∧ m.2.ReadsBack) : (object members).ReadsBack := by
  intro l steps depth rest fits ends enough
  obtain ⟨steps, rfl⟩ : ∃ k, steps = k + 1 := by
    cases members <;> simp only [writeChars, List.length_append, List.length_cons] at enough <;>
      exact ⟨steps - 1, by omega⟩
  cases members with
  | nil => simp [writeChars, readValue?, skipGap, isGap]
  | cons m members =>
      obtain ⟨name, j⟩ := m
      simp only [Json.fits, Bool.and_eq_true, decide_eq_true_eq, membersFit] at fits
      have inside := @readMembers?_writeMembers l.inner l name j members steps (depth - 1) rest
        each fits.2.1 fits.2.2 (by
          simp only [writeChars, List.length_append, List.length_cons] at enough ⊢
          omega)
      have quote (cs : List Char) : skipGap ('"' :: cs) = '"' :: cs := skipGap_of_not cs rfl
      have colon : l.inner.colon = l.colon := rfl
      rw [writeString] at inside
      simp only [List.cons_append, List.append_assoc, List.nil_append, colon] at inside
      simp [writeChars, writeString, readValue?, skipGap_lead, quote, fits.1, inside]

/-- Every legible value reads back. -/
theorem readsBack_of_legible : ∀ j : Json, j.Legible → j.ReadsBack
  | .null, legible => readsBack_leaf rfl legible
  | .bool _, legible => readsBack_leaf rfl legible
  | .int _, legible => readsBack_leaf rfl legible
  | .real _, legible => readsBack_leaf rfl legible
  | .str _, legible => readsBack_leaf rfl legible
  | .moment _, legible => readsBack_leaf rfl legible
  | .list items, legible => readsBack_list fun k member =>
      ⟨every_list.mp legible k member,
        readsBack_of_legible k (every_list.mp legible k member)⟩
  | .object members, legible => readsBack_object fun m member =>
      ⟨every_object.mp legible m member,
        readsBack_of_legible m.2 (every_object.mp legible m member)⟩
termination_by j => sizeOf j
decreasing_by
  · have := List.sizeOf_lt_of_mem member
    simp
    omega
  · have := List.sizeOf_lt_of_mem member
    obtain ⟨name, k⟩ := m
    simp at this ⊢
    omega

/-- A legible value that is not nested too deep is what its text stands for. -/
theorem ofNestedText?_writeChars (l : Layout) {depth : Nat} {j : Json} (legible : j.Legible)
    (fits : j.fits depth) : ofNestedText? depth (String.ofList (writeChars l j)) = some j := by
  have start : skipGap (writeChars l j) = writeChars l j := by
    simpa using skipGap_writeChars l legible []
  have reads := readsBack_of_legible j legible l (2 * (writeChars l j).length + 2) depth [] fits
    (by simp [EndsNumeral]) (by omega)
  rw [List.append_nil] at reads
  have none : skipGap [] = [] := rfl
  simp [ofNestedText?, start, reads, none]

theorem ofText?_spread {j : Json} (legible : j.Legible) (fits : j.fits maxDepth) :
    ofText? j.spread = some j :=
  ofNestedText?_writeChars ⟨true, 0⟩ legible fits

end Ascent.Json
