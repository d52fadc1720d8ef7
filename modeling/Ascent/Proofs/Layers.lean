import Ascent.Proofs.Digits
import Ascent.Proofs.Labels
import Ascent.Proofs.Wording
import Mathlib.Order.Bounds.Basic

/-!
Labels of layers beyond the ladder.

The minor tiers of a ladder may be numbered layers. A numeral begins with those of its first digits,
so a layer with a number beyond the last one may still begin with the name of a layer on the ladder,
and is then taken for the last of these. It is unknown only if its very first digit is beyond the
ladder.

Main exports: `Ladder.layers`, `Ladder.minorOf?_layers`, `Ladder.Own`,
`Ladder.beyond_read_by_first_digits`.
-/

namespace Ascent

open Text

/-! ### Layers -/

/-- A layer's name once it is folded. -/
def layerChars (k : Nat) : List Char := ['l', 'a', 'y', 'e', 'r', ' '] ++ Nat.toDigits 10 k

theorem foldChars_layer (k : Nat) :
    foldChars ("Layer ".toList ++ Nat.toDigits 10 k) = layerChars k := by
  have word : foldChars "Layer ".toList = ['l', 'a', 'y', 'e', 'r', ' '] := by decide +kernel
  rw [foldChars_append, word, foldChars_toDigits, layerChars]

theorem layerChars_prefix_iff {j k : Nat} (pos : 0 < j) :
    layerChars j <+: layerChars k ↔ Heads j k := by
  rw [layerChars, layerChars, List.prefix_append_right_inj, toDigits_prefix_iff pos]

theorem length_layerChars (k : Nat) :
    (layerChars k).length = 6 + (Nat.toDigits 10 k).length := by
  rw [layerChars, List.length_append]
  rfl

namespace Ladder

/-- Numbered layers, from the first to the last one. -/
def layers (n : Nat) : List String := (List.range n).map fun i => s!"Layer {i + 1}"

theorem standard_minors : standard.minors = layers 9 := rfl

variable {n k i j : Nat} {name : String}

theorem toList_layer (j : Nat) : (s!"Layer {j}").toList = "Layer ".toList ++ Nat.toDigits 10 j := by
  simp [toString, Nat.toList_repr]

theorem foldChars_toList_layer (j : Nat) : foldChars (s!"Layer {j}").toList = layerChars j := by
  rw [toList_layer, foldChars_layer]

theorem getElem?_layers_iff : (layers n)[i]? = some name ↔ i < n ∧ name = s!"Layer {i + 1}" := by
  rw [layers, List.getElem?_map, Option.map_eq_some_iff]
  constructor
  · rintro ⟨place, there, rfl⟩
    obtain ⟨bound, rfl⟩ := List.getElem?_eq_some_iff.mp there
    rw [List.getElem_range]
    exact ⟨by simpa using bound, rfl⟩
  · rintro ⟨bound, rfl⟩
    exact ⟨i, by simp [bound], rfl⟩

theorem mem_layers_iff : name ∈ layers n ↔ ∃ j, 0 < j ∧ j ≤ n ∧ name = s!"Layer {j}" := by
  rw [List.mem_iff_getElem?]
  constructor
  · rintro ⟨i, there⟩
    obtain ⟨bound, rfl⟩ := getElem?_layers_iff.mp there
    exact ⟨i + 1, Nat.succ_pos i, bound, rfl⟩
  · rintro ⟨j, pos, bound, rfl⟩
    obtain ⟨i, rfl⟩ := Nat.exists_eq_succ_of_ne_zero pos.ne'
    exact ⟨i, getElem?_layers_iff.mpr ⟨bound, rfl⟩⟩

/-- A layer beyond the ladder is taken for the last one whose number its own begins with. -/
theorem minorOf?_layers (beyond : n < k) :
    match minorOf? (layers n) (layerChars k) with
    | some i => IsGreatest {j | 0 < j ∧ j ≤ n ∧ Heads j k} (i + 1)
    | none => ∀ j, 0 < j → j ≤ n → ¬ Heads j k := by
  have exact_ : (layers n).findIdx? (fun name => foldChars name.toList = layerChars k) = none := by
    rw [List.findIdx?_eq_none_iff]
    intro name member
    obtain ⟨j, pos, bound, rfl⟩ := mem_layers_iff.mp member
    rw [foldChars_toList_layer, decide_eq_false_iff_not, layerChars, layerChars,
      List.append_cancel_left_eq]
    intro same
    have := toDigits_injective same
    omega
  have fits (j : Nat) (pos : 0 < j) :
      foldChars (s!"Layer {j}").toList <+: layerChars k ↔ Heads j k := by
    rw [foldChars_toList_layer, layerChars_prefix_iff pos]
  rw [minorOf?, if_neg (by simp [layerChars]), exact_]
  cases search : longest? (layers n) (layerChars k) with
  | none =>
      intro j pos bound heads
      exact longest?_eq_none_iff.mp search _ (mem_layers_iff.mpr ⟨j, pos, bound, rfl⟩)
        ((fits j pos).mpr heads)
  | some found =>
      obtain ⟨name, longest, -⟩ := longest?_eq_some_iff.mp search
      obtain ⟨bound, rfl⟩ := getElem?_layers_iff.mp longest.there
      have heads := (fits _ (Nat.succ_pos _)).mp longest.fits
      change IsGreatest {j | 0 < j ∧ j ≤ n ∧ Heads j k} (found.1 + 1)
      refine ⟨⟨Nat.succ_pos _, bound, heads⟩, fun j within => ?_⟩
      obtain ⟨pos, bound', heads'⟩ := within
      have short := longest.longest _ (mem_layers_iff.mpr ⟨j, pos, bound', rfl⟩)
        ((fits j pos).mpr heads')
      rw [foldChars_toList_layer, foldChars_toList_layer, length_layerChars,
        length_layerChars] at short
      exact heads'.le_of_length_le pos (Nat.succ_pos _) heads (by omega)

/-! ### Labels of layers -/

/-- The label of a numbered layer of a major tier. -/
def layerLabel (major : String) (k : Nat) : String := s!"{major} Layer {k}"

/-- The major tier at a place is the one that its own name stands for. -/
structure Own (ladder : Ladder) (i : Nat) (major : String) : Prop where
  there : ladder.majors[i]? = some major
  known : (ladder.resolve major).known = true
  itself : (ladder.resolve major).major = i

/-- No name of a major tier that is longer begins the label. -/
def Leads (ladder : Ladder) (major label : String) : Prop :=
  ∀ name ∈ ladder.majors, (fold name).toList <+: (fold (trim label)).toList →
    (fold name).length ≤ (fold major).length

variable {ladder : Ladder} {major : String}

theorem Own.longest (h : ladder.Own i major) :
    Longest ladder.majors (foldChars (trimChars major.toList)) i major := by
  have known := h.known
  have itself := h.itself
  unfold resolve at known itself
  dsimp only at known itself
  cases search : longest? ladder.majors (foldChars (trimChars major.toList)) with
  | none =>
      rw [search] at known
      cases known
  | some found =>
      obtain ⟨name, longest, -⟩ := longest?_eq_some_iff.mp search
      rw [search] at itself
      obtain rfl : found.1 = i := itself
      obtain rfl : name = major := Option.some.inj (longest.there.symm.trans h.there)
      exact longest

theorem length_le_length_foldChars (cs : List Char) : cs.length ≤ (foldChars cs).length := by
  induction cs with
  | nil => exact Nat.le_refl 0
  | cons c rest ih =>
      have some_ := List.length_pos_of_ne_nil (foldChar_ne_nil c)
      rw [foldChars, List.flatMap_cons, List.length_append, List.length_cons]
      rw [foldChars] at ih
      omega

/-- A name that stands for itself has no blanks around it: folded it would be longer than what is
looked up. -/
theorem Own.trimmed (h : ladder.Own i major) : trimChars major.toList = major.toList := by
  obtain ⟨before, after, split, -⟩ := exists_trimChars major.toList
  have short := h.longest.fits.length_le
  have none : before ++ after = [] := by
    have lengths := congrArg (fun cs => (foldChars cs).length) split
    have first := length_le_length_foldChars before
    have last := length_le_length_foldChars after
    simp only [foldChars_append, List.length_append] at lengths
    apply List.eq_nil_of_length_eq_zero
    rw [List.length_append]
    omega
  obtain ⟨rfl, rfl⟩ := List.append_eq_nil_iff.mp none
  simpa using split.symm

/-- The label folded: the major tier's name, a space unless the name is empty, and the layer's name.
-/
theorem Own.foldChars_label (h : ladder.Own i major) (k : Nat) :
    ∃ gap, (gap = [] ∨ gap = [' ']) ∧ foldChars (trimChars (layerLabel major k).toList) =
      foldChars major.toList ++ (gap ++ layerChars k) := by
  have written : (layerLabel major k).toList =
      major.toList ++ (' ' :: ("Layer ".toList ++ Nat.toDigits 10 k)) := by
    simp [layerLabel, toString, Nat.toList_repr]
  have first : ∀ c ∈ major.toList.head?, isBlank c = false := h.trimmed ▸ head?_trimWhere
  have last : ∀ c ∈ ("Layer ".toList ++ Nat.toDigits 10 k).getLast?, isBlank c = false := by
    intro c ending
    rw [List.getLast?_append_of_ne_nil _ Nat.toDigits_ne_nil] at ending
    exact isBlank_of_digit (isDigit_of_mem_toDigits (List.mem_of_getLast? ending))
  rw [written]
  by_cases named : major.toList = []
  · have lead : trimChars (' ' :: ("Layer ".toList ++ Nat.toDigits 10 k)) =
        trimChars ("Layer ".toList ++ Nat.toDigits 10 k) := rfl
    have trimmed : trimChars ("Layer ".toList ++ Nat.toDigits 10 k) =
        "Layer ".toList ++ Nat.toDigits 10 k := trimWhere_eq_self (by simp; decide) last
    refine ⟨[], .inl rfl, ?_⟩
    rw [named, List.nil_append, lead, trimmed, foldChars_layer]
    rfl
  · have trimmed : trimChars (major.toList ++ (' ' :: ("Layer ".toList ++ Nat.toDigits 10 k))) =
        major.toList ++ (' ' :: ("Layer ".toList ++ Nat.toDigits 10 k)) := by
      apply trimWhere_eq_self
      · rwa [List.head?_append_of_ne_nil _ named]
      · rwa [List.getLast?_append_of_ne_nil _ (List.cons_ne_nil _ _),
          List.getLast?_cons_of_ne_nil (by simp)]
    refine ⟨[' '], .inr rfl, ?_⟩
    rw [trimmed, foldChars_append, ← foldChars_layer]
    rfl

theorem trimWhere_gap_layerChars (k : Nat) {gap : List Char} (space : gap = [] ∨ gap = [' ']) :
    trimWhere isLabelGap (gap ++ layerChars k) = layerChars k := by
  have solid : trimWhere isLabelGap (layerChars k) = layerChars k := by
    apply trimWhere_eq_self
    · intro c first
      obtain rfl : 'l' = c := Option.some.inj first
      decide
    · intro c last
      rw [layerChars, List.getLast?_append_of_ne_nil _ Nat.toDigits_ne_nil] at last
      exact isLabelGap_of_digit (isDigit_of_mem_toDigits (List.mem_of_getLast? last))
  rcases space with rfl | rfl
  · exact solid
  · exact solid

theorem leads_iff {label : String} : ladder.Leads major label ↔
    ∀ name ∈ ladder.majors, foldChars name.toList <+: foldChars (trimChars label.toList) →
      (foldChars name.toList).length ≤ (foldChars major.toList).length := by
  simp only [Leads, fold, trim, String.toList_ofList, String.length_ofList]

/-- The name that a label is written with is the longest that it begins with, unless a longer one
does. -/
theorem Own.longest_label (h : ladder.Own i major) {label : String}
    (fits : foldChars major.toList <+: foldChars (trimChars label.toList))
    (leads : ladder.Leads major label) :
    Longest ladder.majors (foldChars (trimChars label.toList)) i major where
  there := h.there
  fits := fits
  longest := leads_iff.mp leads
  first j other there fitsToo before := by
    have short := leads_iff.mp leads other (List.mem_of_getElem? there) fitsToo
    -- a name as long would begin the major tier's name too
    refine lt_of_le_of_ne short fun size => ?_
    have same := (List.prefix_of_prefix_length_le fitsToo fits short).eq_of_length size
    have := h.longest.first j other there (by rw [same, h.trimmed]) before
    omega

/-- How the label of a layer is read: the major tier is the one it is written with, if no longer
name begins the label, and then the minor tier is looked up by the layer's name. -/
theorem Own.resolve_layer (h : ladder.Own i major) (k : Nat) :
    (ladder.resolve (layerLabel major k)).known = true ∧
    ((ladder.resolve (layerLabel major k)).major = i ↔ ladder.Leads major (layerLabel major k)) ∧
    (ladder.Leads major (layerLabel major k) →
      (ladder.resolve (layerLabel major k)).minor =
        (minorOf? ladder.minors (layerChars k)).getD 0 ∧
      (ladder.resolve (layerLabel major k)).minorKnown =
        (minorOf? ladder.minors (layerChars k)).isSome) := by
  obtain ⟨gap, space, folded⟩ := h.foldChars_label k
  have fits : foldChars major.toList <+: foldChars (trimChars (layerLabel major k).toList) :=
    folded ▸ List.prefix_append _ _
  have found (leads : ladder.Leads major (layerLabel major k)) :
      longest? ladder.majors (foldChars (trimChars (layerLabel major k).toList)) =
        some (i, (foldChars major.toList).length) :=
    longest?_eq_some_iff.mpr ⟨major, h.longest_label fits leads, rfl⟩
  obtain ⟨⟨place, size⟩, search⟩ : ∃ found,
      longest? ladder.majors (foldChars (trimChars (layerLabel major k).toList)) = some found := by
    refine Option.ne_none_iff_exists'.mp fun none => ?_
    exact longest?_eq_none_iff.mp none major (List.mem_of_getElem? h.there) fits
  have known : (ladder.resolve (layerLabel major k)).known = true := by
    simp only [resolve, search]
  have major_ : (ladder.resolve (layerLabel major k)).major = place := by
    simp only [resolve, search]
  refine ⟨known, ⟨fun here => ?_, fun leads => ?_⟩, fun leads => ?_⟩
  · obtain ⟨name, longest, -⟩ := longest?_eq_some_iff.mp search
    obtain rfl : place = i := major_.symm.trans here
    obtain rfl : name = major := Option.some.inj (longest.there.symm.trans h.there)
    exact leads_iff.mpr longest.longest
  · rw [found leads] at search
    cases search
    exact major_
  · have rest : trimWhere isLabelGap ((foldChars (trimChars (layerLabel major k).toList)).drop
        (foldChars major.toList).length) = layerChars k := by
      rw [folded, List.drop_left, trimWhere_gap_layerChars k space]
    simp only [resolve, found leads, rest, and_self]

/-- **A layer beyond the ladder is read by its first digits.** A label that is written with a major
tier's name is read as that tier's, unless a longer name begins it. Its layer is unknown, and stands
for the first one, exactly if already the first digit of its number is beyond the ladder; else it is
taken for the greatest layer of the ladder whose number its own begins with. -/
theorem beyond_read_by_first_digits (h : ladder.Own i major) (minors : ladder.minors = layers n)
    (beyond : n < k) :
    let rung := ladder.resolve (layerLabel major k)
    rung.known = true ∧ (rung.major = i ↔ ladder.Leads major (layerLabel major k)) ∧
    (ladder.Leads major (layerLabel major k) →
      (rung.minor = 0 ∧ rung.minorKnown = false ↔ n < k / 10 ^ Nat.log 10 k) ∧
      (rung.minorKnown = true →
        IsGreatest {j | 0 < j ∧ j ≤ n ∧ Heads j k} (rung.minor + 1))) := by
  intro rung
  obtain ⟨known, place, minor⟩ := h.resolve_layer k
  refine ⟨known, place, fun leads => ?_⟩
  obtain ⟨minorPlace, minorKnown⟩ := minor leads
  have taken := minorOf?_layers beyond
  rw [← not_heads_iff (Nat.zero_lt_of_lt beyond), minorPlace, minorKnown, minors]
  cases search : minorOf? (layers n) (layerChars k) with
  | none =>
      rw [search] at taken
      exact ⟨iff_of_true ⟨rfl, rfl⟩ taken, fun other => nomatch other⟩
  | some found =>
      rw [search] at taken
      obtain ⟨pos, bound, heads⟩ := taken.1
      exact ⟨iff_of_false (fun unknown => nomatch unknown.2)
        fun none => none (found + 1) pos bound heads, fun _ => taken⟩

/-- One major name begins the other, and the first two digits are still on the ladder. -/
theorem beyond_read_by_first_digits_twelve :
    let ladder : Ladder := ⟨["Core", "Core Formation"], layers 12⟩
    let rung := ladder.resolve "Core Formation Layer 125"
    ladder.Own 1 "Core Formation" ∧ 12 < 125 ∧ rung.major = 1 ∧
      IsGreatest {j | 0 < j ∧ j ≤ 12 ∧ Heads j 125} (rung.minor + 1) := by
  intro ladder rung
  have own : ladder.Own 1 "Core Formation" := by
    constructor <;> decide +kernel
  have leads : ladder.Leads "Core Formation" (layerLabel "Core Formation" 125) := by
    unfold Leads
    decide +kernel
  obtain ⟨-, place, layer⟩ := beyond_read_by_first_digits (n := 12) (k := 125) own rfl (by decide)
  exact ⟨own, by decide, place.mpr leads, (layer leads).2 (by decide +kernel)⟩

/-- Not every layer beyond the ladder is unknown: of nine layers, the ninety-fifth is taken for the
ninth one. -/
theorem not_unknown_beyond :
    ¬ ∀ (ladder : Ladder) (n k i : Nat) (major : String), 1 ≤ n → ladder.minors = layers n →
      ladder.Own i major → n < k →
      (ladder.resolve (layerLabel major k)).major = i ∧
      (ladder.resolve (layerLabel major k)).minor = 0 ∧
      (ladder.resolve (layerLabel major k)).minorKnown = false := by
  intro all
  have own : standard.Own 2 "Golden Core" := by
    constructor <;> decide +kernel
  have unknown := (all standard 9 95 2 "Golden Core" (by decide) standard_minors own
    (by decide)).2.2
  have read : (standard.resolve (layerLabel "Golden Core" 95)).minorKnown = true := by
    decide +kernel
  exact Bool.noConfusion (read.symm.trans unknown)

end Ladder
end Ascent
