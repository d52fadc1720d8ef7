import Ascent.Ladder

/-!
The longest name at the head of a text.

The search for a name goes through the names from the last to the first and takes an earlier one
unless it is shorter. So it finds the first of the longest, which is the only one as long where the
names differ when they are folded.

Main exports: `Ladder.Longest`, `Ladder.longest?_eq_some_iff`, `Ladder.longest?_eq_none_iff`,
`Ladder.minorOf?_lt`, `Ladder.minorOf?_eq_of_distinct`.
-/

namespace Ascent

open Text

theorem Text.fold_eq_fold_iff {s t : String} :
    fold s = fold t ↔ foldChars s.toList = foldChars t.toList := String.ofList_inj

namespace Ladder

/-- At a place among names stands the first of the longest that a text begins with. -/
structure Longest (names : List String) (text : List Char) (i : Nat) (name : String) : Prop where
  there : names[i]? = some name
  fits : foldChars name.toList <+: text
  longest : ∀ other ∈ names, foldChars other.toList <+: text →
    (foldChars other.toList).length ≤ (foldChars name.toList).length
  first : ∀ j other, names[j]? = some other → foldChars other.toList <+: text → j < i →
    (foldChars other.toList).length < (foldChars name.toList).length

section

variable {names rest : List String} {text : List Char} {i j place size : Nat}
  {name other first : String}

/-- Of names that differ, two at different places do not fold to the same. -/
theorem place_eq_of_distinct (distinct : (names.map fold).Nodup) (there : names[i]? = some name)
    (there' : names[j]? = some other) (same : fold name = fold other) : i = j := by
  obtain ⟨bound, -⟩ := List.getElem?_eq_some_iff.mp there
  refine (List.getElem?_inj (by simpa using bound) distinct).mp ?_
  rw [List.getElem?_map, List.getElem?_map, there, there', Option.map_some, Option.map_some, same]

namespace Longest

theorem head (fits : foldChars first.toList <+: text)
    (longest : ∀ other ∈ rest, foldChars other.toList <+: text →
      (foldChars other.toList).length ≤ (foldChars first.toList).length) :
    Longest (first :: rest) text 0 first where
  there := rfl
  fits := fits
  longest other member fitsToo := by
    rcases List.mem_cons.mp member with rfl | later
    · exact Nat.le_refl _
    · exact longest other later fitsToo
  first j other _ _ before := absurd before (Nat.not_lt_zero j)

theorem cons (h : Longest rest text i name)
    (shorter : foldChars first.toList <+: text →
      (foldChars first.toList).length < (foldChars name.toList).length) :
    Longest (first :: rest) text (i + 1) name where
  there := h.there
  fits := h.fits
  longest other member fitsToo := by
    rcases List.mem_cons.mp member with rfl | later
    · exact Nat.le_of_lt (shorter fitsToo)
    · exact h.longest other later fitsToo
  first j other there fitsToo before := by
    cases j with
    | zero =>
        obtain rfl : first = other := Option.some.inj there
        exact shorter fitsToo
    | succ j => exact h.first j other there fitsToo (Nat.lt_of_succ_lt_succ before)

/-- A name that fits is found if none that fits is longer and the names differ. -/
theorem of_distinct (there : names[i]? = some name) (fits : foldChars name.toList <+: text)
    (longest : ∀ other ∈ names, foldChars other.toList <+: text →
      (foldChars other.toList).length ≤ (foldChars name.toList).length)
    (distinct : (names.map fold).Nodup) : Longest names text i name where
  there := there
  fits := fits
  longest := longest
  first j other there' fits' before := by
    have short := longest other (List.mem_of_getElem? there') fits'
    refine Nat.lt_of_le_of_ne short fun size => Nat.ne_of_lt before ?_
    -- two names that fit and are equally long are the same
    have same := (List.prefix_of_prefix_length_le fits' fits short).eq_of_length size
    exact place_eq_of_distinct distinct there' there (fold_eq_fold_iff.mpr same)

theorem unique (h : Longest names text i name) (k : Longest names text j other) :
    i = j ∧ name = other := by
  have atMost := h.longest other (List.mem_of_getElem? k.there) k.fits
  have atLeast := k.longest name (List.mem_of_getElem? h.there) h.fits
  have place : i = j := by
    rcases Nat.lt_trichotomy i j with before | same | after
    · have := k.first i name h.there h.fits before
      omega
    · exact same
    · have := h.first j other k.there k.fits after
      omega
  have same := h.there
  rw [place, k.there] at same
  exact ⟨place, (Option.some.inj same).symm⟩

end Longest

/-- What the search for the longest name finds. -/
theorem longestFrom_spec (names : List String) (text : List Char) (place : Nat) :
    match longestFrom text place names with
    | some (found, size) => ∃ i name, found = place + i ∧ Longest names text i name ∧
        size = (foldChars name.toList).length
    | none => ∀ name ∈ names, ¬ foldChars name.toList <+: text := by
  induction names generalizing place with
  | nil => exact fun name member => absurd member List.not_mem_nil
  | cons first rest ih =>
      have later := ih (place + 1)
      unfold longestFrom
      dsimp only
      by_cases fits : foldChars first.toList <+: text
      · rw [if_pos (List.isPrefixOf_iff_prefix.mpr fits)]
        cases search : longestFrom text (place + 1) rest with
        | none =>
            rw [search] at later
            exact ⟨0, first, rfl, .head fits fun other member fitsToo =>
              absurd fitsToo (later other member), rfl⟩
        | some found =>
            rw [search] at later
            obtain ⟨i, name, place_, longest, size⟩ := later
            dsimp only
            by_cases longer : (foldChars first.toList).length < found.2
            · rw [if_pos longer]
              exact ⟨i + 1, name, by omega, longest.cons fun _ => size ▸ longer, size⟩
            · -- a later name that is no longer does not take the place of this one
              rw [if_neg longer]
              refine ⟨0, first, rfl, .head fits fun other member fitsToo => ?_, rfl⟩
              have := longest.longest other member fitsToo
              omega
      · rw [if_neg (mt List.isPrefixOf_iff_prefix.mp fits)]
        cases search : longestFrom text (place + 1) rest with
        | none =>
            rw [search] at later
            intro name member
            rcases List.mem_cons.mp member with rfl | member
            · exact fits
            · exact later name member
        | some found =>
            rw [search] at later
            obtain ⟨i, name, place_, longest, size⟩ := later
            exact ⟨i + 1, name, by omega, longest.cons fun fitsToo => absurd fitsToo fits, size⟩

theorem longest?_eq_some_iff : longest? names text = some (i, size) ↔
    ∃ name, Longest names text i name ∧ size = (foldChars name.toList).length := by
  have spec := longestFrom_spec names text 0
  constructor
  · intro found
    rw [longest?] at found
    rw [found] at spec
    obtain ⟨j, name, place, longest, size⟩ := spec
    rw [Nat.zero_add] at place
    exact ⟨name, place ▸ longest, size⟩
  · rintro ⟨name, longest, rfl⟩
    rw [longest?]
    cases search : longestFrom text 0 names with
    | none =>
        rw [search] at spec
        exact absurd longest.fits (spec name (List.mem_of_getElem? longest.there))
    | some found =>
        rw [search] at spec
        obtain ⟨j, other, place, longest', size⟩ := spec
        obtain ⟨rfl, rfl⟩ := longest.unique longest'
        rw [Nat.zero_add] at place
        rw [← place, ← size]

theorem longest?_eq_none_iff : longest? names text = none ↔
    ∀ name ∈ names, ¬ foldChars name.toList <+: text := by
  have spec := longestFrom_spec names text 0
  constructor
  · intro none
    rw [longest?] at none
    rwa [none] at spec
  · intro barren
    rw [longest?]
    cases search : longestFrom text 0 names with
    | none => rfl
    | some found =>
        rw [search] at spec
        obtain ⟨i, name, _, longest, _⟩ := spec
        exact absurd longest.fits (barren name (List.mem_of_getElem? longest.there))

theorem longest?_lt (found : longest? names text = some (i, size)) : i < names.length := by
  obtain ⟨name, longest, -⟩ := longest?_eq_some_iff.mp found
  exact (List.getElem?_eq_some_iff.mp longest.there).1

/-! ### Minor tiers -/

theorem minorOf?_lt (h : minorOf? names text = some i) : i < names.length := by
  unfold minorOf? at h
  split at h
  · cases h
  · split at h
    · next found =>
        rw [← Option.some.inj h]
        exact (List.findIdx?_eq_some_iff_findIdx_eq.mp found).1
    · obtain ⟨⟨j, size⟩, found, rfl⟩ := Option.map_eq_some_iff.mp h
      exact longest?_lt found

/-- Of names that differ, the minor tier is the one that is called just so. -/
theorem minorOf?_eq_of_distinct (there : names[i]? = some name) (distinct : (names.map fold).Nodup)
    (written : foldChars name.toList ≠ []) : minorOf? names (foldChars name.toList) = some i := by
  have found : names.findIdx? (fun other => foldChars other.toList = foldChars name.toList) =
      some i := by
    obtain ⟨bound, rfl⟩ := List.getElem?_eq_some_iff.mp there
    rw [List.findIdx?_eq_some_iff_getElem]
    refine ⟨bound, by simp, fun k before same => ?_⟩
    have folded : fold names[k] = fold names[i] := fold_eq_fold_iff.mpr (by simpa using same)
    have place := place_eq_of_distinct distinct (List.getElem?_eq_getElem _) there folded
    omega
  rw [minorOf?, if_neg (by simpa using written), found]

end
end Ladder
end Ascent
