import Ascent.Text.Case

/-!
Folding forgets what lower-casing forgets.

Names are told apart by their folded form, while identifiers are made from their lower-case form.
Texts of one lower-case form have one folded form, so whatever differs once it is folded differs in
lower case as well. The tables are gone through by runs rather than by characters: a run of capitals
whose images no table maps any further is settled as a whole, and only the few other ones are
spelled out.

Main exports: `CaseSpan.apart`, `settled_or_unsettled`, `foldChars_lowerChar`,
`foldChars_lowerChars`, `fold_lower`.
-/

namespace Ascent.Text

/-! ### Runs that stay apart -/

/-- Some code points: the first, the last, and the step from each one to the next. -/
structure CaseSpan where
  first : Nat
  last : Nat
  step : Nat

namespace CaseSpan

/-- The code points of a span. -/
def Holds (a : CaseSpan) (n : Nat) : Prop :=
  a.first ≤ n ∧ n ≤ a.last ∧ (n - a.first) % a.step = 0

/-- Whether two spans have ends, or steps of two, that keep them from sharing a code point. -/
def apart (a b : CaseSpan) : Bool :=
  Nat.blt a.last b.first || Nat.blt b.last a.first ||
    (Nat.beq a.step 2 && Nat.beq b.step 2 && !Nat.beq (a.first % 2) (b.first % 2))

/-- The span of one code point. -/
def single (n : Nat) : CaseSpan := ⟨n, n, 2⟩

theorem holds_single (n : Nat) : (single n).Holds n := by simp [single, Holds]

theorem not_holds_of_apart {a b : CaseSpan} {n : Nat} (apart : a.apart b) (held : a.Holds n) :
    ¬ b.Holds n := by
  obtain ⟨first, last, step⟩ := held
  rintro ⟨first', last', step'⟩
  simp only [CaseSpan.apart, Nat.blt, Nat.beq_eq, Bool.or_eq_true, Nat.ble_eq, Bool.and_eq_true,
    Bool.not_eq_true'] at apart
  rcases apart with (before | after) | ⟨⟨even, even'⟩, parity⟩
  · omega
  · omega
  · rw [even] at step
    rw [even'] at step'
    have differ : a.first % 2 ≠ b.first % 2 := Nat.ne_of_beq_eq_false parity
    omega

end CaseSpan

namespace CaseRun

/-- The code points that a run maps. -/
def source (r : CaseRun) : CaseSpan := ⟨r.1, r.2.1, r.2.2.1⟩

/-- The code points that a run maps them to. -/
def target (r : CaseRun) : CaseSpan := ⟨r.2.2.2, r.2.2.2 + (r.2.1 - r.1), r.2.2.1⟩

/-- Where a run maps a code point to. -/
def image (r : CaseRun) (n : Nat) : Nat := r.2.2.2 + (n - r.1)

variable {r : CaseRun} {n : Nat}

theorem holds_target (held : (source r).Holds n) : (target r).Holds (image r n) := by
  obtain ⟨first, last, step⟩ := held
  simp only [source, target, image, CaseSpan.Holds] at *
  refine ⟨by omega, by omega, ?_⟩
  rwa [Nat.add_sub_cancel_left]

end CaseRun

section

variable {runs : List CaseRun} {n m : Nat}

theorem exists_run_of_image (found : runImage? runs n = some m) :
    ∃ r ∈ runs, (CaseRun.source r).Holds n ∧ m = CaseRun.image r n := by
  obtain ⟨r, first, rfl⟩ := Option.map_eq_some_iff.mp found
  have within := List.find?_some first
  simp only [Bool.and_eq_true, decide_eq_true_eq, beq_iff_eq] at within
  exact ⟨r, List.mem_of_find?_eq_some first, ⟨within.1.1, within.1.2, within.2⟩, rfl⟩

theorem runImage?_eq_none {a : CaseSpan} (held : a.Holds n)
    (apart : ∀ r ∈ runs, a.apart (CaseRun.source r)) : runImage? runs n = none := by
  cases found : runImage? runs n with
  | none => rfl
  | some m =>
      obtain ⟨r, member, within, _⟩ := exists_run_of_image found
      exact absurd within (CaseSpan.not_holds_of_apart (apart r member) held)

theorem expansion?_eq_none {expansions : List (Nat × List Nat)} {a : CaseSpan} (held : a.Holds n)
    (apart : ∀ e ∈ expansions, a.apart (.single e.1)) : expansion? expansions n = none := by
  refine Option.map_eq_none_iff.mpr (List.lookup_eq_none_iff.mpr fun e member => ?_)
  have differs : n ≠ e.1 := fun same =>
    CaseSpan.not_holds_of_apart (apart e member) held (same ▸ CaseSpan.holds_single e.1)
  simpa using differs

end

/-! ### Lower case and folding -/

/-- Whether folding has no table of its own for a span. -/
def unfolded (a : CaseSpan) : Bool :=
  (foldExpansions.all fun e => a.apart (.single e.1)) &&
    foldRuns.all fun r => a.apart (CaseRun.source r)

/-- Whether folding maps the capitals of a run to their lower case, and that to itself. -/
def CaseRun.settled (r : CaseRun) : Bool :=
  let a := target r
  unfolded (source r) && unfolded a && (lowerRuns.all fun b => a.apart (source b)) &&
    Nat.ble 128 a.first &&
    (Nat.blt a.last 0xD800 || Nat.blt 0xDFFF a.first && Nat.blt a.last 0x110000)

/-- The runs of capitals that do not fold to their lower case, or whose lower case meets another run
by its ends. -/
def unsettledRuns : List CaseRun :=
  [(458, 458, 1, 460), (497, 497, 1, 499), (5024, 5103, 1, 43888), (5104, 5109, 1, 5112),
   (7838, 7838, 1, 223), (8072, 8079, 1, 8064), (8088, 8095, 1, 8080), (8104, 8111, 1, 8096),
   (8124, 8124, 1, 8115), (8140, 8140, 1, 8131), (8188, 8188, 1, 8179), (8490, 8490, 1, 107)]

theorem settled_or_unsettled : ∀ r ∈ lowerRuns, CaseRun.settled r ∨ r ∈ unsettledRuns := by
  decide +kernel

theorem foldChar_of_unsettled : ∀ r ∈ unsettledRuns, ∀ i < r.2.1 + 1 - r.1,
    foldChar (Char.ofNat (r.2.2.2 + i)) = foldChar (Char.ofNat (r.1 + i)) := by
  decide +kernel

/-- Folding keeps the one image of a code point for which it has no table of its own. -/
theorem foldChar_of_unfolded {c : Char} {a : CaseSpan} (held : a.Holds c.toNat)
    (none : unfolded a) (beyond : ¬ c.toNat < 128) : foldChar c = lowerChar c := by
  simp only [unfolded, Bool.and_eq_true, List.all_eq_true] at none
  rw [foldChar, if_neg beyond, expansion?_eq_none held none.1]
  dsimp only
  rw [runImage?_eq_none held none.2]

theorem toNat_ofNat_of_settled {r : CaseRun} {m : Nat} (settled : r.settled)
    (held : r.target.Holds m) : (Char.ofNat m).toNat = m ∧ ¬ m < 128 := by
  obtain ⟨first, last, _⟩ := held
  simp only [CaseRun.settled, Bool.and_eq_true, Bool.or_eq_true, Nat.ble_eq, Nat.blt_eq] at settled
  refine ⟨?_, by omega⟩
  have valid : m.isValidChar := by
    rcases settled.2 with low | ⟨high, top⟩
    · exact .inl (by omega)
    · exact .inr ⟨by omega, by omega⟩
  rw [Char.ofNat, dif_pos valid]
  rfl

/-- A capital of a settled run and its lower case fold to the same. -/
theorem foldChar_of_settled {r : CaseRun} {c : Char} (settled : r.settled)
    (held : r.source.Holds c.toNat) (beyond : ¬ c.toNat < 128) (plain : c.toNat ≠ 0x130)
    (found : runImage? lowerRuns c.toNat = some (r.image c.toNat)) :
    foldChar (Char.ofNat (r.image c.toNat)) = foldChar c := by
  have own := CaseRun.holds_target held
  obtain ⟨value, high⟩ := toNat_ofNat_of_settled settled own
  simp only [CaseRun.settled, Bool.and_eq_true, List.all_eq_true] at settled
  obtain ⟨⟨⟨⟨source, target⟩, fixed⟩, _⟩, _⟩ := settled
  generalize r.image c.toNat = m at *
  rw [← value] at own high
  have undotted : (Char.ofNat m).toNat ≠ 0x130 := by
    intro dotted
    rw [unfolded, Bool.and_eq_true, List.all_eq_true] at target
    have apart := target.1 (0x130, [105, 775]) (by decide)
    exact CaseSpan.not_holds_of_apart apart own (dotted ▸ CaseSpan.holds_single 0x130)
  rw [foldChar_of_unfolded held source beyond, foldChar_of_unfolded own target high, lowerChar,
    lowerChar, if_neg beyond, if_neg plain, if_neg high, if_neg undotted, found,
    runImage?_eq_none own fixed]
  rfl

theorem foldChars_lowerChar (c : Char) : foldChars (lowerChar c) = foldChar c := by
  by_cases ascii : c.toNat < 128
  · have points : ∀ n < 128, foldChars (lowerChar (Char.ofNat n)) = foldChar (Char.ofNat n) := by
      decide +kernel
    simpa using points c.toNat ascii
  · by_cases dotted : c.toNat = 0x130
    · have point : foldChars (lowerChar (Char.ofNat 0x130)) = foldChar (Char.ofNat 0x130) := by
        decide +kernel
      rwa [← dotted, Char.ofNat_toNat] at point
    · rw [lowerChar, if_neg ascii, if_neg dotted]
      cases found : runImage? lowerRuns c.toNat with
      | none => exact List.flatMap_singleton foldChar c
      | some m =>
          obtain ⟨r, member, held, rfl⟩ := exists_run_of_image found
          rcases settled_or_unsettled r member with settled | unsettled
          · exact (List.flatMap_singleton foldChar _).trans
              (foldChar_of_settled settled held ascii dotted found)
          · have within : c.toNat - r.1 < r.2.1 + 1 - r.1 := by
              have := held.1
              have := held.2.1
              simp only [CaseRun.source] at *
              omega
            have point := foldChar_of_unsettled r unsettled (c.toNat - r.1) within
            have back : r.1 + (c.toNat - r.1) = c.toNat := Nat.add_sub_cancel' held.1
            rw [back, Char.ofNat_toNat] at point
            exact (List.flatMap_singleton foldChar _).trans point

/-- Both small forms of a sigma fold to the common one. -/
theorem foldChars_lowerBetween (before : List Char) (c : Char) (after : List Char) :
    foldChars (lowerBetween before c after) = foldChar c := by
  unfold lowerBetween
  split
  · next sigma =>
      have capital : c = Char.ofNat 0x3A3 := by rw [← sigma, Char.ofNat_toNat]
      dsimp only
      rw [capital]
      split <;> decide +kernel
  · exact foldChars_lowerChar c

theorem foldChars_lowerAfter (cs before : List Char) :
    foldChars (lowerAfter before cs) = foldChars cs := by
  induction cs generalizing before with
  | nil => rfl
  | cons c rest ih =>
      rw [lowerAfter, foldChars_append, foldChars_lowerBetween, ih]
      rfl

/-- Folding a text that is in lower case already comes to the same. -/
theorem foldChars_lowerChars (cs : List Char) : foldChars (lowerChars cs) = foldChars cs :=
  foldChars_lowerAfter cs []

theorem fold_lower (s : String) : fold (lower s) = fold s := by
  rw [fold, lower, String.toList_ofList, foldChars_lowerChars, ← fold]

end Ascent.Text
