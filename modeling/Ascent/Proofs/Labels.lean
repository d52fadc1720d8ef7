import Ascent.Proofs.Ascension
import Ascent.Proofs.Casing
import Ascent.Proofs.Naming

/-!
Labels are read back as the rungs that they were written for.

A label is the name of a major tier, a space and the name of a minor tier. Read case aside, it
begins with the major name; where no longer one fits as well, that is the one found. What is left is
the space and the minor name, and the space is trimmed away. The minor name stays whole, because
folding makes no mark that is trimmed of a character that is none.

Main exports: `isLabelGap_of_mem_foldChar`, `Ladder.Unmistakable`, `Settings.OwnLabels`,
`Settings.ownLabels_of_unmistakable`, `Ladder.resolve_readsBack`.
-/

namespace Ascent

open Text

/-! ### Folding makes no marks -/

/-- The code points of the characters that may stand between the two names of a label. -/
def labelGaps : List Nat := [32, 44, 45, 8211, 8212]

theorem toNat_mem_labelGaps {c : Char} (gap : Ladder.isLabelGap c = true) :
    c.toNat ∈ labelGaps := by
  simp only [Ladder.isLabelGap, Ladder.isDash, Bool.or_eq_true, decide_eq_true_eq] at gap
  rcases gap with (rfl | (rfl | rfl) | rfl) | rfl <;> decide

theorem isLabelGap_ofNat {n : Nat} (other : n ∉ labelGaps) :
    Ladder.isLabelGap (Char.ofNat n) = false := by
  cases gap : Ladder.isLabelGap (Char.ofNat n) with
  | false => rfl
  | true =>
      have member := toNat_mem_labelGaps gap
      by_cases valid : n.isValidChar
      · rw [Char.ofNat, dif_pos valid] at member
        exact absurd member other
      · rw [Char.ofNat, dif_neg valid] at member
        exact absurd member (by decide)

/-- No run of a table ends in a mark that stands between the names of a label. -/
theorem isLabelGap_of_runImage {runs : List CaseRun} {n m : Nat}
    (apart : ∀ r ∈ runs, ∀ gap ∈ labelGaps, (CaseRun.target r).apart (.single gap))
    (found : runImage? runs n = some m) : Ladder.isLabelGap (Char.ofNat m) = false := by
  obtain ⟨r, member, held, rfl⟩ := exists_run_of_image found
  refine isLabelGap_ofNat fun gap => ?_
  exact CaseSpan.not_holds_of_apart (apart r member _ gap) (CaseRun.holds_target held)
    (CaseSpan.holds_single _)

theorem isLabelGap_of_mem_lowerChar {c d : Char} (solid : Ladder.isLabelGap c = false)
    (member : d ∈ lowerChar c) : Ladder.isLabelGap d = false := by
  have ascii : ∀ n < 128, Ladder.isLabelGap (Char.ofNat n) = false →
      Ladder.isLabelGap (Char.ofNat n).toLower = false := by decide +kernel
  have runs : ∀ r ∈ lowerRuns, ∀ gap ∈ labelGaps, (CaseRun.target r).apart (.single gap) := by
    decide +kernel
  unfold lowerChar at member
  split at member
  · next small =>
      rw [List.mem_singleton.mp member]
      simpa using ascii c.toNat small (by simpa using solid)
  · split at member
    · rcases List.mem_pair.mp member with rfl | rfl <;> decide
    · rw [List.mem_singleton.mp member]
      cases found : runImage? lowerRuns c.toNat with
      | none => exact solid
      | some m => exact isLabelGap_of_runImage runs found

/-- Of a character that is no mark between names, folding makes no such mark. -/
theorem isLabelGap_of_mem_foldChar {c d : Char} (solid : Ladder.isLabelGap c = false)
    (member : d ∈ foldChar c) : Ladder.isLabelGap d = false := by
  have expansions : ∀ e ∈ foldExpansions, ∀ n ∈ e.2, n ∉ labelGaps := by decide +kernel
  have runs : ∀ r ∈ foldRuns, ∀ gap ∈ labelGaps, (CaseRun.target r).apart (.single gap) := by
    decide +kernel
  unfold foldChar at member
  split at member
  · next small =>
      refine isLabelGap_of_mem_lowerChar solid ?_
      rwa [lowerChar, if_pos small]
  · split at member
    · next cs found =>
        obtain ⟨codes, known, rfl⟩ := Option.map_eq_some_iff.mp found
        obtain ⟨before, after, split, _⟩ := List.lookup_eq_some_iff.mp known
        obtain ⟨n, code, rfl⟩ := List.mem_map.mp member
        exact isLabelGap_ofNat (expansions (c.toNat, codes) (by simp [split]) n code)
    · split at member
      · next m found =>
          rw [List.mem_singleton.mp member]
          exact isLabelGap_of_runImage runs found
      · exact isLabelGap_of_mem_lowerChar solid member

/-- A name whose ends are no marks has no marks at the ends of its folded form. -/
theorem trimWhere_gap_foldChars {cs : List Char}
    (first : ∀ c ∈ cs.head?, Ladder.isLabelGap c = false)
    (last : ∀ c ∈ cs.getLast?, Ladder.isLabelGap c = false) :
    trimWhere Ladder.isLabelGap (' ' :: foldChars cs) = foldChars cs := by
  have lead : trimWhere Ladder.isLabelGap (' ' :: foldChars cs) =
      trimWhere Ladder.isLabelGap (foldChars cs) := rfl
  rw [lead]
  apply trimWhere_eq_self
  · intro d head
    cases cs with
    | nil => cases head
    | cons c rest =>
        obtain ⟨e, more, split⟩ := List.exists_cons_of_ne_nil (foldChar_ne_nil c)
        rw [foldChars, List.flatMap_cons, split] at head
        obtain rfl : e = d := Option.some.inj head
        exact isLabelGap_of_mem_foldChar (first c rfl) (by simp [split])
  · intro d tail
    cases ending : cs.getLast? with
    | none =>
        rw [List.getLast?_eq_none_iff.mp ending] at tail
        cases tail
    | some c =>
        obtain ⟨before, rfl⟩ := List.getLast?_eq_some_iff.mp ending
        have solid := last c ending
        have final : (foldChar c).getLast? = some d := by
          rw [foldChars_append, List.getLast?_append] at tail
          have only : foldChars [c] = foldChar c := List.flatMap_singleton foldChar c
          rw [only] at tail
          cases some : (foldChar c).getLast? with
          | none => exact absurd (List.getLast?_eq_none_iff.mp some) (foldChar_ne_nil c)
          | some e => rwa [some] at tail
        exact isLabelGap_of_mem_foldChar solid (List.mem_of_getLast? final)

/-! ### Labels -/

namespace Ladder

/-- A name may begin and end with any character but a dash or a comma. -/
def endsName (c : Char) : Bool := !isDash c && c ≠ ','

/-- The names of a rung are not mistaken for those of another one. All names are written out and
without blanks around them, and differ from each other in more than case; the minor name has no dash
or comma at its ends; and no longer major name fits the label. -/
structure Unmistakable (ladder : Ladder) (i j : Nat) (major minor : String) : Prop where
  majorThere : ladder.majors[i]? = some major
  minorThere : ladder.minors[j]? = some minor
  majorsWritten : ∀ name ∈ ladder.majors, trim name = name ∧ name ≠ ""
  minorsWritten : ∀ name ∈ ladder.minors, trim name = name ∧ name ≠ ""
  majorsDistinct : (ladder.majors.map fold).Nodup
  minorsDistinct : (ladder.minors.map fold).Nodup
  first : minor.toList.head?.all endsName = true
  last : minor.toList.getLast?.all endsName = true
  longest : ∀ name ∈ ladder.majors, (fold major).length < (fold name).length →
    ¬ (fold name).toList <+: (fold (ladder.label i j)).toList

section

variable {ladder : Ladder} {i j : Nat} {major minor : String}

theorem isLabelGap_of_endsName {c : Char} (unblank : isBlank c = false)
    (ending : endsName c = true) : isLabelGap c = false := by
  have space : c ≠ ' ' := by
    rintro rfl
    exact absurd unblank (by decide)
  simp only [endsName, Bool.and_eq_true, Bool.not_eq_true', decide_eq_true_eq] at ending
  simp [isLabelGap, space, ending.1, ending.2]

theorem nameNear_eq {names : List String} {name : String} (there : names[i]? = some name) :
    nameNear names i = name := by
  obtain ⟨bound, rfl⟩ := List.getElem?_eq_some_iff.mp there
  have place : (max 0 (min (i : Int) (names.length - 1))).toNat = i := by omega
  rw [nameNear, place, there]
  rfl

theorem label_eq (majorThere : ladder.majors[i]? = some major)
    (minorThere : ladder.minors[j]? = some minor) :
    ladder.label i j = major ++ " " ++ minor := by
  have majors : ladder.majors ≠ [] := List.ne_nil_of_mem (List.mem_of_getElem? majorThere)
  have minors : ladder.minors ≠ [] := List.ne_nil_of_mem (List.mem_of_getElem? minorThere)
  rw [label, if_neg (by simpa using majors), if_neg (by simpa using minors),
    nameNear_eq majorThere, nameNear_eq minorThere]

/-- A written name begins and ends with characters that are not blank. -/
theorem ends_of_trimmed {name : String} (written : trim name = name ∧ name ≠ "") :
    name.toList ≠ [] ∧ (∀ c ∈ name.toList.head?, isBlank c = false) ∧
      ∀ c ∈ name.toList.getLast?, isBlank c = false := by
  obtain ⟨trimmed, nonempty⟩ := written
  have same : trimWhere isBlank name.toList = name.toList := by
    simpa [trim, trimChars] using congrArg String.toList trimmed
  refine ⟨by simpa using nonempty, ?_, ?_⟩
  · exact same ▸ head?_trimWhere
  · exact same ▸ getLast?_trimWhere

namespace Unmistakable

theorem majorWritten (h : ladder.Unmistakable i j major minor) : trim major = major ∧ major ≠ "" :=
  h.majorsWritten major (List.mem_of_getElem? h.majorThere)

theorem minorWritten (h : ladder.Unmistakable i j major minor) : trim minor = minor ∧ minor ≠ "" :=
  h.minorsWritten minor (List.mem_of_getElem? h.minorThere)

/-- The folded label: both folded names, with a space between them. -/
theorem foldChars_label (h : ladder.Unmistakable i j major minor) :
    foldChars (trimChars (ladder.label i j).toList) =
      foldChars major.toList ++ (' ' :: foldChars minor.toList) := by
  obtain ⟨majorWritten, majorFirst, -⟩ := ends_of_trimmed h.majorWritten
  obtain ⟨minorWritten, -, minorLast⟩ := ends_of_trimmed h.minorWritten
  have written : (ladder.label i j).toList = major.toList ++ (' ' :: minor.toList) := by
    simp [label_eq h.majorThere h.minorThere]
  have trimmed : trimChars (major.toList ++ (' ' :: minor.toList)) =
      major.toList ++ (' ' :: minor.toList) := by
    apply trimWhere_eq_self
    · rwa [List.head?_append_of_ne_nil _ majorWritten]
    · rwa [List.getLast?_append_of_ne_nil _ (List.cons_ne_nil _ _),
        List.getLast?_cons_of_ne_nil minorWritten]
  rw [written, trimmed, foldChars_append]
  rfl

/-- No other major name that the label begins with is as long as its own. -/
theorem longest?_label (h : ladder.Unmistakable i j major minor) :
    longest? ladder.majors (foldChars (trimChars (ladder.label i j).toList)) =
      some (i, (foldChars major.toList).length) := by
  have folded := h.foldChars_label
  have whole : foldChars (trimChars (ladder.label i j).toList) =
      (fold (ladder.label i j)).toList := by
    rw [folded, fold, label_eq h.majorThere h.minorThere]
    simp [foldChars_append]
    rfl
  have longest : ∀ other ∈ ladder.majors,
      foldChars other.toList <+: foldChars (trimChars (ladder.label i j).toList) →
      (foldChars other.toList).length ≤ (foldChars major.toList).length := by
    intro other member fitsToo
    have short := h.longest other member
    rw [← whole] at short
    simp only [fold, String.length_ofList, String.toList_ofList] at short
    exact Nat.le_of_not_lt fun longer => short longer fitsToo
  have fits : foldChars major.toList <+: foldChars (trimChars (ladder.label i j).toList) :=
    folded ▸ List.prefix_append _ _
  exact longest?_eq_some_iff.mpr
    ⟨major, .of_distinct h.majorThere fits longest h.majorsDistinct, rfl⟩

/-- Behind the major name the minor name is left, without the space in front. -/
theorem trimWhere_label (h : ladder.Unmistakable i j major minor) :
    trimWhere isLabelGap ((foldChars (trimChars (ladder.label i j).toList)).drop
      (foldChars major.toList).length) = foldChars minor.toList := by
  obtain ⟨-, minorFirst, minorLast⟩ := ends_of_trimmed h.minorWritten
  have first := (Option.all_eq_true endsName _).mp h.first
  have last := (Option.all_eq_true endsName _).mp h.last
  rw [h.foldChars_label, List.drop_left]
  exact trimWhere_gap_foldChars
    (fun c at_ => isLabelGap_of_endsName (minorFirst c at_) (first c at_))
    fun c at_ => isLabelGap_of_endsName (minorLast c at_) (last c at_)

theorem minorOf?_label (h : ladder.Unmistakable i j major minor) :
    minorOf? ladder.minors (foldChars minor.toList) = some j := by
  refine minorOf?_eq_of_distinct h.minorThere h.minorsDistinct ?_
  obtain ⟨written, -, -⟩ := ends_of_trimmed h.minorWritten
  obtain ⟨c, cs, split⟩ := List.exists_cons_of_ne_nil written
  rw [split, foldChars, List.flatMap_cons]
  exact fun empty => foldChar_ne_nil c (List.append_eq_nil_iff.mp empty).1

theorem resolve_label (h : ladder.Unmistakable i j major minor) :
    ladder.resolve (ladder.label i j) =
      ⟨i, j, ladder.majors.length, ladder.minors.length, true, true⟩ := by
  obtain ⟨majorBound, -⟩ := List.getElem?_eq_some_iff.mp h.majorThere
  obtain ⟨minorBound, -⟩ := List.getElem?_eq_some_iff.mp h.minorThere
  have majorCount : max 1 ladder.majors.length = ladder.majors.length := by omega
  have minorCount : max 1 ladder.minors.length = ladder.minors.length := by omega
  rw [resolve]
  dsimp only
  rw [h.longest?_label]
  dsimp only
  rw [h.trimWhere_label, h.minorOf?_label, majorCount, minorCount]
  rfl

end Unmistakable
end

/-- **Labels are read back.** Whatever is read stands for a rung of the ladder; and the label of a
rung whose names are not mistaken for others stands for that rung, both names known. -/
theorem resolve_readsBack (ladder : Ladder) :
    (∀ label, (ladder.resolve label).majorCount = max 1 ladder.majors.length ∧
      (ladder.resolve label).minorCount = max 1 ladder.minors.length ∧
      (ladder.resolve label).major < (ladder.resolve label).majorCount ∧
      (ladder.resolve label).minor < (ladder.resolve label).minorCount) ∧
    ∀ (i j : Nat) (major minor : String), ladder.Unmistakable i j major minor →
      ladder.resolve (ladder.label i j) =
        ⟨i, j, ladder.majors.length, ladder.minors.length, true, true⟩ := by
  refine ⟨fun label => ?_, fun i j major minor plain => plain.resolve_label⟩
  have majors := Settings.majorCount_resolve { ladder := ladder } label
  have minors := Settings.minorCount_resolve { ladder := ladder } label
  have bound := Settings.resolve_lt { ladder := ladder } label
  rw [← majors, ← minors] at bound
  exact ⟨majors, minors, bound⟩

/-- One major name begins another one, as does one minor name, and a label is written in capitals.
-/
theorem resolve_readsBack_core_formation :
    let ladder : Ladder :=
      ⟨["Core", "Core Formation", "Straße"], ["Layer 1", "Layer 12", "late-stage"]⟩
    ladder.Unmistakable 1 1 "Core Formation" "Layer 12" ∧
    ladder.resolve "Core Formation Layer 12" = ⟨1, 1, 3, 3, true, true⟩ ∧
    (ladder.resolve "STRASSE").major < (ladder.resolve "STRASSE").majorCount := by
  intro ladder
  have plain : ladder.Unmistakable 1 1 "Core Formation" "Layer 12" := by
    constructor <;> decide +kernel
  exact ⟨plain, (resolve_readsBack ladder).2 1 1 _ _ plain,
    ((resolve_readsBack ladder).1 "STRASSE").2.2.1⟩

end Ladder

/-! ### Ladders whose labels stand for their own rungs -/

namespace Settings

/-- Each label of a rung stands for that rung. -/
def OwnLabels (settings : Settings) : Prop :=
  ∀ i j : Nat, i < settings.majorCount → j < settings.minorCount →
    (settings.resolve (settings.label i j)).major = i ∧
      (settings.resolve (settings.label i j)).minor = j

theorem Regular.ownLabels {settings : Settings} (regular : settings.Regular) :
    settings.OwnLabels := regular.label

/-- It is so where the names of no rung are mistaken for those of another one. -/
theorem ownLabels_of_unmistakable {settings : Settings} (majors : settings.ladder.majors ≠ [])
    (minors : settings.ladder.minors ≠ [])
    (plain : ∀ i j major minor, settings.ladder.majors[i]? = some major →
      settings.ladder.minors[j]? = some minor →
      settings.ladder.Unmistakable i j major minor) : settings.OwnLabels := by
  intro i j major minor
  have majorBound : i < settings.ladder.majors.length := by
    have := List.length_pos_of_ne_nil majors
    unfold majorCount at major
    omega
  have minorBound : j < settings.ladder.minors.length := by
    have := List.length_pos_of_ne_nil minors
    unfold minorCount at minor
    omega
  have rung := (plain i j _ _ (List.getElem?_eq_getElem majorBound)
    (List.getElem?_eq_getElem minorBound)).resolve_label
  unfold resolve label
  rw [rung]
  exact ⟨rfl, rfl⟩

end Settings
end Ascent
