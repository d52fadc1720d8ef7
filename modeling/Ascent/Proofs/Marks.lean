import Ascent.Response
import Mathlib.Data.List.Infix

/-!
Where the marks of blocks stand in a text.

A mark may be written in any case, so a text is compared with it after every character has been
replaced by the plain letter that it is a form of. A mark begins with `<` and has no other one, so
it never lies across a place where another mark begins: what is found in a text that is put together
from pieces is found in one of the pieces. The first block of a kind, and the text without the
blocks of a kind, are read off the first places of the two marks.

Main exports: `isFormOf_eq`, `cutWord?`, `cutWord?_append`, `Block.first?_eq`, `Block.KeepsClear`,
`Block.first?_around`, `Block.erase_of_cut`.
-/

namespace Ascent

namespace Text

/-! ### Forms of plain characters -/

/-- The plain character that a character is a form of, or the character itself. -/
def plainForm (c : Char) : Char :=
  if c.toNat < 128 then c.toLower
  else if c.toNat = 0x212A then 'k'
  else if c.toNat = 0x130 ∨ c.toNat = 0x131 then 'i'
  else if c.toNat = 0x17F then 's'
  else c

/-- Whether a character is one that marks are written with: printable ASCII and no capital. -/
def isPlain (c : Char) : Bool := 32 ≤ c.toNat && c.toNat < 128 && !c.isUpper

/-- The characters beyond ASCII that are forms of ASCII letters. -/
def strayForms : List Nat := [0x130, 0x131, 0x17F, 0x212A]

/-- A table of case mappings that leads no character beyond ASCII back to ASCII but strays. -/
def StaysBeyond (runs : List CaseRun) : Prop :=
  ∀ r ∈ runs, 128 ≤ r.2.2.2 ∨ r.1 = r.2.1 ∧ r.1 ∈ strayForms

theorem lowerRuns_stayBeyond : StaysBeyond lowerRuns := by
  unfold StaysBeyond; decide +kernel

theorem upperRuns_stayBeyond : StaysBeyond upperRuns := by
  unfold StaysBeyond; decide +kernel

theorem length_upperExpansions : ∀ e ∈ upperExpansions, 2 ≤ e.2.length := by decide +kernel

theorem runImage?_beyond {runs : List CaseRun} {n m : Nat} (stays : StaysBeyond runs)
    (found : runImage? runs n = some m) (common : n ∉ strayForms) : 128 ≤ m := by
  obtain ⟨⟨start, last, step, image⟩, first, rfl⟩ := Option.map_eq_some_iff.mp found
  have within := List.find?_some first
  simp only [Bool.and_eq_true, decide_eq_true_eq] at within
  rcases stays _ (List.mem_of_find?_eq_some first) with above | ⟨single, stray⟩
  · exact Nat.le_add_right_of_le above
  · dsimp only at single stray
    have same : n = start := by omega
    exact absurd (same ▸ stray) common

theorem image_ne_of_beyond {runs : List CaseRun} {c l : Char} (stays : StaysBeyond runs)
    (beyond : 128 ≤ c.toNat) (common : c.toNat ∉ strayForms) (shown : 32 ≤ l.toNat)
    (ascii : l.toNat < 128) : ((runImage? runs c.toNat).map Char.ofNat).getD c ≠ l := by
  cases found : runImage? runs c.toNat with
  | none =>
      rintro rfl
      exact absurd beyond (Nat.not_le.mpr ascii)
  | some m =>
      have above := runImage?_beyond stays found common
      rintro rfl
      simp only [Option.map_some, Option.getD_some] at shown ascii
      by_cases valid : m.isValidChar
      · have same : (Char.ofNat m).toNat = m := by rw [Char.ofNat, dif_pos valid]; rfl
        omega
      · have zero : (Char.ofNat m).toNat = 0 := by rw [Char.ofNat, dif_neg valid]; rfl
        omega

theorem ascii_cases : ∀ n < 128, (Char.ofNat n).toUpper.toLower = (Char.ofNat n).toLower ∧
    (32 ≤ n → 32 ≤ (Char.ofNat n).toUpper.toNat) ∧ (Char.ofNat n).toUpper.toNat < 128 ∧
    (isPlain (Char.ofNat n) → (Char.ofNat n).toLower = Char.ofNat n) := by
  decide +kernel

theorem isFormOf_of_stray : ∀ n ∈ strayForms, ∀ m < 128, isPlain (Char.ofNat m) →
    isFormOf (Char.ofNat m) (Char.ofNat n) = (plainForm (Char.ofNat n) == Char.ofNat m) := by
  decide +kernel

/-- A character beyond ASCII that is no stray is a form of no plain character. -/
theorem isFormOf_of_beyond {l c : Char} (plain : isPlain l) (beyond : 128 ≤ c.toNat)
    (common : c.toNat ∉ strayForms) : isFormOf l c = false := by
  simp only [isPlain, Bool.and_eq_true, decide_eq_true_eq] at plain
  have upper := ascii_cases l.toNat plain.1.2
  rw [Char.ofNat_toNat] at upper
  have lowered := image_ne_of_beyond lowerRuns_stayBeyond beyond common plain.1.1 plain.1.2
  have raised :=
    image_ne_of_beyond upperRuns_stayBeyond beyond common (upper.2.1 plain.1.1) upper.2.2.1
  have notAscii : ¬ c.toNat < 128 := Nat.not_lt.mpr beyond
  have notStray : c.toNat ≠ 0x130 := fun stray => common (by simp [strayForms, stray])
  have expanded (cs : List Char) (found : expansion? upperExpansions c.toNat = some cs) :
      cs ≠ [l.toUpper] := by
    rintro rfl
    obtain ⟨codes, known, made⟩ := Option.map_eq_some_iff.mp found
    obtain ⟨before, after, split, _⟩ := List.lookup_eq_some_iff.mp known
    have long := length_upperExpansions (c.toNat, codes) (by simp [split])
    have short := congrArg List.length made
    simp only [List.length_map, List.length_singleton] at short
    exact absurd long (by simp [short])
  simp only [isFormOf, lowerChar, upperChar, if_neg notAscii, if_neg notStray]
  cases found : expansion? upperExpansions c.toNat with
  | none => simp [lowered, raised]
  | some cs => simp [lowered, expanded cs found]

/-- To be a form of a plain character is to have it as plain form. -/
theorem isFormOf_eq {l : Char} (plain : isPlain l) (c : Char) :
    isFormOf l c = (plainForm c == l) := by
  have ascii : l.toNat < 128 := by
    simp only [isPlain, Bool.and_eq_true, decide_eq_true_eq] at plain
    exact plain.1.2
  by_cases within : c.toNat < 128
  · have own := ascii_cases l.toNat ascii
    have other := ascii_cases c.toNat within
    rw [Char.ofNat_toNat] at own other
    have back : c.toUpper = l.toUpper → c.toLower = l := fun same => by
      rw [← other.1, same, own.1, own.2.2.2 plain]
    simp only [isFormOf, lowerChar, upperChar, plainForm, if_pos within]
    grind
  · by_cases stray : c.toNat ∈ strayForms
    · have same := isFormOf_of_stray c.toNat stray l.toNat ascii
      rw [Char.ofNat_toNat, Char.ofNat_toNat] at same
      exact same plain
    · rw [isFormOf_of_beyond plain (Nat.not_lt.mp within) stray]
      simp only [strayForms, List.mem_cons, List.not_mem_nil, or_false, not_or] at stray
      have own : plainForm c = c := by simp [plainForm, within, stray]
      have differs : c ≠ l := fun same => within (same ▸ ascii)
      simp [own, differs]

/-! ### Marks -/

/-- A word to look for in any case that begins with `<`, and has it nowhere else. -/
structure Mark (word : List Char) : Prop where
  plain : ∀ l ∈ word, isPlain l
  opens : word.head? = some '<'
  once : '<' ∉ word.tail

/-- The text begins where a mark may begin, or is empty. -/
def AtMark (cs : List Char) : Prop := ∀ c ∈ cs.head?, plainForm c = '<'

/-- Neither word goes on from any place in the other: `word` cannot begin inside `part`. -/
def Foreign (word part : List Char) : Prop :=
  ∀ rest ∈ part.tails, rest ≠ [] → ¬ word <+: rest ∧ ¬ rest <+: word

instance (word part : List Char) : Decidable (Foreign word part) :=
  inferInstanceAs (Decidable (∀ rest ∈ part.tails, rest ≠ [] → ¬ word <+: rest ∧ ¬ rest <+: word))

section

variable {word : List Char}

theorem dropWord?_eq_some_iff (plain : ∀ l ∈ word, isPlain l) {cs rest : List Char} :
    dropWord? word cs = some rest ↔ ∃ m, cs = m ++ rest ∧ m.map plainForm = word := by
  induction word generalizing cs with
  | nil => simp [dropWord?, eq_comm]
  | cons l word ih =>
      have later := fun cs => @ih (fun l member => plain l (List.mem_cons_of_mem _ member)) cs
      cases cs with
      | nil =>
          simp only [dropWord?, List.nil_eq_append_iff, reduceCtorEq, false_iff, not_exists]
          rintro m ⟨⟨rfl, -⟩, map⟩
          cases map
      | cons c cs =>
          rw [dropWord?, isFormOf_eq (plain l List.mem_cons_self)]
          by_cases form : plainForm c = l
          · simp only [form, BEq.rfl, if_true, later]
            constructor
            · rintro ⟨m, rfl, rfl⟩
              exact ⟨c :: m, rfl, by rw [List.map_cons, form]⟩
            · rintro ⟨_ | ⟨d, m⟩, split, map⟩
              · cases map
              · cases split
                exact ⟨m, rfl, (List.cons.inj map).2⟩
          · simp only [form, beq_iff_eq, if_false, reduceCtorEq, false_iff, not_exists]
            rintro (_ | ⟨d, m⟩) ⟨split, map⟩
            · cases map
            · cases split
              exact form (List.cons.inj map).1

/-- Characters that begin a text of two parts lie in the first part, where none of them is a form of
what the second part begins with. -/
theorem exists_of_append_eq {cs rest m after : List Char} (split : cs ++ rest = m ++ after)
    (stop : ∀ c ∈ rest.head?, plainForm c ∉ (m.map plainForm).drop cs.length) :
    ∃ between, cs = m ++ between ∧ after = between ++ rest := by
  rcases List.append_eq_append_iff.mp split with ⟨more, rfl, rfl⟩ | ⟨between, rfl, rfl⟩
  · cases more with
    | nil => exact ⟨[], by simp, by simp⟩
    | cons d more => exact absurd (by simp) (stop d rfl)
  · exact ⟨between, rfl, rfl⟩

namespace Mark

/-- A mark that begins in a text is not cut by what begins with another mark. -/
theorem dropWord?_append (mark : Mark word) {cs rest : List Char} (nonempty : cs ≠ [])
    (atMark : AtMark rest) : dropWord? word (cs ++ rest) = (dropWord? word cs).map (· ++ rest) := by
  refine Option.ext fun after => ?_
  simp only [Option.map_eq_some_iff, dropWord?_eq_some_iff mark.plain]
  constructor
  · rintro ⟨m, split, rfl⟩
    obtain ⟨c, cs, rfl⟩ := List.exists_cons_of_ne_nil nonempty
    obtain ⟨after', whole, rfl⟩ := exists_of_append_eq split fun d first inside => by
      -- the mark would go on over the place where the rest begins
      have tail := List.mem_of_mem_drop (i := cs.length) (l := (m.map plainForm).tail)
        (by rwa [List.drop_tail])
      exact mark.once (atMark d first ▸ tail)
    exact ⟨after', ⟨m, whole, rfl⟩, rfl⟩
  · rintro ⟨after', ⟨m, rfl, rfl⟩, rfl⟩
    exact ⟨m, List.append_assoc _ _ _, rfl⟩

theorem ne_nil (mark : Mark word) : word ≠ [] := by
  rintro rfl
  cases mark.opens

theorem atMark (mark : Mark word) {m : List Char} (written : m.map plainForm = word)
    (rest : List Char) : AtMark (m ++ rest) := by
  have opens := mark.opens
  subst written
  cases m with
  | nil => cases opens
  | cons c m =>
      intro d first
      cases first
      exact Option.some.inj opens

end Mark

theorem dropWord?_of_foreign (plain : ∀ l ∈ word, isPlain l) {m cs : List Char}
    (foreign : Foreign word (m.map plainForm)) (suffix : cs <:+ m) (nonempty : cs ≠ [])
    (rest : List Char) : dropWord? word (cs ++ rest) = none := by
  rw [Option.eq_none_iff_forall_ne_some]
  intro after found
  obtain ⟨w, split, rfl⟩ := (dropWord?_eq_some_iff plain).mp found
  have apart := foreign (cs.map plainForm)
    ((List.mem_tails _ _).mpr (suffix.map plainForm)) (by simpa using nonempty)
  rcases List.append_eq_append_iff.mp split with ⟨more, rfl, rfl⟩ | ⟨_, rfl, rfl⟩
  · exact apart.2 ((List.prefix_append cs more).map plainForm)
  · exact apart.1 ((List.prefix_append w _).map plainForm)

/-! ### First places -/

/-- The text before the first place of a word, written in any case, and the text after it. -/
def cutWord? (word : List Char) : List Char → Option (List Char × List Char)
  | [] => none
  | c :: rest => match dropWord? word (c :: rest) with
    | some after => some ([], after)
    | none => (cutWord? word rest).map fun (before, after) => (c :: before, after)

theorem upToWord?_eq (word cs : List Char) : upToWord? word cs = (cutWord? word cs).map (·.1) := by
  induction cs with
  | nil => rfl
  | cons c rest ih =>
      rw [upToWord?, cutWord?, ih]
      cases dropWord? word (c :: rest) with
      | some after => rfl
      | none => cases cutWord? word rest <;> rfl

/-- A word that stands in the end of a text stands in the text. -/
theorem isSome_cutWord?_of_suffix {rest cs : List Char} (suffix : rest <:+ cs)
    (stands : (cutWord? word rest).isSome) : (cutWord? word cs).isSome := by
  obtain ⟨before, rfl⟩ := suffix
  induction before with
  | nil => exact stands
  | cons c before ih =>
      rw [List.cons_append, cutWord?]
      split
      · rfl
      · rwa [Option.isSome_map]

theorem Mark.cutWord?_append (mark : Mark word) (cs : List Char) {rest : List Char}
    (atMark : AtMark rest) :
    cutWord? word (cs ++ rest) =
      ((cutWord? word cs).map fun (before, after) => (before, after ++ rest)).or
        ((cutWord? word rest).map fun (before, after) => (cs ++ before, after)) := by
  induction cs with
  | nil =>
      rw [List.nil_append]
      cases cutWord? word rest <;> rfl
  | cons c cs ih =>
      have whole := mark.dropWord?_append (List.cons_ne_nil c cs) atMark
      rw [List.cons_append] at whole
      rw [List.cons_append, cutWord?, cutWord?, whole]
      cases dropWord? word (c :: cs) with
      | some after => rfl
      | none =>
          simp only [Option.map_none, ih]
          cases cutWord? word cs <;> cases cutWord? word rest <;> rfl

/-- A mark that stands in a text stands there still when another mark follows. -/
theorem Mark.cutWord?_append_of_some (mark : Mark word) {cs before after rest : List Char}
    (cut : cutWord? word cs = some (before, after)) (atMark : AtMark rest) :
    cutWord? word (cs ++ rest) = some (before, after ++ rest) := by
  rw [mark.cutWord?_append cs atMark, cut]
  rfl

theorem Mark.cutWord?_append_of_none (mark : Mark word) {cs rest : List Char}
    (fresh : cutWord? word cs = none) (atMark : AtMark rest) :
    cutWord? word (cs ++ rest) =
      (cutWord? word rest).map fun (before, after) => (cs ++ before, after) := by
  rw [mark.cutWord?_append cs atMark, fresh]
  rfl

/-- A word is not found in marks that it cannot begin in. -/
theorem cutWord?_of_foreign (plain : ∀ l ∈ word, isPlain l) {m : List Char}
    (foreign : Foreign word (m.map plainForm)) (rest : List Char) :
    cutWord? word (m ++ rest) =
      (cutWord? word rest).map fun (before, after) => (m ++ before, after) := by
  have onwards (cs : List Char) (suffix : cs <:+ m) : cutWord? word (cs ++ rest) =
      (cutWord? word rest).map fun (before, after) => (cs ++ before, after) := by
    induction cs with
    | nil =>
        rw [List.nil_append]
        cases cutWord? word rest <;> rfl
    | cons c cs ih =>
        have nothing := dropWord?_of_foreign plain foreign suffix (List.cons_ne_nil c cs) rest
        rw [List.cons_append] at nothing
        rw [List.cons_append, cutWord?, nothing, ih ((List.suffix_cons c cs).trans suffix)]
        cases cutWord? word rest <;> rfl
  exact onwards m (List.suffix_refl m)

theorem Mark.cutWord?_written (mark : Mark word) {m : List Char} (written : m.map plainForm = word)
    (rest : List Char) : cutWord? word (m ++ rest) = some ([], rest) := by
  have found : dropWord? word (m ++ rest) = some rest :=
    (dropWord?_eq_some_iff mark.plain).mpr ⟨m, rfl, written⟩
  cases m with
  | nil => exact absurd written.symm mark.ne_nil
  | cons c m =>
      rw [List.cons_append] at found ⊢
      rw [cutWord?, found]

/-- A text is cut at a word that is written there, and the word does not stand before. -/
theorem Mark.of_cutWord? (mark : Mark word) {cs before after : List Char}
    (cut : cutWord? word cs = some (before, after)) :
    ∃ m, cs = before ++ (m ++ after) ∧ m.map plainForm = word ∧ cutWord? word before = none := by
  induction cs generalizing before with
  | nil => cases cut
  | cons c cs ih =>
      rw [cutWord?] at cut
      split at cut
      · next found =>
          cases cut
          obtain ⟨m, split, written⟩ := (dropWord?_eq_some_iff mark.plain).mp found
          exact ⟨m, split, written, rfl⟩
      · next nothing =>
          obtain ⟨⟨u, v⟩, later, same⟩ := Option.map_eq_some_iff.mp cut
          cases same
          obtain ⟨m, rfl, written, fresh⟩ := ih later
          have first : dropWord? word (c :: u) = none := by
            have whole := mark.dropWord?_append (List.cons_ne_nil c u) (mark.atMark written after)
            rw [List.cons_append, nothing] at whole
            exact Option.map_eq_none_iff.mp whole.symm
          exact ⟨m, rfl, written, by rw [cutWord?, first, fresh]; rfl⟩

end

/-! ### What is left without the matches -/

namespace Pattern

variable {α : Type} {p : Pattern α}

/-- Characters at which nothing is found before the rest are kept. -/
theorem erase_append_of_none {cs rest : List Char}
    (barren : ∀ after, after <:+ cs → after ≠ [] → p (after ++ rest) = none) :
    erase p (cs ++ rest) = cs ++ erase p rest := by
  induction cs with
  | nil => rfl
  | cons c cs ih =>
      have first := barren (c :: cs) (List.suffix_refl _) (List.cons_ne_nil c cs)
      have later := ih fun after suffix => barren after (suffix.trans (List.suffix_cons c cs))
      rw [List.cons_append] at first
      rw [List.cons_append, erase, eraseFrom, first, List.cons_append, ← later]
      rfl

theorem erase_append_of_eq_some {word rest : List Char} {a : α} (nonempty : word ≠ [])
    (found : p (word ++ rest) = some (a, word.length)) :
    erase p (word ++ rest) = erase p rest := by
  cases word with
  | nil => exact absurd rfl nonempty
  | cons c word =>
      rw [List.cons_append] at found ⊢
      rw [erase, eraseFrom, found]
      simp [eraseFrom_eq_drop]

end Pattern
end Text

open Text

/-! ### Blocks -/

namespace Block

theorem mark_opening (b : Block) : Mark b.opening := by
  cases b <;> exact ⟨List.all_eq_true.mp (by decide), by decide, by decide⟩

theorem mark_closing (b : Block) : Mark b.closing := by
  cases b <;> exact ⟨List.all_eq_true.mp (by decide), by decide, by decide⟩

theorem opening_foreign {b d : Block} (other : b ≠ d) :
    Foreign b.opening d.opening ∧ Foreign b.opening d.closing := by
  cases b <;> cases d <;> first | exact absurd rfl other | decide

theorem closing_foreign (b : Block) : Foreign b.closing b.opening := by
  cases b <;> decide

/-- Whether a block of the kind opens in a text. -/
def opensIn (b : Block) (cs : List Char) : Bool := (upToWord? b.opening cs).isSome

/-- Whether a block of the kind is closed in a text. -/
def closesIn (b : Block) (cs : List Char) : Bool := (upToWord? b.closing cs).isSome

theorem cut_of_not_opensIn {b : Block} {cs : List Char} (not : b.opensIn cs = false) :
    cutWord? b.opening cs = none := by
  simpa [opensIn, upToWord?_eq] using not

theorem cut_of_not_closesIn {b : Block} {cs : List Char} (not : b.closesIn cs = false) :
    cutWord? b.closing cs = none := by
  simpa [closesIn, upToWord?_eq] using not

theorem pattern_of_opened {b : Block} {cs after : List Char}
    (opened : dropWord? b.opening cs = some after) :
    b.pattern cs = (cutWord? b.closing after).map fun (content, _) =>
      (content, b.opening.length + content.length + b.closing.length) := by
  simp only [pattern, opened, upToWord?_eq, Option.bind_eq_bind, Option.bind_some]
  cases cutWord? b.closing after <;> rfl

theorem pattern_of_unopened {b : Block} {cs : List Char}
    (unopened : dropWord? b.opening cs = none) : b.pattern cs = none := by
  rw [pattern, unopened]
  rfl

/-- What closes a block that opens later would close one that opens first. -/
theorem unclosed_of_unclosed {b : Block} {c : Char} {cs after before later : List Char}
    (opened : dropWord? b.opening (c :: cs) = some after)
    (reopened : cutWord? b.opening cs = some (before, later))
    (unclosed : cutWord? b.closing after = none) : cutWord? b.closing later = none := by
  obtain ⟨m, split, written⟩ := (dropWord?_eq_some_iff b.mark_opening.plain).mp opened
  obtain ⟨n, split', written', -⟩ := b.mark_opening.of_cutWord? reopened
  have same : m.length = n.length := by
    simpa using congrArg List.length (written.trans written'.symm)
  have inside : later <:+ after := by
    have outer : after <:+ c :: cs := ⟨m, split.symm⟩
    have inner : later <:+ c :: cs := ⟨c :: (before ++ n), by simp [split']⟩
    refine List.suffix_of_suffix_length_le inner outer ?_
    have whole := congrArg List.length split
    have rest := congrArg List.length split'
    simp only [List.length_cons, List.length_append] at whole rest
    omega
  have stands : (cutWord? b.closing later).isSome → (cutWord? b.closing after).isSome :=
    isSome_cutWord?_of_suffix inside
  simpa [unclosed] using stands

/-- Where the first block of a kind is: it opens at the first opening mark, or there is none. -/
theorem first?_eq (b : Block) (cs : List Char) :
    b.pattern.first? cs =
      (cutWord? b.opening cs).bind fun (_, after) => (cutWord? b.closing after).map (·.1) := by
  induction cs with
  | nil => rfl
  | cons c cs ih =>
      rw [Pattern.first?, cutWord?, ih]
      cases opened : dropWord? b.opening (c :: cs) with
      | none =>
          rw [pattern_of_unopened opened]
          cases cutWord? b.opening cs <;> rfl
      | some after =>
          rw [pattern_of_opened opened, Option.bind_some]
          cases closed : cutWord? b.closing after with
          | some found => simp [closed]
          | none =>
              cases reopened : cutWord? b.opening cs with
              | none => simp [closed]
              | some found => simp [closed, unclosed_of_unclosed opened reopened closed]

theorem dropWord?_of_cut_none {word cs rest : List Char} (fresh : cutWord? word cs = none)
    (suffix : rest <:+ cs) (nonempty : rest ≠ []) : dropWord? word rest = none := by
  have absent : cutWord? word rest = none := by
    have stands : (cutWord? word rest).isSome → (cutWord? word cs).isSome :=
      isSome_cutWord?_of_suffix suffix
    simpa [fresh] using stands
  cases rest with
  | nil => exact absurd rfl nonempty
  | cons c rest =>
      rw [cutWord?] at absent
      split at absent
      · cases absent
      · next nothing => exact nothing

/-- A text in which no block of a kind opens is kept before another mark. -/
theorem erase_append_of_unopened {b : Block} {cs rest : List Char}
    (fresh : cutWord? b.opening cs = none) (atMark : AtMark rest) :
    b.pattern.erase (cs ++ rest) = cs ++ b.pattern.erase rest :=
  Pattern.erase_append_of_none fun part suffix nonempty => pattern_of_unopened <| by
    rw [b.mark_opening.dropWord?_append nonempty atMark,
      dropWord?_of_cut_none fresh suffix nonempty]
    rfl

theorem erase_append_of_foreign {b : Block} {m : List Char}
    (foreign : Foreign b.opening (m.map plainForm)) (rest : List Char) :
    b.pattern.erase (m ++ rest) = m ++ b.pattern.erase rest :=
  Pattern.erase_append_of_none fun _ suffix nonempty => pattern_of_unopened <|
    dropWord?_of_foreign b.mark_opening.plain foreign suffix nonempty rest

/-- A text without its blocks of a kind begins with what stands before the first of them and goes on
with what stands after it. -/
theorem erase_of_cut {b : Block} {cs before after content rest : List Char}
    (opened : cutWord? b.opening cs = some (before, after))
    (closed : cutWord? b.closing after = some (content, rest)) :
    b.pattern.erase cs = before ++ b.pattern.erase rest := by
  obtain ⟨m, rfl, written, fresh⟩ := b.mark_opening.of_cutWord? opened
  obtain ⟨n, rfl, written', -⟩ := b.mark_closing.of_cutWord? closed
  rw [erase_append_of_unopened fresh (b.mark_opening.atMark written _)]
  have nonempty : m ++ content ++ n ≠ [] := by
    intro empty
    simp only [List.append_eq_nil_iff] at empty
    exact b.mark_opening.ne_nil (by rw [← written, empty.1.1]; rfl)
  have found : b.pattern ((m ++ content ++ n) ++ rest) =
      some (content, (m ++ content ++ n).length) := by
    rw [List.append_assoc, List.append_assoc, pattern_of_opened
      ((dropWord?_eq_some_iff b.mark_opening.plain).mpr ⟨m, rfl, written⟩), closed]
    simp [← written, ← written', Nat.add_assoc]
  have whole : m ++ (content ++ (n ++ rest)) = (m ++ content ++ n) ++ rest := by simp
  rw [whole, Pattern.erase_append_of_eq_some nonempty found]

/-! ### What stands around a block of another kind -/

/-- Whether a kind of block keeps clear of a piece of text: none opens in it, and if one opens
before it, then the first that does is closed before it too. -/
def KeepsClear (b : Block) (before piece : List Char) : Prop :=
  (b.opensIn before → (b.pattern.first? before).isSome) ∧ b.opensIn piece = false

instance (b : Block) (before piece : List Char) : Decidable (b.KeepsClear before piece) :=
  inferInstanceAs (Decidable (_ ∧ _))

/-- The first block of a kind that keeps clear of a block of another kind stands before that one or
after it. -/
theorem first?_around {b d : Block} (other : b ≠ d) {before m content n rest : List Char}
    (opens : m.map plainForm = d.opening) (closes : n.map plainForm = d.closing)
    (clear : b.KeepsClear before content) :
    b.pattern.first? (before ++ (m ++ (content ++ (n ++ rest)))) =
      if b.opensIn before then b.pattern.first? before else b.pattern.first? rest := by
  have foreign := opening_foreign other
  rw [← opens, ← closes] at foreign
  have plain := b.mark_opening.plain
  have atOpening := d.mark_opening.atMark opens (content ++ (n ++ rest))
  have inner : cutWord? b.opening (m ++ (content ++ (n ++ rest))) =
      (cutWord? b.opening rest).map fun (u, v) => (m ++ (content ++ (n ++ u)), v) := by
    rw [cutWord?_of_foreign plain foreign.1, b.mark_opening.cutWord?_append_of_none
      (cut_of_not_opensIn clear.2) (d.mark_closing.atMark closes rest),
      cutWord?_of_foreign plain foreign.2]
    cases cutWord? b.opening rest <;> rfl
  rw [first?_eq, b.mark_opening.cutWord?_append before atOpening, inner]
  have closedBefore := clear.1
  simp only [opensIn, upToWord?_eq, Option.isSome_map] at closedBefore ⊢
  cases opened : cutWord? b.opening before with
  | none =>
      simp only [Option.map_none, Option.none_or, first?_eq b rest]
      cases cutWord? b.opening rest <;> rfl
  | some found =>
      have closed := closedBefore (by rw [opened]; rfl)
      rw [first?_eq, opened] at closed ⊢
      simp only [Option.map_some, Option.some_or, Option.bind_some, Option.isSome_map] at closed ⊢
      rw [b.mark_closing.cutWord?_append found.2 atOpening]
      obtain ⟨_, stands⟩ := Option.isSome_iff_exists.mp closed
      simp [stands]

end Block
end Ascent
