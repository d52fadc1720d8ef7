import Ascent.Command.Fight
import Ascent.Proofs.Marks
import Ascent.Proofs.Puts
import Ascent.Proofs.Thought
import Ascent.Proofs.Wording
import Mathlib.Data.List.Infix

/-!
What a list of dispositions is read as.

A name runs up to a mark and holds no comma, so a search that goes through a list never finds
anything across the end of an entry, and each entry is found by its name or not at all. But it is
found as soon as what follows its mark begins with the word of a disposition: whether the word ends
there is not asked. So entries are read as they are meant where no action merely begins with such
a word.

Main exports: `dispositionWord_eq_some_iff`, `DispositionEntry`, `DispositionEntry.Misread`,
`findAll_entry`, `DispositionEntry.readDispositions_text`.
-/

namespace Ascent

open Text

namespace Text.Pattern

variable {α : Type} {p : Pattern α} {cs rest : List Char}

/-- Characters at which nothing is found before the rest are passed over. -/
theorem findAll_append_of_suffix
    (barren : ∀ after, after <:+ cs → after ≠ [] → p (after ++ rest) = none) :
    findAll p (cs ++ rest) = findAll p rest := by
  induction cs with
  | nil => rfl
  | cons c cs ih =>
      have first := barren (c :: cs) (List.suffix_refl _) (List.cons_ne_nil c cs)
      have later := ih fun after suffix => barren after (suffix.trans (List.suffix_cons c cs))
      rw [List.cons_append] at first
      rw [List.cons_append, findAll, findFrom, first]
      exact later

theorem findAll_cons_of_eq_none {c : Char} (nothing : p (c :: rest) = none) :
    findAll p (c :: rest) = findAll p rest := by
  rw [findAll, findFrom, nothing]
  rfl

end Text.Pattern

/-- Characters whose lower case is plain are forms of what they are in lower case. -/
theorem map_plainForm_of_lowerAfter {word : List Char} (plain : ∀ l ∈ word, isPlain l)
    {before cs : List Char} (lowered : lowerAfter before cs = word) :
    cs.map plainForm = word := by
  induction cs generalizing before word with
  | nil => exact lowered
  | cons c cs ih =>
      subst lowered
      rw [lowerAfter] at plain ⊢
      have later := ih (fun l member => plain l (List.mem_append_right _ member)) rfl
      have first : lowerBetween before c cs = [plainForm c] := by
        have shown : ∀ l ∈ lowerBetween before c cs, isPlain l := fun l member =>
          plain l (List.mem_append_left _ member)
        by_cases special : c.toNat = 0x3A3 ∨ c.toNat = 0x130
        · -- a sigma and the dotted capital have no plain lower case
          exfalso
          rcases special with sigma | dotted
          · rw [lowerBetween, if_pos sigma] at shown
            have impossible := shown _ List.mem_cons_self
            split at impossible <;> cases impossible
          · have notSigma : c.toNat ≠ 0x3A3 := by rw [dotted]; decide
            rw [lowerBetween, if_neg notSigma, lowerChar, dotted] at shown
            cases shown (Char.ofNat 0x307) (by rw [if_pos rfl]; exact .tail _ (.head _))
        · obtain ⟨sigma, dotted⟩ := not_or.mp special
          rw [lowerBetween_eq sigma dotted] at shown ⊢
          rw [plainForm_of_loneLower (shown _ List.mem_cons_self) rfl]
      rw [List.map_cons, later, first]
      rfl

/-! ### The word of a disposition -/

theorem isPlain_of_disposition : ∀ w ∈ Disposition.words, ∀ l ∈ w.1.toList, isPlain l :=
  have all : ∀ w ∈ Disposition.words, w.1.toList.all isPlain := by decide +kernel
  fun w known => List.all_eq_true.mp (all w known)

/-- No disposition's word begins another one's. -/
theorem disposition_of_isPrefix : ∀ w ∈ Disposition.words, ∀ w' ∈ Disposition.words,
    w.1.toList <+: w'.1.toList → w = w' := by
  decide +kernel

/-- A character that is a form of no letter in the words of dispositions. -/
def BesideWords (c : Char) : Prop := ∀ w ∈ Disposition.words, plainForm c ∉ w.1.toList

instance (c : Char) : Decidable (BesideWords c) :=
  inferInstanceAs (Decidable (∀ w ∈ Disposition.words, plainForm c ∉ w.1.toList))

theorem besideWords_comma : BesideWords ',' := by decide +kernel

theorem besideWords_of_asciiBlank :
    ∀ n < 128, isBlank (Char.ofNat n) → BesideWords (Char.ofNat n) := by
  decide +kernel

theorem besideWords_of_blankRange : ∀ r ∈ blankRanges, ∀ n ∈ List.range' r.1 (r.2 - r.1 + 1),
    BesideWords (Char.ofNat n) := by
  decide +kernel

theorem besideWords_of_isBlank {c : Char} (blank : isBlank c) : BesideWords c := by
  by_cases ascii : c.toNat < 128
  · rw [← Char.ofNat_toNat c] at blank ⊢
    exact besideWords_of_asciiBlank c.toNat ascii blank
  · rw [isBlank, if_neg ascii] at blank
    obtain ⟨r, known, within⟩ := List.any_eq_true.mp blank
    simp only [Bool.and_eq_true, decide_eq_true_eq] at within
    have beside := besideWords_of_blankRange r known c.toNat (List.mem_range'_1.mpr (by omega))
    rwa [Char.ofNat_toNat] at beside

section

variable {cs lowered : List Char} {size : Nat}

/-- What is found at the head of some characters is a word of which they begin with forms of the
letters; it is given in the lower case of these. -/
theorem exists_of_dispositionWord (found : dispositionWord cs = some (lowered, size)) :
    ∃ w ∈ Disposition.words, ∃ m rest, cs = m ++ rest ∧ m.map plainForm = w.1.toList ∧
      lowered = lowerChars m ∧ size = m.length := by
  obtain ⟨w, known, found⟩ := List.exists_of_findSome?_eq_some found
  obtain ⟨rest, dropped, same⟩ := Option.map_eq_some_iff.mp found
  obtain ⟨m, rfl, written⟩ :=
    (dropWord?_eq_some_iff (isPlain_of_disposition w known)).mp dropped
  have length : w.1.length = m.length := by
    rw [← String.length_toList, ← written, List.length_map]
  simp only [length, List.take_left', Prod.mk.injEq] at same
  exact ⟨w, known, m, rest, rfl, written, same.1.symm, same.2.symm⟩

/-- The forms of two words do not stand at the head of the same characters: one of the words would
begin the other. -/
theorem disposition_unique {w w' : String × Disposition} (known : w ∈ Disposition.words)
    (known' : w' ∈ Disposition.words) {m m' rest rest' : List Char}
    (split : m ++ rest = m' ++ rest') (written : m.map plainForm = w.1.toList)
    (written' : m'.map plainForm = w'.1.toList) : m = m' := by
  have same : w = w' := by
    rcases List.prefix_or_prefix_of_prefix ⟨rest, rfl⟩ ⟨rest', split.symm⟩ with first | first
    · exact disposition_of_isPrefix w known w' known'
        (by rw [← written, ← written']; exact first.map plainForm)
    · exact (disposition_of_isPrefix w' known' w known
        (by rw [← written, ← written']; exact first.map plainForm)).symm
  subst same
  have length : m.length = m'.length := by
    simpa using congrArg List.length (written.trans written'.symm)
  exact (List.append_inj split length).1

/-- A word is found at the head of some characters just where they begin with forms of its
letters. -/
theorem dispositionWord_eq_some_iff :
    dispositionWord cs = some (lowered, size) ↔
      ∃ w ∈ Disposition.words, ∃ m rest, cs = m ++ rest ∧ m.map plainForm = w.1.toList ∧
        lowered = lowerChars m ∧ size = m.length := by
  refine ⟨exists_of_dispositionWord, ?_⟩
  rintro ⟨w, known, m, rest, rfl, written, rfl, rfl⟩
  have some_ : (dispositionWord (m ++ rest)).isSome := by
    rw [dispositionWord, List.findSome?_isSome_iff]
    have dropped : dropWord? w.1.toList (m ++ rest) = some rest :=
      (dropWord?_eq_some_iff (isPlain_of_disposition w known)).mpr ⟨m, rfl, written⟩
    exact ⟨w, known, by simp [dropped]⟩
  obtain ⟨⟨lowered, size⟩, found⟩ := Option.isSome_iff_exists.mp some_
  obtain ⟨w', known', m', rest', split, written', rfl, rfl⟩ := exists_of_dispositionWord found
  rw [found, disposition_unique known known' split written written']

end

/-- What cannot go on a word does not matter behind the characters. -/
theorem dispositionWord_append {tail : List Char} (cs : List Char)
    (beside : ∀ c ∈ tail.head?, BesideWords c) :
    dispositionWord (cs ++ tail) = dispositionWord cs := by
  refine Option.ext fun ⟨lowered, size⟩ => ?_
  simp only [dispositionWord_eq_some_iff]
  constructor
  · rintro ⟨w, known, m, rest, split, written, rfl, rfl⟩
    obtain ⟨between, whole, -⟩ := exists_of_append_eq split fun c first inside =>
      beside c first w known (written ▸ List.mem_of_mem_drop inside)
    exact ⟨w, known, m, between, whole, written, rfl, rfl⟩
  · rintro ⟨w, known, m, rest, rfl, written, rfl, rfl⟩
    exact ⟨w, known, m, rest ++ tail, List.append_assoc _ _ _, written, rfl, rfl⟩

/-- Blanks around an action do not matter to the word that it begins with. -/
theorem dispositionWord_trimChars (cs : List Char) :
    dispositionWord (trimChars cs) = dispositionWord (cs.dropWhile isBlank) := by
  obtain ⟨after, split, blank⟩ := exists_dropWhile_isBlank cs
  rw [split, dispositionWord_append]
  exact fun c first => besideWords_of_isBlank (blank c (List.mem_of_mem_head? first))

/-! ### Names with a mark -/

/-- Whether a character ends a name: a comma or a mark. -/
def isParting (c : Char) : Bool := c = ',' || c = ':' || c = '='

/-- Characters in which no name ends. -/
def Undivided (cs : List Char) : Prop := ∀ c ∈ cs, isParting c = false

instance (cs : List Char) : Decidable (Undivided cs) :=
  decidable_of_iff (cs.all (!isParting ·)) (by simp [Undivided])

/-- What stands behind an entry: nothing, or a comma and more. -/
def AfterEntry (rest : List Char) : Prop := ∀ c ∈ rest.head?, c = ','

section

variable {name action rest : List Char} {mark : Char}

theorem isParting_of_mark (marked : mark = ':' ∨ mark = '=') : isParting mark := by
  rcases marked with rfl | rfl <;> rfl

/-- A name is found up to what ends it, where that is a mark and a disposition's word follows. -/
theorem namedDisposition_eq (whole : Undivided name) (parting : isParting mark) (rest : List Char) :
    namedDisposition (name ++ mark :: rest) =
      (dispositionWord (rest.dropWhile isBlank)).bind fun (word, size) =>
        if name = [] ∨ mark = ',' then none
        else some ((String.ofList (trimChars name), String.ofList word),
          (name ++ mark :: rest).length - ((rest.dropWhile isBlank).length - size)) := by
  have called : (name ++ mark :: rest).takeWhile
      (fun c => !(c = ',' || c = ':' || c = '=')) = name := by
    refine takeWhile_append_of_stop (fun c member => ?_) (fun c first => ?_)
    · exact congrArg (!·) (whole c member)
    · cases first
      exact congrArg (!·) parting
  simp only [namedDisposition, called, List.drop_left']
  cases dispositionWord (rest.dropWhile isBlank) with
  | none => rfl
  | some found => simp [List.isEmpty_iff]

/-- Where a name is not ended by a mark nothing is found. -/
theorem namedDisposition_unmarked (whole : Undivided name) (closed : AfterEntry rest) :
    namedDisposition (name ++ rest) = none := by
  cases rest with
  | nil =>
      have called : name.takeWhile (fun c => !(c = ',' || c = ':' || c = '=')) = name :=
        List.takeWhile_eq_self_iff.mpr fun c member => congrArg (!·) (whole c member)
      simp only [namedDisposition, List.append_nil, called, List.drop_length]
  | cons c rest =>
      obtain rfl := closed c rfl
      rw [namedDisposition_eq whole rfl]
      cases dispositionWord (rest.dropWhile isBlank) <;> simp

/-! ### Entries -/

/-- What is read of an entry. -/
def verdict (name action : List Char) : Option (String × String) :=
  (dispositionWord (trimChars action)).map fun (word, _) =>
    (String.ofList (trimChars name), String.ofList word)

theorem findAll_of_unmarked (whole : Undivided name) (closed : AfterEntry rest) :
    namedDisposition.findAll (name ++ rest) = namedDisposition.findAll rest :=
  Pattern.findAll_append_of_suffix fun _ suffix _ =>
    namedDisposition_unmarked (fun c member => whole c (suffix.subset member)) closed

/-- Nothing is found at a comma. -/
theorem findAll_comma (rest : List Char) :
    namedDisposition.findAll (',' :: rest) = namedDisposition.findAll rest :=
  Pattern.findAll_cons_of_eq_none <|
    namedDisposition_unmarked (show Undivided [] by simp [Undivided]) fun _ first =>
      (Option.some.inj first).symm

/-- What follows an entry does not matter to the word that its action begins with. -/
theorem dropWhile_append_of_closed (closed : AfterEntry rest) (action : List Char) :
    (action ++ rest).dropWhile isBlank = action.dropWhile isBlank ++ rest := by
  have solid : ∀ c ∈ rest.head?, isBlank c = false := fun c first => closed c first ▸ rfl
  rw [List.dropWhile_append, dropWhile_eq_self_of_head solid]
  split <;> simp_all

theorem dispositionWord_of_closed (closed : AfterEntry rest) (action : List Char) :
    dispositionWord ((action ++ rest).dropWhile isBlank) =
      dispositionWord (trimChars action) := by
  rw [dropWhile_append_of_closed closed, dispositionWord_trimChars, dispositionWord_append]
  exact fun c first => closed c first ▸ besideWords_comma

/-- A name with a mark and a word takes as many characters as these have, with the blanks before the
word. -/
theorem namedDisposition_of_word (named : name ≠ []) (marked : mark = ':' ∨ mark = '=')
    (whole : Undivided name) {blanks m more : List Char}
    (split : rest = blanks ++ (m ++ more)) (behind : rest.dropWhile isBlank = m ++ more)
    (found : dispositionWord (m ++ more) = some (lowerChars m, m.length)) :
    namedDisposition ((name ++ mark :: (blanks ++ m)) ++ more) =
      some ((String.ofList (trimChars name), String.ofList (lowerChars m)),
        (name ++ mark :: (blanks ++ m)).length) := by
  have notComma : mark ≠ ',' := by rcases marked with rfl | rfl <;> decide
  have joined : (name ++ mark :: (blanks ++ m)) ++ more = name ++ mark :: rest := by
    simp [split]
  have size : (name ++ mark :: rest).length - ((rest.dropWhile isBlank).length - m.length) =
      (name ++ mark :: (blanks ++ m)).length := by
    rw [behind, split]
    simp
    omega
  rw [joined, namedDisposition_eq whole (isParting_of_mark marked), behind, found, Option.bind_some,
    ← size, behind]
  simp [named, notComma]

/-- An entry whose action begins with no word is passed over. -/
theorem findAll_of_wordless (marked : mark = ':' ∨ mark = '=') {action : List Char}
    (wholeName : Undivided name) (wholeAction : Undivided action) (closed : AfterEntry rest)
    (wordless : dispositionWord (trimChars action) = none) :
    namedDisposition.findAll (name ++ mark :: (action ++ rest)) =
      namedDisposition.findAll rest := by
  have barren (after : List Char) (whole : Undivided after) :
      namedDisposition (after ++ mark :: (action ++ rest)) = none := by
    rw [namedDisposition_eq whole (isParting_of_mark marked),
      dispositionWord_of_closed closed, wordless]
    rfl
  rw [Pattern.findAll_append_of_suffix fun after suffix _ =>
      barren after fun c member => wholeName c (suffix.subset member),
    Pattern.findAll_cons_of_eq_none (barren [] (by simp [Undivided])),
    findAll_of_unmarked wholeAction closed]

/-- Of an entry whose action begins with a word, the name and the word are found, and nothing in the
rest of the action. -/
theorem findAll_of_word (named : name ≠ []) (marked : mark = ':' ∨ mark = '=')
    {action word : List Char} {size : Nat} (wholeName : Undivided name)
    (wholeAction : Undivided action) (closed : AfterEntry rest)
    (found : dispositionWord (trimChars action) = some (word, size)) :
    namedDisposition.findAll (name ++ mark :: (action ++ rest)) =
      (String.ofList (trimChars name), String.ofList word) :: namedDisposition.findAll rest := by
  have here := (dispositionWord_trimChars action).symm.trans found
  obtain ⟨w, known, m, more, split, forms, rfl, rfl⟩ := dispositionWord_eq_some_iff.mp here
  -- the search goes on behind the word, where the action has no other mark
  have wholeMore : Undivided more := fun c member =>
    wholeAction c ((List.dropWhile_suffix isBlank).subset
      (split ▸ List.mem_append_right m member))
  have behind : (action ++ rest).dropWhile isBlank = m ++ (more ++ rest) := by
    rw [dropWhile_append_of_closed closed, split, List.append_assoc]
  have parts : action ++ rest = action.takeWhile isBlank ++ (m ++ (more ++ rest)) := by
    rw [← List.append_assoc m, ← split, ← List.append_assoc, List.takeWhile_append_dropWhile]
  have first := namedDisposition_of_word named marked wholeName parts behind
    (by rw [← behind, dispositionWord_of_closed closed, found])
  have cut : name ++ mark :: (action ++ rest) =
      (name ++ mark :: (action.takeWhile isBlank ++ m)) ++ (more ++ rest) := by
    rw [parts]
    simp
  rw [cut, Pattern.findAll_append_of_eq_some (by simp) first, findAll_of_unmarked wholeMore closed]

/-- An entry is read for itself, whatever follows it. -/
theorem findAll_entry (named : name ≠ []) (marked : mark = ':' ∨ mark = '=') {action : List Char}
    (whole : Undivided (name ++ action)) (closed : AfterEntry rest) :
    namedDisposition.findAll (name ++ mark :: (action ++ rest)) =
      (verdict name action).toList ++ namedDisposition.findAll rest := by
  have wholeName : Undivided name := fun c member => whole c (List.mem_append_left _ member)
  have wholeAction : Undivided action := fun c member => whole c (List.mem_append_right _ member)
  cases found : dispositionWord (trimChars action) with
  | none =>
      rw [findAll_of_wordless marked wholeName wholeAction closed found, verdict, found]
      rfl
  | some word =>
      rw [findAll_of_word named marked wholeName wholeAction closed found, verdict, found]
      rfl

end

/-! ### Lists of entries -/

/-- An entry of a list of dispositions, as it is written. -/
structure DispositionEntry where
  called : String
  mark : Char
  action : String
deriving DecidableEq, Repr

namespace DispositionEntry

/-- The text of an entry. -/
def written (e : DispositionEntry) : String := e.called ++ String.singleton e.mark ++ e.action

/-- The text of a list of entries. -/
def text (entries : List DispositionEntry) : String := joinWith "," (entries.map written)

/-- An entry with a name, and with a comma or a mark nowhere but between name and action. -/
structure Plain (e : DispositionEntry) : Prop where
  named : e.called ≠ ""
  marked : e.mark = ':' ∨ e.mark = '='
  whole : Undivided (e.called.toList ++ e.action.toList)

/-- What an entry orders: its action is, but for blanks and case, the word of a disposition. -/
def ordered? (e : DispositionEntry) : Option (String × String) :=
  if lower (trim e.action) ∈ Disposition.words.map Prod.fst then
    some (trim e.called, lower (trim e.action))
  else none

/-- Whether an action begins with the word of a disposition, in some form of its letters. -/
def Begins (e : DispositionEntry) : Prop :=
  ∃ w ∈ Disposition.words, w.1.toList <+: (trimChars e.action.toList).map plainForm

/-- An action that begins with the word of a disposition but is none. -/
def Misread (e : DispositionEntry) : Prop := e.Begins ∧ e.ordered? = none

/-- What an entry is read as: the word that its action begins with stands for the action. -/
def read? (e : DispositionEntry) : Option (String × String) :=
  verdict e.called.toList e.action.toList

instance (e : DispositionEntry) : Decidable e.Begins :=
  inferInstanceAs (Decidable (∃ w ∈ Disposition.words, _))

instance (e : DispositionEntry) : Decidable e.Misread := inferInstanceAs (Decidable (_ ∧ _))

instance (e : DispositionEntry) : Decidable e.Plain :=
  decidable_of_iff (e.called ≠ "" ∧ (e.mark = ':' ∨ e.mark = '=') ∧
      Undivided (e.called.toList ++ e.action.toList))
    ⟨fun h => ⟨h.1, h.2.1, h.2.2⟩, fun h => ⟨h.named, h.marked, h.whole⟩⟩

theorem isSome_read?_iff {e : DispositionEntry} : e.read?.isSome ↔ e.Begins := by
  rw [read?, verdict, Option.isSome_map, Option.isSome_iff_exists]
  constructor
  · rintro ⟨⟨lowered, size⟩, found⟩
    obtain ⟨w, known, m, rest, split, forms, -⟩ := dispositionWord_eq_some_iff.mp found
    exact ⟨w, known, forms ▸ split ▸ (List.prefix_append m rest).map plainForm⟩
  · rintro ⟨w, known, rest, split⟩
    obtain ⟨m, more, parts, forms, -⟩ := List.map_eq_append_iff.mp split.symm
    exact ⟨_, dispositionWord_eq_some_iff.mpr ⟨w, known, m, more, parts, forms, rfl, rfl⟩⟩

/-- An entry that orders something is read as what it orders. -/
theorem read?_of_ordered? {e : DispositionEntry} {order : String × String}
    (ordered : e.ordered? = some order) : e.read? = some order := by
  rw [ordered?] at ordered
  split at ordered
  · next known =>
      obtain ⟨w, known, same⟩ := List.mem_map.mp known
      have lowered : lowerChars (trimChars e.action.toList) = w.1.toList := by
        simp [same, lower, trim]
      have forms := map_plainForm_of_lowerAfter (isPlain_of_disposition w known) lowered
      have found := dispositionWord_eq_some_iff.mpr
        ⟨w, known, _, [], (List.append_nil _).symm, forms, rfl, rfl⟩
      rw [read?, verdict, found, ← ordered]
      simp [lower, trim]
  · cases ordered

/-- An entry is read as what it orders where it does not merely begin with the word of a
disposition. -/
theorem read?_eq_ordered?_iff {e : DispositionEntry} : e.read? = e.ordered? ↔ ¬ e.Misread := by
  rw [Misread, ← isSome_read?_iff]
  cases ordered : e.ordered? with
  | some order => simp [read?_of_ordered? ordered]
  | none => simp

theorem findAll_written {e : DispositionEntry} (plain : e.Plain) (rest : List Char)
    (closed : AfterEntry rest) :
    namedDisposition.findAll (e.written.toList ++ rest) =
      e.read?.toList ++ namedDisposition.findAll rest := by
  have text : e.written.toList ++ rest =
      e.called.toList ++ e.mark :: (e.action.toList ++ rest) := by
    simp [written]
  rw [text, findAll_entry (by simpa using plain.named) plain.marked plain.whole closed]
  rfl

/-- A list of entries is searched entry by entry. -/
theorem findAll_entries {entries : List DispositionEntry} (plain : ∀ e ∈ entries, e.Plain) :
    namedDisposition.findAll (text entries).toList = entries.filterMap read? := by
  rw [text, joinWith, String.toList_intercalate, List.filterMap_eq_flatMap_toList]
  induction entries with
  | nil => rfl
  | cons e entries ih =>
      have later := ih fun f member => plain f (List.mem_cons_of_mem e member)
      have first := plain e List.mem_cons_self
      rw [List.flatMap_cons, ← later]
      cases entries with
      | nil =>
          have alone := findAll_written first [] (by simp [AfterEntry])
          rw [List.append_nil] at alone
          simpa [List.intercalate_singleton] using alone
      | cons f entries =>
          simp only [List.map_cons, List.intercalate_cons_cons, List.append_assoc]
          rw [findAll_written first _ fun c first => by cases first; rfl]
          exact congrArg (e.read?.toList ++ ·) (findAll_comma _)

/-- An entry that merely begins with the word of a disposition is read as if it ordered it, and a
list without such entries is read as it is meant: a name that an entry orders something for has what
the last such entry orders, and there is no other name. -/
theorem readDispositions_text {entries : List DispositionEntry} (plain : ∀ e ∈ entries, e.Plain) :
    readDispositions (text entries) = Pairs.ofList (entries.filterMap read?) ∧
      (∀ e ∈ entries, e.read? = e.ordered? ↔ ¬ e.Misread) ∧
      ((∀ e ∈ entries, ¬ e.Misread) →
        readDispositions (text entries) = Pairs.ofList (entries.filterMap ordered?) ∧
        ∀ called, (readDispositions (text entries)).get? called =
          ((entries.filterMap ordered?).filter (·.1 == called)).getLast?.map Prod.snd) := by
  have whole : readDispositions (text entries) = Pairs.ofList (entries.filterMap read?) :=
    congrArg Pairs.ofList (findAll_entries plain)
  refine ⟨whole, fun e _ => read?_eq_ordered?_iff, fun none => ?_⟩
  have same : entries.filterMap read? = entries.filterMap ordered? :=
    List.filterMap_congr fun e member => read?_eq_ordered?_iff.mpr (none e member)
  refine ⟨by rw [whole, same], fun called => ?_⟩
  rw [whole, same, Pairs.get?_ofList, Pairs.last?_eq_getLast?]

/-- A name that two entries order something for, and an action that is no disposition. -/
theorem readDispositions_text_four :
    let entries : List DispositionEntry := [⟨"Wolf King", ':', "kill"⟩,
      ⟨" Bandit ", '=', " Capture "⟩, ⟨" Cai", ':', " spare"⟩, ⟨" Bandit", ':', "RELEASE"⟩]
    (∀ e ∈ entries, e.Plain) ∧ (∀ e ∈ entries, ¬ e.Misread) ∧
      readDispositions "Wolf King:kill, Bandit = Capture , Cai: spare, Bandit:RELEASE" =
        [("Wolf King", "kill"), ("Bandit", "release")] := by
  intro entries
  have plain : ∀ e ∈ entries, e.Plain := by decide +kernel
  have meant : ∀ e ∈ entries, ¬ e.Misread := by decide +kernel
  have written :
      text entries = "Wolf King:kill, Bandit = Capture , Cai: spare, Bandit:RELEASE" := by
    decide +kernel
  refine ⟨plain, meant, ?_⟩
  rw [← written, ((readDispositions_text plain).2.2 meant).1]
  decide +kernel

/-- Not every list is read as it is meant: an attempt to capture somebody that failed is read as an
order to capture. -/
theorem failed_capture_captures :
    ¬ ∀ entries : List DispositionEntry, (∀ e ∈ entries, e.Plain) →
      readDispositions (text entries) = Pairs.ofList (entries.filterMap ordered?) := by
  intro all
  have read := all [⟨"Elder Mo", ':', " capture failed"⟩] (by decide +kernel)
  exact absurd read (by decide +kernel)

end DispositionEntry
end Ascent
