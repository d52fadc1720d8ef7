import Ascent.Named
import Mathlib.Data.List.Nodup
import Mathlib.Data.List.TakeWhile

/-!
Names as they are looked up, and lists in which no name stands twice.

A name means the first record that is called what is left of it once blanks and a qualifier are
gone. What is left may hold a qualifier again, if the name has several lines; a name of one line is
settled: what is left of it is left of that too. So a record that is kept under what is left of a
settled name, and only where nothing is found for that, has no namesake.

Main exports: `fold_name_of_findNamed?`, `NamesDistinct`, `Settled`, `settled_of_one_line`,
`fold_sanitizeName_ne`.
-/

namespace Ascent

open Text

/-! ### What is found under a name -/

section

variable {α : Type} [Named α] {records : List α} {called : String} {i : Nat} {r : α}

theorem getElem?_of_findNamed? (h : findNamed? records called = some (i, r)) :
    records[i]? = some r := by
  simp only [findNamed?, Option.bind_eq_bind, Option.bind_eq_some_iff, Option.some.injEq,
    Prod.mk.injEq] at h
  obtain ⟨_, _, _, found, rfl, rfl⟩ := h
  exact found

theorem mem_of_findNamed? (h : findNamed? records called = some (i, r)) : r ∈ records :=
  List.mem_of_getElem? (getElem?_of_findNamed? h)

theorem fold_name_of_findNamed? (h : findNamed? records called = some (i, r)) :
    fold (sanitizeName called) ≠ "" ∧ fold (name r) = fold (sanitizeName called) := by
  simp only [findNamed?, Option.bind_eq_bind, Option.bind_eq_some_iff, Option.some.injEq,
    Prod.mk.injEq] at h
  obtain ⟨j, here, q, at_, rfl, rfl⟩ := h
  simp only [findPlace?] at here
  split at here
  · cases here
  · next written =>
      obtain ⟨bound, goes, _⟩ := List.findIdx?_eq_some_iff_getElem.mp here
      rw [List.getElem?_eq_getElem bound] at at_
      rw [← Option.some.inj at_]
      exact ⟨written, eq_of_beq goes⟩

/-- Where a name means none of the records, none is called so. -/
theorem not_mem_names_of_hasNamed (written : fold (sanitizeName called) ≠ "")
    (none : hasNamed records called = false) :
    fold (sanitizeName called) ∉ records.map fun r => fold (name r) := by
  rw [hasNamed, findPlace?, if_neg written, Option.isSome_eq_false_iff, Option.isNone_iff_eq_none,
    List.findIdx?_eq_none_iff] at none
  intro member
  obtain ⟨r, member, same⟩ := List.mem_map.mp member
  have other := none r member
  simp only [goesBy, beq_eq_false_iff_ne, ne_eq] at other
  exact other same

theorem hasNamed_of_findNamed?_none (none : findNamed? records called = none) :
    hasNamed records called = false := by
  rw [hasNamed, Option.isSome_eq_false_iff, Option.isNone_iff_eq_none]
  simp only [findNamed?, Option.bind_eq_bind] at none
  cases here : findPlace? records called with
  | none => rfl
  | some j =>
      rw [here, Option.bind_some] at none
      have bound : j < records.length := by
        rw [findPlace?] at here
        split at here
        · cases here
        · exact (List.findIdx?_eq_some_iff_getElem.mp here).1
      rw [List.getElem?_eq_getElem bound] at none
      cases none

end

/-! ### Lists in which no name stands twice -/

/-- No two records go by one name, case aside. -/
def NamesDistinct {α : Type} [Named α] (records : List α) : Prop :=
  (records.map fun r => fold (name r)).Nodup

namespace NamesDistinct

variable {α : Type} [Named α] {records others : List α} {place : Nat} {r q : α}

theorem nil : NamesDistinct ([] : List α) := List.nodup_nil

theorem sublist (h : NamesDistinct records) (less : others.Sublist records) :
    NamesDistinct others :=
  List.Nodup.sublist (less.map _) h

theorem filter (h : NamesDistinct records) (p : α → Bool) : NamesDistinct (records.filter p) :=
  h.sublist List.filter_sublist

theorem eraseIdx (h : NamesDistinct records) (place : Nat) :
    NamesDistinct (records.eraseIdx place) :=
  h.sublist (List.eraseIdx_sublist _ place)

theorem map (h : NamesDistinct records) {f : α → α} (same : ∀ r, name (f r) = name r) :
    NamesDistinct (records.map f) := by
  have names : (records.map f).map (fun r => fold (name r)) =
      records.map fun r => fold (name r) := by simp [Function.comp_def, same]
  rw [NamesDistinct, names]
  exact h

/-- A record takes the place of a namesake. -/
theorem set (h : NamesDistinct records) (there : records[place]? = some q)
    (same : name r = name q) : NamesDistinct (records.set place r) := by
  obtain ⟨bound, rfl⟩ := List.getElem?_eq_some_iff.mp there
  have bound' : place < (records.map fun r => fold (name r)).length := by simpa using bound
  have here : (records.map fun r => fold (name r))[place] = fold (name records[place]) :=
    List.getElem_map ..
  rw [NamesDistinct, List.map_set, same, ← here, List.set_getElem_self]
  exact h

/-- A record of a new name is added. -/
theorem append (h : NamesDistinct records)
    (fresh : fold (name r) ∉ records.map fun r => fold (name r)) :
    NamesDistinct (records ++ [r]) := by
  simpa [NamesDistinct] using List.Nodup.concat fresh h

end NamesDistinct

/-! ### Texts without the blanks around them -/

namespace Text

section

variable {p : Char → Bool} {cs : List Char}

theorem head?_trimWhere : ∀ c ∈ (trimWhere p cs).head?, p c = false := by
  intro c first
  rw [trimWhere, List.head?_reverse] at first
  -- what is dropped at the end leaves the first character, which was not dropped at the start
  have suffix := List.dropWhile_suffix p (l := (cs.dropWhile p).reverse)
  obtain ⟨before, split⟩ := suffix
  have last : (cs.dropWhile p).reverse.getLast? = some c := by
    rw [← split, List.getLast?_append, first]
    rfl
  rw [List.getLast?_reverse] at last
  have head := List.head?_dropWhile_not p cs
  rw [last] at head
  simpa using head

theorem getLast?_trimWhere : ∀ c ∈ (trimWhere p cs).getLast?, p c = false := by
  intro c last
  rw [trimWhere, List.getLast?_reverse] at last
  have head := List.head?_dropWhile_not p (cs.dropWhile p).reverse
  rw [last] at head
  simpa using head

theorem trimWhere_trimWhere : trimWhere p (trimWhere p cs) = trimWhere p cs :=
  trimWhere_eq_self head?_trimWhere getLast?_trimWhere

theorem trimWhere_sublist (cs : List Char) : (trimWhere p cs).Sublist cs := by
  have inner := (List.dropWhile_sublist p (l := (cs.dropWhile p).reverse)).reverse
  rw [List.reverse_reverse] at inner
  exact inner.trans (List.dropWhile_sublist p)

theorem trimWhere_ne_nil {c : Char} (member : c ∈ cs) (stays : p c = false) :
    trimWhere p cs ≠ [] := by
  intro empty
  rw [trimWhere, List.reverse_eq_nil_iff, List.dropWhile_eq_nil_iff] at empty
  have head := List.head?_dropWhile_not p cs
  cases left : cs.dropWhile p with
  | nil => simp [List.dropWhile_eq_nil_iff.mp left c member] at stays
  | cons d rest =>
      rw [left] at head empty
      have dropped := empty d (by simp)
      simp [dropped] at head

/-- From a text that begins with a character that stays, only the end is trimmed. -/
theorem trimWhere_prefix (first : ∀ c ∈ cs.head?, p c = false) : trimWhere p cs <+: cs := by
  rw [trimWhere, dropWhile_eq_self_of_head first, ← List.reverse_suffix, List.reverse_reverse]
  exact List.dropWhile_suffix p

end

theorem trim_trim (s : String) : trim (trim s) = trim s := by
  rw [trim, trim, String.toList_ofList]
  exact congrArg String.ofList trimWhere_trimWhere

namespace Pattern

variable {α : Type} {p : Pattern α}

theorem before_prefix (cs : List Char) : p.before cs <+: cs := by
  induction cs with
  | nil => exact List.prefix_refl _
  | cons c rest ih =>
      rw [before]
      split
      · exact List.nil_prefix
      · exact List.cons_prefix_cons.mpr ⟨rfl, ih⟩

theorem before_eq_self {cs : List Char}
    (nothing : ∀ rest, rest <:+ cs → rest ≠ [] → p rest = none) : p.before cs = cs := by
  induction cs with
  | nil => rfl
  | cons c rest ih =>
      have first := nothing (c :: rest) (List.suffix_refl _) (List.cons_ne_nil c rest)
      rw [before, first, Option.isSome_none, if_neg Bool.false_ne_true,
        ih fun part suffix => nothing part (suffix.trans (List.suffix_cons c rest))]

/-- Nothing is found at a place before the first match. -/
theorem eq_none_of_before {cs rest : List Char}
    (within : cs.length < (p.before (cs ++ rest)).length) : p rest = none := by
  induction cs with
  | nil =>
      cases rest with
      | nil => cases within
      | cons c rest =>
          rw [List.nil_append, before] at within
          split at within
          · cases within
          · next nothing => simpa using nothing
  | cons c cs ih =>
      rw [List.cons_append, before] at within
      split at within
      · cases within
      · exact ih (by simpa using within)

end Pattern
end Text

/-! ### Names without their qualifiers -/

theorem qualifier_of_head {c : Char} (solid : isBlank c = false) (rest : List Char) :
    qualifier (c :: rest) = none := by
  simp [qualifier, solid]

/-- In one line, a qualifier begins wherever a dash stands between blanks. -/
theorem isSome_qualifier_iff {cs : List Char} (oneLine : '\n' ∉ cs) :
    (qualifier cs).isSome ↔ ∃ gap c b rest, cs = gap ++ c :: b :: rest ∧ gap ≠ [] ∧
      (∀ x ∈ gap, isBlank x) ∧ Ladder.isDash c ∧ isBlank c = false ∧ isBlank b := by
  constructor
  · intro found
    have solid := List.head?_dropWhile_not isBlank cs
    have whole := (List.takeWhile_append_dropWhile (p := isBlank) (l := cs)).symm
    rw [qualifier] at found
    cases left : cs.dropWhile isBlank with
    | nil => simp [left] at found
    | cons c tail =>
        rw [left] at found solid whole
        dsimp only at found
        split at found
        · next holds =>
            simp only [Bool.and_eq_true, Bool.not_eq_true', List.isEmpty_eq_false_iff] at holds
            obtain ⟨⟨⟨dash, gap⟩, after⟩, -⟩ := holds
            cases tail with
            | nil => exact absurd rfl after
            | cons b rest =>
                have blank : isBlank b := by
                  by_contra solid
                  simp [solid] at after
                exact ⟨_, c, b, rest, whole, gap, List.all_eq_true.mp List.all_takeWhile, dash,
                  by simpa using solid, blank⟩
        · cases found
  · rintro ⟨gap, c, b, rest, rfl, nonempty, blank, dash, solid, after⟩
    have stop : ∀ x ∈ (c :: b :: rest).head?, isBlank x = false := by
      intro x first
      cases first
      exact solid
    have line : '\n' ∉ rest.dropWhile isBlank := fun member =>
      oneLine (by simp [(List.dropWhile_sublist isBlank).subset member])
    rw [qualifier, takeWhile_append_of_stop blank stop, dropWhile_append_of_stop blank stop]
    simp [dash, nonempty, after, line]

/-- A name is settled where what is left of it is left of that too, case aside. -/
def Settled (called : String) : Prop :=
  fold (sanitizeName (sanitizeName called)) = fold (sanitizeName called)

theorem sanitizeChars_prefix (cs : List Char) :
    sanitizeChars cs <+: qualifier.before (trimChars cs) := by
  refine trimWhere_prefix fun c first => ?_
  have head : (trimChars cs).head? = some c := by
    obtain ⟨rest, split⟩ := qualifier.before_prefix (trimChars cs)
    rw [← split, List.head?_append, first]
    rfl
  exact head?_trimWhere c head

/-- Of a name of one line nothing more is left out the second time. -/
theorem sanitizeChars_sanitizeChars {cs : List Char} (oneLine : '\n' ∉ cs) :
    sanitizeChars (sanitizeChars cs) = sanitizeChars cs := by
  have trimmed : trimChars (sanitizeChars cs) = sanitizeChars cs := trimWhere_trimWhere
  have inside := sanitizeChars_prefix cs
  obtain ⟨after, split⟩ := inside.trans (qualifier.before_prefix (trimChars cs))
  have line : '\n' ∉ sanitizeChars cs ++ after := by
    rw [split]
    exact fun member => oneLine ((trimWhere_sublist cs).subset member)
  have kept : qualifier.before (sanitizeChars cs) = sanitizeChars cs := by
    refine Pattern.before_eq_self fun rest suffix nonempty => ?_
    obtain ⟨before, whole⟩ := suffix
    rw [← whole, List.append_assoc] at line
    simp only [List.mem_append, not_or] at line
    by_contra found
    -- what follows in the name does not undo a qualifier that is left in it
    obtain ⟨gap, c, b, tail, rfl, shape⟩ := (isSome_qualifier_iff line.2.1).mp
      (Option.isSome_iff_ne_none.mpr found)
    have again : (qualifier ((gap ++ c :: b :: tail) ++ after)).isSome := by
      have line' : '\n' ∉ (gap ++ c :: b :: tail) ++ after := fun member =>
        (List.mem_append.mp member).elim line.2.1 line.2.2
      exact (isSome_qualifier_iff line').mpr ⟨gap, c, b, tail ++ after, by simp, shape⟩
    have within : before.length <
        (qualifier.before (before ++ ((gap ++ c :: b :: tail) ++ after))).length := by
      rw [← List.append_assoc, whole, split]
      refine Nat.lt_of_lt_of_le ?_ inside.length_le
      have some := List.length_pos_iff.mpr nonempty
      rw [← whole, List.length_append]
      omega
    rw [Pattern.eq_none_of_before within] at again
    cases again
  conv_lhs => rw [sanitizeChars, trimmed, kept, trimmed]

theorem settled_of_one_line {called : String} (oneLine : '\n' ∉ called.toList) :
    Settled called := by
  rw [Settled, sanitizeName, sanitizeName, String.toList_ofList,
    sanitizeChars_sanitizeChars oneLine]

/-- Of a name that is not blank something is left. -/
theorem sanitizeChars_ne_nil {cs : List Char} (written : cs.all isBlank = false) :
    sanitizeChars cs ≠ [] := by
  obtain ⟨c, member, solid⟩ := List.all_eq_false.mp written
  have nonempty : trimChars cs ≠ [] := trimWhere_ne_nil member (by simpa using solid)
  obtain ⟨d, rest, split⟩ := List.exists_cons_of_ne_nil nonempty
  have first : isBlank d = false := head?_trimWhere d (by rw [← trimChars, split]; rfl)
  rw [sanitizeChars, split, Pattern.before, qualifier_of_head first]
  exact trimWhere_ne_nil List.mem_cons_self first

theorem foldChar_ne_nil (c : Char) : foldChar c ≠ [] := by
  have expansions : ∀ e ∈ foldExpansions, e.2 ≠ [] := by decide +kernel
  rw [foldChar]
  split
  · exact List.cons_ne_nil _ _
  · split
    · next cs found =>
        obtain ⟨codes, known, rfl⟩ := Option.map_eq_some_iff.mp found
        obtain ⟨before, after, split, _⟩ := List.lookup_eq_some_iff.mp known
        simpa using expansions (c.toNat, codes) (by simp [split])
    · split
      · exact List.cons_ne_nil _ _
      · rw [lowerChar]
        split
        · exact List.cons_ne_nil _ _
        · split <;> exact List.cons_ne_nil _ _

theorem fold_sanitizeName_ne {called : String} (written : isBlankText called = false) :
    fold (sanitizeName called) ≠ "" := by
  obtain ⟨c, rest, split⟩ := List.exists_cons_of_ne_nil (sanitizeChars_ne_nil written)
  have folded : foldChars (sanitizeChars called.toList) ≠ [] := by
    rw [split, foldChars, List.flatMap_cons]
    exact fun empty => foldChar_ne_nil c (List.append_eq_nil_iff.mp empty).1
  intro empty
  rw [fold, sanitizeName, String.toList_ofList] at empty
  exact folded (by simpa using congrArg String.toList empty)

/-- A record kept under what is left of a settled name, for which nothing was found, has no
namesake. -/
theorem NamesDistinct.append_sanitized {α : Type} [Named α] {records : List α} {called : String}
    {r : α} (h : NamesDistinct records) (written : isBlankText called = false)
    (settled : Settled called) (none : findNamed? records (sanitizeName called) = none)
    (same : name r = sanitizeName called) : NamesDistinct (records ++ [r]) := by
  have left (same : Settled called) : fold (sanitizeName (sanitizeName called)) ≠ "" := by
    rw [same]
    exact fold_sanitizeName_ne written
  have fresh := not_mem_names_of_hasNamed (left settled) (hasNamed_of_findNamed?_none none)
  rw [settled, ← same] at fresh
  exact h.append fresh

end Ascent
