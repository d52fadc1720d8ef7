import Ascent.Named
import Mathlib.Data.List.Induction

/-!
Merging records by a key.

A merge keeps the key of the earlier record, so what is left is one record for each key, in the
order in which the keys first came up, and records of distinct keys are left as they are.

Main exports: `map_key_mergeBy`, `nodup_key_mergeBy`, `mergeBy_eq_self`, `map_name_mergePeople`.
-/

namespace Ascent

open Text

section

variable {α : Type} {key : α → String} {overlay : α → α → α}

theorem mergeBy_append_singleton (records : List α) (r : α) :
    mergeBy key overlay (records ++ [r]) =
      mergeInto key overlay r (mergeBy key overlay records) := by
  simp [mergeBy]

/-- Merging in a record of a new key puts it at the end. -/
theorem mergeInto_of_not_mem {r : α} {records : List α} (fresh : key r ∉ records.map key) :
    mergeInto key overlay r records = records ++ [r] := by
  induction records with
  | nil => rfl
  | cons first rest ih =>
      simp only [List.map_cons, List.mem_cons, not_or] at fresh
      simp [mergeInto, Ne.symm fresh.1, ih fresh.2]

/-- Merging in a record of a known key changes one record, which has the key. -/
theorem exists_of_mergeInto (overlay : α → α → α) {r : α} {records : List α}
    (known : key r ∈ records.map key) :
    ∃ place first, records[place]? = some first ∧ key first = key r ∧
      mergeInto key overlay r records = records.set place (overlay first r) := by
  induction records with
  | nil => simp at known
  | cons first rest ih =>
      by_cases same : key first = key r
      · exact ⟨0, first, rfl, same, by simp [mergeInto, same]⟩
      · have later : key r ∈ rest.map key := by
          simpa [Ne.symm same] using known
        obtain ⟨place, other, there, equal, merged⟩ := ih later
        exact ⟨place + 1, other, there, equal, by simp [mergeInto, same, merged]⟩

/-- After another record is merged in, a record was there before, is the other one, or is one that
the other was laid over. -/
theorem mem_mergeInto {r m : α} {records : List α}
    (member : m ∈ mergeInto key overlay r records) :
    m ∈ records ∨ m = r ∨ ∃ first ∈ records, key first = key r ∧ m = overlay first r := by
  induction records with
  | nil => exact .inr (.inl (List.mem_singleton.mp member))
  | cons first rest ih =>
      rw [mergeInto] at member
      split at member
      · next same =>
          rcases List.mem_cons.mp member with laid | later
          · exact .inr (.inr ⟨first, List.mem_cons_self, same, laid⟩)
          · exact .inl (List.mem_cons_of_mem first later)
      · rcases List.mem_cons.mp member with rfl | later
        · exact .inl List.mem_cons_self
        · rcases ih later with before | new | ⟨other, there, same, laid⟩
          · exact .inl (List.mem_cons_of_mem first before)
          · exact .inr (.inl new)
          · exact .inr (.inr ⟨other, List.mem_cons_of_mem first there, same, laid⟩)

/-- Merging in a record adds its key where it is new, and changes no other one. -/
theorem map_key_mergeInto (kept : ∀ a b, key (overlay a b) = key a) (r : α) (records : List α) :
    (mergeInto key overlay r records).map key =
      if key r ∈ records.map key then records.map key else records.map key ++ [key r] := by
  by_cases known : key r ∈ records.map key
  · rw [if_pos known]
    induction records with
    | nil => simp at known
    | cons first rest ih =>
        by_cases same : key first = key r
        · simp [mergeInto, same, kept]
        · have later : key r ∈ rest.map key := by
            simpa [Ne.symm same] using known
          simp [mergeInto, same, ih later]
  · rw [if_neg known, mergeInto_of_not_mem known]
    simp

/-- One more value at the end counts where it is new. -/
theorem eraseDups_append_singleton {β : Type} [DecidableEq β] (l : List β) (b : β) :
    (l ++ [b]).eraseDups = if b ∈ l then l.eraseDups else l.eraseDups ++ [b] := by
  rw [List.eraseDups_append]
  by_cases known : b ∈ l <;> simp [List.removeAll, List.eraseDups_cons, known]

/-- What is left of a list without its duplicates holds nothing twice. -/
theorem nodup_eraseDups {β : Type} [DecidableEq β] (l : List β) : l.eraseDups.Nodup := by
  induction l using List.reverseRecOn with
  | nil => simp
  | append_singleton rest b ih =>
      rw [eraseDups_append_singleton]
      by_cases known : b ∈ rest
      · rwa [if_pos known]
      · rw [if_neg known, List.nodup_append]
        refine ⟨ih, by simp, ?_⟩
        rintro x hx y hy rfl
        rw [List.mem_singleton.mp hy, List.mem_eraseDups] at hx
        exact known hx

/-- The keys after a merge are those before it, each in the place of its first appearance. -/
theorem map_key_mergeBy (kept : ∀ a b, key (overlay a b) = key a) (records : List α) :
    (mergeBy key overlay records).map key = (records.map key).eraseDups := by
  induction records using List.reverseRecOn with
  | nil => rfl
  | append_singleton rest r ih =>
      rw [mergeBy_append_singleton, map_key_mergeInto kept, ih, List.map_append, List.map_singleton,
        eraseDups_append_singleton]
      simp only [List.mem_eraseDups]

theorem nodup_key_mergeBy (kept : ∀ a b, key (overlay a b) = key a) (records : List α) :
    ((mergeBy key overlay records).map key).Nodup := by
  rw [map_key_mergeBy kept]
  exact nodup_eraseDups _

/-- Records of distinct keys have nothing to merge. -/
theorem mergeBy_eq_self {records : List α} (distinct : (records.map key).Nodup) :
    mergeBy key overlay records = records := by
  induction records using List.reverseRecOn with
  | nil => rfl
  | append_singleton rest r ih =>
      rw [List.map_append, List.nodup_append] at distinct
      rw [mergeBy_append_singleton, ih distinct.1, mergeInto_of_not_mem]
      intro known
      exact distinct.2.2 _ known _ (by simp) rfl

/-- A merge goes on among the records of each key apart from the others. -/
theorem filter_mergeInto (kept : ∀ a b, key (overlay a b) = key a) (k : String) (r : α)
    (records : List α) :
    (mergeInto key overlay r records).filter (key · == k) =
      if key r = k then mergeInto key overlay r (records.filter (key · == k))
      else records.filter (key · == k) := by
  induction records with
  | nil => by_cases own : key r = k <;> simp [mergeInto, own]
  | cons first rest ih =>
      rw [mergeInto]
      by_cases same : key first = key r
      · by_cases own : key r = k
        · simp [same, own, kept, mergeInto]
        · simp [same, own, kept]
      · by_cases own : key r = k
        · have other : key first ≠ k := fun named => same (named.trans own.symm)
          rw [if_neg same, List.filter_cons_of_neg (by simpa using other), ih,
            List.filter_cons_of_neg (by simpa using other)]
        · rw [if_neg same, List.filter_cons, List.filter_cons, ih]
          simp only [if_neg own]

theorem filter_mergeBy (kept : ∀ a b, key (overlay a b) = key a) (k : String) (records : List α) :
    (mergeBy key overlay records).filter (key · == k) =
      mergeBy key overlay (records.filter (key · == k)) := by
  induction records using List.reverseRecOn with
  | nil => rfl
  | append_singleton rest r ih =>
      rw [mergeBy_append_singleton, filter_mergeInto kept, ih, List.filter_append]
      by_cases own : key r = k
      · rw [if_pos own, List.filter_cons_of_pos (by simpa using own), List.filter_nil,
          mergeBy_append_singleton]
      · rw [if_neg own, List.filter_cons_of_neg (by simpa using own), List.filter_nil,
          List.append_nil]

/-- Of several records of one key one is left: the later ones laid over the first, one after
another. -/
theorem mergeBy_of_one_key (kept : ∀ a b, key (overlay a b) = key a) {first : α} {later : List α}
    (same : ∀ r ∈ later, key r = key first) :
    mergeBy key overlay (first :: later) = [later.foldl overlay first] := by
  induction later using List.reverseRecOn with
  | nil => rfl
  | append_singleton rest r ih =>
      have named (rest : List α) : key (rest.foldl overlay first) = key first :=
        List.foldlRecOn rest overlay (motive := (key · = key first)) rfl
          fun b own a _ => (kept b a).trans own
      rw [← List.cons_append, mergeBy_append_singleton,
        ih fun r member => same r (List.mem_append_left _ member), mergeInto,
        if_pos ((named rest).trans (same r (by simp)).symm), List.foldl_append]
      rfl

/-- A part of a record that one field holds comes from the source where that field is taken over,
and from the target where it is not. -/
theorem get_takeAll {F β : Type} [DecidableEq F] {take : F → α → α → α} (get : α → β) {f : F}
    (taken : ∀ source target, get (take f source target) = get source)
    (kept : ∀ g, g ≠ f → ∀ source target, get (take g source target) = get target)
    (fields : List F) (source target : α) :
    get (takeAll take fields source target) = if f ∈ fields then get source else get target := by
  induction fields generalizing target with
  | nil => rfl
  | cons g rest ih =>
      have step := ih (take g source target)
      by_cases same : g = f
      · subst same
        rw [taken, ite_self] at step
        rw [if_pos List.mem_cons_self]
        exact step
      · rw [kept g same] at step
        simp only [List.mem_cons, Ne.symm same, false_or]
        exact step

end

namespace Person

/-- The name under which a person is known, case aside. -/
def foldedName (p : Person) : String := fold p.name

theorem mem_given_giving (p : Person) (fields : List PersonField) (f : PersonField) :
    f ∈ (p.giving fields).given ↔ f ∈ p.given ∨ f ∈ fields := by
  by_cases known : f ∈ p.given <;> simp [giving, known]

theorem name_take {f : PersonField} (notName : f ≠ .name) (source target : Person) :
    (take f source target).name = target.name := by
  cases f <;> first | rfl | exact absurd rfl notName

/-- Fields other than the name leave the name alone. -/
theorem name_takeAll {fields : List PersonField} (noName : PersonField.name ∉ fields)
    (source target : Person) : (takeAll take fields source target).name = target.name := by
  induction fields generalizing target with
  | nil => rfl
  | cons f rest ih =>
      simp only [List.mem_cons, not_or] at noName
      exact (ih noName.2 (take f source target)).trans (name_take (Ne.symm noName.1) source target)

/-- Laying a record over another one leaves the name of the earlier one. -/
theorem name_overlay (earlier later : Person) : (earlier.overlay later).name = earlier.name :=
  name_takeAll (by simp [mergedFields]) later earlier

/-- A part of a person that one field holds comes from the later record where a merge takes that
field over, and from the earlier one where it does not. -/
theorem get_overlay {β : Type} (f : PersonField) (get : Person → β)
    (taken : ∀ source target, get (take f source target) = get source)
    (kept : ∀ g, g ≠ f → ∀ source target, get (take g source target) = get target)
    (set : ∀ p fields, get (giving fields p) = get p) (earlier later : Person) :
    get (earlier.overlay later) =
      if f ∈ later.mergedFields then get later else get earlier :=
  (set _ _).trans (get_takeAll get taken kept later.mergedFields later earlier)

theorem foldedName_overlay (earlier later : Person) :
    (earlier.overlay later).foldedName = earlier.foldedName := by
  simp only [foldedName, name_overlay]

end Person

/-- Merging people leaves each name once, in the order of first appearance. -/
theorem map_name_mergePeople (people : List Person) :
    (mergePeople people).map Person.foldedName = (people.map Person.foldedName).eraseDups :=
  map_key_mergeBy Person.foldedName_overlay people

theorem mergePeople_append_singleton (people : List Person) (p : Person) :
    mergePeople (people ++ [p]) =
      mergeInto Person.foldedName Person.overlay p (mergePeople people) :=
  mergeBy_append_singleton people p

theorem mergePeople_eq_self {people : List Person}
    (distinct : (people.map Person.foldedName).Nodup) : mergePeople people = people :=
  mergeBy_eq_self distinct

end Ascent
