import Ascent.Proofs.Legality
import Ascent.Proofs.Twin
import Mathlib.Data.List.Forall2

/-!
People beside their twins, of whom other fields count as set.

Which fields of a person were ever set is not written, and asked for by nothing but a merge. So
twins are found by the same names and change alike. A merge of two records takes from the later one
what was set there: it comes to the same as long as that one is a person just made, who is the same
in both games, and the others have no namesakes.

Main exports: `Person.Twin`, `findNamed?_twin`, `Kindred`, `Kindred.legalize`.
-/

namespace Ascent

open Text

/-- The same person but for the fields that count as set. -/
def Person.Twin (p q : Person) : Prop := ∃ given, q = { p with given := given }

namespace Person.Twin

variable {p q : Person}

theorem refl (p : Person) : p.Twin p := ⟨p.given, rfl⟩

theorem foldedName (h : p.Twin q) : q.foldedName = p.foldedName := by
  obtain ⟨_, rfl⟩ := h
  rfl

theorem giving (h : p.Twin q) (fields : List PersonField) :
    (p.giving fields).Twin (q.giving fields) := by
  obtain ⟨_, rfl⟩ := h
  exact ⟨_, rfl⟩

theorem put (h : p.Twin q) (f : PersonField) (v : FieldValue) : (p.put f v).Twin (q.put f v) := by
  obtain ⟨given, rfl⟩ := h
  exact ⟨given, by cases f <;> rfl⟩

theorem putAll (h : p.Twin q) (fields : List (PersonField × FieldValue)) :
    (p.putAll fields).Twin (q.putAll fields) := by
  have onto (fields : List (PersonField × FieldValue)) {p q : Person} (h : p.Twin q) :
      (fields.foldl (fun p x => p.put x.1 x.2) p).Twin
        (fields.foldl (fun p x => p.put x.1 x.2) q) := by
    induction fields generalizing p q with
    | nil => exact h
    | cons x rest ih => exact ih (h.put x.1 x.2)
  exact (onto _ h).giving _

theorem moveAffinityTo (h : p.Twin q) (start : Int) (asked : Option String) :
    (p.moveAffinityTo start asked).Twin (q.moveAffinityTo start asked) := by
  obtain ⟨_, rfl⟩ := h
  exact ⟨_, rfl⟩

/-- What is taken from a person does not depend on what is there beside it. -/
theorem take (h : p.Twin q) (f : PersonField) (source : Person) :
    (Person.take f source p).Twin (Person.take f source q) := by
  obtain ⟨given, rfl⟩ := h
  exact ⟨given, by cases f <;> rfl⟩

/-- The same record laid over twins leaves twins. -/
theorem overlay (h : p.Twin q) (later : Person) : (p.overlay later).Twin (q.overlay later) := by
  have all (fields : List PersonField) {p q : Person} (h : p.Twin q) :
      (takeAll Person.take fields later p).Twin (takeAll Person.take fields later q) := by
    induction fields generalizing p q with
    | nil => exact h
    | cons f rest ih => exact ih (h.take f later)
  exact (all _ h).giving _

theorem legalize (h : p.Twin q) (settings : Settings) :
    (p.legalize settings).Twin (q.legalize settings) := by
  obtain ⟨_, rfl⟩ := h
  exact ⟨_, rfl⟩

theorem captured (h : p.Twin q) : p.captured.Twin q.captured := by
  obtain ⟨_, rfl⟩ := h
  exact ⟨_, rfl⟩

theorem killed (h : p.Twin q) : p.killed.Twin q.killed := by
  obtain ⟨_, rfl⟩ := h
  exact ⟨_, rfl⟩

theorem indexUpdate (h : p.Twin q) (kind : String) : q.indexUpdate kind = p.indexUpdate kind := by
  obtain ⟨_, rfl⟩ := h
  rfl

theorem toJson (h : p.Twin q) : q.toJson = p.toJson := by
  obtain ⟨_, rfl⟩ := h
  rfl

end Person.Twin

/-! ### Circles -/

section

variable {people others : List Person} {p q : Person}

theorem set_twin (h : List.Forall₂ Person.Twin people others) (twin : p.Twin q) (place : Nat) :
    List.Forall₂ Person.Twin (people.set place p) (others.set place q) := by
  induction h generalizing place with
  | nil => exact .nil
  | cons first rest ih =>
      cases place with
      | zero => exact .cons twin rest
      | succ place => exact .cons first (ih place)

theorem eraseIdx_twin (h : List.Forall₂ Person.Twin people others) (place : Nat) :
    List.Forall₂ Person.Twin (people.eraseIdx place) (others.eraseIdx place) := by
  induction h generalizing place with
  | nil => exact .nil
  | cons first rest ih =>
      cases place with
      | zero => exact rest
      | succ place => exact .cons first (ih place)

theorem append_twin (h : List.Forall₂ Person.Twin people others) (twin : p.Twin q) :
    List.Forall₂ Person.Twin (people ++ [p]) (others ++ [q]) :=
  List.rel_append h (.cons twin .nil)

/-- What is the same of twins is the same of lists of twins. -/
theorem map_eq_of_twins {α β : Type} {R : α → α → Prop} {f : α → β}
    (same : ∀ {a b}, R a b → f b = f a) {as bs : List α} (h : List.Forall₂ R as bs) :
    bs.map f = as.map f := by
  induction h with
  | nil => rfl
  | cons first _ ih => rw [List.map_cons, List.map_cons, same first, ih]

theorem names_twin (h : List.Forall₂ Person.Twin people others) :
    others.map Person.foldedName = people.map Person.foldedName :=
  map_eq_of_twins (fun twin => twin.foldedName) h

theorem getElem?_twin (h : List.Forall₂ Person.Twin people others) (place : Nat) :
    people[place]? = none ∧ others[place]? = none ∨
      ∃ p q, people[place]? = some p ∧ others[place]? = some q ∧ p.Twin q := by
  induction h generalizing place with
  | nil => exact .inl ⟨rfl, rfl⟩
  | cons first _ ih =>
      cases place with
      | zero => exact .inr ⟨_, _, rfl, rfl, first⟩
      | succ place => exact ih place

theorem findPlace?_twin (h : List.Forall₂ Person.Twin people others) (called : String) :
    findPlace? others called = findPlace? people called := by
  have byName (key : String) (l : List Person) :
      l.findIdx? (goesBy key) = (l.map Person.foldedName).findIdx? (· == key) := by
    rw [List.findIdx?_map]
    rfl
  unfold findPlace?
  simp only [byName, names_twin h]

theorem hasNamed_twin (h : List.Forall₂ Person.Twin people others) (called : String) :
    hasNamed others called = hasNamed people called := by
  rw [hasNamed, hasNamed, findPlace?_twin h]

/-- A name means a person and its twin in the same place, or nobody in either list. -/
theorem findNamed?_twin (h : List.Forall₂ Person.Twin people others) (called : String) :
    findNamed? people called = none ∧ findNamed? others called = none ∨
      ∃ place p q, findNamed? people called = some (place, p) ∧
        findNamed? others called = some (place, q) ∧ p.Twin q := by
  unfold findNamed?
  rw [findPlace?_twin h]
  cases findPlace? people called with
  | none => exact .inl ⟨rfl, rfl⟩
  | some place =>
      rcases getElem?_twin h place with ⟨none, none'⟩ | ⟨p, q, there, there', twin⟩
      · exact .inl ⟨by simp [none], by simp [none']⟩
      · exact .inr ⟨place, p, q, by simp [there], by simp [there'], twin⟩

/-! ### Merging -/

theorem mergeInto_twin {key : Person → String} (same : ∀ {p q : Person}, p.Twin q → key q = key p)
    (h : List.Forall₂ Person.Twin people others) (r : Person) :
    List.Forall₂ Person.Twin (mergeInto key Person.overlay r people)
      (mergeInto key Person.overlay r others) := by
  induction h with
  | nil => exact .cons (.refl r) .nil
  | @cons p q _ _ first rest ih =>
      simp only [mergeInto, same first]
      split
      · exact .cons (first.overlay r) rest
      · exact .cons first ih

/-- The people of a circle before a merge: twins of distinct names, and after them people just made,
who are the same in both games. -/
def Kindred (people others : List Person) : Prop := ∃ known known' made,
  people = known ++ made ∧ others = known' ++ made ∧ List.Forall₂ Person.Twin known known' ∧
    (known.map Person.foldedName).Nodup

namespace Kindred

theorem of_twin (h : List.Forall₂ Person.Twin people others)
    (distinct : (people.map Person.foldedName).Nodup) : Kindred people others :=
  ⟨people, others, [], by simp, by simp, h, distinct⟩

theorem append (h : List.Forall₂ Person.Twin people others)
    (distinct : (people.map Person.foldedName).Nodup) (p : Person) :
    Kindred (people ++ [p]) (others ++ [p]) :=
  ⟨people, others, [p], rfl, rfl, h, distinct⟩

theorem merge (h : Kindred people others) :
    List.Forall₂ Person.Twin (mergePeople people) (mergePeople others) := by
  obtain ⟨known, known', made, rfl, rfl, twins, distinct⟩ := h
  induction made using List.reverseRecOn with
  | nil =>
      have distinct' : (known'.map Person.foldedName).Nodup := by rwa [names_twin twins]
      rw [List.append_nil, List.append_nil, mergePeople_eq_self distinct,
        mergePeople_eq_self distinct']
      exact twins
  | append_singleton rest r ih =>
      rw [← List.append_assoc, ← List.append_assoc, mergePeople, mergePeople,
        mergeBy_append_singleton, mergeBy_append_singleton]
      exact mergeInto_twin (fun twin => twin.foldedName) ih r

theorem legalize (h : Kindred people others) (settings : Settings) :
    List.Forall₂ Person.Twin (legalizePeople people settings) (legalizePeople others settings) :=
  List.rel_map (fun _ _ twin => twin.legalize settings) h.merge

end Kindred
end
end Ascent
