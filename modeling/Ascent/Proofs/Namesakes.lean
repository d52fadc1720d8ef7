import Ascent.Proofs.Fray
import Ascent.Proofs.Measure

/-!
What a fight makes of the people of a name.

Somebody may be in several circles at once: who was met and then joined stays among those met. A
disposition looks the name up in one circle after another and is done with the first that has it. So
it is carried out on all records of the name where there is one only, and otherwise leaves the rest
as they were. Dispositions of other names do not touch these records, and the merge of a circle lays
a captive over a prisoner of the name.

Main exports: `namesakes`, `namesakes_mergePeople`, `GameState.namesakes_kill`,
`GameState.namesakes_capture`, `GameState.Disposed`, `GameState.dispose_disposed`,
`GameState.TakesEffect`, `GameState.takesEffect_of_told`, `GameState.companion_outlives_fight`.
-/

namespace Ascent

open Text

/-! ### The records of a name -/

/-- The people who go by a folded name. -/
def namesakes (key : String) (people : List Person) : List Person := people.filter (goesBy key)

section

variable {key called : String} {people : List Person} {place : Nat} {p q r : Person}

theorem goesBy_iff : goesBy key p = true ↔ p.foldedName = key := beq_iff_eq

theorem mem_namesakes : p ∈ namesakes key people ↔ p ∈ people ∧ p.foldedName = key := by
  rw [namesakes, List.mem_filter, goesBy_iff]

theorem namesakes_append (before after : List Person) :
    namesakes key (before ++ after) = namesakes key before ++ namesakes key after :=
  List.filter_append ..

theorem namesakes_cons_self (named : p.foldedName = key) :
    namesakes key (p :: people) = p :: namesakes key people :=
  List.filter_cons_of_pos (goesBy_iff.mpr named)

theorem namesakes_cons_other (other : p.foldedName ≠ key) :
    namesakes key (p :: people) = namesakes key people :=
  List.filter_cons_of_neg fun named => other (goesBy_iff.mp named)

/-- Where names are distinct, at most one goes by a name. -/
theorem namesakes_of_distinct (distinct : (people.map Person.foldedName).Nodup) (key : String) :
    namesakes key people = [] ∨ ∃ p, p.foldedName = key ∧ namesakes key people = [p] := by
  have named : ∀ p ∈ namesakes key people, p.foldedName = key := fun p member =>
    (mem_namesakes.mp member).2
  have apart := distinct.sublist ((List.filter_sublist (p := goesBy key)).map Person.foldedName)
  change ((namesakes key people).map Person.foldedName).Nodup at apart
  cases same : namesakes key people with
  | nil => exact .inl rfl
  | cons p rest =>
      rw [same] at named apart
      cases rest with
      | nil => exact .inr ⟨p, named p List.mem_cons_self, rfl⟩
      | cons q rest =>
          rw [List.map_cons, List.map_cons, named p (by simp), named q (by simp)] at apart
          simp at apart

/-! ### Merging the people of a name -/

/-- A merge goes on among the people of each name apart from the others. -/
theorem namesakes_mergePeople (key : String) (people : List Person) :
    namesakes key (mergePeople people) = mergePeople (namesakes key people) :=
  filter_mergeBy Person.foldedName_overlay key people

/-- Of several people of one name one is left. -/
theorem mergePeople_of_one_name (named : ∀ p ∈ people, p.foldedName = key) :
    people = [] ∨ ∃ q, q.foldedName = key ∧ mergePeople people = [q] := by
  cases people with
  | nil => exact .inl rfl
  | cons first later =>
      have own := named first List.mem_cons_self
      have same : ∀ r ∈ later, r.foldedName = first.foldedName := fun r member =>
        (named r (List.mem_cons_of_mem first member)).trans own.symm
      have merged : mergePeople (first :: later) = [later.foldl Person.overlay first] :=
        mergeBy_of_one_key Person.foldedName_overlay same
      refine .inr ⟨_, ?_, merged⟩
      have kept := map_name_mergePeople (first :: later)
      rw [merged, List.map_singleton, List.map_cons, List.eraseDups_cons, List.cons.injEq] at kept
      exact kept.1.trans own

/-- The last of several people of one name is laid over what the others come to. -/
theorem mergePeople_concat_of_one_name (named : ∀ q ∈ people ++ [p], q.foldedName = key) :
    mergePeople (people ++ [p]) = [p] ∨
      ∃ q : Person, mergePeople (people ++ [p]) = [q.overlay p] := by
  have last : p.foldedName = key := named p (by simp)
  rw [mergePeople_append_singleton]
  rcases mergePeople_of_one_name fun q member => named q (List.mem_append_left _ member) with
    rfl | ⟨q, same, merged⟩
  · exact .inl rfl
  · have equal : q.foldedName = p.foldedName := same.trans last.symm
    rw [merged, mergeInto, if_pos equal]
    exact Or.inr ⟨q, rfl⟩

/-! ### Finding somebody of a name -/

theorem namesakes_eq_nil_of_findNamed? (written : fold (sanitizeName called) ≠ "")
    (none : findNamed? people called = none) :
    namesakes (fold (sanitizeName called)) people = [] := by
  refine List.filter_eq_nil_iff.mpr fun p member named => ?_
  have fresh := not_mem_names_of_hasNamed written (hasNamed_of_findNamed?_none none)
  exact fresh (List.mem_map.mpr ⟨p, member, goesBy_iff.mp named⟩)

/-- Who is found under a name is the first of the name: in the place of this record another one of
the name may be put, and without it the others are left. -/
theorem namesakes_of_findNamed? (found : findNamed? people called = some (place, p)) :
    ∃ rest, namesakes (fold (sanitizeName called)) people = p :: rest ∧
      (∀ q, q.foldedName = p.foldedName →
        namesakes (fold (sanitizeName called)) (people.set place q) = q :: rest) ∧
      namesakes (fold (sanitizeName called)) (people.eraseIdx place) = rest := by
  have named : p.foldedName = fold (sanitizeName called) := (fold_name_of_findNamed? found).2
  have there := getElem?_of_findNamed? found
  have here : findPlace? people called = some place := by
    simp only [findNamed?, Option.bind_eq_bind, Option.bind_eq_some_iff, Option.some.injEq,
      Prod.mk.injEq] at found
    obtain ⟨_, here, _, _, rfl, _⟩ := found
    exact here
  rw [findPlace?, if_neg (fold_name_of_findNamed? found).1] at here
  generalize fold (sanitizeName called) = key at named here ⊢
  clear found
  induction people generalizing place with
  | nil => cases there
  | cons first later ih =>
      rw [List.findIdx?_cons] at here
      split at here
      · next goes =>
          obtain rfl := Option.some.inj here
          obtain rfl : first = p := Option.some.inj there
          exact ⟨namesakes key later, namesakes_cons_self named,
            fun q same => namesakes_cons_self (same.trans named), rfl⟩
      · next passes =>
          obtain ⟨i, further, rfl⟩ := Option.map_eq_some_iff.mp here
          obtain ⟨rest, all, set, erased⟩ := ih there further
          have other : first.foldedName ≠ key := fun same => passes (goesBy_iff.mpr same)
          refine ⟨rest, ?_, fun q same => ?_, ?_⟩
          · rw [namesakes_cons_other other, all]
          · rw [List.set_cons_succ, namesakes_cons_other other, set q same]
          · rw [List.eraseIdx_cons_succ, namesakes_cons_other other, erased]

/-- Who is found under a name is none of those of another name: these stay as they are without the
record, or with another one of its name in its place. -/
theorem namesakes_of_findNamed?_other (other : fold (sanitizeName called) ≠ key)
    (found : findNamed? people called = some (place, p)) :
    p.foldedName ≠ key ∧
      (∀ q, q.foldedName = p.foldedName →
        namesakes key (people.set place q) = namesakes key people) ∧
      namesakes key (people.eraseIdx place) = namesakes key people := by
  have there := getElem?_of_findNamed? found
  have differs : p.foldedName ≠ key := fun named =>
    other ((fold_name_of_findNamed? found).2.symm.trans named)
  have passes {q : Person} (same : q.foldedName = p.foldedName) : goesBy key q = false :=
    Bool.eq_false_iff.mpr fun named => differs (same.symm.trans (goesBy_iff.mp named))
  exact ⟨differs, fun q same => filter_set_of_not there (passes rfl) (passes same),
    filter_eraseIdx_of_not there (passes rfl)⟩

end

/-! ### Dispositions and the records of a name -/

/-- The circles that captives are taken from. -/
def Circle.free : List Circle := Circle.all.filter (· ≠ .prisoners)

/-- The circles in which somebody is looked up who is to be disposed of. -/
def Disposition.circles : Disposition → List Circle
  | .kill => Circle.all
  | .capture => Circle.free
  | .release => []

theorem Circle.mem_all (circle : Circle) : circle ∈ Circle.all := by
  cases circle <;> decide

theorem Circle.mem_free {circle : Circle} : circle ∈ Circle.free ↔ circle ≠ .prisoners := by
  cases circle <;> decide

namespace GameState

variable {s t : GameState} {key called : String} {d : Disposition}

/-- The people of a circle who go by a folded name. -/
def namesakes (s : GameState) (key : String) (circle : Circle) : List Person :=
  Ascent.namesakes key (s.people circle)

/-- The first of several circles in which somebody goes by a folded name. -/
def firstWith? (s : GameState) (key : String) (circles : List Circle) : Option Circle :=
  circles.find? fun circle => !(s.namesakes key circle).isEmpty

theorem namesakes_setPeople (s : GameState) (key : String) (circle other : Circle)
    (people : List Person) :
    (s.setPeople circle people).namesakes key other =
      if other = circle then Ascent.namesakes key people else s.namesakes key other := by
  rw [namesakes, people_setPeople]
  split
  · rfl
  · rfl

theorem namesakes_of_cast (same : t.cast = s.cast) : t.namesakes key = s.namesakes key := by
  funext circle
  rw [namesakes, namesakes, GameState.people, GameState.people, same]

theorem namesakes_legalize (s : GameState) (key : String) (circle : Circle) :
    s.legalize.namesakes key circle =
      (mergePeople (s.namesakes key circle)).map (·.legalize s.settings) := by
  rw [namesakes, people_legalize, legalizePeople, Ascent.namesakes, List.filter_map]
  exact congrArg (List.map _) (namesakes_mergePeople key (s.people circle))

theorem firstWith?_congr (same : t.namesakes key = s.namesakes key) (circles : List Circle) :
    t.firstWith? key circles = s.firstWith? key circles := by
  rw [firstWith?, firstWith?, same]

theorem firstWith?_eq_none {circles : List Circle} :
    s.firstWith? key circles = none ↔ ∀ circle ∈ circles, s.namesakes key circle = [] := by
  simp [firstWith?]

/-- A name is looked up in the first circle that has somebody of the name. -/
theorem locateIn?_cases (written : fold (sanitizeName called) ≠ "") (circles : List Circle) :
    s.locateIn? circles called = none ∧
        s.firstWith? (fold (sanitizeName called)) circles = none ∨
      ∃ first place p, s.locateIn? circles called = some ⟨first, place, p⟩ ∧
        s.firstWith? (fold (sanitizeName called)) circles = some first ∧ first ∈ circles ∧
        findNamed? (s.people first) called = some (place, p) := by
  induction circles with
  | nil => exact .inl ⟨rfl, rfl⟩
  | cons circle rest ih =>
      simp only [locateIn?, firstWith?, List.findSome?_cons, List.find?_cons] at ih ⊢
      cases found : findNamed? (s.people circle) called with
      | none =>
          have nobody : s.namesakes (fold (sanitizeName called)) circle = [] :=
            namesakes_eq_nil_of_findNamed? written found
          simp only [Option.map_none, nobody, List.isEmpty_nil, Bool.not_true, List.mem_cons]
          rcases ih with nowhere | ⟨first, place, p, there, first_, member, named⟩
          · exact .inl nowhere
          · exact .inr ⟨first, place, p, there, first_, .inr member, named⟩
      | some at_ =>
          obtain ⟨place, p⟩ := at_
          obtain ⟨others, all, _, _⟩ := namesakes_of_findNamed? found
          have some : s.namesakes (fold (sanitizeName called)) circle = p :: others := all
          refine .inr ⟨circle, place, p, rfl, ?_, List.mem_cons_self, found⟩
          rw [some]
          rfl

/-- A name that is killed is killed in the first circle that has it, and there the first of the
name. -/
theorem namesakes_kill (written : fold (sanitizeName called) ≠ "") :
    s.firstWith? (fold (sanitizeName called)) Circle.all = none ∧ s.kill called = s ∨
      ∃ first p rest, s.firstWith? (fold (sanitizeName called)) Circle.all = some first ∧
        s.namesakes (fold (sanitizeName called)) first = p :: rest ∧
        ∀ circle, (s.kill called).namesakes (fold (sanitizeName called)) circle =
          if circle = first then p.killed :: rest
          else s.namesakes (fold (sanitizeName called)) circle := by
  rcases s.locateIn?_cases written Circle.all with ⟨nowhere, nobody⟩ |
    ⟨first, place, p, there, nearest, _, found⟩
  · refine .inl ⟨nobody, ?_⟩
    rw [kill, nowhere]
  · obtain ⟨rest, all, put, _⟩ := namesakes_of_findNamed? found
    refine .inr ⟨first, p, rest, nearest, all, fun circle => ?_⟩
    rw [kill, there]
    dsimp only [store]
    rw [namesakes_setPeople, put p.killed rfl]

/-- A name that is captured is taken out of the first circle that has it, there the first of the
name, and put after the prisoners. -/
theorem namesakes_capture (written : fold (sanitizeName called) ≠ "") :
    s.firstWith? (fold (sanitizeName called)) Circle.free = none ∧ s.capture called = s ∨
      ∃ first p rest, s.firstWith? (fold (sanitizeName called)) Circle.free = some first ∧
        first ≠ .prisoners ∧ s.namesakes (fold (sanitizeName called)) first = p :: rest ∧
        ∀ circle, (s.capture called).namesakes (fold (sanitizeName called)) circle =
          if circle = .prisoners then
            s.namesakes (fold (sanitizeName called)) .prisoners ++ [p.captured]
          else if circle = first then rest
          else s.namesakes (fold (sanitizeName called)) circle := by
  rcases s.locateIn?_cases written Circle.free with ⟨nowhere, nobody⟩ |
    ⟨first, place, p, there, nearest, member, found⟩
  · refine .inl ⟨nobody, ?_⟩
    rw [Circle.free] at nowhere
    rw [capture, nowhere]
  · obtain ⟨rest, all, _, erased⟩ := namesakes_of_findNamed? found
    have outside : first ≠ .prisoners := Circle.mem_free.mp member
    have named : p.captured.foldedName = fold (sanitizeName called) :=
      (fold_name_of_findNamed? found).2
    refine .inr ⟨first, p, rest, nearest, outside, all, fun circle => ?_⟩
    rw [Circle.free] at there
    rw [capture, there]
    dsimp only
    rw [namesakes_setPeople, people_setPeople, if_neg outside.symm, namesakes_append,
      namesakes_cons_self named, namesakes_setPeople, erased]
    rfl

theorem namesakes_kill_other (other : fold (sanitizeName called) ≠ key) :
    (s.kill called).namesakes key = s.namesakes key := by
  funext circle
  unfold kill
  split
  · rfl
  · next found there =>
      obtain ⟨_, put, _⟩ := namesakes_of_findNamed?_other other (findNamed?_of_locateIn? there).2
      rw [store, namesakes_setPeople, put found.person.killed rfl]
      split
      · next same =>
          rw [same]
          rfl
      · rfl

theorem namesakes_capture_other (other : fold (sanitizeName called) ≠ key) :
    (s.capture called).namesakes key = s.namesakes key := by
  funext circle
  unfold capture
  split
  · rfl
  · next found there =>
      obtain ⟨free, named⟩ := findNamed?_of_locateIn? there
      obtain ⟨differs, _, erased⟩ := namesakes_of_findNamed?_other other named
      have outside : found.circle ≠ .prisoners := Circle.mem_free.mp free
      have captured : found.person.captured.foldedName ≠ key := differs
      dsimp only
      rw [namesakes_setPeople, people_setPeople, if_neg outside.symm, namesakes_append,
        namesakes_cons_other captured, namesakes_setPeople, erased]
      split
      · next same =>
          rw [same]
          exact List.append_nil _
      · split
        · next same =>
            rw [same]
            rfl
        · rfl

/-- A disposition of another name leaves the people of a name alone. -/
theorem namesakes_dispose_other (other : fold (sanitizeName called) ≠ key) :
    (s.dispose called d).namesakes key = s.namesakes key := by
  cases d with
  | release => rfl
  | kill =>
      rw [dispose]
      exact namesakes_kill_other other
  | capture =>
      rw [dispose]
      exact namesakes_capture_other other

/-- What a disposition makes of the people of a name: it leaves them alone, or it kills or takes the
first of the name in a circle. -/
inductive Disposed (s : GameState) (key : String) (t : GameState) : Disposition → Prop
  | kept {d : Disposition} (same : t.namesakes key = s.namesakes key) : Disposed s key t d
  | killed {first : Circle} {p : Person} {rest : List Person}
      (all : s.namesakes key first = p :: rest)
      (changed : ∀ circle, t.namesakes key circle =
        if circle = first then p.killed :: rest else s.namesakes key circle) :
      Disposed s key t .kill
  | captured {first : Circle} {p : Person} {rest : List Person} (outside : first ≠ .prisoners)
      (all : s.namesakes key first = p :: rest)
      (changed : ∀ circle, t.namesakes key circle =
        if circle = .prisoners then s.namesakes key .prisoners ++ [p.captured]
        else if circle = first then rest
        else s.namesakes key circle) :
      Disposed s key t .capture

/-- Every disposition does one of these to the people of a name, of whatever name it is. -/
theorem dispose_disposed (written : key ≠ "") (s : GameState) (called : String) (d : Disposition) :
    s.Disposed key (s.dispose called d) d := by
  by_cases same : fold (sanitizeName called) = key
  · subst same
    cases d with
    | release => exact .kept rfl
    | kill =>
        rcases namesakes_kill (s := s) written with ⟨_, kept⟩ | ⟨first, p, rest, _, all, changed⟩
        · exact .kept (by rw [dispose, kept])
        · exact .killed all changed
    | capture =>
        rcases namesakes_capture (s := s) written with
          ⟨_, kept⟩ | ⟨first, p, rest, _, outside, all, changed⟩
        · exact .kept (by rw [dispose, kept])
        · exact .captured outside all changed
  · exact .kept (namesakes_dispose_other same)

end GameState

/-! ### Captives -/

/-- Somebody who was taken prisoner and has not been changed since: of a captive the category,
resistance and willpower are set. -/
structure Person.Captive (p : Person) : Prop where
  category : p.category = "prisoner"
  resistance : p.resistance = captiveSpirit
  willpower : p.willpower = captiveSpirit
  given : ∀ f ∈ [PersonField.category, .resistance, .willpower], f ∈ p.given

namespace Person

variable {p : Person}

theorem captured_captive (p : Person) : p.captured.Captive :=
  ⟨rfl, rfl, rfl, fun f member => (mem_given_giving _ _ f).mpr (.inr member)⟩

theorem Captive.killed (h : p.Captive) : p.killed.Captive :=
  ⟨h.category, h.resistance, h.willpower, fun f member =>
    (mem_given_giving _ _ f).mpr (.inl (h.given f member))⟩

theorem category_overlay (earlier later : Person) : (earlier.overlay later).category =
    if .category ∈ later.mergedFields then later.category else earlier.category :=
  get_overlay .category Person.category (fun _ _ => rfl)
    (fun g other _ _ => by cases g <;> first | rfl | exact absurd rfl other) (fun _ _ => rfl) _ _

theorem resistance_overlay (earlier later : Person) : (earlier.overlay later).resistance =
    if .resistance ∈ later.mergedFields then later.resistance else earlier.resistance :=
  get_overlay .resistance Person.resistance (fun _ _ => rfl)
    (fun g other _ _ => by cases g <;> first | rfl | exact absurd rfl other) (fun _ _ => rfl) _ _

theorem willpower_overlay (earlier later : Person) : (earlier.overlay later).willpower =
    if .willpower ∈ later.mergedFields then later.willpower else earlier.willpower :=
  get_overlay .willpower Person.willpower (fun _ _ => rfl)
    (fun g other _ _ => by cases g <;> first | rfl | exact absurd rfl other) (fun _ _ => rfl) _ _

theorem isAlive_overlay (earlier later : Person) : (earlier.overlay later).isAlive =
    if .isAlive ∈ later.mergedFields then later.isAlive else earlier.isAlive :=
  get_overlay .isAlive Person.isAlive (fun _ _ => rfl)
    (fun g other _ _ => by cases g <;> first | rfl | exact absurd rfl other) (fun _ _ => rfl) _ _

/-- A captive laid over another record leaves a captive. -/
theorem Captive.overlay (h : p.Captive) (earlier : Person) : (earlier.overlay p).Captive := by
  have merged : ∀ f ∈ [PersonField.category, .resistance, .willpower], f ∈ p.mergedFields := by
    intro f member
    refine List.mem_filter.mpr ⟨h.given f member, ?_⟩
    simp only [List.mem_cons, List.not_mem_nil, or_false] at member
    rcases member with rfl | rfl | rfl <;> decide
  refine ⟨?_, ?_, ?_, fun f member => (mem_given_giving _ _ f).mpr (.inr (merged f member))⟩
  · exact (category_overlay earlier p).trans
      ((if_pos (merged .category (by simp))).trans h.category)
  · exact (resistance_overlay earlier p).trans
      ((if_pos (merged .resistance (by simp))).trans h.resistance)
  · exact (willpower_overlay earlier p).trans
      ((if_pos (merged .willpower (by simp))).trans h.willpower)

/-- Two dead records merged are a dead one. -/
theorem dead_overlay {q : Person} (first : p.isAlive = false) (later : q.isAlive = false) :
    (p.overlay q).isAlive = false := by
  rw [isAlive_overlay]
  split
  · exact later
  · exact first

end Person

/-! ### After all dispositions -/

/-- What one disposition turns around stays so, if each disposition keeps what it takes to be turned
around and what comes of that. -/
theorem disposeAll_turns {P Q : GameState → Prop} {called : String} {d : Disposition}
    (before : ∀ s called d, P s → P (s.dispose called d))
    (after : ∀ s called d, Q s → Q (s.dispose called d))
    (turns : ∀ s, P s → Q (s.dispose called d)) {dispositions : Pairs Disposition}
    (disposed : (called, d) ∈ dispositions) {s : GameState} (h : P s) :
    Q (dispositions.foldl (fun state (called, d) => state.dispose called d) s) := by
  induction dispositions generalizing s with
  | nil => cases disposed
  | cons first rest ih =>
      rcases List.mem_cons.mp disposed with rfl | later
      · exact disposeAll_keeps_each after rest (turns s h)
      · exact ih later (before s first.1 first.2 h)

/-- What one disposition of a fight turns around stays so, if moreover people alone matter to it. -/
theorem fought_turns {P Q : GameState → Prop} {called : String} {d : Disposition}
    (people : ∀ s t, t.cast = s.cast → P s → P t)
    (before : ∀ s called d, P s → P (s.dispose called d))
    (after : ∀ s called d, Q s → Q (s.dispose called d))
    (turns : ∀ s, P s → Q (s.dispose called d)) {r : CombatResult}
    (disposed : (called, d) ∈ r.dispositions) {s : GameState} (h : P s) : Q (s.fought r) :=
  disposeAll_turns before after turns disposed (people s _ rfl h)

namespace GameState

variable {s t : GameState} {key called : String} {d : Disposition}

/-- Dispositions of other names leave the people of a name alone. -/
theorem namesakes_disposeAll_other {dispositions : Pairs Disposition}
    (others : ∀ x ∈ dispositions, fold (sanitizeName x.1) ≠ key) :
    (dispositions.foldl (fun state (called, d) => state.dispose called d) s).namesakes key =
      s.namesakes key := by
  induction dispositions generalizing s with
  | nil => rfl
  | cons first rest ih =>
      obtain ⟨differs, others⟩ := List.forall_mem_cons.mp others
      exact (ih others).trans (namesakes_dispose_other differs)

/-- The last prisoner of a name is a captive. -/
def Seized (s : GameState) (key : String) : Prop :=
  ∃ p, (s.namesakes key .prisoners).getLast? = some p ∧ p.Captive

/-- All people of a name are dead. -/
def Dead (s : GameState) (key : String) : Prop :=
  ∀ circle, ∀ p ∈ s.namesakes key circle, p.isAlive = false

/-- Among some circles there is no more than one person of a name. -/
structure Lone (s : GameState) (key : String) (circles : List Circle) : Prop where
  one : ∀ c ∈ circles, ∀ c' ∈ circles, s.namesakes key c ≠ [] → s.namesakes key c' ≠ [] → c = c'
  single : ∀ c ∈ circles, ∀ p rest, s.namesakes key c = p :: rest → rest = []

/-- Nobody of a name is outside. -/
def Cleared (s : GameState) (key : String) : Prop :=
  ∀ circle, circle ≠ .prisoners → s.namesakes key circle = []

/-- Somebody of a name is outside, or the last prisoner of the name is a captive. -/
def Wanted (s : GameState) (key : String) : Prop :=
  (∃ circle, circle ≠ .prisoners ∧ s.namesakes key circle ≠ []) ∨ s.Seized key

/-- Where no circle has gained people of a name, there is still no more than one. -/
theorem Lone.of_fewer {circles : List Circle} (h : s.Lone key circles)
    (fewer : ∀ c ∈ circles, (t.namesakes key c).length ≤ (s.namesakes key c).length) :
    t.Lone key circles := by
  have some (c : Circle) (member : c ∈ circles) (there : t.namesakes key c ≠ []) :
      s.namesakes key c ≠ [] := by
    have less := fewer c member
    rw [← List.length_pos_iff] at there ⊢
    omega
  constructor
  · intro c member c' member' there there'
    exact h.one c member c' member' (some c member there) (some c' member' there')
  · intro c member p rest there
    obtain ⟨q, later, all⟩ := List.exists_cons_of_ne_nil (some c member (by simp [there]))
    have less := fewer c member
    rw [there, all, h.single c member q later all] at less
    exact List.length_eq_zero_iff.mp (by simpa using less)

theorem Lone.of_same {circles : List Circle} (h : s.Lone key circles)
    (same : t.namesakes key = s.namesakes key) : t.Lone key circles :=
  h.of_fewer fun _ _ => by rw [same]

namespace Disposed

theorem seized (h : s.Disposed key t d) (before : s.Seized key) : t.Seized key := by
  obtain ⟨p, last, captive⟩ := before
  cases h with
  | kept same =>
      rw [Seized, same]
      exact ⟨p, last, captive⟩
  | @killed first q rest all changed =>
      rw [Seized, changed]
      split
      · next here =>
          rw [here, all] at last
          cases rest with
          | nil =>
              obtain rfl : q = p := Option.some.inj last
              exact ⟨q.killed, rfl, captive.killed⟩
          | cons r rest => exact ⟨p, last, captive⟩
      · exact ⟨p, last, captive⟩
  | @captured first q rest outside all changed =>
      rw [Seized, changed, if_pos rfl]
      exact ⟨q.captured, List.getLast?_concat, q.captured_captive⟩

theorem dead (h : s.Disposed key t d) (before : s.Dead key) : t.Dead key := by
  intro circle p member
  cases h with
  | kept same =>
      rw [same] at member
      exact before circle p member
  | @killed first q rest all changed =>
      rw [changed] at member
      split at member
      · rcases List.mem_cons.mp member with rfl | later
        · rfl
        · exact before first p (all ▸ List.mem_cons_of_mem q later)
      · exact before circle p member
  | @captured first q rest outside all changed =>
      have dead := before first
      rw [all] at dead
      rw [changed] at member
      split at member
      · rcases List.mem_append.mp member with old | new
        · exact before .prisoners p old
        · rw [List.mem_singleton.mp new]
          exact dead q List.mem_cons_self
      · split at member
        · exact dead p (List.mem_cons_of_mem q member)
        · exact before circle p member

/-- Outside there are no more people of a name than there were. -/
theorem fewer (h : s.Disposed key t d) {circle : Circle} (outside : circle ≠ .prisoners) :
    (t.namesakes key circle).length ≤ (s.namesakes key circle).length := by
  cases h with
  | kept same => rw [same]
  | @killed first q rest all changed =>
      rw [changed]
      split
      · next here => simp [here, all]
      · exact Nat.le_refl _
  | @captured first q rest _ all changed =>
      rw [changed, if_neg outside]
      split
      · next here => simp [here, all]
      · exact Nat.le_refl _

theorem lone_free (h : s.Disposed key t d) (before : s.Lone key Circle.free) :
    t.Lone key Circle.free :=
  before.of_fewer fun _ member => h.fewer (Circle.mem_free.mp member)

theorem lone (h : s.Disposed key t d) (before : s.Lone key Circle.all) :
    t.Lone key Circle.all := by
  cases h with
  | kept same => exact before.of_same same
  | @killed first q rest all changed =>
      refine before.of_fewer fun c _ => ?_
      rw [changed]
      split
      · next here => simp [here, all]
      · exact Nat.le_refl _
  | @captured first q rest outside all changed =>
      have there : s.namesakes key first ≠ [] := by simp [all]
      -- nobody of the name is left but the one who was taken
      have others (c : Circle) (other : c ≠ first) : s.namesakes key c = [] := by
        by_contra some
        exact other (before.one c c.mem_all first first.mem_all some there)
      have within (c : Circle) (some : t.namesakes key c ≠ []) : c = .prisoners := by
        by_contra free
        rw [changed, if_neg free] at some
        split at some
        · exact some (before.single first first.mem_all q rest all)
        · next other => exact some (others c other)
      constructor
      · intro c _ c' _ some some'
        rw [within c some, within c' some']
      · intro c _ p later here
        obtain rfl : c = .prisoners := within c (by simp [here])
        rw [changed, if_pos rfl, others .prisoners outside.symm] at here
        cases here
        rfl

theorem cleared (h : s.Disposed key t d) (before : s.Cleared key) : t.Cleared key := by
  intro circle outside
  have less := h.fewer outside
  rw [before circle outside] at less
  exact List.length_eq_zero_iff.mp (Nat.le_zero.mp less)

/-- Who is outside under a name stays there, or is taken prisoner. -/
theorem wanted (h : s.Disposed key t d) (before : s.Wanted key) : t.Wanted key := by
  rcases before with ⟨circle, free, some⟩ | seized
  · cases h with
    | kept same => exact .inl ⟨circle, free, same ▸ some⟩
    | @killed first q rest all changed =>
        refine .inl ⟨circle, free, ?_⟩
        rw [changed]
        split
        · exact List.cons_ne_nil _ _
        · exact some
    | @captured first q rest outside all changed =>
        refine .inr ⟨q.captured, ?_, q.captured_captive⟩
        rw [changed, if_pos rfl, List.getLast?_concat]
  · exact .inr (h.seized seized)

end Disposed

section

variable (written : key ≠ "") (same : fold (sanitizeName called) = key)

include written same

/-- Under a name that is wanted, the last prisoner is a captive once the name is captured. -/
theorem capture_seized (h : s.Wanted key) : (s.capture called).Seized key := by
  subst same
  rcases namesakes_capture (s := s) written with
    ⟨nobody, kept⟩ | ⟨first, q, rest, _, _, all, changed⟩
  · rw [kept]
    rcases h with ⟨circle, outside, some⟩ | seized
    · exact absurd (firstWith?_eq_none.mp nobody circle (Circle.mem_free.mpr outside)) some
    · exact seized
  · rw [Seized, changed, if_pos rfl]
    exact ⟨q.captured, List.getLast?_concat, q.captured_captive⟩

/-- Who is taken prisoner leaves nobody of the name outside, where there was one. -/
theorem capture_clears (h : s.Lone key Circle.free) : (s.capture called).Cleared key := by
  subst same
  intro circle outside
  have member := Circle.mem_free.mpr outside
  rcases namesakes_capture (s := s) written with
    ⟨nobody, kept⟩ | ⟨first, q, rest, _, free, all, changed⟩
  · rw [kept]
    exact firstWith?_eq_none.mp nobody circle member
  · rw [changed, if_neg outside]
    split
    · exact h.single first (Circle.mem_free.mpr free) q rest all
    · next other =>
        by_contra some
        have there : s.namesakes (fold (sanitizeName called)) first ≠ [] := by simp [all]
        exact other (h.one circle member first (Circle.mem_free.mpr free) some there)

/-- Where there is one person of a name, killing the name leaves nobody of the name alive. -/
theorem kill_dead (h : s.Lone key Circle.all) : (s.kill called).Dead key := by
  subst same
  rcases namesakes_kill (s := s) written with ⟨nobody, kept⟩ | ⟨first, q, rest, _, all, changed⟩
  · rw [kept]
    intro circle p member
    rw [firstWith?_eq_none.mp nobody circle circle.mem_all] at member
    cases member
  · intro circle p member
    rw [changed] at member
    split at member
    · rw [h.single first first.mem_all q rest all] at member
      rw [List.mem_singleton.mp member]
      rfl
    · next other =>
        have some : s.namesakes (fold (sanitizeName called)) circle ≠ [] := by
          intro none
          rw [none] at member
          cases member
        have there : s.namesakes (fold (sanitizeName called)) first ≠ [] := by simp [all]
        exact absurd (h.one circle circle.mem_all first first.mem_all some there) other

end

/-! ### After the result of a fight -/

/-- A disposition of a name takes effect everywhere. Of the killed nobody of the name is left alive
in any circle. Who was found outside and taken is the only prisoner of the name, with the spirit of
a captive, and nobody of the name is left outside. -/
def TakesEffect (s t : GameState) (key : String) : Disposition → Prop
  | .kill => ∀ circle, ∀ p ∈ t.namesakes key circle, p.isAlive = false
  | .capture => (∃ circle, circle ≠ .prisoners ∧ s.namesakes key circle ≠ []) →
      (∃ p, t.namesakes key .prisoners = [p] ∧ p.category = "prisoner" ∧ p.resistance = 50 ∧
        p.willpower = 50) ∧
      ∀ circle, circle ≠ .prisoners → t.namesakes key circle = []
  | .release => True

/-- The people of a name are in one circle, for a capture in one besides the prisoners. -/
def InOneCircle (s : GameState) (key : String) (d : Disposition) : Prop :=
  ∀ c ∈ d.circles, ∀ c' ∈ d.circles, s.namesakes key c ≠ [] → s.namesakes key c' ≠ [] → c = c'

instance (s : GameState) (key : String) (d : Disposition) : Decidable (s.InOneCircle key d) :=
  inferInstanceAs (Decidable (∀ c ∈ d.circles, ∀ c' ∈ d.circles,
    s.namesakes key c ≠ [] → s.namesakes key c' ≠ [] → c = c'))

/-- A disposition reaches everybody whom it is about: beyond the first circle that has the name, all
are dead who would be killed, and there is nobody who would be taken. -/
def ReachesAll (s : GameState) (key : String) : Disposition → Prop
  | .kill => ∀ first ∈ s.firstWith? key Circle.all, ∀ circle, circle ≠ first →
      ∀ p ∈ s.namesakes key circle, p.isAlive = false
  | .capture => ∀ first ∈ s.firstWith? key Circle.free, ∀ circle, circle ≠ first →
      circle ≠ .prisoners → s.namesakes key circle = []
  | .release => True

section

variable {r : CombatResult} {effect : Effect}

theorem namesakes_of_taken (done : applyCombatResult s r = .ok effect) (circle : Circle) :
    effect.state.legalize.namesakes key circle =
      (mergePeople ((s.fought r).namesakes key circle)).map
        (·.legalize effect.state.settings) := by
  rw [namesakes_legalize, namesakes_of_cast (applyCombatResult_samePeople done).cast]

theorem dead_of_taken (done : applyCombatResult s r = .ok effect) (h : (s.fought r).Dead key) :
    effect.state.legalize.Dead key := by
  intro circle p member
  rw [namesakes_of_taken done] at member
  obtain ⟨q, merged, rfl⟩ := List.mem_map.mp member
  exact forall_mergePeople (P := fun q => q.isAlive = false) (h circle)
    (fun _ _ => Person.dead_overlay) q merged

theorem cleared_of_taken (done : applyCombatResult s r = .ok effect) :
    effect.state.legalize.Cleared key ↔ (s.fought r).Cleared key := by
  have empty (circle : Circle) : effect.state.legalize.namesakes key circle = [] ↔
      (s.fought r).namesakes key circle = [] := by
    rw [namesakes_of_taken done, List.map_eq_nil_iff]
    constructor
    · intro none
      have named : ∀ p ∈ (s.fought r).namesakes key circle, p.foldedName = key :=
        fun p member => (mem_namesakes.mp member).2
      rcases mergePeople_of_one_name named with nobody | ⟨q, _, merged⟩
      · exact nobody
      · rw [merged] at none
        cases none
    · intro none
      rw [none]
      rfl
  constructor
  · exact fun h circle outside => (empty circle).mp (h circle outside)
  · exact fun h circle outside => (empty circle).mpr (h circle outside)

/-- Whatever else the prisoners of a name come to, the last one who is a captive makes a captive of
the one who is left. -/
theorem prisoner_of_taken (done : applyCombatResult s r = .ok effect)
    (h : (s.fought r).Seized key) : ∃ p, effect.state.legalize.namesakes key .prisoners = [p] ∧
      p.category = "prisoner" ∧ p.resistance = 50 ∧ p.willpower = 50 := by
  obtain ⟨p, last, captive⟩ := h
  obtain ⟨before, all⟩ := List.getLast?_eq_some_iff.mp last
  have named : ∀ q ∈ before ++ [p], q.foldedName = key := by
    intro q member
    rw [← all] at member
    exact (mem_namesakes.mp member).2
  rw [namesakes_of_taken done, all]
  rcases mergePeople_concat_of_one_name named with merged | ⟨q, merged⟩
  · rw [merged]
    exact ⟨_, rfl, captive.category, captive.resistance, captive.willpower⟩
  · rw [merged]
    have laid := captive.overlay q
    exact ⟨_, rfl, laid.category, laid.resistance, laid.willpower⟩

theorem single_of_legal (legal : s.Legal) {circle : Circle} {p : Person} {rest : List Person}
    (there : s.namesakes key circle = p :: rest) : rest = [] := by
  rcases namesakes_of_distinct (legal.distinct circle) key with none | ⟨q, _, single⟩
  · rw [namesakes, none] at there
    cases there
  · rw [namesakes, single] at there
    exact (List.cons.inj there).2.symm

/-- In a circle of a legal state whose people of a name no disposition has touched, they are there
after the fight: nobody of the name was merged. -/
theorem mem_of_taken (legal : s.Legal) (done : applyCombatResult s r = .ok effect)
    {circle : Circle} (kept : (s.fought r).namesakes key circle = s.namesakes key circle)
    {p : Person} (member : p ∈ s.namesakes key circle) :
    p.legalize effect.state.settings ∈ effect.state.legalize.namesakes key circle := by
  obtain ⟨q, rest, all⟩ := List.exists_cons_of_ne_nil (List.ne_nil_of_mem member)
  rw [single_of_legal legal all] at all
  rw [all] at member
  rw [namesakes_of_taken done, kept, all, List.mem_singleton.mp member]
  exact List.mem_singleton.mpr rfl

/-- In a legal state, people of a name who are in one circle are one person. -/
theorem lone_of_legal (legal : s.Legal) {circles : List Circle} (one : ∀ c ∈ circles,
    ∀ c' ∈ circles, s.namesakes key c ≠ [] → s.namesakes key c' ≠ [] → c = c') :
    s.Lone key circles :=
  ⟨one, fun _ _ _ _ there => single_of_legal legal there⟩

section

variable (written : key ≠ "") (same : fold (sanitizeName called) = key)
  (disposed : (called, d) ∈ r.dispositions)

include written same disposed

/-- Who is outside when a fight begins and captured by name is a captive when all dispositions are
carried out. -/
theorem fought_seized (capture : d = .capture)
    (outside : ∃ circle, circle ≠ .prisoners ∧ s.namesakes key circle ≠ []) :
    (s.fought r).Seized key := by
  subst capture
  refine fought_turns (P := fun s => s.Wanted key) (Q := fun s => s.Seized key) ?_
    (fun s called d => (dispose_disposed written s called d).wanted)
    (fun s called d => (dispose_disposed written s called d).seized) ?_ disposed ?_
  · intro t u cast wanted
    rw [Wanted, namesakes_of_cast cast]
    exact wanted.imp_right fun seized => by rwa [Seized, namesakes_of_cast cast]
  · intro t wanted
    dsimp only [dispose]
    exact capture_seized written same wanted
  · exact .inl outside

/-- Where the people of a name are in one circle, what else is disposed of does not matter. -/
theorem takesEffect_of_inOneCircle (legal : s.Legal) (done : applyCombatResult s r = .ok effect)
    (one : s.InOneCircle key d) : s.TakesEffect effect.state.legalize key d := by
  cases d with
  | release => trivial
  | kill =>
      have lone : s.Lone key Circle.all := lone_of_legal legal one
      apply dead_of_taken done
      refine fought_turns (P := fun s => s.Lone key Circle.all) (Q := fun s => s.Dead key) ?_
        (fun s called d => (dispose_disposed written s called d).lone)
        (fun s called d => (dispose_disposed written s called d).dead) ?_ disposed lone
      · intro t u cast lone
        exact lone.of_same (namesakes_of_cast cast)
      · intro t lone
        dsimp only [dispose]
        exact kill_dead written same lone
  | capture =>
      have lone : s.Lone key Circle.free := lone_of_legal legal one
      intro outside
      constructor
      · exact prisoner_of_taken done (fought_seized written same disposed rfl outside)
      · apply (cleared_of_taken done).mpr
        refine fought_turns (P := fun s => s.Lone key Circle.free) (Q := fun s => s.Cleared key) ?_
          (fun s called d => (dispose_disposed written s called d).lone_free)
          (fun s called d => (dispose_disposed written s called d).cleared) ?_ disposed lone
        · intro t u cast lone
          exact lone.of_same (namesakes_of_cast cast)
        · intro t lone
          dsimp only [dispose]
          exact capture_clears written same lone

omit written in
/-- Where dispositions are of distinct names, one of them alone changes the people of its name. -/
theorem fought_of_distinct
    (distinct : (r.dispositions.map fun x => fold (sanitizeName x.1)).Nodup) :
    ∃ before : GameState, before.namesakes key = s.namesakes key ∧
      (s.fought r).namesakes key = (before.dispose called d).namesakes key := by
  obtain ⟨earlier, later, split⟩ := List.append_of_mem disposed
  rw [split, List.map_append, List.map_cons, List.nodup_append, same] at distinct
  obtain ⟨-, rest, apart⟩ := distinct
  have others : ∀ x ∈ earlier, fold (sanitizeName x.1) ≠ key := by
    intro x member
    have named : fold (sanitizeName x.1) ∈ earlier.map fun x => fold (sanitizeName x.1) :=
      List.mem_map.mpr ⟨x, member, rfl⟩
    exact apart _ named key List.mem_cons_self
  have others' : ∀ x ∈ later, fold (sanitizeName x.1) ≠ key := by
    intro x member equal
    apply (List.nodup_cons.mp rest).1
    exact List.mem_map.mpr ⟨x, member, equal⟩
  let begun : GameState := { s with pendingCombat := none, player := s.player.afterFight r }
  have begins : begun.namesakes key = s.namesakes key := namesakes_of_cast rfl
  let before := earlier.foldl (fun state (called, d) => state.dispose called d) begun
  have kept : before.namesakes key = s.namesakes key :=
    (namesakes_disposeAll_other others).trans begins
  have fights : s.fought r =
      later.foldl (fun state (called, d) => state.dispose called d) (before.dispose called d) := by
    rw [fought, split, List.foldl_append, List.foldl_cons]
  refine ⟨before, kept, ?_⟩
  rw [fights]
  exact namesakes_disposeAll_other others'

/-- Where dispositions are of distinct names, killing a name kills the one of the first circle that
has the name, and no other. -/
theorem fought_kills (kill : d = .kill) (legal : s.Legal)
    (distinct : (r.dispositions.map fun x => fold (sanitizeName x.1)).Nodup) :
    s.firstWith? key Circle.all = none ∧ (s.fought r).namesakes key = s.namesakes key ∨
      ∃ first, ∃ p : Person, s.firstWith? key Circle.all = some first ∧
        ∀ circle, (s.fought r).namesakes key circle =
          if circle = first then [p.killed] else s.namesakes key circle := by
  obtain ⟨before, kept, fights⟩ := fought_of_distinct (s := s) same disposed distinct
  subst same kill
  rw [← firstWith?_congr kept Circle.all]
  rcases namesakes_kill (s := before) written with
    ⟨nobody, idle⟩ | ⟨first, p, rest, there, all, changed⟩
  · refine .inl ⟨nobody, ?_⟩
    rw [fights, dispose, idle, kept]
  · refine .inr ⟨first, p, there, fun circle => ?_⟩
    rw [kept] at all
    rw [fights, dispose, changed, kept, single_of_legal legal all]

/-- Where dispositions are of distinct names, capturing a name takes the one of the first circle
outside that has the name, and no other. -/
theorem fought_captures (capture : d = .capture) (legal : s.Legal)
    (distinct : (r.dispositions.map fun x => fold (sanitizeName x.1)).Nodup) :
    s.firstWith? key Circle.free = none ∧ (s.fought r).namesakes key = s.namesakes key ∨
      ∃ first, s.firstWith? key Circle.free = some first ∧ ∀ circle, circle ≠ .prisoners →
        (s.fought r).namesakes key circle =
          if circle = first then [] else s.namesakes key circle := by
  obtain ⟨before, kept, fights⟩ := fought_of_distinct (s := s) same disposed distinct
  subst same capture
  rw [← firstWith?_congr kept Circle.free]
  rcases namesakes_capture (s := before) written with
    ⟨nobody, idle⟩ | ⟨first, p, rest, there, _, all, changed⟩
  · refine .inl ⟨nobody, ?_⟩
    rw [fights, dispose, idle, kept]
  · refine .inr ⟨first, there, fun circle outside => ?_⟩
    rw [kept] at all
    rw [fights, dispose, changed, if_neg outside, kept, single_of_legal legal all]

/-- Where dispositions are of distinct names, killing a name leaves somebody of the name alive just
where somebody was who is not in the first circle. -/
theorem dead_iff_of_distinct (kill : d = .kill) (legal : s.Legal)
    (done : applyCombatResult s r = .ok effect)
    (distinct : (r.dispositions.map fun x => fold (sanitizeName x.1)).Nodup) :
    effect.state.legalize.Dead key ↔ s.ReachesAll key .kill := by
  rcases fought_kills (s := s) written same disposed kill legal distinct with
    ⟨nobody, kept⟩ | ⟨first, p, there, changed⟩
  · constructor
    · intro _ c sought
      rw [nobody] at sought
      cases sought
    · intro _
      apply dead_of_taken done
      intro circle q member
      rw [kept, firstWith?_eq_none.mp nobody circle circle.mem_all] at member
      cases member
  · constructor
    · intro dead c sought circle other q member
      obtain rfl : first = c := Option.some.inj (there.symm.trans sought)
      have untouched : (s.fought r).namesakes key circle = s.namesakes key circle := by
        rw [changed, if_neg other]
      exact dead circle (q.legalize effect.state.settings)
        (mem_of_taken legal done untouched member)
    · intro reaches
      apply dead_of_taken done
      intro circle q member
      rw [changed] at member
      split at member
      · rw [List.mem_singleton.mp member]
        rfl
      · next other => exact reaches first there circle other q member

/-- Where dispositions are of distinct names, capturing a name leaves somebody of the name outside
just where somebody was outside who is not in the first circle. -/
theorem cleared_iff_of_distinct (capture : d = .capture) (legal : s.Legal)
    (distinct : (r.dispositions.map fun x => fold (sanitizeName x.1)).Nodup) :
    (s.fought r).Cleared key ↔ s.ReachesAll key .capture := by
  rcases fought_captures (s := s) written same disposed capture legal distinct with
    ⟨nobody, kept⟩ | ⟨first, there, changed⟩
  · rw [Cleared, kept]
    constructor
    · intro _ c sought
      rw [nobody] at sought
      cases sought
    · intro _ circle outside
      exact firstWith?_eq_none.mp nobody circle (Circle.mem_free.mpr outside)
  · constructor
    · intro cleared c sought circle other outside
      obtain rfl : first = c := Option.some.inj (there.symm.trans sought)
      have gone := cleared circle outside
      rwa [changed circle outside, if_neg other] at gone
    · intro reaches circle outside
      rw [changed circle outside]
      split
      · rfl
      · next other => exact reaches first there circle other outside

/-- Where dispositions are of distinct names, one of them takes effect everywhere just where it
reaches everybody whom it is about. -/
theorem takesEffect_iff_of_distinct (legal : s.Legal) (done : applyCombatResult s r = .ok effect)
    (distinct : (r.dispositions.map fun x => fold (sanitizeName x.1)).Nodup) :
    s.TakesEffect effect.state.legalize key d ↔ s.ReachesAll key d := by
  cases d with
  | release => exact Iff.rfl
  | kill => exact dead_iff_of_distinct written same disposed rfl legal done distinct
  | capture =>
      have cleared := cleared_iff_of_distinct (s := s) written same disposed rfl legal distinct
      constructor
      · intro effective first sought
        have outside := List.mem_of_find?_eq_some sought
        have some : s.namesakes key first ≠ [] := by
          simpa using List.find?_some sought
        have taken := effective ⟨first, Circle.mem_free.mp outside, some⟩
        exact cleared.mp ((cleared_of_taken done).mp taken.2) first sought
      · intro reaches outside
        constructor
        · exact prisoner_of_taken done (fought_seized written same disposed rfl outside)
        · exact (cleared_of_taken done).mpr (cleared.mpr reaches)

end
end

/-- What the result of a fight says of a name takes effect on everybody of the name, in all circles,
where the people of the name are in one circle (who is captured may be among the prisoners too),
whatever else it says. Where it says nothing else of the name, it takes effect everywhere just where
the first circle that has the name is all that it has to reach. -/
theorem takesEffect_of_told {event : Event} {r : CombatResult} (legal : s.legalize = s)
    (leads : event.Leads s t) (tells : event.Tells r) (disposed : (called, d) ∈ r.dispositions)
    (written : fold (sanitizeName called) ≠ "") :
    (s.InOneCircle (fold (sanitizeName called)) d →
      s.TakesEffect t (fold (sanitizeName called)) d) ∧
    ((r.dispositions.map fun x => fold (sanitizeName x.1)).Nodup →
      (s.TakesEffect t (fold (sanitizeName called)) d ↔
        s.ReachesAll (fold (sanitizeName called)) d)) := by
  have legal : s.Legal := legal ▸ legalize_legal s
  obtain ⟨effect, done, rfl⟩ := leads.told tells
  constructor
  · intro one
    exact takesEffect_of_inOneCircle written rfl disposed legal done one
  · intro distinct
    exact takesEffect_iff_of_distinct written rfl disposed legal done distinct

/-- Somebody met is taken prisoner where there is a prisoner of the name already, and a companion is
killed under another qualifier. -/
theorem takesEffect_of_told_captured :
    let bob : Person := { id := "id-1", name := "Bob", description := "old", given := [.name] }
    let captive : Person := { id := "id-2", name := "BOB", willpower := 3, given := [.name] }
    let cai : Person := { id := "id-3", name := "Cai", category := "companion", given := [.name] }
    let s : GameState := { cast :=
      { encountered := [bob], companions := [cai], prisoners := [captive] } }
    let c : Command := ⟨"COMBAT_END", [("outcome", some "victory"),
      ("dispositions", some "bob: Capture, Cai - the guard: KILL")]⟩
    let r : CombatResult := {
      outcome := .victory, dispositions := [("bob", .capture), ("Cai - the guard", .kill)] }
    let held : Person := { captive with
      category := "prisoner", resistance := 50, willpower := 50
      given := [.name, .category, .resistance, .willpower] }
    let t : GameState := { s with cast :=
      { companions := [{ cai with isAlive := false, given := [.name, .isAlive] }]
        prisoners := [held] } }
    s.legalize = s ∧ Event.Leads (.command c) s t ∧ (Event.command c).Tells r ∧
      s.InOneCircle "bob" .capture ∧ s.TakesEffect t "bob" .capture ∧
      s.InOneCircle "cai" .kill ∧ s.TakesEffect t "cai" .kill := by
  intro bob captive cai s c r held t
  have legal : s.legalize = s := by decide +kernel
  have leads : Event.Leads (.command c) s t := Event.leads_of_state {} (by decide +kernel)
  have tells : (Event.command c).Tells r := by
    constructor
    · decide +kernel
    · decide +kernel
  have bobNamed : fold (sanitizeName "bob") = "bob" := by decide +kernel
  have caiNamed : fold (sanitizeName "Cai - the guard") = "cai" := by decide +kernel
  have bobOne : s.InOneCircle "bob" .capture := by decide +kernel
  have caiOne : s.InOneCircle "cai" .kill := by decide +kernel
  have taken := (takesEffect_of_told legal leads tells (List.mem_cons_self ..)
    (by rw [bobNamed]; decide)).1
  have killed := (takesEffect_of_told legal leads tells
    (List.mem_cons_of_mem _ (List.mem_singleton.mpr rfl)) (by rw [caiNamed]; decide)).1
  -- rewriting the names would compute them
  generalize fold (sanitizeName "bob") = key at taken bobNamed
  generalize fold (sanitizeName "Cai - the guard") = key' at killed caiNamed
  subst bobNamed caiNamed
  exact ⟨legal, leads, tells, bobOne, taken bobOne, caiOne, killed caiOne⟩

/-- Who was met and has joined is in two circles. Killed, the companion lives on; captured, the
companion stays free. -/
theorem companion_outlives_fight :
    let bob : Person := { id := "id-1", name := "Bob", given := [.name] }
    let cai : Person := { id := "id-2", name := "Cai", given := [.name] }
    let joined (p : Person) : Person :=
      { p with category := "companion", given := [.name, .category] }
    let s : GameState := {
      player := { tier := "Qi Refining Layer 1" }, playerName := "Lin", location := "Hall"
      settings := { enableStats := false }
      cast := { encountered := [bob, cai], companions := [joined bob, joined cai] } }
    let c : Command := ⟨"COMBAT_END",
      [("outcome", some "victory"), ("dispositions", some "Bob: kill, Cai: capture")]⟩
    let r : CombatResult := {
      outcome := .victory, dispositions := [("Bob", .kill), ("Cai", .capture)] }
    s.legalize = s ∧ (r.dispositions.map fun x => fold x.1).Nodup ∧ (Event.command c).Tells r ∧
      ∃ t, Event.Leads (.command c) s t ∧ ¬ s.TakesEffect t "bob" .kill ∧
        ¬ s.TakesEffect t "cai" .capture := by
  intro bob cai joined s c r
  have legal : s.legalize = s := by decide +kernel
  have tells : (Event.command c).Tells r := by
    constructor
    · decide +kernel
    · decide +kernel
  let dead : Person := { bob with isAlive := false, given := [.name, .isAlive] }
  let held : Person := { cai with
    category := "prisoner", resistance := 50, willpower := 50
    given := [.name, .category, .resistance, .willpower] }
  let t : GameState := { s with cast :=
    { encountered := [dead], companions := [joined bob, joined cai], prisoners := [held] } }
  have leads : Event.Leads (.command c) s t := Event.leads_of_state {} (by decide +kernel)
  refine ⟨legal, by decide +kernel, tells, t, leads, ?_, ?_⟩
  · intro killed
    have alive : joined bob ∈ t.namesakes "bob" .companions := by decide +kernel
    exact absurd (killed .companions (joined bob) alive) (by decide)
  · intro taken
    have outside : s.namesakes "cai" .encountered ≠ [] := by decide +kernel
    have cleared := (taken ⟨.encountered, by decide, outside⟩).2 .companions (by decide)
    exact absurd cleared (by decide +kernel)

end GameState
end Ascent
