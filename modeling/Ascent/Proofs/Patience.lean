import Ascent.Proofs.Contact
import Ascent.Proofs.Distinct
import Ascent.Proofs.Namesakes

/-!
How long somebody has waited at a peak, and whether there is a peak.

The turns are counted on the person, while the stats say whether the person stands at a peak. Growth
keeps the two in step. So does all else that leaves both alone or puts down both, or takes both over
from one record. But an introduction draws up stats anew and leaves the count; and a captive laid
over a prisoner of the name may bring stats without a count. Only there the two may part.

Main exports: `Person.InStep`, `Person.InStep.full_count`, `Person.Covers`, `Orderly`,
`Orderly.merge`, `GameState.Undisturbed`, `rule_orderly`, `inStep_of_undisturbed`,
`count_outlasts_peak`.
-/

namespace Ascent

open Text

/-! ### Counts and peaks -/

/-- The count of turns at a peak is in step with the stats: it is below the limit, and who has
counted any turn stands at a peak. -/
structure Person.InStep (p : Person) : Prop where
  nonneg : 0 ≤ p.bottleneckTurns
  early : p.bottleneckTurns < bottleneckLimit
  peak : 0 < p.bottleneckTurns → ∃ s, p.stats = some s ∧ s.atPeak = true

/-- All counts of turns are in step. -/
def GameState.InStep (s : GameState) : Prop := ∀ circle, ∀ p ∈ s.people circle, p.InStep

theorem Person.inStep_iff {p : Person} : p.InStep ↔
    0 ≤ p.bottleneckTurns ∧ p.bottleneckTurns < bottleneckLimit ∧
      (0 < p.bottleneckTurns → p.stats.any (·.atPeak) = true) := by
  have peak : p.stats.any (·.atPeak) = true ↔ ∃ s, p.stats = some s ∧ s.atPeak = true :=
    Option.any_eq_true _ _
  rw [peak]
  exact ⟨fun h => ⟨h.nonneg, h.early, h.peak⟩, fun ⟨nonneg, early, peak⟩ => ⟨nonneg, early, peak⟩⟩

instance (p : Person) : Decidable p.InStep := decidable_of_iff _ Person.inStep_iff.symm

instance (s : GameState) : Decidable s.InStep :=
  decidable_of_iff (∀ circle ∈ Circle.all, ∀ p ∈ s.people circle, p.InStep)
    ⟨fun each circle => each circle circle.mem_all, fun each circle _ => each circle⟩

/-- The count of turns is in step, and at a tier that keeps its peak when the person is restored. -/
structure Person.Steady (world : Settings) (p : Person) : Prop extends p.InStep where
  last : 0 < p.bottleneckTurns → ∀ s, p.stats = some s → (world.resolve s.tier).isLastMinor = true

/-- A record that says something of the stats says something of the count, and the other way round.
So a merge takes both from it or neither. -/
def Person.Paired (p : Person) : Prop := .stats ∈ p.given ↔ .bottleneckTurns ∈ p.given

/-- A record may be laid over another one without parting stats and count. -/
def Person.Covers (p q : Person) : Prop :=
  p.Paired ∨ q.bottleneckTurns = 0 ∧ p.bottleneckTurns = 0

instance (p : Person) : Decidable p.Paired :=
  inferInstanceAs (Decidable (.stats ∈ p.given ↔ .bottleneckTurns ∈ p.given))

instance (p q : Person) : Decidable (p.Covers q) :=
  inferInstanceAs (Decidable (p.Paired ∨ q.bottleneckTurns = 0 ∧ p.bottleneckTurns = 0))

namespace Person

variable {world : Settings} {p q : Person}

theorem InStep.steady (h : p.InStep) (legal : p.Legal world) : p.Steady world where
  toInStep := h
  last := by
    intro counted s stats
    obtain ⟨s', stats', peak⟩ := h.peak counted
    obtain rfl : s = s' := Option.some.inj (stats.symm.trans stats')
    exact (legal.stats s stats).peak peak

namespace Steady

theorem of_none (none : p.bottleneckTurns = 0) : p.Steady world where
  nonneg := by rw [none]
  early := by
    rw [none]
    decide
  peak := by
    intro counted
    rw [none] at counted
    exact absurd counted (by decide)
  last := by
    intro counted
    rw [none] at counted
    exact absurd counted (by decide)

theorem of_same (h : p.Steady world) (turns : q.bottleneckTurns = p.bottleneckTurns)
    (stats : q.stats = p.stats) : q.Steady world where
  nonneg := by
    rw [turns]
    exact h.nonneg
  early := by
    rw [turns]
    exact h.early
  peak := by
    rw [turns, stats]
    exact h.peak
  last := by
    rw [turns, stats]
    exact h.last

/-- Who is restored keeps the peak. -/
theorem legalize (h : p.Steady world) : (p.legalize world).InStep where
  nonneg := h.nonneg
  early := h.early
  peak := by
    intro counted
    obtain ⟨s, stats, peak⟩ := h.peak counted
    have last := h.last counted s stats
    have restored : (p.legalize world).stats = some (s.legalize world) :=
      congrArg (Option.map (StatBlock.legalize · world)) stats
    refine ⟨s.legalize world, restored, ?_⟩
    simp [StatBlock.legalize, peak, last]

end Steady

/-- A turn counts where there is a peak, and puts the count down where it leads away from one. -/
theorem InStep.turn (h : p.InStep) (legal : p.Legal world) (turn : p.Turn world q) :
    q.Steady world := by
  cases turn with
  | rests => exact h.steady legal
  | @waits s stats peak early =>
      constructor
      · constructor
        · exact Int.le_trans h.nonneg (Int.le_add_of_nonneg_right (by decide))
        · exact early
        · exact fun _ => ⟨s, stats, peak⟩
      · intro _ s' stats'
        obtain rfl : s = s' := Option.some.inj (stats.symm.trans stats')
        exact (legal.stats s stats).peak peak
  | breaks => exact .of_none rfl
  | @gains s gain climb stats slope _ =>
      -- who is not at a peak has counted nothing
      apply Steady.of_none
      apply Int.le_antisymm _ h.nonneg
      apply Int.not_lt.mp
      intro counted
      obtain ⟨s', stats', peak⟩ := h.peak counted
      obtain rfl : s = s' := Option.some.inj (stats.symm.trans stats')
      rw [slope] at peak
      cases peak

/-- Who breaks through at the end of a turn has counted all turns at the peak but this one. -/
theorem InStep.full_count (h : p.InStep) (turn : p.Turn world q) {s : StatBlock}
    (stats : p.stats = some s) (peak : s.atPeak = true) (risen : q.stats ≠ p.stats) :
    p.bottleneckTurns + 1 = bottleneckLimit := by
  cases turn with
  | rests => exact absurd rfl risen
  | waits => exact absurd rfl risen
  | breaks _ _ late => exact Int.le_antisymm h.early late
  | @gains s' gain climb stats' slope _ =>
      obtain rfl : s = s' := Option.some.inj (stats.symm.trans stats')
      rw [peak] at slope
      cases slope

/-! ### Merges -/

theorem stats_overlay (earlier later : Person) : (earlier.overlay later).stats =
    if .stats ∈ later.given then later.stats else earlier.stats := by
  have merged : .stats ∈ later.mergedFields ↔ .stats ∈ later.given := by simp [mergedFields]
  rw [← if_congr merged rfl rfl]
  exact stats_takeAll later.mergedFields later earlier

theorem bottleneckTurns_overlay (earlier later : Person) :
    (earlier.overlay later).bottleneckTurns =
      if .bottleneckTurns ∈ later.given then later.bottleneckTurns
      else earlier.bottleneckTurns := by
  have merged : .bottleneckTurns ∈ later.mergedFields ↔ .bottleneckTurns ∈ later.given := by
    simp [mergedFields]
  rw [← if_congr merged rfl rfl]
  exact get_overlay .bottleneckTurns Person.bottleneckTurns (fun _ _ => rfl)
    (fun g other _ _ => by cases g <;> first | rfl | exact absurd rfl other) (fun _ _ => rfl) _ _

theorem Paired.overlay_steady (paired : p.Paired) (earlier : q.Steady world)
    (later : p.Steady world) : (q.overlay p).Steady world := by
  by_cases set : .stats ∈ p.given
  · apply later.of_same
    · rw [bottleneckTurns_overlay, if_pos (paired.mp set)]
    · rw [stats_overlay, if_pos set]
  · apply earlier.of_same
    · rw [bottleneckTurns_overlay, if_neg fun counted => set (paired.mpr counted)]
    · rw [stats_overlay, if_neg set]

theorem overlay_uncounted (earlier : q.bottleneckTurns = 0) (later : p.bottleneckTurns = 0) :
    (q.overlay p).bottleneckTurns = 0 := by
  rw [bottleneckTurns_overlay]
  split
  · exact later
  · exact earlier

/-- For merges, a record is like another one: the name, the count and what was set of count and
stats are the same. -/
structure Alike (p q : Person) : Prop where
  name : p.foldedName = q.foldedName
  turns : p.bottleneckTurns = q.bottleneckTurns
  paired : p.Paired ↔ q.Paired

theorem Alike.covers {r : Person} (h : p.Alike q) : p.Covers r ↔ q.Covers r := by
  rw [Covers, Covers, h.paired, h.turns]

theorem Alike.covered {r : Person} (h : p.Alike q) : r.Covers p ↔ r.Covers q := by
  rw [Covers, Covers, h.turns]

theorem killed_alike (p : Person) : p.killed.Alike p where
  name := rfl
  turns := rfl
  paired := by
    rw [Paired, Paired, killed, mem_given_giving, mem_given_giving]
    simp

theorem captured_alike (p : Person) : p.captured.Alike p where
  name := rfl
  turns := rfl
  paired := by
    rw [Paired, Paired, captured, mem_given_giving, mem_given_giving]
    simp

end Person

/-! ### Circles -/

/-- People whose counts are in step, and will be once they are merged. -/
structure Orderly (world : Settings) (people : List Person) : Prop where
  steady : ∀ p ∈ people, p.Steady world
  covers : people.Pairwise fun q p => q.foldedName = p.foldedName → p.Covers q

/-- A record in the place of another one that stands in the same relation to all others. -/
theorem pairwise_set {α : Type} {R : α → α → Prop} {l : List α} {place : Nat} {a b : α}
    (h : l.Pairwise R) (there : l[place]? = some b) (before : ∀ c, R c b → R c a)
    (after : ∀ c, R b c → R a c) : (l.set place a).Pairwise R := by
  induction l generalizing place with
  | nil => cases there
  | cons first rest ih =>
      obtain ⟨ahead, others⟩ := List.pairwise_cons.mp h
      cases place with
      | zero =>
          obtain rfl : first = b := Option.some.inj there
          exact List.pairwise_cons.mpr ⟨fun c member => after c (ahead c member), others⟩
      | succ place =>
          refine List.pairwise_cons.mpr ⟨fun c member => ?_, ih others there⟩
          rcases List.mem_or_eq_of_mem_set member with old | rfl
          · exact ahead c old
          · exact before first (ahead b (List.mem_of_getElem? there))

namespace Orderly

variable {world : Settings} {people : List Person} {p q : Person} {place : Nat}

theorem of_distinct (distinct : (people.map Person.foldedName).Nodup)
    (steady : ∀ p ∈ people, p.Steady world) : Orderly world people where
  steady := steady
  covers := (List.pairwise_map.mp distinct).imp fun differs same => absurd same differs

theorem eraseIdx (h : Orderly world people) (place : Nat) :
    Orderly world (people.eraseIdx place) where
  steady := fun p member => h.steady p (List.mem_of_mem_eraseIdx member)
  covers := h.covers.sublist (List.eraseIdx_sublist people place)

theorem append (h : Orderly world people) (new : p.Steady world)
    (covers : ∀ q ∈ people, q.foldedName = p.foldedName → p.Covers q) :
    Orderly world (people ++ [p]) where
  steady := forall_append h.steady new
  covers := by
    refine List.pairwise_append.mpr ⟨h.covers, List.pairwise_singleton _ _, ?_⟩
    intro q member r last
    rw [List.mem_singleton.mp last]
    exact covers q member

theorem set (h : Orderly world people) (there : people[place]? = some q) (alike : p.Alike q)
    (steady : p.Steady world) : Orderly world (people.set place p) where
  steady := forall_set h.steady steady place
  covers := by
    apply pairwise_set h.covers there
    · intro r before same
      exact alike.covers.mpr (before (same.trans alike.name))
    · intro r after same
      exact alike.covered.mpr (after (alike.name.symm.trans same))

/-- What was put into a circle where nobody stands in the way of a merge. -/
theorem of_placed {after : List Person} (distinct : (people.map Person.foldedName).Nodup)
    (steady : ∀ p ∈ people, p.Steady world) (placed : Placed p people after)
    (new : p.Steady world)
    (covers : ∀ q ∈ people, q.foldedName = p.foldedName → p.Covers q) : Orderly world after := by
  cases placed with
  | set there same =>
      refine of_distinct ?_ (forall_set steady new _)
      rwa [names_set there same]
  | append => exact (of_distinct distinct steady).append new covers
  | @both place q there same =>
      have replaced : Orderly world (people.set place p) := by
        refine of_distinct ?_ (forall_set steady new place)
        rwa [names_set there same]
      refine replaced.append new fun r member named => ?_
      rcases List.mem_or_eq_of_mem_set member with old | rfl
      · exact covers r old named
      · -- the record itself stands in the place of a namesake
        have laid := covers q (List.mem_of_getElem? there) same.symm
        exact laid.imp_right fun idle => ⟨idle.2, idle.2⟩

/-- Merged people are in step: of several of one name each covers those before it. -/
theorem merge (h : Orderly world people) : ∀ m ∈ mergePeople people, m.Steady world := by
  obtain ⟨steady, covers⟩ := h
  induction people using List.reverseRecOn with
  | nil => exact steady
  | append_singleton rest r ih =>
      obtain ⟨among, _, last⟩ := List.pairwise_append.mp covers
      have before := ih (fun p member => steady p (List.mem_append_left _ member)) among
      have new : r.Steady world := steady r (by simp)
      intro m member
      rw [mergePeople_append_singleton] at member
      rcases mem_mergeInto member with old | rfl | ⟨first, there, same, rfl⟩
      · exact before m old
      · exact new
      · by_cases paired : r.Paired
        · exact paired.overlay_steady (before first there) new
        · -- nobody of the name has counted turns, so neither has what they come to
          have idle (q : Person) (known : q ∈ rest) (named : q.foldedName = r.foldedName) :
              q.bottleneckTurns = 0 ∧ r.bottleneckTurns = 0 :=
            (last q known r (List.mem_singleton.mpr rfl) named).resolve_left paired
          have merged : first ∈ mergePeople (namesakes r.foldedName rest) := by
            rw [← namesakes_mergePeople]
            exact mem_namesakes.mpr ⟨there, same⟩
          have uncounted : first.bottleneckTurns = 0 := by
            refine forall_mergePeople (P := fun q => q.bottleneckTurns = 0) ?_
              (fun _ _ => Person.overlay_uncounted) first merged
            intro q member
            obtain ⟨known, named⟩ := mem_namesakes.mp member
            exact (idle q known named).1
          by_cases other : ∃ q ∈ rest, q.foldedName = r.foldedName
          · obtain ⟨q, known, named⟩ := other
            exact .of_none (Person.overlay_uncounted uncounted (idle q known named).2)
          · have none : namesakes r.foldedName rest = [] :=
              List.filter_eq_nil_iff.mpr fun q known goes => other ⟨q, known, goesBy_iff.mp goes⟩
            rw [none] at merged
            cases merged

end Orderly

open GameState

/-- All circles are orderly. -/
def GameState.Orderly (s : GameState) : Prop :=
  ∀ circle, Ascent.Orderly s.settings (s.people circle)

namespace GameState

variable {s t : GameState}

namespace Orderly

theorem of_samePeople (h : s.Orderly) (same : s.SamePeople t) : t.Orderly := by
  intro circle
  rw [same.settings, GameState.people, same.cast]
  exact h circle

theorem setPeople (h : s.Orderly) {circle : Circle} {people : List Person}
    (orderly : Ascent.Orderly s.settings people) : (s.setPeople circle people).Orderly := by
  intro other
  rw [people_setPeople]
  split
  · exact orderly
  · exact h other

/-- Once an orderly state is restored, all counts are in step. -/
theorem legalize (h : s.Orderly) : s.legalize.InStep := by
  intro circle p member
  rw [people_legalize] at member
  obtain ⟨m, merged, rfl⟩ := List.mem_map.mp member
  exact ((h circle).merge m merged).legalize

end Orderly

/-- In a legal state, counts that are in step will be so when everybody is restored. -/
theorem InStep.steady (h : s.InStep) (legal : s.Legal) (circle : Circle) :
    ∀ p ∈ s.people circle, p.Steady s.settings :=
  fun p member => (h circle p member).steady (legal.people circle p member)

theorem InStep.orderly (h : s.InStep) (legal : s.Legal) : s.Orderly :=
  fun circle => .of_distinct (legal.distinct circle) (h.steady legal circle)

/-- A circle in which one record was changed in place, but neither its name nor stats nor count. -/
theorem InStep.store (h : s.InStep) (legal : s.Legal) {circle : Circle} {called : String}
    {place : Nat} {p q : Person} (there : findNamed? (s.people circle) called = some (place, p))
    (name : q.foldedName = p.foldedName) (turns : q.bottleneckTurns = p.bottleneckTurns)
    (stats : q.stats = p.stats) : (s.store ⟨circle, place, p⟩ q).Orderly := by
  have steady := h.steady legal circle
  have new : q.Steady s.settings := (steady p (mem_of_findNamed? there)).of_same turns stats
  apply (h.orderly legal).setPeople
  refine .of_distinct ?_ (forall_set steady new place)
  rw [names_set (getElem?_of_findNamed? there) name]
  exact legal.distinct circle

end GameState

/-! ### Introductions -/

/-- Nobody whom a name may mean, as it is given or as it is looked up, has counted turns. -/
def Quiet (called : String) (people : List Person) : Prop :=
  ∀ p ∈ people, p.foldedName = fold (sanitizeName called) ∨
    p.foldedName = fold (sanitizeName (sanitizeName called)) → p.bottleneckTurns = 0

instance (called : String) (people : List Person) : Decidable (Quiet called people) :=
  inferInstanceAs (Decidable (∀ p ∈ people, p.foldedName = fold (sanitizeName called) ∨
    p.foldedName = fold (sanitizeName (sanitizeName called)) → p.bottleneckTurns = 0))

section

variable {s : GameState} {people : List Person} {called : String} {params : Params} {place : Nat}
  {p q : Person}

theorem bottleneckTurns_putAll (p : Person) (fields : List (PersonField × FieldValue)) :
    (p.putAll fields).bottleneckTurns = p.bottleneckTurns :=
  get_foldl_put Person.bottleneckTurns (fun f _ _ => by cases f <;> rfl) _ p

theorem stats_putAll (p : Person) (fields : List (PersonField × FieldValue)) :
    (p.putAll fields).stats = p.stats :=
  get_foldl_put Person.stats (fun f _ _ => by cases f <;> rfl) _ p

theorem given_foldl_put (fields : List (PersonField × FieldValue)) (p : Person) :
    (fields.foldl (fun p (f, v) => p.put f v) p).given = p.given :=
  get_foldl_put Person.given (fun f _ _ => by cases f <;> rfl) fields p

/-- What is set once fields are set was set before or is one of the fields. -/
theorem of_mem_given_putAll {fields : List (PersonField × FieldValue)} {f : PersonField}
    (member : f ∈ (p.putAll fields).given) : f ∈ p.given ∨ f ∈ fields.map Prod.fst := by
  unfold Person.putAll at member
  dsimp only at member
  rw [Person.mem_given_giving, given_foldl_put] at member
  refine member.imp_right fun new => ?_
  obtain ⟨x, kept, rfl⟩ := List.mem_map.mp new
  exact List.mem_map_of_mem (List.mem_filter.mp kept).1

/-- Who is introduced has counted nothing, and neither count nor stats are set. -/
theorem introduce_unpaired (called : String) (params : Params) :
    (Person.introduce called (pickFields personKeys PersonField.kind params)).Ensures fun p =>
      p.name = called ∧ p.bottleneckTurns = 0 ∧
        ∀ f ∈ [PersonField.stats, .bottleneckTurns], f ∉ p.given := by
  refine .of_bind fun id => .pure ⟨?_, bottleneckTurns_putAll _ _, ?_⟩
  · exact get_foldl_put Person.name (fun f _ _ => by cases f <;> rfl) _ _
  · intro f untold member
    rcases of_mem_given_putAll member with before | new
    · have named : f ∈ [PersonField.name] := before
      rw [List.mem_singleton.mp named] at untold
      exact absurd untold (by decide)
    · obtain ⟨x, picked, rfl⟩ := List.mem_map.mp new
      have keys : ∀ g ∈ [PersonField.stats, .bottleneckTurns], g ∉ personKeys.map Prod.snd := by
        decide
      exact keys x.1 untold (of_mem_pickFields picked).1

/-- Who is met again will be in step, unless a count goes on while stats are drawn up anew. -/
theorem Person.Redrawn.steady {world : Settings} {kept : Bool} (drawn : q.Redrawn kept p)
    (before : q.Steady world) (idle : kept = true → q.bottleneckTurns = 0) : p.Steady world := by
  cases kept with
  | true => exact .of_none (drawn.turns.trans (idle rfl))
  | false => exact before.of_same drawn.turns (drawn.stats rfl)

/-- Where no stats are kept, an introduction sets neither count nor stats. -/
theorem Person.Redrawn.unpaired (drawn : q.Redrawn false p)
    (unset : ∀ f ∈ [PersonField.stats, .bottleneckTurns], f ∉ q.given) :
    ∀ f ∈ [PersonField.stats, .bottleneckTurns], f ∉ p.given := by
  intro f untold member
  rcases drawn.given rfl f member with before | rfl
  · exact unset f untold before
  · exact absurd untold (by decide)

/-- Who is introduced among people, or met again there, leaves them orderly, unless somebody whom
the name may mean has counted turns while stats are drawn up. -/
theorem upsertPerson_orderly {world : Settings} {kept : Bool} (params : Params)
    (distinct : (people.map Person.foldedName).Nodup) (steady : ∀ p ∈ people, p.Steady world)
    (quiet : kept = true → Quiet called people) :
    (upsertPerson people called (pickFields personKeys PersonField.kind params)).Ensures fun r =>
      ∀ p, r.2.1.Redrawn kept p →
        Orderly world (r.1.map fun x => if x.name = p.name then p else x) := by
  cases found : findNamed? people (sanitizeName called) with
  | some known =>
      obtain ⟨place, q⟩ := known
      have member : q ∈ people := mem_of_findNamed? found
      have met : (upsertPerson people called
          (pickFields personKeys PersonField.kind params)).Ensures fun r =>
            r.2.1.bottleneckTurns = q.bottleneckTurns ∧ r.2.1.stats = q.stats := by
        unfold upsertPerson
        rw [found]
        exact .pure ⟨bottleneckTurns_putAll _ _, stats_putAll _ _⟩
      refine ((upsertPerson_known distinct found _).and met).mono ?_
      rintro r ⟨put, turns, stats⟩ p drawn
      obtain ⟨named, replaced⟩ := put p drawn.name
      have new : p.Steady world := by
        apply drawn.steady ((steady q member).of_same turns stats)
        exact fun on => turns.trans (quiet on q member (.inr (fold_name_of_findNamed? found).2))
      rw [replaced]
      refine .of_distinct ?_ (forall_set steady new place)
      rwa [names_set (getElem?_of_findNamed? found) named]
  | none =>
      have made : (upsertPerson people called
          (pickFields personKeys PersonField.kind params)).Ensures fun r =>
            r.2.1.name = sanitizeName called ∧ r.2.1.bottleneckTurns = 0 ∧
              ∀ f ∈ [PersonField.stats, .bottleneckTurns], f ∉ r.2.1.given := by
        unfold upsertPerson
        rw [found]
        exact .bind (introduce_unpaired _ params) fun _ fresh => .pure fresh
      refine ((upsertPerson_placed distinct called _).and made).mono ?_
      rintro r ⟨placed, name, turns, unset⟩ p drawn
      have uncounted : p.bottleneckTurns = 0 := drawn.turns.trans turns
      refine .of_placed distinct steady (placed p drawn.name) (.of_none uncounted) ?_
      intro q member same
      cases kept with
      | true =>
          refine .inr ⟨quiet rfl q member (.inl ?_), uncounted⟩
          rw [same, Person.foldedName, drawn.name, name]
      | false =>
          have bare := drawn.unpaired unset
          exact .inl (iff_of_false (bare .stats (by decide)) (bare .bottleneckTurns (by decide)))

/-! ### Commands about people -/

/-- The arguments under which a companion is introduced. -/
def GameState.companionParams (s : GameState) (params : Params) : Params :=
  if (companionSeed s (params.required "name")).isNone then
    Pairs.ofList (("category", some "companion") :: params)
  else params

/-- A command introduces somebody among some people, under a name. -/
inductive Event.Introduces (s : GameState) : Event → List Person → String → Prop where
  | meets {c : Command} (tag : upper c.name = "NPC_NEW") :
      Introduces s (.command c) (s.people .encountered) c.params.introduced
  | joins {c : Command} (tag : upper c.name = "COMPANION_NEW") :
      Introduces s (.command c)
        (sown (s.people .companions) (s.companionParams c.params).introduced
          (companionSeed s (c.params.required "name")))
        (s.companionParams c.params).introduced

theorem introduceIn_orderly {circle : Circle} {seed : Option Person} (h : s.Orderly)
    (distinct : ((sown (s.people circle) params.introduced seed).map Person.foldedName).Nodup)
    (steady : ∀ p ∈ sown (s.people circle) params.introduced seed, p.Steady s.settings)
    (quiet : s.settings.enableStats = true →
      Quiet params.introduced (sown (s.people circle) params.introduced seed)) :
    (introduceIn s params circle seed).Ensures fun r => r.1.Orderly := by
  refine (introduceIn_redrawn (upsertPerson_orderly params distinct steady quiet)).mono ?_
  rintro r ⟨people, same, orderly⟩
  rw [same]
  exact h.setPeople orderly

variable (inStep : s.InStep) (legal : s.Legal)

include inStep legal

theorem meetPerson_orderly
    (quiet : s.settings.enableStats = true → Quiet params.introduced (s.people .encountered)) :
    (meetPerson s params).Ensures fun e => e.state.Orderly := by
  have steady := inStep.steady legal .encountered
  have introduced : (introduceIn s params .encountered none).Ensures fun r => r.1.Orderly :=
    introduceIn_orderly (inStep.orderly legal) (legal.distinct .encountered) steady quiet
  exact .bind introduced fun _ orderly => .pure orderly

theorem joinCompanion_orderly
    (quiet : s.settings.enableStats = true → Quiet (s.companionParams params).introduced
      (sown (s.people .companions) (s.companionParams params).introduced
        (companionSeed s (params.required "name")))) :
    (joinCompanion s params).Ensures fun e => e.state.Orderly := by
  have distinct := legal.distinct .companions
  have steady := inStep.steady legal .companions
  have introduced : (introduceIn s (s.companionParams params) .companions
      (companionSeed s (params.required "name"))).Ensures fun r => r.1.Orderly := by
    cases sought : companionSeed s (params.required "name") with
    | none =>
        rw [sought] at quiet
        exact introduceIn_orderly (inStep.orderly legal) distinct steady quiet
    | some seed =>
        rw [sought] at quiet
        obtain ⟨met, known, same, _, fresh⟩ := of_companionSeed sought
        have before := inStep.steady legal .encountered met known
        have new : seed.Steady s.settings := by
          rw [same]
          exact before.of_same rfl rfl
        have base : ((sown (s.people .companions) (s.companionParams params).introduced
              (some seed)).map Person.foldedName).Nodup ∧
            ∀ p ∈ sown (s.people .companions) (s.companionParams params).introduced (some seed),
              p.Steady s.settings := by
          rcases sown_eq (s.people .companions) (s.companionParams params).introduced seed with
            old | more
          · rw [old]
            exact ⟨distinct, steady⟩
          · rw [more]
            exact ⟨nodup_names_append distinct fresh, forall_append steady new⟩
        exact introduceIn_orderly (inStep.orderly legal) base.1 base.2 quiet
  exact .bind introduced fun _ orderly => .pure orderly

/-- Somebody is looked up, or introduced where nobody is of the name, and stays orderly as long as
neither name nor stats nor count are changed. -/
theorem ensurePerson_orderly (written : fold (sanitizeName called) ≠ "") :
    (s.ensurePerson called).Ensures fun r => ∀ q, q.foldedName = r.2.person.foldedName →
      q.bottleneckTurns = r.2.person.bottleneckTurns → q.stats = r.2.person.stats →
        (r.1.store r.2 q).Orderly := by
  unfold GameState.ensurePerson
  split
  · next found there =>
      have named := (findNamed?_of_locateIn? there).2
      exact .pure fun q name turns stats => inStep.store legal named name turns stats
  · next nobody =>
      refine .bind (introduce_unpaired (sanitizeName called) []) fun made fresh => ?_
      refine .bind (refreshStats_redrawn made s) fun p drawn => .pure fun q name turns stats => ?_
      have stranger := not_mem_names_of_locate?_none written nobody
      have same : q.foldedName = fold (sanitizeName called) := by
        rw [name, Person.foldedName, drawn.name, fresh.1]
      rw [store_introduced]
      apply (inStep.orderly legal).setPeople
      apply Orderly.of_distinct
      · exact nodup_names_append (legal.distinct .encountered) (same ▸ stranger)
      · apply forall_append (inStep.steady legal .encountered)
        exact .of_none (turns.trans (drawn.turns.trans fresh.2.1))

theorem updatePerson_orderly (written : fold (sanitizeName (params.required "name")) ≠ "") :
    (updatePerson s params).Ensures fun e => e.state.Orderly := by
  refine .bind (ensurePerson_orderly inStep legal written) fun r stored => .pure (stored _ ?_ ?_ ?_)
  · split <;> exact r.2.person.foldedName_putAll _
  · split <;> exact bottleneckTurns_putAll _ _
  · split <;> exact stats_putAll _ _

theorem remember_orderly (written : fold (sanitizeName (params.required "npc")) ≠ "") :
    (remember s params).Ensures fun e => e.state.Orderly :=
  .bind (ensurePerson_orderly inStep legal written) fun _ stored => .pure (stored _ rfl rfl rfl)

theorem feel_orderly (written : fold (sanitizeName (params.required "name")) ≠ "") :
    (feel s params).Ensures fun e => e.state.Orderly :=
  .bind (ensurePerson_orderly inStep legal written) fun _ stored => .pure (stored _ rfl rfl rfl)

theorem leaveCompanion_orderly : (leaveCompanion s params).state.Orderly := by
  unfold leaveCompanion
  split
  · exact inStep.orderly legal
  · exact (inStep.orderly legal).setPeople ((inStep.orderly legal .companions).eraseIdx _)

theorem changeRelation_orderly (circle : Circle) :
    (changeRelation circle s params).state.Orderly := by
  unfold changeRelation
  split
  · exact inStep.orderly legal
  · next place p there =>
      apply inStep.store legal there
      · split
        · exact Person.foldedName_putAll _ _
        · rfl
      · split
        · exact bottleneckTurns_putAll _ _
        · rfl
      · split
        · exact stats_putAll _ _
        · rfl

end

/-- Commands about people leave them orderly, if nobody who has counted turns is introduced again
while stats are drawn up. -/
theorem people_orderly {s : GameState} {c : Command} {r : CommandRule} (inStep : s.InStep)
    (legal : s.Legal) (member : r ∈ Registry.people) (tag : upper c.name = upper r.tag)
    (complete : ∀ key ∈ r.required, c.params.lacks key = false)
    (quiet : s.settings.enableStats = true → ∀ people called,
      Event.Introduces s (.command c) people called → Quiet called people) :
    (r.run s c.params).Ensures fun e => e.state.Orderly := by
  have written (key : String) (needed : key ∈ r.required) :
      fold (sanitizeName (c.params.required key)) ≠ "" :=
    fold_sanitizeName_ne (Params.written_of_lacks (complete key needed))
  simp only [Registry.people, List.mem_cons, List.not_mem_nil, or_false] at member
  rcases member with rfl | rfl | rfl | rfl | rfl | rfl | rfl | rfl | rfl
  · have meets := Event.Introduces.meets (s := s) (tag.trans (by decide +kernel))
    exact meetPerson_orderly inStep legal fun kept => quiet kept _ _ meets
  · exact updatePerson_orderly inStep legal (written "name" (by simp))
  · exact remember_orderly inStep legal (written "npc" (by simp))
  · exact feel_orderly inStep legal (written "name" (by simp))
  · have joins := Event.Introduces.joins (s := s) (tag.trans (by decide +kernel))
    exact joinCompanion_orderly inStep legal fun kept => quiet kept _ _ joins
  · exact Registry.certain_ensures (leaveCompanion_orderly inStep legal)
  · exact Registry.certain_ensures (changeRelation_orderly inStep legal .wives)
  · exact Registry.certain_ensures (changeRelation_orderly inStep legal .slaves)
  · exact Registry.certain_ensures (changeRelation_orderly inStep legal .prisoners)

/-! ### Fights -/

namespace GameState

variable {s t : GameState}

/-- Who would be taken prisoner under a name may be laid over the prisoner of the name. -/
def CapturesCovered (s : GameState) (called : String) : Prop :=
  ∀ found, s.locateIn? Circle.free called = some found → ∀ q ∈ s.people .prisoners,
    q.foldedName = found.person.foldedName → found.person.Covers q

/-- Dispositions are carried out one after another, and who is taken prisoner may be laid over a
prisoner of the name. -/
def DisposesCovered (s : GameState) : Pairs Disposition → Prop
  | [] => True
  | (called, d) :: rest =>
    (d = .capture → s.CapturesCovered called) ∧ (s.dispose called d).DisposesCovered rest

instance (s : GameState) (called : String) : Decidable (s.CapturesCovered called) :=
  inferInstanceAs (Decidable (∀ found ∈ s.locateIn? Circle.free called, ∀ q ∈ s.people .prisoners,
    q.foldedName = found.person.foldedName → found.person.Covers q))

instance decidableDisposesCovered : (s : GameState) → (dispositions : Pairs Disposition) →
    Decidable (s.DisposesCovered dispositions)
  | _, [] => isTrue trivial
  | s, (called, d) :: rest =>
    have := decidableDisposesCovered (s.dispose called d) rest
    inferInstanceAs (Decidable
      ((d = .capture → s.CapturesCovered called) ∧ (s.dispose called d).DisposesCovered rest))

theorem DisposesCovered.of_cast (same : t.cast = s.cast) {dispositions : Pairs Disposition}
    (h : s.DisposesCovered dispositions) : t.DisposesCovered dispositions := by
  induction dispositions generalizing s t with
  | nil => trivial
  | cons first rest ih =>
      have people : t.people = s.people := funext fun circle => congrArg (·.get circle) same
      obtain ⟨called, d⟩ := first
      refine ⟨fun taken found at_ => ?_, ih (dispose_of_cast same called d) h.2⟩
      rw [locateIn?_of_cast same] at at_
      rw [people]
      exact h.1 taken found at_

namespace Orderly

theorem kill (h : s.Orderly) (called : String) : (s.kill called).Orderly := by
  unfold GameState.kill
  split
  · exact h
  · next found there =>
      have at_ := getElem?_of_findNamed? (findNamed?_of_locateIn? there).2
      have steady := (h found.circle).steady found.person (List.mem_of_getElem? at_)
      apply h.setPeople
      exact (h found.circle).set at_ found.person.killed_alike (steady.of_same rfl rfl)

theorem capture (h : s.Orderly) {called : String} (covered : s.CapturesCovered called) :
    (s.capture called).Orderly := by
  unfold GameState.capture
  split
  · exact h
  · next found there =>
      obtain ⟨outside, named⟩ := findNamed?_of_locateIn? there
      have free : found.circle ≠ .prisoners := Circle.mem_free.mp outside
      have steady := (h found.circle).steady found.person (mem_of_findNamed? named)
      have freed : (s.setPeople found.circle
          ((s.people found.circle).eraseIdx found.place)).Orderly :=
        h.setPeople ((h found.circle).eraseIdx found.place)
      have taken : found.person.captured.Steady s.settings := steady.of_same rfl rfl
      apply freed.setPeople
      apply (freed .prisoners).append taken
      rw [people_setPeople, if_neg free.symm]
      intro q held same
      have laid : found.person.Covers q := covered found there q held same
      exact found.person.captured_alike.covers.mpr laid

theorem dispose (h : s.Orderly) {called : String} {d : Disposition}
    (covered : d = .capture → s.CapturesCovered called) : (s.dispose called d).Orderly := by
  cases d with
  | release => exact h
  | kill =>
      dsimp only [GameState.dispose]
      exact h.kill called
  | capture =>
      dsimp only [GameState.dispose]
      exact h.capture (covered rfl)

theorem disposeAll (h : s.Orderly) {dispositions : Pairs Disposition}
    (covered : s.DisposesCovered dispositions) :
    (dispositions.foldl (fun state (called, d) => state.dispose called d) s).Orderly := by
  induction dispositions generalizing s with
  | nil => exact h
  | cons first rest ih => exact ih (h.dispose covered.1) covered.2

end Orderly
end GameState

theorem applyCombatResult_orderly {s : GameState} {r : CombatResult} {effect : Effect}
    (h : s.Orderly) (covered : s.DisposesCovered r.dispositions)
    (done : applyCombatResult s r = .ok effect) : effect.state.Orderly := by
  have left : s.SamePeople { s with
      pendingCombat := none, player := s.player.afterFight r } := ⟨rfl, rfl⟩
  have fought : (s.fought r).Orderly :=
    (h.of_samePeople left).disposeAll (covered.of_cast left.cast)
  exact fought.of_samePeople (applyCombatResult_samePeople done)

/-! ### Steps -/

theorem endTurn_inStep {s t : GameState} {messages : List String} (inStep : s.InStep)
    (legal : s.Legal) (done : s.endTurn = .ok (t, messages)) : t.InStep := by
  obtain ⟨ticked, ended, others, news, ticking, growing, -, rfl⟩ := endTurn_eq_ok done
  have same := tickStatus_samePeople ticking
  have turns := progressPeople_turns growing
  have orderly : GameState.Orderly { ticked with cast := others, turn := ticked.turn + 1 } := by
    intro circle
    have turned := turns circle
    rw [same.settings, GameState.people, same.cast] at turned
    have settings : GameState.settings { ticked with cast := others, turn := ticked.turn + 1 } =
        s.settings := same.settings
    rw [settings]
    apply Orderly.of_distinct
    · have names := names_of_turns turned
      have distinct := legal.distinct circle
      exact names ▸ distinct
    · exact forall_of_turns turned (P := fun p => p.InStep ∧ p.Legal s.settings)
        (fun p member => ⟨inStep circle p member, legal.people circle p member⟩)
        fun p q before turn => before.1.turn before.2 turn
  exact orderly.legalize

/-- What happens parts no count from its peak: where stats are drawn up, nobody who has counted
turns is introduced again, and who is taken prisoner in a fight may be laid over the prisoner of
the name. -/
structure GameState.Undisturbed (s : GameState) (event : Event) : Prop where
  introduced : s.settings.enableStats = true → ∀ people called,
    event.Introduces s people called → Quiet called people
  captured : ∀ r, event.Tells r → s.DisposesCovered r.dispositions

/-- Undisturbed, every rule but the end of a fight leaves all people orderly. -/
theorem rule_orderly {s : GameState} {c : Command} {r : CommandRule} (inStep : s.InStep)
    (legal : s.Legal) (undisturbed : s.Undisturbed (.command c)) (member : r ∈ Registry.rules)
    (other : upper r.tag ≠ "COMBAT_END") (tag : upper c.name = upper r.tag)
    (complete : ∀ key ∈ r.required, c.params.lacks key = false) :
    (r.run s c.params).Ensures fun e => e.state.Orderly := by
  have orderly := inStep.orderly legal
  rcases Registry.bystander_or_deed member with aside | deed
  · rcases List.mem_append.mp aside with met | errand
    · exact people_orderly inStep legal met tag complete undisturbed.introduced
    · exact (errand_samePeople s errand c.params).mono fun _ => orderly.of_samePeople
  · exact (deed_samePeople s deed other c.params).mono fun _ => orderly.of_samePeople

/-- In a legal state where all counts are in step with the peaks, every step leaves them so, if it
is undisturbed. -/
theorem inStep_of_undisturbed {event : Event} {s t : GameState} (legal : s.legalize = s)
    (inStep : s.InStep) (undisturbed : s.Undisturbed event) (leads : event.Leads s t) :
    t.InStep := by
  have legal : s.Legal := legal ▸ legalize_legal s
  by_cases told : ∃ r, event.Tells r
  · obtain ⟨r, tells⟩ := told
    obtain ⟨effect, done, rfl⟩ := leads.told tells
    have covered := undisturbed.captured r tells
    exact (applyCombatResult_orderly (inStep.orderly legal) covered done).legalize
  · cases leads with
    | @command c _ _ _ _ run =>
        apply dispatch_keeps_untold (P := GameState.Orderly) run (not_exists.mp told)
          (inStep.orderly legal)
        · intro r member other tag complete
          exact rule_orderly inStep legal undisturbed member other tag complete
        · intro u orderly
          exact orderly.legalize
    | turnEnd run => exact endTurn_inStep inStep legal run
    | @fight r _ _ _ _ => exact absurd ⟨r, rfl⟩ told

/-- Somebody who waits at a peak is taken prisoner, where there is a prisoner of the name who waits
too. -/
theorem inStep_of_undisturbed_captured :
    let top : StatBlock := { tier := "Qi Refining Layer 9", atPeak := true }
    let mo : Person := {
      id := "id-1", name := "Mo", stats := some top, bottleneckTurns := 7
      given := [.name, .stats, .bottleneckTurns] }
    let held : Person := { mo with id := "id-2", name := "MO", bottleneckTurns := 4 }
    let s : GameState := {
      player := { tier := "Qi Refining Layer 1" }
      cast := { encountered := [mo], companions := [mo], prisoners := [held] } }
    let c : Command := ⟨"COMBAT_END",
      [("outcome", some "victory"), ("dispositions", some "Mo: capture")]⟩
    let laid : Person := { held with
      category := "prisoner", resistance := 50, willpower := 50, bottleneckTurns := 7
      given := [.name, .stats, .bottleneckTurns, .category, .resistance, .willpower] }
    let t : GameState := { s with cast := { companions := [mo], prisoners := [laid] } }
    s.legalize = s ∧ s.InStep ∧ s.Undisturbed (.command c) ∧ Event.Leads (.command c) s t ∧
      t.InStep := by
  intro top mo held s c laid t
  have legal : s.legalize = s := by decide +kernel
  have inStep : s.InStep := by decide +kernel
  have leads : Event.Leads (.command c) s t := Event.leads_of_state {} (by decide +kernel)
  have undisturbed : s.Undisturbed (.command c) := by
    constructor
    · intro _ people called introduces
      cases introduces with
      | meets tag => exact absurd tag (by decide +kernel)
      | joins tag => exact absurd tag (by decide +kernel)
    · rintro r ⟨-, told⟩
      have result : combatResultOf? c.params =
          some { outcome := .victory, dispositions := [("Mo", .capture)] } := by decide +kernel
      obtain rfl := Option.some.inj (told.symm.trans result)
      have covered : s.DisposesCovered [("Mo", .capture)] := by decide +kernel
      exact covered
  exact ⟨legal, inStep, undisturbed, leads, inStep_of_undisturbed legal inStep undisturbed leads⟩

/-- Who has waited at a peak and is introduced again has stats without a peak then, and the turns
counted so far. -/
theorem count_outlasts_peak :
    let top : StatBlock := { tier := "Qi Refining Layer 9", atPeak := true }
    let mo : Person := {
      id := "id-1", name := "Mo", aptitude := some "ordinary", stats := some top
      bottleneckTurns := 5, given := [.id, .name, .aptitude, .stats, .bottleneckTurns] }
    let s : GameState := {
      player := { tier := "Qi Refining Layer 1" }, cast := { encountered := [mo] } }
    let c : Command := ⟨"NPC_NEW", [("name", some "Mo")]⟩
    s.legalize = s ∧ s.InStep ∧ ∃ t, Event.Leads (.command c) s t ∧ ¬ t.InStep := by
  intro top mo s c
  have legal : s.legalize = s := by decide +kernel
  have inStep : s.InStep := by decide +kernel
  let drawn : Attributes Int := ⟨200, 100, 20, 10, 20, 1888⟩
  let again : Person := { mo with
    tier := some "Qi Refining Layer 9"
    stats := some {
      tier := "Qi Refining Layer 9"
      vitality := 200, resource := 100, current := drawn, base := drawn }
    given := [.id, .name, .aptitude, .stats, .bottleneckTurns, .tier] }
  have leads : Event.Leads (.command c) s { s with cast := { encountered := [again] } } :=
    Event.leads_of_state {} (by decide +kernel)
  exact ⟨legal, inStep, _, leads, by decide +kernel⟩

end Ascent
