import Ascent.Proofs.Beside
import Ascent.Proofs.Provenance

/-!
Whom a command about people touches.

Such a command looks somebody up, or makes a record, and puts what comes of it into one circle: in
the place of a namesake, at the end, or both. Restoring the circle merges what was put there twice,
so in the end at most one record has been replaced or one has been added. Only a companion who
starts from the record of somebody met before is looked up a second time, and under another name
may be added beside that record.

Main exports: `Touched`, `Placed.touched`, `Person.Redrawn`, `introduceIn_redrawn`,
`GameState.SeedMeant`, `touches_one`, `companion_beside_seed`.
-/

namespace Ascent

open Text

/-! ### Circles in which one person is touched -/

/-- People of whom at most one has been replaced, or to whom one has been added at the end. -/
inductive Touched (people : List Person) : List Person → Prop where
  | kept : Touched people people
  | replaced {place : Nat} (there : place < people.length) (p : Person) :
      Touched people (people.set place p)
  | added (p : Person) : Touched people (people ++ [p])

/-- A record put among people before they are restored: in the place of a namesake, at the end, or
both. -/
inductive Placed (p : Person) (people : List Person) : List Person → Prop where
  | set {place : Nat} {q : Person} (there : people[place]? = some q)
      (same : p.foldedName = q.foldedName) : Placed p people (people.set place p)
  | append : Placed p people (people ++ [p])
  | both {place : Nat} {q : Person} (there : people[place]? = some q)
      (same : p.foldedName = q.foldedName) : Placed p people (people.set place p ++ [p])

theorem Touched.length_le {people after : List Person} (h : Touched people after) :
    after.length ≤ people.length + 1 := by
  cases h with
  | kept => exact Nat.le_succ _
  | replaced => simp
  | added => simp

section

variable {people : List Person} {settings : Settings} {p q : Person} {place : Nat}

theorem map_legalize_eq_self (legal : ∀ p ∈ people, p.Legal settings) :
    people.map (·.legalize settings) = people := by
  conv_rhs => rw [← List.map_id people]
  exact List.map_congr_left fun p member => Person.legalize_eq_self (legal p member)

/-- A record merged into a circle at its end touches one person. -/
theorem touched_append (distinct : (people.map Person.foldedName).Nodup)
    (legal : ∀ p ∈ people, p.Legal settings) (p : Person) :
    Touched people (legalizePeople (people ++ [p]) settings) := by
  rw [legalizePeople, mergePeople_append_singleton, mergePeople_eq_self distinct]
  by_cases known : p.foldedName ∈ people.map Person.foldedName
  · obtain ⟨place, q, there, _, merged⟩ := exists_of_mergeInto Person.overlay known
    rw [merged, List.map_set, map_legalize_eq_self legal]
    exact .replaced (List.getElem?_eq_some_iff.mp there).1 _
  · rw [mergeInto_of_not_mem known, List.map_append, map_legalize_eq_self legal]
    exact .added _

/-- Whatever was put into a circle, restoring it leaves one person touched. -/
theorem Placed.touched {after : List Person} (distinct : (people.map Person.foldedName).Nodup)
    (legal : ∀ p ∈ people, p.Legal settings) (placed : Placed p people after) :
    Touched people (legalizePeople after settings) := by
  cases placed with
  | @set place q there same =>
      have names := names_set there same
      rw [legalizePeople, mergePeople_eq_self (by rwa [names]), List.map_set,
        map_legalize_eq_self legal]
      exact .replaced (List.getElem?_eq_some_iff.mp there).1 _
  | append => exact touched_append distinct legal p
  | @both place q there same =>
      have bound := (List.getElem?_eq_some_iff.mp there).1
      have names := names_set there same
      have distinct' : ((people.set place p).map Person.foldedName).Nodup := by rwa [names]
      have here : (people.set place p)[place]? = some p := by simp [bound]
      have known : p.foldedName ∈ (people.set place p).map Person.foldedName :=
        List.mem_map_of_mem (List.mem_of_getElem? here)
      obtain ⟨other, r, there', same', merged⟩ :=
        exists_of_mergeInto Person.overlay known
      -- the record put at the end finds itself in its namesake's place
      obtain rfl : place = other := by
        refine (List.getElem?_inj (by simpa using bound) distinct').mp ?_
        rw [List.getElem?_map, List.getElem?_map, here, there']
        exact congrArg some same'.symm
      rw [legalizePeople, mergePeople_append_singleton, mergePeople_eq_self distinct', merged,
        List.set_set, List.map_set, map_legalize_eq_self legal]
      exact .replaced bound _

/-! ### Somebody introduced, or met again -/

/-- Where names are distinct, writing a record back by its name replaces one person. -/
theorem replace_of_there (distinct : (people.map Person.foldedName).Nodup)
    (there : people[place]? = some q) (same : p.name = q.name) :
    (people.map fun x => if x.name = p.name then p else x) = people.set place p := by
  induction people generalizing place with
  | nil => cases there
  | cons first rest ih =>
      rw [List.map_cons, List.nodup_cons] at distinct
      have fresh (x : Person) (member : x ∈ rest) : x.name ≠ first.name := fun equal =>
        distinct.1 (List.mem_map.mpr ⟨x, member, congrArg fold equal⟩)
      cases place with
      | zero =>
          obtain rfl : first = q := Option.some.inj there
          have others : (rest.map fun x => if x.name = p.name then p else x) = rest := by
            conv_rhs => rw [← List.map_id rest]
            refine List.map_congr_left fun x member => if_neg ?_
            rw [same]
            exact fresh x member
          rw [List.map_cons, if_pos same.symm, others]
          rfl
      | succ place =>
          have later : q ∈ rest := List.mem_of_getElem? there
          have other : first.name ≠ p.name := by
            rw [same]
            exact (fresh q later).symm
          rw [List.map_cons, if_neg other, ih distinct.2 there]
          rfl

theorem upsertPerson_known (distinct : (people.map Person.foldedName).Nodup) {called : String}
    (there : findNamed? people (sanitizeName called) = some (place, q))
    (fields : List (PersonField × FieldValue)) :
    (upsertPerson people called fields).Ensures fun r => ∀ p, p.name = r.2.1.name →
      p.foldedName = q.foldedName ∧
        (r.1.map fun x => if x.name = p.name then p else x) = people.set place p := by
  have at_ := getElem?_of_findNamed? there
  have bound := (List.getElem?_eq_some_iff.mp at_).1
  have merged := q.foldedName_putAll fields
  unfold upsertPerson
  rw [there]
  refine .pure fun p same => ?_
  have named : p.foldedName = q.foldedName := (congrArg fold same).trans merged
  refine ⟨named, ?_⟩
  have here : (people.set place (q.putAll fields))[place]? = some (q.putAll fields) := by
    simp [bound]
  rw [replace_of_there (by rwa [names_set at_ merged]) here same, List.set_set]

theorem upsertPerson_placed (distinct : (people.map Person.foldedName).Nodup) (called : String)
    (fields : List (PersonField × FieldValue)) :
    (upsertPerson people called fields).Ensures fun r => ∀ p, p.name = r.2.1.name →
      Placed p people (r.1.map fun x => if x.name = p.name then p else x) := by
  cases found : findNamed? people (sanitizeName called) with
  | some known =>
      obtain ⟨place, q⟩ := known
      refine (upsertPerson_known distinct found fields).mono fun r put p same => ?_
      rw [(put p same).2]
      exact .set (getElem?_of_findNamed? found) (put p same).1
  | none =>
      unfold upsertPerson
      rw [found]
      refine .of_bind fun created => .pure fun p same => ?_
      dsimp only at same ⊢
      rw [List.map_append, List.map_singleton, if_pos same.symm]
      by_cases namesake : ∃ x ∈ people, x.name = p.name
      · obtain ⟨x, member, equal⟩ := namesake
        obtain ⟨place, there⟩ := List.mem_iff_getElem?.mp member
        rw [replace_of_there distinct there equal.symm]
        exact .both there (congrArg fold equal.symm)
      · have others : (people.map fun x => if x.name = p.name then p else x) = people := by
          conv_rhs => rw [← List.map_id people]
          exact List.map_congr_left fun x member =>
            if_neg fun equal => namesake ⟨x, member, equal⟩
        rw [others]
        exact .append

end

/-- The name under which a command introduces somebody: that of the fields it sets, or else the one
that it is run for. -/
def Params.introduced (params : Params) : String :=
  let fields := pickFields personKeys PersonField.kind params
  let written := ((fieldValue? fields .name).map (·.asText)).getD ""
  if written = "" then sanitizeName ((params.value? "name").getD "") else written

/-- A circle with the record to start from, where nobody in it goes by the name. -/
def sown (people : List Person) (called : String) : Option Person → List Person
  | some seed => if hasNamed people called then people else people ++ [seed]
  | none => people

/-- What an introduction makes of a record that was met. Name and count of turns stay; where no
stats are kept nothing is set but the affinity. -/
structure Person.Redrawn (kept : Bool) (met p : Person) : Prop where
  name : p.name = met.name
  turns : p.bottleneckTurns = met.bottleneckTurns
  stats : kept = false → p.stats = met.stats
  given : kept = false → ∀ f ∈ p.given, f ∈ met.given ∨ f = .affinity

theorem refreshStats_redrawn (p : Person) (s : GameState) :
    (p.refreshStats s).Ensures (p.Redrawn s.settings.enableStats) := by
  unfold Person.refreshStats
  split
  · exact .pure ⟨rfl, rfl, fun _ => rfl, fun _ _ => .inl⟩
  · next kept =>
      have on (off : s.settings.enableStats = false) : False := kept (by rw [off]; rfl)
      exact .of_bind fun _ => .pure ⟨rfl, rfl, fun off => (on off).elim, fun off => (on off).elim⟩

/-- A change of affinity on the way changes nothing of this. -/
theorem Person.Redrawn.of_liked {kept : Bool} {met p : Person} {start : Int} {asked : Option String}
    (h : (met.moveAffinityTo start asked).Redrawn kept p) : met.Redrawn kept p := by
  refine ⟨h.name, h.turns, h.stats, fun off f member => ?_⟩
  rcases h.given off f member with before | affinity
  · rcases (mem_given_giving _ _ f).mp before with met | new
    · exact .inl met
    · exact .inr (List.mem_singleton.mp new)
  · exact .inr affinity

/-- What holds of a circle once somebody was introduced or met again there, drawn up anew and
written back by name. -/
theorem introduceIn_redrawn {s : GameState} {params : Params} {circle : Circle}
    {seed : Option Person} {P : List Person → Prop}
    (written : (upsertPerson (sown (s.people circle) params.introduced seed) params.introduced
      (pickFields personKeys PersonField.kind params)).Ensures fun r => ∀ p,
        r.2.1.Redrawn s.settings.enableStats p →
          P (r.1.map fun x => if x.name = p.name then p else x)) :
    (introduceIn s params circle seed).Ensures fun r =>
      ∃ people, r.1 = s.setPeople circle people ∧ P people := by
  unfold introduceIn
  unfold sown Params.introduced at written
  dsimp only at written ⊢
  refine .bind written fun r back => ?_
  refine .bind (refreshStats_redrawn _ s) fun p drawn => .pure ⟨_, rfl, back p ?_⟩
  split at drawn
  · exact drawn.of_liked
  · exact drawn

/-- What holds of a circle once somebody was introduced or met again there, and written back by
name. -/
theorem introduceIn_ensures {s : GameState} {params : Params} {circle : Circle}
    {seed : Option Person} {P : List Person → Prop}
    (written : (upsertPerson (sown (s.people circle) params.introduced seed) params.introduced
      (pickFields personKeys PersonField.kind params)).Ensures fun r => ∀ p, p.name = r.2.1.name →
        P (r.1.map fun x => if x.name = p.name then p else x)) :
    (introduceIn s params circle seed).Ensures fun r =>
      ∃ people, r.1 = s.setPeople circle people ∧ P people :=
  introduceIn_redrawn (written.mono fun _ back p drawn => back p drawn.name)

/-! ### What commands put into a circle -/

namespace GameState

/-- A step that leaves all but one circle alone, and there puts one record among the people or
nothing. -/
def Puts (s t : GameState) : Prop :=
  ∃ circle people, t = s.setPeople circle people ∧
    (people = s.people circle ∨ ∃ p, Placed p (s.people circle) people)

variable {s : GameState}

theorem Puts.refl (s : GameState) : s.Puts s :=
  ⟨.encountered, _, (s.setPeople_people .encountered).symm, .inl rfl⟩

/-- A changed record put back where it was found. -/
theorem Puts.store {circle : Circle} {called : String} {place : Nat} {p q : Person}
    (there : findNamed? (s.people circle) called = some (place, p))
    (same : q.foldedName = p.foldedName) : s.Puts (s.store ⟨circle, place, p⟩ q) :=
  ⟨circle, _, rfl, .inr ⟨q, .set (getElem?_of_findNamed? there) same⟩⟩

end GameState

section

variable {s : GameState}

/-- Whoever was introduced at the end of those met is replaced there. -/
theorem store_introduced (s : GameState) (p q : Person) :
    (s.setPeople .encountered (s.cast.encountered ++ [p])).store
        ⟨.encountered, s.cast.encountered.length, p⟩ q =
      s.setPeople .encountered (s.people .encountered ++ [q]) := by
  have last : (s.cast.encountered ++ [p]).set s.cast.encountered.length q =
      s.cast.encountered ++ [q] := by simp
  exact (s.setPeople_setPeople .encountered _ _).trans (congrArg (s.setPeople .encountered) last)

/-- Where nobody is of a name, nobody who was met is called so. -/
theorem not_mem_names_of_locate?_none {called : String} (written : fold (sanitizeName called) ≠ "")
    (nobody : s.locate? called = none) :
    fold (sanitizeName called) ∉ (s.people .encountered).map Person.foldedName := by
  have none : findNamed? (s.people .encountered) called = none := by
    have nowhere := List.findSome?_eq_none_iff.mp nobody .encountered (by decide)
    exact Option.map_eq_none_iff.mp nowhere
  exact not_mem_names_of_hasNamed written (hasNamed_of_findNamed?_none none)

theorem ensurePerson_puts (s : GameState) (called : String) :
    (s.ensurePerson called).Ensures fun r => ∀ q, q.foldedName = r.2.person.foldedName →
      s.Puts (r.1.store r.2 q) := by
  unfold GameState.ensurePerson
  split
  · next found there =>
      have named := (GameState.findNamed?_of_locateIn? there).2
      exact .pure fun q same => .store named same
  · refine .of_bind fun made => .of_bind fun p => .pure fun q _ => ?_
    exact ⟨.encountered, _, store_introduced s p q, .inr ⟨q, .append⟩⟩

theorem meetPerson_puts (distinct : s.Distinct) (params : Params) :
    (meetPerson s params).Ensures fun e => s.Puts e.state := by
  have placed := upsertPerson_placed (distinct .encountered) params.introduced
    (pickFields personKeys PersonField.kind params)
  refine .bind (introduceIn_ensures
    (P := fun people => ∃ p, Placed p (s.people .encountered) people)
    (placed.mono fun r put p same => ⟨p, put p same⟩)) fun r put => .pure ?_
  obtain ⟨people, same, put⟩ := put
  exact ⟨.encountered, people, same, .inr put⟩

theorem updatePerson_puts (s : GameState) (params : Params) :
    (updatePerson s params).Ensures fun e => s.Puts e.state := by
  refine .bind (ensurePerson_puts s _) fun r put => .pure (put _ ?_)
  split
  · exact r.2.person.foldedName_putAll _
  · exact r.2.person.foldedName_putAll _

theorem remember_puts (s : GameState) (params : Params) :
    (remember s params).Ensures fun e => s.Puts e.state :=
  .bind (ensurePerson_puts s _) fun _ put => .pure (put _ rfl)

theorem feel_puts (s : GameState) (params : Params) :
    (feel s params).Ensures fun e => s.Puts e.state :=
  .bind (ensurePerson_puts s _) fun _ put => .pure (put _ rfl)

theorem changeRelation_puts (circle : Circle) (s : GameState) (params : Params) :
    s.Puts (changeRelation circle s params).state := by
  unfold changeRelation
  split
  · exact .refl s
  · next place p there =>
      refine .store there ?_
      split
      · exact Person.foldedName_putAll _ _
      · rfl

/-! ### Companions -/

/-- The record that a new companion starts from is that of somebody met, and nobody of the name is a
companion. -/
theorem of_companionSeed {called : String} {seed : Person}
    (h : companionSeed s called = some seed) :
    ∃ p ∈ s.people .encountered,
      seed = { p with category := "companion" : Person }.giving [.category] ∧
      seed.foldedName ≠ "" ∧ seed.foldedName ∉ (s.people .companions).map Person.foldedName := by
  unfold companionSeed at h
  split at h
  · cases h
  · next stranger =>
      obtain ⟨⟨place, p⟩, there, rfl⟩ := Option.map_eq_some_iff.mp h
      obtain ⟨written, named⟩ := fold_name_of_findNamed? there
      have fresh := not_mem_names_of_hasNamed written (by simpa using stranger)
      rw [← named] at written fresh
      exact ⟨p, mem_of_findNamed? there, rfl, written, fresh⟩

/-- The fields of a command mean the record that a companion starts from: its name as it is looked
up is the record's. -/
def GameState.SeedMeant (s : GameState) (params : Params) : Prop :=
  ∀ seed ∈ companionSeed s (params.required "name"),
    fold (sanitizeName (sanitizeName params.introduced)) = seed.foldedName

instance (s : GameState) (params : Params) : Decidable (s.SeedMeant params) :=
  inferInstanceAs (Decidable (∀ seed ∈ companionSeed s (params.required "name"),
    fold (sanitizeName (sanitizeName params.introduced)) = seed.foldedName))

/-- A new record at the end is found by its name. -/
theorem findNamed?_append {people : List Person} {called : String} {p : Person}
    (named : fold (sanitizeName called) = p.foldedName) (written : p.foldedName ≠ "")
    (fresh : p.foldedName ∉ people.map Person.foldedName) :
    findNamed? (people ++ [p]) called = some (people.length, p) := by
  have others : people.findIdx? (goesBy p.foldedName) = none := by
    refine List.findIdx?_eq_none_iff.mpr fun q member => ?_
    simp only [goesBy, beq_eq_false_iff_ne, ne_eq]
    exact fun same => fresh (List.mem_map.mpr ⟨q, member, same⟩)
  have itself : goesBy p.foldedName p = true := beq_self_eq_true p.foldedName
  have place : findPlace? (people ++ [p]) called = some people.length := by
    rw [findPlace?]
    simp [named, written, List.findIdx?_append, others, itself]
  simp [findNamed?, place]

/-- A circle to which somebody new was added has distinct names. -/
theorem nodup_names_append {people : List Person} {p : Person}
    (distinct : (people.map Person.foldedName).Nodup)
    (fresh : p.foldedName ∉ people.map Person.foldedName) :
    ((people ++ [p]).map Person.foldedName).Nodup := by
  have known : NamesDistinct people := distinct
  exact known.append fresh

theorem sown_eq (people : List Person) (called : String) (seed : Person) :
    sown people called (some seed) = people ∨
      sown people called (some seed) = people ++ [seed] := by
  rw [sown]
  split
  · exact .inl rfl
  · exact .inr rfl

/-- Where the name means the record to start from, that record is replaced; otherwise another one
may be put beside it. -/
theorem upsertPerson_sown {people : List Person} {seed : Person}
    (distinct : (people.map Person.foldedName).Nodup) (written : seed.foldedName ≠ "")
    (fresh : seed.foldedName ∉ people.map Person.foldedName) (called : String)
    (fields : List (PersonField × FieldValue)) :
    (upsertPerson (sown people called (some seed)) called fields).Ensures fun r => ∀ p,
      p.name = r.2.1.name →
        Placed p (sown people called (some seed))
            (r.1.map fun x => if x.name = p.name then p else x) ∧
          (fold (sanitizeName (sanitizeName called)) = seed.foldedName →
            Placed p people (r.1.map fun x => if x.name = p.name then p else x)) := by
  rcases sown_eq people called seed with same | more
  · rw [same]
    exact (upsertPerson_placed distinct called fields).mono fun r put p equal =>
      ⟨put p equal, fun _ => put p equal⟩
  · rw [more]
    have distinct' := nodup_names_append distinct fresh
    by_cases meant : fold (sanitizeName (sanitizeName called)) = seed.foldedName
    · have there := findNamed?_append meant written fresh
      refine (upsertPerson_known distinct' there fields).mono fun r put p equal => ?_
      obtain ⟨named, put⟩ := put p equal
      have at_ : (people ++ [seed])[people.length]? = some seed := by simp
      refine ⟨put ▸ .set at_ named, fun _ => ?_⟩
      rw [put]
      have appended : Placed p people (people ++ [p]) := .append
      simpa using appended
    · exact (upsertPerson_placed distinct' called fields).mono fun r put p equal =>
        ⟨put p equal, fun same => absurd same meant⟩

/-- A new companion is put among the companions, and beside the record to start from where the
fields do not mean that one. -/
theorem joinCompanion_puts (distinct : s.Distinct) (params : Params) :
    (joinCompanion s params).Ensures fun e =>
      ∃ people p, e.state = s.setPeople .companions people ∧
        Placed p (sown (s.people .companions) params.introduced
          (companionSeed s (params.required "name"))) people ∧
        (s.SeedMeant params → Placed p (s.people .companions) people) := by
  have known := distinct .companions
  unfold joinCompanion
  dsimp only
  cases sought : companionSeed s (params.required "name") with
  | none =>
      have placed (asked : Params) := upsertPerson_placed known asked.introduced
        (pickFields personKeys PersonField.kind asked)
      refine .bind (introduceIn_ensures
        (P := fun people => ∃ p, Placed p (s.people .companions) people)
        ((placed _).mono fun r put p same => ⟨p, put p same⟩)) fun r put => .pure ?_
      obtain ⟨people, same, p, put⟩ := put
      exact ⟨people, p, same, put, fun _ => put⟩
  | some seed =>
      obtain ⟨met, _, _, written, fresh⟩ := of_companionSeed sought
      have placed := upsertPerson_sown known written fresh params.introduced
        (pickFields personKeys PersonField.kind params)
      refine .bind (introduceIn_ensures (P := fun people => ∃ p,
        Placed p (sown (s.people .companions) params.introduced (some seed)) people ∧
          (s.SeedMeant params → Placed p (s.people .companions) people))
        (placed.mono fun r put p same => ⟨p, (put p same).1, fun meant =>
          (put p same).2 (meant seed sought)⟩)) fun r put => .pure ?_
      obtain ⟨people, same, p, put, meant⟩ := put
      exact ⟨people, p, same, put, meant⟩

end

/-! ### Whom a command touches -/

namespace Registry

/-- The tags of the commands that are about one person who stays or comes. -/
def contactTags : List String :=
  ["NPC_NEW", "NPC_UPDATE", "MEM_FLAG", "NPC_EMOTION", "COMPANION_NEW", "WIFE_UPDATE",
    "SLAVE_UPDATE", "PRISONER_UPDATE"]

theorem people_of_contactTag {r : CommandRule} (member : r ∈ rules)
    (about : upper r.tag ∈ contactTags) : r ∈ people := by
  have others : ∀ r ∈ knowledge ++ belongings ++ condition ++ events,
      upper r.tag ∉ contactTags := by decide +kernel
  simp only [rules, List.append_assoc] at member others
  exact (List.mem_append.mp member).resolve_right fun other => others r other about

end Registry

theorem Cast.ext_get {a b : Cast} (same : ∀ circle, a.get circle = b.get circle) : a = b := by
  cases a
  cases b
  simp only [Cast.mk.injEq]
  exact ⟨same .encountered, same .companions, same .wives, same .slaves, same .prisoners⟩

namespace GameState

variable {s t : GameState}

/-- Restoring a legal state in which one circle was changed restores that circle. -/
theorem legalize_setPeople (legal : s.Legal) (circle : Circle) (people : List Person) :
    (s.setPeople circle people).legalize =
      s.setPeople circle (legalizePeople people s.settings) := by
  have cast : Cast.ofFn (fun other =>
      legalizePeople ((s.setPeople circle people).people other) s.settings) =
        s.cast.set circle (legalizePeople people s.settings) := by
    refine Cast.ext_get fun other => ?_
    rw [Cast.get_ofFn, Cast.get_set, GameState.people, GameState.setPeople, Cast.get_set]
    split
    · rfl
    · exact legalizePeople_eq_self (legal.distinct other) (legal.people other)
  have inventory : s.inventory.filter (0 < ·.quantity) = s.inventory :=
    inventory_legalize legal.stocked
  have player := StatBlock.legalize_eq_self legal.player
  change ({ s with
    player := s.player.legalize s.settings
    cast := Cast.ofFn fun other =>
      legalizePeople ((s.setPeople circle people).people other) s.settings
    inventory := s.inventory.filter (0 < ·.quantity) } : GameState) = _
  rw [cast, inventory, player]
  rfl

/-- Where every rule changes one circle in a way that shows once the circle is restored, so does a
command. -/
theorem setPeople_of_dispatch {R : List Person → List Person → Prop} (legal : s.Legal)
    {c : Command} {supply rest : Supply} {effect : Effect}
    (run : dispatch .standard s c supply = (.ok effect, rest))
    (handled : ∀ r ∈ Registry.rules, upper c.name = upper r.tag →
      (r.run s c.params).Ensures fun e => ∃ circle people, e.state = s.setPeople circle people ∧
        R (s.people circle) (legalizePeople people s.settings)) :
    ∃ circle people, effect.state = s.setPeople circle people ∧ R (s.people circle) people := by
  refine dispatch_keeps
    (P := fun t => ∃ circle people, t = s.setPeople circle people ∧
      R (s.people circle) (legalizePeople people s.settings))
    (Q := fun t => ∃ circle people, t = s.setPeople circle people ∧ R (s.people circle) people)
    run handled ?_
  rintro _ ⟨circle, people, rfl, shows⟩
  exact ⟨circle, _, legalize_setPeople legal circle people, shows⟩

/-- One record put into a circle is one person touched, once the circle is restored. -/
theorem Puts.touched (legal : s.Legal) (puts : s.Puts t) :
    ∃ circle people, t = s.setPeople circle people ∧
      Touched (s.people circle) (legalizePeople people s.settings) := by
  obtain ⟨circle, people, rfl, same | ⟨p, placed⟩⟩ := puts
  · subst same
    rw [s.setPeople_people]
    refine ⟨circle, s.people circle, (s.setPeople_people circle).symm, ?_⟩
    rw [legalizePeople_eq_self (legal.distinct circle) (legal.people circle)]
    exact .kept
  · exact ⟨circle, people, rfl, placed.touched (legal.distinct circle) (legal.people circle)⟩

/-- The companions after somebody joined: one is touched, or the record to start from is there too.
-/
theorem joinCompanion_touched (legal : s.Legal) (params : Params) :
    (joinCompanion s params).Ensures fun e => ∃ circle people, e.state = s.setPeople circle people ∧
      (∃ more, more.length ≤ 1 ∧
        Touched (s.people circle ++ more) (legalizePeople people s.settings)) ∧
      (s.SeedMeant params → Touched (s.people circle) (legalizePeople people s.settings)) := by
  have distinct := legal.distinct .companions
  have each := legal.people .companions
  refine (joinCompanion_puts legal.distinct params).mono ?_
  rintro e ⟨people, p, same, put, meant⟩
  refine ⟨.companions, people, same, ?_, fun means => (meant means).touched distinct each⟩
  cases sought : companionSeed s (params.required "name") with
  | none =>
      rw [sought] at put
      exact ⟨[], Nat.zero_le 1, by simpa using Placed.touched distinct each put⟩
  | some seed =>
      obtain ⟨met, known, same, _, fresh⟩ := of_companionSeed sought
      rw [sought] at put
      rcases sown_eq (s.people .companions) params.introduced seed with old | more
      · rw [old] at put
        exact ⟨[], Nat.zero_le 1, by simpa using put.touched distinct each⟩
      · rw [more] at put
        have seedLegal : seed.Legal s.settings := by
          have before := legal.people .encountered met known
          rw [same]
          exact ⟨before.affinity, before.stats⟩
        exact ⟨[seed], Nat.le_refl 1, put.touched (nodup_names_append distinct fresh)
          (forall_append each seedLegal)⟩

/-- A command about one person, given a legal state, changes no more than one circle. There one
record is replaced or one is added; a new companion may also be added beside the record to start
from, but not where the fields of the command mean that one. -/
theorem touches_one (legal : s.legalize = s) {c : Command}
    (about : upper c.name ∈ Registry.contactTags) (leads : Event.Leads (.command c) s t) :
    ∃ circle people, t = s.setPeople circle people ∧
      (∃ more, more.length ≤ 1 ∧ Touched (s.people circle ++ more) people) ∧
      ((upper c.name = "COMPANION_NEW" → s.SeedMeant c.params) →
        Touched (s.people circle) people) := by
  have legal : s.Legal := legal ▸ legalize_legal s
  cases leads with
  | @command c _ _ _ _ run =>
  refine setPeople_of_dispatch (R := fun old new =>
    (∃ more, more.length ≤ 1 ∧ Touched (old ++ more) new) ∧
      ((upper c.name = "COMPANION_NEW" → s.SeedMeant c.params) → Touched old new)) legal run ?_
  intro r member tag
  have member := Registry.people_of_contactTag member (tag ▸ about)
  have single {x : Play Effect} (puts : x.Ensures fun e => s.Puts e.state) :
      x.Ensures fun e => ∃ circle people, e.state = s.setPeople circle people ∧
        (∃ more, more.length ≤ 1 ∧
          Touched (s.people circle ++ more) (legalizePeople people s.settings)) ∧
        ((upper c.name = "COMPANION_NEW" → s.SeedMeant c.params) →
          Touched (s.people circle) (legalizePeople people s.settings)) :=
    puts.mono fun e puts => by
      obtain ⟨circle, people, same, touched⟩ := puts.touched legal
      exact ⟨circle, people, same, ⟨[], Nat.zero_le 1, by rwa [List.append_nil]⟩, fun _ => touched⟩
  simp only [Registry.people, List.mem_cons, List.not_mem_nil, or_false] at member
  rcases member with rfl | rfl | rfl | rfl | rfl | rfl | rfl | rfl | rfl
  · exact single (meetPerson_puts legal.distinct c.params)
  · exact single (updatePerson_puts s c.params)
  · exact single (remember_puts s c.params)
  · exact single (feel_puts s c.params)
  · have joins : upper c.name = "COMPANION_NEW" := tag.trans (by decide +kernel)
    refine (joinCompanion_touched legal c.params).mono ?_
    rintro e ⟨circle, people, same, more, meant⟩
    exact ⟨circle, people, same, more, fun means => meant (means joins)⟩
  · rw [tag] at about
    exact absurd about (by decide +kernel)
  · exact single (Registry.certain_ensures (changeRelation_puts .wives s c.params))
  · exact single (Registry.certain_ensures (changeRelation_puts .slaves s c.params))
  · exact single (Registry.certain_ensures (changeRelation_puts .prisoners s c.params))

/-- Somebody met before joins the player, under a new title. -/
theorem touches_one_joined :
    let met : Person := { id := "id-1", name := "Bob", given := [.name] }
    let joined : Person := { met with
      category := "companion", title := some "Sage", given := [.name, .category, .title] }
    let s : GameState := { settings := { enableStats := false }, cast := { encountered := [met] } }
    let t : GameState := s.setPeople .companions [joined]
    let c : Command := ⟨"companion_new", [("name", some "bob - the sage"), ("title", some "Sage")]⟩
    s.legalize = s ∧ upper c.name ∈ Registry.contactTags ∧ Event.Leads (.command c) s t ∧
      s.SeedMeant c.params ∧ ∃ circle people, t = s.setPeople circle people ∧
        Touched (s.people circle) people := by
  intro met joined s t c
  have legal : s.legalize = s := by decide +kernel
  have about : upper c.name ∈ Registry.contactTags := by decide +kernel
  have leads : Event.Leads (.command c) s t := Event.leads_of_state {} (by decide +kernel)
  have meant : s.SeedMeant c.params := by decide +kernel
  obtain ⟨circle, people, same, _, touched⟩ := touches_one legal about leads
  exact ⟨legal, about, leads, meant, circle, people, same, touched fun _ => meant⟩

theorem length_le_of_touched {circle : Circle} {people : List Person}
    (touched : Touched (s.people circle) people) (other : Circle) :
    ((s.setPeople circle people).people other).length ≤ (s.people other).length + 1 := by
  rw [GameState.people, GameState.setPeople, Cast.get_set]
  split
  · next same => exact same ▸ touched.length_le
  · exact Nat.le_succ _

/-- Under another name in the fields, a companion is added beside the record to start from. -/
theorem companion_beside_seed :
    let met : Person := { id := "id-1", name := "Bob", given := [.name] }
    let s : GameState := {
      player := { tier := "Qi Refining Layer 1" }, playerName := "Lin", location := "Hall"
      settings := { enableStats := false }, cast := { encountered := [met] } }
    let c : Command := ⟨"COMPANION_NEW", [("name", some "Bob"), ("Name", some "Alice")]⟩
    s.legalize = s ∧ upper c.name ∈ Registry.contactTags ∧
      ∃ t, Event.Leads (.command c) s t ∧
        ¬ ∃ circle people, t = s.setPeople circle people ∧ Touched (s.people circle) people := by
  intro met s c
  have legal : s.legalize = s := by decide +kernel
  have about : upper c.name ∈ Registry.contactTags := by decide +kernel
  let seed : Person := { met with category := "companion", given := [.name, .category] }
  let added : Person := { id := "id-1", name := "Alice", given := [.name] }
  have leads : Event.Leads (.command c) s (s.setPeople .companions [seed, added]) :=
    Event.leads_of_state {} (by decide +kernel)
  refine ⟨legal, about, _, leads, ?_⟩
  rintro ⟨circle, people, same, touched⟩
  have few := length_le_of_touched touched .companions
  rw [← same] at few
  exact absurd few (by decide)

end GameState

end Ascent
