import Ascent.Proofs.Aside
import Ascent.Proofs.Kindred
import Ascent.Proofs.Sync

/-!
Commands about people in a game and beside it in its twin.

Twin games differ in which fields of people count as set and in whether a lasting bonus is an
integer or the number that it is. A command about people does the same in both: it changes somebody
and the twin in the same place, or it makes somebody who is the same in both. So once the circles
have been merged the games are twins again.

Main exports: `GameState.Twin`, `GameState.Kin`, `Effect.Kin`, `people_kin`.
-/

namespace Ascent

open Text

/-! ### Twin games -/

/-- The same game but for a player and people who are twins. -/
def GameState.Twin (s t : GameState) : Prop := ∃ player cast, t = s.amid player cast ∧
  s.player.Twin player ∧ ∀ circle, List.Forall₂ Person.Twin (s.people circle) (cast.get circle)

/-- The same game but for a player who is a twin and circles that are twins once merged. -/
def GameState.Kin (s t : GameState) : Prop := ∃ player cast, t = s.amid player cast ∧
  s.player.Twin player ∧ ∀ circle, Kindred (s.people circle) (cast.get circle)

/-- In each circle all names are distinct. -/
def GameState.Distinct (s : GameState) : Prop :=
  ∀ circle, ((s.people circle).map Person.foldedName).Nodup

/-- The same effect but for the player and the people of the state. -/
structure Effect.Kin (e f : Effect) : Prop where
  state : e.state.Kin f.state
  updates : f.updates = e.updates
  messages : f.messages = e.messages

namespace GameState

variable {s t : GameState}

theorem Twin.people (h : s.Twin t) (circle : Circle) :
    List.Forall₂ Person.Twin (s.people circle) (t.people circle) := by
  obtain ⟨_, _, rfl, _, twins⟩ := h
  exact twins circle

theorem Twin.kin (h : s.Twin t) (distinct : s.Distinct) : s.Kin t := by
  obtain ⟨player, cast, rfl, twin, twins⟩ := h
  exact ⟨player, cast, rfl, twin, fun circle => .of_twin (twins circle) (distinct circle)⟩

theorem Kin.setPeople (h : s.Kin t) (circle : Circle) {people others : List Person}
    (kindred : Kindred people others) :
    (s.setPeople circle people).Kin (t.setPeople circle others) := by
  obtain ⟨player, cast, rfl, twin, kin⟩ := h
  refine ⟨player, cast.set circle others, rfl, twin, fun other => ?_⟩
  rw [GameState.people, GameState.setPeople, Cast.get_set, Cast.get_set]
  split
  · exact kindred
  · exact kin other

/-- Games that are kin are twins once they are restored. -/
theorem Kin.legalize (h : s.Kin t) : s.legalize.Twin t.legalize := by
  obtain ⟨player, cast, rfl, twin, kin⟩ := h
  refine ⟨_, _, rfl, twin.legalize s.settings, fun circle => ?_⟩
  rw [people_legalize, Cast.get_ofFn]
  exact (kin circle).legalize s.settings

/-- A name means a person and the twin in the same place, or nobody in either game. -/
theorem Twin.locateIn? (h : s.Twin t) (circles : List Circle) (called : String) :
    s.locateIn? circles called = none ∧ t.locateIn? circles called = none ∨
      ∃ circle place p q, s.locateIn? circles called = some ⟨circle, place, p⟩ ∧
        t.locateIn? circles called = some ⟨circle, place, q⟩ ∧ p.Twin q ∧
        (s.people circle)[place]? = some p := by
  induction circles with
  | nil => exact .inl ⟨rfl, rfl⟩
  | cons circle rest ih =>
      simp only [GameState.locateIn?, List.findSome?_cons] at ih ⊢
      rcases findNamed?_twin (h.people circle) called with ⟨none, none'⟩ |
        ⟨place, p, q, there, there', twin⟩
      · rw [none, none']
        exact ih
      · rw [there, there']
        exact .inr ⟨circle, place, p, q, rfl, rfl, twin, getElem?_of_findNamed? there⟩

end GameState

/-! ### Circles in which somebody changes -/

section

variable {people others : List Person} {p p' q' : Person} {place : Nat}

theorem names_set (there : people[place]? = some p) (same : p'.foldedName = p.foldedName) :
    (people.set place p').map Person.foldedName = people.map Person.foldedName := by
  induction people generalizing place with
  | nil => rfl
  | cons first rest ih =>
      cases place with
      | zero =>
          obtain rfl : first = p := Option.some.inj there
          simp [same]
      | succ place => simpa using ih there

theorem Kindred.set (h : List.Forall₂ Person.Twin people others)
    (distinct : (people.map Person.foldedName).Nodup) (there : people[place]? = some p)
    (same : p'.foldedName = p.foldedName) (twin : p'.Twin q') :
    Kindred (people.set place p') (others.set place q') :=
  .of_twin (set_twin h twin place) (by rwa [names_set there same])

theorem Kindred.eraseIdx (h : List.Forall₂ Person.Twin people others)
    (distinct : (people.map Person.foldedName).Nodup) (place : Nat) :
    Kindred (people.eraseIdx place) (others.eraseIdx place) :=
  .of_twin (eraseIdx_twin h place)
    (distinct.sublist ((List.eraseIdx_sublist people place).map Person.foldedName))

end

theorem Person.foldedName_putAll (p : Person) (fields : List (PersonField × FieldValue)) :
    (p.putAll fields).foldedName = p.foldedName := by
  refine putAll_keeps (P := fun q => q.foldedName = p.foldedName) rfl ?_ fun _ _ same => same
  intro q x _ same
  have put : (q.put x.1 x.2).foldedName = q.foldedName := by cases x.1 <;> rfl
  exact put.trans same

/-! ### Introductions -/

theorem generateStats_twin {player player' : StatBlock} (h : player.Twin player') (tier : String)
    (settings : Settings) (archetype : Archetype) :
    generateStats player' tier settings archetype =
      generateStats player tier settings archetype := by
  obtain ⟨_, rfl, _⟩ := h
  rfl

section

variable {s t : GameState}

/-- Stats generated beside twin players are the same. -/
theorem refreshStats_twin (h : s.Twin t) {p q : Person} (twin : p.Twin q) :
    Play.Agree (fun a b => a.Twin b ∧ a.name = p.name ∧ (q = p → b = a)) (p.refreshStats s)
      (q.refreshStats t) := by
  obtain ⟨player, cast, rfl, same, _⟩ := h
  obtain ⟨given, rfl⟩ := twin
  have tier : Person.assumedTier { p with given := given } (s.amid player cast) =
      p.assumedTier s := by
    obtain ⟨_, rfl, _⟩ := same
    rfl
  have settings : (s.amid player cast).settings = s.settings := rfl
  have beside : (s.amid player cast).player = player := rfl
  unfold Person.refreshStats
  rw [tier, settings, beside]
  split
  · exact .pure ⟨⟨given, rfl⟩, rfl, id⟩
  · dsimp only
    rw [generateStats_twin same]
    refine .bind_same fun stats => .pure ⟨⟨_, rfl⟩, rfl, fun equal => ?_⟩
    have givens : given = p.given := congrArg Person.given equal
    rw [givens]

theorem ensurePerson_kin (h : s.Twin t) (distinct : s.Distinct) (called : String) :
    Play.Agree (fun r r' => r.2.person.Twin r'.2.person ∧ ∀ p q,
      p.foldedName = r.2.person.foldedName → p.Twin q → (r'.2.person = r.2.person → q = p) →
      (r.1.store r.2 p).Kin (r'.1.store r'.2 q))
      (s.ensurePerson called) (t.ensurePerson called) := by
  unfold GameState.ensurePerson GameState.locate?
  rcases h.locateIn? Circle.all called with ⟨none, none'⟩ |
    ⟨circle, place, p, q, there, there', twin, at_⟩
  · rw [none, none']
    dsimp only
    refine .bind_same fun made => .bind (refreshStats_twin h (.refl made)) ?_
    rintro a b ⟨twin, _, equal⟩
    obtain rfl := equal rfl
    refine .pure ⟨twin, fun p q _ _ alike => ?_⟩
    obtain rfl := alike rfl
    have met := h.people .encountered
    have known := distinct .encountered
    have last (people : List Person) : (people ++ [b]).set people.length q = people ++ [q] := by
      simp
    have changed : Kindred ((s.cast.encountered ++ [b]).set s.cast.encountered.length q)
        ((t.cast.encountered ++ [b]).set t.cast.encountered.length q) := by
      rw [last, last]
      exact .append met known q
    exact ((h.kin distinct).setPeople .encountered (.append met known b)).setPeople .encountered
      changed
  · rw [there, there']
    refine .pure ⟨twin, fun p' q' same twin' _ => ?_⟩
    exact (h.kin distinct).setPeople circle
      (.set (h.people circle) (distinct circle) at_ same twin')

/-! ### Introductions into a circle -/

/-- A list with everybody of a name replaced. -/
theorem replace_twin {people others : List Person} {p q : Person}
    (h : List.Forall₂ Person.Twin people others) (twin : p.Twin q) :
    List.Forall₂ Person.Twin (people.map fun x => if x.name = p.name then p else x)
      (others.map fun x => if x.name = q.name then q else x) := by
  obtain ⟨given, rfl⟩ := twin
  refine List.rel_map ?_ h
  rintro x _ ⟨other, rfl⟩
  dsimp only
  split
  · exact ⟨given, rfl⟩
  · exact ⟨other, rfl⟩

theorem names_replace (people : List Person) (p : Person) :
    (people.map fun x => if x.name = p.name then p else x).map Person.foldedName =
      people.map Person.foldedName := by
  rw [List.map_map]
  refine List.map_congr_left fun x _ => ?_
  dsimp only [Function.comp]
  split
  · next same => rw [Person.foldedName, Person.foldedName, same]
  · rfl

theorem upsertPerson_kindred {people others : List Person}
    (h : List.Forall₂ Person.Twin people others) (distinct : (people.map Person.foldedName).Nodup)
    (called : String) (fields : List (PersonField × FieldValue)) :
    Play.Agree (fun r r' => r'.2.2 = r.2.2 ∧ r.2.1.Twin r'.2.1 ∧
        (r.2.2 = true → r'.2.1 = r.2.1) ∧
        ∀ p q, p.name = r.2.1.name → p.Twin q → (r'.2.1 = r.2.1 → q = p) →
          Kindred (r.1.map fun x => if x.name = p.name then p else x)
            (r'.1.map fun x => if x.name = q.name then q else x))
      (upsertPerson people called fields) (upsertPerson others called fields) := by
  unfold upsertPerson
  rcases findNamed?_twin h (sanitizeName called) with ⟨none, none'⟩ |
    ⟨place, p, q, there, there', twin⟩
  · rw [none, none']
    refine .bind_same fun made => .pure ⟨rfl, .refl made, fun _ => rfl, ?_⟩
    intro p q name twin alike
    obtain rfl := alike rfl
    have same : made.name = q.name := name.symm
    simp only [List.map_append, List.map_singleton, same, if_true]
    exact .append (replace_twin h (.refl q)) (by rwa [names_replace]) q
  · rw [there, there']
    have merged := twin.putAll fields
    refine .pure ⟨rfl, merged, (fun new => by cases new), ?_⟩
    intro p' q' _ twin' _
    refine .of_twin (replace_twin (set_twin h merged place) twin') ?_
    have there := getElem?_of_findNamed? there
    rwa [names_replace, names_set there (p.foldedName_putAll fields)]

/-- Records to start from in both games: none, or twins of a name that is new to the circle. -/
def SownAlike (people : List Person) (seed seed' : Option Person) : Prop :=
  seed = none ∧ seed' = none ∨ ∃ p q, seed = some p ∧ seed' = some q ∧ p.Twin q ∧
    p.foldedName ∉ people.map Person.foldedName

/-- The circle with the record to start from, if it has nobody of the name. -/
theorem seeded_twin {people others : List Person} (h : List.Forall₂ Person.Twin people others)
    (distinct : (people.map Person.foldedName).Nodup) (called : String)
    {seed seed' : Option Person} (sown : SownAlike people seed seed') :
    let sow := fun (people : List Person) (seed : Option Person) => match seed with
      | some seed => if hasNamed people called then people else people ++ [seed]
      | none => people
    List.Forall₂ Person.Twin (sow people seed) (sow others seed') ∧
      ((sow people seed).map Person.foldedName).Nodup := by
  rcases sown with ⟨rfl, rfl⟩ | ⟨p, q, rfl, rfl, twin, fresh⟩
  · exact ⟨h, distinct⟩
  · dsimp only
    rw [hasNamed_twin h]
    split
    · exact ⟨h, distinct⟩
    · refine ⟨append_twin h twin, ?_⟩
      rw [List.map_append, List.nodup_append]
      refine ⟨distinct, by simp, ?_⟩
      rintro a known b new rfl
      rw [List.map_singleton, List.mem_singleton] at new
      exact fresh (new ▸ known)

theorem introduceIn_kin (h : s.Twin t) (distinct : s.Distinct) (params : Params) (circle : Circle)
    {seed seed' : Option Person} (sown : SownAlike (s.people circle) seed seed') :
    Play.Agree (fun r r' => r.1.Kin r'.1 ∧ r.2.Twin r'.2) (introduceIn s params circle seed)
      (introduceIn t params circle seed') := by
  unfold introduceIn
  dsimp only
  generalize pickFields personKeys PersonField.kind params = fields
  generalize (if ((fieldValue? fields .name).map (·.asText)).getD "" = "" then
    sanitizeName ((params.value? "name").getD "")
    else ((fieldValue? fields .name).map (·.asText)).getD "") = called
  obtain ⟨twins, names⟩ := seeded_twin (h.people circle) (distinct circle) called sown
  refine .bind (upsertPerson_kindred twins names called fields) ?_
  rintro ⟨people, met, new⟩ ⟨others, met', new'⟩ ⟨same, twin, made, kindred⟩
  obtain rfl : new = new' := same.symm
  dsimp only at twin made kindred ⊢
  generalize hliked : (if params.has "affinity" then
    met.moveAffinityTo (if new then 0 else met.affinity) (params.value? "affinity")
    else met) = liked
  generalize hliked' : (if params.has "affinity" then
    met'.moveAffinityTo (if new then 0 else met'.affinity) (params.value? "affinity")
    else met') = liked'
  have affinity : met'.affinity = met.affinity := by
    obtain ⟨_, rfl⟩ := twin
    rfl
  have likedTwin : liked.Twin liked' := by
    rw [← hliked, ← hliked', affinity]
    split
    · exact twin.moveAffinityTo _ _
    · exact twin
  have name : liked.name = met.name := by
    rw [← hliked]
    split <;> rfl
  refine .bind (refreshStats_twin h likedTwin) ?_
  rintro p q ⟨twin, same, alike⟩
  refine .pure ⟨(h.kin distinct).setPeople circle (kindred p q (same.trans name) twin ?_), twin⟩
  intro equal
  refine alike ?_
  rw [← hliked, ← hliked', equal]

/-! ### Commands about people -/

theorem meetPerson_kin (h : s.Twin t) (distinct : s.Distinct) (params : Params) :
    Play.Agree Effect.Kin (meetPerson s params) (meetPerson t params) := by
  refine .bind (introduceIn_kin h distinct params .encountered (.inl ⟨rfl, rfl⟩)) ?_
  rintro ⟨s, p⟩ ⟨t, q⟩ ⟨kin, twin⟩
  exact .pure ⟨kin, by rw [twin.indexUpdate], rfl⟩

theorem updatePerson_kin (h : s.Twin t) (distinct : s.Distinct) (params : Params) :
    Play.Agree Effect.Kin (updatePerson s params) (updatePerson t params) := by
  refine .bind (ensurePerson_kin h distinct _) ?_
  rintro ⟨s, found⟩ ⟨t, found'⟩ ⟨twin, stored⟩
  dsimp only at twin stored ⊢
  generalize pickFields personUpdateKeys PersonField.kind params = fields
  have affinity :
      (found'.person.putAll fields).affinity = (found.person.putAll fields).affinity := by
    obtain ⟨_, same⟩ := twin.putAll fields
    rw [same]
  have moved : Person.Twin
      (if params.has "affinity" then (found.person.putAll fields).moveAffinityTo
        (found.person.putAll fields).affinity (params.value? "affinity")
      else found.person.putAll fields)
      (if params.has "affinity" then (found'.person.putAll fields).moveAffinityTo
        (found'.person.putAll fields).affinity (params.value? "affinity")
      else found'.person.putAll fields) := by
    rw [affinity]
    split
    · exact (twin.putAll fields).moveAffinityTo _ _
    · exact twin.putAll fields
  refine .pure ⟨stored _ _ ?_ moved fun same => by rw [same], by rw [moved.indexUpdate], rfl⟩
  split
  · exact found.person.foldedName_putAll fields
  · exact found.person.foldedName_putAll fields

theorem remember_kin (h : s.Twin t) (distinct : s.Distinct) (params : Params) :
    Play.Agree Effect.Kin (remember s params) (remember t params) := by
  refine .bind (ensurePerson_kin h distinct _) ?_
  rintro ⟨s, found⟩ ⟨t, found'⟩ ⟨twin, stored⟩
  refine .pure ⟨stored _ _ rfl ?_ fun same => by rw [same], rfl, rfl⟩
  obtain ⟨_, same⟩ := twin
  dsimp only at same ⊢
  rw [same]
  exact ⟨_, rfl⟩

theorem feel_kin (h : s.Twin t) (distinct : s.Distinct) (params : Params) :
    Play.Agree Effect.Kin (feel s params) (feel t params) := by
  refine .bind (ensurePerson_kin h distinct _) ?_
  rintro ⟨s, found⟩ ⟨t, found'⟩ ⟨twin, stored⟩
  refine .pure ⟨stored _ _ rfl ?_ fun same => by rw [same], rfl, rfl⟩
  obtain ⟨_, same⟩ := twin
  dsimp only at same ⊢
  rw [same]
  exact ⟨_, rfl⟩

theorem companionSeed_twin (h : s.Twin t) (called : String) :
    SownAlike (s.people .companions) (companionSeed s called) (companionSeed t called) := by
  have companions := h.people .companions
  unfold companionSeed
  have known : hasNamed t.cast.companions called = hasNamed s.cast.companions called :=
    hasNamed_twin companions called
  rw [known]
  split
  · exact .inl ⟨rfl, rfl⟩
  · next stranger =>
      rcases findNamed?_twin (h.people .encountered) called with ⟨none, none'⟩ |
        ⟨place, p, q, there, there', given, same⟩
      · exact .inl ⟨congrArg _ none, congrArg _ none'⟩
      · refine .inr ⟨_, _, congrArg _ there, congrArg _ there', ?_, ?_⟩
        · rw [same]
          exact ⟨_, rfl⟩
        · obtain ⟨written, named⟩ := fold_name_of_findNamed? there
          have fresh := not_mem_names_of_hasNamed written (by simpa using stranger)
          rw [← named] at fresh
          exact fresh

theorem joinCompanion_kin (h : s.Twin t) (distinct : s.Distinct) (params : Params) :
    Play.Agree Effect.Kin (joinCompanion s params) (joinCompanion t params) := by
  have sown := companionSeed_twin h (params.required "name")
  have same : (companionSeed t (params.required "name")).isNone =
      (companionSeed s (params.required "name")).isNone := by
    rcases sown with ⟨none, none'⟩ | ⟨_, _, some, some', _⟩
    · rw [none, none']
    · rw [some, some']
      rfl
  unfold joinCompanion
  dsimp only
  rw [same]
  refine .bind (introduceIn_kin h distinct _ .companions sown) ?_
  rintro ⟨s, p⟩ ⟨t, q⟩ ⟨kin, twin⟩
  obtain ⟨_, rfl⟩ := twin
  exact .pure ⟨kin, rfl, rfl⟩

theorem leaveCompanion_kin (h : s.Twin t) (distinct : s.Distinct) (params : Params) :
    (leaveCompanion s params).Kin (leaveCompanion t params) := by
  unfold leaveCompanion
  rcases findNamed?_twin (h.people .companions) (params.required "name") with ⟨none, none'⟩ |
    ⟨place, p, q, there, there', given, same⟩
  · have none : findNamed? s.cast.companions (params.required "name") = .none := none
    have none' : findNamed? t.cast.companions (params.required "name") = .none := none'
    rw [none, none']
    exact ⟨h.kin distinct, rfl, rfl⟩
  · have there : findNamed? s.cast.companions (params.required "name") = some (place, p) := there
    have there' : findNamed? t.cast.companions (params.required "name") = some (place, q) := there'
    rw [there, there', same]
    have kindred := Kindred.eraseIdx (h.people .companions) (distinct .companions) place
    exact ⟨(h.kin distinct).setPeople .companions kindred, rfl, rfl⟩

theorem changeRelation_kin (h : s.Twin t) (distinct : s.Distinct) (circle : Circle)
    (params : Params) : (changeRelation circle s params).Kin (changeRelation circle t params) := by
  unfold changeRelation
  rcases findNamed?_twin (h.people circle) (params.required "name") with ⟨none, none'⟩ |
    ⟨place, p, q, there, there', twin⟩
  · rw [none, none']
    exact ⟨h.kin distinct, rfl, rfl⟩
  · rw [there, there']
    dsimp only
    generalize pickFields captiveKeys PersonField.kind params = fields
    have at_ := getElem?_of_findNamed? there
    obtain ⟨given, rfl⟩ := twin
    have moved : (p.moveAffinityTo p.affinity (params.value? "affinity")).Twin
        (Person.moveAffinityTo { p with given := given } p.affinity (params.value? "affinity")) :=
      ⟨_, rfl⟩
    refine ⟨(h.kin distinct).setPeople circle
      (.set (h.people circle) (distinct circle) at_ ?_ ?_), rfl, rfl⟩
    · split
      · exact Person.foldedName_putAll _ fields
      · rfl
    · split
      · exact moved.putAll fields
      · exact moved

end

namespace Registry

theorem certain_kin {f : GameState → Params → Effect} {s t : GameState} {params : Params}
    (h : (f s params).Kin (f t params)) :
    Play.Agree Effect.Kin (certain f s params) (certain f t params) := .pure h

/-- Commands about people do the same in a game and in its twin. -/
theorem people_kin {r : CommandRule} (member : r ∈ people) {s t : GameState} (h : s.Twin t)
    (distinct : s.Distinct) (params : Params) :
    Play.Agree Effect.Kin (r.run s params) (r.run t params) := by
  simp only [people, List.mem_cons, List.not_mem_nil, or_false] at member
  rcases member with rfl | rfl | rfl | rfl | rfl | rfl | rfl | rfl | rfl
  · exact meetPerson_kin h distinct params
  · exact updatePerson_kin h distinct params
  · exact remember_kin h distinct params
  · exact feel_kin h distinct params
  · exact joinCompanion_kin h distinct params
  · exact certain_kin (leaveCompanion_kin h distinct params)
  · exact certain_kin (changeRelation_kin h distinct .wives params)
  · exact certain_kin (changeRelation_kin h distinct .slaves params)
  · exact certain_kin (changeRelation_kin h distinct .prisoners params)

end Registry
end Ascent
