import Ascent.Proofs.Regard
import Ascent.Proofs.Telling

/-!
People who are told of again.

Somebody who is in a circle already and is introduced there once more, or is changed, keeps name and
identifier, and of the other fields those that nothing is told of; stats and tier are drawn up anew
where stats are kept. Restoring a state leaves it at that. The category of a companion is the
exception: the default that is meant for those who join is put in front of what a command tells of
somebody who is there.

Main exports: `Params.tellsPerson`, `introduceIn_retold`, `GameState.Lasts`, `meetPerson_retold`,
`updatePerson_retold`, `GameState.defaulted`, `joinCompanion_retold`.
-/

namespace Ascent

open Text

/-! ### Where people are found -/

/-- A record that is found among some is found in the same place where others follow. -/
theorem findNamed?_append_of_found {α : Type} [Named α] {records : List α} {called : String}
    {place : Nat} {r : α} (found : findNamed? records called = some (place, r)) (more : List α) :
    findNamed? (records ++ more) called = some (place, r) := by
  have there := getElem?_of_findNamed? found
  have bound := (List.getElem?_eq_some_iff.mp there).1
  simp only [findNamed?, Option.bind_eq_bind, Option.bind_eq_some_iff, Option.some.injEq,
    Prod.mk.injEq] at found ⊢
  obtain ⟨i, here, q, -, rfl, -⟩ := found
  have first : findPlace? (records ++ more) called = some i := by
    simp only [findPlace?] at here ⊢
    split at here
    · cases here
    · next written => rw [if_neg written, List.findIdx?_append, here, Option.some_or]
  exact ⟨i, first, r, (List.getElem?_append_left bound).trans there, rfl, rfl⟩

/-- Whoever is in a circle is found there, whatever record is there to start from. -/
theorem findNamed?_sown {people : List Person} {called : String} {place : Nat} {known : Person}
    (found : findNamed? people called = some (place, known)) (other : String)
    (seed : Option Person) : findNamed? (sown people other seed) called = some (place, known) := by
  cases seed with
  | none => exact found
  | some seed =>
      rcases sown_eq people other seed with same | more
      · rw [same]
        exact found
      · rw [more]
        exact findNamed?_append_of_found found [seed]

/-! ### People -/

/-- What a command tells of a person: its fields, and a change of affinity. -/
def Params.tellsPerson (params : Params) (keys : List (String × PersonField)) (known : Person)
    (f : PersonField) : Option Content :=
  if f = .affinity then
    if params.has "affinity" then
      some (.number (moveAffinity known.affinity
        ((params.value? "affinity").bind AffinityChange.ofText?)))
    else none
  else params.tells keys PersonField.kind f

/-- The fields that an introduction draws up anew. -/
def GameState.redrawn (s : GameState) : List PersonField :=
  if s.settings.enableStats then [.stats, .tier] else []

section

variable {s : GameState} {params : Params} {p q known : Person} {f : PersonField}
  {keys : List (String × PersonField)} {place : Nat}

theorem content_giving (p : Person) (fields : List PersonField) :
    content f (p.giving fields) = content f p := by cases f <;> rfl

theorem content_moveAffinityTo (other : f ≠ .affinity) (start : Int) (asked : Option String) :
    content f (p.moveAffinityTo start asked) = content f p := by
  cases f <;> first | rfl | exact absurd rfl other

theorem refreshStats_content (p : Person) (s : GameState) :
    (p.refreshStats s).Ensures fun q => ∀ f, f ∉ s.redrawn → content f q = content f p := by
  unfold Person.refreshStats GameState.redrawn
  cases s.settings.enableStats with
  | false => exact .pure fun _ _ => rfl
  | true =>
      refine .of_bind fun stats => .pure fun f kept => ?_
      rw [content_giving]
      cases f <;> first | rfl | exact absurd (by decide) kept

theorem retold_putAll (keyed : ∀ e ∈ keys, e ∈ personKeys) (params : Params) (p : Person) :
    Retold (params.tells keys PersonField.kind) [] p
      (p.putAll (pickFields keys PersonField.kind params)) := by
  have fields : ∀ f ∈ keys.map Prod.snd, f ∈ Recorded.settable Person ∨
      f ∈ Recorded.identity Person := by
    intro f member
    have all : ∀ f ∈ personKeys.map Prod.snd, f ∈ Recorded.settable Person ∨
        f ∈ Recorded.identity Person := by decide
    obtain ⟨e, there, rfl⟩ := List.mem_map.mp member
    exact all e.2 (List.mem_map_of_mem (keyed e there))
  have retold := retold_pickFields (α := Person) fields params p
  generalize pickFields keys (Recorded.kind Person) params = fields at retold
  -- leaving out the name makes no difference, for setting it does nothing
  have unnamed : (fields.filter (·.1 ≠ .name)).foldl (fun p e => p.put e.1 e.2) p =
      fields.foldl (fun p e => Recorded.put e.1 e.2 p) p := by
    rw [List.foldl_filter]
    congr 1
    funext p e
    obtain ⟨f, v⟩ := e
    by_cases name : f = .name
    · subst name
      rfl
    · simp [name, Recorded.put]
  refine retold.of_content (by simp) (fun f _ => ?_) (by simp)
  rw [Person.putAll, content_giving]
  exact congrArg (content f) unnamed

/-- Nothing is told of a field for which no person has a key. -/
theorem untold_of_keyed (keyed : ∀ e ∈ keys, e ∈ personKeys)
    (keyless : ∀ e ∈ personKeys, e.2 ≠ f) : params.tells keys PersonField.kind f = none := by
  have absent : f ∉ keys.map Prod.snd := by
    intro member
    obtain ⟨e, there, same⟩ := List.mem_map.mp member
    exact keyless e (keyed e there) same
  rw [Params.tells, told_eq_none absent]
  rfl

/-- A person whose fields are set, and whose affinity is moved where that is asked for, is told
anew. -/
theorem retold_liked (keyed : ∀ e ∈ keys, e ∈ personKeys) (params : Params) (p : Person) :
    Retold (params.tellsPerson keys p) [] p
      (if params.has "affinity" then
        (p.putAll (pickFields keys PersonField.kind params)).moveAffinityTo
          (p.putAll (pickFields keys PersonField.kind params)).affinity (params.value? "affinity")
      else p.putAll (pickFields keys PersonField.kind params)) := by
  have told := retold_putAll keyed params p
  have start : (p.putAll (pickFields keys PersonField.kind params)).affinity = p.affinity :=
    congrArg (·.2.2) (p.regard_putAll _)
  generalize p.putAll (pickFields keys PersonField.kind params) = met at told start
  have untold : params.tells keys PersonField.kind .affinity = none :=
    untold_of_keyed keyed (by decide)
  split
  · next asked =>
      refine ⟨fun f own => ?_, fun f other kept => ?_⟩
      · have unmoved : f ≠ .affinity := by
          rintro rfl
          exact absurd own (by decide)
        rw [content_moveAffinityTo unmoved]
        exact told.identity f own
      · by_cases moved : f = .affinity
        · subst moved
          rw [Params.tellsPerson, if_pos rfl, if_pos asked, start]
          rfl
        · rw [content_moveAffinityTo moved, Params.tellsPerson, if_neg moved]
          exact told.field f other kept
  · next unasked =>
      refine told.congr fun f kept => ⟨kept, ?_⟩
      by_cases moved : f = .affinity
      · rw [moved, untold, Params.tellsPerson, if_pos rfl, if_neg unasked]
      · rw [Params.tellsPerson, if_neg moved]

/-- A record set in its place and written back by name is in its place. -/
theorem getElem?_writtenBack {people : List Person} (there : people[place]? = some known)
    (same : q.name = p.name) :
    ((people.set place q).map fun x => if x.name = p.name then p else x)[place]? = some p := by
  have bound := (List.getElem?_eq_some_iff.mp there).1
  have here : (people.set place q)[place]? = some q := by simp [bound]
  rw [List.getElem?_map, here, Option.map_some, if_pos same]

/-- Where names are distinct it is nowhere else. -/
theorem writtenBack_eq {people : List Person} (distinct : (people.map Person.foldedName).Nodup)
    (there : people[place]? = some known) (named : q.foldedName = known.foldedName)
    (same : p.name = q.name) :
    ((people.set place q).map fun x => if x.name = p.name then p else x) =
      people.set place p := by
  have bound := (List.getElem?_eq_some_iff.mp there).1
  have here : (people.set place q)[place]? = some q := by simp [bound]
  rw [replace_of_there (by rwa [names_set there named]) here same, List.set_set]

theorem name_of_retold {told : PersonField → Option Content} {aside : List PersonField}
    (h : Retold told aside p q) : q.name = p.name := by
  have same : Content.value (.text q.name) = .value (.text p.name) :=
    h.identity .name (by decide)
  simpa using same

/-- Who is in a circle already and is introduced there again, is told anew in the same place. Nobody
else is touched, where names are distinct. -/
theorem introduceIn_retold {circle : Circle} {seed : Option Person}
    (found : findNamed? (s.people circle) (sanitizeName params.introduced) = some (place, known)) :
    (introduceIn s params circle seed).Ensures fun r => ∃ people p,
      r.1 = s.setPeople circle people ∧ people[place]? = some p ∧
      Retold (params.tellsPerson personKeys known) s.redrawn known p ∧
      (((sown (s.people circle) params.introduced seed).map Person.foldedName).Nodup →
        people = (sown (s.people circle) params.introduced seed).set place p) := by
  have found' : findNamed? (sown (s.people circle) params.introduced seed)
      (sanitizeName params.introduced) = some (place, known) := findNamed?_sown found _ seed
  have at_ := getElem?_of_findNamed? found'
  have bound := (List.getElem?_eq_some_iff.mp at_).1
  have again : (upsertPerson (sown (s.people circle) params.introduced seed) params.introduced
      (pickFields personKeys PersonField.kind params)).Ensures fun r =>
        r = ((sown (s.people circle) params.introduced seed).set place
          (known.putAll (pickFields personKeys PersonField.kind params)),
          known.putAll (pickFields personKeys PersonField.kind params), false) := by
    unfold upsertPerson
    rw [found']
    dsimp only
    exact .pure rfl
  unfold introduceIn
  unfold sown Params.introduced at again
  dsimp only at again ⊢
  refine .bind again ?_
  rintro _ rfl
  refine .bind (refreshStats_content _ s) fun p drawn => .pure ?_
  have told : Retold (params.tellsPerson personKeys known) s.redrawn known p := by
    refine (retold_liked (fun e there => there) params known).of_content ?_ drawn (by simp)
    unfold GameState.redrawn
    cases s.settings.enableStats <;> decide
  have same : p.name = (known.putAll (pickFields personKeys PersonField.kind params)).name := by
    rw [name_of_retold told]
    exact (congrArg (·.2.1) (known.regard_putAll _)).symm
  refine ⟨_, p, rfl, getElem?_writtenBack at_ same.symm, told, fun distinct => ?_⟩
  exact writtenBack_eq distinct at_ (known.foldedName_putAll _) same

/-! ### Restored states -/

/-- What holds of a state that a command leads to, and goes on to hold once it is restored, where
the state before was legal. -/
def GameState.Lasts (s : GameState) (P : GameState → Prop) (t : GameState) : Prop :=
  P t ∧ (s.Legal → P t.legalize)

theorem content_legalize (f : PersonField) (unmoved : f ≠ .affinity) (unhealed : f ≠ .stats)
    (settings : Settings) : content f (p.legalize settings) = content f p := by
  cases f <;> first | rfl | exact absurd rfl unmoved | exact absurd rfl unhealed

/-- Restoring leaves a person as told who was legal before: the affinity is within its bounds, and
no stats are told. -/
theorem Retold.legalize {aside : List PersonField} {settings : Settings}
    (keyed : ∀ e ∈ keys, e ∈ personKeys) (legal : known.Legal settings)
    (h : Retold (params.tellsPerson keys known) aside known p) :
    Retold (params.tellsPerson keys known) aside known (p.legalize settings) := by
  refine ⟨fun f own => ?_, fun f other kept => ?_⟩
  · rw [← h.identity f own]
    rcases List.mem_pair.mp own with rfl | rfl <;> rfl
  · by_cases moved : f = .affinity
    · subst moved
      have told := h.field .affinity other kept
      have bounded : -100 ≤ p.affinity ∧ p.affinity ≤ 100 := by
        rw [Params.tellsPerson, if_pos rfl] at told
        split at told
        · have goal : p.affinity = moveAffinity known.affinity
              ((params.value? "affinity").bind AffinityChange.ofText?) := Content.number.inj told
          rw [goal]
          exact abs_le.mp (moveAffinity_near _ _).2
        · have still : p.affinity = known.affinity := Content.number.inj told
          rw [still]
          exact legal.affinity
      rw [← told]
      exact congrArg Content.number (boundAffinity_eq_self bounded)
    · by_cases healed : f = .stats
      · subst healed
        have told := h.field .stats other kept
        have untold : params.tellsPerson keys known .stats = none := by
          rw [Params.tellsPerson, if_neg (by decide), untold_of_keyed keyed (by decide)]
        rw [untold] at told ⊢
        have still : p.stats = known.stats := Content.stats.inj told
        have same : p.stats.map (·.legalize settings) = p.stats := by
          rw [still]
          cases stats : known.stats with
          | none => rfl
          | some s => exact congrArg some (StatBlock.legalize_eq_self (legal.stats s stats))
        exact (congrArg Content.stats same).trans told
      · rw [content_legalize f moved healed]
        exact h.field f other kept

end

section

variable {s : GameState} {params : Params} {keys : List (String × PersonField)}

/-- People among whom one was told anew stay so when they are restored. -/
theorem RetoldIn.legalizePeople {people after : List Person} {called : String}
    {aside : List PersonField} {settings : Settings} (keyed : ∀ e ∈ keys, e ∈ personKeys)
    (legal : ∀ p ∈ people, p.Legal settings)
    (distinct : (after.map Person.foldedName).Nodup)
    (h : RetoldIn people after called (params.tellsPerson keys) aside) :
    RetoldIn people (Ascent.legalizePeople after settings) called (params.tellsPerson keys)
      aside := by
  intro place known found
  obtain ⟨p, there, told⟩ := h place known found
  refine ⟨p.legalize settings, ?_, told.legalize keyed (legal known (mem_of_findNamed? found))⟩
  rw [Ascent.legalizePeople, mergePeople_eq_self distinct, List.getElem?_map, there]
  rfl

/-! ### Commands about people -/

theorem introduceIn_lasts (s : GameState) (params : Params) (circle : Circle)
    (seed : Option Person) (distinct : s.Legal →
      ((sown (s.people circle) params.introduced seed).map Person.foldedName).Nodup) :
    (introduceIn s params circle seed).Ensures fun r => s.Lasts
      (fun t => RetoldIn (s.people circle) (t.people circle) (sanitizeName params.introduced)
        (params.tellsPerson personKeys) s.redrawn) r.1 := by
  cases found : findNamed? (s.people circle) (sanitizeName params.introduced) with
  | none => exact fun _ _ _ _ => ⟨retoldIn_of_none found, fun _ => retoldIn_of_none found⟩
  | some x =>
      obtain ⟨place, known⟩ := x
      refine (introduceIn_retold found).mono ?_
      rintro ⟨_, _⟩ ⟨people, p, rfl, there, told, alone⟩
      have here : RetoldIn (s.people circle) people (sanitizeName params.introduced)
          (params.tellsPerson personKeys) s.redrawn := retoldIn_of_found found there told
      constructor
      · dsimp only
        rwa [GameState.people_setPeople, if_pos rfl]
      · intro legal
        dsimp only
        rw [GameState.people_legalize, GameState.people_setPeople, if_pos rfl]
        refine here.legalizePeople (fun e there => there) (legal.people circle) ?_
        have at_ := getElem?_of_findNamed? (findNamed?_sown found params.introduced seed)
        have named : p.foldedName = known.foldedName := congrArg fold (name_of_retold told)
        rw [alone (distinct legal), names_set at_ named]
        exact distinct legal

theorem meetPerson_retold (s : GameState) (params : Params) :
    (meetPerson s params).Ensures fun e => s.Lasts
      (fun t => RetoldIn (s.people .encountered) (t.people .encountered)
        (sanitizeName params.introduced) (params.tellsPerson personKeys) s.redrawn) e.state := by
  have introduced := introduceIn_lasts s params .encountered none fun legal =>
    legal.distinct .encountered
  exact .bind introduced fun _ lasts => .pure lasts

theorem updatePerson_retold (s : GameState) (params : Params) :
    (updatePerson s params).Ensures fun e => s.Lasts
      (fun t => ∀ found, s.locate? (params.required "name") = some found →
        RetoldIn (s.people found.circle) (t.people found.circle) (params.required "name")
          (params.tellsPerson personUpdateKeys) []) e.state := by
  cases there : s.locate? (params.required "name") with
  | none =>
      have nobody (P : Located → Prop) : ∀ found, none = some found → P found := fun _ => nofun
      exact fun _ _ _ _ => ⟨nobody _, fun _ => nobody _⟩
  | some found =>
      have named := (GameState.findNamed?_of_locateIn? there).2
      have keyed : ∀ e ∈ personUpdateKeys, e ∈ personKeys := fun e => List.mem_of_mem_filter
      unfold updatePerson GameState.ensurePerson
      rw [there]
      have told := retold_liked keyed params found.person
      refine .pure ⟨?_, fun legal => ?_⟩
      · rintro _ ⟨⟩
        rw [GameState.store, GameState.people_setPeople, if_pos rfl]
        exact retoldIn_set named told
      · rintro _ ⟨⟩
        rw [GameState.people_legalize, GameState.store, GameState.people_setPeople, if_pos rfl]
        refine (retoldIn_set named told).legalizePeople keyed (legal.people found.circle) ?_
        rw [names_set (getElem?_of_findNamed? named) (congrArg fold (name_of_retold told))]
        exact legal.distinct found.circle

end

/-! ### The category of companions -/

section

variable {s : GameState} {params : Params} {f : PersonField}

/-- What is told of a field other than the category does not hang on what stands under that key. -/
theorem told_filter_category (other : f ≠ .category) (params : Params) :
    Params.told (params.filter (·.1 ≠ "category")) personKeys PersonField.kind f =
      params.told personKeys PersonField.kind f := by
  rw [Params.told, Params.told, List.filterMap_filter]
  refine congrArg List.getLast? (congrArg (List.filterMap · params) ?_)
  funext e
  obtain ⟨key, text⟩ := e
  by_cases same : key = "category"
  · subst same
    have field : personKeys.lookup (compactKey "category") = some .category := by decide +kernel
    simp [field, Ne.symm other]
  · simp [same]

theorem told_companionParams (distinct : (params.map Prod.fst).Nodup) (other : f ≠ .category) :
    (s.companionParams params).told personKeys PersonField.kind f =
      params.told personKeys PersonField.kind f := by
  unfold GameState.companionParams
  split
  · rw [← told_filter_category other, Pairs.filter_ofList_cons distinct,
      told_filter_category other]
  · rfl

theorem get?_companionParams (distinct : (params.map Prod.fst).Nodup) {key : String}
    (other : key ≠ "category") :
    Pairs.get? (s.companionParams params) key = Pairs.get? params key := by
  unfold GameState.companionParams
  split
  · rw [Pairs.ofList, List.foldl_cons, Pairs.get?_foldl_put, Pairs.last?_eq_get? distinct]
    simp [Pairs.put, Pairs.get?, Ne.symm other]
  · rfl

theorem introduced_companionParams (distinct : (params.map Prod.fst).Nodup) :
    (s.companionParams params).introduced = params.introduced := by
  unfold Params.introduced
  dsimp only
  rw [fieldValue?_pickFields, fieldValue?_pickFields, told_companionParams distinct (by decide),
    Params.value?, Params.value?, get?_companionParams distinct (by decide)]

/-- The category, where the default for companions changes what the arguments tell of it. -/
def GameState.defaulted (s : GameState) (params : Params) : List PersonField :=
  if (s.companionParams params).told personKeys PersonField.kind .category =
      params.told personKeys PersonField.kind .category then []
  else [.category]

theorem tellsPerson_companionParams (distinct : (params.map Prod.fst).Nodup) (known : Person)
    (kept : f ∉ s.defaulted params) :
    (s.companionParams params).tellsPerson personKeys known f =
      params.tellsPerson personKeys known f := by
  unfold Params.tellsPerson Params.tells Params.has Params.value?
  rw [get?_companionParams distinct (by decide)]
  by_cases category : f = .category
  · subst category
    unfold GameState.defaulted at kept
    split at kept
    · next same => rw [same]
    · exact absurd List.mem_cons_self kept
  · rw [told_companionParams distinct category]

theorem nodup_sown (legal : s.Legal) (called other : String) :
    ((sown (s.people .companions) other (companionSeed s called)).map
      Person.foldedName).Nodup := by
  have distinct := legal.distinct .companions
  cases sought : companionSeed s called with
  | none => exact distinct
  | some seed =>
      obtain ⟨-, -, -, -, fresh⟩ := of_companionSeed sought
      rcases sown_eq (s.people .companions) other seed with old | more
      · rw [old]
        exact distinct
      · rw [more]
        exact nodup_names_append distinct fresh

theorem joinCompanion_retold (distinct : (params.map Prod.fst).Nodup) :
    (joinCompanion s params).Ensures fun e => s.Lasts
      (fun t => RetoldIn (s.people .companions) (t.people .companions)
        (sanitizeName params.introduced) (params.tellsPerson personKeys)
        (s.redrawn ++ s.defaulted params)) e.state := by
  have introduced := introduceIn_lasts s (s.companionParams params) .companions
    (companionSeed s (params.required "name")) fun legal => nodup_sown legal _ _
  have same (known : Person) (f : PersonField) (kept : f ∉ s.redrawn ++ s.defaulted params) :
      f ∉ s.redrawn ∧ (s.companionParams params).tellsPerson personKeys known f =
        params.tellsPerson personKeys known f := by
    simp only [List.mem_append, not_or] at kept
    exact ⟨kept.1, tellsPerson_companionParams distinct known kept.2⟩
  rw [introduced_companionParams distinct] at introduced
  refine .bind introduced fun r lasts => .pure ?_
  exact ⟨lasts.1.congr same, fun legal => (lasts.2 legal).congr same⟩

end

end Ascent
