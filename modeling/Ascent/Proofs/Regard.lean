import Ascent.Proofs.Clamping
import Ascent.Proofs.Patience
import Ascent.Proofs.Resumption
import Ascent.Proofs.Wording

/-!
How commands change what people think of the player.

A command finds the record of a name or makes one, and what it asks for is measured against the
affinity of that record, or against none. Whatever else it does to the record leaves the affinity
alone, and the records beside it stay as they were. So each record after a command is one that was
there, a new one, or, among companions, one that starts from a record of somebody met, and it has
moved once at most.

Main exports: `Params.Sways`, `Person.Swayed`, `Params.NamesStable`, `GameState.Origin`,
`GameState.Renews`, `GameState.affinity_moves_by_ten`.
-/

namespace Ascent

open Text

/-! ### How far a record moves -/

namespace Params

variable {params : Params} {start after : Int}

/-- An affinity that the arguments of a command may lead to from another one: no more than a step
away, within the bounds, and the same unless an argument is worded as a change. -/
structure Sways (params : Params) (start after : Int) : Prop where
  near : |after - start| ≤ 10
  bounded : |after| ≤ 100
  asked : after = start ∨
    ∃ text, ("affinity", some text) ∈ params ∧ AffinityChange.Worded text.toList

theorem Sways.refl (bounded : |start| ≤ 100) : params.Sways start start :=
  ⟨by simp, bounded, .inl rfl⟩

/-- Arguments ask for no more than others that have the same affinity. -/
theorem Sways.of_mem {others : Params} (h : others.Sways start after)
    (member : ∀ text, ("affinity", some text) ∈ others → ("affinity", some text) ∈ params) :
    params.Sways start after :=
  ⟨h.near, h.bounded, h.asked.imp_right fun ⟨text, there, worded⟩ =>
    ⟨text, member text there, worded⟩⟩

theorem mem_of_value? {key text : String} (known : params.value? key = some text) :
    (key, some text) ∈ params :=
  Pairs.mem_of_get? (Option.join_eq_some_iff.mp known)

theorem sways_moveAffinity (bounded : |start| ≤ 100) : params.Sways start
    (moveAffinity start ((params.value? "affinity").bind AffinityChange.ofText?)) := by
  have same : boundAffinity start = start := boundAffinity_eq_self (abs_le.mp bounded)
  obtain ⟨near, within⟩ := moveAffinity_near start
    ((params.value? "affinity").bind AffinityChange.ofText?)
  rw [same] at near
  refine ⟨near, within, ?_⟩
  cases asked : (params.value? "affinity").bind AffinityChange.ofText? with
  | none => exact .inl same
  | some change =>
      obtain ⟨text, known, read⟩ := Option.bind_eq_some_iff.mp asked
      exact .inr ⟨text, mem_of_value? known, AffinityChange.worded_of_ofText? read⟩

end Params

namespace Person

variable {params : Params} {p q : Person}

/-- Who a person is, and how the person regards the player. -/
def regard (p : Person) : String × String × Int := (p.id, p.name, p.affinity)

theorem regard_putAll (p : Person) (fields : List (PersonField × FieldValue)) :
    (p.putAll fields).regard = p.regard :=
  get_foldl_put regard (fun f _ _ => by cases f <;> rfl) _ p

theorem refreshStats_regard (p : Person) (s : GameState) :
    (p.refreshStats s).Ensures fun q => q.regard = p.regard := by
  unfold refreshStats
  split
  · exact .pure rfl
  · exact .of_bind fun _ => .pure rfl

theorem introduce_regard (called : String) (fields : List (PersonField × FieldValue)) :
    (introduce called fields).Ensures fun p => p.name = called ∧ p.affinity = 0 := by
  refine .of_bind fun id => .pure ?_
  have same := regard_putAll ({ id := id, name := called : Person }.giving [.name]) fields
  simp only [regard, Prod.mk.injEq] at same
  exact same.2

/-- A person after a command with these arguments: the same one, with another affinity perhaps. -/
structure Swayed (params : Params) (p q : Person) : Prop where
  id : q.id = p.id
  name : q.name = p.name
  affinity : params.Sways p.affinity q.affinity

theorem Swayed.refl (bounded : |p.affinity| ≤ 100) : p.Swayed params p := ⟨rfl, rfl, .refl bounded⟩

theorem Swayed.of_regard {p' q' : Person} (h : p.Swayed params q) (before : p'.regard = p.regard)
    (after : q'.regard = q.regard) : p'.Swayed params q' := by
  simp only [regard, Prod.mk.injEq] at before after
  obtain ⟨id, name, affinity⟩ := before
  obtain ⟨id', name', affinity'⟩ := after
  refine ⟨by rw [id, id', h.id], by rw [name, name', h.name], ?_⟩
  rw [affinity, affinity']
  exact h.affinity

theorem Swayed.of_mem {others : Params} (h : p.Swayed others q)
    (member : ∀ text, ("affinity", some text) ∈ others → ("affinity", some text) ∈ params) :
    p.Swayed params q :=
  ⟨h.id, h.name, h.affinity.of_mem member⟩

theorem Swayed.foldedName (h : p.Swayed params q) : q.foldedName = p.foldedName :=
  congrArg fold h.name

theorem swayed_moveAffinityTo (bounded : |p.affinity| ≤ 100) :
    p.Swayed params (p.moveAffinityTo p.affinity (params.value? "affinity")) :=
  ⟨rfl, rfl, Params.sways_moveAffinity bounded⟩

end Person

/-! ### One circle -/

/-- A record comes from one of some people, or it is a new one. -/
inductive Person.Comes (params : Params) (base : List Person) (q : Person) : Prop where
  | known {p : Person} (there : p ∈ base) (swayed : p.Swayed params q)
  | new (fresh : q.foldedName ∉ base.map Person.foldedName) (sways : params.Sways 0 q.affinity)

/-- People of distinct names, each of whom comes from one of those before or is new. -/
structure Renewed (params : Params) (base after : List Person) : Prop where
  distinct : (after.map Person.foldedName).Nodup
  each : ∀ q ∈ after, q.Comes params base

section

variable {params : Params} {base : List Person} {p q : Person} {place : Nat}
  (distinct : (base.map Person.foldedName).Nodup) (bounded : ∀ p ∈ base, |p.affinity| ≤ 100)

include distinct bounded

theorem renewed_refl : Renewed params base base :=
  ⟨distinct, fun q member => .known member (.refl (bounded q member))⟩

theorem renewed_set (there : base[place]? = some p) (swayed : p.Swayed params q) :
    Renewed params base (base.set place q) := by
  refine ⟨?_, forall_set (renewed_refl distinct bounded).each
    (.known (List.mem_of_getElem? there) swayed) place⟩
  rwa [names_set there swayed.foldedName]

theorem renewed_append (fresh : q.foldedName ∉ base.map Person.foldedName)
    (sways : params.Sways 0 q.affinity) : Renewed params base (base ++ [q]) :=
  ⟨nodup_names_append distinct fresh,
    forall_append (renewed_refl distinct bounded).each (.new fresh sways)⟩

theorem renewed_eraseIdx (place : Nat) : Renewed params base (base.eraseIdx place) :=
  ⟨distinct.sublist ((List.eraseIdx_sublist base place).map Person.foldedName), fun q member =>
    (renewed_refl distinct bounded).each q (List.mem_of_mem_eraseIdx member)⟩

/-- Who is introduced among people, or met again there, and then swayed and written back by name,
leaves them renewed. -/
theorem upsertPerson_renewed {called : String} (stable : sanitizeName called = called)
    (written : fold called ≠ "") (fields : List (PersonField × FieldValue)) :
    (upsertPerson base called fields).Ensures fun r =>
      (r.2.2 = true → r.2.1.affinity = 0) ∧ |r.2.1.affinity| ≤ 100 ∧ ∀ p, r.2.1.Swayed params p →
        Renewed params base (r.1.map fun x => if x.name = p.name then p else x) := by
  cases found : findNamed? base (sanitizeName called) with
  | some known =>
      obtain ⟨place, q⟩ := known
      have met : (upsertPerson base called fields).Ensures fun r =>
          r.2.2 = false ∧ r.2.1.regard = q.regard := by
        unfold upsertPerson
        rw [found]
        exact .pure ⟨rfl, q.regard_putAll fields⟩
      refine ((upsertPerson_known distinct found fields).and met).mono ?_
      rintro r ⟨put, old, same⟩
      have affinity : r.2.1.affinity = q.affinity := congrArg (·.2.2) same
      refine ⟨fun new => absurd new (by simp [old]), ?_, fun p swayed => ?_⟩
      · rw [affinity]
        exact bounded q (mem_of_findNamed? found)
      · rw [(put p swayed.name).2]
        exact renewed_set distinct bounded (getElem?_of_findNamed? found)
          (swayed.of_regard same.symm rfl)
  | none =>
      have stranger := not_mem_names_of_hasNamed (by rwa [stable, stable])
        (hasNamed_of_findNamed?_none found)
      rw [stable, stable] at stranger
      unfold upsertPerson
      rw [found, stable]
      refine .bind (Person.introduce_regard called fields) fun made fresh => .pure ?_
      obtain ⟨name, none⟩ := fresh
      dsimp only
      refine ⟨fun _ => none, by simp [none], fun p swayed => ?_⟩
      have fresh : made.foldedName ∉ base.map Person.foldedName := by
        rwa [Person.foldedName, name]
      have last : (base ++ [made])[base.length]? = some made := by simp
      rw [replace_of_there (nodup_names_append distinct fresh) last swayed.name]
      have appended : (base ++ [made]).set base.length p = base ++ [p] := by simp
      rw [appended]
      apply renewed_append distinct bounded
      · rwa [swayed.foldedName]
      · exact none ▸ swayed.affinity

end

/-- What holds of a circle once somebody was introduced or met again there, swayed, drawn up anew
and written back by name. -/
theorem introduceIn_swayed {s : GameState} {params : Params} {circle : Circle}
    {seed : Option Person} {P : List Person → Prop}
    (written : (upsertPerson (sown (s.people circle) params.introduced seed) params.introduced
      (pickFields personKeys PersonField.kind params)).Ensures fun r =>
        (r.2.2 = true → r.2.1.affinity = 0) ∧ |r.2.1.affinity| ≤ 100 ∧ ∀ p,
          r.2.1.Swayed params p → P (r.1.map fun x => if x.name = p.name then p else x)) :
    (introduceIn s params circle seed).Ensures fun r =>
      ∃ people, r.1 = s.setPeople circle people ∧ P people := by
  unfold introduceIn
  unfold sown Params.introduced at written
  dsimp only at written ⊢
  refine .bind written fun r back => ?_
  obtain ⟨new, bounded, back⟩ := back
  refine .bind (Person.refreshStats_regard _ s) fun p drawn => .pure ⟨_, rfl, back p ?_⟩
  split at drawn
  · have start : (if r.2.2 then 0 else r.2.1.affinity) = r.2.1.affinity := by
      split
      · next created => exact (new created).symm
      · rfl
    rw [start] at drawn
    exact (Person.swayed_moveAffinityTo bounded).of_regard rfl drawn
  · exact (Person.Swayed.refl bounded).of_regard rfl drawn

/-! ### The name of an introduction -/

namespace Params

variable {params : Params}

/-- What is left of the names that a command gives is left of that too. -/
def NamesStable (params : Params) : Prop := ∀ arg ∈ params, compactKey arg.1 = "name" →
  ∀ raw ∈ arg.2, sanitizeName (sanitizeName raw) = sanitizeName raw

instance (params : Params) : Decidable params.NamesStable :=
  inferInstanceAs (Decidable (∀ arg ∈ params, compactKey arg.1 = "name" →
    ∀ raw ∈ arg.2, sanitizeName (sanitizeName raw) = sanitizeName raw))

theorem of_written {key : String} (written : isBlankText (params.required key) = false) :
    (key, some (params.required key)) ∈ params := by
  apply mem_of_value?
  rw [required] at written ⊢
  cases known : params.value? key with
  | none =>
      rw [known] at written
      exact absurd written (by decide)
  | some raw => rfl

/-- The name is set under its own key alone, to what is left of a text that is not blank. -/
theorem of_pickField?_name {arg : String × Option String} {v : FieldValue}
    (picked : pickField? personKeys PersonField.kind arg = some (.name, v)) :
    compactKey arg.1 = "name" ∧ ∃ raw, arg.2 = some raw ∧ isBlankText raw = false ∧
      v = .text (sanitizeName raw) := by
  simp only [pickField?, Option.bind_eq_bind, Option.bind_eq_some_iff] at picked
  obtain ⟨f, known, raw, given, picked⟩ := picked
  split at picked
  · cases picked
  · next solid =>
      obtain ⟨w, read, picked⟩ := Option.bind_eq_some_iff.mp picked
      obtain ⟨rfl, rfl⟩ := Prod.mk.inj (Option.some.inj picked)
      have keys : ∀ e ∈ personKeys, e.2 = .name → e.1 = "name" := by decide
      obtain ⟨before, after, split, _⟩ := List.lookup_eq_some_iff.mp known
      exact ⟨keys (compactKey arg.1, .name) (by simp [split]) rfl, raw, given,
        by simpa using solid, (Option.some.inj read).symm⟩

/-- The name of an introduction is what is left of an argument. -/
theorem exists_introduced (written : isBlankText (params.required "name") = false) :
    ∃ key raw, (key, some raw) ∈ params ∧ compactKey key = "name" ∧ isBlankText raw = false ∧
      params.introduced = sanitizeName raw := by
  unfold introduced
  dsimp only
  cases field : fieldValue? (pickFields personKeys PersonField.kind params) .name with
  | none => exact ⟨"name", _, of_written written, by decide +kernel, written, rfl⟩
  | some v =>
      obtain ⟨⟨f, v⟩, there, rfl⟩ := Option.map_eq_some_iff.mp field
      obtain rfl : f = .name := by simpa using List.find?_some there
      obtain ⟨⟨key, raw⟩, member, picked⟩ :=
        exists_of_mem_pickFields (List.mem_of_find?_eq_some there)
      obtain ⟨named, raw, rfl, solid, rfl⟩ := of_pickField?_name picked
      have left : sanitizeName raw ≠ "" := fun empty =>
        fold_sanitizeName_ne solid (by rw [empty]; rfl)
      exact ⟨key, raw, member, named, solid, if_neg left⟩

theorem introduced_stable (stable : params.NamesStable)
    (written : isBlankText (params.required "name") = false) :
    sanitizeName params.introduced = params.introduced ∧ fold params.introduced ≠ "" := by
  obtain ⟨key, raw, member, named, solid, same⟩ := exists_introduced written
  rw [same]
  exact ⟨stable _ member named raw rfl, fold_sanitizeName_ne solid⟩

end Params

section

variable {s : GameState} {params : Params}

theorem mem_of_mem_companionParams {arg : String × Option String}
    (member : arg ∈ s.companionParams params) : arg ∈ params ∨ arg.1 = "category" := by
  unfold GameState.companionParams at member
  split at member
  · rcases List.mem_cons.mp (Pairs.mem_ofList member) with rfl | given
    · exact .inr rfl
    · exact .inl given
  · exact .inl member

theorem companionParams_stable (stable : params.NamesStable) :
    (s.companionParams params).NamesStable := by
  intro arg member named
  rcases mem_of_mem_companionParams member with given | category
  · exact stable arg given named
  · rw [category] at named
    exact absurd named (by decide +kernel)

theorem required_companionParams (distinct : (params.map Prod.fst).Nodup)
    (written : isBlankText (params.required "name") = false) :
    (s.companionParams params).required "name" = params.required "name" := by
  unfold GameState.companionParams
  split
  · have there : Pairs.get? params "name" = some (some (params.required "name")) :=
      Pairs.get?_of_mem distinct (Params.of_written written)
    have kept : Pairs.get? (Pairs.ofList (("category", some "companion") :: params)) "name" =
        Pairs.get? params "name" := by
      rw [Pairs.ofList, List.foldl_cons, Pairs.get?_foldl_put, Pairs.last?_eq_get? distinct, there]
      rfl
    rw [Params.required, Params.value?, kept, Params.required, Params.value?]
  · rfl

end

/-! ### Where records come from -/

namespace GameState

/-- Where a record in a circle comes from, once a command has been carried out: from one that was
there, from nowhere, or, among companions, from that of somebody met. -/
inductive Origin (s : GameState) (params : Params) (circle : Circle) (q : Person) : Prop where
  | known {p : Person} (there : p ∈ s.people circle) (swayed : p.Swayed params q)
  | new (fresh : q.foldedName ∉ (s.people circle).map Person.foldedName)
      (sways : params.Sways 0 q.affinity)
  | copied {m : Person} (companion : circle = .companions) (met : m ∈ s.people .encountered)
      (fresh : q.foldedName ∉ (s.people circle).map Person.foldedName)
      (swayed : m.Swayed params q)

/-- In every circle of a state names are distinct, and every record comes from somewhere. -/
def Renews (s : GameState) (params : Params) (t : GameState) : Prop := ∀ circle,
  ((t.people circle).map Person.foldedName).Nodup ∧
    ∀ q ∈ t.people circle, s.Origin params circle q

variable {s t u : GameState} {params : Params} {circle : Circle} {p q : Person}

theorem Origin.bounded (h : s.Origin params circle q) : |q.affinity| ≤ 100 := by
  cases h with
  | known _ swayed => exact swayed.affinity.bounded
  | new _ sways => exact sways.bounded
  | copied _ _ _ swayed => exact swayed.affinity.bounded

theorem Origin.of_comes (h : q.Comes params (s.people circle)) : s.Origin params circle q := by
  cases h with
  | known there swayed => exact .known there swayed
  | new fresh sways => exact .new fresh sways

/-- Restoring leaves a record alone but for its stats, where the affinity is within its bounds. -/
theorem Origin.legalize (h : s.Origin params circle q) (settings : Settings) :
    s.Origin params circle (q.legalize settings) := by
  have affinity : (q.legalize settings).affinity = q.affinity :=
    boundAffinity_eq_self (abs_le.mp h.bounded)
  have same : (q.legalize settings).regard = q.regard := by
    rw [Person.regard, affinity]
    rfl
  cases h with
  | known there swayed => exact .known there (swayed.of_regard rfl same)
  | new fresh sways => exact .new fresh (affinity ▸ sways)
  | copied companion met fresh swayed =>
      exact .copied companion met fresh (swayed.of_regard rfl same)

theorem Renews.legalize (h : s.Renews params t) : s.Renews params t.legalize := by
  intro circle
  obtain ⟨distinct, each⟩ := h circle
  rw [people_legalize, legalizePeople, mergePeople_eq_self distinct]
  constructor
  · rw [List.map_map]
    exact distinct
  · intro q member
    obtain ⟨before, there, rfl⟩ := List.mem_map.mp member
    exact (each before there).legalize _

theorem Renews.of_mem {others : Params} (h : s.Renews others t)
    (member : ∀ text, ("affinity", some text) ∈ others → ("affinity", some text) ∈ params) :
    s.Renews params t := by
  refine fun circle => ⟨(h circle).1, fun q there => ?_⟩
  cases (h circle).2 q there with
  | known there swayed => exact .known there (swayed.of_mem member)
  | new fresh sways => exact .new fresh (sways.of_mem member)
  | copied companion met fresh swayed =>
      exact .copied companion met fresh (swayed.of_mem member)

theorem Renews.of_samePeople (h : s.Renews params t) (same : t.SamePeople u) :
    s.Renews params u := by
  intro circle
  rw [GameState.people, same.cast]
  exact h circle

/-- Among companions a record may also come from one that was sown there: that of somebody met. -/
theorem origin_of_sown {called : String} {seed : Person}
    (sought : companionSeed s called = some seed) (other : String)
    (h : q.Comes params (sown (s.people .companions) other (some seed))) :
    s.Origin params .companions q := by
  obtain ⟨m, met, copy, -, fresh⟩ := of_companionSeed sought
  rcases sown_eq (s.people .companions) other seed with old | more
  · rw [old] at h
    exact .of_comes h
  · rw [more] at h
    cases h with
    | known there swayed =>
        rcases List.mem_append.mp there with old | last
        · exact .known old swayed
        · obtain rfl := List.mem_singleton.mp last
          refine .copied rfl met (by rwa [swayed.foldedName]) (swayed.of_regard ?_ rfl)
          rw [copy]
          rfl
    | new unknown sways =>
        exact .new (fun known => unknown (by simp [known])) sways

/-! ### Commands about people -/

section

variable (legal : s.Legal)

include legal

theorem Legal.bounded (circle : Circle) : ∀ p ∈ s.people circle, |p.affinity| ≤ 100 :=
  fun p member => abs_le.mpr (legal.people circle p member).affinity

theorem renews_setPeople {people : List Person}
    (distinct : (people.map Person.foldedName).Nodup)
    (each : ∀ q ∈ people, s.Origin params circle q) :
    s.Renews params (s.setPeople circle people) := by
  intro other
  rw [people_setPeople]
  split
  · next same =>
      subst same
      exact ⟨distinct, each⟩
  · exact ⟨legal.distinct other, fun q member =>
      .known member (.refl (legal.bounded other q member))⟩

theorem renews_of_renewed {people : List Person}
    (renewed : Renewed params (s.people circle) people) :
    s.Renews params (s.setPeople circle people) :=
  renews_setPeople legal renewed.distinct fun q member => .of_comes (renewed.each q member)

theorem renews_refl : s.Renews params s := by
  have kept : s.Renews params (s.setPeople .encountered (s.people .encountered)) :=
    renews_of_renewed legal
      (renewed_refl (legal.distinct .encountered) (legal.bounded .encountered))
  rwa [setPeople_people] at kept

/-- Whoever is found in a circle and swayed takes the place that was found. -/
theorem renews_store {called : String} {place : Nat}
    (there : findNamed? (s.people circle) called = some (place, p)) (swayed : p.Swayed params q) :
    s.Renews params (s.store ⟨circle, place, p⟩ q) :=
  renews_of_renewed legal (renewed_set (legal.distinct circle) (legal.bounded circle)
    (getElem?_of_findNamed? there) swayed)

theorem meetPerson_renews (stable : params.NamesStable)
    (written : isBlankText (params.required "name") = false) :
    (meetPerson s params).Ensures fun e => s.Renews params e.state := by
  obtain ⟨settled, some_⟩ := Params.introduced_stable stable written
  refine .bind (introduceIn_swayed (P := Renewed params (s.people .encountered))
    (upsertPerson_renewed (legal.distinct .encountered) (legal.bounded .encountered) settled some_
      _)) fun r renewed => .pure ?_
  obtain ⟨people, same, renewed⟩ := renewed
  rw [same]
  exact renews_of_renewed legal renewed

/-- Somebody is looked up, or introduced where nobody is of the name, and then swayed. -/
theorem ensurePerson_renews {called : String} (written : isBlankText called = false) :
    (s.ensurePerson called).Ensures fun r => |r.2.person.affinity| ≤ 100 ∧ ∀ q,
      r.2.person.Swayed params q → s.Renews params (r.1.store r.2 q) := by
  unfold GameState.ensurePerson
  split
  · next found there =>
      have named := (findNamed?_of_locateIn? there).2
      exact .pure ⟨legal.bounded _ _ (mem_of_findNamed? named), fun q swayed =>
        renews_store legal named swayed⟩
  · next nobody =>
      have stranger := not_mem_names_of_locate?_none (fold_sanitizeName_ne written) nobody
      refine .bind (Person.introduce_regard (sanitizeName called) []) fun made fresh => ?_
      obtain ⟨name, zero⟩ := fresh
      refine .bind (Person.refreshStats_regard made s) fun p drawn => .pure ?_
      simp only [Person.regard, Prod.mk.injEq] at drawn
      obtain ⟨-, sameName, same⟩ := drawn
      have unmoved : p.affinity = 0 := same.trans zero
      refine ⟨by simp [unmoved], fun q swayed => ?_⟩
      rw [store_introduced]
      apply renews_of_renewed legal
      apply renewed_append (legal.distinct .encountered) (legal.bounded .encountered)
      · rwa [Person.foldedName, swayed.name, sameName, name]
      · exact unmoved ▸ swayed.affinity

theorem updatePerson_renews (written : isBlankText (params.required "name") = false) :
    (updatePerson s params).Ensures fun e => s.Renews params e.state := by
  refine .bind (ensurePerson_renews legal written) fun r known => .pure (known.2 _ ?_)
  have same := r.2.person.regard_putAll (pickFields personUpdateKeys PersonField.kind params)
  have affinity : (r.2.person.putAll _).affinity = _ := congrArg (·.2.2) same
  split
  · exact (Person.swayed_moveAffinityTo (affinity ▸ known.1)).of_regard same.symm rfl
  · exact (Person.Swayed.refl known.1).of_regard rfl same

theorem remember_renews (written : isBlankText (params.required "npc") = false) :
    (remember s params).Ensures fun e => s.Renews params e.state :=
  .bind (ensurePerson_renews legal written) fun _ known =>
    .pure (known.2 _ ((Person.Swayed.refl known.1).of_regard rfl rfl))

theorem feel_renews (written : isBlankText (params.required "name") = false) :
    (feel s params).Ensures fun e => s.Renews params e.state :=
  .bind (ensurePerson_renews legal written) fun _ known =>
    .pure (known.2 _ ((Person.Swayed.refl known.1).of_regard rfl rfl))

/-- Somebody is introduced among the companions, or met again there. -/
theorem introduceIn_companions_renews {called : String} {seed : Option Person}
    (sought : companionSeed s called = seed)
    (settled : sanitizeName params.introduced = params.introduced)
    (written : fold params.introduced ≠ "") :
    (introduceIn s params .companions seed).Ensures fun r => s.Renews params r.1 := by
  have distinct := legal.distinct .companions
  have bounded := legal.bounded .companions
  cases seed with
  | none =>
      have introduced : (introduceIn s params .companions none).Ensures fun r =>
          ∃ people, r.1 = s.setPeople .companions people ∧
            Renewed params (s.people .companions) people :=
        introduceIn_swayed (upsertPerson_renewed distinct bounded settled written _)
      refine introduced.mono ?_
      rintro r ⟨people, same, renewed⟩
      rw [same]
      exact renews_of_renewed legal renewed
  | some seed =>
      obtain ⟨m, met, copy, -, fresh⟩ := of_companionSeed sought
      have copied : |seed.affinity| ≤ 100 := by
        rw [copy]
        exact legal.bounded .encountered m met
      have base : ((sown (s.people .companions) params.introduced (some seed)).map
            Person.foldedName).Nodup ∧
          ∀ p ∈ sown (s.people .companions) params.introduced (some seed),
            |p.affinity| ≤ 100 := by
        rcases sown_eq (s.people .companions) params.introduced seed with old | more
        · rw [old]
          exact ⟨distinct, bounded⟩
        · rw [more]
          exact ⟨nodup_names_append distinct fresh, forall_append bounded copied⟩
      have introduced : (introduceIn s params .companions (some seed)).Ensures fun r =>
          ∃ people, r.1 = s.setPeople .companions people ∧
            Renewed params (sown (s.people .companions) params.introduced (some seed)) people :=
        introduceIn_swayed (upsertPerson_renewed base.1 base.2 settled written _)
      refine introduced.mono ?_
      rintro r ⟨people, same, renewed⟩
      rw [same]
      exact renews_setPeople legal renewed.distinct fun q member =>
        origin_of_sown sought _ (renewed.each q member)

theorem joinCompanion_renews (keys : (params.map Prod.fst).Nodup) (stable : params.NamesStable)
    (written : isBlankText (params.required "name") = false) :
    (joinCompanion s params).Ensures fun e => s.Renews params e.state := by
  obtain ⟨settled, some_⟩ := Params.introduced_stable (companionParams_stable (s := s) stable)
    (by rwa [required_companionParams keys written])
  have introduced := introduceIn_companions_renews legal
    (rfl : companionSeed s (params.required "name") = _) settled some_
  refine .bind introduced fun r renews => .pure (renews.of_mem fun text member => ?_)
  exact (mem_of_mem_companionParams member).resolve_right (by simp)

theorem leaveCompanion_renews : s.Renews params (leaveCompanion s params).state := by
  unfold leaveCompanion
  split
  · exact renews_refl legal
  · exact renews_of_renewed legal
      (renewed_eraseIdx (legal.distinct .companions) (legal.bounded .companions) _)

theorem changeRelation_renews (circle : Circle) :
    s.Renews params (changeRelation circle s params).state := by
  unfold changeRelation
  split
  · exact renews_refl legal
  · next place p there =>
      have moved : p.Swayed params
          (p.moveAffinityTo p.affinity (params.value? "affinity")) :=
        Person.swayed_moveAffinityTo (legal.bounded circle p (mem_of_findNamed? there))
      refine renews_store legal there ?_
      split
      · exact moved.of_regard rfl (Person.regard_putAll _ _)
      · exact moved

end

/-! ### Every command -/

theorem people_renews {c : Command} {r : CommandRule} (legal : s.Legal)
    (keys : (c.params.map Prod.fst).Nodup) (stable : c.params.NamesStable)
    (member : r ∈ Registry.people)
    (complete : ∀ key ∈ r.required, c.params.lacks key = false) :
    (r.run s c.params).Ensures fun e => s.Renews c.params e.state := by
  have written (key : String) (needed : key ∈ r.required) :
      isBlankText (c.params.required key) = false :=
    Params.written_of_lacks (complete key needed)
  simp only [Registry.people, List.mem_cons, List.not_mem_nil, or_false] at member
  rcases member with rfl | rfl | rfl | rfl | rfl | rfl | rfl | rfl | rfl
  · exact meetPerson_renews legal stable (written "name" (by simp))
  · exact updatePerson_renews legal (written "name" (by simp))
  · exact remember_renews legal (written "npc" (by simp))
  · exact feel_renews legal (written "name" (by simp))
  · exact joinCompanion_renews legal keys stable (written "name" (by simp))
  · exact Registry.certain_ensures (leaveCompanion_renews legal)
  · exact Registry.certain_ensures (changeRelation_renews legal .wives)
  · exact Registry.certain_ensures (changeRelation_renews legal .slaves)
  · exact Registry.certain_ensures (changeRelation_renews legal .prisoners)

/-- Every command but the end of a fight, carried out or not, leaves the people of a legal state
renewed. -/
theorem renews_dispatchAll (legal : s.Legal) {c : Command} (other : upper c.name ≠ "COMBAT_END")
    (keys : (c.params.map Prod.fst).Nodup) (stable : c.params.NamesStable) (supply : Supply) :
    s.Renews c.params (dispatchAll .standard s supply [c]).state := by
  rw [Dispatched.dispatchAll_singleton]
  generalize begun : ({ state := s, supply } : Dispatched) = done
  have met : done.state = s := by rw [← begun]
  rcases done.state_next .standard c with ⟨effect, rest, run, same⟩ | same
  · rw [same]
    rw [met] at run
    refine dispatch_keeps_given (P := s.Renews c.params) (Q := s.Renews c.params) run ?_
      fun _ renews => renews.legalize
    intro r member tag complete
    rcases Registry.bystander_or_deed member with aside | deed
    · rcases List.mem_append.mp aside with about | errand
      · exact people_renews legal keys stable about complete
      · exact (errand_samePeople s errand _).mono fun _ => (renews_refl legal).of_samePeople
    · exact (deed_samePeople s deed (tag ▸ other) _).mono fun _ =>
        (renews_refl legal).of_samePeople
  · rw [same, met]
    exact renews_refl legal

/-- No command moves an affinity by more than ten, fights apart. A record of a name that was there
is within ten of what it was, both within their bounds, and is where it was unless an argument is
worded as a change. A new record is within ten of none, or, among companions, within ten of that of
somebody met of the same name, whose record it starts from. -/
theorem affinity_moves_by_ten (legal : s.legalize = s) {c : Command}
    (other : upper c.name ≠ "COMBAT_END") (keys : (c.params.map Prod.fst).Nodup)
    (stable : c.params.NamesStable) (supply : Supply) (circle : Circle) :
    ∀ q ∈ (dispatchAll .standard s supply [c]).state.people circle,
      (∀ p ∈ s.people circle, p.foldedName = q.foldedName →
        |q.affinity - p.affinity| ≤ 10 ∧ |p.affinity| ≤ 100 ∧ |q.affinity| ≤ 100 ∧
        ((∀ text, ("affinity", some text) ∈ c.params → ¬ AffinityChange.Worded text.toList) →
          q.affinity = p.affinity)) ∧
      (q.foldedName ∉ (s.people circle).map Person.foldedName →
        |q.affinity| ≤ 10 ∨ circle = .companions ∧ ∃ m ∈ s.people .encountered,
          m.id = q.id ∧ m.name = q.name ∧ |q.affinity - m.affinity| ≤ 10) := by
  have legal : s.Legal := legal ▸ legalize_legal s
  intro q member
  have origin := (renews_dispatchAll legal other keys stable supply circle).2 q member
  refine ⟨fun p there same => ?_, fun fresh => ?_⟩
  · have named : q.foldedName ∈ (s.people circle).map Person.foldedName :=
      List.mem_map.mpr ⟨p, there, same⟩
    cases origin with
    | new fresh => exact absurd named fresh
    | copied _ _ fresh => exact absurd named fresh
    | @known p' there' swayed =>
        obtain rfl : p' = p := List.inj_on_of_nodup_map (legal.distinct circle) there' there
          (swayed.foldedName.symm.trans same.symm)
        refine ⟨swayed.affinity.near, legal.bounded circle p' there, swayed.affinity.bounded, ?_⟩
        intro unworded
        refine swayed.affinity.asked.resolve_right ?_
        rintro ⟨text, given, worded⟩
        exact unworded text given worded
  · cases origin with
    | known there swayed =>
        exact absurd (List.mem_map.mpr ⟨_, there, swayed.foldedName.symm⟩) fresh
    | new _ sways => exact .inl (by simpa using sways.near)
    | @copied m companion met _ swayed =>
        exact .inr ⟨companion, m, met, swayed.id.symm, swayed.name.symm, swayed.affinity.near⟩

/-- Somebody who is asked to move far moves by ten, and joins within ten of that. -/
theorem affinity_moves_by_ten_friend :
    let met : Person := { id := "id-1", name := "Bob", affinity := 50, given := [.name] }
    let s : GameState := { settings := { enableStats := false }, cast := { encountered := [met] } }
    let angered : Person := { met with affinity := 40, given := [.name, .affinity] }
    let joined : Person :=
      { met with category := "companion", affinity := 60, given := [.name, .category, .affinity] }
    let update : Command := ⟨"npc_update", [("name", some "bob"), ("affinity", some " -100.5")]⟩
    let join : Command :=
      ⟨"COMPANION_NEW", [("name", some "bob - the sage"), ("affinity", some "+= 999")]⟩
    s.legalize = s ∧
      (upper update.name ≠ "COMBAT_END" ∧ (update.params.map Prod.fst).Nodup ∧
        update.params.NamesStable ∧
        (dispatchAll .standard s {} [update]).state.people .encountered = [angered] ∧
        angered.foldedName = met.foldedName ∧ |angered.affinity - met.affinity| ≤ 10) ∧
      (upper join.name ≠ "COMBAT_END" ∧ (join.params.map Prod.fst).Nodup ∧
        join.params.NamesStable ∧
        (dispatchAll .standard s {} [join]).state.people .companions = [joined] ∧
        ∃ m ∈ s.people .encountered, m.id = joined.id ∧ m.name = joined.name ∧
          |joined.affinity - m.affinity| ≤ 10) := by
  intro met s angered joined update join
  have legal : s.legalize = s := by decide +kernel
  have other : upper update.name ≠ "COMBAT_END" := by decide +kernel
  have other' : upper join.name ≠ "COMBAT_END" := by decide +kernel
  have keys : (update.params.map Prod.fst).Nodup := by decide
  have keys' : (join.params.map Prod.fst).Nodup := by decide
  have stable : update.params.NamesStable := by decide +kernel
  have stable' : join.params.NamesStable := by decide +kernel
  have after : (dispatchAll .standard s {} [update]).state.people .encountered = [angered] := by
    decide +kernel
  have after' : (dispatchAll .standard s {} [join]).state.people .companions = [joined] := by
    decide +kernel
  have moves := affinity_moves_by_ten legal other keys stable {} .encountered angered
    (by rw [after]; exact List.mem_cons_self)
  have joins := affinity_moves_by_ten legal other' keys' stable' {} .companions joined
    (by rw [after']; exact List.mem_cons_self)
  refine ⟨legal, ⟨other, keys, stable, after, rfl, ?_⟩, other', keys', stable', after', ?_⟩
  · exact (moves.1 met List.mem_cons_self rfl).1
  · exact ((joins.2 List.not_mem_nil).resolve_left (by decide)).2

end GameState

end Ascent
