import Ascent.Proofs.Aside
import Ascent.Proofs.Legality
import Ascent.Proofs.Sync
import Mathlib.Data.List.Forall2

/-!
How the records of people come about.

Somebody unknown is introduced, as a draft that has its stats drawn up before it is kept. After that
a record is changed in only a few ways: by commands, by fights, by merges and by growth. So whatever
holds of a record that is introduced and is kept by each of these ways holds of everybody in every
reached state, which is an induction on how the record came about.

Main exports: `Person.Turn`, `Person.Arises`, `GameState.SamePeople`, `GameState.Arisen`,
`Reachable.arises`.
-/

namespace Ascent

open Text

/-! ### One record -/

/-- What a turn may make of a person: nothing new, another turn at a peak, a breakthrough after
enough of them, or a gain of experience. -/
inductive Person.Turn (world : Settings) (p : Person) : Person → Prop where
  | rests : Turn world p p
  | waits {s : StatBlock} (stats : p.stats = some s) (peak : s.atPeak = true)
      (early : p.bottleneckTurns + 1 < bottleneckLimit) :
      Turn world p
        ({ p with bottleneckTurns := p.bottleneckTurns + 1 }.giving [.bottleneckTurns])
  | breaks {s : StatBlock} {climb : Climb} (stats : p.stats = some s) (peak : s.atPeak = true)
      (late : bottleneckLimit ≤ p.bottleneckTurns + 1)
      (resolved : resolveBreakthrough s true world [] (.inProportion world) = .ok climb) :
      Turn world p
        ({ p.withStats climb.stats with bottleneckTurns := 0 }.giving [.bottleneckTurns])
  | gains {s : StatBlock} {gain : Int} {climb : Climb} (stats : p.stats = some s)
      (slope : s.atPeak = false)
      (climbed : gainExperience s gain world (.inProportion world) = .ok climb) :
      Turn world p (p.withStats climb.stats)

theorem Person.Turn.name {world : Settings} {p q : Person} (turn : p.Turn world q) :
    q.name = p.name := by
  cases turn <;> rfl

theorem Person.turn_of_progress {world : Settings} {p q : Person} {messages : List String}
    (h : p.progress world = .ok (q, messages)) : p.Turn world q := by
  unfold Person.progress at h
  split at h
  · next s aptitude stats _ =>
      split at h
      · cases h
        exact .rests
      · split at h
        · next peak =>
            unfold Person.waitAtPeak at h
            dsimp only at h
            split at h
            · next early =>
                cases h
                exact .waits stats peak early
            · next late =>
                obtain ⟨climb, resolved, h⟩ := exists_of_bind_eq_ok h
                cases h
                exact .breaks stats peak (Int.not_lt.mp late) resolved
        · next slope =>
            obtain ⟨_, _, h⟩ := exists_of_bind_eq_ok h
            obtain ⟨gain, _, h⟩ := exists_of_bind_eq_ok h
            obtain ⟨climb, climbed, h⟩ := exists_of_bind_eq_ok h
            cases h
            exact .gains stats (Bool.not_eq_true _ ▸ slope) climbed
  · cases h
    exact .rests

/-- A person of whom nothing but the name is known. -/
def Person.unknown (id called : String) : Person :=
  { id := id, name := called : Person }.giving [.name]

/-- How far a record has come: drafts are still without stats of their own. -/
inductive Stage where
  | draft
  | kept

/-- How a record comes about in a world of the given settings. -/
inductive Person.Arises (world : Settings) : Stage → Person → Prop where
  | unknown (id called : String) : Arises world .draft (.unknown id called)
  | again {p : Person} (h : Arises world .kept p) : Arises world .draft p
  | told {p : Person} (h : Arises world .draft p) (params : Params) :
      Arises world .draft (p.putAll (pickFields personKeys PersonField.kind params))
  | drawn {p q : Person} {s : GameState} {supply rest : Supply} (h : Arises world .draft p)
      (settings : s.settings = world) (run : (p.refreshStats s).outcome supply = (.ok q, rest)) :
      Arises world .kept q
  | liked {stage : Stage} {p : Person} (h : Arises world stage p) (start : Int)
      (asked : Option String) : Arises world stage (p.moveAffinityTo start asked)
  | changed {p : Person} (h : Arises world .kept p) (keys : List (String × PersonField))
      (tierless : PersonField.tier ∉ keys.map Prod.snd) (params : Params) :
      Arises world .kept (p.putAll (pickFields keys PersonField.kind params))
  | remembers {p : Person} (h : Arises world .kept p) (flag raw : String) :
      Arises world .kept
        ({ p with memoryFlags := p.memoryFlags.put flag (.ofText raw) }.giving [.memoryFlags])
  | feels {p : Person} (h : Arises world .kept p) (label : String) (intensity : Int) :
      Arises world .kept
        ({ p with emotion := some ⟨label, max 0 (min 100 intensity)⟩ }.giving [.emotion])
  | joins {p : Person} (h : Arises world .kept p) :
      Arises world .kept ({ p with category := "companion" }.giving [.category])
  | captured {p : Person} (h : Arises world .kept p) : Arises world .kept p.captured
  | killed {p : Person} (h : Arises world .kept p) : Arises world .kept p.killed
  | merged {p q : Person} (earlier : Arises world .kept p) (later : Arises world .kept q) :
      Arises world .kept (p.overlay q)
  | restored {p : Person} (h : Arises world .kept p) : Arises world .kept (p.legalize world)
  | turned {p q : Person} (h : Arises world .kept p) (turn : p.Turn world q) :
      Arises world .kept q

/-- A state of a world with the given settings, of whose people all records have come about in
play. -/
structure GameState.Arisen (world : Settings) (s : GameState) : Prop where
  settings : s.settings = world
  people : ∀ circle, ∀ p ∈ s.people circle, p.Arises world .kept

theorem introduce_arises (world : Settings) (called : String) (params : Params) :
    (Person.introduce called (pickFields personKeys PersonField.kind params)).Ensures
      (Person.Arises world .draft) :=
  .of_bind fun id => .pure ((Person.Arises.unknown id called).told params)

theorem refreshStats_name (p : Person) (s : GameState) :
    (p.refreshStats s).Ensures fun q => q.name = p.name := by
  unfold Person.refreshStats
  split
  · exact .pure rfl
  · exact .of_bind fun _ => .pure rfl

theorem refreshStats_arises {world : Settings} {p : Person} {s : GameState}
    (settings : s.settings = world) (h : p.Arises world .draft) :
    (p.refreshStats s).Ensures fun q => q.Arises world .kept ∧ q.name = p.name :=
  fun supply q rest run =>
    ⟨.drawn h settings run, refreshStats_name p s supply q rest run⟩

/-! ### Circles -/

section

variable {P : Person → Prop} {people : List Person} {p : Person}

theorem forall_append (each : ∀ p ∈ people, P p) (new : P p) : ∀ q ∈ people ++ [p], P q := by
  intro q member
  rcases List.mem_append.mp member with old | last
  · exact each q old
  · exact List.mem_singleton.mp last ▸ new

theorem forall_set (each : ∀ p ∈ people, P p) (new : P p) (place : Nat) :
    ∀ q ∈ people.set place p, P q := by
  intro q member
  rcases List.mem_or_eq_of_mem_set member with old | rfl
  · exact each q old
  · exact new

/-- What records have and merges keep, merged records have. -/
theorem forall_mergePeople (each : ∀ p ∈ people, P p)
    (merged : ∀ p q, P p → P q → P (p.overlay q)) : ∀ p ∈ mergePeople people, P p := by
  induction people using List.reverseRecOn with
  | nil => exact each
  | append_singleton rest r ih =>
      have before := ih fun p member => each p (List.mem_append_left _ member)
      have new : P r := each r (by simp)
      intro p member
      rw [mergePeople_append_singleton] at member
      rcases mem_mergeInto member with old | rfl | ⟨first, there, _, rfl⟩
      · exact before p old
      · exact new
      · exact merged first r (before first there) new

end

namespace GameState.Arisen

variable {world : Settings} {s t : GameState}

theorem setPeople (h : s.Arisen world) (circle : Circle) {people : List Person}
    (each : ∀ p ∈ people, p.Arises world .kept) : (s.setPeople circle people).Arisen world := by
  refine ⟨h.settings, fun other p member => ?_⟩
  rw [GameState.people, GameState.setPeople, Cast.get_set] at member
  split at member
  · exact each p member
  · exact h.people other p member

theorem store (h : s.Arisen world) (at_ : Located) {p : Person} (arises : p.Arises world .kept) :
    (s.store at_ p).Arisen world :=
  h.setPeople at_.circle (forall_set (h.people at_.circle) arises at_.place)

theorem of_findNamed? (h : s.Arisen world) (circle : Circle) {called : String} {place : Nat}
    {p : Person} (there : findNamed? (s.people circle) called = some (place, p)) :
    p.Arises world .kept :=
  h.people circle p (mem_of_findNamed? there)

theorem of_locateIn? (h : s.Arisen world) {circles : List Circle} {called : String}
    {found : Located} (there : s.locateIn? circles called = some found) :
    found.person.Arises world .kept :=
  h.of_findNamed? found.circle (GameState.findNamed?_of_locateIn? there).2

end GameState.Arisen

/-! ### Commands about people -/

section

variable {world : Settings} {s : GameState}

theorem ensurePerson_arisen (h : s.Arisen world) (called : String) :
    (s.ensurePerson called).Ensures fun r =>
      r.1.Arisen world ∧ r.2.person.Arises world .kept := by
  unfold GameState.ensurePerson
  split
  · next found there => exact .pure ⟨h, h.of_locateIn? there⟩
  · refine .bind (introduce_arises world (sanitizeName called) []) fun p drafted => ?_
    refine .bind (refreshStats_arises h.settings drafted) fun q drawn => .pure ⟨?_, drawn.1⟩
    exact h.setPeople .encountered (forall_append (h.people .encountered) drawn.1)

/-- Setting fields of somebody of a circle leaves a draft; whoever has another name is left alone.
-/
theorem upsertPerson_arises {people : List Person} (each : ∀ p ∈ people, p.Arises world .kept)
    (called : String) (params : Params) :
    (upsertPerson people called (pickFields personKeys PersonField.kind params)).Ensures fun r =>
      (∀ p ∈ r.1, p.Arises world .kept ∨ p.name = r.2.1.name) ∧ r.2.1.Arises world .draft := by
  have others (met : Person) : ∀ p ∈ people, p.Arises world .kept ∨ p.name = met.name :=
    fun p member => .inl (each p member)
  unfold upsertPerson
  split
  · next place known there =>
      have before := each known (mem_of_findNamed? there)
      exact .pure ⟨forall_set (others _) (.inr rfl) place, before.again.told params⟩
  · exact .bind (introduce_arises world _ params) fun p drafted =>
      .pure ⟨forall_append (others p) (.inr rfl), drafted⟩

/-- The people of a circle with the record to start from, if it has nobody of the name. -/
theorem seeded_arises {people : List Person} (known : ∀ p ∈ people, p.Arises world .kept)
    {seed : Option Person} (sown : ∀ p ∈ seed, p.Arises world .kept) (called : String) :
    ∀ p ∈ (match seed with
      | some seed => if hasNamed people called then people else people ++ [seed]
      | none => people), p.Arises world .kept := by
  split
  · next p =>
      split
      · exact known
      · exact forall_append known (sown p rfl)
  · exact known

theorem introduceIn_arisen (h : s.Arisen world) (params : Params) (circle : Circle)
    {seed : Option Person} (sown : ∀ p ∈ seed, p.Arises world .kept) :
    (introduceIn s params circle seed).Ensures fun r => r.1.Arisen world := by
  have seeded := seeded_arises (h.people circle) sown
  unfold introduceIn
  refine .bind (upsertPerson_arises (seeded _) _ params) fun r met => ?_
  have liked : (if params.has "affinity" then
      r.2.1.moveAffinityTo (if r.2.2 then 0 else r.2.1.affinity) (params.value? "affinity")
    else r.2.1).Arises world .draft ∧ (if params.has "affinity" then
      r.2.1.moveAffinityTo (if r.2.2 then 0 else r.2.1.affinity) (params.value? "affinity")
    else r.2.1).name = r.2.1.name := by
    split
    · exact ⟨met.2.liked _ _, rfl⟩
    · exact ⟨met.2, rfl⟩
  refine .bind (refreshStats_arises h.settings liked.1) fun q drawn => .pure ?_
  refine h.setPeople circle fun p member => ?_
  obtain ⟨before, known, rfl⟩ := List.mem_map.mp member
  split
  · exact drawn.1
  · next differs =>
      refine (met.1 before known).resolve_right fun same => ?_
      exact differs (same.trans (drawn.2.trans liked.2).symm)

theorem meetPerson_arisen (h : s.Arisen world) (params : Params) :
    (meetPerson s params).Ensures fun e => e.state.Arisen world :=
  .bind (introduceIn_arisen h params _ (by simp)) fun _ arisen => .pure arisen

theorem updatePerson_arisen (h : s.Arisen world) (params : Params) :
    (updatePerson s params).Ensures fun e => e.state.Arisen world := by
  refine .bind (ensurePerson_arisen h _) fun r arisen => .pure (arisen.1.store _ ?_)
  have changed := arisen.2.changed personUpdateKeys (by decide) params
  split
  · exact changed.liked _ _
  · exact changed

theorem remember_arisen (h : s.Arisen world) (params : Params) :
    (remember s params).Ensures fun e => e.state.Arisen world :=
  .bind (ensurePerson_arisen h _) fun _ arisen =>
    .pure (arisen.1.store _ (arisen.2.remembers _ _))

theorem feel_arisen (h : s.Arisen world) (params : Params) :
    (feel s params).Ensures fun e => e.state.Arisen world :=
  .bind (ensurePerson_arisen h _) fun _ arisen => .pure (arisen.1.store _ (arisen.2.feels _ _))

theorem joinCompanion_arisen (h : s.Arisen world) (params : Params) :
    (joinCompanion s params).Ensures fun e => e.state.Arisen world := by
  refine .bind (introduceIn_arisen h _ _ ?_) fun _ arisen => .pure arisen
  intro p sown
  unfold companionSeed at sown
  split at sown
  · cases sown
  · obtain ⟨_, there, rfl⟩ := Option.map_eq_some_iff.mp sown
    exact (h.of_findNamed? .encountered there).joins

theorem leaveCompanion_arisen (h : s.Arisen world) (params : Params) :
    (leaveCompanion s params).state.Arisen world := by
  unfold leaveCompanion
  split
  · exact h
  · exact h.setPeople .companions fun p member =>
      h.people .companions p (List.mem_of_mem_eraseIdx member)

theorem changeRelation_arisen (h : s.Arisen world) (circle : Circle) (params : Params) :
    (changeRelation circle s params).state.Arisen world := by
  unfold changeRelation
  split
  · exact h
  · next place p there =>
      have moved := (h.of_findNamed? circle there).liked p.affinity (params.value? "affinity")
      refine h.store _ ?_
      split
      · exact moved.changed captiveKeys (by decide) params
      · exact moved

/-! ### Fights -/

theorem capture_arisen (h : s.Arisen world) (called : String) :
    (s.capture called).Arisen world := by
  unfold GameState.capture
  split
  · exact h
  · next found there =>
      have freed := h.setPeople found.circle fun p member =>
        h.people found.circle p (List.mem_of_mem_eraseIdx (i := found.place) member)
      exact freed.setPeople .prisoners
        (forall_append (freed.people .prisoners) (h.of_locateIn? there).captured)

theorem kill_arisen (h : s.Arisen world) (called : String) : (s.kill called).Arisen world := by
  unfold GameState.kill
  split
  · exact h
  · next found there => exact h.store found (h.of_locateIn? there).killed

theorem dispose_arisen (h : s.Arisen world) (called : String) (d : Disposition) :
    (s.dispose called d).Arisen world := by
  cases d with
  | capture => exact capture_arisen h called
  | kill => exact kill_arisen h called
  | release => exact h

theorem disposeAll_arisen (h : s.Arisen world) (dispositions : Pairs Disposition) :
    (dispositions.foldl (fun state (called, d) => state.dispose called d) s).Arisen world :=
  disposeAll_keeps_each (P := GameState.Arisen world)
    (fun _ called d before => dispose_arisen before called d) dispositions h

/-! ### Restoring and growth -/

theorem GameState.Arisen.legalize (h : s.Arisen world) : s.legalize.Arisen world := by
  refine ⟨h.settings, fun circle p member => ?_⟩
  rw [GameState.people_legalize] at member
  obtain ⟨q, merged, rfl⟩ := List.mem_map.mp member
  rw [h.settings]
  exact (forall_mergePeople (h.people circle) (fun _ _ => .merged) q merged).restored

/-- A turn of several people is one of each of them. -/
theorem progressAll_turns {people advanced : List Person} {messages : List String}
    (turn : progressAll world people = .ok (advanced, messages)) :
    List.Forall₂ (Person.Turn world) people advanced := by
  induction people generalizing advanced messages with
  | nil =>
      cases turn
      exact .nil
  | cons p rest ih =>
      obtain ⟨⟨q, _⟩, first, turn⟩ := exists_of_bind_eq_ok turn
      obtain ⟨⟨later, _⟩, others, turn⟩ := exists_of_bind_eq_ok turn
      cases turn
      exact .cons (Person.turn_of_progress first) (ih others)

/-- A turn of everybody is one of each person in each circle; where no stats are kept, nothing
happens. -/
theorem progressPeople_turns {t : GameState} {messages : List String}
    (turn : s.progressPeople = .ok (t, messages)) (circle : Circle) :
    List.Forall₂ (Person.Turn s.settings) (s.people circle) (t.people circle) := by
  unfold GameState.progressPeople at turn
  split at turn
  · cases turn
    exact List.forall₂_same.mpr fun _ _ => .rests
  · obtain ⟨⟨a, _⟩, first, turn⟩ := exists_of_bind_eq_ok turn
    obtain ⟨⟨b, _⟩, second, turn⟩ := exists_of_bind_eq_ok turn
    obtain ⟨⟨c, _⟩, third, turn⟩ := exists_of_bind_eq_ok turn
    obtain ⟨⟨d, _⟩, fourth, turn⟩ := exists_of_bind_eq_ok turn
    obtain ⟨⟨e, _⟩, fifth, turn⟩ := exists_of_bind_eq_ok turn
    cases turn
    cases circle with
    | encountered => exact progressAll_turns first
    | companions => exact progressAll_turns second
    | wives => exact progressAll_turns third
    | slaves => exact progressAll_turns fourth
    | prisoners => exact progressAll_turns fifth

/-- What a turn makes of people who have something, all of them are after the turn. -/
theorem forall_of_turns {P Q : Person → Prop} {people after : List Person}
    (turns : List.Forall₂ (Person.Turn world) people after) (each : ∀ p ∈ people, P p)
    (turned : ∀ p q, P p → p.Turn world q → Q q) : ∀ q ∈ after, Q q := by
  induction turns with
  | nil => exact List.forall_mem_nil Q
  | cons turn _ ih =>
      obtain ⟨first, rest⟩ := List.forall_mem_cons.mp each
      exact List.forall_mem_cons.mpr ⟨turned _ _ first turn, ih rest⟩

theorem names_of_turns {people after : List Person}
    (turns : List.Forall₂ (Person.Turn world) people after) :
    after.map Person.foldedName = people.map Person.foldedName := by
  induction turns with
  | nil => rfl
  | cons turn _ ih =>
      have name : _ = _ := congrArg fold turn.name
      exact congrArg₂ List.cons name ih

theorem progressPeople_arisen {t : GameState} {messages : List String} (h : s.Arisen world)
    (turn : s.progressPeople = .ok (t, messages)) : t.Arisen world := by
  have turns := progressPeople_turns turn
  obtain ⟨cast, rfl⟩ := progressPeople_eq_ok turn
  refine ⟨h.settings, fun circle => ?_⟩
  rw [h.settings] at turns
  exact forall_of_turns (turns circle) (h.people circle) fun _ _ => .turned

end

/-! ### What leaves people alone -/

/-- The people and the settings are the same in both states. -/
structure GameState.SamePeople (s t : GameState) : Prop where
  cast : t.cast = s.cast
  settings : t.settings = s.settings

theorem GameState.SamePeople.refl (s : GameState) : s.SamePeople s := ⟨rfl, rfl⟩

theorem GameState.SamePeople.trans {s t u : GameState} (h : s.SamePeople t) (k : t.SamePeople u) :
    s.SamePeople u := ⟨k.cast.trans h.cast, k.settings.trans h.settings⟩

theorem GameState.Arisen.of_samePeople {world : Settings} {s t : GameState} (h : s.Arisen world)
    (same : s.SamePeople t) : t.Arisen world := by
  refine ⟨same.settings.trans h.settings, fun circle => ?_⟩
  rw [GameState.people, same.cast]
  exact h.people circle

section

variable {s t : GameState} {effect : Effect}

theorem withInventory_samePeople {worn : Bool} {inventory : List Item}
    (h : s.withInventory worn inventory = .ok t) : s.SamePeople t := by
  obtain ⟨player, rfl, _⟩ := withInventory_eq_ok h
  exact ⟨rfl, rfl⟩

theorem withStatus_samePeople {effects : List StatusEffect} (h : s.withStatus effects = .ok t) :
    s.SamePeople t := by
  obtain ⟨_, _, h⟩ := exists_of_bind_eq_ok h
  rw [← Except.ok.inj h]
  exact ⟨rfl, rfl⟩

theorem settleTrial_samePeople {success : Bool} (h : settleTrial s success = .ok effect) :
    s.SamePeople effect.state := by
  obtain ⟨_, _, h⟩ := exists_of_bind_eq_ok h
  rw [← Except.ok.inj h]
  exact ⟨rfl, rfl⟩

/-- After the dispositions of a fight people are left alone. -/
theorem applyCombatResult_samePeople {r : CombatResult} (h : applyCombatResult s r = .ok effect) :
    (s.fought r).SamePeople effect.state := by
  obtain ⟨settled, inventory, trial⟩ := applyCombatResult_eq_ok h
  have stocked : (s.fought r).SamePeople settled := by
    rcases inventory with ⟨_, rfl⟩ | ⟨items, player, _, _, rfl⟩
    · exact .refl _
    · exact ⟨rfl, rfl⟩
  rcases trial with kept | ⟨_, _, trial, ended, decided⟩
  · exact kept ▸ stocked
  · exact decided ▸ stocked.trans (settleTrial_samePeople ended)

/-- Of what the player feels, only the end of a fight touches people. -/
theorem GameState.Deed.samePeople {params : Params} {tag : String} (other : tag ≠ "COMBAT_END")
    (h : s.Deed params tag t) : s.SamePeople t := by
  cases h with
  | rest => exact .refl s
  | grown _ _ stored => exact withInventory_samePeople stored
  | lessened _ _ stored => exact withInventory_samePeople stored
  | lost _ stored => exact withInventory_samePeople stored
  | worn _ stored => exact withInventory_samePeople stored
  | acquired _ stored => exact withStatus_samePeople stored
  | ended _ stored => exact withStatus_samePeople stored
  | settled _ settled => exact settleTrial_samePeople settled
  | fought => exact absurd rfl other
  | begun | changed | esteemed | tried | provoked => exact ⟨rfl, rfl⟩

theorem tickStatus_samePeople {ended : List String} (h : s.tickStatus = .ok (t, ended)) :
    s.SamePeople t := by
  obtain ⟨player, rfl, _⟩ := tickStatus_eq_ok h
  exact ⟨rfl, rfl⟩

end

/-! ### Steps -/

section

variable {world : Settings} {s t : GameState}

theorem applyCombatResult_arisen {r : CombatResult} {effect : Effect} (h : s.Arisen world)
    (done : applyCombatResult s r = .ok effect) : effect.state.Arisen world := by
  have before : GameState.Arisen world { s with
      pendingCombat := none, player := s.player.afterFight r } := ⟨h.settings, h.people⟩
  exact (disposeAll_arisen before r.dispositions).of_samePeople (applyCombatResult_samePeople done)

theorem endFight_arisen {params : Params} {effect : Effect} (h : s.Arisen world)
    (done : endFight s params = .ok effect) : effect.state.Arisen world := by
  unfold endFight at done
  split at done
  · exact Except.ok.inj done ▸ h
  · exact applyCombatResult_arisen h done

theorem endTurn_arisen {messages : List String} (h : s.Arisen world)
    (done : s.endTurn = .ok (t, messages)) : t.Arisen world := by
  obtain ⟨ticked, ended, cast, news, ticking, growing, -, rfl⟩ := endTurn_eq_ok done
  have after := progressPeople_arisen (h.of_samePeople (tickStatus_samePeople ticking)) growing
  have counted : GameState.Arisen world { ticked with cast := cast, turn := ticked.turn + 1 } :=
    ⟨after.settings, after.people⟩
  exact counted.legalize

theorem people_arisen (h : s.Arisen world) {r : CommandRule} (member : r ∈ Registry.people)
    (params : Params) : (r.run s params).Ensures fun e => e.state.Arisen world := by
  simp only [Registry.people, List.mem_cons, List.not_mem_nil, or_false] at member
  rcases member with rfl | rfl | rfl | rfl | rfl | rfl | rfl | rfl | rfl
  · exact meetPerson_arisen h params
  · exact updatePerson_arisen h params
  · exact remember_arisen h params
  · exact feel_arisen h params
  · exact joinCompanion_arisen h params
  · exact Registry.certain_ensures (leaveCompanion_arisen h params)
  · exact Registry.certain_ensures (changeRelation_arisen h .wives params)
  · exact Registry.certain_ensures (changeRelation_arisen h .slaves params)
  · exact Registry.certain_ensures (changeRelation_arisen h .prisoners params)

theorem errand_samePeople (s : GameState) {r : CommandRule} (member : r ∈ Registry.errands)
    (params : Params) : (r.run s params).Ensures fun e => s.SamePeople e.state := by
  intro supply e rest run
  have aside := (Registry.aside_of_errand member).ensures s params supply e rest run
  have hero := Registry.sameHero_of_errand member s params supply e rest run
  exact ⟨aside.2, hero.settings⟩

theorem deed_samePeople (s : GameState) {r : CommandRule} (member : r ∈ Registry.deeds)
    (other : upper r.tag ≠ "COMBAT_END") (params : Params) :
    (r.run s params).Ensures fun e => s.SamePeople e.state :=
  (Registry.deed_of_rule member s params).mono fun _ done => done.samePeople other

theorem rule_arisen (h : s.Arisen world) {r : CommandRule} (member : r ∈ Registry.rules)
    (params : Params) : (r.run s params).Ensures fun e => e.state.Arisen world := by
  rcases Registry.bystander_or_deed member with aside | deed
  · rcases List.mem_append.mp aside with people | errand
    · exact people_arisen h people params
    · exact (errand_samePeople s errand params).mono fun _ => h.of_samePeople
  · by_cases fight : upper r.tag = "COMBAT_END"
    · obtain rfl := Registry.eq_of_upper_tag member Registry.endFight_mem
        (fight.trans (by decide +kernel))
      exact Registry.fallible_ensures fun _ => endFight_arisen h
    · exact (deed_samePeople s deed fight params).mono fun _ => h.of_samePeople

theorem Event.Leads.arisen {event : Event} (leads : event.Leads s t) (h : s.Arisen world) :
    t.Arisen world := by
  cases leads with
  | @command c _ _ _ _ run =>
      exact dispatch_keeps (P := GameState.Arisen world) (Q := GameState.Arisen world) run
        (fun _ member _ => rule_arisen h member c.params) fun _ restored => restored.legalize
  | turnEnd run => exact endTurn_arisen h run
  | fight formed run => exact (applyCombatResult_arisen h run).legalize

end

/-- A new game knows nobody. -/
theorem begin_nobody {playerName : String} {settings : Settings} {tier : Option String}
    {location : String} {s : GameState}
    (h : GameState.begin playerName settings tier location = .ok s) (circle : Circle) :
    s.people circle = [] := by
  obtain ⟨label, player, rfl, _⟩ := begin_eq_ok h
  cases circle <;> rfl

/-- In a reached state everybody's record has come about in play. -/
theorem Reachable.arises {s : GameState} (reached : Reachable s) (circle : Circle) :
    ∀ p ∈ s.people circle, p.Arises s.settings .kept := by
  have arisen : s.Arisen s.settings := by
    refine reached.invariant (P := fun s => s.Arisen s.settings) ?_ ?_
    · intro _ _ _ _ s start
      exact ⟨rfl, fun circle => by rw [begin_nobody start]; simp⟩
    · intro event s t _ before leads
      have after := leads.arisen before
      exact after.settings ▸ after
  exact arisen.people circle

end Ascent
