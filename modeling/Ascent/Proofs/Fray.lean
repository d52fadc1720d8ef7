import Ascent.Proofs.Deeds

/-!
Fights, in a game and in its twin.

A prisoner is put after the others of the circle, and so laid over one of the same name when people
are merged. Only then does it matter which fields of the prisoner were ever set. Where nobody is
taken while there is a prisoner of the name, what comes of a fight is the same in both games.

Main exports: `GameState.DisposesApart`, `disposeAll_twin`, `applyCombatResult_kin`,
`Registry.rule_kin`.
-/

namespace Ascent

open Text

/-! ### Prisoners apart -/

namespace GameState

/-- Who would be taken prisoner under a name has no namesake among the prisoners. -/
def CapturesApart (s : GameState) (called : String) : Prop :=
  ∀ found, s.locateIn? (Circle.all.filter (· ≠ .prisoners)) called = some found →
    found.person.foldedName ∉ (s.people .prisoners).map Person.foldedName

/-- Dispositions are carried out one after another, and nobody is taken prisoner who has a namesake
there. -/
def DisposesApart (s : GameState) : Pairs Disposition → Prop
  | [] => True
  | (called, d) :: rest =>
    (d = .capture → s.CapturesApart called) ∧ (s.dispose called d).DisposesApart rest

instance (s : GameState) (called : String) : Decidable (s.CapturesApart called) :=
  inferInstanceAs (Decidable (∀ found ∈ s.locateIn? (Circle.all.filter (· ≠ .prisoners)) called,
    found.person.foldedName ∉ (s.people .prisoners).map Person.foldedName))

instance decidableDisposesApart : (s : GameState) → (dispositions : Pairs Disposition) →
    Decidable (s.DisposesApart dispositions)
  | _, [] => isTrue trivial
  | s, (called, d) :: rest =>
    have := decidableDisposesApart (s.dispose called d) rest
    inferInstanceAs (Decidable
      ((d = .capture → s.CapturesApart called) ∧ (s.dispose called d).DisposesApart rest))

variable {s t : GameState}

theorem people_setPeople (s : GameState) (circle other : Circle) (people : List Person) :
    (s.setPeople circle people).people other = if other = circle then people else s.people other :=
  Cast.get_set _ _ _ _

theorem Twin.setPeople (h : s.Twin t) (circle : Circle) {people others : List Person}
    (twins : List.Forall₂ Person.Twin people others) :
    (s.setPeople circle people).Twin (t.setPeople circle others) := by
  obtain ⟨player, cast, rfl, twin, kept⟩ := h
  refine ⟨player, cast.set circle others, rfl, twin, fun other => ?_⟩
  rw [people_setPeople, Cast.get_set]
  split
  · exact twins
  · exact kept other

theorem Distinct.setPeople (h : s.Distinct) (circle : Circle) {people : List Person}
    (distinct : (people.map Person.foldedName).Nodup) : (s.setPeople circle people).Distinct := by
  intro other
  rw [people_setPeople]
  split
  · exact distinct
  · exact h other

theorem kill_twin (h : s.Twin t) (distinct : s.Distinct) (called : String) :
    (s.kill called).Twin (t.kill called) ∧ (s.kill called).Distinct := by
  unfold kill
  rcases h.locateIn? Circle.all called with ⟨none, none'⟩ |
    ⟨circle, place, p, q, there, there', twin, at_⟩
  · rw [none, none']
    exact ⟨h, distinct⟩
  · rw [there, there']
    refine ⟨h.setPeople circle (set_twin (h.people circle) twin.killed place), ?_⟩
    have same : p.killed.foldedName = p.foldedName := rfl
    have names := names_set at_ same
    exact distinct.setPeople circle (names ▸ distinct circle)

theorem capture_twin (h : s.Twin t) (distinct : s.Distinct) {called : String}
    (apart : s.CapturesApart called) :
    (s.capture called).Twin (t.capture called) ∧ (s.capture called).Distinct := by
  unfold capture
  rcases h.locateIn? (Circle.all.filter (· ≠ .prisoners)) called with ⟨none, none'⟩ |
    ⟨circle, place, p, q, there, there', twin, at_⟩
  · rw [none, none']
    exact ⟨h, distinct⟩
  · rw [there, there']
    have fresh := apart _ there
    dsimp only at fresh
    have freed := h.setPeople circle (eraseIdx_twin (h.people circle) place)
    have erased := (List.eraseIdx_sublist (s.people circle) place).map Person.foldedName
    have left := distinct.setPeople circle ((distinct circle).sublist erased)
    refine ⟨freed.setPeople .prisoners (append_twin (freed.people .prisoners) twin.captured), ?_⟩
    refine left.setPeople .prisoners ?_
    rw [List.map_append, List.nodup_append]
    refine ⟨left .prisoners, by simp, ?_⟩
    rintro a known b new rfl
    have named : a = p.foldedName := List.mem_singleton.mp new
    rw [people_setPeople] at known
    split at known
    · next same =>
        subst same
        exact fresh (named ▸ erased.mem known)
    · exact fresh (named ▸ known)

theorem dispose_twin (h : s.Twin t) (distinct : s.Distinct) {called : String} {d : Disposition}
    (apart : d = .capture → s.CapturesApart called) :
    (s.dispose called d).Twin (t.dispose called d) ∧ (s.dispose called d).Distinct := by
  cases d with
  | capture =>
      dsimp only [dispose]
      exact capture_twin h distinct (apart rfl)
  | kill =>
      dsimp only [dispose]
      exact kill_twin h distinct called
  | release => exact ⟨h, distinct⟩

theorem disposeAll_twin (h : s.Twin t) (distinct : s.Distinct) {dispositions : Pairs Disposition}
    (apart : s.DisposesApart dispositions) :
    (dispositions.foldl (fun state (called, d) => state.dispose called d) s).Twin
        (dispositions.foldl (fun state (called, d) => state.dispose called d) t) ∧
      (dispositions.foldl (fun state (called, d) => state.dispose called d) s).Distinct := by
  induction dispositions generalizing s t with
  | nil => exact ⟨h, distinct⟩
  | cons first rest ih =>
      obtain ⟨twin, distinct⟩ := dispose_twin h distinct apart.1
      exact ih twin distinct apart.2

theorem locateIn?_of_cast (same : t.cast = s.cast) : t.locateIn? = s.locateIn? := by
  have people : t.people = s.people := funext fun circle => congrArg (·.get circle) same
  funext circles called
  rw [locateIn?, locateIn?, people]

/-- Only people matter to what becomes of people. -/
theorem dispose_of_cast (same : t.cast = s.cast) (called : String) (d : Disposition) :
    (t.dispose called d).cast = (s.dispose called d).cast := by
  have people : t.people = s.people := funext fun circle => congrArg (·.get circle) same
  cases d with
  | release => exact same
  | kill =>
      dsimp only [dispose, kill]
      rw [locateIn?_of_cast same]
      split
      · exact same
      · dsimp only [store, setPeople]
        rw [same, people]
  | capture =>
      dsimp only [dispose, capture]
      rw [locateIn?_of_cast same]
      split
      · exact same
      · dsimp only [setPeople, GameState.people]
        rw [same]

/-- Only people matter to where prisoners come. -/
theorem DisposesApart.of_cast (same : t.cast = s.cast) {dispositions : Pairs Disposition}
    (h : s.DisposesApart dispositions) : t.DisposesApart dispositions := by
  induction dispositions generalizing s t with
  | nil => trivial
  | cons first rest ih =>
      have people : t.people = s.people := funext fun circle => congrArg (·.get circle) same
      obtain ⟨called, d⟩ := first
      refine ⟨fun taken found at_ => ?_, ih (dispose_of_cast same called d) h.2⟩
      rw [locateIn?_of_cast same] at at_
      rw [people]
      exact h.1 taken found at_

end GameState

/-! ### Results of fights -/

section

variable {s t : GameState} {r : CombatResult}

theorem fought_twin (h : s.Twin t) (distinct : s.Distinct)
    (apart : s.DisposesApart r.dispositions) :
    (s.fought r).Twin (t.fought r) ∧ (s.fought r).Distinct := by
  obtain ⟨player, cast, rfl, twin, twins⟩ := h
  have after : GameState.Twin
      { s with pendingCombat := none, player := s.player.afterFight r }
      { s.amid player cast with pendingCombat := none, player := player.afterFight r } :=
    ⟨player.afterFight r, cast, rfl, twin.afterFight r, twins⟩
  have people : GameState.cast
      { s with pendingCombat := none, player := s.player.afterFight r } = s.cast := rfl
  exact GameState.disposeAll_twin after distinct (.of_cast people apart)

theorem takeStock_kin (h : s.Kin t) : Agree GameState.Kin (s.takeStock r) (t.takeStock r) := by
  unfold GameState.takeStock
  split
  · exact .ok h
  · next items _ =>
      exact .bind (h.player.refresh items) fun _ _ twin =>
        .ok ((h.withPlayer twin).withInventory items)

theorem concludeFight_kin (h : s.Kin t) :
    Agree Effect.Kin (s.concludeFight r) (t.concludeFight r) := by
  unfold GameState.concludeFight
  rw [h.player.phase]
  dsimp only
  split
  · refine .bind (settleTrial_kin h _) fun trial trial' same => .ok ⟨same.state, rfl, ?_⟩
    rw [same.messages]
  · exact .ok ⟨h, rfl, rfl⟩

theorem applyCombatResult_kin (h : s.Twin t) (distinct : s.Distinct)
    (apart : s.DisposesApart r.dispositions) :
    Agree Effect.Kin (applyCombatResult s r) (applyCombatResult t r) := by
  obtain ⟨twin, distinct⟩ := fought_twin h distinct apart
  rw [applyCombatResult_eq, applyCombatResult_eq]
  exact .bind (takeStock_kin (twin.kin distinct)) fun _ _ kin => concludeFight_kin kin

theorem endFight_kin {params : Params} (h : s.Twin t) (distinct : s.Distinct)
    (apart : ∀ r, combatResultOf? params = some r → s.DisposesApart r.dispositions) :
    Agree Effect.Kin (endFight s params) (endFight t params) := by
  unfold endFight
  split
  · exact .ok ⟨h.kin distinct, rfl, rfl⟩
  · next r told => exact applyCombatResult_kin h distinct (apart r told)

end

/-! ### The rules -/

namespace Registry

section

variable {s t : GameState} {params : Params}

theorem fallible_kin {f : GameState → Params → Except Fault Effect}
    (h : Agree Effect.Kin (f s params) (f t params)) :
    Play.Agree Effect.Kin (fallible f s params) (fallible f t params) := .ofExcept h

/-- What the player feels is the same in both games, where a change of stats is reckoned exactly and
prisoners keep apart. -/
theorem deed_kin {r : CommandRule} (member : r ∈ deeds) (h : s.Twin t) (distinct : s.Distinct)
    (exact : upper r.tag = upper "STAT_CHANGE" → s.player.Exact)
    (apart : upper r.tag = upper "COMBAT_END" →
      ∀ result, combatResultOf? params = some result → s.DisposesApart result.dispositions) :
    Play.Agree Effect.Kin (r.run s params) (r.run t params) := by
  have kin := h.kin distinct
  simp only [deeds, List.mem_cons, List.not_mem_nil, or_false] at member
  rcases member with rfl | rfl | rfl | rfl | rfl | rfl | rfl | rfl | rfl | rfl | rfl | rfl
  · exact fallible_kin (addItem_kin kin)
  · exact fallible_kin (removeItem_kin kin)
  · exact fallible_kin (wearItem_kin kin)
  · exact fallible_kin (wearItem_kin kin)
  · exact fallible_kin (changePlayerStat_kin kin (exact rfl))
  · exact fallible_kin (acquireStatus_kin kin)
  · exact fallible_kin (removeStatus_kin kin)
  · exact fallible_kin (changeReputation_kin kin)
  · exact .pure (beginTrial_kin kin)
  · exact fallible_kin (endTrial_kin kin)
  · exact certain_kin (beginFight_kin kin params)
  · exact fallible_kin (endFight_kin h distinct (apart rfl))

theorem rule_kin {r : CommandRule} (member : r ∈ rules) (h : s.Twin t) (distinct : s.Distinct)
    (exact : upper r.tag = upper "STAT_CHANGE" → s.player.Exact)
    (apart : upper r.tag = upper "COMBAT_END" →
      ∀ result, combatResultOf? params = some result → s.DisposesApart result.dispositions) :
    Play.Agree Effect.Kin (r.run s params) (r.run t params) := by
  rcases bystander_or_deed member with aside | deed
  · rcases List.mem_append.mp aside with met | errand
    · exact people_kin met h distinct params
    · exact errand_kin errand (h.kin distinct) params
  · exact deed_kin deed h distinct exact apart

end
end Registry
end Ascent
