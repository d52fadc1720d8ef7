import Ascent.Proofs.Contact
import Ascent.Proofs.Distinct
import Ascent.Proofs.Namesakes

/-!
What is lost, and by what.

Commands put records in the place of namesakes or after the others, and a merge leaves one record of
each name. So a name that is on a list stays there. Only three commands take something away, each
the one thing that it names; a fight moves those it captures, and the combat screen hands back an
inventory of its own; and status effects end with their last turn.

Main exports: `Shelf`, `GameState.names`, `Event.Removes`, `GameState.Keeps`, `people_keeps`,
`errand_keeps`, `GameState.Deed.keeps`, `applyCombatResult_keeps`, `endTurn_keeps`, `rule_keeps`,
`kept_or_removed`.
-/

namespace Ascent

open Text

/-! ### The lists of a state -/

/-- The lists of a state: the circles of people, and what else is kept. -/
inductive Shelf where
  | circle (c : Circle)
  | inventory
  | statuses
  | skills
  | lore
  | factions
  | memories

/-- The names of records, case aside. -/
def namesOf {α : Type} [Named α] (records : List α) : List String :=
  records.map fun r => fold (name r)

/-- The names on a list of a state, case aside; of memories their texts. -/
def GameState.names (s : GameState) : Shelf → List String
  | .circle c => namesOf (s.people c)
  | .inventory => namesOf s.inventory
  | .statuses => namesOf s.player.statusEffects
  | .skills => namesOf s.skills
  | .lore => namesOf s.lore
  | .factions => namesOf s.factions
  | .memories => s.memories

/-- What happens is meant to take a name from a list. A companion leaves, an item or a status is
removed: the command takes the name that it names. Who is captured in a fight goes over to the
prisoners. The combat screen may hand back an inventory. A status ends with the turn, if all of its
name do. -/
inductive Event.Removes (s t : GameState) : Event → Shelf → String → Prop where
  | companion {c : Command} (tag : upper c.name = "COMPANION_REMOVE") :
      Removes s t (.command c) (.circle .companions)
        (fold (sanitizeName (c.params.required "name")))
  | item {c : Command} (tag : upper c.name = "ITEM_REMOVE") :
      Removes s t (.command c) .inventory (fold (sanitizeName (c.params.required "name")))
  | status {c : Command} (tag : upper c.name = "STATUS_REMOVED") :
      Removes s t (.command c) .statuses (fold (sanitizeName (c.params.required "name")))
  | captive {event : Event} {r : CombatResult} {called : String} {circle : Circle}
      (tells : event.Tells r) (disposed : (called, .capture) ∈ r.dispositions)
      (outside : circle ≠ .prisoners)
      (held : fold (sanitizeName called) ∈ t.names (.circle .prisoners)) :
      Removes s t event (.circle circle) (fold (sanitizeName called))
  | spoils {r : CombatResult} {key : String} (handed : r.finalInventory.isSome) :
      Removes s t (.fight r) .inventory key
  | expired {key : String}
      (ends : ∀ e ∈ s.player.statusEffects, fold e.name = key → e.expires = true) :
      Removes s t .turnEnd .statuses key

/-! ### Lists of records -/

section

variable {α : Type} [Named α] {records : List α} {r q : α} {place : Nat} {key : String}

theorem mem_namesOf : key ∈ namesOf records ↔ ∃ r ∈ records, fold (name r) = key := List.mem_map

theorem namesOf_append (records others : List α) :
    namesOf (records ++ others) = namesOf records ++ namesOf others := List.map_append

/-- A record in the place of a namesake changes no name. -/
theorem namesOf_set (there : records[place]? = some q) (same : fold (name r) = fold (name q)) :
    namesOf (records.set place r) = namesOf records := by
  induction records generalizing place with
  | nil => cases there
  | cons first rest ih =>
      cases place with
      | zero =>
          obtain rfl : first = q := Option.some.inj there
          exact congrArg (· :: namesOf rest) same
      | succ place => exact congrArg (fold (name first) :: ·) (ih there)

/-- Without one record, no name is missing but that of the record. -/
theorem mem_namesOf_eraseIdx (there : records[place]? = some q) (known : key ∈ namesOf records) :
    key ∈ namesOf (records.eraseIdx place) ∨ key = fold (name q) := by
  induction records generalizing place with
  | nil => cases there
  | cons first rest ih =>
      cases place with
      | zero =>
          obtain rfl : first = q := Option.some.inj there
          rcases List.mem_cons.mp known with same | later
          · exact .inr same
          · exact .inl later
      | succ place =>
          rcases List.mem_cons.mp known with rfl | later
          · exact .inl List.mem_cons_self
          · rcases ih there later with kept | lost
            · exact .inl (List.mem_cons_of_mem _ kept)
            · exact .inr lost

end

theorem mem_names_legalizePeople {people : List Person} {settings : Settings} {key : String} :
    key ∈ namesOf (legalizePeople people settings) ↔ key ∈ namesOf people := by
  have names : namesOf (legalizePeople people settings) = (namesOf people).eraseDups :=
    map_name_legalizePeople people settings
  rw [names, List.mem_eraseDups]

theorem Placed.mem_names {p : Person} {people after : List Person} {key : String}
    (placed : Placed p people after) (known : key ∈ namesOf people) : key ∈ namesOf after := by
  cases placed with
  | set there same => rwa [namesOf_set there same]
  | append =>
      rw [namesOf_append]
      exact List.mem_append_left _ known
  | both there same =>
      rw [namesOf_append, namesOf_set there same]
      exact List.mem_append_left _ known

/-! ### Steps that keep what there is -/

/-- Over a part of a run no name is lost from any list, but what may be lost, and no stack runs out
without being removed. -/
structure GameState.Keeps (lost : Shelf → String → Prop) (s t : GameState) : Prop where
  kept : ∀ shelf, ∀ key ∈ s.names shelf, key ∈ t.names shelf ∨ lost shelf key
  stocked : (∀ i ∈ s.inventory, 0 < i.quantity) → ∀ i ∈ t.inventory, 0 < i.quantity

namespace GameState

variable {s t : GameState} {lost lost' : Shelf → String → Prop}

namespace Keeps

theorem refl (s : GameState) : s.Keeps lost s := ⟨fun _ _ known => .inl known, fun h => h⟩

theorem mono (h : s.Keeps lost t) (more : ∀ shelf key, lost shelf key → lost' shelf key) :
    s.Keeps lost' t :=
  ⟨fun shelf key known => (h.kept shelf key known).imp_right (more shelf key), h.stocked⟩

theorem trans {u : GameState} (h : s.Keeps lost t) (k : t.Keeps lost u) : s.Keeps lost u := by
  constructor
  · intro shelf key known
    rcases h.kept shelf key known with there | gone
    · exact k.kept shelf key there
    · exact .inr gone
  · exact fun stocked => k.stocked (h.stocked stocked)

theorem of_same (names : t.names = s.names) (inventory : t.inventory = s.inventory) :
    s.Keeps lost t := by
  constructor
  · intro shelf key known
    rw [names]
    exact .inl known
  · rw [inventory]
    exact fun stocked => stocked

/-- Restoring loses no name, and no stack of those that have not run out. -/
theorem legalize (h : s.Keeps lost t) (legal : s.Legal) : s.Keeps lost t.legalize := by
  have stocked := h.stocked legal.stocked
  have inventory : t.legalize.inventory = t.inventory := inventory_legalize stocked
  constructor
  · intro shelf key known
    refine (h.kept shelf key known).imp_left fun kept => ?_
    cases shelf with
    | circle c =>
        rw [names, people_legalize]
        exact mem_names_legalizePeople.mpr kept
    | inventory =>
        rw [names, inventory]
        exact kept
    | _ => exact kept
  · intro _
    rw [inventory]
    exact stocked

/-- A circle with other people in it, if all names are there still. -/
theorem setPeople {circle : Circle} {people : List Person}
    (kept : ∀ key ∈ namesOf (s.people circle), key ∈ namesOf people ∨ lost (.circle circle) key) :
    s.Keeps lost (s.setPeople circle people) := by
  constructor
  · intro shelf key known
    cases shelf with
    | circle c =>
        rw [names, people_setPeople]
        split
        · next same =>
            subst same
            exact kept key known
        · exact .inl known
    | _ => exact .inl known
  · exact fun stocked => stocked

/-- Other stats of the player, if all status effects are there still. -/
theorem withPlayer {player : StatBlock}
    (kept : ∀ key ∈ namesOf s.player.statusEffects,
      key ∈ namesOf player.statusEffects ∨ lost .statuses key) :
    s.Keeps lost { s with player := player } := by
  constructor
  · intro shelf key known
    cases shelf with
    | statuses => exact kept key known
    | _ => exact .inl known
  · exact fun stocked => stocked

/-- Another inventory, if the names are there still and no stack has run out. -/
theorem withInventory {worn : Bool} {inventory : List Item}
    (stored : s.withInventory worn inventory = .ok t)
    (kept : ∀ key ∈ namesOf s.inventory, key ∈ namesOf inventory ∨ lost .inventory key)
    (stocked : (∀ i ∈ s.inventory, 0 < i.quantity) → ∀ i ∈ inventory, 0 < i.quantity) :
    s.Keeps lost t := by
  obtain ⟨player, rfl, same⟩ := withInventory_eq_ok stored
  have effects : player.statusEffects = s.player.statusEffects :=
    same.elim effects_of_refresh fun kept => congrArg (·.statusEffects) kept.2
  constructor
  · intro shelf key known
    cases shelf with
    | inventory => exact kept key known
    | statuses =>
        refine .inl ?_
        rw [names, effects]
        exact known
    | _ => exact .inl known
  · exact stocked

end Keeps

theorem Puts.keeps (h : s.Puts t) : s.Keeps lost t := by
  obtain ⟨circle, people, rfl, rfl | ⟨p, placed⟩⟩ := h
  · exact .setPeople fun _ known => .inl known
  · exact .setPeople fun _ known => .inl (placed.mem_names known)

end GameState

open GameState

/-! ### Commands about people -/

section

variable {s : GameState} {params : Params} {lost : Shelf → String → Prop}

theorem mem_names_sown {people : List Person} {called key : String} {seed : Option Person}
    (known : key ∈ namesOf people) : key ∈ namesOf (sown people called seed) := by
  cases seed with
  | none => exact known
  | some seed =>
      rcases sown_eq people called seed with same | more
      · rwa [same]
      · rw [more, namesOf_append]
        exact List.mem_append_left _ known

theorem joinCompanion_keeps (distinct : s.Distinct) (params : Params) :
    (joinCompanion s params).Ensures fun e => s.Keeps lost e.state := by
  refine (joinCompanion_puts distinct params).mono ?_
  rintro e ⟨people, p, same, placed, _⟩
  rw [same]
  exact .setPeople fun _ known => .inl (placed.mem_names (mem_names_sown known))

/-- Of the companions at most the one who is named leaves. -/
theorem leaveCompanion_keeps
    (leaves : lost (.circle .companions) (fold (sanitizeName (params.required "name")))) :
    s.Keeps lost (leaveCompanion s params).state := by
  unfold leaveCompanion
  split
  · exact .refl s
  · next place p found =>
      have named : fold (name p) = fold (sanitizeName (params.required "name")) :=
        (fold_name_of_findNamed? found).2
      refine .setPeople fun key known => ?_
      have there : (s.people .companions)[place]? = some p := getElem?_of_findNamed? found
      rcases mem_namesOf_eraseIdx there known with stays | gone
      · exact .inl stays
      · rw [gone, named]
        exact .inr leaves

theorem people_keeps (distinct : s.Distinct) {r : CommandRule} (member : r ∈ Registry.people)
    (leaves : upper r.tag = "COMPANION_REMOVE" →
      lost (.circle .companions) (fold (sanitizeName (params.required "name")))) :
    (r.run s params).Ensures fun e => s.Keeps lost e.state := by
  simp only [Registry.people, List.mem_cons, List.not_mem_nil, or_false] at member
  rcases member with rfl | rfl | rfl | rfl | rfl | rfl | rfl | rfl | rfl
  · exact (meetPerson_puts distinct params).mono fun _ => Puts.keeps
  · exact (updatePerson_puts s params).mono fun _ => Puts.keeps
  · exact (remember_puts s params).mono fun _ => Puts.keeps
  · exact (feel_puts s params).mono fun _ => Puts.keeps
  · exact joinCompanion_keeps distinct params
  · exact Registry.certain_ensures (leaveCompanion_keeps (leaves (by decide +kernel)))
  · exact Registry.certain_ensures (changeRelation_puts .wives s params).keeps
  · exact Registry.certain_ensures (changeRelation_puts .slaves s params).keeps
  · exact Registry.certain_ensures (changeRelation_puts .prisoners s params).keeps

end

/-! ### What is known -/

section

variable {s t : GameState} {params : Params} {effect : Effect} {lost : Shelf → String → Prop}

theorem mem_names_upsertLore {entries : List LoreEntry} {key : String}
    (known : key ∈ namesOf entries) (called : String) (fields : List (LoreField × FieldValue)) :
    key ∈ namesOf (upsertLore entries called fields).1 := by
  unfold upsertLore
  split
  · next place entry found =>
      have same : fold (name (entry.putAll fields)) = fold (name entry) :=
        congrArg fold (entry.name_putAll fields)
      rwa [namesOf_set (getElem?_of_findNamed? found) same]
  · rw [namesOf_append]
    exact List.mem_append_left _ known

theorem mem_names_upsertFaction {factions : List Faction} {key : String}
    (known : key ∈ namesOf factions) (called : String)
    (fields : List (FactionField × FieldValue)) :
    key ∈ namesOf (upsertFaction factions called fields).1 := by
  unfold upsertFaction
  split
  · next place faction found =>
      have same : fold (name (faction.putAll fields)) = fold (name faction) :=
        congrArg fold (faction.name_putAll fields)
      rwa [namesOf_set (getElem?_of_findNamed? found) same]
  · rw [namesOf_append]
    exact List.mem_append_left _ known

theorem keeps_withLore {entries : List LoreEntry} (location : String)
    (kept : ∀ key ∈ namesOf s.lore, key ∈ namesOf entries) :
    s.Keeps lost { s with lore := entries, location := location } := by
  constructor
  · intro shelf key known
    cases shelf with
    | lore => exact .inl (kept key known)
    | _ => exact .inl known
  · exact fun stocked => stocked

theorem keeps_withFactions {factions : List Faction}
    (kept : ∀ key ∈ namesOf s.factions, key ∈ namesOf factions) :
    s.Keeps lost { s with factions := factions } := by
  constructor
  · intro shelf key known
    cases shelf with
    | factions => exact .inl (kept key known)
    | _ => exact .inl known
  · exact fun stocked => stocked

theorem keeps_withSkills {skills : List Skill}
    (kept : ∀ key ∈ namesOf s.skills, key ∈ namesOf skills) :
    s.Keeps lost { s with skills := skills } := by
  constructor
  · intro shelf key known
    cases shelf with
    | skills => exact .inl (kept key known)
    | _ => exact .inl known
  · exact fun stocked => stocked

theorem updateFaction_keeps : s.Keeps lost (updateFaction s params).state := by
  dsimp only [updateFaction]
  exact keeps_withFactions fun _ known => mem_names_upsertFaction known _ _

theorem discoverPlace_keeps : s.Keeps lost (discoverPlace s params).state := by
  dsimp only [discoverPlace]
  exact keeps_withLore _ fun _ known => mem_names_upsertLore known _ _

theorem discoverLore_keeps : s.Keeps lost (discoverLore s params).state := by
  dsimp only [discoverLore]
  exact keeps_withLore _ fun _ known => mem_names_upsertLore known _ _

theorem defineEntity_keeps : s.Keeps lost (defineEntity s params).state := by
  dsimp only [defineEntity]
  exact keeps_withLore _ fun _ known => mem_names_upsertLore known _ _

theorem learnSkill_keeps (done : learnSkill s params = .ok effect) :
    s.Keeps lost effect.state := by
  unfold learnSkill at done
  dsimp only at done
  split at done
  · next place skill found =>
      cases done
      refine keeps_withSkills fun key known => ?_
      rwa [namesOf_set (getElem?_of_findNamed? found)
        (congrArg fold (skill.name_relearn _ _))]
  · obtain ⟨description, _, done⟩ := exists_of_bind_eq_ok done
    cases done
    refine keeps_withSkills fun key known => ?_
    rw [namesOf_append]
    exact List.mem_append_left _ known

theorem passTime_keeps (done : passTime s params = .ok effect) : s.Keeps lost effect.state := by
  obtain ⟨word, _, done⟩ := exists_of_bind_eq_ok done
  dsimp only at done
  split at done
  · cases done
    exact .refl s
  · cases done
    exact .of_same (funext fun shelf => by cases shelf <;> rfl) rfl

theorem setClock_keeps : s.Keeps lost (setClock s params).state :=
  .of_same (funext fun shelf => by cases shelf <;> rfl) rfl

theorem addMemory_keeps : s.Keeps lost (addMemory s params).state := by
  unfold addMemory
  dsimp only
  split
  · exact .refl s
  · constructor
    · intro shelf key known
      cases shelf with
      | memories => exact .inl (List.mem_append_left _ known)
      | _ => exact .inl known
    · exact fun stocked => stocked

theorem errand_keeps {r : CommandRule} (member : r ∈ Registry.errands) :
    (r.run s params).Ensures fun e => s.Keeps lost e.state := by
  simp only [Registry.errands, Registry.knowledge, List.cons_append, List.nil_append, List.mem_cons,
    List.not_mem_nil, or_false] at member
  rcases member with rfl | rfl | rfl | rfl | rfl | rfl | rfl | rfl
  · exact Registry.certain_ensures updateFaction_keeps
  · exact Registry.certain_ensures discoverPlace_keeps
  · exact Registry.certain_ensures discoverLore_keeps
  · exact Registry.certain_ensures defineEntity_keeps
  · exact Registry.fallible_ensures fun _ => learnSkill_keeps
  · exact Registry.fallible_ensures fun _ => passTime_keeps
  · exact Registry.certain_ensures setClock_keeps
  · exact Registry.certain_ensures addMemory_keeps

/-! ### What the player has -/

theorem keeps_replaced {worn : Bool} {place : Nat} {old new : Item}
    (stored : s.withInventory worn (s.inventory.set place new) = .ok t)
    (there : s.inventory[place]? = some old) (same : new.name = old.name)
    (some_ : (∀ i ∈ s.inventory, 0 < i.quantity) → 0 < new.quantity) : s.Keeps lost t := by
  have named : fold (name new) = fold (name old) := congrArg fold same
  refine .withInventory stored (fun key known => .inl ?_) fun stocked => ?_
  · rwa [namesOf_set there named]
  · exact stocked_set place stocked (some_ stocked)

/-! ### The player's condition -/

theorem withStatus_keeps {effects : List StatusEffect} (stored : s.withStatus effects = .ok t)
    (kept : ∀ key ∈ namesOf s.player.statusEffects,
      key ∈ namesOf effects ∨ lost .statuses key) : s.Keeps lost t := by
  obtain ⟨player, refreshed, stored⟩ := exists_of_bind_eq_ok stored
  cases stored
  refine .withPlayer fun key known => ?_
  rw [effects_of_refresh refreshed]
  exact kept key known

theorem settleTrial_keeps {success : Bool} (done : settleTrial s success = .ok effect) :
    s.Keeps lost effect.state := by
  obtain ⟨climb, resolved, done⟩ := exists_of_bind_eq_ok done
  cases done
  refine .withPlayer fun key known => .inl ?_
  rwa [effects_of_resolveBreakthrough resolved]

/-- What the player feels takes away what it is meant to: the item that is named when its stack runs
out, and the status that is named. -/
theorem GameState.Deed.keeps {tag : String} (other : tag ≠ "COMBAT_END")
    (dropped : tag = "ITEM_REMOVE" →
      lost .inventory (fold (sanitizeName (params.required "name"))))
    (ended : tag = "STATUS_REMOVED" →
      lost .statuses (fold (sanitizeName (params.required "name"))))
    (h : s.Deed params tag t) : s.Keeps lost t := by
  cases h with
  | rest => exact .refl s
  | grown found _ stored =>
      exact keeps_replaced stored (getElem?_of_findNamed? found) (s.gained_name ..)
        (gained_quantity_pos _ _ _ _)
  | @begun bonuses worth _ _ some_ =>
      have stored : s.withInventory false (s.inventory ++ [s.gained params
          { name := sanitizeName (params.required "name") } bonuses worth]) = .ok _ := rfl
      refine .withInventory stored (fun key known => .inl ?_) fun stocked i member => ?_
      · rw [namesOf_append]
        exact List.mem_append_left _ known
      · rcases List.mem_append.mp member with old | new
        · exact stocked i old
        · rw [List.mem_singleton.mp new]
          exact some_
  | lessened found left stored =>
      refine keeps_replaced stored (getElem?_of_findNamed? found) rfl fun _ => ?_
      dsimp only
      omega
  | lost found stored =>
      refine .withInventory stored (fun key known => ?_) fun stocked i member =>
        stocked i (List.mem_of_mem_eraseIdx member)
      rcases mem_namesOf_eraseIdx (getElem?_of_findNamed? found) known with stays | gone
      · exact .inl stays
      · have named : key = fold (sanitizeName (params.required "name")) :=
          gone.trans (fold_name_of_findNamed? found).2
        exact .inr (named ▸ dropped rfl)
  | @worn _ _ item _ found stored =>
      exact keeps_replaced stored (getElem?_of_findNamed? found) rfl fun stocked =>
        stocked item (mem_of_findNamed? found)
  | changed changed =>
      refine .withPlayer fun key known => .inl ?_
      rwa [effects_of_changeStat changed]
  | @acquired new _ _ stored =>
      -- A status takes the place of those of its name.
      refine withStatus_keeps stored fun key known => .inl ?_
      obtain ⟨e, member, rfl⟩ := mem_namesOf.mp known
      rw [namesOf_append]
      by_cases same : fold e.name = fold new.name
      · exact List.mem_append_right _ (List.mem_singleton.mpr same)
      · refine List.mem_append_left _ (mem_namesOf.mpr ⟨e, List.mem_filter.mpr ⟨member, ?_⟩, rfl⟩)
        exact bne_iff_ne.mpr same
  | ended found stored =>
      refine withStatus_keeps stored fun key known => ?_
      rcases mem_namesOf_eraseIdx (getElem?_of_findNamed? found) known with stays | gone
      · exact .inl stays
      · have named : key = fold (sanitizeName (params.required "name")) :=
          gone.trans (fold_name_of_findNamed? found).2
        exact .inr (named ▸ ended rfl)
  | tried =>
      refine .withPlayer fun key known => .inl ?_
      rwa [effects_of_beginBreakthrough]
  | settled _ settled => exact settleTrial_keeps settled
  | fought => exact absurd rfl other
  | esteemed | provoked => exact .of_same (funext fun shelf => by cases shelf <;> rfl) rfl

end

/-! ### Fights -/

section

variable {s t : GameState} {lost : Shelf → String → Prop} {r : CombatResult}

theorem names_setPeople (s : GameState) (circle other : Circle) (people : List Person) :
    (s.setPeople circle people).names (.circle other) =
      if other = circle then namesOf people else s.names (.circle other) := by
  dsimp only [names]
  rw [people_setPeople]
  split
  · rfl
  · rfl

theorem names_kill (s : GameState) (called : String) (circle : Circle) :
    (s.kill called).names (.circle circle) = s.names (.circle circle) := by
  unfold kill
  split
  · rfl
  · next found there =>
      have at_ := getElem?_of_findNamed? (findNamed?_of_locateIn? there).2
      have same : fold (name found.person.killed) = fold (name found.person) := rfl
      rw [store, names_setPeople, namesOf_set at_ same]
      split
      · next here => rw [here, names]
      · rfl

/-- Who is captured leaves a circle, one record of the name, and is a prisoner then. -/
theorem mem_names_capture {key : String} {circle : Circle} (called : String)
    (known : key ∈ s.names (.circle circle)) :
    key ∈ (s.capture called).names (.circle circle) ∨
      circle ≠ .prisoners ∧ fold (sanitizeName called) = key ∧
        key ∈ (s.capture called).names (.circle .prisoners) := by
  unfold capture
  split
  · exact .inl known
  · next found there =>
      obtain ⟨free, named⟩ := findNamed?_of_locateIn? there
      have outside : found.circle ≠ .prisoners := Circle.mem_free.mp free
      have goes : fold (name found.person) = fold (sanitizeName called) :=
        (fold_name_of_findNamed? named).2
      have held : namesOf (s.people .prisoners ++ [found.person.captured]) =
          s.names (.circle .prisoners) ++ [fold (name found.person)] := namesOf_append _ _
      dsimp only
      rw [names_setPeople, names_setPeople, names_setPeople, people_setPeople,
        if_neg outside.symm, if_pos rfl, held]
      by_cases taken : circle = .prisoners
      · rw [if_pos taken]
        exact .inl (List.mem_append_left _ (taken ▸ known))
      · rw [if_neg taken]
        split
        · next here =>
            rw [here] at known
            rcases mem_namesOf_eraseIdx (getElem?_of_findNamed? named) known with stays | gone
            · exact .inl stays
            · exact .inr ⟨taken, (gone.trans goes).symm, by simp [gone]⟩
        · exact .inl known

/-- A disposition takes no name from a circle but that of who is captured, and who is captured is a
prisoner then. -/
theorem mem_names_dispose {key : String} {circle : Circle} (called : String) (d : Disposition)
    (known : key ∈ s.names (.circle circle)) :
    key ∈ (s.dispose called d).names (.circle circle) ∨
      d = .capture ∧ circle ≠ .prisoners ∧ fold (sanitizeName called) = key ∧
        key ∈ (s.dispose called d).names (.circle .prisoners) := by
  cases d with
  | release => exact .inl known
  | kill =>
      rw [dispose, names_kill]
      exact .inl known
  | capture =>
      rw [dispose]
      exact (mem_names_capture called known).imp_right fun taken => ⟨rfl, taken⟩

theorem mem_names_disposeAll {key : String} {circle : Circle} {dispositions : Pairs Disposition}
    (known : key ∈ s.names (.circle circle)) :
    let disposed := dispositions.foldl (fun state (called, d) => state.dispose called d) s
    key ∈ disposed.names (.circle circle) ∨
      circle ≠ .prisoners ∧ key ∈ disposed.names (.circle .prisoners) ∧
        ∃ called, (called, .capture) ∈ dispositions ∧ fold (sanitizeName called) = key := by
  induction dispositions generalizing s circle with
  | nil => exact .inl known
  | cons first rest ih =>
      obtain ⟨called, d⟩ := first
      dsimp only [List.foldl_cons]
      rcases mem_names_dispose called d known with stays | ⟨rfl, outside, same, held⟩
      · rcases ih stays with kept | ⟨outside, held, other, disposed, same⟩
        · exact .inl kept
        · exact .inr ⟨outside, held, other, List.mem_cons_of_mem _ disposed, same⟩
      · -- the name is among the prisoners from now on
        rcases ih held with held | ⟨inside, _⟩
        · exact .inr ⟨outside, held, called, List.mem_cons_self, same⟩
        · exact absurd rfl inside

theorem fought_keeps
    (captives : ∀ called circle, (called, .capture) ∈ r.dispositions → circle ≠ .prisoners →
      fold (sanitizeName called) ∈ (s.fought r).names (.circle .prisoners) →
      lost (.circle circle) (fold (sanitizeName called))) : s.Keeps lost (s.fought r) := by
  obtain ⟨others, same⟩ := fought_eq s r
  constructor
  · intro shelf key known
    cases shelf with
    | circle c =>
        have left : key ∈ GameState.names { s with
            pendingCombat := none, player := s.player.afterFight r } (.circle c) := known
        rcases mem_names_disposeAll left with stays | ⟨outside, held, called, disposed, rfl⟩
        · exact .inl stays
        · exact .inr (captives called c disposed outside held)
    | _ =>
        rw [same]
        exact .inl known
  · rw [same]
    exact fun stocked => stocked

/-- What comes of a fight: who is captured is a prisoner then, and the combat screen may hand back
an inventory. -/
theorem applyCombatResult_keeps {effect : Effect} (formed : r.WellFormed)
    (captives : ∀ called circle, (called, .capture) ∈ r.dispositions → circle ≠ .prisoners →
      fold (sanitizeName called) ∈ effect.state.names (.circle .prisoners) →
      lost (.circle circle) (fold (sanitizeName called)))
    (spoils : r.finalInventory.isSome → ∀ key, lost .inventory key)
    (done : applyCombatResult s r = .ok effect) : s.Keeps lost effect.state := by
  have people : effect.state.people .prisoners = (s.fought r).people .prisoners :=
    congrArg (·.get .prisoners) (applyCombatResult_samePeople done).cast
  have fought : s.Keeps lost (s.fought r) := by
    apply fought_keeps
    intro called circle disposed outside held
    apply captives called circle disposed outside
    rwa [names, people]
  obtain ⟨settled, inventory, trial⟩ := applyCombatResult_eq_ok done
  have stock : (s.fought r).Keeps lost settled := by
    rcases inventory with ⟨_, rfl⟩ | ⟨items, player, given, refreshed, rfl⟩
    · exact .refl _
    · constructor
      · intro shelf key known
        cases shelf with
        | inventory => exact .inr (spoils (given ▸ rfl) key)
        | statuses =>
            refine .inl ?_
            rw [names, effects_of_refresh refreshed]
            exact known
        | _ => exact .inl known
      · exact fun _ i member => (formed items given i member).quantity
  rcases trial with kept | ⟨_, _, trial, ended, decided⟩
  · rw [kept]
    exact fought.trans stock
  · rw [decided]
    exact (fought.trans stock).trans (settleTrial_keeps ended)

end

/-! ### The end of a turn -/

section

variable {s t : GameState} {lost : Shelf → String → Prop}

theorem tickStatus_keeps {ended : List String}
    (expired : ∀ key, (∀ e ∈ s.player.statusEffects, fold e.name = key → e.expires = true) →
      lost .statuses key) (done : s.tickStatus = .ok (t, ended)) : s.Keeps lost t := by
  obtain ⟨player, rfl, rfl | refreshed⟩ := tickStatus_eq_ok done
  · refine .withPlayer fun key known => .inl ?_
    obtain ⟨e, member, rfl⟩ := mem_namesOf.mp known
    exact mem_namesOf.mpr ⟨e.tick, List.mem_map_of_mem member, rfl⟩
  · refine .withPlayer fun key known => ?_
    rw [effects_of_refresh refreshed]
    by_cases ends : ∀ e ∈ s.player.statusEffects, fold e.name = key → e.expires = true
    · exact .inr (expired key ends)
    · push Not at ends
      obtain ⟨e, member, rfl, lasts⟩ := ends
      have left : e ∈ s.player.statusEffects.filter (!·.expires) :=
        List.mem_filter.mpr ⟨member, by simpa using lasts⟩
      exact .inl (mem_namesOf.mpr ⟨e.tick, List.mem_map_of_mem left, rfl⟩)

theorem progressPeople_keeps {messages : List String}
    (done : s.progressPeople = .ok (t, messages)) : s.Keeps lost t := by
  have turns := progressPeople_turns done
  obtain ⟨others, rfl⟩ := progressPeople_eq_ok done
  constructor
  · intro shelf key known
    cases shelf with
    | circle c =>
        have same : namesOf (GameState.people { s with cast := others } c) =
            namesOf (s.people c) := names_of_turns (turns c)
        rw [names, same]
        exact .inl known
    | _ => exact .inl known
  · exact fun stocked => stocked

theorem endTurn_keeps {messages : List String} (legal : s.Legal)
    (expired : ∀ key, (∀ e ∈ s.player.statusEffects, fold e.name = key → e.expires = true) →
      lost .statuses key) (done : s.endTurn = .ok (t, messages)) : s.Keeps lost t := by
  obtain ⟨ticked, ended, cast, news, ticking, growing, -, rfl⟩ := endTurn_eq_ok done
  have people : ticked.Keeps lost { ticked with cast := cast } := progressPeople_keeps growing
  have counted : GameState.Keeps lost { ticked with cast := cast }
      { ticked with cast := cast, turn := ticked.turn + 1 } :=
    .of_same (funext fun shelf => by cases shelf <;> rfl) rfl
  exact (((tickStatus_keeps expired ticking).trans people).trans counted).legalize legal

end

/-! ### Steps -/

/-- Every rule but the end of a fight takes away what it is meant to and nothing else. -/
theorem rule_keeps {s u : GameState} {c : Command} {r : CommandRule} (distinct : s.Distinct)
    (member : r ∈ Registry.rules) (other : upper r.tag ≠ "COMBAT_END")
    (tag : upper c.name = upper r.tag) :
    (r.run s c.params).Ensures fun e => s.Keeps (Event.Removes s u (.command c)) e.state := by
  rcases Registry.bystander_or_deed member with aside | deed
  · rcases List.mem_append.mp aside with met | errand
    · exact people_keeps distinct met fun leaves => .companion (tag.trans leaves)
    · exact errand_keeps errand
  · exact (Registry.deed_of_rule deed s c.params).mono fun _ done =>
      done.keeps other (fun removed => .item (tag.trans removed))
        fun removed => .status (tag.trans removed)

/-- A name that is on a list stays there, unless what happens is meant to take it away. -/
theorem kept_or_removed {event : Event} {s t : GameState} {shelf : Shelf} {key : String}
    (legal : s.legalize = s) (leads : event.Leads s t) (there : key ∈ s.names shelf) :
    key ∈ t.names shelf ∨ event.Removes s t shelf key := by
  have legal : s.Legal := legal ▸ legalize_legal s
  have fights {r : CombatResult} {effect : Effect} (formed : r.WellFormed)
      (tells : event.Tells r) (spoils : r.finalInventory.isSome → event = .fight r)
      (done : applyCombatResult s r = .ok effect) :
      s.Keeps (event.Removes s effect.state.legalize) effect.state := by
    refine applyCombatResult_keeps formed (fun called circle disposed outside held => ?_)
      (fun handed key => ?_) done
    · apply Event.Removes.captive tells disposed outside
      rw [names, people_legalize]
      exact mem_names_legalizePeople.mpr held
    · rw [spoils handed]
      exact .spoils handed
  suffices s.Keeps (event.Removes s t) t from this.kept shelf key there
  cases leads with
  | @command c _ _ _ effect run =>
      by_cases told : ∃ r, (Event.command c).Tells r
      · obtain ⟨r, tells⟩ := told
        obtain ⟨effect, done, same⟩ := (Event.Leads.command run).told tells
        have none : r.finalInventory = none := finalInventory_of_combatResultOf? tells.2
        rw [same]
        exact (fights (combatResultOf?_wellFormed tells.2) tells (by simp [none]) done).legalize
          legal
      · apply dispatch_keeps_untold (P := s.Keeps (Event.Removes s effect.state (.command c))) run
          (not_exists.mp told) (.refl s)
        · intro r member other tag _
          exact rule_keeps legal.distinct member other tag
        · intro u kept
          exact kept.legalize legal
  | turnEnd run => exact endTurn_keeps legal (fun _ => .expired) run
  | fight formed run => exact (fights formed rfl (fun _ => rfl) run).legalize legal

/-- Who was met and has joined is captured among those met, and stays among the companions. -/
theorem kept_or_removed_captured :
    let bob : Person := { id := "id-1", name := "Bob", given := [.name] }
    let joined : Person := { id := "id-1", name := "BOB", category := "companion", given := [.name] }
    let cai : Person := { id := "id-2", name := "Cai", given := [.name] }
    let s : GameState := { cast :=
      { encountered := [bob, cai], companions := [joined], prisoners := [cai] } }
    let c : Command := ⟨"combat_end", [("outcome", some "Defeat"),
      ("dispositions", some "bob - the guard: capture, Cai: kill")]⟩
    let held : Person := { bob with
      category := "prisoner", resistance := 50, willpower := 50
      given := [.name, .category, .resistance, .willpower] }
    let t : GameState := { s with cast := {
      encountered := [{ cai with isAlive := false, given := [.name, .isAlive] }]
      companions := [joined], prisoners := [cai, held] } }
    s.legalize = s ∧ Event.Leads (.command c) s t ∧ "bob" ∈ s.names (.circle .encountered) ∧
      Event.Removes s t (.command c) (.circle .encountered) "bob" ∧
      "bob" ∈ t.names (.circle .companions) ∧ "cai" ∈ t.names (.circle .encountered) := by
  intro bob joined cai s c held t
  have legal : s.legalize = s := by decide +kernel
  have leads : Event.Leads (.command c) s t := Event.leads_of_state {} (by decide +kernel)
  have there : "bob" ∈ s.names (.circle .encountered) := by decide +kernel
  have gone : "bob" ∉ t.names (.circle .encountered) := by decide +kernel
  have removed := (kept_or_removed legal leads there).resolve_left gone
  exact ⟨legal, leads, there, removed, by decide +kernel, by decide +kernel⟩

end Ascent
