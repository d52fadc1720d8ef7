import Ascent.Proofs.Storable

/-!
Lists that are kept by name hold each name once.

Restoring a state merges people of one name, a status takes the place of its namesake, and what is
remembered is not remembered again, so of these there are never two. Items, skills, factions and
lore are looked up under what is left of what is left of a name, and kept under what is left of the
name: these lists hold each name once as long as the names that commands give are settled.

Main exports: `GameState.Apart`, `Event.Leads.apart`, `Played`, `namesDistinct_of_played`,
`factions_of_one_name`.
-/

namespace Ascent

open Text

/-! ### The names of changed records -/

theorem LoreEntry.name_putAll (e : LoreEntry) (fields : List (LoreField × FieldValue)) :
    (e.putAll fields).name = e.name :=
  get_foldl_put LoreEntry.name (fun f _ _ => by cases f <;> rfl) fields e

theorem Faction.name_putAll (x : Faction) (fields : List (FactionField × FieldValue)) :
    (x.putAll fields).name = x.name :=
  get_foldl_put Faction.name (fun f _ _ => by cases f <;> rfl) fields x

theorem Skill.name_practise (s : Skill) (amount : Int) : (s.practise amount).name = s.name := by
  dsimp only [practise]

theorem Skill.name_relearn (s : Skill) (gain : Option Int) (description : String) :
    (s.relearn gain description).name = s.name := by
  have kept := s.name_practise (max (-maxPractice) (min maxPractice (gain.getD relearnPractice)))
  unfold relearn
  dsimp only
  split
  · exact kept
  · dsimp only
    exact kept

theorem Skill.name_learn (called description : String) (gain : Option Int) :
    (learn called description gain).name = called := by
  cases gain with
  | none => rfl
  | some gain =>
      dsimp only [learn]
      split
      · rfl
      · exact name_practise _ _

/-! ### Lists that grow by name -/

section

variable {called : String}

theorem upsertLore_distinct {entries : List LoreEntry} (h : NamesDistinct entries)
    (written : isBlankText called = false) (settled : Settled called)
    (fields : List (LoreField × FieldValue)) :
    NamesDistinct (upsertLore entries called fields).1 := by
  unfold upsertLore
  split
  · next place known found =>
      exact h.set (getElem?_of_findNamed? found) (known.name_putAll fields)
  · next nothing =>
      exact h.append_sanitized written settled nothing (LoreEntry.name_putAll _ fields)

theorem upsertFaction_distinct {factions : List Faction} (h : NamesDistinct factions)
    (written : isBlankText called = false) (settled : Settled called)
    (fields : List (FactionField × FieldValue)) :
    NamesDistinct (upsertFaction factions called fields).1 := by
  unfold upsertFaction
  split
  · next place known found =>
      exact h.set (getElem?_of_findNamed? found) (known.name_putAll fields)
  · next nothing =>
      exact h.append_sanitized written settled nothing (Faction.name_putAll _ fields)

end

/-! ### The status effects of the player -/

section

variable {s t : StatBlock} {settings : Settings} {items : List Item}

theorem effects_of_refresh (h : s.refresh items = .ok t) : t.statusEffects = s.statusEffects :=
  congrArg Marks.effects (StatBlock.marks_of_refresh h)

theorem effects_of_retier {label : String} (h : s.retier label settings items = .ok t) :
    t.statusEffects = s.statusEffects := by
  obtain ⟨base, _, refreshed⟩ := exists_of_bind_eq_ok h
  have kept := effects_of_refresh refreshed
  exact kept

theorem ofFormula_keeps_effects (settings : Settings) (items : List Item)
    (effects : List StatusEffect) :
    (Rebase.ofFormula settings items).Keeps fun s => s.statusEffects = effects where
  moves := fun before moved => by
    obtain ⟨risen, retiered, moved⟩ := exists_of_bind_eq_ok moved
    rw [← Except.ok.inj moved]
    exact (effects_of_retier retiered).trans before
  idles := fun _ _ _ before => before

theorem effects_of_addPermanent {a : Attribute} {delta : Int} {change : StatChange}
    (h : addPermanent s a delta items = .ok change) :
    change.stats.statusEffects = s.statusEffects := by
  obtain ⟨bonus, _, h⟩ := exists_of_bind_eq_ok h
  obtain ⟨updated, refreshed, h⟩ := exists_of_bind_eq_ok h
  have kept := effects_of_refresh refreshed
  rw [← Except.ok.inj h]
  exact kept

theorem effects_of_changeStat {name operation : String} {amount level : Option String}
    {change : StatChange}
    (h : changeStat s name operation settings amount level items = .ok change) :
    change.stats.statusEffects = s.statusEffects :=
  changeStat_keeps (P := fun t => t.statusEffects = s.statusEffects)
    (fun _ _ _ _ => StatBlock.Changes.keeps (P := fun t => t.statusEffects = s.statusEffects)
      (ofFormula_keeps_effects settings items s.statusEffects) (fun _ _ _ _ same => same)
      (fun _ _ _ => effects_of_addPermanent) rfl) rfl h

theorem effects_of_demote {fall : Climb} (h : demote s settings items = .ok fall) :
    fall.stats.statusEffects = s.statusEffects := by
  obtain ⟨fallen, retiered, h⟩ := exists_of_bind_eq_ok h
  obtain ⟨hurt, refreshed, h⟩ := exists_of_bind_eq_ok h
  have fell := effects_of_retier retiered
  have kept := effects_of_refresh refreshed
  rw [← Except.ok.inj h]
  exact kept.trans fell

theorem effects_of_resolveBreakthrough {success : Bool} {result : Climb}
    (h : resolveBreakthrough s success settings items (.ofFormula settings items) = .ok result) :
    result.stats.statusEffects = s.statusEffects :=
  resolveBreakthrough_keeps (P := fun t => t.statusEffects = s.statusEffects)
    (ofFormula_keeps_effects settings items s.statusEffects)
    (fun _ _ fell => effects_of_demote fell) rfl h

theorem effects_of_beginBreakthrough (s : StatBlock) :
    (beginBreakthrough s).stats.statusEffects = s.statusEffects :=
  congrArg Marks.effects beginBreakthrough_marks

end

/-! ### States that hold each name once -/

/-- The lists of a state that are kept by name, people aside, hold each name once; lists of things
do where the names that commands gave for them were `settled`. -/
structure GameState.Apart (s : GameState) (settled : Prop) : Prop where
  statuses : NamesDistinct s.player.statusEffects
  memories : (s.memories.map fun m => fold (trim m)).Nodup
  inventory : settled → NamesDistinct s.inventory
  skills : settled → NamesDistinct s.skills
  lore : settled → NamesDistinct s.lore
  factions : settled → NamesDistinct s.factions

namespace GameState.Apart

variable {s : GameState} {settled : Prop}

theorem mono (h : s.Apart settled) {stricter : Prop} (less : stricter → settled) :
    s.Apart stricter :=
  ⟨h.statuses, h.memories, fun given => h.inventory (less given),
    fun given => h.skills (less given), fun given => h.lore (less given),
    fun given => h.factions (less given)⟩

theorem setPeople (h : s.Apart settled) (circle : Circle) (people : List Person) :
    (s.setPeople circle people).Apart settled :=
  { h with }

theorem withPlayer (h : s.Apart settled) {player : StatBlock}
    (statuses : NamesDistinct player.statusEffects) :
    GameState.Apart { s with player := player } settled :=
  { h with statuses }

theorem legalize (h : s.Apart settled) : s.legalize.Apart settled :=
  { h with inventory := fun given => (h.inventory given).filter _ }

end GameState.Apart

theorem begin_apart {playerName : String} {settings : Settings} {tier : Option String}
    {location : String} {s : GameState}
    (h : GameState.begin playerName settings tier location = .ok s) (settled : Prop) :
    s.Apart settled := by
  have bare (player : StatBlock) (none : player.statusEffects = []) : GameState.Apart
      { player, playerName, settings, location } settled := by
    refine ⟨?_, List.nodup_nil, fun _ => .nil, fun _ => .nil, fun _ => .nil, fun _ => .nil⟩
    dsimp only
    rw [none]
    exact .nil
  obtain ⟨label, player, rfl, rebased | rfl⟩ := begin_eq_ok h
  · obtain ⟨moved, retiered, rebased⟩ := exists_of_bind_eq_ok rebased
    have none := effects_of_retier retiered
    rw [← Except.ok.inj rebased]
    exact bare _ none
  · exact bare _ rfl

/-! ### Errands -/

section

variable {s t : GameState} {params : Params} {effect : Effect} {settled : Prop}

theorem withLore_apart (h : s.Apart settled) (location : String)
    {entries : List LoreEntry} (distinct : settled → NamesDistinct entries) :
    GameState.Apart { s with lore := entries, location := location } settled :=
  { h with lore := distinct }

theorem withFactions_apart (h : s.Apart settled) {factions : List Faction}
    (distinct : settled → NamesDistinct factions) :
    GameState.Apart { s with factions := factions } settled :=
  { h with factions := distinct }

theorem withSkills_apart (h : s.Apart settled) {skills : List Skill}
    (distinct : settled → NamesDistinct skills) :
    GameState.Apart { s with skills := skills } settled :=
  { h with skills := distinct }

section

variable (written : isBlankText (params.required "name") = false)
  (named : settled → Settled (params.required "name"))

include written named

theorem updateFaction_apart (h : s.Apart settled) :
    (updateFaction s params).state.Apart settled := by
  dsimp only [updateFaction]
  exact withFactions_apart h fun given =>
    upsertFaction_distinct (h.factions given) written (named given) _

theorem discoverPlace_apart (h : s.Apart settled) :
    (discoverPlace s params).state.Apart settled := by
  dsimp only [discoverPlace]
  exact withLore_apart h _ fun given => upsertLore_distinct (h.lore given) written (named given) _

theorem discoverLore_apart (h : s.Apart settled) :
    (discoverLore s params).state.Apart settled := by
  dsimp only [discoverLore]
  exact withLore_apart h _ fun given => upsertLore_distinct (h.lore given) written (named given) _

theorem defineEntity_apart (h : s.Apart settled) :
    (defineEntity s params).state.Apart settled := by
  dsimp only [defineEntity]
  exact withLore_apart h _ fun given => upsertLore_distinct (h.lore given) written (named given) _

theorem learnSkill_apart (h : s.Apart settled) (done : learnSkill s params = .ok effect) :
    effect.state.Apart settled := by
  unfold learnSkill at done
  dsimp only at done
  split at done
  · next place known found =>
      rw [← Except.ok.inj done]
      exact withSkills_apart h fun given =>
        (h.skills given).set (getElem?_of_findNamed? found) (known.name_relearn _ _)
  · next nothing =>
      obtain ⟨description, _, done⟩ := exists_of_bind_eq_ok done
      rw [← Except.ok.inj done]
      exact withSkills_apart h fun given =>
        (h.skills given).append_sanitized written (named given) nothing (Skill.name_learn _ _ _)

end

theorem passTime_apart (h : s.Apart settled) (done : passTime s params = .ok effect) :
    effect.state.Apart settled := by
  obtain ⟨_, _, done⟩ := exists_of_bind_eq_ok done
  dsimp only at done
  split at done
  · exact Except.ok.inj done ▸ h
  · rw [← Except.ok.inj done]
    exact { h with }

theorem setClock_apart (h : s.Apart settled) : (setClock s params).state.Apart settled :=
  { h with }

theorem addMemory_apart (h : s.Apart settled) : (addMemory s params).state.Apart settled := by
  unfold addMemory
  dsimp only
  split
  · exact h
  · next fresh =>
      have new : fold (trim (params.required "content")) ∉
          s.memories.map fun m => fold (trim m) := by
        simpa using fresh
      refine { h with memories := ?_ }
      simpa [trim_trim] using List.Nodup.concat new h.memories

/-! ### What the player has -/

theorem withInventory_apart {worn : Bool} {inventory : List Item} (h : s.Apart settled)
    (distinct : settled → NamesDistinct inventory)
    (stored : s.withInventory worn inventory = .ok t) : t.Apart settled := by
  obtain ⟨player, rfl, refreshed | ⟨-, rfl⟩⟩ := withInventory_eq_ok stored
  · refine { h with statuses := ?_, inventory := distinct }
    rw [effects_of_refresh refreshed]
    exact h.statuses
  · exact { h with inventory := distinct }

/-! ### The player's condition -/

theorem withStatus_apart {effects : List StatusEffect} (h : s.Apart settled)
    (distinct : NamesDistinct effects) (stored : s.withStatus effects = .ok t) :
    t.Apart settled := by
  obtain ⟨player, refreshed, stored⟩ := exists_of_bind_eq_ok stored
  have kept := effects_of_refresh refreshed
  rw [← Except.ok.inj stored]
  refine h.withPlayer ?_
  rw [kept]
  exact distinct

theorem settleTrial_apart {success : Bool} (h : s.Apart settled)
    (done : settleTrial s success = .ok effect) : effect.state.Apart settled := by
  obtain ⟨climb, resolved, done⟩ := exists_of_bind_eq_ok done
  rw [← Except.ok.inj done]
  refine h.withPlayer ?_
  rw [effects_of_resolveBreakthrough resolved]
  exact h.statuses

/-! ### Fights and turns -/

theorem applyCombatResult_apart {r : CombatResult} (h : s.Apart settled)
    (returned : settled → ∀ items, r.finalInventory = some items → NamesDistinct items)
    (done : applyCombatResult s r = .ok effect) : effect.state.Apart settled := by
  obtain ⟨taken, inventory, trial⟩ := applyCombatResult_eq_ok done
  have left : GameState.Apart { s with pendingCombat := none, player := s.player.afterFight r }
      settled := { h with }
  have after : (s.fought r).Apart settled :=
    disposeAll_keeps (P := fun t => t.Apart settled)
      (fun _ circle people apart => apart.setPeople circle people) left r.dispositions
  have takenApart : taken.Apart settled := by
    rcases inventory with ⟨_, rfl⟩ | ⟨items, player, given, refreshed, rfl⟩
    · exact after
    · refine { after with statuses := ?_, inventory := fun known => returned known items given }
      rw [effects_of_refresh refreshed]
      exact after.statuses
  rcases trial with kept | ⟨_, _, trial, ended, decided⟩
  · exact kept ▸ takenApart
  · exact decided ▸ settleTrial_apart takenApart ended

/-- What the player feels keeps names apart, those of items as long as the ones they are given are
settled. -/
theorem GameState.Deed.apart {tag : String} (h : s.Apart settled)
    (written : tag = "ITEM_ADD" → isBlankText (params.required "name") = false)
    (named : tag = "ITEM_ADD" → settled → Settled (params.required "name"))
    (done : s.Deed params tag t) : t.Apart settled := by
  cases done with
  | rest => exact h
  | grown found _ stored =>
      refine withInventory_apart h (fun given => ?_) stored
      exact (h.inventory given).set (getElem?_of_findNamed? found) (s.gained_name ..)
  | begun missing =>
      refine { h with inventory := fun given => ?_ }
      exact (h.inventory given).append_sanitized (written rfl) (named rfl given) missing
        (s.gained_name ..)
  | lessened found _ stored =>
      refine withInventory_apart h (fun given => ?_) stored
      exact (h.inventory given).set (getElem?_of_findNamed? found) rfl
  | lost _ stored =>
      exact withInventory_apart h (fun given => (h.inventory given).eraseIdx _) stored
  | worn found stored =>
      refine withInventory_apart h (fun given => ?_) stored
      exact (h.inventory given).set (getElem?_of_findNamed? found) rfl
  | changed changed =>
      refine h.withPlayer ?_
      rw [effects_of_changeStat changed]
      exact h.statuses
  | acquired _ stored =>
      refine withStatus_apart h ((h.statuses.filter _).append ?_) stored
      -- whoever is called so has made way
      intro member
      obtain ⟨e, kept, same⟩ := List.mem_map.mp member
      have other := (List.mem_filter.mp kept).2
      exact (bne_iff_ne.mp other) same
  | ended _ stored => exact withStatus_apart h (h.statuses.eraseIdx _) stored
  | tried =>
      refine h.withPlayer ?_
      rw [effects_of_beginBreakthrough]
      exact h.statuses
  | settled _ settled => exact settleTrial_apart h settled
  | fought told done =>
      refine applyCombatResult_apart h (fun _ items given => ?_) done
      rw [finalInventory_of_combatResultOf? told] at given
      cases given
  | esteemed | provoked => exact { h with }

theorem tickStatus_apart {ended : List String} (h : s.Apart settled)
    (done : s.tickStatus = .ok (t, ended)) : t.Apart settled := by
  obtain ⟨player, rfl, rfl | refreshed⟩ := tickStatus_eq_ok done
  · exact h.withPlayer (h.statuses.map fun _ => rfl)
  · refine h.withPlayer ?_
    rw [effects_of_refresh refreshed]
    exact (h.statuses.filter _).map fun _ => rfl

theorem endTurn_apart {messages : List String} (h : s.Apart settled)
    (done : s.endTurn = .ok (t, messages)) : t.Apart settled := by
  obtain ⟨ticked, ended, cast, news, ticking, -, -, rfl⟩ := endTurn_eq_ok done
  have after := tickStatus_apart h ticking
  have counted : GameState.Apart { ticked with cast := cast, turn := ticked.turn + 1 } settled :=
    { after with }
  exact counted.legalize

end

/-! ### Steps -/

/-- The tags of the commands that name a thing to keep. -/
def Registry.namingTags : List String :=
  ["ITEM_ADD", "SKILL_LEARNED", "FACTION_UPDATE", "LOCATION_DISCOVERED", "LORE_DISCOVERED",
    "ENTITY_DEFINITION"]

/-- The names that things are given are settled: the one in a command that names a thing to keep is,
and what comes back from a fight goes by distinct ones. -/
def Event.NamesSettled : Event → Prop
  | .command c => upper c.name ∈ Registry.namingTags → Settled (c.params.required "name")
  | .turnEnd => True
  | .fight r => ∀ items, r.finalInventory = some items → NamesDistinct items

theorem Params.written_of_lacks {params : Params} {key : String} (h : params.lacks key = false) :
    isBlankText (params.required key) = false := by
  unfold lacks at h
  unfold required
  cases known : params.value? key with
  | none => simp [known] at h
  | some value => simpa [known] using h

section

variable {s t : GameState} {params : Params} {settled : Prop} {r : CommandRule}

theorem errand_apart (h : s.Apart settled) (member : r ∈ Registry.errands)
    (written : ∀ key ∈ r.required, isBlankText (params.required key) = false)
    (named : upper r.tag ∈ Registry.namingTags → settled → Settled (params.required "name")) :
    (r.run s params).Ensures fun e => e.state.Apart settled := by
  simp only [Registry.errands, Registry.knowledge, List.cons_append, List.nil_append, List.mem_cons,
    List.not_mem_nil, or_false] at member
  rcases member with rfl | rfl | rfl | rfl | rfl | rfl | rfl | rfl
  · have known := written "name" List.mem_cons_self
    exact Registry.certain_ensures (updateFaction_apart known (named (by decide +kernel)) h)
  · have known := written "name" List.mem_cons_self
    exact Registry.certain_ensures (discoverPlace_apart known (named (by decide +kernel)) h)
  · have known := written "name" List.mem_cons_self
    exact Registry.certain_ensures (discoverLore_apart known (named (by decide +kernel)) h)
  · have known := written "name" List.mem_cons_self
    exact Registry.certain_ensures (defineEntity_apart known (named (by decide +kernel)) h)
  · have known := written "name" List.mem_cons_self
    exact Registry.fallible_ensures fun _ =>
      learnSkill_apart known (named (by decide +kernel)) h
  · exact Registry.fallible_ensures fun _ => passTime_apart h
  · exact Registry.certain_ensures (setClock_apart h)
  · exact Registry.certain_ensures (addMemory_apart h)

theorem Registry.name_of_addTag :
    ∀ r ∈ Registry.deeds, upper r.tag = "ITEM_ADD" → "name" ∈ r.required := by decide +kernel

theorem deed_apart (h : s.Apart settled) (member : r ∈ Registry.deeds)
    (written : ∀ key ∈ r.required, isBlankText (params.required key) = false)
    (named : upper r.tag ∈ Registry.namingTags → settled → Settled (params.required "name")) :
    (r.run s params).Ensures fun e => e.state.Apart settled := by
  refine (Registry.deed_of_rule member s params).mono fun _ done => done.apart h ?_ ?_
  · exact fun tag => written "name" (Registry.name_of_addTag r member tag)
  · exact fun tag => named (tag ▸ List.mem_cons_self)

theorem rule_apart (h : s.Apart settled) (member : r ∈ Registry.rules)
    (written : ∀ key ∈ r.required, isBlankText (params.required key) = false)
    (named : upper r.tag ∈ Registry.namingTags → settled → Settled (params.required "name")) :
    (r.run s params).Ensures fun e => e.state.Apart settled := by
  rcases Registry.bystander_or_deed member with aside | deed
  · rcases List.mem_append.mp aside with met | errand
    · refine (Registry.moves_of_person met s params).mono ?_
      rintro e ⟨circle, people, same⟩
      rw [same]
      exact h.setPeople circle people
    · exact errand_apart h errand written named
  · exact deed_apart h deed written named

/-- A step keeps names apart, those of things as long as they are settled. -/
theorem Event.Leads.apart {event : Event} (leads : event.Leads s t)
    (named : settled → event.NamesSettled) (h : s.Apart settled) : t.Apart settled := by
  cases leads with
  | @command c _ _ _ _ run =>
      refine dispatch_keeps_given (P := fun t => t.Apart settled)
        (Q := fun t => t.Apart settled) run (fun r member tag complete => ?_)
        fun _ restored => restored.legalize
      refine rule_apart h member (fun key needed => ?_) ?_
      · exact Params.written_of_lacks (complete key needed)
      · exact fun naming given => named given (tag ▸ naming)
  | turnEnd run => exact endTurn_apart h run
  | fight _ run => exact (applyCombatResult_apart h named run).legalize

end

/-! ### Runs -/

/-- What has happened in a game, and the state that it has led to. -/
inductive Played : List Event → GameState → Prop where
  | begin {playerName : String} {settings : Settings} {tier : Option String} {location : String}
      {s : GameState} (start : GameState.begin playerName settings tier location = .ok s) :
      Played [] s
  | next {events : List Event} {event : Event} {s t : GameState} (before : Played events s)
      (leads : event.Leads s t) : Played (events ++ [event]) t

namespace Played

variable {events : List Event} {s : GameState}

theorem reachable (played : Played events s) : Reachable s := by
  induction played with
  | begin start => exact .begin start
  | next _ leads ih => exact ih.step leads

theorem apart (played : Played events s) :
    s.Apart (∀ event ∈ events, event.NamesSettled) := by
  induction played with
  | begin start => exact begin_apart start _
  | @next events event _ _ _ leads ih =>
      refine leads.apart (fun given => given event (by simp)) (ih.mono fun given e member => ?_)
      exact given e (List.mem_append_left _ member)

end Played

/-- Whatever has happened in a game, no circle holds two people of one name, the player is under no
two status effects of one name, and nothing is remembered twice. Nor are there two items, skills,
places or pieces of lore, or factions of one name, as long as the names that things were given are
settled; names of one line are. -/
theorem namesDistinct_of_played {events : List Event} {s : GameState} (played : Played events s) :
    (∀ circle, NamesDistinct (s.people circle)) ∧ NamesDistinct s.player.statusEffects ∧
    (s.memories.map fun m => fold (trim m)).Nodup ∧
    ((∀ event ∈ events, event.NamesSettled) →
      NamesDistinct s.inventory ∧ NamesDistinct s.skills ∧ NamesDistinct s.lore ∧
        NamesDistinct s.factions) := by
  have apart := played.apart
  refine ⟨played.reachable.distinct, apart.statuses, apart.memories, fun given => ?_⟩
  exact ⟨apart.inventory given, apart.skills given, apart.lore given, apart.factions given⟩

/-- A faction heard of again under another qualifier is the same one. -/
theorem namesDistinct_of_played_heard :
    let s : GameState := {
      player := { tier := "Qi Refining Layer 1" }, playerName := "Lin", location := "Hall"
      settings := { enableStats := false } }
    let t : GameState := { s with factions := [{ name := "Azure Sect" }] }
    let first : Event := .command ⟨"FACTION_UPDATE", [("name", some "Azure Sect - the branch")]⟩
    let again : Event := .command ⟨"faction_update", [("name", some " AZURE SECT – the elders")]⟩
    Played [first, again] t ∧ (∀ event ∈ [first, again], event.NamesSettled) ∧
      NamesDistinct t.factions := by
  intro s t first again
  have start : GameState.begin "Lin" { enableStats := false } none "Hall" = .ok s :=
    eq_ok_of_toOption (by decide +kernel)
  have heard : first.Leads s t := Event.leads_of_state {} (by decide +kernel)
  have known : again.Leads t t := Event.leads_of_state {} (by decide +kernel)
  have played : Played [first, again] t := ((Played.begin start).next heard).next known
  have settled : ∀ event ∈ [first, again], event.NamesSettled := by
    intro event member
    simp only [List.mem_cons, List.not_mem_nil, or_false] at member
    rcases member with rfl | rfl
    · exact fun _ => settled_of_one_line (by decide +kernel)
    · exact fun _ => settled_of_one_line (by decide +kernel)
  exact ⟨played, settled, ((namesDistinct_of_played played).2.2.2 settled).2.2.2⟩

/-- Of this name a qualifier is left, and so what is kept under it is not found again: there are two
factions of one name. -/
theorem factions_of_one_name :
    let c : Command := ⟨"FACTION_UPDATE", [("name", some "Azure Sect - the branch\n - the elders")]⟩
    let faction : Faction := { name := "Azure Sect - the branch" }
    let t : GameState := {
      player := { tier := "Qi Refining Layer 1" }, playerName := "Lin", location := "Hall"
      settings := { enableStats := false }, factions := [faction, faction] }
    Played [.command c, .command c] t ∧ ¬ NamesDistinct t.factions := by
  intro c faction t
  let s : GameState := { t with factions := [] }
  let heard : GameState := { t with factions := [faction] }
  have start : GameState.begin "Lin" { enableStats := false } none "Hall" = .ok s :=
    eq_ok_of_toOption (by decide +kernel)
  have first : Event.Leads (.command c) s heard := Event.leads_of_state {} (by decide +kernel)
  have again : Event.Leads (.command c) heard t := Event.leads_of_state {} (by decide +kernel)
  exact ⟨((Played.begin start).next first).next again, by simp [NamesDistinct, t]⟩

end Ascent
