import Ascent.Proofs.Reunion

/-!
What becomes of a record that a command tells of again.

A command that finds a record under its name lays over it what it tells, and the rest stays. That is
so of all eight commands that make or change a record by name, but for the fields that they set on
their own. Some of these are meant for new records only, and still a record that was there gets
them: lore comes to the place where the player is, a companion gets that as a category, and what is
defined with a blank for a kind becomes lore.

Main exports: `updateFaction_retold`, `discoverLore_retold`, `defineEntity_retold`,
`addItem_retold`, `retellings`, `retold_where_found`, `lore_moves_when_retold`.
-/

namespace Ascent

open Text

/-! ### What is known of the world -/

/-- The kind of thing that is written: a known one, or else lore. -/
def entityTypeOf (text : String) : String :=
  if entityTypes.contains (lower (trim text)) then lower (trim text) else "lore"

/-- What a definition tells of an entry: its fields, and its kind. -/
def Params.tellsEntity (params : Params) (f : LoreField) : Option Content :=
  if f = .entityType then
    ((params.value? "type").filter fun text => !isBlankText text).map fun text =>
      .value (.text (entityTypeOf text))
  else params.tells loreKeys LoreField.kind f

/-- The kind of a definition, where blanks stand for it. -/
def Params.blankKind (params : Params) : List LoreField :=
  if (params.value? "type").getD "" ≠ "" ∧ isBlankText ((params.value? "type").getD "") then
    [.entityType]
  else []

/-- The place of lore, where none is told and the player is somewhere. -/
def GameState.placed (s : GameState) (params : Params) : List LoreField :=
  if params.told loreKeys LoreField.kind .location = none ∧ s.location ≠ "" then [.location] else []

section

variable {params : Params}

/-- A faction that is found under its name is told anew. -/
theorem updateFaction_retold (s : GameState) (params : Params) :
    RetoldIn s.factions (updateFaction s params).state.factions
      (sanitizeName (params.required "name"))
      (fun _ => params.tells factionKeys FactionField.kind) [] := by
  intro place known found
  have retold : Retold (params.tells factionKeys FactionField.kind) [] known
      (known.putAll (pickFields factionKeys FactionField.kind params)) :=
    retold_pickFields (by decide) params known
  dsimp only [updateFaction]
  unfold upsertFaction
  rw [found]
  exact ⟨_, getElem?_set_of_found found _, retold⟩

/-- An entry that is found under its name is told anew. -/
theorem upsertLore_retold {fields : List (LoreField × FieldValue)}
    (settable : Settable LoreEntry fields) (entries : List LoreEntry) (called : String)
    {told : LoreField → Option Content} {aside : List LoreField}
    (tells : ∀ f, f ∉ aside → (fieldValue? fields f).map .value = told f) :
    RetoldIn entries (upsertLore entries called fields).1 (sanitizeName called) (fun _ => told)
      aside := by
  intro place known found
  have retold : Retold told aside known (known.putAll fields) :=
    (settable.retold known).congr fun f kept => ⟨List.not_mem_nil, tells f kept⟩
  unfold upsertLore
  rw [found]
  exact ⟨_, getElem?_set_of_found found _, retold⟩

theorem settable_loreFields (params : Params) :
    Settable LoreEntry (pickFields loreKeys LoreField.kind params) :=
  settable_pickFields (by decide) params

theorem settable_typed {fields : List (LoreField × FieldValue)} (h : Settable LoreEntry fields)
    (kind : String) : Settable LoreEntry (putField .entityType (.text kind) fields) :=
  h.putField (by decide) trivial

theorem discoverPlace_retold (s : GameState) (params : Params) :
    RetoldIn s.lore (discoverPlace s params).state.lore (sanitizeName (params.required "name"))
      (fun _ => params.tells loreKeys LoreField.kind) [.entityType] := by
  dsimp only [discoverPlace]
  refine upsertLore_retold (settable_typed (settable_loreFields params) _) _ _ fun f kept => ?_
  have other : ¬ LoreField.entityType = f := fun same => kept (same ▸ List.mem_cons_self)
  rw [fieldValue?_putField, if_neg other, fieldValue?_pickFields, Params.tells]

theorem discoverLore_retold (s : GameState) (params : Params) :
    RetoldIn s.lore (discoverLore s params).state.lore (sanitizeName (params.required "name"))
      (fun _ => params.tells loreKeys LoreField.kind) (.entityType :: s.placed params) := by
  have typed := settable_typed (settable_loreFields params) "lore"
  have tells (f : LoreField) (kept : f ∉ LoreField.entityType :: s.placed params) :
      (fieldValue? (putField .entityType (.text "lore")
        (pickFields loreKeys LoreField.kind params)) f) =
          params.told loreKeys LoreField.kind f := by
    have other : ¬ LoreField.entityType = f := fun same => kept (same ▸ List.mem_cons_self)
    rw [fieldValue?_putField, if_neg other, fieldValue?_pickFields]
  dsimp only [discoverLore]
  split
  · next unplaced =>
      have here : LoreField.location ∈ s.placed params := by
        rw [fieldValue?_putField, if_neg (by decide), fieldValue?_pickFields] at unplaced
        simp only [Bool.and_eq_true, Option.isNone_iff_eq_none, decide_eq_true_eq] at unplaced
        rw [GameState.placed, if_pos unplaced]
        exact List.mem_cons_self
      have placed : Settable LoreEntry (putField .location (.text s.location)
          (putField .entityType (.text "lore") (pickFields loreKeys LoreField.kind params))) :=
        typed.putField (by decide) trivial
      refine upsertLore_retold placed _ _ fun f kept => ?_
      have other : ¬ LoreField.location = f :=
        fun same => kept (same ▸ List.mem_cons_of_mem _ here)
      rw [fieldValue?_putField, if_neg other, tells f kept, Params.tells]
  · refine upsertLore_retold typed _ _ fun f kept => ?_
    rw [tells f kept, Params.tells]

theorem defineEntity_retold (s : GameState) (params : Params) :
    RetoldIn s.lore (defineEntity s params).state.lore (sanitizeName (params.required "name"))
      (fun _ => params.tellsEntity) params.blankKind := by
  have picked := settable_loreFields params
  have untyped : params.told loreKeys LoreField.kind .entityType = none :=
    told_eq_none (by decide)
  dsimp only [defineEntity]
  by_cases written : (params.value? "type").getD "" = ""
  · rw [if_pos written]
    refine upsertLore_retold picked _ _ fun f _ => ?_
    rw [fieldValue?_pickFields, Params.tellsEntity]
    split
    · next typed =>
        rw [typed, untyped]
        cases value : params.value? "type" with
        | none => rfl
        | some text =>
            obtain rfl : text = "" := by simpa [value] using written
            rfl
    · rfl
  · rw [if_neg written]
    refine upsertLore_retold (settable_typed picked _) _ _ fun f kept => ?_
    rw [fieldValue?_putField, fieldValue?_pickFields, Params.tellsEntity]
    by_cases typed : f = .entityType
    · subst typed
      cases value : params.value? "type" with
      | none => exact absurd (by rw [value]; rfl) written
      | some text =>
          have solid : isBlankText text = false := by
            by_contra blank
            rw [value] at written
            refine kept ?_
            rw [Params.blankKind, value, if_pos ⟨written, by simpa using blank⟩]
            exact List.mem_cons_self
          simp [Option.filter, solid, entityTypeOf]
    · rw [if_neg (Ne.symm typed), if_neg typed, Params.tells]

end

/-! ### Items -/

/-- What a command tells of an item: its fields, and the bonuses that it brings, within their
bounds. -/
def Params.tellsItem (params : Params) (player : StatBlock) (f : ItemField) : Option Content :=
  if f = .statBonuses then
    ((boundedModifiers params ["bonus.", "stat.", "stats."] "statbonuses" player).toOption.filter
      fun bonuses => !bonuses.isEmpty).map .bonuses
  else params.tells itemKeys ItemField.kind f

section

variable {s : GameState} {params : Params} {bonuses : Pairs String}

theorem content_describedBy {f : ItemField} (i : Item) (fields : List (ItemField × FieldValue))
    (unworn : f ≠ .statBonuses) (uncounted : f ≠ .quantity) (quantity : Int) :
    content f (i.describedBy fields bonuses quantity) = content f (i.putAll fields) := by
  cases f <;> first | rfl | exact absurd rfl unworn | exact absurd rfl uncounted

theorem content_withValue {f : ItemField} (i : Item) (unvalued : f ≠ .value) (value : Option Int) :
    content f { i with value := value } = content f i := by
  cases f <;> first | rfl | exact absurd rfl unvalued

theorem retold_describedBy
    (bounded : boundedModifiers params ["bonus.", "stat.", "stats."] "statbonuses" s.player =
      .ok bonuses) (i : Item) (quantity : Int) :
    Retold (params.tellsItem s.player) [.quantity] i
      (i.describedBy (pickFields itemKeys ItemField.kind params) bonuses quantity) := by
  have told : Retold (params.tells itemKeys ItemField.kind) [] i
      (i.putAll (pickFields itemKeys ItemField.kind params)) :=
    retold_pickFields (by decide) params i
  refine ⟨fun f own => ?_, fun f other kept => ?_⟩
  · obtain rfl := List.mem_singleton.mp own
    exact told.identity .name own
  · by_cases worn : f = .statBonuses
    · subst worn
      rw [Params.tellsItem, if_pos rfl, bounded]
      change Content.bonuses (if bonuses.isEmpty then i.statBonuses else bonuses) = _
      cases empty : bonuses.isEmpty <;> simp [Except.toOption, Option.filter, empty]
      rfl
    · have uncounted : f ≠ .quantity := fun same => kept (same ▸ List.mem_cons_self)
      rw [content_describedBy i _ worn uncounted, Params.tellsItem, if_neg worn]
      exact told.field f other List.not_mem_nil

theorem inventory_withInventory {worn : Bool} {inventory : List Item} {t : GameState}
    (h : s.withInventory worn inventory = .ok t) : t.inventory = inventory := by
  obtain ⟨player, rfl, _⟩ := withInventory_eq_ok h
  rfl

theorem retold_gained
    (bounded : boundedModifiers params ["bonus.", "stat.", "stats."] "statbonuses" s.player =
      .ok bonuses) (i : Item) (worth : Int) :
    Retold (params.tellsItem s.player) [.quantity, .value] i (s.gained params i bonuses worth) :=
  (retold_describedBy bounded i _).of_content (by decide)
    (fun f kept => content_withValue _ (fun same => kept (by simp [same])) _) (by decide)

/-- Items of which there are some already are told anew, their number and value apart. -/
theorem addItem_retold {effect : Effect} (done : addItem s params = .ok effect) :
    s.Lasts (fun t => RetoldIn s.inventory t.inventory (sanitizeName (params.required "name"))
      (fun _ => params.tellsItem s.player) [.quantity, .value]) effect.state := by
  obtain ⟨bonuses, worth, bounded, ⟨place, known, found, stored⟩ | ⟨missing, -, -⟩⟩ :=
    addItem_eq_ok done
  · have stock := inventory_withInventory stored
    have here : RetoldIn s.inventory effect.state.inventory
        (sanitizeName (params.required "name")) (fun _ => params.tellsItem s.player)
        [.quantity, .value] := by
      rw [stock]
      exact retoldIn_set found (retold_gained bounded known worth)
    refine ⟨here, fun legal => ?_⟩
    have stocked : ∀ i ∈ effect.state.inventory, 1 ≤ i.quantity := by
      rw [stock]
      exact stocked_set place legal.stocked (gained_quantity_pos _ _ _ _ legal.stocked)
    dsimp only
    rw [GameState.inventory_legalize stocked]
    exact here
  · exact ⟨retoldIn_of_none missing, fun _ => retoldIn_of_none missing⟩

end

/-! ### Every command that tells of a record -/

/-- A kind of command that tells of a record by name: its tag, and what becomes of a record that is
there already, from a state to one that the command leads to. -/
structure Retelling where
  tag : String
  retells : GameState → Params → GameState → Prop

/-- The kinds of commands that tell of a record by name. The command that changes a person looks for
the name in all circles, the others in the list in which they would put a new record. -/
def retellings : List Retelling :=
  [⟨"NPC_NEW", fun s params t => RetoldIn (s.people .encountered) (t.people .encountered)
      (sanitizeName params.introduced) (params.tellsPerson personKeys) s.redrawn⟩,
   ⟨"NPC_UPDATE", fun s params t => ∀ found, s.locate? (params.required "name") = some found →
      RetoldIn (s.people found.circle) (t.people found.circle) (params.required "name")
        (params.tellsPerson personUpdateKeys) []⟩,
   ⟨"COMPANION_NEW", fun s params t => RetoldIn (s.people .companions) (t.people .companions)
      (sanitizeName params.introduced) (params.tellsPerson personKeys)
      (s.redrawn ++ s.defaulted params)⟩,
   ⟨"FACTION_UPDATE", fun s params t => RetoldIn s.factions t.factions
      (sanitizeName (params.required "name"))
      (fun _ => params.tells factionKeys FactionField.kind) []⟩,
   ⟨"LOCATION_DISCOVERED", fun s params t => RetoldIn s.lore t.lore
      (sanitizeName (params.required "name"))
      (fun _ => params.tells loreKeys LoreField.kind) [.entityType]⟩,
   ⟨"LORE_DISCOVERED", fun s params t => RetoldIn s.lore t.lore
      (sanitizeName (params.required "name"))
      (fun _ => params.tells loreKeys LoreField.kind) (.entityType :: s.placed params)⟩,
   ⟨"ENTITY_DEFINITION", fun s params t => RetoldIn s.lore t.lore
      (sanitizeName (params.required "name")) (fun _ => params.tellsEntity) params.blankKind⟩,
   ⟨"ITEM_ADD", fun s params t => RetoldIn s.inventory t.inventory
      (sanitizeName (params.required "name")) (fun _ => params.tellsItem s.player)
      [.quantity, .value]⟩]

/-- Restoring leaves entries alone. -/
theorem RetoldIn.lasts_lore {s t : GameState} {called : String}
    {told : LoreEntry → LoreField → Option Content} {aside : List LoreField}
    (h : RetoldIn s.lore t.lore called told aside) :
    s.Lasts (fun t => RetoldIn s.lore t.lore called told aside) t := ⟨h, fun _ => h⟩

/-- Restoring leaves factions alone. -/
theorem RetoldIn.lasts_factions {s t : GameState} {called : String}
    {told : Faction → FactionField → Option Content} {aside : List FactionField}
    (h : RetoldIn s.factions t.factions called told aside) :
    s.Lasts (fun t => RetoldIn s.factions t.factions called told aside) t := ⟨h, fun _ => h⟩

/-- Every such kind of command has a rule, under which the record that is found is told anew. -/
theorem Retelling.exists_rule {retelling : Retelling} (listed : retelling ∈ retellings) :
    ∃ r ∈ Registry.rules, r.tag = retelling.tag ∧ ∀ s params, (params.map Prod.fst).Nodup →
      (r.run s params).Ensures fun e => s.Lasts (retelling.retells s params) e.state := by
  have about {r : CommandRule} (member : r ∈ Registry.people) : r ∈ Registry.rules := by
    simp only [Registry.rules, List.mem_append]
    tauto
  have known {r : CommandRule} (member : r ∈ Registry.knowledge) : r ∈ Registry.rules := by
    simp only [Registry.rules, List.mem_append]
    tauto
  simp only [retellings, List.mem_cons, List.not_mem_nil, or_false] at listed
  rcases listed with rfl | rfl | rfl | rfl | rfl | rfl | rfl | rfl
  · exact ⟨⟨"NPC_NEW", ["name"], true, meetPerson⟩, about (by simp [Registry.people]), rfl,
      fun s params _ => meetPerson_retold s params⟩
  · exact ⟨⟨"NPC_UPDATE", ["name"], true, updatePerson⟩, about (by simp [Registry.people]), rfl,
      fun s params _ => updatePerson_retold s params⟩
  · exact ⟨⟨"COMPANION_NEW", ["name"], true, joinCompanion⟩, about (by simp [Registry.people]),
      rfl, fun s params distinct => joinCompanion_retold distinct⟩
  · exact ⟨⟨"FACTION_UPDATE", ["name"], false, Registry.certain updateFaction⟩,
      known (by simp [Registry.knowledge]), rfl, fun s params _ =>
        Registry.certain_ensures (updateFaction_retold s params).lasts_factions⟩
  · exact ⟨⟨"LOCATION_DISCOVERED", ["name"], false, Registry.certain discoverPlace⟩,
      known (by simp [Registry.knowledge]), rfl, fun s params _ =>
        Registry.certain_ensures (discoverPlace_retold s params).lasts_lore⟩
  · exact ⟨⟨"LORE_DISCOVERED", ["name"], false, Registry.certain discoverLore⟩,
      known (by simp [Registry.knowledge]), rfl, fun s params _ =>
        Registry.certain_ensures (discoverLore_retold s params).lasts_lore⟩
  · exact ⟨⟨"ENTITY_DEFINITION", ["name"], false, Registry.certain defineEntity⟩,
      known (by simp [Registry.knowledge]), rfl, fun s params _ =>
        Registry.certain_ensures (defineEntity_retold s params).lasts_lore⟩
  · exact ⟨⟨"ITEM_ADD", ["name"], false, Registry.fallible addItem⟩,
      by simp [Registry.rules, Registry.belongings], rfl, fun s params _ =>
        Registry.fallible_ensures fun _ done => addItem_retold done⟩

/-- **A record that is told of again keeps what is not told.** A command that finds a record under
its name leaves it in its place, the same one by name and identifier. Each field takes the last
value that is told of it, and otherwise keeps what it held, but for those that the command sets on
its own. That holds of what any state leads to, and, where the state was legal, of that restored. -/
theorem retold_where_found {retelling : Retelling} (listed : retelling ∈ retellings) {c : Command}
    (tag : upper c.name = upper retelling.tag) (distinct : (c.params.map Prod.fst).Nodup)
    {s : GameState} {supply rest : Supply} {effect : Effect}
    (run : dispatch .standard s c supply = (.ok effect, rest)) :
    ∃ t, effect.state = t.legalize ∧ retelling.retells s c.params t ∧
      (s.legalize = s → retelling.retells s c.params effect.state) := by
  obtain ⟨r, member, tagged, lasts⟩ := Retelling.exists_rule listed
  rw [← tagged] at tag
  obtain ⟨raw, done, same⟩ := run_of_dispatch member tag run
  obtain ⟨holds, restored⟩ := lasts s c.params distinct supply raw rest done
  refine ⟨raw.state, same, holds, fun legal => ?_⟩
  rw [same]
  exact restored (legal ▸ s.legalize_legal)

/-- Somebody met before is met again under a longer name: what is told of twice, in blanks or beyond
the bounds, is taken as it should be, and the rest stays. -/
theorem retold_where_found_elder :
    let met : Person := { id := "id-1", name := "Mo", description := "A monk.", affinity := 5
                          title := some "Elder", given := [.name] }
    let told : Person := { met with
      physicalState := "Wounded", tags := ["tall", "thin"], resistance := 100, affinity := 8
      given := [.name, .physicalState, .resistance, .tags, .affinity] }
    let s : GameState := { settings := { enableStats := false }, cast := { encountered := [met] } }
    let c : Command := ⟨"npc_new",
      [("name", some "mo - the elder"), ("Physical-State", some "Wounded"),
       ("physicalState", some " "), ("resistance", some "250"), ("description", some ""),
       ("affinity", some "+=3"), ("tags", some "tall; Tall, thin")]⟩
    ∃ effect rest, dispatch .standard s c {} = (.ok effect, rest) ∧ s.legalize = s ∧
      effect.state.people .encountered = [told] ∧
      Retold (c.params.tellsPerson personKeys met) [] met told := by
  intro met told s c
  have listed : retellings[0] ∈ retellings := List.getElem_mem _
  have legal : s.legalize = s := by decide +kernel
  have after : (dispatch .standard s c {}).1.toOption.map (·.state.people .encountered) =
      some [told] := by decide +kernel
  obtain ⟨effect, ok, people⟩ := Option.map_eq_some_iff.mp after
  have run : dispatch .standard s c {} = (.ok effect, _) := Prod.ext (eq_ok_of_toOption ok) rfl
  obtain ⟨-, -, -, retells⟩ := retold_where_found listed (by decide +kernel) (by decide) run
  have found : findNamed? (s.people .encountered) (sanitizeName c.params.introduced) =
      some (0, met) := by decide +kernel
  obtain ⟨r, there, retold⟩ := retells legal 0 met found
  rw [people] at there
  obtain rfl : told = r := Option.some.inj there
  exact ⟨effect, _, run, legal, people, retold⟩

/-- Lore that is told of again comes to the place where the player is, though no place is told. -/
theorem lore_moves_when_retold :
    let relic : LoreEntry := { name := "Relic", location := "Tomb" }
    let s : GameState := {
      player := { tier := "Qi Refining Layer 1" }, playerName := "Lin", location := "Hall"
      settings := { enableStats := false }, lore := [relic] }
    let c : Command := ⟨"LORE_DISCOVERED", [("name", some "Relic"), ("description", some "Old.")]⟩
    ∃ effect rest, dispatch .standard s c {} = (.ok effect, rest) ∧ s.legalize = s ∧
      findNamed? s.lore "Relic" = some (0, relic) ∧
      effect.state.lore = [{ relic with description := "Old.", location := "Hall" }] ∧
      ¬ RetoldIn s.lore effect.state.lore "Relic"
        (fun _ => c.params.tells loreKeys LoreField.kind) [.entityType] := by
  intro relic s c
  have after : (dispatch .standard s c {}).1.toOption.map (·.state.lore) =
      some [{ relic with description := "Old.", location := "Hall" }] := by decide +kernel
  obtain ⟨effect, ok, lore⟩ := Option.map_eq_some_iff.mp after
  have run : dispatch .standard s c {} = (.ok effect, _) := Prod.ext (eq_ok_of_toOption ok) rfl
  have found : findNamed? s.lore "Relic" = some (0, relic) := by decide +kernel
  refine ⟨effect, _, run, by decide +kernel, found, lore, fun retold => ?_⟩
  obtain ⟨entry, there, told⟩ := retold 0 relic found
  rw [lore] at there
  obtain rfl := Option.some.inj there
  have untold : c.params.tells loreKeys LoreField.kind .location = none := by decide +kernel
  have place : content LoreField.location _ =
      (c.params.tells loreKeys LoreField.kind .location).getD (content LoreField.location relic) :=
    told.field .location (by decide) (by decide)
  rw [untold] at place
  exact absurd place (by decide)

end Ascent
