import Ascent.Proofs.Run

/-!
What leaves the player alone.

More than half of the commands are about people, about what is known, or about time. None of them
touches the player's stats, the inventory, the reputation or the settings, so what depends on these
alone is not affected by them. The same holds of what becomes of opponents in a fight and of
people's growth at the end of a turn, which leaves of either only a few steps that the player feels.

Main exports: `GameState.SameHero`, `GameState.Moves`, `Registry.bystanders`, `Registry.deeds`,
`Registry.bystander_or_deed`, `Registry.moves_of_person`, `Registry.sameHero_of_bystander`,
`disposeAll_keeps`, `progressPeople_eq_ok`, `applyCombatResult_eq_ok`, `tickStatus_eq_ok`,
`endTurn_eq_ok`.
-/

namespace Ascent

open Text

/-- The player's stats, the inventory, the reputation and the settings are the same in both
states. -/
structure GameState.SameHero (s t : GameState) : Prop where
  player : t.player = s.player
  inventory : t.inventory = s.inventory
  reputation : t.reputation = s.reputation
  settings : t.settings = s.settings

namespace GameState.SameHero

theorem refl (s : GameState) : s.SameHero s := ⟨rfl, rfl, rfl, rfl⟩

theorem trans {s t u : GameState} (h : s.SameHero t) (k : t.SameHero u) : s.SameHero u :=
  ⟨k.player.trans h.player, k.inventory.trans h.inventory, k.reputation.trans h.reputation,
    k.settings.trans h.settings⟩

theorem setPeople (s : GameState) (circle : Circle) (people : List Person) :
    s.SameHero (s.setPeople circle people) := ⟨rfl, rfl, rfl, rfl⟩

end GameState.SameHero

/-! ### People -/

namespace GameState

/-- A step that changes the people of one circle at most. -/
def Moves (s t : GameState) : Prop := ∃ circle people, t = s.setPeople circle people

theorem setPeople_people (s : GameState) (circle : Circle) :
    s.setPeople circle (s.people circle) = s := by
  cases circle <;> rfl

theorem setPeople_setPeople (s : GameState) (circle : Circle) (people others : List Person) :
    (s.setPeople circle people).setPeople circle others = s.setPeople circle others := by
  cases circle <;> rfl

theorem Moves.refl (s : GameState) : s.Moves s :=
  ⟨.encountered, _, (s.setPeople_people .encountered).symm⟩

theorem Moves.sameHero {s t : GameState} (h : s.Moves t) : s.SameHero t := by
  obtain ⟨circle, people, rfl⟩ := h
  exact .setPeople s circle people

end GameState

/-- Whoever is mentioned is in one circle, and putting the record back changes that one. -/
theorem ensurePerson_moves (s : GameState) (called : String) :
    (s.ensurePerson called).Ensures fun r => ∀ q, s.Moves (r.1.store r.2 q) := by
  unfold GameState.ensurePerson
  split
  · exact .pure fun q => ⟨_, _, rfl⟩
  · exact .of_bind fun _ => .of_bind fun _ => .pure fun q =>
      ⟨.encountered, _, s.setPeople_setPeople .encountered _ _⟩

theorem introduceIn_moves (s : GameState) (params : Params) (circle : Circle)
    (seed : Option Person) : (introduceIn s params circle seed).Ensures fun r => s.Moves r.1 :=
  .of_bind fun _ => .of_bind fun _ => .pure ⟨circle, _, rfl⟩

theorem leaveCompanion_moves (s : GameState) (params : Params) :
    s.Moves (leaveCompanion s params).state := by
  unfold leaveCompanion
  split
  · exact .refl s
  · exact ⟨.companions, _, rfl⟩

theorem changeRelation_moves (circle : Circle) (s : GameState) (params : Params) :
    s.Moves (changeRelation circle s params).state := by
  unfold changeRelation
  split
  · exact .refl s
  · exact ⟨circle, _, rfl⟩

/-! ### Knowledge, learning and time -/

theorem learnSkill_sameHero {s : GameState} {params : Params} {effect : Effect}
    (h : learnSkill s params = .ok effect) : s.SameHero effect.state := by
  unfold learnSkill at h
  dsimp only at h
  split at h
  · cases h
    exact ⟨rfl, rfl, rfl, rfl⟩
  · obtain ⟨_, _, h⟩ := exists_of_bind_eq_ok h
    cases h
    exact ⟨rfl, rfl, rfl, rfl⟩

theorem passTime_sameHero {s : GameState} {params : Params} {effect : Effect}
    (h : passTime s params = .ok effect) : s.SameHero effect.state := by
  obtain ⟨_, _, h⟩ := exists_of_bind_eq_ok h
  dsimp only at h
  split at h
  · cases h
    exact .refl s
  · cases h
    exact ⟨rfl, rfl, rfl, rfl⟩

theorem updateFaction_sameHero (s : GameState) (params : Params) :
    s.SameHero (updateFaction s params).state := by
  dsimp only [updateFaction]
  exact ⟨rfl, rfl, rfl, rfl⟩

theorem discoverPlace_sameHero (s : GameState) (params : Params) :
    s.SameHero (discoverPlace s params).state := by
  dsimp only [discoverPlace]
  exact ⟨rfl, rfl, rfl, rfl⟩

theorem discoverLore_sameHero (s : GameState) (params : Params) :
    s.SameHero (discoverLore s params).state := by
  dsimp only [discoverLore]
  exact ⟨rfl, rfl, rfl, rfl⟩

theorem defineEntity_sameHero (s : GameState) (params : Params) :
    s.SameHero (defineEntity s params).state := by
  dsimp only [defineEntity]
  exact ⟨rfl, rfl, rfl, rfl⟩

theorem setClock_sameHero (s : GameState) (params : Params) :
    s.SameHero (setClock s params).state := ⟨rfl, rfl, rfl, rfl⟩

theorem addMemory_sameHero (s : GameState) (params : Params) :
    s.SameHero (addMemory s params).state := by
  unfold addMemory
  dsimp only
  split
  · exact .refl s
  · exact ⟨rfl, rfl, rfl, rfl⟩

/-! ### Fights and turns -/

/-- What other people in a circle leave as it is, a disposition leaves as it is. -/
theorem dispose_keeps {P : GameState → Prop}
    (kept : ∀ s circle people, P s → P (s.setPeople circle people)) {s : GameState} (before : P s)
    (called : String) (d : Disposition) : P (s.dispose called d) := by
  cases d with
  | capture =>
      dsimp only [GameState.dispose, GameState.capture]
      split
      · exact before
      · exact kept _ _ _ (kept _ _ _ before)
  | kill =>
      dsimp only [GameState.dispose, GameState.kill]
      split
      · exact before
      · exact kept _ _ _ before
  | release => exact before

/-- What every disposition keeps, all of them keep. -/
theorem disposeAll_keeps_each {P : GameState → Prop}
    (kept : ∀ s called d, P s → P (s.dispose called d)) (dispositions : Pairs Disposition)
    {s : GameState} (h : P s) :
    P (dispositions.foldl (fun state (called, d) => state.dispose called d) s) := by
  induction dispositions generalizing s with
  | nil => exact h
  | cons first rest ih => exact ih (kept s first.1 first.2 h)

theorem disposeAll_keeps {P : GameState → Prop}
    (kept : ∀ s circle people, P s → P (s.setPeople circle people)) {s : GameState} (before : P s)
    (dispositions : Pairs Disposition) :
    P (dispositions.foldl (fun state (called, d) => state.dispose called d) s) :=
  disposeAll_keeps_each (P := P) (fun _ called d h => dispose_keeps kept h called d) dispositions
    before

/-- People's growth changes nothing but people. -/
theorem progressPeople_eq_ok {s t : GameState} {messages : List String}
    (h : s.progressPeople = .ok (t, messages)) : ∃ cast, t = { s with cast := cast } := by
  unfold GameState.progressPeople at h
  split at h
  · cases h
    exact ⟨s.cast, rfl⟩
  · obtain ⟨_, _, h⟩ := exists_of_bind_eq_ok h
    obtain ⟨_, _, h⟩ := exists_of_bind_eq_ok h
    obtain ⟨_, _, h⟩ := exists_of_bind_eq_ok h
    obtain ⟨_, _, h⟩ := exists_of_bind_eq_ok h
    obtain ⟨_, _, h⟩ := exists_of_bind_eq_ok h
    cases h
    exact ⟨_, rfl⟩

/-- The state that the dispositions of a fight leave. -/
def GameState.fought (s : GameState) (r : CombatResult) : GameState :=
  r.dispositions.foldl (fun state (called, d) => state.dispose called d)
    { s with pendingCombat := none, player := s.player.afterFight r }

/-- The state with the inventory that a fight hands back, if it does. -/
def GameState.takeStock (s : GameState) (r : CombatResult) : Except Fault GameState :=
  match r.finalInventory with
  | none => .ok s
  | some inventory => do
    return { s with player := ← s.player.refresh inventory, inventory := inventory }

/-- What a fight comes to once everything is settled: it decides a trial, unless the player got
away. -/
def GameState.concludeFight (s : GameState) (r : CombatResult) : Except Fault Effect := do
  let summary := if r.summary = "" then [] else [r.summary]
  if s.player.phase = .inTribulation ∧ r.outcome ≠ .escaped then
    let trial ← settleTrial s (r.outcome = .victory)
    return { state := trial.state, messages := summary ++ trial.messages }
  else return { state := s, messages := summary }

/-- The result of a fight is taken up in three steps. -/
theorem applyCombatResult_eq (s : GameState) (r : CombatResult) :
    applyCombatResult s r =
      (s.fought r).takeStock r >>= fun settled => settled.concludeFight r := by
  have left : r.dispositions.foldl (fun state (called, d) => state.dispose called d)
    { s with pendingCombat := none, player := s.player.afterFight r } = s.fought r := rfl
  unfold applyCombatResult
  dsimp only
  rw [left]
  generalize s.fought r = t
  unfold GameState.takeStock
  cases r.finalInventory with
  | none => rfl
  | some inventory =>
      dsimp only
      cases t.player.refresh inventory <;> rfl

/-- Dispositions change nothing but people. -/
theorem fought_eq (s : GameState) (r : CombatResult) : ∃ cast, s.fought r =
    { s with pendingCombat := none, player := s.player.afterFight r, cast := cast } := by
  let left : GameState := { s with pendingCombat := none, player := s.player.afterFight r }
  have moved (t : GameState) (circle : Circle) (people : List Person)
      (h : ∃ cast, t = { left with cast := cast }) :
      ∃ cast, t.setPeople circle people = { left with cast := cast } := by
    obtain ⟨cast, rfl⟩ := h
    exact ⟨cast.set circle people, rfl⟩
  exact disposeAll_keeps moved ⟨s.cast, rfl⟩ r.dispositions

theorem fought_sameHero (s : GameState) (r : CombatResult) :
    GameState.SameHero { s with pendingCombat := none, player := s.player.afterFight r }
      (s.fought r) := by
  obtain ⟨cast, same⟩ := fought_eq s r
  rw [same]
  exact ⟨rfl, rfl, rfl, rfl⟩

/-- What the player has after a fight: pools, and the inventory if it comes back with one; then a
trial may be decided. -/
theorem applyCombatResult_eq_ok {s : GameState} {r : CombatResult} {effect : Effect}
    (h : applyCombatResult s r = .ok effect) :
    ∃ settled : GameState,
      (r.finalInventory = none ∧ settled = s.fought r ∨
        ∃ items player, r.finalInventory = some items ∧
          (s.fought r).player.refresh items = .ok player ∧
          settled = { s.fought r with player := player, inventory := items }) ∧
      (effect.state = settled ∨
        settled.player.phase = .inTribulation ∧ r.outcome ≠ .escaped ∧
          ∃ trial, settleTrial settled (r.outcome = .victory) = .ok trial ∧
            effect.state = trial.state) := by
  rw [applyCombatResult_eq] at h
  obtain ⟨settled, taken, h⟩ := exists_of_bind_eq_ok h
  refine ⟨settled, ?_, ?_⟩
  · unfold GameState.takeStock at taken
    split at taken
    · next kept => exact .inl ⟨kept, (Except.ok.inj taken).symm⟩
    · next items given =>
        obtain ⟨player, refreshed, taken⟩ := exists_of_bind_eq_ok taken
        exact .inr ⟨items, player, given, refreshed, (Except.ok.inj taken).symm⟩
  · unfold GameState.concludeFight at h
    dsimp only at h
    split at h
    · next trying =>
        obtain ⟨trial, ended, h⟩ := exists_of_bind_eq_ok h
        exact .inr ⟨trying.1, trying.2, trial, ended, by rw [← Except.ok.inj h]⟩
    · exact .inl (by rw [← Except.ok.inj h])

/-- A command that tells how a fight ended hands back no inventory. -/
theorem finalInventory_of_combatResultOf? {params : Params} {r : CombatResult}
    (told : combatResultOf? params = some r) : r.finalInventory = none := by
  simp only [combatResultOf?, Option.bind_eq_bind, Option.bind_eq_some_iff, Option.pure_def,
    Option.some.injEq] at told
  obtain ⟨_, _, _, _, _, _, rfl⟩ := told
  rfl

/-- The player with the status effects that last on. -/
def StatBlock.outlast (s : StatBlock) : StatBlock :=
  { s with statusEffects := (s.statusEffects.filter (!·.expires)).map (·.tick) }

theorem GameState.tickStatus_eq (s : GameState) : s.tickStatus =
    (if (s.player.statusEffects.filter (·.expires)).isEmpty then .ok s.player.outlast
      else s.player.outlast.refresh s.inventory) >>= fun player =>
      .ok ({ s with player := player },
        (s.player.statusEffects.filter (·.expires)).map fun e => s!"Status ended: {e.name}") := by
  unfold GameState.tickStatus
  dsimp only
  split <;> rfl

/-- Status effects of the player last on, one turn less each, or those that are left are computed
in. -/
theorem tickStatus_eq_ok {s t : GameState} {ended : List String}
    (h : s.tickStatus = .ok (t, ended)) :
    ∃ player, t = { s with player := player } ∧
      (player = { s.player with statusEffects := s.player.statusEffects.map (·.tick) } ∨
        s.player.outlast.refresh s.inventory = .ok player) := by
  rw [GameState.tickStatus_eq] at h
  obtain ⟨player, left, h⟩ := exists_of_bind_eq_ok h
  refine ⟨player, (Prod.mk.inj (Except.ok.inj h)).1.symm, ?_⟩
  split at left
  · next none =>
      have lasting : s.player.statusEffects.filter (!·.expires) = s.player.statusEffects := by
        refine List.filter_eq_self.mpr fun e member => ?_
        have := List.filter_eq_nil_iff.mp (List.isEmpty_iff.mp none) e member
        simpa using this
      rw [StatBlock.outlast, lasting] at left
      exact .inl (Except.ok.inj left).symm
  · exact .inr left

/-- Neither people nor the count of turns are the player's. -/
theorem GameState.SameHero.turned (s : GameState) (cast : Cast) (turn : Int) :
    s.SameHero { s with cast := cast, turn := turn } := ⟨rfl, rfl, rfl, rfl⟩

/-- When a turn ends, durations are counted down, then people grow, and the state is restored. -/
theorem endTurn_eq_ok {s t : GameState} {messages : List String}
    (h : s.endTurn = .ok (t, messages)) :
    ∃ ticked ended cast news, s.tickStatus = .ok (ticked, ended) ∧
      ticked.progressPeople = .ok ({ ticked with cast := cast }, news) ∧
      messages = ended ++ news ∧
      t = GameState.legalize { ticked with cast := cast, turn := ticked.turn + 1 } := by
  obtain ⟨⟨ticked, ended⟩, ticking, h⟩ := exists_of_bind_eq_ok h
  obtain ⟨⟨grown, news⟩, growing, h⟩ := exists_of_bind_eq_ok h
  obtain ⟨cast, rfl⟩ := progressPeople_eq_ok growing
  obtain ⟨rfl, rfl⟩ := Prod.mk.inj (Except.ok.inj h)
  exact ⟨ticked, ended, cast, news, ticking, growing, rfl, rfl⟩

/-! ### The rules -/

namespace Registry

/-- The rules about what is known, and those about practice, time and memory. -/
def errands : List CommandRule :=
  knowledge ++
    [⟨"SKILL_LEARNED", ["name"], false, fallible learnSkill⟩,
     ⟨"TIME_PASS", [], false, fallible passTime⟩,
     ⟨"WORLD_TIME_SET", [], false, certain setClock⟩,
     ⟨"MEMORY_ADD", ["content"], false, certain addMemory⟩]

/-- The rules that leave the player alone. -/
def bystanders : List CommandRule := people ++ errands

/-- The rules that the player feels. -/
def deeds : List CommandRule :=
  [⟨"ITEM_ADD", ["name"], false, fallible addItem⟩,
   ⟨"ITEM_REMOVE", ["name"], false, fallible removeItem⟩,
   ⟨"ITEM_EQUIP", ["name"], false, fallible (wearItem true)⟩,
   ⟨"ITEM_UNEQUIP", ["name"], false, fallible (wearItem false)⟩,
   ⟨"STAT_CHANGE", ["name"], false, fallible changePlayerStat⟩,
   ⟨"STATUS_ACQUIRED", ["name"], false, fallible acquireStatus⟩,
   ⟨"STATUS_REMOVED", ["name"], false, fallible removeStatus⟩,
   ⟨"REPUTATION_CHANGED", ["score"], false, fallible changeReputation⟩,
   ⟨"BREAKTHROUGH_BEGIN", [], false, certain fun state _ => beginTrial state⟩,
   ⟨"BREAKTHROUGH_RESULT", ["success"], false, fallible endTrial⟩,
   ⟨"BEGIN_COMBAT", ["opponentIds"], false, certain beginFight⟩,
   ⟨"COMBAT_END", ["outcome"], false, fallible endFight⟩]

theorem bystander_or_deed {r : CommandRule} (member : r ∈ rules) : r ∈ bystanders ∨ r ∈ deeds := by
  simp only [rules, belongings, condition, events, List.mem_append, List.mem_cons,
    List.not_mem_nil, or_false] at member
  simp only [bystanders, errands, deeds, List.mem_append, List.mem_cons, List.not_mem_nil, or_false]
  grind

theorem certain_ensures {f : GameState → Params → Effect} {s : GameState} {params : Params}
    {P : Effect → Prop} (h : P (f s params)) : (certain f s params).Ensures P :=
  .pure h

theorem fallible_ensures {f : GameState → Params → Except Fault Effect} {s : GameState}
    {params : Params} {P : Effect → Prop} (h : ∀ e, f s params = .ok e → P e) :
    (fallible f s params).Ensures P :=
  .ofExcept h

/-- A command about people changes the people of one circle and nothing else. -/
theorem moves_of_person {r : CommandRule} (member : r ∈ people) (s : GameState) (params : Params) :
    (r.run s params).Ensures fun e => s.Moves e.state := by
  simp only [people, List.mem_cons, List.not_mem_nil, or_false] at member
  rcases member with rfl | rfl | rfl | rfl | rfl | rfl | rfl | rfl | rfl
  · exact .bind (introduceIn_moves s params .encountered none) fun _ moves => .pure moves
  · exact .bind (ensurePerson_moves s _) fun _ moves => .pure (moves _)
  · exact .bind (ensurePerson_moves s _) fun _ moves => .pure (moves _)
  · exact .bind (ensurePerson_moves s _) fun _ moves => .pure (moves _)
  · exact .bind (introduceIn_moves s _ .companions _) fun _ moves => .pure moves
  · exact certain_ensures (leaveCompanion_moves s params)
  · exact certain_ensures (changeRelation_moves .wives s params)
  · exact certain_ensures (changeRelation_moves .slaves s params)
  · exact certain_ensures (changeRelation_moves .prisoners s params)

theorem sameHero_of_errand {r : CommandRule} (member : r ∈ errands) (s : GameState)
    (params : Params) : (r.run s params).Ensures fun e => s.SameHero e.state := by
  simp only [errands, knowledge, List.cons_append, List.nil_append, List.mem_cons,
    List.not_mem_nil, or_false] at member
  rcases member with rfl | rfl | rfl | rfl | rfl | rfl | rfl | rfl
  · exact certain_ensures (updateFaction_sameHero s params)
  · exact certain_ensures (discoverPlace_sameHero s params)
  · exact certain_ensures (discoverLore_sameHero s params)
  · exact certain_ensures (defineEntity_sameHero s params)
  · exact fallible_ensures fun _ => learnSkill_sameHero
  · exact fallible_ensures fun _ => passTime_sameHero
  · exact certain_ensures (setClock_sameHero s params)
  · exact certain_ensures (addMemory_sameHero s params)

theorem sameHero_of_bystander {r : CommandRule} (member : r ∈ bystanders) (s : GameState)
    (params : Params) : (r.run s params).Ensures fun e => s.SameHero e.state := by
  rcases List.mem_append.mp member with met | errand
  · exact (moves_of_person met s params).mono fun _ => GameState.Moves.sameHero
  · exact sameHero_of_errand errand s params

end Registry
end Ascent
