import Ascent.Proofs.Legality
import Ascent.Proofs.Sync

/-!
Status effects last exactly their duration.

The end of a turn counts durations down and drops what has run out, so after some turns those are
left that last longer, each with the turns gone by taken off; one that has no turns left to begin
with goes with the first. The player is computed afresh only where something was dropped, which is
enough: a duration is not measured. Nothing else of the player is touched, but pools go down with
their maxima.

Main exports: `StatusEffect.lasts`, `StatusEffect.later`, `GameState.Later`,
`GameState.Closes`, `GameState.endTurn_outlives`, `GameState.Later.next`, `Game.exists_turn`,
`statuses_last_their_turns`.
-/

namespace Ascent

/-! ### Durations -/

namespace StatusEffect

/-- Whether a status is still there after so many turns. One turn is the least that it lasts. -/
def lasts (n : ℕ) (e : StatusEffect) : Bool := e.duration.all fun turns => (n : Int) < max 1 turns

/-- A status with so many turns taken off its duration. -/
def later (n : ℕ) (e : StatusEffect) : StatusEffect :=
  { e with duration := e.duration.map fun turns => turns - n }

/-- Whether a status goes with the end of the turn of this number, counted from one. -/
def endsWith (n : ℕ) (e : StatusEffect) : Bool :=
  e.duration.any fun turns => max 1 turns = (n : Int)

/-- What is reported when a status goes. -/
def farewell (e : StatusEffect) : String := s!"Status ended: {e.name}"

variable (e : StatusEffect) (n : ℕ)

theorem lasts_zero : e.lasts 0 = true := by
  unfold lasts
  cases e.duration with
  | none => rfl
  | some turns => exact decide_eq_true (by omega)

theorem later_zero : e.later 0 = e := by
  unfold later
  cases duration : e.duration with
  | none => rw [Option.map_none, ← duration]
  | some turns => simp [← duration]

theorem tick_later : (e.later n).tick = e.later (n + 1) := by
  unfold tick later
  rw [Option.map_map]
  congr 2
  funext turns
  simp only [Function.comp_apply]
  omega

/-- What lasts one turn more was there and did not run out. -/
theorem lasts_succ : (e.lasts n && !(e.later n).expires) = e.lasts (n + 1) := by
  unfold lasts later expires
  cases e.duration with
  | none => rfl
  | some turns =>
      rw [Bool.eq_iff_iff]
      simp only [Option.all_some, Option.map_some, Option.any_some, Bool.and_eq_true,
        decide_eq_true_eq, Bool.not_eq_true', decide_eq_false_iff_not]
      omega

theorem endsWith_succ : (e.lasts n && (e.later n).expires) = e.endsWith (n + 1) := by
  unfold lasts later expires endsWith
  cases e.duration with
  | none => rfl
  | some turns =>
      rw [Bool.eq_iff_iff]
      simp only [Option.all_some, Option.map_some, Option.any_some, Bool.and_eq_true,
        decide_eq_true_eq]
      omega

variable (effects : List StatusEffect)

/-- Counted down once more, those are left that last a turn longer. -/
theorem outlast_later :
    (((effects.filter (·.lasts n)).map (·.later n)).filter (!·.expires)).map (·.tick) =
      (effects.filter (·.lasts (n + 1))).map (·.later (n + 1)) := by
  rw [List.filter_map, List.map_map, List.filter_filter]
  congr 1
  · funext e
    exact tick_later e n
  · congr 1
    funext e
    rw [← lasts_succ, Bool.and_comm]
    rfl

/-- Those that run out then are those whose number of turns is full. -/
theorem expired_later :
    (((effects.filter (·.lasts n)).map (·.later n)).filter (·.expires)).map (·.farewell) =
      (effects.filter (·.endsWith (n + 1))).map (·.farewell) := by
  rw [List.filter_map, List.map_map, List.filter_filter]
  congr 1
  congr 1
  funext e
  rw [← endsWith_succ, Bool.and_comm]
  rfl

end StatusEffect

/-! ### The end of a turn -/

namespace GameState

/-- What the ends of turns leave alone, status effects and pools aside. -/
structure Unmoved (s t : GameState) : Prop where
  tier : t.player.tier = s.player.tier
  experience : t.player.experience = s.player.experience
  base : t.player.base = s.player.base
  inventory : t.inventory = s.inventory
  worldTime : t.worldTime = s.worldTime

theorem Unmoved.refl (s : GameState) : s.Unmoved s := ⟨rfl, rfl, rfl, rfl, rfl⟩

theorem Unmoved.trans {s t u : GameState} (h : s.Unmoved t) (k : t.Unmoved u) : s.Unmoved u :=
  ⟨k.tier.trans h.tier, k.experience.trans h.experience, k.base.trans h.base,
    k.inventory.trans h.inventory, k.worldTime.trans h.worldTime⟩

/-- A state in which so many turns have ended since another one. -/
structure Later (s : GameState) (n : ℕ) (t : GameState) : Prop where
  legal : t.Legal
  sync : t.InSync
  statuses : t.player.statusEffects =
    (s.player.statusEffects.filter (·.lasts n)).map (·.later n)
  turn : t.turn = s.turn + n
  unmoved : s.Unmoved t

/-- What the end of a turn tells, and what it does to the pools: the statuses that go are reported,
and then what people have come to; the stats are in sync again, and no pool has grown. -/
structure Closes (s : GameState) (gone : List StatusEffect) (messages : List String)
    (t : GameState) : Prop where
  report : ∃ grown advances, s.progressPeople = .ok (grown, advances) ∧
    messages = gone.map (·.farewell) ++ advances
  sync : t.InSync
  vitality : t.player.vitality ≤ s.player.vitality
  resource : t.player.resource ≤ s.player.resource

end GameState

/-- What counting durations down does to stats: status effects that run out are dropped, and pools
may go down with their maxima. -/
structure StatBlock.Outlives (s t : StatBlock) : Prop where
  statuses : t.statusEffects = (s.statusEffects.filter (!·.expires)).map (·.tick)
  tier : t.tier = s.tier
  base : t.base = s.base
  experience : max 0 t.experience = max 0 s.experience
  vitality : t.vitality ≤ max 0 s.vitality
  resource : t.resource ≤ max 0 s.resource

open GameState

theorem outlast_outlives (s : StatBlock) : s.Outlives s.outlast :=
  ⟨rfl, rfl, rfl, rfl, Int.le_max_right _ _, Int.le_max_right _ _⟩

/-- New maxima cut the pools down, and fill none. -/
theorem StatBlock.Outlives.withCurrent {s t : StatBlock} (h : s.Outlives t)
    (current : Attributes Int) : s.Outlives (t.withCurrent current) where
  statuses := h.statuses
  tier := h.tier
  base := h.base
  experience := by
    have := h.experience
    dsimp only [StatBlock.withCurrent]
    omega
  vitality := by
    have := h.vitality
    dsimp only [StatBlock.withCurrent, StatBlock.clampPool]
    omega
  resource := by
    have := h.resource
    dsimp only [StatBlock.withCurrent, StatBlock.clampPool]
    omega

/-- Restoring cuts the pools down, and fills none. -/
theorem StatBlock.Outlives.legalize {s t : StatBlock} (h : s.Outlives t) (settings : Settings) :
    s.Outlives (t.legalize settings) where
  statuses := h.statuses
  tier := h.tier
  base := h.base
  experience := by
    have := h.experience
    dsimp only [StatBlock.legalize]
    omega
  vitality := by
    have := h.vitality
    dsimp only [StatBlock.legalize, StatBlock.clampPool]
    omega
  resource := by
    have := h.resource
    dsimp only [StatBlock.legalize, StatBlock.clampPool]
    omega

/-- The end of a turn counts down the player's status effects and reports those that run out. -/
theorem tickStatus_outlives {s t : GameState} {ended : List String}
    (h : s.tickStatus = .ok (t, ended)) :
    ended = (s.player.statusEffects.filter (·.expires)).map (·.farewell) ∧
      ∃ player, t = { s with player := player } ∧ s.player.Outlives player := by
  rw [GameState.tickStatus_eq] at h
  obtain ⟨player, left, h⟩ := exists_of_bind_eq_ok h
  obtain ⟨rfl, rfl⟩ := Prod.mk.inj (Except.ok.inj h)
  constructor
  · rfl
  · exists player
    constructor
    · rfl
    · split at left
      · exact Except.ok.inj left ▸ outlast_outlives s.player
      · rw [StatBlock.refresh_eq_map] at left
        obtain ⟨current, _, rfl⟩ := exists_of_map_eq_ok left
        exact (outlast_outlives s.player).withCurrent current

/-- How people grow does not depend on the player. -/
theorem progressPeople_withPlayer (s : GameState) (player : StatBlock) :
    { s with player := player }.progressPeople =
      s.progressPeople.map fun (t, messages) => ({ t with player := player }, messages) := by
  unfold GameState.progressPeople
  dsimp only
  split
  · rfl
  · cases progressAll s.settings s.cast.encountered with
    | error e => rfl
    | ok first =>
        cases progressAll s.settings s.cast.companions with
        | error e => rfl
        | ok second =>
            cases progressAll s.settings s.cast.wives with
            | error e => rfl
            | ok third =>
                cases progressAll s.settings s.cast.slaves with
                | error e => rfl
                | ok fourth =>
                    cases progressAll s.settings s.cast.prisoners with
                    | error e => rfl
                    | ok fifth => rfl

namespace GameState

variable {s t u : GameState} {n : ℕ} {messages : List String}

/-- Before the first turn ends, all is as it was. -/
theorem Later.begin (legal : s.Legal) (sync : s.InSync) : s.Later 0 s where
  legal := legal
  sync := sync
  statuses := by simp [StatusEffect.lasts_zero, StatusEffect.later_zero]
  turn := (Int.add_zero s.turn).symm
  unmoved := .refl s

/-- How people grow in a turn that ends does not depend on the durations that are counted down. -/
theorem endTurn_outlives (run : t.endTurn = .ok (u, messages)) :
    ∃ player cast news, t.player.Outlives player ∧
      t.progressPeople = .ok ({ t with cast := cast }, news) ∧
      messages = (t.player.statusEffects.filter (·.expires)).map (·.farewell) ++ news ∧
      u = GameState.legalize { t with player := player, cast := cast, turn := t.turn + 1 } := by
  obtain ⟨ticked, ended, cast, news, ticking, growing, rfl, rfl⟩ := endTurn_eq_ok run
  obtain ⟨rfl, player, rfl, outlives⟩ := tickStatus_outlives ticking
  rw [progressPeople_withPlayer] at growing
  obtain ⟨⟨people, told⟩, grew, same⟩ := exists_of_map_eq_ok growing
  obtain ⟨cast', rfl⟩ := progressPeople_eq_ok grew
  obtain rfl : cast' = cast := congrArg (·.1.cast) same
  obtain rfl : told = news := congrArg Prod.snd same
  exact ⟨player, cast', _, outlives, grew, rfl, rfl⟩

/-- One more turn ends. -/
theorem Later.next (h : s.Later n t) (run : t.endTurn = .ok (u, messages)) :
    s.Later (n + 1) u ∧
      t.Closes (s.player.statusEffects.filter (·.endsWith (n + 1))) messages u := by
  have stocked : t.Stocked := h.legal.stocked
  have sound : t.Sound := ⟨StatBlock.refresh_eq_self_iff.mp h.sync, stocked⟩
  have sync : u.InSync := ((Event.Leads.turnEnd run).sound sound).inSync
  obtain ⟨player, cast, news, counted, grew, rfl, rfl⟩ := endTurn_outlives run
  have restored := legalize_legal { t with player := player, cast := cast, turn := t.turn + 1 }
  have outlives := counted.legalize t.settings
  have unmoved : t.Unmoved (GameState.legalize { t with
      player := player, cast := cast, turn := t.turn + 1 }) := by
    apply Unmoved.mk
    · exact outlives.tier
    · have before := h.legal.player.experience
      have after := restored.player.experience
      have same := outlives.experience
      exact (Int.max_eq_right after).symm.trans (same.trans (Int.max_eq_right before))
    · exact outlives.base
    · exact inventory_legalize h.legal.stocked
    · rfl
  constructor
  · apply Later.mk
    · exact restored
    · exact sync
    · rw [← StatusEffect.outlast_later, ← h.statuses]
      exact outlives.statuses
    · rw [Int.natCast_succ, ← Int.add_assoc, ← h.turn]
      rfl
    · exact h.unmoved.trans unmoved
  · apply Closes.mk
    · exact ⟨{ t with cast := cast }, news, grew, by rw [h.statuses, StatusEffect.expired_later]⟩
    · exact sync
    · exact Int.le_trans outlives.vitality
        (Int.le_of_eq (Int.max_eq_right h.legal.player.vitality.1))
    · exact Int.le_trans outlives.resource
        (Int.le_of_eq (Int.max_eq_right h.legal.player.resource.1))

end GameState

/-! ### Turn after turn -/

namespace Game

variable {game next after : Game} {k : ℕ} {messages : List String} {reports : List (List String)}

theorem state_of_endTurn (h : game.endTurn = (.ok messages, next)) :
    game.state.endTurn = .ok (next.state, messages) := by
  unfold Game.endTurn at h
  split at h
  · next state told ended =>
      obtain ⟨same, rfl⟩ := Prod.mk.inj h
      rw [ended, Except.ok.inj same]
  · cases (Prod.mk.inj h).1

/-- Turns that all end: the first one does, and the others after it. -/
theorem endTurns_succ_eq_ok (h : game.endTurns (k + 1) = (.ok reports, after)) :
    ∃ messages next rest, game.endTurn = (.ok messages, next) ∧
      next.endTurns k = (.ok rest, after) ∧ reports = messages :: rest := by
  unfold endTurns at h
  split at h
  · cases (Prod.mk.inj h).1
  · next messages next first =>
      dsimp only at h
      obtain ⟨told, left⟩ := Prod.mk.inj h
      obtain ⟨rest, ended, rfl⟩ := exists_of_map_eq_ok told
      exact ⟨messages, next, rest, first, Prod.ext ended left, rfl⟩

theorem endTurns_succ_of_ok {rest : List (List String)}
    (first : game.endTurn = (.ok messages, next))
    (others : next.endTurns k = (.ok rest, after)) :
    game.endTurns (k + 1) = (.ok (messages :: rest), after) := by
  rw [endTurns, first]
  dsimp only
  rw [others]
  rfl

/-- The last of several turns ends where all before it have ended. -/
theorem exists_of_endTurns_succ (h : game.endTurns (k + 1) = (.ok reports, after)) :
    ∃ init before messages, game.endTurns k = (.ok init, before) ∧
      before.endTurn = (.ok messages, after) ∧ reports = init ++ [messages] := by
  induction k generalizing game reports with
  | zero =>
      obtain ⟨messages, next, rest, first, others, rfl⟩ := endTurns_succ_eq_ok h
      obtain ⟨none, rfl⟩ := Prod.mk.inj others
      exact ⟨[], game, messages, rfl, first, by rw [← Except.ok.inj none]; rfl⟩
  | succ k ih =>
      obtain ⟨messages, next, rest, first, others, rfl⟩ := endTurns_succ_eq_ok h
      obtain ⟨init, before, last, ended, final, rfl⟩ := ih others
      exact ⟨messages :: init, before, last, endTurns_succ_of_ok first ended, final, rfl⟩

theorem length_of_endTurns (h : game.endTurns k = (.ok reports, after)) : reports.length = k := by
  induction k generalizing reports after with
  | zero =>
      obtain ⟨none, -⟩ := Prod.mk.inj h
      rw [← Except.ok.inj none]
      rfl
  | succ k ih =>
      obtain ⟨init, before, messages, ended, -, rfl⟩ := exists_of_endTurns_succ h
      rw [List.length_append, ih ended]
      rfl

/-- However many turns have ended, the state is that many turns later. -/
theorem later_of_endTurns (legal : game.state.Legal) (sync : game.state.InSync)
    (h : game.endTurns k = (.ok reports, after)) : game.state.Later k after.state := by
  induction k generalizing reports after with
  | zero =>
      obtain ⟨-, rfl⟩ := Prod.mk.inj h
      exact .begin legal sync
  | succ k ih =>
      obtain ⟨init, before, messages, ended, final, -⟩ := exists_of_endTurns_succ h
      exact ((ih ended).next (state_of_endTurn final)).1

/-- Each of the turns was ended in its place, with its own report. -/
theorem exists_turn (h : game.endTurns k = (.ok reports, after)) {i : ℕ} (within : i < k) :
    ∃ before messages next, game.endTurns i = (.ok (reports.take i), before) ∧
      before.endTurn = (.ok messages, next) ∧ reports[i]? = some messages := by
  induction k generalizing reports after with
  | zero => exact absurd within (Nat.not_lt_zero i)
  | succ k ih =>
      obtain ⟨init, before, messages, ended, final, rfl⟩ := exists_of_endTurns_succ h
      have length := length_of_endTurns ended
      rcases Nat.lt_succ_iff_lt_or_eq.mp within with earlier | rfl
      · obtain ⟨early, told, next, started, turned, report⟩ := ih ended earlier
        refine ⟨early, told, next, ?_, turned, ?_⟩
        · rwa [List.take_append_of_le_length (by omega)]
        · rwa [List.getElem?_append_left (by omega)]
      · have front : (init ++ [messages]).take i = init := by rw [← length, List.take_left]
        refine ⟨before, messages, after, ?_, final, ?_⟩
        · rwa [front]
        · rw [← length, List.getElem?_concat_length]

end Game

/-- Status effects last exactly their duration. In a legal state in sync, after the ends of so many
turns, one at least, the player is under the permanent ones and those that last longer, in their
order, with the turns gone by taken off; tier, experience, base, inventory and clock are as they
were, and the turns are counted. In each turn those are reported that last so many turns, where one
is the least, and then what people have come to; after it the stats are in sync again, and no pool
has grown. -/
theorem statuses_last_their_turns {game after : Game} {k : ℕ} {reports : List (List String)}
    (legal : game.state.legalize = game.state) (sync : game.state.InSync) (began : 1 ≤ k)
    (run : game.endTurns k = (.ok reports, after)) :
    after.state.player.statusEffects =
      (game.state.player.statusEffects.filter fun e =>
        e.duration.all fun turns => (k : Int) < turns).map (·.later k) ∧
    game.state.Unmoved after.state ∧ after.state.turn = game.state.turn + k ∧
    reports.length = k ∧
    ∀ i < k, ∃ before messages next, game.endTurns i = (.ok (reports.take i), before) ∧
      before.endTurn = (.ok messages, next) ∧ reports[i]? = some messages ∧
      before.state.Closes (game.state.player.statusEffects.filter (·.endsWith (i + 1))) messages
        next.state := by
  have legal : game.state.Legal := legal ▸ legalize_legal game.state
  have later := Game.later_of_endTurns legal sync run
  refine ⟨?_, later.unmoved, later.turn, Game.length_of_endTurns run, ?_⟩
  · rw [later.statuses]
    congr 2
    funext e
    unfold StatusEffect.lasts
    congr 1
    funext turns
    rw [decide_eq_decide]
    omega
  · intro i within
    obtain ⟨before, messages, next, started, turned, report⟩ := Game.exists_turn run within
    have reached := Game.later_of_endTurns legal sync started
    have closes := (reached.next (Game.state_of_endTurn turned)).2
    exact ⟨before, messages, next, started, turned, report, closes⟩

/-- Of four status effects one is permanent, one has no turns left, and one has a turn to spare. The
vitality that the second lent goes with it. -/
theorem statuses_last_their_turns_two :
    let lent : StatusEffect := { name := "Bloom", duration := some 0, modifiers := [("hp", "20")] }
    let rage : StatusEffect := { name := "Rage", duration := some 2, modifiers := [("atk", "50%")] }
    let vow : StatusEffect := { name := "Vow", modifiers := [("def", "1")] }
    let haze : StatusEffect := { name := "Haze", duration := some 3 }
    let player : StatBlock := {
      vitality := 115, current := ⟨120, 50, 15, 6, 10, 100⟩
      statusEffects := [lent, rage, vow, haze] }
    let game : Game := { state := { player } }
    let after : Game := { state := {
      player := { player with
        vitality := 100, current := ⟨100, 50, 10, 6, 10, 100⟩
        statusEffects := [vow, { haze with duration := some 1 }] }
      turn := 2 } }
    let reports := [["Status ended: Bloom"], ["Status ended: Rage"]]
    game.state.legalize = game.state ∧ game.state.InSync ∧ 1 ≤ 2 ∧
      game.endTurns 2 = (.ok reports, after) ∧
      after.state.player.statusEffects = [vow, { haze with duration := some 1 }] ∧
      game.state.Unmoved after.state := by
  intro lent rage vow haze player game after reports
  have legal : game.state.legalize = game.state := by decide +kernel
  have sync : game.state.InSync := eq_ok_of_toOption (by decide +kernel)
  have told : (game.endTurns 2).1.toOption = some reports := by decide +kernel
  have left : (game.endTurns 2).2 = after := by decide +kernel
  have run : game.endTurns 2 = (.ok reports, after) := Prod.ext (eq_ok_of_toOption told) left
  have lasting := statuses_last_their_turns legal sync (by decide) run
  exact ⟨legal, sync, by decide, run, lasting.1.trans (by decide +kernel), lasting.2.1⟩

end Ascent
