import Ascent.Proofs.Doings
import Ascent.Proofs.Resumption

/-!
How far one command moves the clock.

Two commands write the clock and no other does. Time that passes is kept within five years. A clock
that is set is only kept from going back: it may be set further ahead than time may pass, and that
is the one way to move it by more.

Main exports: `GameState.ActsOn`, `Registry.actsOn_of_deed`, `OnTime`, `Command.leaps`,
`next_onTime`, `worldTime_dispatchAll`, `onTime_iff_not_leaps`, `clock_leaps_nine_years`.
-/

namespace Ascent

open Text

/-! ### The calendar -/

theorem le_advance (now minutes : Int) : now ≤ advance now minutes := by
  unfold advance
  omega

theorem advance_le (now minutes : Int) : advance now minutes ≤ now + maxAdvance := by
  have forward : 0 ≤ maxAdvance := by decide
  unfold advance
  omega

theorem setTime_eq (now : Int) (change : DateChange) :
    setTime now change = max now (change.apply (Date.ofMinutes now)).toMinutes := by
  unfold setTime
  dsimp only
  split <;> omega

/-! ### What deeds write -/

namespace GameState

/-- The states differ in the player, the people, the inventory, the fight to come and the reputation
at most. -/
def ActsOn (s t : GameState) : Prop := ∃ player cast inventory pendingCombat reputation,
  t = { s with player, cast, inventory, pendingCombat, reputation }

variable {s t u : GameState}

theorem ActsOn.refl (s : GameState) : s.ActsOn s := ⟨_, _, _, _, _, rfl⟩

theorem ActsOn.trans (h : s.ActsOn t) (k : t.ActsOn u) : s.ActsOn u := by
  obtain ⟨_, _, _, _, _, rfl⟩ := h
  obtain ⟨_, _, _, _, _, rfl⟩ := k
  exact ⟨_, _, _, _, _, rfl⟩

theorem ActsOn.worldTime (h : s.ActsOn t) : t.worldTime = s.worldTime := by
  obtain ⟨_, _, _, _, _, rfl⟩ := h
  rfl

theorem Moves.actsOn (h : s.Moves t) : s.ActsOn t := by
  obtain ⟨circle, people, rfl⟩ := h
  exact ⟨_, s.cast.set circle people, _, _, _, rfl⟩

end GameState

section

variable {s t : GameState} {effect : Effect}

theorem withInventory_actsOn {worn : Bool} {inventory : List Item}
    (h : s.withInventory worn inventory = .ok t) : s.ActsOn t := by
  obtain ⟨player, rfl, _⟩ := withInventory_eq_ok h
  exact ⟨player, _, inventory, _, _, rfl⟩

theorem withStatus_actsOn {effects : List StatusEffect} (h : s.withStatus effects = .ok t) :
    s.ActsOn t := by
  obtain ⟨player, _, h⟩ := exists_of_bind_eq_ok h
  cases h
  exact ⟨player, _, _, _, _, rfl⟩

theorem settleTrial_actsOn {success : Bool} (h : settleTrial s success = .ok effect) :
    s.ActsOn effect.state := by
  obtain ⟨climb, _, h⟩ := exists_of_bind_eq_ok h
  cases h
  exact ⟨climb.stats, _, _, _, _, rfl⟩

theorem applyCombatResult_actsOn {r : CombatResult} (h : applyCombatResult s r = .ok effect) :
    s.ActsOn effect.state := by
  obtain ⟨cast, fought⟩ := fought_eq s r
  have left : s.ActsOn (s.fought r) := by
    rw [fought]
    exact ⟨_, _, _, _, _, rfl⟩
  obtain ⟨settled, stocked, decided⟩ := applyCombatResult_eq_ok h
  have met : s.ActsOn settled := by
    rcases stocked with ⟨_, rfl⟩ | ⟨items, player, _, _, rfl⟩
    · exact left
    · exact left.trans ⟨player, _, items, _, _, rfl⟩
  rcases decided with same | ⟨_, _, trial, ended, same⟩
  · rw [same]
    exact met
  · rw [same]
    exact met.trans (settleTrial_actsOn ended)

theorem GameState.Deed.actsOn {params : Params} {tag : String} (h : s.Deed params tag t) :
    s.ActsOn t := by
  cases h with
  | rest => exact .refl s
  | grown _ _ stored => exact withInventory_actsOn stored
  | lessened _ _ stored => exact withInventory_actsOn stored
  | lost _ stored => exact withInventory_actsOn stored
  | worn _ stored => exact withInventory_actsOn stored
  | acquired _ stored => exact withStatus_actsOn stored
  | ended _ stored => exact withStatus_actsOn stored
  | settled _ settled => exact settleTrial_actsOn settled
  | fought _ done => exact applyCombatResult_actsOn done
  | begun | changed | esteemed | tried | provoked => exact ⟨_, _, _, _, _, rfl⟩

end

namespace Registry

theorem actsOn_of_deed {r : CommandRule} (member : r ∈ deeds) (s : GameState) (params : Params) :
    (r.run s params).Ensures fun e => s.ActsOn e.state :=
  (deed_of_rule member s params).mono fun _ done => done.actsOn

theorem setClock_mem :
    (⟨"WORLD_TIME_SET", [], false, certain setClock⟩ : CommandRule) ∈ rules := by
  simp [rules, events]

end Registry

/-! ### Commands -/

/-- From one moment it goes forward, and by what one command may pass over at most. -/
def OnTime (now later : Int) : Prop := now ≤ later ∧ later ≤ now + maxAdvance

theorem OnTime.of_eq {now later : Int} (same : later = now) : OnTime now later := by
  have forward : 0 ≤ maxAdvance := by decide
  unfold OnTime
  omega

theorem passTime_onTime {s : GameState} {params : Params} {effect : Effect}
    (h : passTime s params = .ok effect) : OnTime s.worldTime effect.state.worldTime := by
  obtain ⟨word, _, h⟩ := exists_of_bind_eq_ok h
  dsimp only at h
  split at h
  · cases h
    exact .of_eq rfl
  · cases h
    exact ⟨le_advance _ _, advance_le _ _⟩

theorem learnSkill_worldTime {s : GameState} {params : Params} {effect : Effect}
    (h : learnSkill s params = .ok effect) : effect.state.worldTime = s.worldTime := by
  unfold learnSkill at h
  dsimp only at h
  split at h
  · cases h
    rfl
  · obtain ⟨_, _, h⟩ := exists_of_bind_eq_ok h
    cases h
    rfl

theorem addMemory_worldTime (s : GameState) (params : Params) :
    (addMemory s params).state.worldTime = s.worldTime := by
  unfold addMemory
  dsimp only
  split <;> rfl

theorem worldTime_of_knowledge {r : CommandRule} (member : r ∈ Registry.knowledge) (s : GameState)
    (params : Params) : (r.run s params).Ensures fun e => e.state.worldTime = s.worldTime := by
  simp only [Registry.knowledge, List.mem_cons, List.not_mem_nil, or_false] at member
  rcases member with rfl | rfl | rfl | rfl
  · exact Registry.certain_ensures (by dsimp only [updateFaction])
  · exact Registry.certain_ensures (by dsimp only [discoverPlace])
  · exact Registry.certain_ensures (by dsimp only [discoverLore])
  · exact Registry.certain_ensures (by dsimp only [defineEntity])

/-- Every rule but the one that sets the clock keeps it on time. -/
theorem onTime_of_rule {r : CommandRule} (member : r ∈ Registry.rules)
    (other : upper r.tag ≠ "WORLD_TIME_SET") (s : GameState) (params : Params) :
    (r.run s params).Ensures fun e => OnTime s.worldTime e.state.worldTime := by
  have still (e : Effect) (same : e.state.worldTime = s.worldTime) :
      OnTime s.worldTime e.state.worldTime := .of_eq same
  rcases Registry.bystander_or_deed member with aside | deed
  · rcases List.mem_append.mp aside with person | errand
    · exact (Registry.moves_of_person person s params).mono fun e moves =>
        still e moves.actsOn.worldTime
    · rcases List.mem_append.mp errand with known | errand
      · exact (worldTime_of_knowledge known s params).mono still
      · simp only [List.mem_cons, List.not_mem_nil, or_false] at errand
        rcases errand with rfl | rfl | rfl | rfl
        · exact Registry.fallible_ensures fun e done => still e (learnSkill_worldTime done)
        · exact Registry.fallible_ensures fun _ => passTime_onTime
        · exact absurd (by decide +kernel) other
        · exact Registry.certain_ensures (still _ (addMemory_worldTime s params))
  · exact (Registry.actsOn_of_deed deed s params).mono fun e acts => still e acts.worldTime

/-- The parts of the date that arguments ask for. -/
def Params.dateAsked (params : Params) : DateChange :=
  { year := params.integer? "year"
    month := params.integer? "month"
    day := params.integer? "day"
    hour := params.integer? "hour"
    minute := params.integer? "minute" }

/-- The date that arguments ask for, counted in minutes; parts that they leave out stay. -/
def Params.momentAsked (params : Params) (now : Int) : Int :=
  (params.dateAsked.apply (Date.ofMinutes now)).toMinutes

/-- Whether a command sets the clock further ahead than time may pass. -/
def Command.leaps (c : Command) (now : Int) : Prop :=
  upper c.name = "WORLD_TIME_SET" ∧ now + maxAdvance < c.params.momentAsked now

theorem worldTime_setClock (s : GameState) (params : Params) :
    (setClock s params).state.worldTime = max s.worldTime (params.momentAsked s.worldTime) :=
  setTime_eq s.worldTime params.dateAsked

variable {d : Dispatched} {c : Command}

/-- The command that sets the clock is never left out. -/
theorem worldTime_next_of_set (tag : upper c.name = "WORLD_TIME_SET") :
    (d.next .standard c).state.worldTime =
      max d.state.worldTime (c.params.momentAsked d.state.worldTime) := by
  have found := Registry.find?_of_mem Registry.setClock_mem (tag.trans (by decide +kernel))
  have run : dispatch .standard d.state c d.supply =
      (.ok { setClock d.state c.params with
        state := (setClock d.state c.params).state.legalize }, d.supply) := by
    rw [dispatch, found]
    rfl
  rw [Dispatched.next, run]
  exact worldTime_setClock d.state c.params

/-- A command that does not set the clock keeps it on time. -/
theorem next_onTime (other : upper c.name ≠ "WORLD_TIME_SET") :
    OnTime d.state.worldTime (d.next .standard c).state.worldTime := by
  rcases Dispatched.state_next .standard c with ⟨effect, rest, run, same⟩ | same
  · rw [same]
    let onTime (t : GameState) : Prop := OnTime d.state.worldTime t.worldTime
    refine dispatch_keeps (P := onTime) (Q := onTime) run ?_ fun t kept => kept
    intro r member tag
    exact onTime_of_rule member (tag ▸ other) d.state c.params
  · exact .of_eq (by rw [same])

theorem le_worldTime_next (d : Dispatched) (c : Command) :
    d.state.worldTime ≤ (d.next .standard c).state.worldTime := by
  by_cases tag : upper c.name = "WORLD_TIME_SET"
  · rw [worldTime_next_of_set tag]
    exact Int.le_max_left _ _
  · exact (next_onTime tag).1

/-- The clock never goes back over a run, and without a command that sets it, it gains five years
for each command at most. -/
theorem worldTime_foldl_next (commands : List Command) (d : Dispatched) :
    let later := (commands.foldl (Dispatched.next .standard) d).state.worldTime
    d.state.worldTime ≤ later ∧ ((∀ c ∈ commands, upper c.name ≠ "WORLD_TIME_SET") →
      later ≤ d.state.worldTime + commands.length * maxAdvance) := by
  induction commands generalizing d with
  | nil => simp
  | cons c rest ih =>
      obtain ⟨forward, bounded⟩ := ih (d.next .standard c)
      rw [List.foldl_cons, List.length_cons, Nat.cast_succ, add_mul, one_mul]
      refine ⟨Int.le_trans (le_worldTime_next d c) forward, fun unset => ?_⟩
      have first := (next_onTime (d := d) (unset c List.mem_cons_self)).2
      have others := bounded fun c' later => unset c' (List.mem_cons_of_mem c later)
      omega

theorem worldTime_dispatchAll (s : GameState) (supply : Supply) (commands : List Command) :
    let later := (dispatchAll .standard s supply commands).state.worldTime
    s.worldTime ≤ later ∧ ((∀ c ∈ commands, upper c.name ≠ "WORLD_TIME_SET") →
      later ≤ s.worldTime + commands.length * maxAdvance) :=
  worldTime_foldl_next commands { state := s, supply := supply }

/-- A command moves the clock by five years at most, unless it sets the clock further ahead. -/
theorem worldTime_next_le_iff (d : Dispatched) (c : Command) :
    (d.next .standard c).state.worldTime ≤ d.state.worldTime + maxAdvance ↔
      ¬ c.leaps d.state.worldTime := by
  by_cases tag : upper c.name = "WORLD_TIME_SET"
  · have forward : 0 ≤ maxAdvance := by decide
    rw [worldTime_next_of_set tag]
    simp only [Command.leaps, tag, true_and, not_lt]
    omega
  · exact iff_of_true (next_onTime tag).2 fun leaps => tag leaps.1

/-- No command moves the clock back; and a command moves it by five years at most, unless it sets
the clock further ahead than that. -/
theorem onTime_iff_not_leaps (s : GameState) (supply : Supply) (c : Command) :
    let later := (dispatchAll .standard s supply [c]).state.worldTime
    s.worldTime ≤ later ∧
      (later ≤ s.worldTime + maxAdvance ↔ ¬ c.leaps s.worldTime) := by
  dsimp only
  rw [Dispatched.dispatchAll_singleton]
  exact ⟨le_worldTime_next { state := s, supply } c,
    worldTime_next_le_iff { state := s, supply } c⟩

/-- A clock that is set to the tenth year in the first one moves by nine years. -/
theorem clock_leaps_nine_years :
    let s : GameState := {}
    let c : Command := ⟨"WORLD_TIME_SET", [("year", some "10")]⟩
    let run := dispatchAll .standard s {} [c]
    0 ≤ s.worldTime ∧ run.ignored = [] ∧ run.state.worldTime = 9 * minutesPerYear ∧
      ¬ run.state.worldTime ≤ s.worldTime + maxAdvance := by
  intro s c run
  have heard : run.ignored = [] := by decide +kernel
  have far : run.state.worldTime = 9 * minutesPerYear := by decide +kernel
  refine ⟨by decide, heard, far, ?_⟩
  rw [far]
  decide

end Ascent
