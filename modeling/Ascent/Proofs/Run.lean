import Ascent.Proofs.Outcome
import Ascent.Start
import Ascent.Turn
import Mathlib.Data.List.Nodup

/-!
The runs of a game: what may happen to its state, and which states are reached.

A state changes in three ways: a command is carried out, the turn ends, or the result of a fight is
taken up. A command that is left out changes nothing and is no step.

Main exports: `Event`, `Event.Leads`, `Reachable`, `Registry.exists_rule`, `Registry.find?_of_mem`,
`dispatch_eq_ok`, `run_of_dispatch`, `done_of_dispatch`, `dispatch_of_done`, `Event.Tells`,
`dispatch_keeps`, `dispatch_keeps_given`, `dispatch_keeps_untold`.
-/

namespace Ascent

open Text

/-! ### The rules of the registry -/

namespace Registry

/-- The rules of the standard commands. -/
def rules : List CommandRule := people ++ knowledge ++ belongings ++ condition ++ events

theorem find?_foldl_register {rules : List CommandRule} {registry : Registry} {tag : String}
    {rule : CommandRule} (h : (rules.foldl register registry).find? tag = some rule) :
    (∃ r ∈ rules, rule = { r with tag := upper r.tag } ∧ upper tag = upper r.tag) ∨
      registry.find? tag = some rule := by
  induction rules generalizing registry with
  | nil => exact Or.inr h
  | cons r rest ih =>
      rcases ih h with ⟨r', member, same⟩ | found
      · exact Or.inl ⟨r', List.mem_cons_of_mem _ member, same⟩
      · rw [find?_register] at found
        split at found
        · next tags =>
            exact Or.inl ⟨r, List.mem_cons_self, (Option.some.inj found).symm, tags⟩
        · exact Or.inr found

/-- What the standard registry finds under a tag is one of the rules. -/
theorem rule_of_find? {tag : String} {rule : CommandRule} (h : standard.find? tag = some rule) :
    ∃ r ∈ rules, rule = { r with tag := upper r.tag } ∧ upper tag = upper r.tag := by
  rcases @find?_foldl_register rules [] tag rule h with known | none
  · exact known
  · simp [find?, Pairs.get?] at none

/-- What the standard registry finds under a tag does what one of the rules does. -/
theorem exists_rule {tag : String} {rule : CommandRule} (h : standard.find? tag = some rule) :
    ∃ r ∈ rules, rule.run = r.run ∧ upper tag = upper r.tag := by
  obtain ⟨r, member, same, tags⟩ := rule_of_find? h
  exact ⟨r, member, by rw [same], tags⟩

/-- No two rules have the same tag. -/
theorem eq_of_upper_tag {r r' : CommandRule} (member : r ∈ rules) (member' : r' ∈ rules)
    (same : upper r.tag = upper r'.tag) : r = r' := by
  have distinct : (rules.map fun r => upper r.tag).Nodup := by decide +kernel
  exact List.inj_on_of_nodup_map distinct member member' same

theorem find?_foldl_register_of_mem {rules : List CommandRule} {registry : Registry} {tag : String}
    (known : (∃ r ∈ rules, upper tag = upper r.tag) ∨ (registry.find? tag).isSome) :
    ((rules.foldl register registry).find? tag).isSome := by
  induction rules generalizing registry with
  | nil => simpa using known
  | cons first rest ih =>
      refine ih ?_
      rw [find?_register]
      split
      · exact .inr rfl
      · next other =>
          refine known.imp_left ?_
          rintro ⟨r, member, same⟩
          rcases List.mem_cons.mp member with rfl | later
          · exact absurd same other
          · exact ⟨r, later, same⟩

/-- The standard registry finds each of its rules under the rule's tag. -/
theorem find?_of_mem {r : CommandRule} (member : r ∈ rules) {tag : String}
    (same : upper tag = upper r.tag) :
    standard.find? tag = some { r with tag := upper r.tag } := by
  have known : (standard.find? tag).isSome :=
    @find?_foldl_register_of_mem rules [] tag (.inl ⟨r, member, same⟩)
  obtain ⟨rule, found⟩ := Option.isSome_iff_exists.mp known
  obtain ⟨r', member', rfl, tags⟩ := rule_of_find? found
  obtain rfl := eq_of_upper_tag member member' (same.symm.trans tags)
  exact found

theorem endFight_mem :
    (⟨"COMBAT_END", ["outcome"], false, fallible endFight⟩ : CommandRule) ∈ rules := by
  simp [rules, events]

end Registry

/-- Where no stack is empty, restoring leaves the inventory as it is. -/
theorem GameState.inventory_legalize {s : GameState} (stocked : ∀ i ∈ s.inventory, 0 < i.quantity) :
    s.legalize.inventory = s.inventory :=
  List.filter_eq_self.mpr fun i member => decide_eq_true (stocked i member)

/-- A new game begins with the stats of a rung, drawn up where stats are kept, and nothing else. -/
theorem begin_eq_ok {playerName : String} {settings : Settings} {tier : Option String}
    {location : String} {s : GameState}
    (h : GameState.begin playerName settings tier location = .ok s) :
    ∃ label player, s = { player, playerName, settings, location } ∧
      (StatBlock.rebase { tier := label } label settings [] = .ok player ∨
        player = { tier := label }) := by
  unfold GameState.begin at h
  dsimp only at h
  split at h
  · obtain ⟨player, rebased, h⟩ := exists_of_bind_eq_ok h
    exact ⟨_, player, (Except.ok.inj h).symm, .inl rebased⟩
  · exact ⟨_, _, (Except.ok.inj h).symm, .inr rfl⟩

/-- A command that is carried out: its rule is found, and the state that the rule leads to is made
legal. -/
theorem dispatch_eq_ok {registry : Registry} {state : GameState} {c : Command}
    {supply rest : Supply} {effect : Effect}
    (h : dispatch registry state c supply = (.ok effect, rest)) :
    ∃ rule raw, registry.find? c.name = some rule ∧
      (rule.run state c.params).outcome supply = (.ok raw, rest) ∧
      effect = { raw with state := raw.state.legalize } := by
  unfold dispatch at h
  split at h
  · simp at h
  · next rule found =>
      split at h
      · simp at h
      · split at h
        · next raw after run =>
            simp only [Prod.mk.injEq, Except.ok.injEq] at h
            exact ⟨rule, raw, found, by rw [run, h.2], h.1.symm⟩
        · simp at h

/-- A command that is carried out under the tag of a rule does what the rule does, and the state
that this leads to is made legal. -/
theorem run_of_dispatch {r : CommandRule} (member : r ∈ Registry.rules) {s : GameState}
    {c : Command} {supply rest : Supply} {effect : Effect} (tag : upper c.name = upper r.tag)
    (h : dispatch .standard s c supply = (.ok effect, rest)) :
    ∃ raw, (r.run s c.params).outcome supply = (.ok raw, rest) ∧
      effect.state = raw.state.legalize := by
  obtain ⟨rule, raw, found, run, same⟩ := dispatch_eq_ok h
  obtain ⟨r', member', rfl, tags⟩ := Registry.rule_of_find? found
  obtain rfl := Registry.eq_of_upper_tag member member' (tag.symm.trans tags)
  exact ⟨raw, run, by rw [same]⟩

/-- A command of a kind that leaves nothing to chance does what its kind does. -/
theorem done_of_dispatch {f : GameState → Params → Except Fault Effect} {r : CommandRule}
    (member : r ∈ Registry.rules) (does : r.run = Registry.fallible f) {s : GameState} {c : Command}
    {supply rest : Supply} {effect : Effect} (tag : upper c.name = upper r.tag)
    (h : dispatch .standard s c supply = (.ok effect, rest)) :
    ∃ raw, f s c.params = .ok raw ∧ effect.state = raw.state.legalize := by
  obtain ⟨raw, run, same⟩ := run_of_dispatch member tag h
  rw [does, Registry.fallible, Play.outcome_ofExcept] at run
  exact ⟨raw, (Prod.mk.inj run).1, same⟩

/-- Where a command of such a kind lacks nothing and its kind does something, it is carried out. -/
theorem dispatch_of_done {f : GameState → Params → Except Fault Effect} {r : CommandRule}
    (member : r ∈ Registry.rules) (does : r.run = Registry.fallible f) {s : GameState} {c : Command}
    {raw : Effect} (tag : upper c.name = upper r.tag)
    (complete : ∀ key ∈ r.required, c.params.lacks key = false) (done : f s c.params = .ok raw)
    (supply : Supply) :
    dispatch .standard s c supply = (.ok { raw with state := raw.state.legalize }, supply) := by
  have none : r.required.find? c.params.lacks = none :=
    List.find?_eq_none.mpr fun key needed => by simp [complete key needed]
  rw [dispatch, Registry.find?_of_mem member tag]
  dsimp only
  rw [none, does, Registry.fallible, Play.outcome_ofExcept, done]

/-! ### Steps and reached states -/

/-- A stack that a record may hold: it is not empty, and each of its bonuses stands under a name of
its own. -/
structure Item.WellFormed (i : Item) : Prop where
  quantity : 1 ≤ i.quantity
  bonuses : (i.statBonuses.map Prod.fst).Nodup

/-- A result that the combat screen may hand back. -/
def CombatResult.WellFormed (r : CombatResult) : Prop :=
  ∀ items, r.finalInventory = some items → ∀ i ∈ items, i.WellFormed

/-- What may happen to a game. -/
inductive Event where
  | command (c : Command)
  | turnEnd
  | fight (r : CombatResult)

/-- What happens leads from one state to another. -/
inductive Event.Leads : Event → GameState → GameState → Prop where
  | command {c : Command} {s : GameState} {supply rest : Supply} {effect : Effect}
      (run : dispatch .standard s c supply = (.ok effect, rest)) :
      Event.Leads (.command c) s effect.state
  | turnEnd {s t : GameState} {messages : List String} (run : s.endTurn = .ok (t, messages)) :
      Event.Leads .turnEnd s t
  | fight {r : CombatResult} {s : GameState} {effect : Effect} (formed : r.WellFormed)
      (run : applyCombatResult s r = .ok effect) :
      Event.Leads (.fight r) s effect.state.legalize

theorem Event.leads_of_state {c : Command} {s t : GameState} (supply : Supply)
    (h : (dispatch .standard s c supply).1.toOption.map (·.state) = some t) :
    Event.Leads (.command c) s t := by
  obtain ⟨effect, done, rfl⟩ := Option.map_eq_some_iff.mp h
  exact @Event.Leads.command c s supply _ effect (Prod.ext (eq_ok_of_toOption done) rfl)

/-- What happens tells the result of a fight: the combat screen hands one back, or a command says
how the fight ended. -/
def Event.Tells : Event → CombatResult → Prop
  | .command c, r => upper c.name = "COMBAT_END" ∧ combatResultOf? c.params = some r
  | .turnEnd, _ => False
  | .fight told, r => told = r

/-- When the result of a fight is told, it is taken up, and the state that this leads to is made
legal. -/
theorem Event.Leads.told {event : Event} {s t : GameState} {r : CombatResult}
    (leads : event.Leads s t) (tells : event.Tells r) :
    ∃ effect, applyCombatResult s r = .ok effect ∧ t = effect.state.legalize := by
  cases leads with
  | @command c _ _ _ _ run =>
      obtain ⟨tag, told⟩ := tells
      obtain ⟨raw, run, same⟩ :=
        run_of_dispatch Registry.endFight_mem (tag.trans (by decide +kernel)) run
      simp only [Registry.fallible, Play.outcome_ofExcept, endFight, told, Prod.mk.injEq] at run
      exact ⟨raw, run.1, same⟩
  | turnEnd => exact False.elim tells
  | @fight _ _ effect _ run =>
      obtain rfl := tells
      exact ⟨effect, run, rfl⟩

/-- The states of all runs of a new game. -/
inductive Reachable : GameState → Prop where
  | begin {playerName : String} {settings : Settings} {tier : Option String} {location : String}
      {s : GameState} (start : GameState.begin playerName settings tier location = .ok s) :
      Reachable s
  | step {event : Event} {s t : GameState} (before : Reachable s) (next : event.Leads s t) :
      Reachable t

/-- What holds of every new game and is kept by every step holds of every reached state. -/
theorem Reachable.invariant {P : GameState → Prop} {s : GameState} (reached : Reachable s)
    (start : ∀ {playerName settings tier location s},
      GameState.begin playerName settings tier location = .ok s → P s)
    (kept : ∀ {event : Event} {s t}, Reachable s → P s → event.Leads s t → P t) : P s := by
  induction reached with
  | begin h => exact start h
  | step before next ih => exact kept before ih next

/-- A command that is carried out lacks none of the arguments that its rule needs. -/
theorem complete_of_dispatch {registry : Registry} {state : GameState} {c : Command}
    {supply rest : Supply} {effect : Effect} {rule : CommandRule}
    (h : dispatch registry state c supply = (.ok effect, rest))
    (found : registry.find? c.name = some rule) :
    ∀ key ∈ rule.required, c.params.lacks key = false := by
  unfold dispatch at h
  rw [found] at h
  dsimp only at h
  split at h
  · simp at h
  · next complete =>
      intro key needed
      simpa using List.find?_eq_none.mp complete key needed

/-- A property of states that the handler of every rule passes on, given what the rule needs, and
that restoring keeps, is kept by every command. -/
theorem dispatch_keeps_given {P : GameState → Prop} {Q : GameState → Prop} {s : GameState}
    {c : Command} {supply rest : Supply} {effect : Effect}
    (h : dispatch .standard s c supply = (.ok effect, rest))
    (handled : ∀ r ∈ Registry.rules, upper c.name = upper r.tag →
      (∀ key ∈ r.required, c.params.lacks key = false) →
      (r.run s c.params).Ensures fun e => P e.state)
    (restored : ∀ t, P t → Q t.legalize) : Q effect.state := by
  obtain ⟨rule, raw, found, run, same⟩ := dispatch_eq_ok h
  have complete := complete_of_dispatch h found
  obtain ⟨r, member, rfl, tags⟩ := Registry.rule_of_find? found
  rw [same]
  exact restored _ (handled r member tags complete supply raw rest run)

/-- A property of states that every rule's handler passes on, and that restoring keeps, is kept by
every command. -/
theorem dispatch_keeps {P : GameState → Prop} {Q : GameState → Prop} {s : GameState} {c : Command}
    {supply rest : Supply} {effect : Effect}
    (h : dispatch .standard s c supply = (.ok effect, rest))
    (handled : ∀ r ∈ Registry.rules, upper c.name = upper r.tag →
      (r.run s c.params).Ensures fun e => P e.state)
    (restored : ∀ t, P t → Q t.legalize) : Q effect.state :=
  dispatch_keeps_given h (fun r member tags _ => handled r member tags) restored

/-- A command that tells of no fight does nothing if it is the end of one. So it keeps what every
other rule's handler passes on. -/
theorem dispatch_keeps_untold {P : GameState → Prop} {Q : GameState → Prop} {s : GameState}
    {c : Command} {supply rest : Supply} {effect : Effect}
    (h : dispatch .standard s c supply = (.ok effect, rest))
    (untold : ∀ r, ¬ (Event.command c).Tells r) (before : P s)
    (handled : ∀ r ∈ Registry.rules, upper r.tag ≠ "COMBAT_END" → upper c.name = upper r.tag →
      (∀ key ∈ r.required, c.params.lacks key = false) →
      (r.run s c.params).Ensures fun e => P e.state)
    (restored : ∀ t, P t → Q t.legalize) : Q effect.state := by
  refine dispatch_keeps_given h (fun r member tag complete => ?_) restored
  by_cases fight : upper r.tag = "COMBAT_END"
  · have named : upper c.name = "COMBAT_END" := tag.trans fight
    obtain rfl := Registry.eq_of_upper_tag member Registry.endFight_mem
      (fight.trans (by decide +kernel))
    have unread : combatResultOf? c.params = none :=
      Option.eq_none_iff_forall_ne_some.mpr fun r told => untold r ⟨named, told⟩
    refine Play.Ensures.ofExcept fun e done => ?_
    rw [endFight, unread] at done
    cases done
    exact before
  · exact handled r member fight tag complete

end Ascent
