import Ascent.Proofs.Bookings
import Ascent.Proofs.Distinct
import Ascent.Proofs.Refusal

/-!
Lasting losses, and the debt that they may leave.

A lasting change of an attribute is booked on its bonus, and how far it may go is read off what
the attribute shows. That is never below the least that may be shown, and for offense and speed the
least is one. So where an attribute shows more than its base and bonus come to, a loss may be booked
that it cannot bear, and it is owed later.

Main exports: `Params.asked?`, `changePlayerStat_eq_ok`, `StatBlock.Changes.booked`, `Entry.Asks`,
`Entry.Overdraws`, `Entry.solvent_after_iff`, `Entry.overdraws_iff`, `losses_leave_no_debt`,
`losses_below_zero`.
-/

namespace Ascent

open Text

/-! ### What a command asks for -/

/-- What the arguments ask for: which stat is to change, how, and by how much. -/
def Params.asked? (params : Params) (s : StatBlock) : Option (StatKey × StatOperation × ℤ) := do
  let operation := (params.value? "operation").getD ""
  let amount := if params.has "amount" then params.value? "amount" else params.value? "value"
  let key ← StatKey.ofName? (params.required "name")
  let op ← StatOperation.ofText? (if operation = "" then "add" else operation)
  let size ← (resolveAmount s key amount (params.value? "level")).toOption.join
  let n ← size.roundEven.toOption
  return (key, op, if op = .subtract then -n else n)

/-- A change of the player's stats does what is asked for, or nothing if that cannot be made out. -/
theorem changePlayerStat_eq_ok {s : GameState} {params : Params} {effect : Effect}
    (h : changePlayerStat s params = .ok effect) :
    (params.asked? s.player = none ∧ effect.state = s) ∨
      ∃ key op delta change, params.asked? s.player = some (key, op, delta) ∧
        s.player.Changes delta s.settings s.inventory key op change ∧
        effect.state = { s with player := change.stats } := by
  obtain ⟨change, changed, h⟩ := exists_of_bind_eq_ok h
  rw [← Except.ok.inj h]
  unfold changeStat at changed
  dsimp only at changed
  unfold Params.asked?
  dsimp only
  split at changed
  · next key op named operation =>
      rw [named, operation]
      obtain ⟨found, resolved, changed⟩ := exists_of_bind_eq_ok changed
      rw [Option.bind_eq_bind, Option.bind_some, Option.bind_eq_bind, Option.bind_some, resolved]
      cases found with
      | none =>
          rw [← Except.ok.inj changed]
          exact .inl ⟨rfl, rfl⟩
      | some x =>
          obtain ⟨size, rounded, changed⟩ := exists_of_bind_eq_ok changed
          refine .inr ⟨key, op, _, change, ?_, applyChange_changes changed, rfl⟩
          rw [Except.toOption, Option.join_some, Option.bind_eq_bind, Option.bind_some, rounded]
          rfl
  · next unknown =>
      rw [← Except.ok.inj changed]
      refine .inl ⟨?_, rfl⟩
      cases named : StatKey.ofName? (params.required "name") with
      | none => rfl
      | some key =>
          cases operation : StatOperation.ofText? (if (params.value? "operation").getD "" = "" then
              "add" else (params.value? "operation").getD "") with
          | none => rfl
          | some op => exact (unknown key op named operation).elim

theorem ofFormula_keeps_bonuses (settings : Settings) (items : List Item) (bonuses : Pairs Bonus) :
    (Rebase.ofFormula settings items).Keeps fun s => s.permanentBonuses = bonuses where
  moves := fun before moved => by
    obtain ⟨risen, retiered, moved⟩ := exists_of_bind_eq_ok moved
    obtain ⟨base, _, refreshed⟩ := exists_of_bind_eq_ok retiered
    have marks := StatBlock.marks_of_refresh refreshed
    rw [← Except.ok.inj moved]
    exact (congrArg Marks.bonuses marks).trans before
  idles := fun _ _ _ before => before

/-- A change is booked on the attribute of its stat, or it leaves lasting bonuses alone. -/
theorem StatBlock.Changes.booked {s : StatBlock} {key : StatKey} {op : StatOperation} {delta : ℤ}
    {settings : Settings} {items : List Item} {change : StatChange}
    (h : s.Changes delta settings items key op change) :
    (∃ a, key.attribute? = some a ∧ addPermanent s a delta items = .ok change) ∨
      (change.stats.permanentBonuses = s.permanentBonuses ∧
        ∀ a ∈ scalars, key.attribute? ≠ some a) := by
  cases h with
  | lasting meant added => exact .inl ⟨_, meant, added⟩
  | climbed _ climbed =>
      have gained : { s with experience := max 0 (s.experience + delta) }.permanentBonuses =
          s.permanentBonuses := rfl
      exact .inr ⟨checkLevel_keeps (ofFormula_keeps_bonuses settings items s.permanentBonuses)
        gained climbed, by decide⟩
  | rest scalar => exact .inr ⟨rfl, fun a _ => by rw [scalar]; exact Option.some_ne_none a |>.symm⟩
  | vitality | resource | currency | gained => exact .inr ⟨rfl, by decide⟩

/-- The arguments ask that an attribute change for good by so much. -/
def Params.Asks (params : Params) (s : StatBlock) (a : Attribute) (delta : ℤ) : Prop :=
  ∃ key op, params.asked? s = some (key, op, delta) ∧ key.attribute? = some a

theorem Params.Asks.unique {params : Params} {s : StatBlock} {a : Attribute} {delta delta' : ℤ}
    (h : params.Asks s a delta) (h' : params.Asks s a delta') : delta = delta' := by
  obtain ⟨key, op, asked, -⟩ := h
  obtain ⟨key', op', asked', -⟩ := h'
  rw [asked] at asked'
  exact (Prod.mk.inj (Prod.mk.inj (Option.some.inj asked')).2).2

section

variable {s : GameState} {params : Params} {effect : Effect} {a : Attribute}

/-- As long as the base stays, an attribute moves by what is asked of it, as it is bounded. -/
theorem standing_of_changePlayerStat (counted : s.player.Counted) (member : a ∈ scalars)
    (base : effect.state.player.base = s.player.base)
    (h : changePlayerStat s params = .ok effect) :
    (∃ delta, params.Asks s.player a delta ∧
      effect.state.player.standing a = s.player.standing a + boundPermanent s.player a delta) ∨
    ((∀ delta, ¬ params.Asks s.player a delta) ∧
      effect.state.player.standing a = s.player.standing a) := by
  rcases changePlayerStat_eq_ok h with ⟨none, same⟩ | ⟨key, op, delta, change, asked, done, same⟩
  · refine .inr ⟨?_, by rw [same]⟩
    rintro delta ⟨key, op, asked, -⟩
    rw [none] at asked
    cases asked
  · have only {delta' : ℤ} (asks : params.Asks s.player a delta') : key.attribute? = some a := by
      obtain ⟨key', op', asked', meant⟩ := asks
      rw [asked] at asked'
      obtain ⟨rfl, -⟩ := Prod.mk.inj (Option.some.inj asked')
      exact meant
    rw [same] at base ⊢
    rcases done.booked with ⟨b, meant, booked⟩ | ⟨bonuses, unbooked⟩
    · by_cases here : a = b
      · subst here
        exact .inl ⟨delta, ⟨key, op, asked, meant⟩,
          standing_of_addPermanent counted member booked⟩
      · refine .inr ⟨fun delta' asks => here ?_, standing_of_addPermanent_other here booked⟩
        exact Option.some.inj ((only asks).symm.trans meant)
    · exact .inr ⟨fun delta' asks => unbooked a member (only asks),
        StatBlock.standing_congr base bonuses a⟩

end

namespace Entry

/-- The command was applied, and asked that an attribute change for good by so much. -/
def Asks (e : Entry) (a : Attribute) (delta : ℤ) : Prop :=
  e.report? = none ∧ e.command.params.Asks e.seen.player a delta

/-- The command takes more from an attribute than that stands at, and it shows more than it stands
at. -/
def Overdraws (e : Entry) (a : Attribute) : Prop :=
  ∃ delta, e.Asks a delta ∧ e.seen.player.standing a + delta < 0 ∧
    e.seen.player.standing a < e.seen.player.current.get a

end Entry

theorem changeStat_mem :
    (⟨"STAT_CHANGE", ["name"], false, Registry.fallible changePlayerStat⟩ : CommandRule) ∈
      Registry.rules := by
  simp [Registry.rules, Registry.condition]

/-- A command about stats is left out, or the player's stats change and the state is made legal. -/
theorem Entry.cases_of_statChange {e : Entry}
    (verdict : e.verdict = (dispatch .standard e.seen e.command e.supply).1)
    (tag : upper e.command.name = "STAT_CHANGE") :
    (e.report? ≠ none ∧ e.after = e.seen) ∨
      ∃ raw, changePlayerStat e.seen e.command.params = .ok raw ∧ e.report? = none ∧
        e.after = raw.state.legalize := by
  obtain ⟨c, s, supply, verdict'⟩ := e
  cases verdict' with
  | error ignored => exact .inl ⟨Option.some_ne_none ignored, rfl⟩
  | ok effect =>
      have answered : (dispatch .standard s c supply).1 = .ok effect := verdict.symm
      rcases run : dispatch .standard s c supply with ⟨answer, rest⟩
      rw [run] at answered
      obtain rfl : answer = .ok effect := answered
      obtain ⟨raw, done, same⟩ :=
        done_of_dispatch changeStat_mem rfl (tag.trans (by decide +kernel)) run
      exact .inr ⟨raw, done, rfl, same⟩

/-- One change of stats leaves a debt exactly where it overdraws. -/
theorem Entry.solvent_after_iff {e : Entry} {a : Attribute} (member : a ∈ scalars)
    (verdict : e.verdict = (dispatch .standard e.seen e.command e.supply).1)
    (tag : upper e.command.name = "STAT_CHANGE")
    (base : e.after.player.base = e.seen.player.base) (counted : e.seen.player.Counted)
    (solvent : 0 ≤ e.seen.player.standing a) :
    0 ≤ e.after.player.standing a ↔ ¬ e.Overdraws a := by
  rcases e.cases_of_statChange verdict tag with ⟨reported, same⟩ | ⟨raw, done, applied, same⟩
  · rw [same]
    refine iff_of_true solvent ?_
    rintro ⟨delta, ⟨applied, -⟩, -⟩
    exact reported applied
  · rw [same] at base ⊢
    -- Restoring leaves the base and lasting bonuses.
    have restored : raw.state.legalize.player.standing a = raw.state.player.standing a := rfl
    rw [restored]
    rcases standing_of_changePlayerStat counted member base done with
      ⟨delta, asks, moved⟩ | ⟨unasked, stays⟩
    · rw [moved, ← not_lt, overdrawn_iff solvent]
      apply not_congr
      constructor
      · exact fun overdrawn => ⟨delta, ⟨applied, asks⟩, overdrawn⟩
      · rintro ⟨delta', ⟨-, asks'⟩, overdrawn⟩
        exact asks.unique asks' ▸ overdrawn
    · rw [stays]
      refine iff_of_true solvent ?_
      rintro ⟨delta, ⟨-, asks⟩, -⟩
      exact unasked delta asks

/-! ### States in which nothing else acts on the player -/

theorem StatBlock.Changes.plain {s : StatBlock} {key : StatKey} {op : StatOperation} {delta : ℤ}
    {settings : Settings} {items : List Item} {change : StatChange} (plain : s.Plain)
    (h : s.Changes delta settings items key op change) : change.stats.Plain := by
  rcases h.booked with ⟨a, -, booked⟩ | ⟨bonuses, -⟩
  · obtain ⟨bonus, -, -, bonuses⟩ := bonuses_of_addPermanent booked
    unfold StatBlock.Plain
    rw [bonuses]
    exact StatBlock.plain_put plain a bonus
  · unfold StatBlock.Plain
    rw [bonuses]
    exact plain

/-- Nothing is worn, no status acts, and the player is in sync and has plain bonuses. -/
structure GameState.Bare (s : GameState) : Prop where
  unworn : ∀ i ∈ s.inventory, i.equipped = false
  free : s.player.statusEffects = []
  sync : s.player.InSync []
  plain : s.player.Plain

namespace GameState.Bare

variable {s : GameState} {params : Params} {effect : Effect}

theorem filter_eq_nil (unworn : ∀ i ∈ s.inventory, i.equipped = false) :
    s.inventory.filter (·.equipped) = [] :=
  List.filter_eq_nil_iff.mpr fun i member => by simp [unworn i member]

theorem changePlayerStat (h : s.Bare) (done : changePlayerStat s params = .ok effect) :
    effect.state.Bare := by
  obtain ⟨change, changed, done⟩ := exists_of_bind_eq_ok done
  rw [← Except.ok.inj done]
  have worn := filter_eq_nil h.unworn
  constructor
  · exact h.unworn
  · exact (effects_of_changeStat changed).trans h.free
  · exact (changeStat_inSync (h.sync.of_same_worn worn) changed).of_same_worn worn.symm
  · exact changeStat_keeps (P := StatBlock.Plain)
      (fun _ _ _ _ changed => changed.plain h.plain) h.plain changed

/-- Restoring takes no notice of what is not worn. -/
theorem legalize (h : s.Bare) : s.legalize.Bare where
  unworn := fun i member => h.unworn i (List.mem_of_mem_filter member)
  free := h.free
  sync :=
    have sound : Sound { s with inventory := [] } := ⟨h.sync, fun _ none => nomatch none⟩
    sound.legalize.sync
  plain := h.plain

end GameState.Bare

open GameState

theorem Entry.bare_after {e : Entry}
    (verdict : e.verdict = (dispatch .standard e.seen e.command e.supply).1)
    (tag : upper e.command.name = "STAT_CHANGE") (bare : e.seen.Bare) : e.after.Bare := by
  rcases e.cases_of_statChange verdict tag with ⟨-, same⟩ | ⟨raw, done, -, same⟩
  · exact same ▸ bare
  · exact same ▸ (bare.changePlayerStat done).legalize

theorem least_of_scalar :
    ∀ a ∈ scalars, currentMinimums.get a = if a = .defense then 0 else 1 := by decide

/-- In such a state, what overdraws is a loss of offense or speed where that stands at zero. -/
theorem Entry.overdraws_iff {e : Entry} {a : Attribute} (member : a ∈ scalars)
    (bare : e.seen.Bare) (counted : e.seen.player.Counted) (modest : e.seen.player.Modest)
    (solvent : 0 ≤ e.seen.player.standing a) :
    e.Overdraws a ↔
      a ≠ .defense ∧ e.seen.player.standing a = 0 ∧ ∃ delta < 0, e.Asks a delta := by
  obtain ⟨n, stands, shown⟩ :=
    StatBlock.shown_of_plain bare.sync bare.free bare.plain counted modest member
  unfold Overdraws
  rw [stands] at solvent ⊢
  rw [shown, least_of_scalar a member]
  norm_cast at solvent ⊢
  constructor
  · rintro ⟨delta, asks, taken, less⟩
    have other : a ≠ .defense := by
      rintro rfl
      rw [if_pos rfl] at less
      omega
    rw [if_neg other] at less
    exact ⟨other, by omega, delta, by omega, asks⟩
  · rintro ⟨other, rfl, delta, loss, asks⟩
    rw [if_neg other]
    exact ⟨delta, asks, by omega, by omega⟩

/-! ### Runs -/

/-- Losses leave a debt exactly where they overdraw. The player is in sync, wears nothing and is
under no status, and offense, defense and speed stand at zero or above; stats are changed at will,
as long as the base stays that of one tier and integers are counted exactly. Then an attribute never
comes to stand below zero if and only if no change takes more from it than it stands at while it
shows more than that. Where bonuses stand under the names of their attributes and integers are far
from those that are no numbers, defense never comes to stand below zero, and offense and speed do if
and only if they are lowered where they stand at zero. -/
theorem losses_leave_no_debt {s : GameState} {supply : Supply} {commands : List Command}
    (sync : s.InSync) (unworn : ∀ i ∈ s.inventory, i.equipped = false)
    (free : s.player.statusEffects = []) (solvent : ∀ a ∈ scalars, 0 ≤ s.player.standing a)
    (tags : ∀ c ∈ commands, upper c.name = "STAT_CHANGE")
    (tier : ∀ e ∈ account .standard s supply commands, e.after.player.base = e.seen.player.base)
    (counted : ∀ e ∈ account .standard s supply commands, e.seen.player.Counted) :
    let log := account .standard s supply commands
    (∀ a ∈ scalars, (∀ e ∈ log, 0 ≤ e.after.player.standing a) ↔ ∀ e ∈ log, ¬ e.Overdraws a) ∧
    (s.player.Plain → (∀ e ∈ log, e.seen.player.Modest) → ∀ a ∈ scalars,
      (∀ e ∈ log, 0 ≤ e.after.player.standing a) ↔
        a = .defense ∨
          ∀ e ∈ log, e.seen.player.standing a = 0 → ∀ delta < 0, ¬ e.Asks a delta) := by
  intro log
  have run (a : Attribute) (member : a ∈ scalars) :
      ∀ e ∈ log, 0 ≤ e.seen.player.standing a →
        (0 ≤ e.after.player.standing a ↔ ¬ e.Overdraws a) := by
    intro e entry met
    obtain ⟨listed, verdict⟩ := verdict_of_mem_account e entry
    exact e.solvent_after_iff member verdict (tags _ listed) (tier e entry) (counted e entry) met
  constructor
  · intro a member
    exact kept_iff_of_account (P := fun t => 0 ≤ t.player.standing a) (solvent a member)
      (run a member)
  · intro plain modest a member
    have sync : s.player.InSync [] :=
      (StatBlock.refresh_eq_self_iff.mp sync).of_same_worn (Bare.filter_eq_nil unworn).symm
    have start : s.Bare := ⟨unworn, free, sync, plain⟩
    have bare : ∀ e ∈ log, e.seen.Bare := by
      refine seen_of_account start fun e entry met => ?_
      obtain ⟨listed, verdict⟩ := verdict_of_mem_account e entry
      exact e.bare_after verdict (tags _ listed) met
    have objection (e : Entry) (entry : e ∈ log) (met : 0 ≤ e.seen.player.standing a) :=
      (run a member e entry met).trans
        (not_congr (e.overdraws_iff member (bare e entry) (counted e entry) (modest e entry) met))
    rw [kept_iff_of_account (P := fun t => 0 ≤ t.player.standing a) (solvent a member) objection]
    by_cases defense : a = .defense
    · simp [defense]
    · simp [defense, log]

/-- Defense is lowered below what it has twice, and stands at zero. Offense is lowered once more
when it stands at zero, and that overdraws it. -/
theorem losses_leave_no_debt_twice :
    let s : GameState := {}
    let loss (called : String) : Command :=
      ⟨"Stat_Change", [("name", called), ("operation", "subtract"), ("amount", "9")]⟩
    let commands := [loss "defense", loss "atk", loss "DEF", loss "attack", loss "offense"]
    let log := account .standard s {} commands
    s.InSync ∧ (∀ i ∈ s.inventory, i.equipped = false) ∧ s.player.statusEffects = [] ∧
      (∀ a ∈ scalars, 0 ≤ s.player.standing a) ∧
      (∀ c ∈ commands, upper c.name = "STAT_CHANGE") ∧
      (∀ e ∈ log, e.after.player.base = e.seen.player.base) ∧
      (∀ e ∈ log, e.seen.player.Counted) ∧ s.player.Plain ∧ (∀ e ∈ log, e.seen.player.Modest) ∧
      (∀ e ∈ log, 0 ≤ e.after.player.standing .defense) ∧ ∃ e ∈ log, e.Overdraws .offense := by
  intro s loss commands log
  have sync : s.InSync := eq_ok_of_toOption (by decide +kernel)
  have unworn : ∀ i ∈ s.inventory, i.equipped = false := by decide
  have solvent : ∀ a ∈ scalars, 0 ≤ s.player.standing a := by decide +kernel
  have tags : ∀ c ∈ commands, upper c.name = "STAT_CHANGE" := by decide +kernel
  have each : ∀ e ∈ log, e.after.player.base = e.seen.player.base ∧ e.seen.player.Counted ∧
      e.seen.player.Modest := by decide +kernel
  have tier : ∀ e ∈ log, e.after.player.base = e.seen.player.base := fun e entry =>
    (each e entry).1
  have counted : ∀ e ∈ log, e.seen.player.Counted := fun e entry => (each e entry).2.1
  have modest : ∀ e ∈ log, e.seen.player.Modest := fun e entry => (each e entry).2.2
  have plain : s.player.Plain := by decide +kernel
  have owed : ¬ ∀ e ∈ log, 0 ≤ e.after.player.standing .offense := by decide +kernel
  obtain ⟨overdraws, kept⟩ := losses_leave_no_debt sync unworn rfl solvent tags tier counted
  refine ⟨sync, unworn, rfl, solvent, tags, tier, counted, plain, modest, ?_, ?_⟩
  · exact (kept plain modest .defense (by decide)).mpr (.inl rfl)
  · by_contra none
    exact owed ((overdraws .offense (by decide)).mpr fun e entry drawn => none ⟨e, entry, drawn⟩)

/-- Ten points of offense are lost twice in a new game, all that there were. The second time one
point is booked that there was not, so that offense stands below zero; the tier stays. -/
theorem losses_below_zero :
    let s : GameState := {
      player := { tier := "Qi Refining Layer 1" }, playerName := "Lin", location := "Hall"
      settings := { enableStats := false } }
    let loss : Command :=
      ⟨"STAT_CHANGE", [("name", "attack"), ("operation", "subtract"), ("amount", "10")]⟩
    let run := dispatchAll .standard s {} [loss, loss]
    GameState.begin "Lin" { enableStats := false } none "Hall" = .ok s ∧ s.InSync ∧
      (∀ i ∈ s.inventory, i.equipped = false) ∧ s.player.statusEffects = [] ∧
      (∀ a ∈ scalars, 0 ≤ s.player.standing a) ∧ run.ignored = [] ∧
      (∀ e ∈ account .standard s {} [loss, loss],
        e.after.player.tier = e.seen.player.tier ∧ e.after.player.base = e.seen.player.base) ∧
      run.state.player.standing .offense < 0 := by
  intro s loss run
  have begun : GameState.begin "Lin" { enableStats := false } none "Hall" = .ok s :=
    eq_ok_of_toOption (by decide +kernel)
  have sync : s.InSync := eq_ok_of_toOption (by decide +kernel)
  refine ⟨begun, sync, ?_⟩
  decide +kernel

end Ascent
