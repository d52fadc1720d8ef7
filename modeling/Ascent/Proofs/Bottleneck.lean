import Ascent.Proofs.Ascension
import Ascent.Proofs.Doings

/-!
The bottleneck at the end of a major tier cannot be skipped.

Every step of a run leaves the player's tier alone or is one move on the ladder, and each move has
its own causes: experience for a climb, the end of a breakthrough or of a fight for the others. Of
all commands only three touch tier or phase, the beginning of a trial aside, which enters it from a
peak.

Main exports: `Event.Causes`, `GameState.Leg`, `Event.Leads.leg`, `tier_moves_of_reachable`.
-/

namespace Ascent

open Text StatBlock

/-! ### Causes -/

/-- Whether a command adds to the player's experience. -/
def Command.AddsExperience (c : Command) : Prop :=
  let operation := (c.params.value? "operation").getD ""
  upper c.name = "STAT_CHANGE" ∧ StatKey.ofName? (c.params.required "name") = some .experience ∧
    StatOperation.ofText? (if operation = "" then "add" else operation) = some .add

/-- What may cause a move: added experience a climb, and the end of a breakthrough or of a fight the
other two. -/
def Event.Causes : Event → Move → Prop
  | .command c, .climb => c.AddsExperience
  | .command c, _ => upper c.name = "BREAKTHROUGH_RESULT" ∨ upper c.name = "COMBAT_END"
  | .turnEnd, _ => False
  | .fight _, m => m ≠ .climb

/-! ### Legs of a run -/

namespace GameState

/-- A part of a run under unchanged settings, over which the player's stats make a passage. -/
structure Leg (ways : Move → Prop) (s t : GameState) : Prop where
  settings : t.settings = s.settings
  passage : s.settings.Regular → s.player.Phased s.settings →
    Passage s.settings ways s.player t.player

/-- A part of a run over which the player stays in place. -/
structure SamePlace (s t : GameState) : Prop where
  settings : t.settings = s.settings
  player : s.player.SamePlace t.player

namespace SamePlace

variable {s t u : GameState} {ways : Move → Prop}

theorem refl (s : GameState) : s.SamePlace s := ⟨rfl, .refl _⟩

theorem of_sameHero (h : s.SameHero t) : s.SamePlace t :=
  ⟨h.settings, by rw [h.player]; exact .refl _⟩

theorem trans (h : s.SamePlace t) (k : t.SamePlace u) : s.SamePlace u :=
  ⟨k.settings.trans h.settings, h.player.trans k.player⟩

theorem leg (h : s.SamePlace t) : Leg ways s t :=
  ⟨h.settings, fun _ before => .of_samePlace before h.player⟩

end SamePlace

namespace Leg

variable {s s' t t' : GameState} {ways ways' : Move → Prop}

theorem mono (h : Leg ways s t) (more : ∀ m, ways m → ways' m) : Leg ways' s t :=
  ⟨h.settings, fun regular before => (h.passage regular before).mono more⟩

theorem congr (h : Leg ways s t) (start : s'.SamePlace s) (arrival : t.SamePlace t') :
    Leg ways s' t' := by
  refine ⟨arrival.settings.trans (h.settings.trans start.settings), fun regular before => ?_⟩
  have passage := h.passage (by rw [start.settings]; exact regular)
    (by rw [start.settings]; exact start.player.phased before)
  rw [start.settings] at passage
  exact passage.congr start.player arrival.player

/-- Restoring changes neither tier nor phase of stats that are in order. -/
theorem legalize (h : Leg ways s t) : Leg ways s t.legalize := by
  refine ⟨h.settings, fun regular before => ?_⟩
  have passage := h.passage regular before
  have fits : (t.player.atPeak && !(t.settings.resolve t.player.tier).isLastMinor) = false := by
    rw [h.settings]
    cases peak : t.player.atPeak with
    | false => rfl
    | true => simp [passage.phased.peak peak]
  have place : t.player.SamePlace t.legalize.player := by
    refine ⟨rfl, ?_, ?_⟩ <;> simp [GameState.legalize, StatBlock.legalize, fits]
  exact passage.congr (.refl _) place

end Leg
end GameState

open GameState

/-! ### What keeps the player in place -/

section

variable {s t : GameState} {effect : Effect}

theorem withPlayer_samePlace {player : StatBlock} (h : s.player.SamePlace player) :
    s.SamePlace { s with player := player } := ⟨rfl, h⟩

theorem withInventory_samePlace {worn : Bool} {inventory : List Item}
    (h : s.withInventory worn inventory = .ok t) : s.SamePlace t := by
  obtain ⟨player, rfl, refreshed | ⟨-, rfl⟩⟩ := withInventory_eq_ok h
  · exact ⟨rfl, samePlace_of_refresh refreshed⟩
  · exact ⟨rfl, .refl _⟩

theorem withStatus_samePlace {effects : List StatusEffect} (h : s.withStatus effects = .ok t) :
    s.SamePlace t := by
  obtain ⟨player, refreshed, h⟩ := exists_of_bind_eq_ok h
  rw [← Except.ok.inj h]
  have place : s.player.SamePlace { s.player with statusEffects := effects } := ⟨rfl, rfl, rfl⟩
  exact withPlayer_samePlace (place.trans (samePlace_of_refresh refreshed))

theorem tickStatus_samePlace {ended : List String} (h : s.tickStatus = .ok (t, ended)) :
    s.SamePlace t := by
  obtain ⟨player, rfl, rfl | refreshed⟩ := tickStatus_eq_ok h
  · exact ⟨rfl, rfl, rfl, rfl⟩
  · have place : s.player.SamePlace s.player.outlast := ⟨rfl, rfl, rfl⟩
    exact withPlayer_samePlace (place.trans (samePlace_of_refresh refreshed))

/-! ### What moves the player -/

theorem addPermanent_samePlace {s : StatBlock} {a : Attribute} {delta : Int} {items : List Item}
    {change : StatChange} (h : addPermanent s a delta items = .ok change) :
    s.SamePlace change.stats := by
  obtain ⟨bonus, _, h⟩ := exists_of_bind_eq_ok h
  obtain ⟨updated, refreshed, h⟩ := exists_of_bind_eq_ok h
  rw [← Except.ok.inj h]
  have place : s.SamePlace { s with permanentBonuses := s.permanentBonuses.put a.key bonus } :=
    ⟨rfl, rfl, rfl⟩
  exact place.trans (samePlace_of_refresh refreshed)

/-- A change of stats moves them only where it adds experience. -/
theorem StatBlock.Changes.passage {s : StatBlock} {key : StatKey} {op : StatOperation} {delta : Int}
    {settings : Settings} {items : List Item} {change : StatChange} (regular : settings.Regular)
    (before : s.Phased settings) (h : s.Changes delta settings items key op change) :
    Passage settings (fun m => m = .climb ∧ key = .experience ∧ op = .add) s change.stats := by
  have gained : s.SamePlace { s with experience := max 0 (s.experience + delta) } :=
    ⟨rfl, rfl, rfl⟩
  cases h with
  | lasting _ added => exact .of_samePlace before (addPermanent_samePlace added)
  | gained => exact .of_samePlace before gained
  | climbed _ climbed =>
      have passage := checkLevel_passage regular (gained.phased before) climbed
      exact (passage.congr gained (.refl _)).mono fun m way => ⟨way, rfl, rfl⟩
  | rest => exact .of_samePlace before (.refl s)
  | vitality | resource | currency => exact .of_samePlace before ⟨rfl, rfl, rfl⟩

theorem settleTrial_leg {success : Bool} (h : settleTrial s success = .ok effect) :
    Leg (· ≠ .climb) s effect.state := by
  obtain ⟨climb, resolved, h⟩ := exists_of_bind_eq_ok h
  rw [← Except.ok.inj h]
  exact ⟨rfl, fun regular before => resolveBreakthrough_passage regular before resolved⟩

theorem applyCombatResult_leg {r : CombatResult} (h : applyCombatResult s r = .ok effect) :
    Leg (· ≠ .climb) s effect.state := by
  obtain ⟨settled, inventory, trial⟩ := applyCombatResult_eq_ok h
  have left : s.SamePlace { s with pendingCombat := none, player := s.player.afterFight r } :=
    ⟨rfl, rfl, rfl, rfl⟩
  have same := fought_sameHero s r
  have settledPlace : s.SamePlace settled := by
    rcases inventory with ⟨_, rfl⟩ | ⟨items, player, _, refreshed, rfl⟩
    · exact left.trans (.of_sameHero same)
    · exact (left.trans (.of_sameHero same)).trans ⟨rfl, samePlace_of_refresh refreshed⟩
  rcases trial with kept | ⟨_, _, trial, ended, decided⟩
  · exact kept ▸ settledPlace.leg
  · exact decided ▸ (settleTrial_leg ended).congr settledPlace (.refl _)

/-- What the player feels moves the player only in the ways that it causes. -/
theorem GameState.Deed.leg {c : Command} {tag : String} (named : upper c.name = tag)
    (h : s.Deed c.params tag t) : Leg (Event.command c).Causes s t := by
  have decided (tag : upper c.name = "BREAKTHROUGH_RESULT" ∨ upper c.name = "COMBAT_END")
      {t : GameState} (leg : Leg (· ≠ .climb) s t) : Leg (Event.command c).Causes s t := by
    refine leg.mono fun m way => ?_
    cases m with
    | climb => exact absurd rfl way
    | ascend => exact tag
    | fall => exact tag
  cases h with
  | rest => exact (SamePlace.refl s).leg
  | grown _ _ stored => exact (withInventory_samePlace stored).leg
  | begun => exact SamePlace.leg ⟨rfl, .refl _⟩
  | lessened _ _ stored => exact (withInventory_samePlace stored).leg
  | lost _ stored => exact (withInventory_samePlace stored).leg
  | worn _ stored => exact (withInventory_samePlace stored).leg
  | changed changed =>
      refine ⟨rfl, fun regular before => ?_⟩
      rcases changeStat_eq_ok changed with rfl | ⟨key, op, delta, known, asked, changes⟩
      · exact .of_samePlace before (.refl _)
      · refine (changes.passage regular before).mono ?_
        rintro m ⟨rfl, rfl, rfl⟩
        exact ⟨named, known, asked⟩
  | acquired _ stored => exact (withStatus_samePlace stored).leg
  | ended _ stored => exact (withStatus_samePlace stored).leg
  | esteemed => exact SamePlace.leg ⟨rfl, .refl _⟩
  | tried => exact ⟨rfl, fun _ before => beginBreakthrough_passage before⟩
  | settled _ settled => exact decided (.inl named) (settleTrial_leg settled)
  | provoked => exact SamePlace.leg ⟨rfl, rfl, rfl, rfl⟩
  | fought _ done => exact decided (.inr named) (applyCombatResult_leg done)

end

/-! ### Steps -/

/-- Whatever a command is given, its rule moves the player only in the ways that it causes. -/
theorem rule_leg (s : GameState) (c : Command) {r : CommandRule} (member : r ∈ Registry.rules)
    (named : upper c.name = upper r.tag) :
    (r.run s c.params).Ensures fun e => Leg (Event.command c).Causes s e.state := by
  rcases Registry.bystander_or_deed member with aside | deed
  · exact (Registry.sameHero_of_bystander aside s c.params).mono fun _ same =>
      (SamePlace.of_sameHero same).leg
  · exact (Registry.deed_of_rule deed s c.params).mono fun _ done => done.leg named

/-- A step moves the player only in the ways that it causes. -/
theorem Event.Leads.leg {event : Event} {s t : GameState} (leads : event.Leads s t) :
    Leg event.Causes s t := by
  cases leads with
  | @command c _ _ _ _ run =>
      exact dispatch_keeps (P := Leg (Event.command c).Causes s) run
        (fun _ member named => rule_leg s c member named) fun _ leg => leg.legalize
  | turnEnd run =>
      obtain ⟨ticked, ended, cast, news, ticking, -, -, rfl⟩ := endTurn_eq_ok run
      have turned := GameState.SameHero.turned ticked cast (ticked.turn + 1)
      have place := (tickStatus_samePlace ticking).trans (.of_sameHero turned)
      exact place.leg.legalize
  | fight formed run => exact (applyCombatResult_leg run).legalize

theorem begin_phased {playerName : String} {settings : Settings} {tier : Option String}
    {location : String} {s : GameState}
    (h : GameState.begin playerName settings tier location = .ok s) :
    s.player.Phased s.settings := by
  obtain ⟨label, player, rfl, rebased | rfl⟩ := begin_eq_ok h
  · exact phased_of_normal ((samePlace_of_rebase rebased).phase.trans rfl)
  · exact phased_of_normal rfl

theorem Reachable.phased {s : GameState} (reached : Reachable s) (regular : s.settings.Regular) :
    s.player.Phased s.settings := by
  refine reached.invariant (P := fun s => s.settings.Regular → s.player.Phased s.settings)
    (fun start _ => begin_phased start) (fun _ before leads regular => ?_) regular
  have leg := leads.leg
  rw [leg.settings] at regular ⊢
  exact (leg.passage regular (before regular)).phased

/-- The bottleneck cannot be skipped. On a ladder whose labels stand for their own rungs and not for
mortals, whoever is in a trial is at a peak and whoever is at a peak stands at a last minor tier, in
every reached state. A further step leaves the tier alone or is just one of the three moves, which
it has to be the cause of; and mortals keep their tier. -/
theorem tier_moves_of_reachable {s : GameState} (reached : Reachable s)
    (regular : s.settings.Regular) :
    (s.player.inTribulation = true → s.player.atPeak = true) ∧
    (s.player.atPeak = true → (s.settings.resolve s.player.tier).isLastMinor = true) ∧
    ∀ (event : Event) (t : GameState), event.Leads s t →
      (t.player.tier = s.player.tier ∨
        ∃ m, Move.Takes s.settings s.player t.player m ∧
          (∀ m', Move.Takes s.settings s.player t.player m' → m' = m) ∧ event.Causes m) ∧
      (s.settings.isMortal s.player.tier = true → t.player.tier = s.player.tier) := by
  have phased := reached.phased regular
  refine ⟨phased.trial, phased.peak, fun event t leads => ?_⟩
  have passage := leads.leg.passage regular phased
  refine ⟨?_, passage.mortal⟩
  rcases passage.tier with same | ⟨m, cause, takes⟩
  · exact .inl same
  · exact .inr ⟨m, takes, fun m' takes' => takes.unique takes', cause⟩

/-- However much experience is gained, it ends at the peak of the tier; the breakthrough leads on.
-/
theorem tier_moves_of_reachable_peak :
    let foot : Attributes Int := ⟨100, 50, 10, 5, 10, 1000⟩
    let last : Attributes Int := ⟨188, 94, 18, 9, 18, 1888⟩
    let next : Attributes Int := ⟨500, 250, 50, 25, 50, 5000⟩
    let gain : Command := ⟨"STAT_CHANGE", [("name", "xp"), ("amount", "90000")]⟩
    let success : Command := ⟨"BREAKTHROUGH_RESULT", [("success", "yes")]⟩
    let s : GameState := {
      player := { tier := "Qi Refining Layer 1", current := foot, base := foot }
      playerName := "Lin"
      location := "Hall" }
    let t : GameState := { s with player := {
      tier := "Qi Refining Layer 9", current := last, base := last
      vitality := 188, resource := 94, experience := 1888, atPeak := true } }
    let u : GameState := { s with player := {
      tier := "Foundation Establishment Layer 1", current := next, base := next
      vitality := 500, resource := 250 } }
    s.settings.Regular ∧ Reachable s ∧ Event.Leads (.command gain) s t ∧
    (∃ m, Move.Takes {} s.player t.player m ∧ Event.Causes (.command gain) m) ∧
    (t.settings.resolve t.player.tier).isLastMinor = true ∧
    Event.Leads (.command success) t u ∧
    (∃ m, Move.Takes {} t.player u.player m ∧ Event.Causes (.command success) m) := by
  intro foot last next gain success s t u
  have start : GameState.begin "Lin" {} none "Hall" = .ok s :=
    eq_ok_of_toOption (by decide +kernel)
  have gained : Event.Leads (.command gain) s t :=
    Event.leads_of_state {} (by decide +kernel)
  have risen : Event.Leads (.command success) t u :=
    Event.leads_of_state {} (by decide +kernel)
  have begun : Reachable s := .begin start
  have atFoot := tier_moves_of_reachable begun Settings.standard_regular
  have atPeak := tier_moves_of_reachable (begun.step gained) Settings.standard_regular
  refine ⟨Settings.standard_regular, begun, gained, ?_, atPeak.2.1 rfl, risen, ?_⟩
  · rcases (atFoot.2.2 _ t gained).1 with same | ⟨m, takes, _, cause⟩
    · exact absurd same (by decide)
    · exact ⟨m, takes, cause⟩
  · rcases (atPeak.2.2 _ u risen).1 with same | ⟨m, takes, _, cause⟩
    · exact absurd same (by decide)
    · exact ⟨m, takes, cause⟩

end Ascent
