import Ascent.Proofs.Fray
import Ascent.Proofs.Storable

/-!
A game goes on alike after it was saved and loaded.

What is loaded is a twin of what was saved: the same game, but every field of every person counts as
set, and lasting bonuses have become binary64 numbers. Commands lead from twins to twins and tell
the same, so a loaded game goes on as the other one would have. Two things can tell them apart. A
prisoner who is laid over a namesake brings only the fields that were set, and a bonus beyond
`2 ^ 53` takes up a change with another rounding.

Main exports: `GameState.Suits`, `Dispatched.Suits`, `dispatch_twin`, `dispatchAll_twin`,
`GameState.Twin.toJson`, `Reachable.twin_reloaded`, `Reachable.resumes`.
-/

namespace Ascent

open Text

/-! ### One command -/

/-- A command that does the same in the state and in its twin: no bonus of the player is too large
where stats change, and nobody is taken prisoner who has a namesake there. -/
structure GameState.Suits (s : GameState) (c : Command) : Prop where
  exact : upper c.name = upper "STAT_CHANGE" → ∀ b ∈ s.player.permanentBonuses, b.2.Exact
  apart : upper c.name = upper "COMBAT_END" →
    ∀ r ∈ combatResultOf? c.params, s.DisposesApart r.dispositions

instance (s : GameState) (c : Command) : Decidable (s.Suits c) :=
  decidable_of_iff
    ((upper c.name = upper "STAT_CHANGE" → ∀ b ∈ s.player.permanentBonuses, b.2.Exact) ∧
      (upper c.name = upper "COMBAT_END" →
        ∀ r ∈ combatResultOf? c.params, s.DisposesApart r.dispositions))
    ⟨fun ⟨exact, apart⟩ => ⟨exact, apart⟩, fun ⟨exact, apart⟩ => ⟨exact, apart⟩⟩

/-- The same effect but for states that are twins. -/
structure Effect.Twin (e f : Effect) : Prop where
  state : e.state.Twin f.state
  updates : f.updates = e.updates
  messages : f.messages = e.messages

section

variable {s t : GameState}

/-- In a reached state a change is reckoned exactly where bonuses are not too large. -/
theorem Reachable.exact (reached : Reachable s)
    (bonuses : ∀ b ∈ s.player.permanentBonuses, b.2.Exact) : s.player.Exact where
  base := reached.grown.player.base
  current := whole_current reached.sound.sync
  bonuses := bonuses

/-- A command whose rules agree leads to twins, or is left out of both games alike. -/
theorem dispatch_agree {registry : Registry} {c : Command}
    (alike : ∀ rule, registry.find? c.name = some rule →
      Play.Agree Effect.Kin (rule.run s c.params) (rule.run t c.params)) (supply : Supply) :
    Agree Effect.Twin (dispatch registry s c supply).1 (dispatch registry t c supply).1 ∧
      (dispatch registry t c supply).2 = (dispatch registry s c supply).2 := by
  unfold dispatch
  dsimp only
  cases found : registry.find? c.name with
  | none => exact ⟨.error _, rfl⟩
  | some rule =>
      dsimp only
      cases rule.required.find? c.params.lacks with
      | some argument => exact ⟨.error _, rfl⟩
      | none =>
          obtain ⟨results, rests⟩ := alike rule found supply
          rcases run : (rule.run s c.params).outcome supply with ⟨result, rest⟩
          rcases run' : (rule.run t c.params).outcome supply with ⟨result', rest'⟩
          rw [run, run'] at results rests
          dsimp only at results rests ⊢
          cases results with
          | error fault => exact ⟨.error _, rests.symm⟩
          | ok kin => exact ⟨.ok ⟨kin.state.legalize, kin.updates, kin.messages⟩, rests.symm⟩

/-- The standard commands lead from a reached state and its twin to twins. -/
theorem dispatch_twin (h : s.Twin t) (reached : Reachable s) {c : Command} (suits : s.Suits c)
    (supply : Supply) :
    Agree Effect.Twin (dispatch .standard s c supply).1 (dispatch .standard t c supply).1 ∧
      (dispatch .standard t c supply).2 = (dispatch .standard s c supply).2 := by
  refine dispatch_agree (fun rule found => ?_) supply
  obtain ⟨r, member, same, tag⟩ := Registry.exists_rule found
  rw [same]
  exact Registry.rule_kin member h reached.distinct
    (fun changes => reached.exact (suits.exact (tag.trans changes)))
    fun ends => suits.apart (tag.trans ends)

end

/-! ### Many commands -/

namespace Dispatched

/-- Each of the commands suits the state that those before it lead to. -/
def Suits (done : Dispatched) : List Command → Prop
  | [] => True
  | c :: rest => done.state.Suits c ∧ (done.next .standard c).Suits rest

instance decidableSuits : (done : Dispatched) → (commands : List Command) →
    Decidable (done.Suits commands)
  | _, [] => isTrue trivial
  | done, c :: rest =>
    have := decidableSuits (done.next .standard c) rest
    inferInstanceAs (Decidable (done.state.Suits c ∧ (done.next .standard c).Suits rest))

/-- The same came of commands, but for states that are twins. -/
structure Twin (d e : Dispatched) : Prop where
  state : d.state.Twin e.state
  supply : e.supply = d.supply
  updates : e.updates = d.updates
  ignored : e.ignored = d.ignored
  messages : e.messages = d.messages

variable {d e : Dispatched}

theorem Twin.next_of_agree (h : d.Twin e) {registry : Registry} {c : Command}
    (agree : Agree Effect.Twin (dispatch registry d.state c d.supply).1
        (dispatch registry e.state c d.supply).1 ∧
      (dispatch registry e.state c d.supply).2 = (dispatch registry d.state c d.supply).2) :
    (d.next registry c).Twin (e.next registry c) := by
  obtain ⟨results, rests⟩ := agree
  unfold Dispatched.next
  rw [h.supply]
  rcases run : dispatch registry d.state c d.supply with ⟨result, rest⟩
  rcases run' : dispatch registry e.state c d.supply with ⟨result', rest'⟩
  rw [run, run'] at results rests
  dsimp only at results rests ⊢
  cases results with
  | error ignored =>
      exact ⟨h.state, rests, h.updates, congrArg (· ++ [ignored]) h.ignored, h.messages⟩
  | @ok effect effect' twin =>
      have updates : e.updates ++ effect'.updates = d.updates ++ effect.updates := by
        rw [h.updates, twin.updates]
      have messages : e.messages ++ effect'.messages = d.messages ++ effect.messages := by
        rw [h.messages, twin.messages]
      exact ⟨twin.state, rests, updates, h.ignored, messages⟩

/-- One more command leads to the state that it has led to, or leaves the one that it saw. -/
theorem state_next (registry : Registry) (c : Command) :
    (∃ effect rest, dispatch registry d.state c d.supply = (.ok effect, rest) ∧
      (d.next registry c).state = effect.state) ∨ (d.next registry c).state = d.state := by
  unfold next
  rcases dispatch registry d.state c d.supply with ⟨_ | effect, rest⟩
  · exact .inr rfl
  · exact .inl ⟨effect, rest, rfl, rfl⟩

theorem dispatchAll_singleton (registry : Registry) (s : GameState) (supply : Supply)
    (c : Command) :
    dispatchAll registry s supply [c] = Dispatched.next registry { state := s, supply } c := rfl

theorem reachable_next (reached : Reachable d.state) (c : Command) :
    Reachable (d.next .standard c).state := by
  rcases state_next .standard c with ⟨effect, rest, run, same⟩ | same
  · rw [same]
    exact reached.step (.command run)
  · rw [same]
    exact reached

theorem reachable_foldl_next (reached : Reachable d.state) (commands : List Command) :
    Reachable (commands.foldl (Dispatched.next .standard) d).state := by
  induction commands generalizing d with
  | nil => exact reached
  | cons c rest ih =>
      rw [List.foldl_cons]
      exact ih (reachable_next reached c)

/-- Commands carried out one after another lead from twins to twins. -/
theorem Twin.foldl_next (h : d.Twin e) (reached : Reachable d.state) {commands : List Command}
    (suits : d.Suits commands) :
    (commands.foldl (Dispatched.next .standard) d).Twin
      (commands.foldl (Dispatched.next .standard) e) := by
  induction commands generalizing d e with
  | nil => exact h
  | cons c rest ih =>
      obtain ⟨now, later⟩ := suits
      rw [List.foldl_cons, List.foldl_cons]
      have next := h.next_of_agree (dispatch_twin h.state reached now d.supply)
      exact ih next (reachable_next reached c) later

end Dispatched

theorem dispatchAll_twin {s t : GameState} (h : s.Twin t) (reached : Reachable s) {supply : Supply}
    {commands : List Command} (suits : Dispatched.Suits { state := s, supply := supply } commands) :
    (dispatchAll .standard s supply commands).Twin (dispatchAll .standard t supply commands) := by
  have start : Dispatched.Twin { state := s, supply := supply } { state := t, supply := supply } :=
    ⟨h, rfl, rfl, rfl, rfl⟩
  exact start.foldl_next reached suits

/-! ### What twins are written as -/

theorem Bonus.Twin.toJson {b c : String × Bonus} (h : Bonus.Twin b c) :
    c.2.toJson = b.2.toJson := by
  rcases h.value with same | number
  · rw [same]
  · rw [number]
    cases known : b.2 with
    | real x => rfl
    | whole n =>
        have formed : (Bonus.whole n).WellFormed := h.finite n known
        exact Bonus.toJson_reloaded formed

theorem StatBlock.Twin.toJson {s t : StatBlock} (h : s.Twin t) : t.toJson = s.toJson := by
  obtain ⟨bonuses, rfl, twins⟩ := h
  have written : pairsJson Bonus.toJson bonuses = pairsJson Bonus.toJson s.permanentBonuses :=
    congrArg Json.object (map_eq_of_twins (fun twin => Prod.ext twin.key twin.toJson) twins)
  rw [StatBlock.toJson, written]
  rfl

/-- Twins are written alike. -/
theorem GameState.Twin.toJson {s t : GameState} (h : s.Twin t) : t.toJson = s.toJson := by
  obtain ⟨player, cast, rfl, twin, twins⟩ := h
  have people (circle : Circle) : (cast.get circle).map Person.toJson =
      (s.people circle).map Person.toJson :=
    map_eq_of_twins (fun twin => twin.toJson) (twins circle)
  have met (circle : Circle) : (s.amid player cast).people circle = cast.get circle := rfl
  have stats : (s.amid player cast).player.toJson = s.player.toJson := twin.toJson
  simp only [GameState.toJson, members, met, people, stats]
  rfl

/-- Whether a text stands somewhere in a value. -/
def Json.mentions (j : Json) (text : String) : Bool := j.leaves.any fun
  | .str s => s = text
  | _ => false

/-! ### What is loaded -/

theorem Bonus.twin_reloaded {b : String × Bonus} (formed : b.2.WellFormed) :
    Bonus.Twin b (b.1, b.2.reloaded) where
  key := rfl
  value := .inr rfl
  finite := fun n known => by rwa [known] at formed

theorem StatBlock.twin_reloaded {s : StatBlock} (formed : s.WellFormed) : s.Twin s.reloaded := by
  refine ⟨_, rfl, List.forall₂_map_right_iff.mpr ?_⟩
  exact List.forall₂_same.mpr fun b member => Bonus.twin_reloaded (formed.bonuses b member)

/-- Stats of people have no lasting bonuses, so they are read back as they were. -/
theorem Person.twin_reloaded {p : Person} (grown : p.Grown) : p.Twin p.reloaded := by
  have stats : p.stats.map StatBlock.reloaded = p.stats := by
    cases known : p.stats with
    | none => rfl
    | some s =>
        obtain ⟨none, _⟩ := grown.stats s known
        rw [Option.map_some, StatBlock.reloaded, none, List.map_nil, ← none]
  exact ⟨_, by rw [Person.reloaded, stats]⟩

namespace Reachable

variable {s : GameState}

/-- What is loaded is a twin of what was saved. -/
theorem twin_reloaded (reached : Reachable s) (settings : s.settings.WellFormed) :
    s.Twin s.reloaded := by
  refine ⟨s.player.reloaded, _, rfl, ?_, fun circle => ?_⟩
  · exact StatBlock.twin_reloaded (reached.wellFormed settings).player
  · rw [Cast.get_ofFn, List.forall₂_map_right_iff]
    exact List.forall₂_same.mpr fun p member =>
      Person.twin_reloaded (reached.arises circle p member).grown

/-- Saving and loading is not noticed. A reached state is loaded again, unless an integer in it has
too many digits, and is written as before; and commands that suit the states which they find tell
the same and lead to states that are written alike, whether the game was loaded or not. -/
theorem resumes (reached : Reachable s) (settings : s.settings.WellFormed)
    (short : s.toJson.ShortIntegers) (nextId : Nat) :
    ∃ t, s.reload nextId = (.ok t, nextId) ∧ t.toJson = s.toJson ∧
      ∀ supply commands, Dispatched.Suits { state := s, supply := supply } commands →
        let loaded := dispatchAll .standard t supply commands
        let kept := dispatchAll .standard s supply commands
        loaded.state.toJson = kept.state.toJson ∧ loaded.messages = kept.messages ∧
          loaded.ignored = kept.ignored ∧ loaded.updates = kept.updates ∧
          loaded.supply = kept.supply := by
  have formed := reached.wellFormed settings
  refine ⟨s.reloaded, GameState.reload_eq formed short nextId, GameState.toJson_reloaded formed, ?_⟩
  intro supply commands suits
  have twin := dispatchAll_twin (reached.twin_reloaded settings) reached suits
  exact ⟨twin.state.toJson, twin.messages, twin.ignored, twin.updates, twin.supply⟩

/-- Before the game is saved the player has trained and met somebody; then the player trains more,
and the other one is taken prisoner. -/
theorem resumes_training :
    let settings : Settings := { enableStats := false }
    let base : Attributes Int := ⟨100, 50, 10, 5, 10, 100⟩
    let start : GameState := {
      player := { tier := "Qi Refining Layer 1", current := base, base := base }
      playerName := "Lin"
      location := "Hall"
      settings := settings }
    let train : Command := ⟨"STAT_CHANGE",
      [("name", "offense"), ("operation", "add"), ("amount", "3")]⟩
    let meet : Command := ⟨"NPC_NEW", [("name", "Bob"), ("description", "a guard")]⟩
    let capture : Command := ⟨"COMBAT_END",
      [("outcome", "victory"), ("dispositions", "Bob: capture")]⟩
    let bob : Person := {
      id := "id-1", name := "Bob", description := "a guard", given := [.name, .description] }
    let s : GameState := {
      start with
      player := { start.player with
        current := ⟨100, 50, 13, 5, 10, 100⟩, permanentBonuses := [("offense", .whole 3)] }
      cast := { encountered := [bob] } }
    let supply : Supply := { nextId := 2 }
    Reachable start ∧ (dispatchAll .standard start {} [train, meet]).state = s ∧
      s.settings.WellFormed ∧ s.toJson.ShortIntegers ∧
      Dispatched.Suits { state := s, supply := supply } [train, capture] ∧
      ∃ t, s.reload 2 = (.ok t, 2) ∧ t.toJson = s.toJson ∧
        let loaded := dispatchAll .standard t supply [train, capture]
        let kept := dispatchAll .standard s supply [train, capture]
        loaded.state.toJson = kept.state.toJson ∧ loaded.messages = kept.messages ∧
          loaded.ignored = kept.ignored ∧ loaded.updates = kept.updates ∧
          loaded.supply = kept.supply := by
  intro settings base start train meet capture bob s supply
  have opened : GameState.begin "Lin" settings none "Hall" = .ok start :=
    eq_ok_of_toOption (by decide +kernel)
  have begun : Reachable start := .begin opened
  have told : (dispatchAll .standard start {} [train, meet]).state = s := by decide +kernel
  have reached : Reachable s := told ▸ Dispatched.reachable_foldl_next begun [train, meet]
  have formed : s.settings.WellFormed := Settings.wellFormed_of_standard rfl
  have short : s.toJson.ShortIntegers := by decide +kernel
  have suits : Dispatched.Suits { state := s, supply := supply } [train, capture] := by
    decide +kernel
  obtain ⟨t, loads, written, follows⟩ := resumes reached formed short 2
  exact ⟨begun, told, formed, short, suits, t, loads, written, follows supply _ suits⟩

/-- Loading is noticed where somebody is taken prisoner who has a namesake there. The later one
never had a description, and so leaves the one that is there; once the game was loaded it counts as
set. -/
theorem noticed_by_namesake :
    let meet : Command := ⟨"NPC_NEW", [("name", "Bob"), ("description", "a guard")]⟩
    let capture : Command := ⟨"COMBAT_END",
      [("outcome", "victory"), ("dispositions", "Bob: capture")]⟩
    let again : Command := ⟨"NPC_NEW", [("name", "Bob")]⟩
    let start : GameState := {
      player := { tier := "Qi Refining Layer 1" }
      playerName := "Lin"
      location := "Hall"
      settings := { enableStats := false } }
    let bob : Person := {
      id := "id-1", name := "Bob", description := "a guard", given := [.name, .description] }
    let s : GameState := {
      start with
      cast := {
        encountered := [{ id := "id-2", name := "Bob", given := [.name] }]
        prisoners := [bob.captured] } }
    let supply : Supply := { nextId := 3 }
    Reachable start ∧ (dispatchAll .standard start {} [meet, capture, again]).state = s ∧
      ∃ t, s.reload 3 = (.ok t, 3) ∧
        (dispatchAll .standard t supply [capture]).state.toJson ≠
          (dispatchAll .standard s supply [capture]).state.toJson := by
  intro meet capture again start bob s supply
  have opened : GameState.begin "Lin" { enableStats := false } none "Hall" = .ok start :=
    eq_ok_of_toOption (by decide +kernel)
  have begun : Reachable start := .begin opened
  have told : (dispatchAll .standard start {} [meet, capture, again]).state = s := by
    decide +kernel
  have reached : Reachable s := told ▸ Dispatched.reachable_foldl_next begun [meet, capture, again]
  have formed : s.settings.WellFormed := Settings.wellFormed_of_standard rfl
  have short : s.toJson.ShortIntegers := by decide +kernel
  have loads := GameState.reload_eq (reached.wellFormed formed) short 3
  have kept : (dispatchAll .standard s supply [capture]).state.toJson.mentions "a guard" =
      true := by decide +kernel
  have lost : (dispatchAll .standard s.reloaded supply [capture]).state.toJson.mentions "a guard" =
      false := by decide +kernel
  refine ⟨begun, told, s.reloaded, loads, fun same => ?_⟩
  rw [same, kept] at lost
  cases lost

end Reachable
end Ascent
