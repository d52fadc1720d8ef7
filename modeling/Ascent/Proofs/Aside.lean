import Ascent.Proofs.Bystander

/-!
What leaves everybody alone.

Commands about what is known, about practice, standing, time and memory neither ask for the player's
stats or for people nor change them. What they do amid another player and other people is the same,
with these in place.

Main exports: `GameState.amid`, `Registry.Aside`, `Registry.aside_of_errand`.
-/

namespace Ascent

open Text

/-- The state with another player and other people. -/
def GameState.amid (s : GameState) (player : StatBlock) (cast : Cast) : GameState :=
  { s with player := player, cast := cast }

/-- What a command does, amid another player and other people. -/
def Effect.amid (e : Effect) (player : StatBlock) (cast : Cast) : Effect :=
  { e with state := e.state.amid player cast }

theorem learnSkill_amid (s : GameState) (params : Params) (player : StatBlock) (cast : Cast) :
    learnSkill (s.amid player cast) params =
      (learnSkill s params).map (·.amid player cast) := by
  have skills : (s.amid player cast).skills = s.skills := rfl
  unfold learnSkill
  rw [skills]
  dsimp only
  split
  · rfl
  · cases params.textOr "description" "" <;> rfl

theorem changeReputation_amid (s : GameState) (params : Params) (player : StatBlock)
    (cast : Cast) : changeReputation (s.amid player cast) params =
      (changeReputation s params).map (·.amid player cast) := by
  unfold changeReputation
  split
  · rfl
  · cases params.textOr "reason" "" <;> rfl

theorem passTime_amid (s : GameState) (params : Params) (player : StatBlock) (cast : Cast) :
    passTime (s.amid player cast) params = (passTime s params).map (·.amid player cast) := by
  unfold passTime
  cases params.textOr "duration" "" with
  | error e => rfl
  | ok word =>
      dsimp only [bind, Except.bind]
      split <;> rfl

theorem updateFaction_amid (s : GameState) (params : Params) (player : StatBlock) (cast : Cast) :
    updateFaction (s.amid player cast) params = (updateFaction s params).amid player cast := by
  simp only [updateFaction, Effect.amid, GameState.amid]

theorem discoverPlace_amid (s : GameState) (params : Params) (player : StatBlock) (cast : Cast) :
    discoverPlace (s.amid player cast) params = (discoverPlace s params).amid player cast := by
  simp only [discoverPlace, Effect.amid, GameState.amid]

theorem discoverLore_amid (s : GameState) (params : Params) (player : StatBlock) (cast : Cast) :
    discoverLore (s.amid player cast) params = (discoverLore s params).amid player cast := by
  have location : (s.amid player cast).location = s.location := rfl
  unfold discoverLore
  rw [location]
  simp only [Effect.amid, GameState.amid]

theorem defineEntity_amid (s : GameState) (params : Params) (player : StatBlock) (cast : Cast) :
    defineEntity (s.amid player cast) params = (defineEntity s params).amid player cast := by
  simp only [defineEntity, Effect.amid, GameState.amid]

theorem setClock_amid (s : GameState) (params : Params) (player : StatBlock) (cast : Cast) :
    setClock (s.amid player cast) params = (setClock s params).amid player cast := rfl

theorem addMemory_amid (s : GameState) (params : Params) (player : StatBlock) (cast : Cast) :
    addMemory (s.amid player cast) params = (addMemory s params).amid player cast := by
  have memories : (s.amid player cast).memories = s.memories := rfl
  simp only [addMemory, memories]
  split <;> rfl

namespace Registry

/-- A rule that neither asks for the player's stats or for people nor changes them. -/
def Aside (f : Handler) : Prop := ∀ s params player cast supply,
  (f (s.amid player cast) params).outcome supply =
    ((f s params).outcome supply).map (Except.map (·.amid player cast)) id

theorem certain_aside {f : GameState → Params → Effect}
    (h : ∀ s params player cast, f (s.amid player cast) params = (f s params).amid player cast) :
    Aside (certain f) := by
  intro s params player cast supply
  simp [certain, Play.outcome_pure, h, Except.map]

theorem fallible_aside {f : GameState → Params → Except Fault Effect}
    (h : ∀ s params player cast,
      f (s.amid player cast) params = (f s params).map (·.amid player cast)) :
    Aside (fallible f) := by
  intro s params player cast supply
  simp [fallible, Play.outcome_ofExcept, h]

theorem aside_of_errand {r : CommandRule} (member : r ∈ errands) : Aside r.run := by
  simp only [errands, knowledge, List.cons_append, List.nil_append, List.mem_cons,
    List.not_mem_nil, or_false] at member
  rcases member with rfl | rfl | rfl | rfl | rfl | rfl | rfl | rfl
  · exact certain_aside updateFaction_amid
  · exact certain_aside discoverPlace_amid
  · exact certain_aside discoverLore_amid
  · exact certain_aside defineEntity_amid
  · exact fallible_aside learnSkill_amid
  · exact fallible_aside passTime_amid
  · exact certain_aside setClock_amid
  · exact certain_aside addMemory_amid

/-- A rule that leaves everybody alone leads to a state with the same player and people. -/
theorem Aside.ensures {f : Handler} (h : Aside f) (s : GameState) (params : Params) :
    (f s params).Ensures fun e => e.state.player = s.player ∧ e.state.cast = s.cast := by
  intro supply e rest run
  have same := h s params s.player s.cast supply
  have self : s.amid s.player s.cast = s := rfl
  rw [self, run] at same
  simp only [Prod.map, Except.map, Prod.mk.injEq, Except.ok.injEq] at same
  rw [same.1]
  exact ⟨rfl, rfl⟩

end Registry
end Ascent
