import Ascent.Proofs.Outcome
import Ascent.Turn
import Mathlib.Algebra.Ring.Int.Defs

/-!
Responses that are taken up as a whole.

A response should be taken up with all that its commands lead to and with the end of the turn, or
not at all. But what the commands lead to is stored before the turn ends, and the end of a turn may
fail: a requirement of experience beyond the binary64 numbers is enough. So a response is taken up
as a whole just where the turn ends without a fault or the commands change nothing.

Main exports: `Game.told`, `Game.TakesUp`, `respond_of_endTurn_ok`, `respond_of_endTurn_error`,
`takesUp_iff`.
-/

namespace Ascent
namespace Game

/-- What the commands of a response lead to before the turn ends. -/
def told (registry : Registry) (game : Game) (raw : String) : Dispatched :=
  dispatchAll registry game.state game.supply ((Response.read raw).tags.map Tag.toCommand)

/-- The game with what the commands of a response lead to. -/
def hear (registry : Registry) (game : Game) (raw : String) : Game :=
  { game.publish (game.told registry raw).updates with
    state := (game.told registry raw).state
    supply := (game.told registry raw).supply }

/-- A response is taken up as a whole: it has a result, and the state is the one that the commands
and the end of the turn lead to, or it has none, and the state is the one before. -/
def TakesUp (registry : Registry) (game : Game) (raw : String) : Prop :=
  (∃ result messages, (game.respond registry raw true).1 = .ok result ∧
    (game.told registry raw).state.endTurn =
      .ok ((game.respond registry raw true).2.state, messages) ∧
    result.messages = (game.told registry raw).messages ++ messages) ∨
  (∃ fault, (game.respond registry raw true).1 = .error fault) ∧
    (game.respond registry raw true).2.state = game.state

variable {registry : Registry} {game : Game} {raw : String}

/-- The answer to a response is that of the end of the turn, with what the commands told. -/
theorem respond_eq : ∃ account : List String → TurnResult,
    game.respond registry raw true = ((game.hear registry raw).endTurn.1.map account,
      (game.hear registry raw).endTurn.2) ∧
    ∀ messages, (account messages).messages = (game.told registry raw).messages ++ messages := by
  refine ⟨fun messages => {
    narration := (Response.read raw).narration
    elsewhere := (Response.read raw).elsewhere
    commands := (Response.read raw).tags.map Tag.toCommand
    ignored := (game.told registry raw).ignored
    updates := (game.told registry raw).updates
    messages := (game.told registry raw).messages ++ messages }, ?_, fun _ => rfl⟩
  change (Except.map _ (Except.map _ (game.hear registry raw).endTurn.1), _) = _
  cases (game.hear registry raw).endTurn.1 <;> rfl

theorem respond_of_endTurn_ok {t : GameState} {messages : List String}
    (ends : (game.told registry raw).state.endTurn = .ok (t, messages)) :
    ∃ result, game.respond registry raw true =
        (.ok result, { game.hear registry raw with state := t }) ∧
      result.messages = (game.told registry raw).messages ++ messages := by
  obtain ⟨account, answer, told⟩ := @respond_eq registry game raw
  have ended : (game.hear registry raw).endTurn =
      (.ok messages, { game.hear registry raw with state := t }) := by
    unfold endTurn hear
    dsimp only
    rw [ends]
  rw [ended] at answer
  exact ⟨account messages, answer, told messages⟩

/-- A fault at the end of a turn leaves the game as the commands of the response left it. -/
theorem respond_of_endTurn_error {fault : Fault}
    (ends : (game.told registry raw).state.endTurn = .error fault) :
    game.respond registry raw true = (.error fault, game.hear registry raw) := by
  obtain ⟨account, answer, _⟩ := @respond_eq registry game raw
  have ended : (game.hear registry raw).endTurn = (.error fault, game.hear registry raw) := by
    unfold endTurn hear
    dsimp only
    rw [ends]
  rw [ended] at answer
  exact answer

/-- A response is taken up as a whole just where a fault at the end of the turn finds the state as
it was before the response. -/
theorem takesUp_iff : game.TakesUp registry raw ↔
    ∀ fault, (game.told registry raw).state.endTurn = .error fault →
      (game.told registry raw).state = game.state := by
  constructor
  · intro whole fault failed
    have answer := respond_of_endTurn_error failed
    rcases whole with ⟨result, _, ok, _⟩ | ⟨_, same⟩
    · rw [answer] at ok
      cases ok
    · rw [answer] at same
      exact same
  · intro unharmed
    cases ends : (game.told registry raw).state.endTurn with
    | ok ended =>
        obtain ⟨result, answer, messages⟩ := respond_of_endTurn_ok ends
        refine .inl ⟨result, ended.2, ?_, ?_, messages⟩
        · rw [answer]
        · rw [ends, answer]
    | error fault =>
        have answer := respond_of_endTurn_error ends
        refine .inr ⟨⟨fault, ?_⟩, ?_⟩
        · rw [answer]
        · rw [answer]
          exact unharmed fault ends

/-- A memory is kept although the turn does not end: somebody's requirement of experience is beyond
the binary64 numbers. -/
theorem not_takesUp_beyond_numbers :
    let mo : Person := {
      id := "id-1", name := "Mo", aptitude := some "ordinary"
      stats := some {
        tier := "Qi Refining Layer 1", current := ⟨100, 50, 10, 5, 10, 10 ^ 309⟩ } }
    let game : Game := { state := { cast := { encountered := [mo] } } }
    ¬ game.TakesUp .standard "[MEMORY_ADD: content=x]" := by
  intro mo game whole
  have heard : (game.told .standard "[MEMORY_ADD: content=x]").state =
      { game.state with memories := ["x"] } := by decide +kernel
  have failed : ({ game.state with memories := ["x"] } : GameState).endTurn.toOption = none := by
    decide +kernel
  cases ends : (game.told .standard "[MEMORY_ADD: content=x]").state.endTurn with
  | ok ended =>
      rw [heard] at ends
      rw [ends] at failed
      cases failed
  | error fault =>
      have answer := respond_of_endTurn_error ends
      rcases whole with ⟨result, _, ok, _⟩ | ⟨_, same⟩
      · rw [answer] at ok
        cases ok
      · rw [answer] at same
        have kept : (game.told .standard "[MEMORY_ADD: content=x]").state = game.state := same
        rw [heard] at kept
        exact absurd (congrArg GameState.memories kept) (by decide)

end Game
end Ascent
