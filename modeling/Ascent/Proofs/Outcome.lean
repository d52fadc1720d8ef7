import Ascent.Command.Registry

/-!
What is known of a step that has a result.

A step of several parts has a result only where each part has one, so a result is taken apart one
part at a time. `Play.Ensures` says of a step that may use up draws and identifiers what holds of
its result whatever these are.

Main exports: `exists_of_bind_eq_ok`, `exists_of_map_eq_ok`, `Attributes.ofFnM_eq_ok`,
`Play.Ensures`.
-/

namespace Ascent

/-- A step of two parts that has a result: each part has one. -/
theorem exists_of_bind_eq_ok {ε α β : Type} {x : Except ε α} {f : α → Except ε β} {b : β}
    (h : (x >>= f) = .ok b) : ∃ a, x = .ok a ∧ f a = .ok b := by
  cases x with
  | error e => simp [bind, Except.bind] at h
  | ok a => exact ⟨a, rfl, h⟩

/-- A result that is made of another one. -/
theorem exists_of_map_eq_ok {ε α β : Type} {x : Except ε α} {f : α → β} {b : β}
    (h : x.map f = .ok b) : ∃ a, x = .ok a ∧ f a = b := by
  cases x with
  | error e => cases h
  | ok a => exact ⟨a, rfl, Except.ok.inj h⟩

theorem eq_ok_of_toOption {ε α : Type} {x : Except ε α} {a : α} (h : x.toOption = some a) :
    x = .ok a := by
  cases x with
  | error e => cases h
  | ok b => exact congrArg Except.ok (Option.some.inj h)

/-- A rule that gives every attribute a value is a rule that fails for none. -/
theorem Attributes.ofFnM_eq_ok {α : Type} {f : Attribute → Except Fault α} {vs : Attributes α} :
    Attributes.ofFnM f = .ok vs ↔ ∀ a, f a = .ok (vs.get a) := by
  constructor
  · intro h
    obtain ⟨v₁, h₁, h⟩ := exists_of_bind_eq_ok h
    obtain ⟨v₂, h₂, h⟩ := exists_of_bind_eq_ok h
    obtain ⟨v₃, h₃, h⟩ := exists_of_bind_eq_ok h
    obtain ⟨v₄, h₄, h⟩ := exists_of_bind_eq_ok h
    obtain ⟨v₅, h₅, h⟩ := exists_of_bind_eq_ok h
    obtain ⟨v₆, h₆, h⟩ := exists_of_bind_eq_ok h
    cases h
    intro a
    cases a <;> assumption
  · intro h
    simp only [ofFnM, h, bind, Except.bind, get]
    rfl

namespace Play

variable {α β : Type}

/-- Whatever draws and identifiers there are, a result of the step satisfies `P`. -/
def Ensures (x : Play α) (P : α → Prop) : Prop :=
  ∀ supply a rest, x.outcome supply = (.ok a, rest) → P a

theorem outcome_pure (a : α) (supply : Supply) :
    (pure a : Play α).outcome supply = (.ok a, supply) := rfl

theorem outcome_bind (x : Play α) (f : α → Play β) (supply : Supply) :
    (x >>= f).outcome supply =
      match x.outcome supply with
      | (.ok a, rest) => (f a).outcome rest
      | (.error e, rest) => (.error e, rest) := by
  simp only [outcome, ExceptT.run_bind, StateT.run_bind]
  rcases h : StateT.run (ExceptT.run x) supply with ⟨_ | _, _⟩ <;> rfl

theorem outcome_ofExcept (x : Except Fault α) (supply : Supply) :
    (ofExcept x).outcome supply = (x, supply) := rfl

namespace Ensures

variable {P : α → Prop} {Q : β → Prop}

theorem pure {a : α} (h : P a) : Ensures (Pure.pure a) P := by
  intro supply b rest run
  simp only [outcome_pure, Prod.mk.injEq, Except.ok.injEq] at run
  exact run.1 ▸ h

/-- What the first part ensures may be used of the second. -/
theorem bind {x : Play α} {f : α → Play β} (hx : Ensures x P) (hf : ∀ a, P a → Ensures (f a) Q) :
    Ensures (x >>= f) Q := by
  intro supply b rest run
  rw [outcome_bind] at run
  rcases hrun : x.outcome supply with ⟨_ | a, middle⟩
  · simp [hrun] at run
  · rw [hrun] at run
    exact hf a (hx supply a middle hrun) middle b rest run

theorem ofExcept {x : Except Fault α} (h : ∀ a, x = .ok a → P a) : Ensures (Play.ofExcept x) P := by
  intro supply a rest run
  simp only [outcome_ofExcept, Prod.mk.injEq] at run
  exact h a run.1

theorem mono {P' : α → Prop} {x : Play α} (h : Ensures x P) (hP : ∀ a, P a → P' a) :
    Ensures x P' :=
  fun supply a rest run => hP a (h supply a rest run)

theorem and {P' : α → Prop} {x : Play α} (h : Ensures x P) (k : Ensures x P') :
    Ensures x fun a => P a ∧ P' a :=
  fun supply a rest run => ⟨h supply a rest run, k supply a rest run⟩

/-- Nothing need be known of a first part on which the second does not rely. -/
theorem of_bind {x : Play α} {f : α → Play β} (hf : ∀ a, Ensures (f a) Q) : Ensures (x >>= f) Q :=
  bind (P := fun _ => True) (fun _ _ _ _ => trivial) fun a _ => hf a

end Ensures
end Play
end Ascent
