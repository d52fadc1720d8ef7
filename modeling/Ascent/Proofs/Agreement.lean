import Ascent.Proofs.Outcome

/-!
Steps that agree.

Two steps agree up to a relation where both have results, and these are related, or both fail with
the same fault. Steps that use up draws and identifiers agree where, besides, they use up the same
ones from every supply. Agreement goes through sequences of steps part by part.

Main exports: `Agree`, `Agree.bind`, `Play.Agree`, `Play.Agree.bind`.
-/

namespace Ascent

variable {α β γ δ ε : Type}

/-- Both have results, and these are related, or both fail alike. -/
inductive Agree (R : α → β → Prop) : Except ε α → Except ε β → Prop where
  | ok {a : α} {b : β} (related : R a b) : Agree R (.ok a) (.ok b)
  | error (e : ε) : Agree R (.error e) (.error e)

namespace Agree

variable {R : α → β → Prop} {S : γ → δ → Prop} {x : Except ε α} {y : Except ε β}

theorem refl {R : α → α → Prop} (same : ∀ a, R a a) (x : Except ε α) : Agree R x x := by
  cases x with
  | error e => exact .error e
  | ok a => exact .ok (same a)

/-- The second parts have to agree only on results of the first ones that are related. -/
theorem bind {f : α → Except ε γ} {g : β → Except ε δ} (first : Agree R x y)
    (second : ∀ a b, R a b → Agree S (f a) (g b)) : Agree S (x >>= f) (y >>= g) := by
  cases first with
  | ok related => exact second _ _ related
  | error e => exact .error e

theorem mono {R' : α → β → Prop} (h : Agree R x y) (more : ∀ a b, R a b → R' a b) :
    Agree R' x y := by
  cases h with
  | ok related => exact .ok (more _ _ related)
  | error e => exact .error e

/-- The same first part, with whatever result it has. -/
theorem bind_same {x : Except ε α} {f : α → Except ε γ} {g : α → Except ε δ}
    (second : ∀ a, x = .ok a → Agree S (f a) (g a)) : Agree S (x >>= f) (x >>= g) := by
  cases x with
  | error e => exact .error e
  | ok a => exact second a rfl

end Agree

/-- From every supply both steps use up the same, and their results agree. -/
def Play.Agree (R : α → β → Prop) (x : Play α) (y : Play β) : Prop :=
  ∀ supply, Ascent.Agree R (x.outcome supply).1 (y.outcome supply).1 ∧
    (x.outcome supply).2 = (y.outcome supply).2

namespace Play.Agree

variable {R : α → β → Prop} {S : γ → δ → Prop}

theorem pure {a : α} {b : β} (related : R a b) : Agree R (Pure.pure a) (Pure.pure b) :=
  fun _ => ⟨.ok related, rfl⟩

theorem ofExcept {x : Except Fault α} {y : Except Fault β} (h : Ascent.Agree R x y) :
    Agree R (Play.ofExcept x) (Play.ofExcept y) :=
  fun _ => ⟨h, rfl⟩

theorem refl {R : α → α → Prop} (same : ∀ a, R a a) (x : Play α) : Agree R x x :=
  fun _ => ⟨.refl same _, rfl⟩

theorem bind {x : Play α} {y : Play β} {f : α → Play γ} {g : β → Play δ} (first : Agree R x y)
    (second : ∀ a b, R a b → Agree S (f a) (g b)) : Agree S (x >>= f) (y >>= g) := by
  intro supply
  obtain ⟨results, rests⟩ := first supply
  rw [outcome_bind, outcome_bind]
  rcases hx : x.outcome supply with ⟨a, rest⟩
  rcases hy : y.outcome supply with ⟨b, rest'⟩
  simp only [hx, hy] at results rests
  subst rests
  cases results with
  | ok related => exact second _ _ related rest
  | error e => exact ⟨.error e, rfl⟩

theorem mono {R' : α → β → Prop} {x : Play α} {y : Play β} (h : Agree R x y)
    (more : ∀ a b, R a b → R' a b) : Agree R' x y :=
  fun supply => ⟨(h supply).1.mono more, (h supply).2⟩

/-- The same first part, with whatever result it has. -/
theorem bind_same {x : Play α} {f : α → Play γ} {g : α → Play δ}
    (second : ∀ a, Agree S (f a) (g a)) : Agree S (x >>= f) (x >>= g) :=
  bind (R := (· = ·)) (refl (fun _ => rfl) x) fun a _ same => same ▸ second a

end Play.Agree
end Ascent
