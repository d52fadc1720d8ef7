import Ascent.Proofs.Agreement
import Ascent.Proofs.Lasting

/-!
Stats beside their twin, in which some lasting bonuses have become binary64 numbers.

A lasting bonus is counted as an integer in play and read back as the number nearest to it. Whatever
is derived is derived from these numbers, so twins stay twins through every change that leaves the
bonuses alone. A lasting change adds to a bonus, to an integer exactly and to a number with
rounding; up to `2 ^ 53` both come to the same.

Main exports: `StatBlock.Twin`, `StatBlock.Twin.refresh`, `checkLevel_twin`,
`resolveBreakthrough_twin`, `changeStat_twin`.
-/

namespace Ascent

open Double

/-- A lasting bonus and what stands for it beside it: itself or the number that it is. -/
structure Bonus.Twin (b c : String × Bonus) : Prop where
  key : c.1 = b.1
  value : c.2 = b.2 ∨ c.2 = b.2.reloaded
  finite : ∀ n, b.2 = .whole n → (ofInt n).isFinite

/-- The same stats but for bonuses that are twins. -/
def StatBlock.Twin (s t : StatBlock) : Prop :=
  ∃ bonuses, t = { s with permanentBonuses := bonuses } ∧
    List.Forall₂ Bonus.Twin s.permanentBonuses bonuses

/-! ### Derived attributes -/

theorem addBonus_twin {b c : String × Bonus} (h : Bonus.Twin b c) (values : Attributes Double) :
    StatBlock.addBonus values c.1 c.2 = StatBlock.addBonus values b.1 b.2 := by
  rw [h.key]
  rcases h.value with same | number
  · rw [same]
  · rw [number]
    cases known : b.2 with
    | real x => rfl
    | whole n =>
        have exact : Double.ofInt? n = .ok (Double.ofInt n) := if_pos (h.finite n known)
        unfold StatBlock.addBonus
        split
        · rfl
        · simp only [Bonus.reloaded, Bonus.number, exact]
          rfl

theorem addBonuses_twin {bonuses others : Pairs Bonus}
    (h : List.Forall₂ Bonus.Twin bonuses others) (start : Attributes Double) :
    others.foldlM (fun values (key, bonus) => StatBlock.addBonus values key bonus) start =
      bonuses.foldlM (fun values (key, bonus) => StatBlock.addBonus values key bonus) start := by
  induction h generalizing start with
  | nil => rfl
  | cons first _ ih =>
      rw [List.foldlM_cons, List.foldlM_cons]
      dsimp only
      rw [addBonus_twin first]
      exact congrArg _ (funext fun next => ih next)

namespace StatBlock.Twin

variable {s t : StatBlock} {settings : Settings} {items : List Item}

/-- Twins have the same attributes. -/
theorem measure (h : s.Twin t) (items : List Item) : t.measure items = s.measure items := by
  obtain ⟨bonuses, rfl, same⟩ := h
  simp only [StatBlock.measure, StatBlock.derive, addBonuses_twin same]

theorem refresh (h : s.Twin t) (items : List Item) :
    Agree StatBlock.Twin (s.refresh items) (t.refresh items) := by
  rw [refresh_eq_map, refresh_eq_map, h.measure items]
  obtain ⟨bonuses, rfl, same⟩ := h
  cases s.measure items with
  | error e => exact .error e
  | ok current => exact .ok ⟨bonuses, rfl, same⟩

theorem refill (h : s.Twin t) : s.refill.Twin t.refill := by
  obtain ⟨bonuses, rfl, same⟩ := h
  exact ⟨bonuses, rfl, same⟩

theorem retier (h : s.Twin t) (label : String) (settings : Settings) (items : List Item) :
    Agree StatBlock.Twin (s.retier label settings items) (t.retier label settings items) := by
  obtain ⟨bonuses, rfl, same⟩ := h
  refine .bind_same fun base _ => ?_
  have moved : StatBlock.Twin { s with base := base, tier := label }
      { s with base := base, tier := label, permanentBonuses := bonuses } := ⟨bonuses, rfl, same⟩
  exact moved.refresh items

theorem rebase (h : s.Twin t) (label : String) (settings : Settings) (items : List Item) :
    Agree StatBlock.Twin (s.rebase label settings items) (t.rebase label settings items) :=
  .bind (h.retier label settings items) fun _ _ moved => .ok moved.refill

theorem legalize (h : s.Twin t) (settings : Settings) :
    (s.legalize settings).Twin (t.legalize settings) := by
  obtain ⟨bonuses, rfl, same⟩ := h
  exact ⟨bonuses, rfl, same⟩

theorem afterFight (h : s.Twin t) (r : CombatResult) : (s.afterFight r).Twin (t.afterFight r) := by
  obtain ⟨bonuses, rfl, same⟩ := h
  exact ⟨bonuses, rfl, same⟩

end StatBlock.Twin

/-! ### Climbing and breaking through -/

/-- The same climb but for stats that are twins. -/
def Climb.Twin (c d : Climb) : Prop := ∃ stats, d = { c with stats := stats } ∧ c.stats.Twin stats

section

variable {s t : StatBlock} {settings : Settings} {items : List Item}

theorem climbMinors_twin {steps : Nat} {rung : Rung} {c d : Climb} (h : c.Twin d) :
    Agree Climb.Twin (climbMinors settings (.ofFormula settings items) steps rung c)
      (climbMinors settings (.ofFormula settings items) steps rung d) := by
  induction steps generalizing rung c d with
  | zero => exact .ok h
  | succ steps ih =>
      obtain ⟨_, rfl, bonuses, rfl, same⟩ := h
      unfold climbMinors
      dsimp only
      split
      · exact .ok ⟨_, rfl, bonuses, rfl, same⟩
      · split
        · exact .ok ⟨_, rfl, bonuses, rfl, same⟩
        · have spent : StatBlock.Twin
              { c.stats with
                experience := c.stats.experience - c.stats.current.experienceToNext }
              { c.stats with
                experience := c.stats.experience - c.stats.current.experienceToNext
                permanentBonuses := bonuses } := ⟨bonuses, rfl, same⟩
          refine .bind (spent.rebase _ settings items) fun moved moved' twin => ?_
          exact ih ⟨moved', rfl, twin⟩

theorem StatBlock.Twin.phase (h : s.Twin t) : t.phase = s.phase := by
  obtain ⟨_, rfl, _⟩ := h
  rfl

theorem checkLevel_twin (h : s.Twin t) :
    Agree Climb.Twin (checkLevel s settings (.ofFormula settings items))
      (checkLevel t settings (.ofFormula settings items)) := by
  have phase := h.phase
  obtain ⟨bonuses, rfl, same⟩ := h
  unfold checkLevel
  rw [phase]
  dsimp only
  split
  · exact .ok ⟨_, rfl, bonuses, rfl, same⟩
  · exact climbMinors_twin ⟨_, rfl, bonuses, rfl, same⟩

theorem beginBreakthrough_twin (h : s.Twin t) :
    (beginBreakthrough s).Twin (beginBreakthrough t) := by
  have phase := h.phase
  obtain ⟨bonuses, rfl, same⟩ := h
  unfold beginBreakthrough
  rw [phase]
  split
  · exact ⟨_, rfl, bonuses, rfl, same⟩
  · exact ⟨_, rfl, bonuses, rfl, same⟩

theorem demote_twin (h : s.Twin t) :
    Agree Climb.Twin (demote s settings items) (demote t settings items) := by
  obtain ⟨bonuses, rfl, same⟩ := h
  have cleared : StatBlock.Twin
      { s with inTribulation := false, atPeak := false, experience := 0 }
      { s with
        inTribulation := false, atPeak := false, experience := 0, permanentBonuses := bonuses } :=
    ⟨bonuses, rfl, same⟩
  refine .bind (cleared.retier _ settings items) fun fallen fallen' twin => ?_
  obtain ⟨others, rfl, same⟩ := twin
  have hurt : StatBlock.Twin { fallen with vitality := max 1 (fallen.vitality / 2) }
      { fallen with vitality := max 1 (fallen.vitality / 2), permanentBonuses := others } :=
    ⟨others, rfl, same⟩
  exact .bind (hurt.refresh items) fun _ _ twin => .ok ⟨_, rfl, twin⟩

theorem resolveBreakthrough_twin {success : Bool} (h : s.Twin t) :
    Agree Climb.Twin (resolveBreakthrough s success settings items (.ofFormula settings items))
      (resolveBreakthrough t success settings items (.ofFormula settings items)) := by
  have phase := h.phase
  have fall : Agree Climb.Twin (demote s settings items) (demote t settings items) := demote_twin h
  obtain ⟨bonuses, rfl, same⟩ := h
  unfold resolveBreakthrough
  rw [phase]
  dsimp only
  split
  · exact .ok ⟨_, rfl, bonuses, rfl, same⟩
  · split
    · split
      · exact .ok ⟨_, rfl, bonuses, rfl, same⟩
      · have cleared : StatBlock.Twin
            { s with inTribulation := false, atPeak := false, experience := 0 }
            { s with
              inTribulation := false, atPeak := false, experience := 0
              permanentBonuses := bonuses } := ⟨bonuses, rfl, same⟩
        exact .bind (cleared.rebase _ settings items) fun _ _ twin => .ok ⟨_, rfl, twin⟩
    · exact fall

end

/-! ### Lasting changes -/

section

variable {bonuses others : Pairs Bonus}

/-- Under a name twins have bonuses that are twins, or none. -/
theorem get?_twin (h : List.Forall₂ Bonus.Twin bonuses others) (key : String) :
    bonuses.get? key = none ∧ others.get? key = none ∨
      ∃ b c, bonuses.get? key = some b ∧ others.get? key = some c ∧
        Bonus.Twin (key, b) (key, c) := by
  induction h with
  | nil => exact .inl ⟨rfl, rfl⟩
  | @cons b c _ _ first _ ih =>
      simp only [Pairs.get?, first.key]
      by_cases here : b.1 = key
      · rw [if_pos here, if_pos here]
        exact .inr ⟨b.2, c.2, rfl, rfl, ⟨rfl, first.value, first.finite⟩⟩
      · rw [if_neg here, if_neg here]
        exact ih

theorem put_twin {key : String} {b c : Bonus} (h : List.Forall₂ Bonus.Twin bonuses others)
    (twin : Bonus.Twin (key, b) (key, c)) :
    List.Forall₂ Bonus.Twin (bonuses.put key b) (others.put key c) := by
  induction h with
  | nil => exact .cons twin .nil
  | @cons x y _ _ first rest ih =>
      simp only [Pairs.put, first.key]
      by_cases here : x.1 = key
      · rw [if_pos here, if_pos here]
        exact .cons ⟨rfl, twin.value, twin.finite⟩ rest
      · rw [if_neg here, if_neg here]
        exact .cons ⟨rfl, first.value, first.finite⟩ ih

end

/-- The same change but for stats that are twins. -/
structure StatChange.Twin (c d : StatChange) : Prop where
  stats : c.stats.Twin d.stats
  messages : d.messages = c.messages

/-- A bonus to which the number that it is adds up alike: not an integer beyond `2 ^ 53`. -/
def Bonus.Exact : Bonus → Prop
  | .whole n => n.natAbs ≤ 2 ^ 53
  | .real _ => True

instance : DecidablePred Bonus.Exact
  | .whole n => inferInstanceAs (Decidable (n.natAbs ≤ 2 ^ 53))
  | .real _ => isTrue trivial

/-- Stats of which a lasting change is reckoned exactly: attributes are binary64 numbers, and no
bonus is too large. -/
structure StatBlock.Exact (s : StatBlock) : Prop where
  base : ∀ a, Whole (s.base.get a)
  current : ∀ a, Whole (s.current.get a)
  bonuses : ∀ b ∈ s.permanentBonuses, b.2.Exact

section

variable {s t : StatBlock} {settings : Settings} {items : List Item}

theorem whole_boundPermanent (exact : s.Exact) (a : Attribute) {delta : Int} (whole : Whole delta) :
    Whole (boundPermanent s a delta) :=
  whole_max (whole_neg (exact.current a)) (whole_min (whole_max (whole_max (exact.current a)
    (exact.base a)) (whole_of_small (by decide))) whole)

/-- An integer within `2 ^ 53` and the number that it is take up an addition alike. -/
theorem add_twin {key : String} {b c : Bonus} {k : Int} (twin : Bonus.Twin (key, b) (key, c))
    (exact : b.Exact) (whole : Whole k) :
    Agree (fun b c => Bonus.Twin (key, b) (key, c)) (b.add k) (c.add k) := by
  cases b with
  | real x =>
      have same : c = .real x := twin.value.elim id id
      rw [same]
      exact .bind_same fun y _ => .ok ⟨rfl, .inl rfl, fun n real => by cases real⟩
  | whole n =>
      have bound : n.natAbs ≤ 2 ^ 53 := exact
      have finite : ∀ m, Bonus.whole (n + k) = .whole m → (ofInt m).isFinite := by
        intro m sum
        rw [← Bonus.whole.inj sum]
        exact isFinite_ofInt_add bound whole
      rcases twin.value with same | number
      · obtain rfl : c = .whole n := same
        exact .ok ⟨rfl, .inl rfl, finite⟩
      · obtain rfl : c = .real (ofInt n) := number
        have known : ofInt? k = .ok (ofInt k) := if_pos (isFinite_of_whole whole)
        have sum := ofInt_add_ofInt (whole_of_small bound) whole
        have added : (Bonus.real (ofInt n)).add k = .ok (.real (ofInt (n + k))) := by
          rw [← sum, Bonus.add, known]
          rfl
        rw [added]
        exact .ok ⟨rfl, .inr rfl, finite⟩

theorem addPermanent_twin {a : Attribute} {delta : Int} (h : s.Twin t) (exact : s.Exact)
    (whole : Whole delta) :
    Agree StatChange.Twin (addPermanent s a delta items) (addPermanent t a delta items) := by
  have bounded := whole_boundPermanent exact a whole
  obtain ⟨others, rfl, same⟩ := h
  have added : Agree (fun b c => Bonus.Twin (a.key, b) (a.key, c))
      (((s.permanentBonuses.get? a.key).getD (.whole 0)).add (boundPermanent s a delta))
      (((others.get? a.key).getD (.whole 0)).add (boundPermanent s a delta)) := by
    rcases get?_twin same a.key with ⟨none, none'⟩ | ⟨b, c, there, there', twin⟩
    · rw [none, none']
      refine add_twin ⟨rfl, .inl rfl, ?_⟩ (by decide) bounded
      intro n zero
      rw [← (Bonus.whole.inj zero : 0 = n)]
      rfl
    · rw [there, there']
      exact add_twin twin (exact.bonuses _ (Pairs.mem_of_get? there)) bounded
  refine .bind added fun b c twin => ?_
  have put : StatBlock.Twin { s with permanentBonuses := s.permanentBonuses.put a.key b }
      { s with permanentBonuses := others.put a.key c } := ⟨_, rfl, put_twin same twin⟩
  exact .bind (put.refresh items) fun _ _ twin => .ok ⟨twin, rfl⟩

theorem StatBlock.Twin.reference (h : s.Twin t) (key : StatKey) :
    t.reference key = s.reference key := by
  obtain ⟨_, rfl, _⟩ := h
  cases key <;> rfl

theorem applyChange_twin {key : StatKey} {op : StatOperation} {delta : Int} (h : s.Twin t)
    (exact : s.Exact) (whole : Whole delta) :
    Agree StatChange.Twin (applyChange s key op delta settings items)
      (applyChange t key op delta settings items) := by
  have lasting (a : Attribute) : Agree StatChange.Twin (addPermanent s a delta items)
      (addPermanent t a delta items) := addPermanent_twin h exact whole
  obtain ⟨others, rfl, same⟩ := h
  unfold applyChange
  split
  · exact lasting .maxVitality
  · exact .ok ⟨⟨others, rfl, same⟩, rfl⟩
  · exact lasting .maxResource
  · exact .ok ⟨⟨others, rfl, same⟩, rfl⟩
  · exact .ok ⟨⟨others, rfl, same⟩, rfl⟩
  · dsimp only
    split
    · have gained : StatBlock.Twin { s with experience := max 0 (s.experience + delta) }
          { s with
            experience := max 0 (s.experience + delta), permanentBonuses := others } :=
        ⟨others, rfl, same⟩
      refine .bind (checkLevel_twin gained) fun c d twin => ?_
      obtain ⟨stats, rfl, twin⟩ := twin
      exact .ok ⟨twin, rfl⟩
    · exact .ok ⟨⟨others, rfl, same⟩, rfl⟩
  · exact .ok ⟨⟨others, rfl, same⟩, rfl⟩
  · exact .ok ⟨⟨others, rfl, same⟩, rfl⟩
  · exact lasting .offense
  · exact lasting .defense
  · exact lasting .speed

theorem resolveAmount_twin (h : s.Twin t) (key : StatKey) (amount level : Option String) :
    resolveAmount t key amount level = resolveAmount s key amount level := by
  simp only [resolveAmount, amountOfText?, h.reference key]

theorem changeStat_twin {name operation : String} {amount level : Option String} (h : s.Twin t)
    (exact : s.Exact) :
    Agree StatChange.Twin (changeStat s name operation settings amount level items)
      (changeStat t name operation settings amount level items) := by
  unfold changeStat
  dsimp only
  split
  · next key op _ _ =>
      rw [resolveAmount_twin h]
      refine .bind_same fun found _ => ?_
      cases found with
      | none => exact .ok ⟨h, rfl⟩
      | some x =>
          refine .bind_same fun size rounded => applyChange_twin h exact ?_
          have whole := whole_of_roundEven rounded
          split
          · exact whole_neg whole
          · exact whole
  · exact .ok ⟨h, rfl⟩

end
end Ascent
