import Ascent.Cultivation
import Ascent.Proofs.Outcome
import Ascent.StatChange

/-!
What a climb, a breakthrough and a change of a stat can come to.

Each of these steps branches on stats, settings and what is asked for. Here every branch is listed
once, with the conditions under which it is taken and what it leads to, so that a proof about such a
step goes through the branches and not through the program.

Main exports: `scaleTo_eq_ok`, `Climb.Rises`, `climbMinors_rises`, `checkLevel_eq_ok`,
`Climb.Resolves`, `resolveBreakthrough_resolves`, `StatBlock.Changes`, `applyChange_changes`,
`changeStat_eq_ok`.
-/

namespace Ascent

section

variable {settings : Settings} {rebase : Rebase} {items : List Item}

/-! ### Moving in proportion -/

/-- Stats that are moved in proportion get new attributes and full pools; besides, only the tier
changes. -/
theorem scaleTo_eq_ok {s t : StatBlock} {label : String}
    (h : s.scaleTo label settings = .ok t) :
    ∃ all : Attributes Int, t = { s with
      base := all, current := all, tier := label
      vitality := all.maxVitality, resource := all.maxResource } := by
  obtain ⟨_, _, h⟩ := exists_of_bind_eq_ok h
  obtain ⟨_, _, h⟩ := exists_of_bind_eq_ok h
  obtain ⟨_, _, h⟩ := exists_of_bind_eq_ok h
  obtain ⟨_, _, h⟩ := exists_of_bind_eq_ok h
  obtain ⟨_, _, h⟩ := exists_of_bind_eq_ok h
  obtain ⟨_, _, h⟩ := exists_of_bind_eq_ok h
  exact ⟨_, (Except.ok.inj h).symm⟩

/-! ### Climbing -/

/-- What a climb with one more step to go comes to: it stops before the next requirement, ends at
the peak, or goes on from the next rung. -/
inductive Climb.Rises (settings : Settings) (rebase : Rebase) (steps : Nat) (rung : Rung)
    (c : Climb) : Climb → Prop
  | short (less : c.stats.experience < c.stats.current.experienceToNext) :
      Rises settings rebase steps rung c c
  | peak (covered : c.stats.current.experienceToNext ≤ c.stats.experience)
      (last : rung.isLastMinor = true) :
      Rises settings rebase steps rung c { c with
        stats := { c.stats with
          atPeak := true, experience := c.stats.current.experienceToNext }
        reachedPeak := true
        messages := c.messages ++
          [s!"Reached the peak of {c.stats.tier}. A breakthrough is required to advance."] }
  | next {moved : StatBlock} {result : Climb}
      (covered : c.stats.current.experienceToNext ≤ c.stats.experience)
      (notLast : rung.isLastMinor = false)
      (rebased : rebase { c.stats with
          experience := c.stats.experience - c.stats.current.experienceToNext }
        (settings.label rung.major (rung.minor + 1)) = .ok moved)
      (later : climbMinors settings rebase steps
        (settings.resolve (settings.label rung.major (rung.minor + 1)))
        { c with
          stats := moved
          levelsGained := c.levelsGained + 1
          messages := c.messages ++
            [s!"Advanced to {settings.label rung.major (rung.minor + 1)}!"] } = .ok result) :
      Rises settings rebase steps rung c result

theorem climbMinors_rises {steps : Nat} {rung : Rung} {c result : Climb}
    (h : climbMinors settings rebase (steps + 1) rung c = .ok result) :
    c.Rises settings rebase steps rung result := by
  unfold climbMinors at h
  dsimp only at h
  split at h
  · next less => exact Except.ok.inj h ▸ .short less
  · next covered =>
      split at h
      · next last => exact Except.ok.inj h ▸ .peak (Int.not_lt.mp covered) last
      · next notLast =>
          obtain ⟨moved, rebased, later⟩ := exists_of_bind_eq_ok h
          exact .next (Int.not_lt.mp covered) (Bool.eq_false_iff.mpr notLast) rebased later

/-- Mortals and those at a peak keep their experience within the requirement, the others climb. -/
theorem checkLevel_eq_ok {s : StatBlock} {result : Climb}
    (h : checkLevel s settings rebase = .ok result) :
    result = { stats := { s with
      experience := min (max 0 s.experience) s.current.experienceToNext } } ∨
    s.phase = .normal ∧ settings.isMortal s.tier = false ∧
      climbMinors settings rebase
        ((settings.resolve s.tier).minorCount - (settings.resolve s.tier).minor)
        (settings.resolve s.tier) { stats := s } = .ok result := by
  unfold checkLevel at h
  split at h
  · exact .inl (Except.ok.inj h).symm
  · next climbs =>
      simp only [ne_eq, not_or, Decidable.not_not, Bool.not_eq_true] at climbs
      exact .inr ⟨climbs.1, climbs.2, h⟩

/-! ### Breaking through -/

/-- What the end of a breakthrough comes to: nothing on the way up, and at a peak the same peak
again, the next major tier, or a fall. -/
inductive Climb.Resolves (settings : Settings) (items : List Item) (rebase : Rebase)
    (s : StatBlock) : Bool → Climb → Prop
  | rest {success : Bool} (normal : s.phase = .normal) :
      Resolves settings items rebase s success { stats := s }
  | top {result : Climb} (peak : s.phase ≠ .normal)
      (highest : (settings.resolve s.tier).isTopMajor = true)
      (stats : result.stats = { s with
        inTribulation := false, atPeak := true, experience := s.current.experienceToNext }) :
      Resolves settings items rebase s true result
  | ascent {result : Climb} (peak : s.phase ≠ .normal)
      (notHighest : (settings.resolve s.tier).isTopMajor = false)
      (rebased : rebase { s with inTribulation := false, atPeak := false, experience := 0 }
        (settings.label ((settings.resolve s.tier).major + 1) 0) = .ok result.stats) :
      Resolves settings items rebase s true result
  | fall {result : Climb} (peak : s.phase ≠ .normal) (fell : demote s settings items = .ok result) :
      Resolves settings items rebase s false result

theorem resolveBreakthrough_resolves {s : StatBlock} {success : Bool} {result : Climb}
    (h : resolveBreakthrough s success settings items rebase = .ok result) :
    result.Resolves settings items rebase s success := by
  unfold resolveBreakthrough at h
  dsimp only at h
  split at h
  · next normal => exact Except.ok.inj h ▸ .rest normal
  · next peak =>
      cases success with
      | false => exact .fall peak h
      | true =>
          rw [if_pos rfl] at h
          split at h
          · next highest => exact .top peak highest (by rw [← Except.ok.inj h])
          · next notHighest =>
              obtain ⟨risen, rebased, h⟩ := exists_of_bind_eq_ok h
              rw [← Except.ok.inj h]
              exact .ascent peak (Bool.eq_false_iff.mpr notHighest) rebased

/-! ### Changes of a stat -/

/-- What a change of a stat by an amount comes to: a lasting change of the stat's attribute, a pool
or money moved, experience with or without a climb, or nothing. -/
inductive StatBlock.Changes (s : StatBlock) (delta : Int) (settings : Settings)
    (items : List Item) : StatKey → StatOperation → StatChange → Prop
  | lasting {key : StatKey} {op : StatOperation} {a : Attribute} {change : StatChange}
      (meant : key.attribute? = some a) (added : addPermanent s a delta items = .ok change) :
      Changes s delta settings items key op change
  | vitality {op : StatOperation} :
      Changes s delta settings items .vitality op
        { stats := { s with vitality := movePool s.vitality s.current.maxVitality delta }
          applied := true }
  | resource {op : StatOperation} :
      Changes s delta settings items .resource op
        { stats := { s with resource := movePool s.resource s.current.maxResource delta }
          applied := true }
  | currency {op : StatOperation} :
      Changes s delta settings items .currency op
        { stats := { s with currency := max 0 (min maxCurrency (s.currency + delta)) }
          applied := true }
  | gained {op : StatOperation} :
      Changes s delta settings items .experience op
        { stats := { s with experience := max 0 (s.experience + delta) }, applied := true }
  | climbed {climb : Climb} (kept : settings.enableStats = true)
      (climbed : checkLevel { s with experience := max 0 (s.experience + delta) } settings
        (.ofFormula settings items) = .ok climb) :
      Changes s delta settings items .experience .add
        { stats := climb.stats, applied := true, messages := climb.messages, climb := climb }
  | rest {key : StatKey} {op : StatOperation} (scalar : key.attribute? = none) :
      Changes s delta settings items key op { stats := s }

theorem applyChange_changes {s : StatBlock} {key : StatKey} {op : StatOperation} {delta : Int}
    {change : StatChange} (h : applyChange s key op delta settings items = .ok change) :
    s.Changes delta settings items key op change := by
  unfold applyChange at h
  split at h
  · exact .lasting rfl h
  · exact Except.ok.inj h ▸ .vitality
  · exact .lasting rfl h
  · exact Except.ok.inj h ▸ .resource
  · exact Except.ok.inj h ▸ .rest rfl
  · dsimp only at h
    split at h
    · next climbs =>
        obtain ⟨climb, climbed, h⟩ := exists_of_bind_eq_ok h
        rw [← Except.ok.inj h, climbs.1]
        exact .climbed climbs.2 climbed
    · exact Except.ok.inj h ▸ .gained
  · exact Except.ok.inj h ▸ .rest rfl
  · exact Except.ok.inj h ▸ .currency
  · exact .lasting rfl h
  · exact .lasting rfl h
  · exact .lasting rfl h

/-- A change that a narrator asks for is one of the stat and by the operation that are named, or
none at all. -/
theorem changeStat_eq_ok {s : StatBlock} {name operation : String} {amount level : Option String}
    {change : StatChange}
    (h : changeStat s name operation settings amount level items = .ok change) :
    change = { stats := s } ∨ ∃ key op delta, StatKey.ofName? name = some key ∧
      StatOperation.ofText? (if operation = "" then "add" else operation) = some op ∧
      s.Changes delta settings items key op change := by
  unfold changeStat at h
  dsimp only at h
  split at h
  · next key op known asked =>
      obtain ⟨found, _, h⟩ := exists_of_bind_eq_ok h
      cases found with
      | none => exact .inl (Except.ok.inj h).symm
      | some x =>
          obtain ⟨size, _, h⟩ := exists_of_bind_eq_ok h
          exact .inr ⟨key, op, _, known, asked, applyChange_changes h⟩
  · exact .inl (Except.ok.inj h).symm

end
end Ascent
