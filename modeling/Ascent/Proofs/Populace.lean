import Ascent.Proofs.Lasting
import Ascent.Proofs.Provenance

/-!
What play makes of people.

A person's percentages come from fields that are bounded when they are read, feelings are bounded
when they are felt, a memory that is a number is a finite one, and stats bring neither lasting
bonuses nor status effects. Each way in which a record comes about keeps all of this.

Main exports: `Person.Grown`, `Person.Arises.grown`, `Person.wellFormed_of_grown`.
-/

namespace Ascent

open Text

/-! ### Fields of bounded values -/

/-- A percentage lies between 0 and 100. -/
def FieldValue.Bounded (v : FieldValue) : Prop := 0 ≤ v.asInt ∧ v.asInt ≤ 100

theorem FieldKind.bounded_of_read? {kind : FieldKind} {raw : String} {v : FieldValue}
    (h : kind.read? raw = some v) : v.Bounded := by
  cases kind with
  | name => exact Option.some.inj h ▸ (by decide : (0 : Int) ≤ 0 ∧ (0 : Int) ≤ 100)
  | text => exact Option.some.inj h ▸ (by decide : (0 : Int) ≤ 0 ∧ (0 : Int) ≤ 100)
  | list => exact Option.some.inj h ▸ (by decide : (0 : Int) ≤ 0 ∧ (0 : Int) ≤ 100)
  | percent =>
      obtain ⟨n, _, rfl⟩ := Option.map_eq_some_iff.mp h
      exact (by omega : (0 : Int) ≤ max 0 (min 100 n) ∧ max 0 (min 100 n) ≤ 100)

/-- Whatever arguments a command has, the fields that they set have bounded values. -/
theorem pickFields_bounded {F : Type} [DecidableEq F] {keys : List (String × F)}
    {kind : F → FieldKind} {params : Params} :
    ∀ x ∈ pickFields keys kind params, x.2.Bounded := by
  intro x member
  obtain ⟨_, raw, read⟩ := of_mem_pickFields member
  exact FieldKind.bounded_of_read? read

/-! ### One person -/

/-- A person as play makes one. -/
structure Person.Grown (p : Person) : Prop where
  stats : ∀ s ∈ p.stats, s.permanentBonuses = [] ∧ s.statusEffects = []
  names : (p.memoryFlags.map Prod.fst).Nodup
  flags : ∀ f ∈ p.memoryFlags, f.2.WellFormed
  emotion : ∀ e ∈ p.emotion, e.WellFormed
  resistance : 0 ≤ p.resistance ∧ p.resistance ≤ 100
  willpower : 0 ≤ p.willpower ∧ p.willpower ≤ 100

namespace Person

variable {p q : Person}

theorem giving_grown (grown : p.Grown) (fields : List PersonField) : (p.giving fields).Grown :=
  { grown with }

theorem put_grown (grown : p.Grown) (f : PersonField) {v : FieldValue} (bounded : v.Bounded) :
    (p.put f v).Grown := by
  cases f with
  | resistance => exact { grown with resistance := bounded }
  | willpower => exact { grown with willpower := bounded }
  | _ => exact { grown with }

theorem putAll_grown (grown : p.Grown) {fields : List (PersonField × FieldValue)}
    (bounded : ∀ x ∈ fields, x.2.Bounded) : (p.putAll fields).Grown :=
  putAll_keeps grown (fun _ x member before => put_grown before x.1 (bounded x member))
    fun _ given before => giving_grown before given

theorem moveAffinityTo_grown (grown : p.Grown) (start : Int) (asked : Option String) :
    (p.moveAffinityTo start asked).Grown := { grown with }

theorem take_grown (hq : q.Grown) (hp : p.Grown) (f : PersonField) : (take f q p).Grown := by
  cases f with
  | stats => exact { hp with stats := hq.stats }
  | memoryFlags => exact { hp with names := hq.names, flags := hq.flags }
  | emotion => exact { hp with emotion := hq.emotion }
  | resistance => exact { hp with resistance := hq.resistance }
  | willpower => exact { hp with willpower := hq.willpower }
  | _ => exact { hp with }

theorem overlay_grown (hp : p.Grown) (hq : q.Grown) : (p.overlay q).Grown := by
  have all (fields : List PersonField) (r : Person) (hr : r.Grown) :
      (takeAll take fields q r).Grown := by
    induction fields generalizing r with
    | nil => exact hr
    | cons f rest ih => exact ih _ (take_grown hq hr f)
  exact giving_grown (all _ p hp) _

theorem legalize_grown (grown : p.Grown) (settings : Settings) : (p.legalize settings).Grown :=
  { grown with
    stats := by
      intro s member
      obtain ⟨before, known, rfl⟩ := Option.map_eq_some_iff.mp member
      exact grown.stats before known }

theorem remembering_grown (grown : p.Grown) (name : String) {flag : Flag}
    (formed : flag.WellFormed) :
    ({ p with memoryFlags := p.memoryFlags.put name flag }.giving [.memoryFlags]).Grown := by
  refine { grown with names := Pairs.nodup_put grown.names name flag, flags := ?_ }
  intro f member
  rcases Pairs.mem_put member with old | rfl
  · exact grown.flags f old
  · exact formed

theorem captured_grown (grown : p.Grown) : p.captured.Grown :=
  { grown with
    resistance := (by decide : (0 : Int) ≤ 50 ∧ (50 : Int) ≤ 100)
    willpower := (by decide : (0 : Int) ≤ 50 ∧ (50 : Int) ≤ 100) }

theorem killed_grown (grown : p.Grown) : p.killed.Grown := { grown with }

/-- A record may hold a person that play has made and restored. -/
theorem wellFormed_of_grown (grown : p.Grown) {settings : Settings} (legal : p.Legal settings) :
    p.WellFormed where
  stats := by
    intro s known
    obtain ⟨bonuses, effects⟩ := grown.stats s known
    exact ⟨by simp [bonuses], by simp [bonuses], by simp [effects]⟩
  affinity := legal.affinity
  names := grown.names
  flags := grown.flags
  emotion := grown.emotion
  resistance := grown.resistance
  willpower := grown.willpower

end Person

/-- What is remembered of a text is no number that is not finite. -/
theorem Flag.wellFormed_ofText (raw : String) : (Flag.ofText raw).WellFormed := by
  intro x real
  unfold Flag.ofText at real
  split at real
  · cases real
  · split at real
    · cases real
    · next y read =>
        split at real
        · cases real
        · exact Flag.real.inj real ▸ Loose.isFinite_of_numberOfText? read

/-! ### How records come about -/

theorem unknown_grown (id called : String) : (Person.unknown id called).Grown := by
  have none : (0 : Int) ≤ 0 ∧ (0 : Int) ≤ 100 := by decide
  exact ⟨by simp [Person.unknown, Person.giving], by simp [Person.unknown, Person.giving],
    by simp [Person.unknown, Person.giving], by simp [Person.unknown, Person.giving], none, none⟩

theorem generateStats_plain (player : StatBlock) (tier : String) (settings : Settings)
    (archetype : Archetype) : (generateStats player tier settings archetype).Ensures fun s =>
      s.permanentBonuses = [] ∧ s.statusEffects = [] := by
  unfold generateStats
  refine .of_bind fun _ => .of_bind fun _ => .of_bind fun _ => .of_bind fun _ => .of_bind fun _ =>
    .of_bind fun _ => .pure ⟨rfl, rfl⟩

theorem refreshStats_grown {p : Person} (grown : p.Grown) (s : GameState) :
    (p.refreshStats s).Ensures Person.Grown := by
  unfold Person.refreshStats
  split
  · exact .pure grown
  · refine .bind (generateStats_plain _ _ _ _) fun stats plain => .pure ?_
    refine { grown with stats := ?_ }
    intro t known
    rw [← Option.some.inj known]
    exact plain

/-- Marks that play leaves on people: none but a base. -/
def Marks.Plain (m : Marks) : Prop := m.bonuses = [] ∧ m.effects = []

theorem inProportion_keeps (settings : Settings) :
    (Rebase.inProportion settings).Keeps fun s => s.marks.Plain where
  moves := by
    intro s t label plain h
    obtain ⟨all, rfl⟩ := scaleTo_eq_ok h
    exact plain
  idles := fun _ _ _ plain => plain

theorem withStats_grown {p : Person} (grown : p.Grown) {s : StatBlock} (plain : s.marks.Plain) :
    (p.withStats s).Grown := by
  refine { grown with stats := ?_ }
  intro t known
  rw [← Option.some.inj known]
  exact plain

theorem turn_grown {p q : Person} {world : Settings} (grown : p.Grown) (turn : p.Turn world q) :
    q.Grown := by
  cases turn with
  | rests => exact grown
  | waits => exact { grown with }
  | @breaks s climb stats _ _ resolved =>
      have plain : s.marks.Plain := grown.stats s stats
      have risen := resolveBreakthrough_keeps (inProportion_keeps world)
        (fun failed => by cases failed) plain resolved
      exact { withStats_grown grown risen with }
  | @gains s gain climb stats _ climbed =>
      have plain : s.marks.Plain := grown.stats s stats
      exact withStats_grown grown (gainExperience_keeps (inProportion_keeps world) plain climbed)

/-- Whoever has come about in play is as play makes people. -/
theorem Person.Arises.grown {world : Settings} {stage : Stage} {p : Person}
    (arises : p.Arises world stage) : p.Grown := by
  induction arises with
  | unknown id called => exact unknown_grown id called
  | again _ ih => exact ih
  | told _ params ih => exact putAll_grown ih pickFields_bounded
  | @drawn _ q s supply rest _ _ run ih => exact refreshStats_grown ih s supply q rest run
  | liked _ start asked ih => exact moveAffinityTo_grown ih start asked
  | changed _ keys _ params ih => exact putAll_grown ih pickFields_bounded
  | remembers _ flag raw ih => exact remembering_grown ih flag (Flag.wellFormed_ofText raw)
  | feels _ label intensity ih =>
      refine { ih with emotion := ?_ }
      intro e felt
      rw [← Option.some.inj felt]
      dsimp only [Emotion.WellFormed]
      omega
  | joins _ ih => exact { ih with }
  | captured _ ih => exact captured_grown ih
  | killed _ ih => exact killed_grown ih
  | merged _ _ earlier later => exact overlay_grown earlier later
  | restored _ ih => exact legalize_grown ih world
  | turned _ turn ih => exact turn_grown ih turn

end Ascent
