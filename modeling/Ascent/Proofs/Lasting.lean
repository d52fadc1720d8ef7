import Ascent.Proofs.Reading
import Ascent.Proofs.Sync
import Ascent.Proofs.Whole

/-!
What lasts of stats, whatever the pools and the current attributes come to.

The base attributes, lasting bonuses and status effects are the marks of a stat block. Experience,
peaks and trials leave them alone, and so does refreshing; what holds of the marks is therefore kept
by a climb or a breakthrough if it is kept by the way in which stats move to another tier. In play
the base of the player is a binary64 number throughout, and lasting bonuses are integers counted up
under the names of attributes.

Main exports: `StatBlock.marks`, `Rebase.Keeps`, `checkLevel_keeps`, `resolveBreakthrough_keeps`,
`StatBlock.Changes.keeps`, `changeStat_keeps`, `Marks.Grown`, `changeStat_grown`.
-/

namespace Ascent

open Double

/-- What lasts of a stat block. -/
structure Marks where
  base : Attributes Int
  bonuses : Pairs Bonus
  effects : List StatusEffect

namespace StatBlock

/-- The marks of a stat block. -/
def marks (s : StatBlock) : Marks := ⟨s.base, s.permanentBonuses, s.statusEffects⟩

theorem marks_of_refresh {s t : StatBlock} {items : List Item} (h : s.refresh items = .ok t) :
    t.marks = s.marks := by
  obtain ⟨_, _, h⟩ := exists_of_bind_eq_ok h
  obtain ⟨_, _, h⟩ := exists_of_bind_eq_ok h
  rw [← Except.ok.inj h]
  rfl

end StatBlock

/-! ### Climbing and breaking through -/

section

variable {P : StatBlock → Prop} {settings : Settings} {items : List Item} {rebase : Rebase}

/-- Moving to another tier keeps what holds of stats whatever their experience is and wherever in
the tier they stand. -/
structure Rebase.Keeps (rebase : Rebase) (P : StatBlock → Prop) : Prop where
  moves : ∀ {s t : StatBlock} {label : String}, P s → rebase s label = .ok t → P t
  idles : ∀ {s : StatBlock} (experience : Int) (atPeak inTribulation : Bool), P s →
    P { s with experience := experience, atPeak := atPeak, inTribulation := inTribulation }

theorem climbMinors_keeps (keeps : rebase.Keeps P) {steps : Nat} {rung : Rung} {c result : Climb}
    (before : P c.stats) (h : climbMinors settings rebase steps rung c = .ok result) :
    P result.stats := by
  induction steps generalizing rung c with
  | zero => exact Except.ok.inj h ▸ before
  | succ steps ih =>
      cases climbMinors_rises h with
      | short => exact before
      | peak => exact keeps.idles _ true _ before
      | @next moved _ _ _ rebased later =>
          have spent := keeps.idles (c.stats.experience - c.stats.current.experienceToNext)
            c.stats.atPeak c.stats.inTribulation before
          exact ih (c := ⟨moved, _, _, _, _⟩) (keeps.moves spent rebased) later

theorem checkLevel_keeps (keeps : rebase.Keeps P) {s : StatBlock} {result : Climb} (before : P s)
    (h : checkLevel s settings rebase = .ok result) : P result.stats := by
  rcases checkLevel_eq_ok h with rfl | ⟨-, -, climbs⟩
  · exact keeps.idles _ s.atPeak s.inTribulation before
  · exact climbMinors_keeps keeps (c := { stats := s }) before climbs

theorem gainExperience_keeps (keeps : rebase.Keeps P) {s : StatBlock} {amount : Int}
    {result : Climb} (before : P s) (h : gainExperience s amount settings rebase = .ok result) :
    P result.stats :=
  checkLevel_keeps keeps (keeps.idles _ s.atPeak s.inTribulation before) h

/-- A breakthrough keeps what moving to another tier keeps, where a fall from this tier does. -/
theorem resolveBreakthrough_keeps (keeps : rebase.Keeps P) {success : Bool} {s : StatBlock}
    (falls : success = false → ∀ fall, demote s settings items = .ok fall → P fall.stats)
    {result : Climb} (before : P s)
    (h : resolveBreakthrough s success settings items rebase = .ok result) : P result.stats := by
  cases resolveBreakthrough_resolves h with
  | rest => exact before
  | top _ _ stats => exact stats ▸ keeps.idles _ true false before
  | ascent _ _ rebased => exact keeps.moves (keeps.idles 0 false false before) rebased
  | fall _ fell => exact falls rfl result fell

/-- A change of stats keeps what a climb and a change of pools, experience and money keep, where a
lasting change of these stats does. -/
theorem StatBlock.Changes.keeps (keeps : (Rebase.ofFormula settings items).Keeps P) {s : StatBlock}
    (pools : ∀ vitality resource experience currency, P s → P { s with
      vitality := vitality, resource := resource, experience := experience, currency := currency })
    (permanent : ∀ a delta change, addPermanent s a delta items = .ok change → P change.stats)
    {key : StatKey} {op : StatOperation} {delta : Int} {change : StatChange} (before : P s)
    (h : s.Changes delta settings items key op change) : P change.stats := by
  have gained : P { s with experience := max 0 (s.experience + delta) } :=
    pools s.vitality s.resource _ s.currency before
  cases h with
  | lasting _ added => exact permanent _ _ _ added
  | vitality => exact pools _ s.resource s.experience s.currency before
  | resource => exact pools s.vitality _ s.experience s.currency before
  | currency => exact pools s.vitality s.resource s.experience _ before
  | gained => exact gained
  | climbed _ climbed => exact checkLevel_keeps keeps gained climbed
  | rest => exact before

theorem changeStat_keeps {s : StatBlock} {name operation : String} {amount level : Option String}
    (changes : ∀ key op delta change,
      s.Changes delta settings items key op change → P change.stats)
    {change : StatChange} (before : P s)
    (h : changeStat s name operation settings amount level items = .ok change) :
    P change.stats := by
  rcases changeStat_eq_ok h with rfl | ⟨key, op, delta, -, -, changed⟩
  · exact before
  · exact changes _ _ _ _ changed

theorem beginBreakthrough_marks {s : StatBlock} :
    (beginBreakthrough s).stats.marks = s.marks := by
  unfold beginBreakthrough
  split <;> rfl

end

/-! ### The marks of the player -/

/-- Marks that play leaves on the player. -/
structure Marks.Grown (m : Marks) : Prop where
  base : ∀ a, Whole (m.base.get a)
  names : (m.bonuses.map Prod.fst).Nodup
  bonuses : ∀ b ∈ m.bonuses, ∃ a n, b = (Attribute.key a, Bonus.whole n)
  effects : ∀ e ∈ m.effects, e.WellFormed

theorem baseAttributes_whole {label : String} {settings : Settings} {base : Attributes Int}
    (h : baseAttributes label settings = .ok base) (a : Attribute) : Whole (base.get a) := by
  unfold baseAttributes at h
  split at h
  · rw [← Except.ok.inj h]
    exact whole_of_small (by cases a <;> decide)
  · obtain ⟨n, rounded, h⟩ := exists_of_bind_eq_ok (Attributes.ofFnM_eq_ok.mp h a)
    rw [← Except.ok.inj h]
    exact whole_max (whole_of_small (by cases a <;> decide)) (whole_of_floor rounded)

section

variable {s t : StatBlock} {settings : Settings} {items : List Item} {label : String}

theorem retier_grown (grown : s.marks.Grown) (h : s.retier label settings items = .ok t) :
    t.marks.Grown := by
  obtain ⟨base, based, h⟩ := exists_of_bind_eq_ok h
  rw [StatBlock.marks_of_refresh h]
  exact ⟨baseAttributes_whole based, grown.names, grown.bonuses, grown.effects⟩

theorem rebase_grown (grown : s.marks.Grown) (h : s.rebase label settings items = .ok t) :
    t.marks.Grown := by
  obtain ⟨moved, retiered, h⟩ := exists_of_bind_eq_ok h
  have refilled : moved.refill.marks = moved.marks := rfl
  rw [← Except.ok.inj h, refilled]
  exact retier_grown grown retiered

theorem ofFormula_keeps (settings : Settings) (items : List Item) :
    (Rebase.ofFormula settings items).Keeps fun s => s.marks.Grown where
  moves := fun before moved => rebase_grown before moved
  idles := fun _ _ _ before => before

theorem demote_grown {fall : Climb} (grown : s.marks.Grown)
    (h : demote s settings items = .ok fall) : fall.stats.marks.Grown := by
  obtain ⟨fallen, retiered, h⟩ := exists_of_bind_eq_ok h
  obtain ⟨hurt, refreshed, h⟩ := exists_of_bind_eq_ok h
  rw [← Except.ok.inj h]
  have cleared : { s with inTribulation := false, atPeak := false, experience := 0 }.marks.Grown :=
    grown
  have fell : fallen.marks.Grown := retier_grown cleared retiered
  rw [StatBlock.marks_of_refresh refreshed]
  exact fell

theorem addPermanent_grown {a : Attribute} {delta : Int} {change : StatChange}
    (grown : s.marks.Grown) (h : addPermanent s a delta items = .ok change) :
    change.stats.marks.Grown := by
  obtain ⟨bonus, added, h⟩ := exists_of_bind_eq_ok h
  obtain ⟨updated, refreshed, h⟩ := exists_of_bind_eq_ok h
  rw [← Except.ok.inj h, StatBlock.marks_of_refresh refreshed]
  have counted : ∃ n, bonus = .whole n := by
    cases known : s.permanentBonuses.get? a.key with
    | none =>
        rw [known] at added
        exact ⟨_, (Except.ok.inj added).symm⟩
    | some b =>
        obtain ⟨_, n, same⟩ := grown.bonuses _ (Pairs.mem_of_get? known)
        obtain rfl : b = .whole n := congrArg Prod.snd same
        rw [known] at added
        exact ⟨_, (Except.ok.inj added).symm⟩
  obtain ⟨n, rfl⟩ := counted
  refine ⟨grown.base, Pairs.nodup_put grown.names _ _, ?_, grown.effects⟩
  intro b member
  rcases Pairs.mem_put member with old | rfl
  · exact grown.bonuses b old
  · exact ⟨a, n, rfl⟩

theorem StatBlock.Changes.grown {key : StatKey} {op : StatOperation} {delta : Int}
    {change : StatChange} (grown : s.marks.Grown)
    (h : s.Changes delta settings items key op change) : change.stats.marks.Grown :=
  h.keeps (P := fun s => s.marks.Grown) (ofFormula_keeps settings items)
    (fun _ _ _ _ before => before) (fun _ _ _ => addPermanent_grown grown) grown

theorem changeStat_grown {name operation : String} {amount level : Option String}
    {change : StatChange} (grown : s.marks.Grown)
    (h : changeStat s name operation settings amount level items = .ok change) :
    change.stats.marks.Grown :=
  changeStat_keeps (P := fun s => s.marks.Grown) (fun _ _ _ _ changed => changed.grown grown) grown
    h

theorem resolveBreakthrough_grown {success : Bool} {result : Climb} (grown : s.marks.Grown)
    (h : resolveBreakthrough s success settings items (.ofFormula settings items) = .ok result) :
    result.stats.marks.Grown :=
  resolveBreakthrough_keeps (ofFormula_keeps settings items) (fun _ _ => demote_grown grown) grown h

end

/-! ### Stats in sync -/

theorem Attribute.ofName?_key (a : Attribute) : Attribute.ofName? a.key = some a := by
  cases a <;> decide +kernel

theorem isFinite_of_ofInt? {n : Int} {x : Double} (h : ofInt? n = .ok x) :
    (ofInt n).isFinite := by
  unfold ofInt? at h
  split at h
  · next finite => exact finite
  · cases h

/-- Where every bonus has been added, each integer among them is within the finite numbers. -/
theorem finite_of_addBonus {bonuses : Pairs Bonus} {start values : Attributes Double}
    (h : bonuses.foldlM (fun values (key, bonus) => StatBlock.addBonus values key bonus) start =
      .ok values) {a : Attribute} {n : Int} (member : (a.key, Bonus.whole n) ∈ bonuses) :
    (ofInt n).isFinite := by
  induction bonuses generalizing start with
  | nil => cases member
  | cons b rest ih =>
      rw [List.foldlM_cons] at h
      obtain ⟨next, added, h⟩ := exists_of_bind_eq_ok h
      rcases List.mem_cons.mp member with rfl | later
      · simp only [StatBlock.addBonus, Attribute.ofName?_key] at added
        obtain ⟨x, known, _⟩ := exists_of_bind_eq_ok added
        exact isFinite_of_ofInt? known
      · exact ih h later

/-- A record may hold the stats of a player who is in sync. -/
theorem wellFormed_of_inSync {s : StatBlock} {items : List Item} (grown : s.marks.Grown)
    (sync : s.InSync items) : s.WellFormed where
  names := grown.names
  bonuses := by
    intro b member
    obtain ⟨a, n, rfl⟩ := grown.bonuses b member
    obtain ⟨_, derived, _⟩ := exists_of_bind_eq_ok sync.measured
    obtain ⟨start, _, derived⟩ := exists_of_bind_eq_ok derived
    obtain ⟨lasting, added, _⟩ := exists_of_bind_eq_ok derived
    exact finite_of_addBonus added member
  effects := grown.effects

theorem whole_current {s : StatBlock} {items : List Item} (sync : s.InSync items) (a : Attribute) :
    Whole (s.current.get a) := by
  obtain ⟨values, _, h⟩ := exists_of_bind_eq_ok sync.measured
  obtain ⟨n, rounded, h⟩ := exists_of_bind_eq_ok (Attributes.ofFnM_eq_ok.mp h a)
  rw [← Except.ok.inj h]
  exact whole_max (whole_of_small (by cases a <;> decide)) (whole_of_roundEven rounded)

end Ascent
