import Ascent.Proofs.Clamping
import Ascent.Proofs.Lasting

/-!
Lasting changes of attributes as they are booked.

What an attribute stands at is its base and its own bonus. A lasting change moves that by what it is
bounded to, and the bound is read off what the attribute shows. The two differ where bonuses stand
under other names of the attribute, where they are fractions or integers that are no numbers, and
where an attribute stands below the least that is shown.

Main exports: `StatBlock.standing`, `StatBlock.Counted`, `StatBlock.Plain`, `StatBlock.Modest`,
`standing_of_addPermanent`, `overdrawn_iff`, `StatBlock.shown_of_plain`.
-/

namespace Ascent

open Double

/-! ### The value of a bonus -/

namespace Bonus

/-- The value of a bonus. -/
def value : Bonus → ℚ
  | .whole n => n
  | .real x => x.value

/-- Whether a bonus is an integer, and changes no greater than a limit are added to it exactly. -/
def counts (limit : ℕ) : Bonus → Bool
  | .whole _ => true
  | .real x => limit ≤ 2 ^ 51 && x.toInt?.any fun n => n.natAbs ≤ 2 ^ 51

variable {b b' : Bonus} {limit : ℕ} {n : ℤ}

theorem exists_value (counts : b.counts limit) : ∃ m : ℤ, b.value = m := by
  cases b with
  | whole m => exact ⟨m, rfl⟩
  | real x =>
      simp only [Bonus.counts, Bool.and_eq_true, Option.any_eq_true] at counts
      obtain ⟨-, m, read, -⟩ := counts
      exact ⟨m, (is_of_toInt? read).value_eq⟩

/-- A bonus that is not large is added as the number that it is. -/
theorem is_number (counts : b.counts limit) (value : b.value = n) (small : n.natAbs ≤ 2 ^ 53) :
    b.number.Is n := by
  cases b with
  | whole m =>
      obtain rfl : m = n := Int.cast_injective value
      exact is_ofInt small
  | real x =>
      simp only [Bonus.counts, Bool.and_eq_true, Option.any_eq_true] at counts
      obtain ⟨-, m, read, -⟩ := counts
      have is := is_of_toInt? read
      obtain rfl : m = n := Int.cast_injective (is.value_eq.symm.trans value)
      exact is

/-- A change within the limit is added exactly. -/
theorem value_of_add (counts : b.counts limit) (within : n.natAbs ≤ limit)
    (h : b.add n = .ok b') : b'.value = b.value + n := by
  cases b with
  | whole m =>
      rw [← Except.ok.inj h]
      exact Int.cast_add m n
  | real x =>
      simp only [Bonus.counts, Bool.and_eq_true, decide_eq_true_eq, Option.any_eq_true] at counts
      obtain ⟨small, m, read, small'⟩ := counts
      obtain ⟨y, known, h⟩ := exists_of_bind_eq_ok h
      have is := is_of_toInt? read
      have sum := is_add is (is_of_ofInt? (by omega) known) (by omega)
      rw [← Except.ok.inj h]
      exact sum.value_eq.trans (by rw [Int.cast_add, value, is.value_eq])

end Bonus

/-! ### What an attribute stands at -/

/-- The attributes whose lasting changes may be losses. -/
def scalars : List Attribute := [.offense, .defense, .speed]

namespace StatBlock

/-- What an attribute comes to by its base and its own bonus. -/
def standing (s : StatBlock) (a : Attribute) : ℚ :=
  s.base.get a + ((s.permanentBonuses.get? a.key).map Bonus.value).getD 0

/-- The limit of a lasting change of an attribute. -/
def reach (s : StatBlock) (a : Attribute) : ℕ :=
  max (max (s.current.get a).natAbs (s.base.get a).natAbs) 10

/-- The bonuses of the attributes are integers, and lasting changes are added to them exactly. -/
def Counted (s : StatBlock) : Prop :=
  ∀ a ∈ scalars, (s.permanentBonuses.get? a.key).all (Bonus.counts (s.reach a))

instance (s : StatBlock) : Decidable s.Counted := inferInstanceAs (Decidable (∀ a ∈ scalars, _))

variable {s t : StatBlock}

theorem standing_congr (base : t.base = s.base) (bonuses : t.permanentBonuses = s.permanentBonuses)
    (a : Attribute) : t.standing a = s.standing a := by
  unfold standing
  rw [base, bonuses]

end StatBlock

theorem Attribute.key_inj {a b : Attribute} (same : a.key = b.key) : a = b := by
  cases a <;> cases b <;> first | rfl | simp [key] at same

/-- A lasting change of an attribute goes no further than its limit. -/
theorem natAbs_boundPermanent (s : StatBlock) (a : Attribute) (delta : ℤ) :
    (boundPermanent s a delta).natAbs ≤ s.reach a := by
  unfold boundPermanent minPermanentStep StatBlock.reach
  dsimp only
  omega

/-- A lasting change puts what it is bounded to on the bonus of its attribute. -/
theorem bonuses_of_addPermanent {s : StatBlock} {a : Attribute} {delta : ℤ} {items : List Item}
    {change : StatChange} (h : addPermanent s a delta items = .ok change) :
    ∃ bonus, ((s.permanentBonuses.get? a.key).getD (.whole 0)).add (boundPermanent s a delta) =
        .ok bonus ∧
      change.stats.base = s.base ∧
      change.stats.permanentBonuses = s.permanentBonuses.put a.key bonus := by
  obtain ⟨bonus, added, h⟩ := exists_of_bind_eq_ok h
  obtain ⟨updated, refreshed, h⟩ := exists_of_bind_eq_ok h
  rw [← Except.ok.inj h]
  have marks := StatBlock.marks_of_refresh refreshed
  exact ⟨bonus, added, congrArg Marks.base marks, congrArg Marks.bonuses marks⟩

section

variable {s : StatBlock} {a b : Attribute} {delta : ℤ} {items : List Item} {change : StatChange}

/-- The attribute of a lasting change moves by what the change is bounded to. -/
theorem standing_of_addPermanent (counted : s.Counted) (member : a ∈ scalars)
    (h : addPermanent s a delta items = .ok change) :
    change.stats.standing a = s.standing a + boundPermanent s a delta := by
  obtain ⟨bonus, added, base, bonuses⟩ := bonuses_of_addPermanent h
  have counts := counted a member
  have within := natAbs_boundPermanent s a delta
  unfold StatBlock.standing
  rw [base, bonuses, Pairs.get?_put, if_pos rfl, add_assoc]
  congr 1
  cases known : s.permanentBonuses.get? a.key with
  | none =>
      rw [known] at added
      exact Bonus.value_of_add (b := .whole 0) rfl within added
  | some old =>
      rw [known] at added counts
      exact Bonus.value_of_add counts within added

/-- Others do not move. -/
theorem standing_of_addPermanent_other (other : b ≠ a)
    (h : addPermanent s a delta items = .ok change) : change.stats.standing b = s.standing b := by
  obtain ⟨bonus, -, base, bonuses⟩ := bonuses_of_addPermanent h
  unfold StatBlock.standing
  rw [base, bonuses, Pairs.get?_put, if_neg fun same => other (Attribute.key_inj same)]

/-- A loss is more than an attribute can bear where it is asked for, and where the attribute shows
more than it stands at. -/
theorem overdrawn_iff (solvent : 0 ≤ s.standing a) :
    s.standing a + boundPermanent s a delta < 0 ↔
      s.standing a + delta < 0 ∧ s.standing a < s.current.get a := by
  have most : (0 : ℚ) < max (max (s.current.get a : ℚ) (s.base.get a)) 10 :=
    lt_max_of_lt_right (by norm_num)
  unfold boundPermanent minPermanentStep
  dsimp only
  push_cast
  generalize max (max (s.current.get a : ℚ) (s.base.get a)) 10 = cap at most ⊢
  constructor
  · intro less
    have bound : max (-(s.current.get a : ℚ)) (min cap delta) < -s.standing a := by linarith
    obtain ⟨shown, asked⟩ := max_lt_iff.mp bound
    rcases min_lt_iff.mp asked with capped | asked
    · linarith
    · constructor <;> linarith
  · rintro ⟨asked, shown⟩
    have bound : max (-(s.current.get a : ℚ)) (min cap delta) < -s.standing a :=
      max_lt (by linarith) (min_lt_of_right_lt (by linarith))
    linarith

end

/-! ### What an attribute shows -/

/-- A bonus is added to the attribute that its name means. -/
theorem addBonus_eq_ok {values next : Attributes Double} {key : String} {bonus : Bonus}
    (h : StatBlock.addBonus values key bonus = .ok next) :
    (Attribute.ofName? key = none ∧ next = values) ∨
      ∃ a, Attribute.ofName? key = some a ∧
        next = values.set a (values.get a + bonus.number) := by
  unfold StatBlock.addBonus at h
  split at h
  · next none => exact .inl ⟨none, (Except.ok.inj h).symm⟩
  · next a meant =>
      refine .inr ⟨a, meant, ?_⟩
      cases bonus with
      | real x => exact (Except.ok.inj h).symm
      | whole n =>
          obtain ⟨x, known, h⟩ := exists_of_bind_eq_ok h
          rw [← Except.ok.inj h, eq_of_ofInt? known, Bonus.number]

/-- Of lasting bonuses under names of their own, one at most is added to an attribute. -/
theorem get_of_addBonuses {bonuses : Pairs Bonus} {start values : Attributes Double} {a : Attribute}
    (nodup : (bonuses.map Prod.fst).Nodup)
    (named : ∀ p ∈ bonuses, Attribute.ofName? p.1 = some a → p.1 = a.key)
    (h : bonuses.foldlM (fun values (key, bonus) => StatBlock.addBonus values key bonus) start =
      .ok values) :
    values.get a = match bonuses.get? a.key with
      | none => start.get a
      | some b => start.get a + b.number := by
  induction bonuses generalizing start with
  | nil =>
      rw [← Except.ok.inj h]
      rfl
  | cons p rest ih =>
      obtain ⟨key, b⟩ := p
      obtain ⟨fresh, nodup⟩ := List.nodup_cons.mp nodup
      obtain ⟨own, named⟩ := List.forall_mem_cons.mp named
      rw [List.foldlM_cons] at h
      obtain ⟨next, added, h⟩ := exists_of_bind_eq_ok h
      rw [ih nodup named h, Pairs.get?]
      by_cases here : key = a.key
      · subst here
        have gone : Pairs.get? rest a.key = none := by
          by_contra known
          obtain ⟨c, known⟩ := Option.ne_none_iff_exists'.mp known
          exact fresh (List.mem_map.mpr ⟨_, Pairs.mem_of_get? known, rfl⟩)
        rw [gone, if_pos rfl]
        rcases addBonus_eq_ok added with ⟨none, -⟩ | ⟨c, meant, rfl⟩
        · rw [Attribute.ofName?_key] at none
          cases none
        · rw [Attribute.ofName?_key] at meant
          obtain rfl := Option.some.inj meant
          exact (Attributes.get_set _ _ _ _).trans (if_pos rfl)
      · have same : next.get a = start.get a := by
          rcases addBonus_eq_ok added with ⟨-, rfl⟩ | ⟨c, meant, rfl⟩
          · rfl
          · rw [Attributes.get_set, if_neg]
            exact fun mine => here (own (mine ▸ meant))
        rw [if_neg here, same]

namespace StatBlock

/-- Lasting bonuses stand under names of their own, and those of the attributes under theirs. -/
def Plain (s : StatBlock) : Prop :=
  (s.permanentBonuses.map Prod.fst).Nodup ∧
    ∀ p ∈ s.permanentBonuses, ∀ a ∈ scalars, Attribute.ofName? p.1 = some a → p.1 = a.key

instance (s : StatBlock) : Decidable s.Plain := inferInstanceAs (Decidable (_ ∧ ∀ p ∈ _, _))

/-- What attributes come to is far below the integers that are no numbers any more. -/
def Modest (s : StatBlock) : Prop :=
  ∀ a ∈ scalars, (s.base.get a).natAbs ≤ 2 ^ 51 ∧ -2 ^ 51 ≤ s.standing a ∧ s.standing a ≤ 2 ^ 51

instance (s : StatBlock) : Decidable s.Modest := inferInstanceAs (Decidable (∀ a ∈ scalars, _))

/-- Where nothing is worn and no status acts, an attribute shows what it stands at, or its least
value. -/
theorem shown_of_plain {s : StatBlock} {a : Attribute} (sync : s.InSync [])
    (free : s.statusEffects = []) (plain : s.Plain) (counted : s.Counted) (modest : s.Modest)
    (member : a ∈ scalars) :
    ∃ n : ℤ, s.standing a = n ∧ s.current.get a = max (currentMinimums.get a) n := by
  obtain ⟨values, derived, measured⟩ := exists_of_bind_eq_ok sync.measured
  obtain ⟨start, based, derived⟩ := exists_of_bind_eq_ok derived
  obtain ⟨lasting, added, derived⟩ := exists_of_bind_eq_ok derived
  rw [free] at derived
  obtain rfl : lasting = values := Except.ok.inj derived
  obtain ⟨k, rounded, shown⟩ := exists_of_bind_eq_ok (Attributes.ofFnM_eq_ok.mp measured a)
  obtain ⟨small, low, high⟩ := modest a member
  have base : (start.get a).Is (s.base.get a) :=
    is_of_ofInt? (by omega) (Attributes.ofFnM_eq_ok.mp based a)
  have sum := get_of_addBonuses plain.1 (fun p member' => plain.2 p member' a member) added
  obtain ⟨n, stands, is⟩ : ∃ n : ℤ, s.standing a = n ∧ (lasting.get a).Is n := by
    have counts := counted a member
    unfold standing at low high ⊢
    cases known : s.permanentBonuses.get? a.key with
    | none =>
        rw [known] at sum
        exact ⟨s.base.get a, add_zero _, sum ▸ base⟩
    | some b =>
        rw [known] at sum counts low high
        obtain ⟨m, value⟩ := Bonus.exists_value counts
        rw [Option.map_some, Option.getD_some, value] at low high ⊢
        have bounds : (s.base.get a + m).natAbs ≤ 2 ^ 51 := by
          have low : -2 ^ 51 ≤ s.base.get a + m := by exact_mod_cast low
          have high : s.base.get a + m ≤ 2 ^ 51 := by exact_mod_cast high
          omega
        have number : b.number.Is m := b.is_number counts value (by omega)
        exact ⟨s.base.get a + m, (Int.cast_add _ _).symm,
          sum ▸ is_add base number (by omega)⟩
  obtain ⟨k', rounded', near⟩ := is.roundEven
  obtain rfl : k' = k := Except.ok.inj (rounded'.symm.trans rounded)
  refine ⟨n, stands, ?_⟩
  rw [← Except.ok.inj shown, Int.cast_injective near.eq]

theorem plain_put {s : StatBlock} (plain : s.Plain) (a : Attribute) (bonus : Bonus) :
    Plain { s with permanentBonuses := s.permanentBonuses.put a.key bonus } := by
  constructor
  · exact Pairs.nodup_put plain.1 a.key bonus
  · intro p known b member meant
    rcases Pairs.mem_put known with old | rfl
    · exact plain.2 p old b member meant
    · rw [Attribute.ofName?_key] at meant
      rw [Option.some.inj meant]

end StatBlock

end Ascent
