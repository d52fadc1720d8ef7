import Ascent.Proofs.Clock
import Mathlib.Data.Int.ConditionallyCompleteOrder
import Mathlib.Order.Interval.Set.Basic

/-!
The calendar is exact.

A moment is the numeral of its date: the minutes of the hour, the hours of the day, the days of the
month, the months of the year and the years, each place within a fixed number but the last. So the
two readings undo each other, and a clock that is set goes to the one moment whose date has the
parts that were set, each moved into its range, and all other parts as before, unless that moment
has passed.

Main exports: `Date.Valid`, `Date.ofMinutes_toMinutes`, `Date.toMinutes_ofMinutes`, `Settles`,
`DateChange.Sets`, `dates_are_exact`.
-/

namespace Ascent

/-! ### Moments and dates -/

namespace Date

/-- A date of the calendar: each part within its range. -/
structure Valid (d : Date) : Prop where
  year : d.year ∈ Set.Ici 1
  month : d.month ∈ Set.Icc 1 12
  day : d.day ∈ Set.Icc 1 30
  hour : d.hour ∈ Set.Icc 0 23
  minute : d.minute ∈ Set.Icc 0 59

/-- The minutes since the day of a date began. -/
def inDay (d : Date) : Int := d.hour * minutesPerHour + d.minute

/-- The minutes since the month of a date began. -/
def inMonth (d : Date) : Int := (d.day - 1) * minutesPerDay + d.inDay

/-- The minutes since the year of a date began. -/
def inYear (d : Date) : Int := (d.month - 1) * minutesPerMonth + d.inMonth

theorem toMinutes_eq (d : Date) : d.toMinutes = (d.year - 1) * minutesPerYear + d.inYear := by
  unfold toMinutes spanMinutes inYear inMonth inDay
  omega

namespace Valid

variable {d e : Date}

theorem inDay_bounds (h : d.Valid) : 0 ≤ d.inDay ∧ d.inDay < minutesPerDay := by
  obtain ⟨first, last⟩ := h.hour
  obtain ⟨first', last'⟩ := h.minute
  unfold inDay minutesPerDay minutesPerHour
  omega

theorem inMonth_bounds (h : d.Valid) : 0 ≤ d.inMonth ∧ d.inMonth < minutesPerMonth := by
  obtain ⟨first, last⟩ := h.day
  have within := h.inDay_bounds
  unfold inMonth minutesPerMonth
  unfold minutesPerDay at *
  omega

theorem inYear_bounds (h : d.Valid) : 0 ≤ d.inYear ∧ d.inYear < minutesPerYear := by
  obtain ⟨first, last⟩ := h.month
  have within := h.inMonth_bounds
  unfold inYear minutesPerYear
  unfold minutesPerMonth minutesPerDay at *
  omega

theorem toMinutes_nonneg (h : d.Valid) : 0 ≤ d.toMinutes := by
  have year : 1 ≤ d.year := h.year
  have within := h.inYear_bounds
  rw [toMinutes_eq]
  unfold minutesPerYear minutesPerMonth minutesPerDay at *
  omega

end Valid

/-- One place of a numeral: what stands in the place and what stands below it. -/
theorem place_eq {unit above below : Int} (low : 0 ≤ below) (high : below < unit) :
    (above * unit + below) / unit = above ∧ (above * unit + below) % unit = below := by
  have sum : below + unit * above = above * unit + below := by
    rw [Int.mul_comm unit above, Int.add_comm]
  exact (Int.ediv_emod_unique (by omega)).mpr ⟨sum, low, high⟩

/-- The date of a moment is the date that the moment was counted for. -/
theorem ofMinutes_toMinutes {d : Date} (h : d.Valid) : ofMinutes d.toMinutes = d := by
  have started : max 0 d.toMinutes = (d.year - 1) * minutesPerYear + d.inYear := by
    rw [max_eq_right h.toMinutes_nonneg, toMinutes_eq]
  have year : ((d.year - 1) * minutesPerYear + d.inYear) / minutesPerYear = d.year - 1 ∧
      ((d.year - 1) * minutesPerYear + d.inYear) % minutesPerYear = d.inYear :=
    place_eq h.inYear_bounds.1 h.inYear_bounds.2
  have month : d.inYear / minutesPerMonth = d.month - 1 ∧ d.inYear % minutesPerMonth = d.inMonth :=
    place_eq h.inMonth_bounds.1 h.inMonth_bounds.2
  have day : d.inMonth / minutesPerDay = d.day - 1 ∧ d.inMonth % minutesPerDay = d.inDay :=
    place_eq h.inDay_bounds.1 h.inDay_bounds.2
  have hour : d.inDay / minutesPerHour = d.hour ∧ d.inDay % minutesPerHour = d.minute :=
    place_eq h.minute.1 (Int.lt_add_one_of_le h.minute.2)
  simp only [ofMinutes, started, year, month, day, hour, Int.sub_add_cancel]

variable {t : Int}

theorem valid_ofMinutes (t : Int) : (ofMinutes t).Valid := by
  have start : 0 ≤ max 0 t := le_max_left 0 t
  constructor <;>
    simp only [ofMinutes, minutesPerHour, minutesPerYear, minutesPerMonth, minutesPerDay,
      Set.mem_Ici, Set.mem_Icc] <;> omega

/-- A moment is counted from its date. -/
theorem toMinutes_ofMinutes (start : 0 ≤ t) : (ofMinutes t).toMinutes = t := by
  have sinceStart : max 0 t = t := max_eq_right start
  have year := Int.ediv_mul_add_emod t minutesPerYear
  have month := Int.ediv_mul_add_emod (t % minutesPerYear) minutesPerMonth
  have day := Int.ediv_mul_add_emod (t % minutesPerYear % minutesPerMonth) minutesPerDay
  have hour := Int.ediv_mul_add_emod (t % minutesPerYear % minutesPerMonth % minutesPerDay)
    minutesPerHour
  simp only [toMinutes, spanMinutes, ofMinutes, sinceStart, Int.add_sub_cancel]
  rw [Int.add_assoc (_ + _ + _), hour, Int.add_assoc (_ + _), day, Int.add_assoc, month, year]

theorem hourOf_eq (start : 0 ≤ t) : hourOf t = (ofMinutes t).hour := by
  have sinceStart : max 0 t = t := max_eq_right start
  have months : minutesPerDay ∣ minutesPerMonth := Dvd.intro_left 30 rfl
  have years : minutesPerMonth ∣ minutesPerYear := Dvd.intro_left 12 rfl
  simp only [hourOf, ofMinutes, sinceStart, minutesPerHour]
  rw [Int.emod_emod_of_dvd _ years, Int.emod_emod_of_dvd _ months]

/-- No two moments have one date. -/
theorem eq_of_ofMinutes_eq {u : Int} (start : 0 ≤ t) (start' : 0 ≤ u)
    (same : ofMinutes t = ofMinutes u) : t = u := by
  rw [← toMinutes_ofMinutes start, same, toMinutes_ofMinutes start']

end Date

/-! ### Setting the clock -/

/-- A number of a range that is as near to another one as any. -/
def Clamped (range : Set Int) (n m : Int) : Prop := m ∈ range ∧ ∀ k ∈ range, |n - m| ≤ |n - k|

/-- The new value of a part of a date: the old one where none is given, else the one given, moved
into the range of the part. -/
def Settles (range : Set Int) (given : Option Int) (old new : Int) : Prop :=
  match given with
  | none => new = old
  | some n => Clamped range n new

/-- What becomes of the parts of a date when some are set. -/
structure DateChange.Sets (change : DateChange) (d e : Date) : Prop where
  year : Settles (Set.Ici 1) change.year d.year e.year
  month : Settles (Set.Icc 1 12) change.month d.month e.month
  day : Settles (Set.Icc 1 30) change.day d.day e.day
  hour : Settles (Set.Icc 0 23) change.hour d.hour e.hour
  minute : Settles (Set.Icc 0 59) change.minute d.minute e.minute

theorem clamped_ici (low n : Int) : Clamped (Set.Ici low) n (max low n) := by
  refine ⟨le_max_left low n, fun k above => ?_⟩
  have above : low ≤ k := above
  rcases abs_cases (n - max low n) with ⟨size, _⟩ | ⟨size, _⟩ <;>
    rcases abs_cases (n - k) with ⟨size', _⟩ | ⟨size', _⟩ <;> omega

theorem clamped_icc {low high : Int} (some_ : low ≤ high) (n : Int) :
    Clamped (Set.Icc low high) n (max low (min high n)) := by
  refine ⟨⟨le_max_left _ _, by omega⟩, fun k within => ?_⟩
  obtain ⟨above, below⟩ := within
  rcases abs_cases (n - max low (min high n)) with ⟨size, _⟩ | ⟨size, _⟩ <;>
    rcases abs_cases (n - k) with ⟨size', _⟩ | ⟨size', _⟩ <;> omega

section

variable {range : Set Int} {given : Option Int} {old new new' n m m' : Int}

/-- In a range without gaps one number is the nearest. -/
theorem Clamped.unique (gapless : range.OrdConnected) (h : Clamped range n m)
    (h' : Clamped range n m') : m = m' := by
  obtain ⟨member, nearest⟩ := h
  obtain ⟨member', nearest'⟩ := h'
  have equal : |n - m| = |n - m'| := le_antisymm (nearest m' member') (nearest' m member)
  rcases abs_eq_abs.mp equal with same | opposite
  · omega
  · -- the number lies halfway between the two, so it is in the range itself
    have inside : n ∈ range := by
      rcases le_total m m' with below | above
      · exact gapless.out member member' ⟨by omega, by omega⟩
      · exact gapless.out member' member ⟨by omega, by omega⟩
    have reached := nearest n inside
    rw [Int.sub_self, abs_zero] at reached
    have := abs_nonpos_iff.mp reached
    omega

theorem Settles.mem (h : Settles range given old new) (inside : old ∈ range) : new ∈ range := by
  cases given with
  | none => exact h ▸ inside
  | some n => exact h.1

theorem Settles.unique (gapless : range.OrdConnected) (h : Settles range given old new)
    (h' : Settles range given old new') : new = new' := by
  cases given with
  | none => exact h.trans h'.symm
  | some n => exact Clamped.unique gapless h h'

theorem settles_getD {f : Int → Int} (clamps : ∀ n, Clamped range n (f n)) :
    Settles range given old ((given.map f).getD old) := by
  cases given with
  | none => rfl
  | some n => exact clamps n

end

namespace DateChange

variable {change : DateChange} {d e e' : Date}

theorem apply_sets (change : DateChange) (d : Date) : change.Sets d (change.apply d) where
  year := settles_getD (clamped_ici 1)
  month := settles_getD (clamped_icc (by decide))
  day := settles_getD (clamped_icc (by decide))
  hour := settles_getD (clamped_icc (by decide))
  minute := settles_getD (clamped_icc (by decide))

namespace Sets

/-- A date of the calendar stays one. -/
theorem valid (h : change.Sets d e) (valid : d.Valid) : e.Valid where
  year := h.year.mem valid.year
  month := h.month.mem valid.month
  day := h.day.mem valid.day
  hour := h.hour.mem valid.hour
  minute := h.minute.mem valid.minute

theorem unique (h : change.Sets d e) (h' : change.Sets d e') : e = e' := by
  cases e
  cases e'
  rw [Date.mk.injEq]
  exact ⟨h.year.unique Set.ordConnected_Ici h'.year, h.month.unique Set.ordConnected_Icc h'.month,
    h.day.unique Set.ordConnected_Icc h'.day, h.hour.unique Set.ordConnected_Icc h'.hour,
    h.minute.unique Set.ordConnected_Icc h'.minute⟩

end Sets
end DateChange

/-- One moment has the date with the parts that are set. -/
theorem sets_ofMinutes_iff {t u : Int} (change : DateChange) (start : 0 ≤ u) :
    change.Sets (Date.ofMinutes t) (Date.ofMinutes u) ↔
      u = (change.apply (Date.ofMinutes t)).toMinutes := by
  have sets := change.apply_sets (Date.ofMinutes t)
  have valid := sets.valid (Date.valid_ofMinutes t)
  constructor
  · intro reached
    rw [← reached.unique sets, Date.toMinutes_ofMinutes start]
  · rintro rfl
    rwa [Date.ofMinutes_toMinutes valid]

/-- **The calendar is exact.** Moments and dates of the calendar are each other's reading, and the
hour of a moment is its date's. A clock that is set goes to the moment whose date has each part that
is given, moved into its range, and each other part as it is; only if that one has passed the clock
stays, as it does where no part is given. -/
theorem dates_are_exact :
    (∀ t, 0 ≤ t → (Date.ofMinutes t).Valid ∧ (Date.ofMinutes t).toMinutes = t ∧
      hourOf t = (Date.ofMinutes t).hour) ∧
    (∀ d : Date, d.Valid → 0 ≤ d.toMinutes ∧ Date.ofMinutes d.toMinutes = d) ∧
    ∀ t change, 0 ≤ t → setTime t {} = t ∧ ∃ target, 0 ≤ target ∧
      (∀ u, 0 ≤ u → (change.Sets (Date.ofMinutes t) (Date.ofMinutes u) ↔ u = target)) ∧
      setTime t change = max t target := by
  refine ⟨fun t start => ?_, fun d valid => ?_, fun t change start => ⟨?_, ?_⟩⟩
  · exact ⟨Date.valid_ofMinutes t, Date.toMinutes_ofMinutes start, Date.hourOf_eq start⟩
  · exact ⟨valid.toMinutes_nonneg, Date.ofMinutes_toMinutes valid⟩
  · have unchanged : ({} : DateChange).apply (Date.ofMinutes t) = Date.ofMinutes t := rfl
    rw [setTime_eq, unchanged, Date.toMinutes_ofMinutes start, max_self]
  · have valid := (change.apply_sets (Date.ofMinutes t)).valid (Date.valid_ofMinutes t)
    exact ⟨_, valid.toMinutes_nonneg, fun u => sets_ofMinutes_iff change, setTime_eq t change⟩

/-- The last minute of the second year, the moment of that date, and the clock set to a month in the
third year that no year has. -/
theorem dates_are_exact_new_year :
    let eve : Date := ⟨2, 12, 30, 23, 59⟩
    let change : DateChange := { year := some 3, month := some 99 }
    (0 ≤ (1036799 : Int) ∧ Date.ofMinutes 1036799 = eve ∧ eve.toMinutes = 1036799) ∧
      (eve.Valid ∧ Date.ofMinutes eve.toMinutes = eve) ∧ setTime 1036799 change = 1555199 := by
  intro eve change
  have start : (0 : Int) ≤ 1036799 := by decide
  have date : Date.ofMinutes 1036799 = eve := by decide
  have valid : eve.Valid := date ▸ (dates_are_exact.1 1036799 start).1
  have moment : eve.toMinutes = 1036799 := date ▸ (dates_are_exact.1 1036799 start).2.1
  refine ⟨⟨start, date, moment⟩, ⟨valid, (dates_are_exact.2.1 eve valid).2⟩, ?_⟩
  obtain ⟨target, _, only, set⟩ := (dates_are_exact.2.2 1036799 change start).2
  have later : change.apply (Date.ofMinutes 1036799) = Date.ofMinutes 1555199 := by decide
  have reached := (only 1555199 (by decide)).mp (later ▸ change.apply_sets _)
  rw [set, ← reached]
  decide

end Ascent
