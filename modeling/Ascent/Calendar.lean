/-!
The calendar: twelve months of thirty days, counted in minutes from the first moment.

A moment is a number of minutes; a date is its year, month and day from one on and its hour and
minute. `Date.ofMinutes` and `Date.toMinutes` go from one to the other. Time never runs backwards.

Main exports: `Date`, `Date.ofMinutes`, `Date.toMinutes`, `advance`, `setTime`, `showTime`.
-/

namespace Ascent

/-- Minutes in an hour. -/
def minutesPerHour : Int := 60
/-- Minutes in a day. -/
def minutesPerDay : Int := 1440
/-- Minutes in a month. -/
def minutesPerMonth : Int := 30 * minutesPerDay
/-- Minutes in a year. -/
def minutesPerYear : Int := 12 * minutesPerMonth

/-- The longest stretch of time that one command may pass over: five years. -/
def maxAdvance : Int := 5 * minutesPerYear

/-- A moment by the calendar; year, month and day count from one. -/
structure Date where
  year : Int
  month : Int
  day : Int
  hour : Int
  minute : Int
deriving DecidableEq, Repr

/-- A length of time in minutes. -/
def spanMinutes (years months days hours minutes : Int) : Int :=
  years * minutesPerYear + months * minutesPerMonth + days * minutesPerDay
    + hours * minutesPerHour + minutes

namespace Date

/-- The date of a moment; moments before the first one count as the first. -/
def ofMinutes (total : Int) : Date :=
  let total := max 0 total
  let inYear := total % minutesPerYear
  let inMonth := inYear % minutesPerMonth
  let inDay := inMonth % minutesPerDay
  { year := total / minutesPerYear + 1
    month := inYear / minutesPerMonth + 1
    day := inMonth / minutesPerDay + 1
    hour := inDay / minutesPerHour
    minute := inDay % minutesPerHour }

/-- The moment of a date. -/
def toMinutes (d : Date) : Int := spanMinutes (d.year - 1) (d.month - 1) (d.day - 1) d.hour d.minute

end Date

/-- The parts of a date that are to be set. -/
structure DateChange where
  year : Option Int := none
  month : Option Int := none
  day : Option Int := none
  hour : Option Int := none
  minute : Option Int := none
deriving DecidableEq, Repr

/-- A date with parts of it set, each kept within its range. -/
def DateChange.apply (change : DateChange) (d : Date) : Date :=
  { year := (change.year.map (max 1 ·)).getD d.year
    month := (change.month.map fun m => max 1 (min 12 m)).getD d.month
    day := (change.day.map fun n => max 1 (min 30 n)).getD d.day
    hour := (change.hour.map fun h => max 0 (min 23 h)).getD d.hour
    minute := (change.minute.map fun m => max 0 (min 59 m)).getD d.minute }

/-- The moment some minutes on, forward and within one command's bound. -/
def advance (now minutes : Int) : Int := now + max 0 (min maxAdvance minutes)

/-- The moment with parts of its date set, unless that lies in the past. -/
def setTime (now : Int) (change : DateChange) : Int :=
  let target := (change.apply (Date.ofMinutes now)).toMinutes
  if target < now then now else target

/-- The hour of the day. -/
def hourOf (total : Int) : Int := total % minutesPerDay / 60

/-- The parts of the day: the first hour, the hour after the last, and the name. -/
def dayParts : List (Int × Int × String) :=
  [(5, 8, "dawn"), (8, 12, "morning"), (12, 14, "midday"), (14, 17, "afternoon"),
   (17, 20, "evening"), (20, 23, "night")]

/-- The part of the day; what remains is the late night. -/
def periodOf (total : Int) : String :=
  ((dayParts.find? fun (first, stop, _) => first ≤ hourOf total && hourOf total < stop).map
    (·.2.2)).getD "late_night"

/-- The name of a part of the day as it begins a sentence. -/
def periodTitle (period : String) : String :=
  if period = "late_night" then "Late Night"
  else match period.toList with
    | [] => ""
    | c :: rest => String.ofList (c.toUpper :: rest)

/-- A number of two digits at least. -/
def twoDigits (n : Int) : String := if 0 ≤ n ∧ n < 10 then s!"0{n}" else s!"{n}"

/-- A moment in words: `Morning, Day 2 Month 1 Year 1 (8:30)`. -/
def showTime (total : Int) : String :=
  let d := Date.ofMinutes total
  s!"{periodTitle (periodOf total)}, Day {d.day} Month {d.month} Year {d.year} "
    ++ s!"({d.hour}:{twoDigits d.minute})"

end Ascent
