import Ascent.Text.Basic

/-!
Dates and times, as configurations hold them.

A moment is shown in digits, `2020-01-01 10:00:00+02:00`. Inside a list or a table it is shown as
the parts that it is made of.

Main exports: `Moment`, `Moment.text`, `Moment.inParts`.
-/

namespace Ascent

/-- A time of day; the millionths are those of a second. -/
structure TimeOfDay where
  hour : Nat
  minute : Nat
  second : Nat
  millionths : Nat := 0
deriving DecidableEq, Repr

/-- A day of the calendar. -/
structure Day where
  year : Nat
  month : Nat
  day : Nat
deriving DecidableEq, Repr

/-- A date, a time of day, or both. A time on a date may be one of a zone, which is so many minutes
ahead. -/
inductive Moment where
  | date (d : Day)
  | time (t : TimeOfDay)
  | dated (d : Day) (t : TimeOfDay) (zone : Option Int)
deriving DecidableEq, Repr

/-- A number padded with zeros in front. -/
def padded (width n : Nat) : String :=
  let digits := toString n
  String.ofList (List.replicate (width - digits.length) '0') ++ digits

namespace TimeOfDay

/-- A time of day in digits. -/
def text (t : TimeOfDay) : String :=
  let shown := padded 2 t.hour ++ ":" ++ padded 2 t.minute ++ ":" ++ padded 2 t.second
  if t.millionths = 0 then shown else shown ++ "." ++ padded 6 t.millionths

/-- The parts of a time of day; zeros at the end are left out, but for the minutes. -/
def parts (t : TimeOfDay) : List Nat :=
  [t.hour, t.minute] ++
    (if t.second = 0 ∧ t.millionths = 0 then []
    else t.second :: (if t.millionths = 0 then [] else [t.millionths]))

end TimeOfDay

namespace Day

/-- A date in digits. -/
def text (d : Day) : String := padded 4 d.year ++ "-" ++ padded 2 d.month ++ "-" ++ padded 2 d.day

/-- The parts of a date. -/
def parts (d : Day) : List Nat := [d.year, d.month, d.day]

end Day

namespace Moment

/-- A zone in digits. -/
def zoneText (minutes : Int) : String :=
  (if minutes < 0 then "-" else "+") ++ padded 2 (minutes.natAbs / 60) ++ ":"
    ++ padded 2 (minutes.natAbs % 60)

/-- A moment in digits. -/
def text : Moment → String
  | .date d => d.text
  | .time t => t.text
  | .dated d t zone => d.text ++ " " ++ t.text ++ (zone.map zoneText).getD ""

/-- A name with what it is made of. -/
def madeOf (name : String) (parts : List String) : String :=
  "datetime." ++ name ++ "(" ++ Text.joinWith ", " parts ++ ")"

/-- A zone in parts. One that lags behind is a day back and some seconds ahead. -/
def zoneInParts (minutes : Int) : String :=
  if minutes = 0 then "datetime.timezone.utc"
  else
    let back := if minutes < 0 then ["days=-1"] else []
    let seconds := (if minutes < 0 then 1440 + minutes else minutes) * 60
    madeOf "timezone" [madeOf "timedelta" (back ++ [s!"seconds={seconds}"])]

/-- A moment in parts. -/
def inParts : Moment → String
  | .date d => madeOf "date" (d.parts.map toString)
  | .time t => madeOf "time" (t.parts.map toString)
  | .dated d t zone =>
    madeOf "datetime" ((d.parts ++ t.parts).map toString
      ++ (zone.map fun z => "tzinfo=" ++ zoneInParts z).toList)

end Moment
end Ascent
