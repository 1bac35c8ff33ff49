/-!
# Points in time

A point in time is written as a date and a time of day in universal time, such as
`2024-02-29T12:30:00+00:00`. A fraction of a second is given in microseconds, and left out where it
is zero.

Days are counted from the first of March of the year zero. A year that starts in March ends with its
leap day, so months, years and the periods of four hundred years start at regular distances.
-/

namespace EntityDiagram.CommandLine

/-- A day of the calendar. -/
structure Date where
  year : Nat
  month : Nat
  day : Nat
  deriving DecidableEq, Repr

/-- The number of days in four hundred years. -/
def daysPerEra : Nat := 146097

/-- The day that is so many days behind the first of January 1970. -/
def Date.ofDays (days : Nat) : Date :=
  let counted := days + 719468
  let inEra := counted % daysPerEra
  let yearOfEra := (inEra - inEra / 1460 + inEra / 36524 - inEra / 146096) / 365
  let inYear := inEra - (365 * yearOfEra + yearOfEra / 4 - yearOfEra / 100)
  let fromMarch := (5 * inYear + 2) / 153
  let month := if fromMarch < 10 then fromMarch + 3 else fromMarch - 9
  { year := 400 * (counted / daysPerEra) + yearOfEra + (if month ≤ 2 then 1 else 0)
    month
    day := inYear - (153 * fromMarch + 2) / 5 + 1 }

/-- A number with zeros in front, up to a width. -/
def padded (width n : Nat) : String :=
  let digits := Nat.toDigits 10 n
  String.ofList (List.replicate (width - digits.length) '0' ++ digits)

/-- The text of a date. -/
def Date.text (date : Date) : String :=
  padded 4 date.year ++ "-" ++ padded 2 date.month ++ "-" ++ padded 2 date.day

/-- A point in time: the microseconds since the start of the year 1970. -/
structure Moment where
  microseconds : Nat
  deriving DecidableEq, Repr

namespace Moment

/-- The whole seconds since the start of the year 1970. -/
def seconds (moment : Moment) : Nat :=
  moment.microseconds / 1000000

/-- The date of a point in time. -/
def date (moment : Moment) : Date :=
  .ofDays (moment.seconds / 86400)

/-- The text of a fraction of a second. -/
def fractionText (moment : Moment) : String :=
  let fraction := moment.microseconds % 1000000
  if fraction = 0 then "" else "." ++ padded 6 fraction

/-- The text of a point in time. -/
def text (moment : Moment) : String :=
  let inDay := moment.seconds % 86400
  moment.date.text ++ "T" ++ padded 2 (inDay / 3600) ++ ":" ++ padded 2 (inDay / 60 % 60) ++ ":" ++
    padded 2 (inDay % 60) ++ moment.fractionText ++ "+00:00"

end Moment

end EntityDiagram.CommandLine
