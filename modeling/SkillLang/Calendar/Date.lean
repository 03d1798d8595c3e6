/-!
# The calendar

Days of the proleptic Gregorian calendar, and their numbers, counted from the first
of January 1970.  For counting, a year begins on the first of March, so that the leap
day is its last day; four centuries of such years are 146097 days.
-/

namespace SkillLang

inductive Weekday where
  | monday | tuesday | wednesday | thursday | friday | saturday | sunday
deriving DecidableEq, Repr

namespace Weekday

/-- How many days after Monday. -/
def index : Weekday → Nat
  | monday => 0
  | tuesday => 1
  | wednesday => 2
  | thursday => 3
  | friday => 4
  | saturday => 5
  | sunday => 6

def name : Weekday → String
  | monday => "monday"
  | tuesday => "tuesday"
  | wednesday => "wednesday"
  | thursday => "thursday"
  | friday => "friday"
  | saturday => "saturday"
  | sunday => "sunday"

def all : List Weekday :=
  [monday, tuesday, wednesday, thursday, friday, saturday, sunday]

def ofName? (name : String) : Option Weekday :=
  all.find? fun day => day.name == name

end Weekday

structure Date where
  year : Int
  month : Nat
  day : Nat
deriving DecidableEq, Repr

namespace Date

def isLeapYear (year : Int) : Bool :=
  year % 4 == 0 && (year % 100 != 0 || year % 400 == 0)

def daysInMonth (year : Int) (month : Nat) : Nat :=
  match month with
  | 2 => if isLeapYear year then 29 else 28
  | 4 | 6 | 9 | 11 => 30
  | _ => 31

def firstYear : Int := -262143

def lastYear : Int := 262142

/-- The date is in the calendar and its year within the supported range. -/
def isValid (d : Date) : Bool :=
  decide (firstYear ≤ d.year ∧ d.year ≤ lastYear) &&
    decide (1 ≤ d.month ∧ d.month ≤ 12) &&
    decide (1 ≤ d.day ∧ d.day ≤ daysInMonth d.year d.month)

/-- The date of a year, a month and a day. -/
def of? (year : Int) (month day : Nat) : Option Date :=
  let d : Date := ⟨year, month, day⟩
  if d.isValid then some d else none

/-- Days from the first of March of the counting year zero to the first of March of a year. -/
def daysToMarch (year : Int) : Int :=
  365 * year + year / 4 - year / 100 + year / 400

/-- Days from the first of March to the first of the month that is `shifted` months later. -/
def daysFromMarch (shifted : Nat) : Nat :=
  (153 * shifted + 2) / 5

/-- The number of a day; the first of January 1970 has number zero. -/
def dayNumber (d : Date) : Int :=
  if d.month ≤ 2 then daysToMarch (d.year - 1) + daysFromMarch (d.month + 9) + d.day - 719469
  else daysToMarch d.year + daysFromMarch (d.month - 3) + d.day - 719469

/-- The counting year that holds a day, given by its distance from the first of March of year
zero, and the day's distance from the beginning of that year. -/
def countingYear (days : Int) : Int × Nat :=
  let cycle := days / 146097
  let inCycle := (days % 146097).toNat
  let century := min (inCycle / 36524) 3
  let inCentury := inCycle - 36524 * century
  let four := inCentury / 1461
  let inFour := inCentury - 1461 * four
  let single := min (inFour / 365) 3
  (400 * cycle + 100 * century + 4 * four + single, inFour - 365 * single)

def ofDayNumber (number : Int) : Date :=
  let (year, dayOfYear) := countingYear (number + 719468)
  let shifted := (5 * dayOfYear + 2) / 153
  let day := dayOfYear - daysFromMarch shifted + 1
  if shifted < 10 then ⟨year, shifted + 3, day⟩ else ⟨year + 1, shifted - 9, day⟩

/-- The day of the week as the distance from Monday. -/
def weekdayIndex (d : Date) : Nat :=
  ((d.dayNumber + 3) % 7).toNat

def addDays (d : Date) (days : Int) : Date :=
  ofDayNumber (d.dayNumber + days)

/-- The same day a number of months later, or the last day of that month if it is shorter. -/
def addMonths? (d : Date) (months : Nat) : Option Date :=
  let total := d.year * 12 + (d.month - 1 : Nat) + months
  let year := total / 12
  let month := (total % 12).toNat + 1
  of? year month (min d.day (daysInMonth year month))

end Date

end SkillLang
