import SkillLang.Calendar.Moment
import SkillLang.Syntax.Constant

/-!
# Resolving dates

A date that depends on the present is resolved against the moment at which it is used.
Missing parts of a date are taken from that moment; the beginning of the current
period of a unit is found by truncating the local time, and its end is one millisecond
before the next period begins.
-/

namespace SkillLang

namespace Moment

/-- Midnight of a date at the offset of a moment. -/
def midnight? (m : Moment) (date : Date) : Option Moment :=
  ofLocal? ⟨date, 0, 0⟩ m.offset

/-- The beginning of the period of a unit that a moment falls into. -/
def startOf? (m : Moment) (unit : String) : Option Moment :=
  let t := m.toLocal
  match unit with
  | "ms" => ofLocal? t m.offset
  | "s" => ofLocal? ⟨t.date, t.second, 0⟩ m.offset
  | "min" => ofLocal? ⟨t.date, t.second / 60 * 60, 0⟩ m.offset
  | "h" => ofLocal? ⟨t.date, t.second / 3600 * 3600, 0⟩ m.offset
  | "day" => m.midnight? t.date
  | "week" => m.midnight? (t.date.addDays (-(t.date.weekdayIndex : Int)))
  | "mon" => m.midnight? { t.date with day := 1 }
  | "year" => m.midnight? { t.date with month := 1, day := 1 }
  | _ => none

def addMonths? (m : Moment) (months : Nat) : Option Moment := do
  let t := m.toLocal
  ofLocal? { t with date := ← t.date.addMonths? months } m.offset

/-- The beginning of the period of a unit that follows the one that begins at a moment. -/
def nextPeriod? (start : Moment) (unit : String) : Option Moment :=
  match unit with
  | "ms" => some start.nextMilli
  | "s" => some (start.addSeconds 1)
  | "min" => some (start.addSeconds 60)
  | "h" => some (start.addSeconds 3600)
  | "day" => some (start.addSeconds 86400)
  | "week" => some (start.addSeconds (7 * 86400))
  | "mon" => start.addMonths? 1
  | "year" => start.addMonths? 12
  | _ => none

/-- The time of day on a date at the offset of a moment; without a time, midnight. -/
def onDate? (m : Moment) (date : Date) : Option TimeOfDay → Option Moment
  | none => m.midnight? date
  | some (.absolute hour minute second) => do
    ofLocal? (← LocalTime.of? date hour minute second) m.offset
  | some (.relative _) => none

end Moment

/-- The moment that a date stands for at the moment `now`. -/
def DateValue.resolve (now : Moment) : DateValue → Option Moment
  | absolute moment => some moment
  | .now => some now
  | edge .startOf unit => now.startOf? unit
  | edge .endOf unit => do
    return (← (← now.startOf? unit).nextPeriod? unit).previousMilli
  | piece year month day time => do
    let today := now.toLocal.date
    let defaultDay := if month.isSome then 1 else today.day
    let date ← Date.of? (year.getD today.year) (month.getD today.month) (day.getD defaultDay)
    now.onDate? date time
  | weekday day time =>
    let today := now.toLocal.date
    let ahead := (7 + day.index - today.weekdayIndex) % 7
    now.onDate? (today.addDays ahead) time

end SkillLang
