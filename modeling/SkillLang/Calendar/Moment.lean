import SkillLang.Calendar.Date

/-!
# Moments

A moment is an instant together with the offset from universal time at which it is
told.  Two moments are equal when they are the same instant.  The fraction of a
second may exceed a second, which stands for a leap second.
-/

namespace SkillLang

structure Moment where
  /-- Seconds since the beginning of 1970 in universal time. -/
  seconds : Int
  nanos : Nat
  /-- Seconds east of universal time. -/
  offset : Int
deriving Repr

/-- A date and a time of day without an offset. -/
structure LocalTime where
  date : Date
  second : Nat
  nanos : Nat
deriving DecidableEq, Repr

namespace Moment

instance : BEq Moment := ⟨fun a b => a.seconds == b.seconds && a.nanos == b.nanos⟩

def secondsPerDay : Int := 86400

/-- The day on which a number of seconds falls is supported. -/
def inRange (seconds : Int) : Bool :=
  let day := seconds / secondsPerDay
  decide ((Date.mk Date.firstYear 1 1).dayNumber ≤ day ∧
    day ≤ (Date.mk Date.lastYear 12 31).dayNumber)

def ofLocal? (time : LocalTime) (offset : Int) : Option Moment :=
  let seconds := time.date.dayNumber * secondsPerDay + time.second - offset
  if inRange seconds then some ⟨seconds, time.nanos, offset⟩ else none

def toLocal (m : Moment) : LocalTime :=
  let seconds := m.seconds + m.offset
  ⟨Date.ofDayNumber (seconds / secondsPerDay), (seconds % secondsPerDay).toNat, m.nanos⟩

/-- The same instant told at another offset. -/
def atOffset (m : Moment) (offset : Int) : Moment :=
  { m with offset }

/-- Adds whole seconds; a leap second is left behind. -/
def addSeconds (m : Moment) (seconds : Int) : Moment :=
  if 1000000000 ≤ m.nanos then
    if 0 < seconds then { m with seconds := m.seconds + seconds, nanos := m.nanos - 1000000000 }
    else if seconds < 0 then
      { m with seconds := m.seconds + 1 + seconds, nanos := m.nanos - 1000000000 }
    else m
  else { m with seconds := m.seconds + seconds }

def nextMilli (m : Moment) : Moment :=
  if 1999000000 ≤ m.nanos then
    { m with seconds := m.seconds + 1, nanos := m.nanos - 1999000000 }
  else if 1000000000 ≤ m.nanos then { m with nanos := m.nanos + 1000000 }
  else if 999000000 ≤ m.nanos then
    { m with seconds := m.seconds + 1, nanos := m.nanos - 999000000 }
  else { m with nanos := m.nanos + 1000000 }

def previousMilli (m : Moment) : Moment :=
  if 1000000000 ≤ m.nanos then { m with nanos := m.nanos - 1000000 }
  else if 1000000 ≤ m.nanos then { m with nanos := m.nanos - 1000000 }
  else { m with seconds := m.seconds - 1, nanos := m.nanos + 999000000 }

end Moment

/-- A time of day on a date, if there is such a time. -/
def LocalTime.of? (date : Date) (hour minute second : Nat) : Option LocalTime :=
  if hour < 24 ∧ minute < 60 ∧ second < 60 then
    some ⟨date, hour * 3600 + minute * 60 + second, 0⟩
  else none

end SkillLang
