import SkillLang.Calendar.Moment

/-!
# Constants with structure

Places, times of day, dates and entities.  Each has forms that depend on who says
them and when, and these are resolved only when the program runs.
-/

namespace SkillLang

inductive Place where
  | absolute (latitude longitude : Float) (display : Option String)
  /-- A place of the user, such as home. -/
  | relative (name : String)
  /-- A place that is known by its name only. -/
  | unresolved (name : String)
deriving BEq

namespace Place

def isAbsolute : Place → Bool
  | absolute _ _ _ => true
  | _ => false

end Place

inductive TimeOfDay where
  | absolute (hour minute second : Nat)
  /-- A time of the user, such as morning. -/
  | relative (name : String)
deriving DecidableEq

namespace TimeOfDay

def isAbsolute : TimeOfDay → Bool
  | absolute _ _ _ => true
  | _ => false

end TimeOfDay

/-- The beginning or the end of the current period of a unit of time. -/
inductive Edge where
  | startOf
  | endOf
deriving DecidableEq

inductive DateValue where
  | absolute (moment : Moment)
  | now
  | edge (edge : Edge) (unit : String)
  /-- A date of which parts are left to the day on which it is used. -/
  | piece (year : Option Int) (month day : Option Nat) (time : Option TimeOfDay)
  /-- The next day of that name, today included. -/
  | weekday (day : Weekday) (time : Option TimeOfDay)
deriving BEq

namespace DateValue

def isAbsolute : DateValue → Bool
  | absolute _ => true
  | _ => false

end DateValue

/-- An entity: its identifier, its type, and the name that it is shown by. -/
structure EntityRef where
  value : Option String
  kind : String
  display : Option String
deriving DecidableEq

end SkillLang
