import SkillLang.Calendar.Timestamp
import SkillLang.Inspection.Basic
import SkillLang.Source.Range
import SkillLang.Syntax.Constant

/-!
# Inspected constants and ranges

Places, times of day, dates and entities with all their parts, and ranges of a source
with everything that is known about their ends.
-/

namespace SkillLang

def Place.inspection : Place → Inspection
  | .absolute latitude longitude display =>
    .record "Absolute" [
      ("latitude", .ofFloat latitude),
      ("longitude", .ofFloat longitude),
      ("display", .ofOption (display.map .quoted))]
  | .relative name => .form "Relative" [.quoted name]
  | .unresolved name => .record "Unresolved" [("name", .quoted name)]

def TimeOfDay.inspection : TimeOfDay → Inspection
  | .absolute hour minute second =>
    .record "Absolute" [
      ("hour", .ofNat hour), ("minute", .ofNat minute), ("second", .ofNat second)]
  | .relative name => .form "Relative" [.quoted name]

def Weekday.inspection : Weekday → Inspection
  | .monday => .word "Mon"
  | .tuesday => .word "Tue"
  | .wednesday => .word "Wed"
  | .thursday => .word "Thu"
  | .friday => .word "Fri"
  | .saturday => .word "Sat"
  | .sunday => .word "Sun"

def Edge.inspection : Edge → Inspection
  | .startOf => .word "StartOf"
  | .endOf => .word "EndOf"

def DateValue.inspection : DateValue → Inspection
  | .absolute moment => .form "Absolute" [.word moment.timestamp]
  | .now => .word "Now"
  | .edge side unit => .record "Edge" [("edge", side.inspection), ("unit", .quoted unit)]
  | .piece year month day time =>
    .record "Piece" [
      ("year", .ofOption (year.map .ofInt)),
      ("month", .ofOption (month.map .ofNat)),
      ("day", .ofOption (day.map .ofNat)),
      ("time", .ofOption (time.map TimeOfDay.inspection))]
  | .weekday day time =>
    .record "WeekDay" [
      ("weekday", day.inspection), ("time", .ofOption (time.map TimeOfDay.inspection))]

def EntityRef.inspection (e : EntityRef) : Inspection :=
  .record "EntityValue" [
    ("value", .ofOption (e.value.map .quoted)),
    ("ty", .quoted e.kind),
    ("display", .ofOption (e.display.map .quoted))]

def Location.inspection (l : Location) : Inspection :=
  .record "SourceLocation" [
    ("offset", .ofOption (l.offset.map .ofNat)),
    ("line", .ofOption (l.line.map .ofNat)),
    ("column", .ofOption (l.column.map .ofNat)),
    ("token", .ofOption (l.token.map .ofNat))]

def Range.inspection (r : Range) : Inspection :=
  .record "SourceRange" [("start", r.first.inspection), ("end", r.last.inspection)]

/-- The range of something in a source, if it has one. -/
def Range.optionInspection (range : Option Range) : Inspection :=
  .ofOption (range.map Range.inspection)

end SkillLang
