import SkillLang.Entities.Basic
import SkillLang.Json.Decode
import SkillLang.Json.Printer

/-!
# Entities in JSON

The form of an entity tells what it is: numbers and strings are themselves, and an
object is the first kind of entity whose fields it has.  Other fields are ignored.
-/

namespace SkillLang.Entity

def textJson : Option String → Json
  | some text => .str text
  | none => .null

def toJson : Entity → Json
  | number x => .float x
  | string s => .str s
  | time hour minute second =>
    .obj [("hour", .int hour), ("minute", .int minute), ("second", .int second)]
  | measure x unit => .obj [("value", .float x), ("unit", .str unit)]
  | currency x code => .obj [("value", .float x), ("code", .str code)]
  | location latitude longitude display =>
    .obj [("latitude", .float latitude), ("longitude", .float longitude),
      ("display", textJson display)]
  | generic value display => .obj [("value", textJson value), ("display", textJson display)]

def asFloat? : Json → Option Float
  | .int n => some (Float.ofInt n)
  | .float x => some x
  | _ => none

/-- A number of 32 bits. -/
def asWord? : Json → Option Nat
  | .int n => if 0 ≤ n ∧ n < Nat.pow 2 32 then some n.toNat else none
  | _ => none

def time? (value : Json) : Option Entity :=
  match value.fields? ["hour", "minute", "second"] with
  | some [hour, minute, second] => do
    return time (← Json.required asWord? hour) (← Json.required asWord? minute)
      (← Json.defaulted 0 asWord? second)
  | _ => none

def measure? (value : Json) : Option Entity :=
  match value.fields? ["value", "unit"] with
  | some [x, unit] => do
    return measure (← Json.required asFloat? x) (← Json.required Json.asString? unit)
  | _ => none

def currency? (value : Json) : Option Entity :=
  match value.fields? ["value", "code"] with
  | some [x, code] => do
    return currency (← Json.required asFloat? x) (← Json.required Json.asString? code)
  | _ => none

def optionalText? (field : Option Json) : Option (Option String) :=
  Json.defaulted none (Json.nullable Json.asString?) field

def location? (value : Json) : Option Entity :=
  match value.fields? ["latitude", "longitude", "display"] with
  | some [latitude, longitude, display] => do
    return location (← Json.required asFloat? latitude) (← Json.required asFloat? longitude)
      (← optionalText? display)
  | _ => none

def generic? (value : Json) : Option Entity :=
  match value.fields? ["value", "display"] with
  | some [identifier, display] => do
    return generic (← optionalText? identifier) (← optionalText? display)
  | _ => none

def ofJson? : Json → Option Entity
  | .int n => some (number (Float.ofInt n))
  | .float x => some (number x)
  | .str s => some (string s)
  | .obj members =>
    let value := Json.obj members
    (time? value).or <| (measure? value).or <| (currency? value).or <|
      (location? value).or (generic? value)
  | _ => none

def kind : Entity → String
  | number _ => "Number"
  | string _ => "String"
  | time _ _ _ => "Time"
  | measure _ _ => "Measure"
  | currency _ _ => "Currency"
  | location _ _ _ => "Location"
  | generic _ _ => "Generic"

end SkillLang.Entity

namespace SkillLang.EntityMap

def toJson (entities : EntityMap) : Json :=
  .obj (entities.mapValues Entity.toJson)

/-- An entity map on one line. -/
def describe (entities : EntityMap) : String :=
  (toJson entities).write

end SkillLang.EntityMap
