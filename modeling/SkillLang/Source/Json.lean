import SkillLang.Calendar.Timestamp
import SkillLang.Json.Basic
import SkillLang.Log.Event
import SkillLang.Source.Value
import SkillLang.Types.Units

/-!
# Constants in JSON

A constant is handed to the running program in JSON.  Measures are converted to their
base unit, and dates, times and types are given as texts.
-/

namespace SkillLang

/-- A value has no JSON form because it is not constant. -/
structure NotConstant where
  /-- The source of the value. -/
  source : String
deriving DecidableEq

instance : Diagnostic NotConstant where
  kind _ := "NonConstant"
  code _ := .nonConstantValue
  message e := "Value '" ++ excerpt e.source ++ "' is not a constant"
  range _ := none

def optionalText : Option String → Json
  | some text => .str text
  | none => .null

namespace Value

def notConstant (v : Value) : NotConstant :=
  ⟨v.source.text⟩

/-- A number in JSON, which has none for those that are not finite. -/
def jsonNumber (x : Float) : Json :=
  if Decimal.isFinite x then .float x else .null

def timeText (hour minute second : Nat) : String :=
  Moment.padded 2 hour ++ ":" ++ Moment.padded 2 minute ++ ":" ++ Moment.padded 2 second

def scalarJson (v : Value) : Except NotConstant Json :=
  match v with
  | boolean b => .ok (.bool b)
  | string s => .ok (.str s)
  | enum entry => .ok (.str entry)
  | number x => .ok (jsonNumber x)
  | measure x unit => .ok (jsonNumber (MeasureUnit.toBase x unit))
  | currency x code => .ok (.obj [("code", .str code), ("value", jsonNumber x)])
  | place (.absolute latitude longitude display) =>
    .ok (.obj [("display", optionalText display), ("latitude", jsonNumber latitude),
      ("longitude", jsonNumber longitude)])
  | date (.absolute moment) => .ok (.str moment.timestamp)
  | time (.absolute hour minute second) => .ok (.str (timeText hour minute second))
  | entity e => .ok (.obj [("display", optionalText e.display), ("value", optionalText e.value)])
  | argMap args => .ok (.obj (args.map fun (name, type) => (name, .str type.display)))
  | v => .error v.notConstant

mutual
def toJson (v : Value) : Except NotConstant Json :=
  if v.isConstant then
    match v with
    | array values _ => do return .arr (← toJsonList values)
    | object fields => do return .obj (← toJsonFields fields)
    | v => scalarJson v
  else .error v.notConstant
termination_by structural v

def toJsonList (values : List Value) : Except NotConstant (List Json) :=
  match values with
  | [] => .ok []
  | value :: values => do return (← toJson value) :: (← toJsonList values)
termination_by structural values

def toJsonFields (fields : List (String × Value)) : Except NotConstant (List (String × Json)) :=
  match fields with
  | [] => .ok []
  | (name, value) :: fields => do return (name, ← toJson value) :: (← toJsonFields fields)
termination_by structural fields
end

end Value

end SkillLang
