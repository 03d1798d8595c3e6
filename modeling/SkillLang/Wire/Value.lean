import SkillLang.Syntax.Value
import SkillLang.Wire.Basic

/-!
# Values and filters in the wire form

A value names its form in the member `v`, a filter in the member `b`.  A selector is
an object, but a text is also read: the word `builtin`, or the class of a device.
-/

namespace SkillLang

namespace Wire

/-- The members of everything that may be annotated. -/
def placeOf (range : Option Range) : List (String × Json) :=
  given "range" Range.toWire range

def schemaOf (schema : Option Signature) : List (String × Json) :=
  given "schema" Signature.toWire schema

def typeOf (type : Option Ty) : List (String × Json) :=
  given "type" Ty.textToWire type

def overloadOf (overload : Option (List Ty)) : List (String × Json) :=
  given "overload" (list Ty.textToWire) overload

def typeAt (j : Json) : FromWire (Option Ty) := field? Ty.ofWire j "type"

def overloadAt (j : Json) : FromWire (Option (List Ty)) :=
  field? (asItems Ty.ofWire) j "overload"

def schemaAt (j : Json) : FromWire (Option Signature) := field? Signature.ofWire j "schema"

end Wire

open Wire

/-! ## Constants -/

namespace TimeOfDay

def members : TimeOfDay → List (String × Json)
  | absolute hour minute second =>
    [("hour", natural hour), ("minute", natural minute), ("second", natural second)]
  | relative name => [("relative", text name)]

def toWire (t : TimeOfDay) : Json := .obj t.members

def ofWire (j : Json) : FromWire TimeOfDay := do
  match ← field? asText j "relative" with
  | some name => return relative name
  | none =>
    return absolute (← natAt j "hour") (← natAt j "minute")
      ((← field? asNat j "second").getD 0)

end TimeOfDay

namespace DateValue

def edges : List (String × Edge) :=
  [("start_of", .startOf), ("end_of", .endOf)]

def edgeName : Edge → String
  | .startOf => "start_of"
  | .endOf => "end_of"

def toWire : DateValue → Json
  | absolute moment => .obj [("v", text "date"), ("at", text moment.timestamp)]
  | now => .obj [("v", text "now")]
  | edge e unit => .obj [("v", text "edge"), ("edge", text (edgeName e)), ("unit", text unit)]
  | piece year month day time =>
    .obj ([("v", text "piece")] ++ given "year" .int year ++ given "month" natural month ++
      given "day" natural day ++ given "time" TimeOfDay.toWire time)
  | weekday day time =>
    .obj ([("v", text "weekday"), ("weekday", text day.name)] ++
      given "time" TimeOfDay.toWire time)

def asWeekday (j : Json) : FromWire Weekday := do
  match Weekday.ofName? (← asText j) with
  | some day => return day
  | none => .error .malformed

def ofWire (j : Json) : FromWire DateValue := do
  match ← textAt j "v" with
  | "date" => return absolute (← field asMoment j "at")
  | "now" => return now
  | "edge" => return edge (← field (word edges) j "edge") (← textAt j "unit")
  | "piece" =>
    return piece (← field? asInt j "year") (← field? asNat j "month") (← field? asNat j "day")
      (← field? TimeOfDay.ofWire j "time")
  | "weekday" =>
    return weekday (← field asWeekday j "weekday") (← field? TimeOfDay.ofWire j "time")
  | _ => .error .malformed

end DateValue

namespace Place

def toWire : Place → Json
  | absolute latitude longitude display =>
    .obj ([("v", text "location"), ("latitude", float latitude),
      ("longitude", float longitude)] ++ given "display" text display)
  | relative name => .obj [("v", text "location"), ("relative", text name)]
  | unresolved name => .obj [("v", text "location"), ("name", text name)]

def ofWire (j : Json) : FromWire Place := do
  match ← field? asText j "relative", ← field? asText j "name" with
  | some name, _ => return relative name
  | none, some name => return unresolved name
  | none, none =>
    return absolute (← floatAt j "latitude") (← floatAt j "longitude")
      (← field? asText j "display")

end Place

def EntityRef.toWire (e : EntityRef) : Json :=
  .obj ([("v", text "entity"), ("type", text e.kind)] ++ given "value" text e.value ++
    given "display" text e.display)

def EntityRef.ofWire (j : Json) : FromWire EntityRef := do
  return ⟨← field? asText j "value", ← textAt j "type", ← field? asText j "display"⟩

/-! ## Writing -/

mutual

def Value.toWire : Value → Json
  | .array values type =>
    .obj ([("v", text "array"), ("values", .arr (Value.listToWire values))] ++ Wire.typeOf type)
  | .var name type => .obj ([("v", text "var"), ("name", text name)] ++ Wire.typeOf type)
  | .computation op operands overload type =>
    .obj ([("v", text "computation"), ("op", text op),
      ("operands", .arr (Value.listToWire operands))] ++ overloadOf overload ++ Wire.typeOf type)
  | .field value name type =>
    .obj ([("v", text "field"), ("value", value.toWire), ("field", text name)] ++
      Wire.typeOf type)
  | .filtered value filter type =>
    .obj ([("v", text "filter"), ("value", value.toWire), ("filter", filter.toWire)] ++
      Wire.typeOf type)
  | .undefined isLocal => .obj [("v", text "undefined"), ("local", .bool isLocal)]
  | .context name type =>
    .obj [("v", text "context"), ("name", text name), ("type", type.textToWire)]
  | .boolean b => .obj [("v", text "boolean"), ("value", .bool b)]
  | .string s => .obj [("v", text "string"), ("value", text s)]
  | .number x => .obj [("v", text "number"), ("value", float x)]
  | .measure x unit => .obj [("v", text "measure"), ("value", float x), ("unit", text unit)]
  | .currency x code => .obj [("v", text "currency"), ("value", float x), ("code", text code)]
  | .place p => p.toWire
  | .date d => d.toWire
  | .time t => .obj (("v", text "time") :: t.members)
  | .entity e => e.toWire
  | .enum entry => .obj [("v", text "enum"), ("value", text entry)]
  | .event name => .obj (("v", text "event") :: given "name" text name)
  | .argMap args =>
    .obj [("v", text "argmap"), ("args", .obj (Keyed.mapValues Ty.textToWire args))]
  | .object fields => .obj [("v", text "object"), ("fields", .obj (Value.fieldsToWire fields))]

def Value.listToWire : List Value → List Json
  | [] => []
  | value :: values => value.toWire :: Value.listToWire values

def Value.fieldsToWire : List (String × Value) → List (String × Json)
  | [] => []
  | (name, value) :: fields => (name, value.toWire) :: Value.fieldsToWire fields

def Filter.toWire : Filter → Json
  | .always => .obj [("b", text "true")]
  | .never => .obj [("b", text "false")]
  | .conj range operands =>
    .obj ([("b", text "and"), ("operands", .arr (Filter.listToWire operands))] ++ placeOf range)
  | .disj range operands =>
    .obj ([("b", text "or"), ("operands", .arr (Filter.listToWire operands))] ++ placeOf range)
  | .neg range operand => .obj ([("b", text "not"), ("expr", operand.toWire)] ++ placeOf range)
  | .atom range name op value overload =>
    .obj ([("b", text "atom"), ("name", text name), ("op", text op), ("value", value.toWire)] ++
      overloadOf overload ++ placeOf range)
  | .compute range lhs op rhs overload =>
    .obj ([("b", text "compute"), ("lhs", lhs.toWire), ("op", text op), ("rhs", rhs.toWire)] ++
      overloadOf overload ++ placeOf range)
  | .dontCare range name => .obj ([("b", text "dontcare"), ("name", text name)] ++ placeOf range)
  | .external ⟨selector, channel, params, range, schema⟩ filter =>
    .obj ([("b", text "external"), ("selector", selector.toWire), ("channel", text channel),
        ("params", .arr (Param.listToWire params)), ("filter", filter.toWire)] ++
      schemaOf schema ++ placeOf range)

def Filter.listToWire : List Filter → List Json
  | [] => []
  | operand :: operands => operand.toWire :: Filter.listToWire operands

def Param.listToWire : List Param → List Json
  | [] => []
  | ⟨name, value, range⟩ :: params =>
    .obj ([("name", text name), ("value", value.toWire)] ++ placeOf range) ::
      Param.listToWire params

def Device.toWire : Device → Json
  | ⟨kind, id, attributes, all, range⟩ =>
    .obj ([("kind", text kind)] ++ given "id" text id ++
      (if attributes.isEmpty then [] else [("attributes", .arr (Param.listToWire attributes))]) ++
      (if all then [("all", .bool true)] else []) ++ placeOf range)

def Selector.toWire : Selector → Json
  | .builtin => text "builtin"
  | .device d => d.toWire

end

def Invocation.toWire (i : Invocation) : Json :=
  .obj ([("selector", i.selector.toWire), ("channel", text i.channel),
      ("params", .arr (Param.listToWire i.params))] ++ placeOf i.range ++ schemaOf i.schema)

/-! ## Reading -/

mutual

def Value.ofWire (j : Json) : FromWire Value := do
  match ← textAt j "v" with
  | "array" =>
    let values ← (← j.parts "values").mapM fun ⟨value, _⟩ => Value.ofWire value
    return .array values (← typeAt j)
  | "var" => return .var (← textAt j "name") (← typeAt j)
  | "computation" =>
    let operands ← (← j.parts "operands").mapM fun ⟨value, _⟩ => Value.ofWire value
    return .computation (← textAt j "op") operands (← overloadAt j) (← typeAt j)
  | "field" =>
    let ⟨value, _⟩ ← j.part "value"
    return .field (← Value.ofWire value) (← textAt j "field") (← typeAt j)
  | "filter" =>
    let ⟨value, _⟩ ← j.part "value"
    let ⟨filter, _⟩ ← j.part "filter"
    return .filtered (← Value.ofWire value) (← Filter.ofWire filter) (← typeAt j)
  | "undefined" => return .undefined (← boolAt j "local" true)
  | "context" => return .context (← textAt j "name") (← field Ty.ofWire j "type")
  | "boolean" => return .boolean (← boolAt j "value" false)
  | "string" => return .string (← textAt j "value")
  | "number" => return .number (← floatAt j "value")
  | "measure" => return .measure (← floatAt j "value") (← textAt j "unit")
  | "currency" => return .ofMoney (← floatAt j "value") (← textAt j "code")
  | "location" => return .place (← Place.ofWire j)
  | "time" => return .time (← TimeOfDay.ofWire j)
  | "entity" => return .entity (← EntityRef.ofWire j)
  | "enum" => return .enum (← textAt j "value")
  | "event" => return .event (← field? asText j "name")
  | "argmap" => return .argMap (← namedFields Ty.ofWire j "args")
  | "object" =>
    let fields ← (← j.namedParts "fields").mapM fun (name, ⟨value, _⟩) => do
      return (name, ← Value.ofWire value)
    return .object (Keyed.ofList fields)
  | _ => return .date (← DateValue.ofWire j)
termination_by sizeOf j

def Filter.ofWire (j : Json) : FromWire Filter := do
  let range ← rangeAt j
  match ← textAt j "b" with
  | "true" => return .always
  | "false" => return .never
  | "and" =>
    return .conj range (← (← j.parts "operands").mapM fun ⟨operand, _⟩ => Filter.ofWire operand)
  | "or" =>
    return .disj range (← (← j.parts "operands").mapM fun ⟨operand, _⟩ => Filter.ofWire operand)
  | "not" =>
    let ⟨operand, _⟩ ← j.part "expr"
    return .neg range (← Filter.ofWire operand)
  | "atom" =>
    let ⟨value, _⟩ ← j.part "value"
    return .atom range (← textAt j "name") (← textAt j "op") (← Value.ofWire value)
      (← overloadAt j)
  | "compute" =>
    let ⟨lhs, _⟩ ← j.part "lhs"
    let ⟨rhs, _⟩ ← j.part "rhs"
    return .compute range (← Value.ofWire lhs) (← textAt j "op") (← Value.ofWire rhs)
      (← overloadAt j)
  | "dontcare" => return .dontCare range (← textAt j "name")
  | "external" =>
    let ⟨selector, _⟩ ← j.part "selector"
    let params ← (← j.parts "params").mapM fun ⟨param, _⟩ => Param.ofWire param
    let filter ← (j.part? "filter").mapM fun ⟨filter, _⟩ => Filter.ofWire filter
    return .external ⟨← Selector.ofWire selector, ← textAt j "channel", params, range,
      ← schemaAt j⟩ (filter.getD .always)
  | _ => .error .malformed
termination_by sizeOf j

def Param.ofWire (j : Json) : FromWire Param := do
  let ⟨value, _⟩ ← j.part "value"
  return ⟨← textAt j "name", ← Value.ofWire value, ← rangeAt j⟩
termination_by sizeOf j

def Selector.ofWire (j : Json) : FromWire Selector := do
  match j with
  | .str "builtin" => return .builtin
  | .str kind => return .device (.ofKind kind)
  | j =>
    let attributes ← (← j.parts "attributes").mapM fun ⟨param, _⟩ => Param.ofWire param
    return .device ⟨← textAt j "kind", ← field? asText j "id", attributes,
      ← boolAt j "all" false, ← rangeAt j⟩
termination_by sizeOf j

end

def Invocation.ofWire (j : Json) : FromWire Invocation := do
  return ⟨← field Selector.ofWire j "selector", ← textAt j "channel",
    ← fields Param.ofWire j "params", ← rangeAt j, ← schemaAt j⟩

end SkillLang
