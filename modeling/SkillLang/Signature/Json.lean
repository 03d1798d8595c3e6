import SkillLang.Signature.Basic
import SkillLang.Json.Decode
import SkillLang.Json.Shape
import SkillLang.Types.Text

/-!
# Signatures in JSON

The form in which signatures are stored.  Types are written in their syntax, and parts
that are missing have their defaults.
-/

namespace SkillLang

def FunctionType.choices : List (String × FunctionType) :=
  [("stream", .stream), ("query", .query), ("action", .action)]

def Direction.choices : List (String × Direction) :=
  [("in_req", .inReq), ("in_opt", .inOpt), ("out", .out)]

def Direction.key : Direction → String
  | .inReq => "in_req"
  | .inOpt => "in_opt"
  | .out => "out"

def Ty.ofJson? (value : Json) : Option Ty := do
  (Ty.parse (← value.asString?)).toOption

def annotationsOfJson? : Json → Option (Keyed Json)
  | .obj members => some (Keyed.ofList (Json.normalizeMembers members))
  | _ => none

namespace Argument

/-- The parts of a value that an argument is made from. -/
def shape : Json.Shape :=
  .record [("name", .whole), ("direction", .whole), ("type", .whole), ("unique", .whole),
    ("required_if", .whole), ("annotations", .whole)]

def ofJson? (value : Json) : Option Argument := do
  match ← value.fields? ["name", "direction", "type", "unique", "required_if", "annotations"] with
  | [name, direction, type, unique, requiredIf, annotations] =>
    return {
      name := ← Json.required Json.asString? name
      direction := ← Json.required (Json.choice Direction.choices) direction
      type := ← Json.required Ty.ofJson? type
      unique := ← Json.defaulted false Json.asBool? unique
      requiredIf := ← Json.defaulted [] (Json.listOf Json.asString?) requiredIf
      annotations := ← Json.defaulted [] annotationsOfJson? annotations }
  | _ => none

def toJson (a : Argument) : Json :=
  .obj <| [("name", .str a.name), ("direction", .str a.direction.key),
      ("type", .str a.type.display), ("unique", .bool a.unique)] ++
    (if a.requiredIf.isEmpty then [] else [("required_if", .arr (a.requiredIf.map .str))]) ++
    (if a.annotations.isEmpty then [] else [("annotations", .obj a.annotations)])

end Argument

namespace Signature

/-- The parts of a value that a signature is made from. -/
def shape : Json.Shape :=
  .record [("function_type", .whole), ("class", .whole), ("name", .whole),
    ("args", .list Argument.shape), ("is_list", .whole), ("is_monitorable", .whole),
    ("require_either", .whole), ("annotations", .whole)]

def ofJson? (value : Json) : Option Signature := do
  match ← value.fields? ["function_type", "class", "name", "args", "is_list", "is_monitorable",
      "require_either", "annotations"] with
  | [type, device, name, args, isList, isMonitorable, requireEither, annotations] =>
    return {
      type := ← Json.required (Json.choice FunctionType.choices) type
      device := ← Json.defaulted none (Json.nullable Json.asString?) device
      name := ← Json.required Json.asString? name
      args := ← Json.defaulted [] (Json.listOf Argument.ofJson?) args
      isList := ← Json.defaulted false Json.asBool? isList
      isMonitorable := ← Json.defaulted false Json.asBool? isMonitorable
      requireEither := ← Json.defaulted [] (Json.listOf (Json.listOf Json.asString?)) requireEither
      annotations := ← Json.defaulted [] annotationsOfJson? annotations }
  | _ => none

def requireEitherJson (s : Signature) : Json :=
  .arr (s.requireEither.map fun group => .arr (group.map .str))

def toJson (s : Signature) : Json :=
  .obj <| [("function_type", .str s.type.name),
      ("class", match s.device with | some device => .str device | none => .null),
      ("name", .str s.name), ("args", .arr (s.args.map Argument.toJson)),
      ("is_list", .bool s.isList), ("is_monitorable", .bool s.isMonitorable)] ++
    (if s.requireEither.isEmpty then [] else [("require_either", s.requireEitherJson)]) ++
    (if s.annotations.isEmpty then [] else [("annotations", .obj s.annotations)])

end Signature

end SkillLang
