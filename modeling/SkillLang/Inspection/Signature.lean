import SkillLang.Inspection.Basic
import SkillLang.Signature.Basic

/-!
# Inspected types and signatures

Types, arguments and signatures with all their parts; annotations are shown as JSON
values that name their kinds.
-/

namespace SkillLang

mutual
def Ty.inspection : Ty → Inspection
  | .any => .word "Any"
  | .boolean => .word "Boolean"
  | .string => .word "String"
  | .number => .word "Number"
  | .currency => .word "Currency"
  | .measure unit => .form "Measure" [.quoted unit]
  | .enum entries => .form "Enum" [.ofOption (entries.map .ofStrings)]
  | .entity kind => .form "Entity" [.quoted kind]
  | .date => .word "Date"
  | .time => .word "Time"
  | .location => .word "Location"
  | .recurrentTime => .word "RecurrentTimeSpecification"
  | .argMap => .word "ArgMap"
  | .array elem => .form "Array" [elem.inspection]
  | .compound fields => .form "Compound" [.map (Ty.fieldInspections fields)]
  | .object => .word "Object"
  | .var name => .form "TypeVar" [.quoted name]
  | .unknown name => .form "Unknown" [.quoted name]

def Ty.fieldInspections : List (String × Ty) → List (String × Inspection)
  | [] => []
  | (name, type) :: fields => (name, type.inspection) :: Ty.fieldInspections fields
end

/-- The parameter types and the result of an operator, where they are known. -/
def Ty.overloadInspection (overload : Option (List Ty)) : Inspection :=
  .ofOption (overload.map fun types => .list (types.map Ty.inspection))

mutual
def Json.inspection : Json → Inspection
  | .null => .word "Null"
  | .bool b => .form "Bool" [.ofBool b]
  | .int n => .form "Number" [.ofInt n]
  | .float x => .form "Number" [.word (Decimal.json.write x)]
  | .str s => .form "String" [.quoted s]
  | .arr items => .tagged "Array" (.list (Json.itemInspections items))
  | .obj members => .tagged "Object" (.map (Json.memberInspections members))

def Json.itemInspections : List Json → List Inspection
  | [] => []
  | item :: items => item.inspection :: Json.itemInspections items

def Json.memberInspections : List (String × Json) → List (String × Inspection)
  | [] => []
  | (key, value) :: members => (key, value.inspection) :: Json.memberInspections members
end

def FunctionType.inspection : FunctionType → Inspection
  | .stream => .word "Stream"
  | .query => .word "Query"
  | .action => .word "Action"

def Direction.inspection : Direction → Inspection
  | .inReq => .word "InReq"
  | .inOpt => .word "InOpt"
  | .out => .word "Out"

def Argument.inspection (a : Argument) : Inspection :=
  .record "ArgumentDef" [
    ("name", .quoted a.name),
    ("direction", a.direction.inspection),
    ("ty", a.type.inspection),
    ("unique", .ofBool a.unique),
    ("required_if", .ofStrings a.requiredIf),
    ("annotations", .map (Json.memberInspections a.annotations))]

def Signature.inspection (s : Signature) : Inspection :=
  .record "FunctionDef" [
    ("function_type", s.type.inspection),
    ("class", .ofOption (s.device.map .quoted)),
    ("name", .quoted s.name),
    ("args", .list (s.args.map Argument.inspection)),
    ("is_list", .ofBool s.isList),
    ("is_monitorable", .ofBool s.isMonitorable),
    ("require_either", .list (s.requireEither.map .ofStrings)),
    ("annotations", .map (Json.memberInspections s.annotations))]

end SkillLang
