import SkillLang.Decimal.Style
import SkillLang.Syntax.Program
import SkillLang.Typing.Error

/-!
# Typing rules

The rules that look at signatures only: what a clause may be applied to and which
signature it leads to, what a call has to pass, and which attributes a device may have.
-/

namespace SkillLang

namespace Signature

def rejectAction (s : Signature) (operation : Operation) (range : Option Range) :
    Except TypeError Unit :=
  if s.type = .action then .error (.invalidFunctionType operation .action range) else .ok ()

def requireQuery (s : Signature) (operation : Operation) (range : Option Range) :
    Except TypeError Unit :=
  if s.type = .query then .ok () else .error (.invalidFunctionType operation s.type range)

def requireList (s : Signature) (operation : Operation) (range : Option Range) :
    Except TypeError Unit := do
  s.rejectAction operation range
  if s.isList then .ok () else .error (.notList s.qualifiedName range)

def requireArg (s : Signature) (name : String) (range : Option Range) : Except TypeError Unit :=
  if s.hasArg name then .ok () else .error (.unknownArgument s.qualifiedName name range)

def outputType (s : Signature) (name : String) (range : Option Range) : Except TypeError Ty :=
  match s.outArgs.find? fun a => a.name == name with
  | some a => .ok a.type
  | none => .error (.unknownArgument s.qualifiedName name range)

/-- A signature without outputs but one. -/
def withOnlyOutput (s : Signature) (name : String) (type : Ty) : Signature :=
  (s.filterOutputs []).addArguments [{ name, direction := .out, type }]

/-- The stream of the changes of a query. -/
def monitored (s : Signature) (args : List String) (range : Option Range) :
    Except TypeError Signature := do
  s.requireQuery .monitor range
  if !s.isMonitorable then
    throw (.notMonitorable s.qualifiedName range)
  args.forM fun name => discard (s.outputType name range)
  return s.withType .stream

/-- The type of a place below an argument that is named by a path of fields. -/
def fieldType? : Ty → List String → Option Ty
  | type, [] => some type
  | .compound fields, name :: names => do fieldType? (← Keyed.find? name fields) names
  | _, _ :: _ => none
termination_by structural _ names => names

def pathType? (s : Signature) (path : String) : Option Ty :=
  match path.splitOn "." with
  | [] => none
  | name :: names => do fieldType? (← s.arg? name).type names

def chained (elements : List Signature) (range : Option Range) : Except TypeError Signature :=
  match elements.getLast? with
  | none => .error (.invalidValue .emptyChain range)
  | some last =>
    if (elements.head?.map type) = some .stream ∧ last.type = .query then
      .ok (last.withType .stream)
    else .ok last

/-- The results of both sides together. -/
def joined (lhs rhs : Signature) : Signature :=
  { (lhs.withType (if lhs.type = .stream then .stream else .query)).addArguments rhs.outArgs with
    isList := lhs.isList || rhs.isList
    isMonitorable := lhs.isMonitorable && rhs.isMonitorable }

/-- The function that an assigned name stands for: it has the outputs and takes no inputs. -/
def assigned (s : Signature) (name : String) : Signature :=
  { s with device := none, name, args := s.outArgs }

/-- The function that stands for the elements of an array of records. -/
def ofElement (fields : List (String × Ty)) : Signature :=
  { type := .query, device := none, name := "element"
    args := fields.map fun (name, type) => { name, direction := .out, type } }

/-- What is known about the one who asks for permission. -/
def principal : Signature :=
  { type := .query, device := none, name := "principal"
    args := [{ name := "source", direction := .out, type := .entity "tt:contact" }] }

end Signature

def Ty.recordFields? (type : Ty) : Option (List (String × Ty)) :=
  match type.elem? with
  | some (.compound fields) => some fields
  | _ => none

def Value.outputName : Value → String
  | .computation op _ _ _ => op
  | .var name _ => name
  | .field _ name _ => name
  | _ => "result"

/-! ## Calls -/

/-- A text written as a constant is, without quotes. -/
def Value.matchesText (v : Value) (text : String) : Bool :=
  match v with
  | .enum entry => entry == text
  | .string s => s == text
  | .boolean b => toString b == text
  | .number x => Decimal.number x == text
  | _ => false

/-- The two parts of a text around its first equality sign. -/
def splitCondition? (condition : String) : Option (String × String) :=
  let cs := condition.toList
  match cs.dropWhile (· != '=') with
  | [] => none
  | _ :: rest => some (String.ofList (cs.takeWhile (· != '=')), String.ofList rest)

/-- A condition `name=text` holds when the parameter is passed with that constant. -/
def conditionHolds (params : List Param) (condition : String) : Bool :=
  match splitCondition? condition with
  | none => false
  | some (name, text) => params.any fun p => p.name == name && p.value.matchesText text

/-- A call with these parameters has to pass the argument as well. -/
def Argument.isMissing (a : Argument) (params : List Param) : Bool :=
  !(params.any fun p => p.name == a.name) &&
    (a.isRequired || a.requiredIf.any (conditionHolds params))

/-- Nothing that a call has to pass is missing. -/
def Signature.requireParams (s : Signature) (params : List Param) (range : Option Range) :
    Except TypeError Unit :=
  match s.inArgs.find? fun a => a.isMissing params with
  | some a => .error (.missingArgument s.qualifiedName a.name range)
  | none =>
    match s.requireEither.find? fun names => !params.any fun p => names.contains p.name with
    | some names => .error (.requireEither s.qualifiedName names range)
    | none => .ok ()

/-! ## Devices -/

namespace Device

/-- Takes an attribute into account: `id` and `all` become part of the device, and `name` remains
an attribute. -/
def foldAttribute (d : Device) (p : Param) : Except TypeError Device :=
  if p.name = "id" then
    match p.value with
    | .string id => .ok { d with id := some id }
    | .entity ⟨some id, _, _⟩ => .ok { d with id := some id }
    | _ => .error (.invalidSelector .idNotString p.range)
  else if p.name = "all" then
    match p.value with
    | .boolean all => .ok { d with all }
    | _ => .error (.invalidSelector .allNotBoolean p.range)
  else if p.name = "name" then
    match p.value with
    | .string _ | .undefined _ | .var _ _ => .ok { d with attributes := d.attributes ++ [p] }
    | _ => .error (.invalidSelector .nameNotString p.range)
  else .error (.invalidSelector (.unknownAttribute p.name) p.range)

/-- The device with its attributes `id` and `all` taken into account, the last of each counting. -/
def normalize (d : Device) : Except TypeError Device :=
  d.attributes.foldlM foldAttribute { d with attributes := [] }

end Device

end SkillLang
