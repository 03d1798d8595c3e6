import SkillLang.Typing.Checker

/-!
# Checking values and filters

A value is checked in a scope and yields its type.  A filter is checked against the
signature whose results it is applied to; the values in it see the arguments of that
signature on top of the scope.  Types, overloads and signatures that are found on the
way are written into what is checked.
-/

namespace SkillLang.Checker

variable {σ : Type} (c : Checker σ)

mutual

def checkValue (scope : Scope) (depth : Nat) (value : Value) : Check σ (Value × Ty) := do
  guardDepth depth
  match value with
  | .var name _ =>
    match scope.var? name with
    | some type => return (.var name (some type), type)
    | none => throw (.undeclaredVariable name)
  | .computation op operands _ _ =>
    let (operands, types) ← checkValues scope (depth + 1) operands
    let chosen ← c.overload .scalars op types none
    return (.computation op operands (some chosen.types) (some chosen.result), chosen.result)
  | .field value name _ =>
    let (value, type) ← checkValue scope (depth + 1) value
    match type.recordFields?.bind (Keyed.find? name) with
    | some found => return (.field value name (some (.array found)), .array found)
    | none => throw (.invalidValue (.noField type name) none)
  | .filtered value filter _ =>
    let (value, type) ← checkValue scope (depth + 1) value
    match type.recordFields? with
    | some fields =>
      let filter ← checkFilter (.ofElement fields) scope (depth + 1) filter
      return (.filtered value filter (some type), type)
    | none => throw (.invalidValue (.notFilterable type) none)
  | .array values type =>
    let (values, first) ← checkElements scope (depth + 1) none values
    let type := type.getD (.array (first.getD .any))
    return (.array values (some type), type)
  | .object fields =>
    let (fields, types) ← checkFields scope (depth + 1) fields
    return (.object fields, .compound types)
  | .undefined isLocal => return (.undefined isLocal, .any)
  | .context name type => return (.context name type, type)
  | .boolean b => return (.boolean b, .boolean)
  | .string s => return (.string s, .string)
  | .number x => return (.number x, .number)
  | .measure x unit => return (.measure x unit, .measure unit)
  | .currency x code => return (.currency x code, .currency)
  | .place p => return (.place p, .location)
  | .date d => return (.date d, .date)
  | .time t => return (.time t, .time)
  | .entity e => return (.entity e, .entity e.kind)
  | .enum entry => return (.enum entry, .enum (some [entry]))
  | .event name => return (.event name, .string)
  | .argMap args => return (.argMap args, .argMap)
termination_by structural value

def checkValues (scope : Scope) (depth : Nat) (values : List Value) :
    Check σ (List Value × List Ty) := do
  match values with
  | [] => return ([], [])
  | value :: values =>
    let (value, type) ← checkValue scope depth value
    let (values, types) ← checkValues scope depth values
    return (value :: values, type :: types)
termination_by structural values

/-- Checks the elements of an array; all have to fit the type of the first one. -/
def checkElements (scope : Scope) (depth : Nat) (first : Option Ty) (values : List Value) :
    Check σ (List Value × Option Ty) := do
  match values with
  | [] => return ([], first)
  | value :: values =>
    let (value, type) ← checkValue scope depth value
    let expected := first.getD type
    if first.isSome && !c.assignable type expected then
      throw (.invalidValue (.mixedArray expected type) none)
    let (values, first) ← checkElements scope depth (some expected) values
    return (value :: values, first)
termination_by structural values

def checkFields (scope : Scope) (depth : Nat) (fields : List (String × Value)) :
    Check σ (List (String × Value) × List (String × Ty)) := do
  match fields with
  | [] => return ([], [])
  | (name, value) :: fields =>
    let (value, type) ← checkValue scope depth value
    let (fields, types) ← checkFields scope depth fields
    return ((name, value) :: fields, (name, type) :: types)
termination_by structural fields

def checkFilter (schema : Signature) (scope : Scope) (depth : Nat) (filter : Filter) :
    Check σ Filter := do
  guardDepth depth
  match filter with
  | .always => return .always
  | .never => return .never
  | .conj range operands => return .conj range (← checkFilters schema scope (depth + 1) operands)
  | .disj range operands => return .disj range (← checkFilters schema scope (depth + 1) operands)
  | .neg range operand => return .neg range (← checkFilter schema scope (depth + 1) operand)
  | .dontCare range name =>
    ofExcept (schema.requireArg name range)
    return .dontCare range name
  | .atom range name op value _ =>
    match (schema.arg? name).map Argument.type <|> scope.var? name with
    | none => throw (.unknownArgument schema.qualifiedName name range)
    | some type =>
      let (value, found) ← checkValue (scope.addArguments schema) (depth + 1) value
      let chosen ← c.overload .filters op [type, found] range
      return .atom range name op value (some chosen.types)
  | .compute range lhs op rhs _ =>
    let inner := scope.addArguments schema
    let (lhs, lhsType) ← checkValue inner (depth + 1) lhs
    let (rhs, rhsType) ← checkValue inner (depth + 1) rhs
    let chosen ← c.overload .filters op [lhsType, rhsType] range
    return .compute range lhs op rhs (some chosen.types)
  | .external ⟨selector, channel, params, range, _⟩ filter =>
    let (selector, external) ← c.resolve selector channel .query range
    ofExcept (external.rejectAction .externalFilter range)
    let params ← checkParams external scope (depth + 2) [] params
    ofExcept (external.requireParams params range)
    let filter ← checkFilter external scope (depth + 1) filter
    return .external ⟨selector, channel, params, range, some external⟩ filter
termination_by structural filter

def checkFilters (schema : Signature) (scope : Scope) (depth : Nat) (filters : List Filter) :
    Check σ (List Filter) := do
  match filters with
  | [] => return []
  | filter :: filters =>
    let filter ← checkFilter schema scope depth filter
    return filter :: (← checkFilters schema scope depth filters)
termination_by structural filters

/-- Checks the parameters of a call; those of the names in `seen` came before. -/
def checkParams (schema : Signature) (scope : Scope) (depth : Nat) (seen : List String)
    (params : List Param) : Check σ (List Param) := do
  match params with
  | [] => return []
  | ⟨name, value, range⟩ :: params =>
    match (schema.arg? name).filter Argument.isInput with
    | none => throw (.unknownArgument schema.qualifiedName name range)
    | some arg =>
      if seen.contains name then
        throw (.duplicateArgument schema.qualifiedName name range)
      let (value, type) ← checkValue scope depth value
      if !c.assignable type arg.type then
        throw (.invalidArgumentType name arg.type type range)
      return ⟨name, value, range⟩ :: (← checkParams schema scope depth (name :: seen) params)
termination_by structural params

end

/-- Checks the parameters of a call at a depth, and that nothing is missing. -/
def checkCall (schema : Signature) (params : List Param) (scope : Scope) (range : Option Range)
    (depth : Nat) : Check σ (List Param) := do
  let params ← c.checkParams schema scope (depth + 1) [] params
  ofExcept (schema.requireParams params range)
  return params

end SkillLang.Checker
