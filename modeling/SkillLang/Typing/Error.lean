import SkillLang.Typing.Schemas

/-!
# Type errors

The reasons for which an input is refused.
-/

namespace SkillLang

/-- What a function is not fit for. -/
inductive Operation where
  | filter
  | monitor
  | projection
  | question
  | aggregation
  | sort
  | index
  | slice
  | chainPosition
  | join
  | externalFilter
  | permissionRule
deriving DecidableEq

def Operation.name : Operation → String
  | filter => "filter"
  | monitor => "monitor"
  | projection => "projection"
  | question => "boolean question"
  | aggregation => "aggregation"
  | sort => "sort"
  | index => "index"
  | slice => "slice"
  | chainPosition => "chain position"
  | join => "join"
  | externalFilter => "external filter"
  | permissionRule => "permission rule"

inductive SelectorFault where
  | idNotString
  | allNotBoolean
  | nameNotString
  | unknownAttribute (name : String)
deriving DecidableEq

def SelectorFault.message : SelectorFault → String
  | idNotString => "id must be a string"
  | allNotBoolean => "all must be a boolean"
  | nameNotString => "name must be a string"
  | unknownAttribute name => "unknown attribute " ++ name

inductive ValueFault where
  | noField (type : Ty) (field : String)
  | notFilterable (type : Ty)
  | mixedArray (expected found : Ty)
  | notSortable (type : Ty)
  | emptyChain
deriving DecidableEq

def ValueFault.message : ValueFault → String
  | noField type field => type.display ++ " has no field " ++ field
  | notFilterable type => "cannot filter a value of type " ++ type.display
  | mixedArray expected found => "array mixes " ++ expected.display ++ " and " ++ found.display
  | notSortable type => "cannot sort by a value of type " ++ type.display
  | emptyChain => "empty chain"

inductive TypeError where
  | functionNotFound (name : String) (range : Option Range)
  | unknownArgument (function name : String) (range : Option Range)
  | duplicateArgument (function name : String) (range : Option Range)
  | missingArgument (function name : String) (range : Option Range)
  | requireEither (function : String) (names : List String) (range : Option Range)
  | invalidArgumentType (name : String) (expected found : Ty) (range : Option Range)
  | invalidOperator (op : String) (types : List Ty) (range : Option Range)
  | undeclaredVariable (name : String)
  | invalidFunctionType (operation : Operation) (found : FunctionType) (range : Option Range)
  | notMonitorable (function : String) (range : Option Range)
  | notList (function : String) (range : Option Range)
  | invalidSelector (fault : SelectorFault) (range : Option Range)
  | invalidValue (fault : ValueFault) (range : Option Range)
  | chainTooLong (length : Nat) (range : Option Range)
  | depthLimitExceeded
  | schema (e : SchemaError)
deriving DecidableEq

namespace TypeError

def kind : TypeError → String
  | functionNotFound _ _ => "FunctionNotFound"
  | unknownArgument _ _ _ => "UnknownArgument"
  | duplicateArgument _ _ _ => "DuplicateArgument"
  | missingArgument _ _ _ => "MissingRequiredArgument"
  | requireEither _ _ _ => "RequireEither"
  | invalidArgumentType _ _ _ _ => "InvalidArgumentType"
  | invalidOperator _ _ _ => "InvalidOperator"
  | undeclaredVariable _ => "UndeclaredVariable"
  | invalidFunctionType _ _ _ => "InvalidFunctionType"
  | notMonitorable _ _ => "NotMonitorable"
  | notList _ _ => "NotList"
  | invalidSelector _ _ => "InvalidSelector"
  | invalidValue _ _ => "InvalidValue"
  | chainTooLong _ _ => "ChainTooLong"
  | depthLimitExceeded => "DepthLimitExceeded"
  | schema _ => "Schema"

def code : TypeError → Code
  | functionNotFound _ _ => .functionNotFound
  | unknownArgument _ _ _ => .unknownArgument
  | duplicateArgument _ _ _ => .duplicateArgument
  | missingArgument _ _ _ | requireEither _ _ _ => .missingRequiredArgument
  | invalidArgumentType _ _ _ _ => .typeMismatch
  | invalidOperator _ _ _ => .invalidOperator
  | undeclaredVariable _ => .undeclaredVariable
  | invalidFunctionType _ _ _ | notMonitorable _ _ | notList _ _ => .invalidFunctionType
  | invalidSelector _ _ => .invalidSelector
  | invalidValue _ _ => .invalidValue
  | chainTooLong _ _ | depthLimitExceeded => .depthLimitExceeded
  | schema _ => .schemaUnavailable

def typeList (types : List Ty) : String :=
  ", ".intercalate (types.map Ty.display)

def message : TypeError → String
  | functionNotFound name _ => "Function " ++ name ++ " is not declared"
  | unknownArgument function name _ => "Invalid parameter " ++ name ++ " for " ++ function
  | duplicateArgument function name _ => "Duplicate parameter " ++ name ++ " for " ++ function
  | missingArgument function name _ =>
    "Missing required parameter " ++ name ++ " for " ++ function
  | requireEither function names _ =>
    function ++ " requires one of " ++ ", ".intercalate names
  | invalidArgumentType name expected found _ =>
    "Invalid type for " ++ name ++ ": expected " ++ expected.display ++ ", found " ++ found.display
  | invalidOperator op types _ =>
    "Invalid operator " ++ op ++ " for types " ++ excerpt (typeList types)
  | undeclaredVariable name => "Variable " ++ name ++ " is not in scope"
  | invalidFunctionType operation found _ =>
    "Cannot apply " ++ operation.name ++ " to " ++ found.name
  | notMonitorable function _ => function ++ " is not monitorable"
  | notList function _ => function ++ " does not return a list"
  | invalidSelector fault _ => "Invalid device selector: " ++ excerpt fault.message
  | invalidValue fault _ => "Invalid value: " ++ excerpt fault.message
  | chainTooLong length _ =>
    "Chain of " ++ toString length ++ " expressions exceeds the limit of " ++
      toString Limits.maxChainLength
  | depthLimitExceeded =>
    "Expression nesting exceeds the limit of " ++ toString Limits.maxDepth
  | schema e => e.message

def range : TypeError → Option Range
  | functionNotFound _ range | unknownArgument _ _ range | duplicateArgument _ _ range
  | missingArgument _ _ range | requireEither _ _ range | invalidArgumentType _ _ _ range
  | invalidOperator _ _ range | invalidFunctionType _ _ range | notMonitorable _ range
  | notList _ range | invalidSelector _ range | invalidValue _ range
  | chainTooLong _ range => range
  | undeclaredVariable _ | depthLimitExceeded | schema _ => none

instance : Diagnostic TypeError := ⟨kind, code, message, range⟩

/-- What is recorded when no overload of an operator accepts its operands. -/
def operatorEvent (op : String) (types : List Ty) (range : Option Range) : Event :=
  .failure .invalidOperator "No overload matches the operand types" range
    [("operator", op), ("types", typeList types)]

def event (e : TypeError) : Event :=
  .failure e.code "Typecheck failed" e.range [("error_type", e.kind), ("error", e.message)]

end TypeError

end SkillLang
