/-!
# Codes

Every error and every reported success has a code.  A registry says how grave what
the code stands for is, whether one can go on after it, and what to do about it; a
code that is not registered counts as a recoverable error of medium severity.
-/

namespace SkillLang

structure Code where
  text : String
deriving DecidableEq, Repr

inductive Severity where
  | critical
  | high
  | medium
  | low
deriving DecidableEq, Repr

def Severity.name : Severity → String
  | .critical => "Critical"
  | .high => "High"
  | .medium => "Medium"
  | .low => "Low"

structure CodeEntry where
  code : Code
  category : String
  severity : Severity
  recoverable : Bool
  requiresHalt : Bool
  description : String
  action : String

namespace Code

def internalError : Code := ⟨"ERR001"⟩
def invalidStructure : Code := ⟨"E010"⟩
def unserializable : Code := ⟨"E011"⟩
def invalidDialogueState : Code := ⟨"E012"⟩
def nonConstantValue : Code := ⟨"E013"⟩
def functionNotFound : Code := ⟨"E100"⟩
def unknownArgument : Code := ⟨"E101"⟩
def duplicateArgument : Code := ⟨"E102"⟩
def missingRequiredArgument : Code := ⟨"E103"⟩
def typeMismatch : Code := ⟨"E104"⟩
def invalidOperator : Code := ⟨"E105"⟩
def undeclaredVariable : Code := ⟨"E106"⟩
def invalidFunctionType : Code := ⟨"E107"⟩
def invalidSelector : Code := ⟨"E108"⟩
def depthLimitExceeded : Code := ⟨"E109"⟩
def schemaUnavailable : Code := ⟨"E110"⟩
def invalidValue : Code := ⟨"E111"⟩
def tokenLimitExceeded : Code := ⟨"E200"⟩
def legacyConversionFailed : Code := ⟨"E201"⟩
def entityNotFound : Code := ⟨"E300"⟩
def entityLimitExceeded : Code := ⟨"E301"⟩
def invalidEntityValue : Code := ⟨"E302"⟩
def typecheckComplete : Code := ⟨"I100"⟩
def schemaResolved : Code := ⟨"I101"⟩
def serializationComplete : Code := ⟨"I200"⟩
def entityAllocated : Code := ⟨"I300"⟩

def registry : List CodeEntry :=
  [
    ⟨⟨"ERR001"⟩, "System", .critical, false, true,
      "Critical internal error",
      "File a bug report with the failing input"⟩,
    ⟨⟨"ERR002"⟩, "System", .critical, false, true,
      "Logging or configuration initialization failure",
      "Check the runtime configuration and environment variables"⟩,
    ⟨⟨"ERR003"⟩, "System", .high, true, false,
      "Runtime configuration file could not be loaded",
      "Check the configuration path and TOML syntax"⟩,
    ⟨⟨"E010"⟩, "Ast", .critical, false, true,
      "Malformed AST node (wrong arity or wrong node kind for a slot)",
      "Fix the code that builds the AST; parsers never produce this"⟩,
    ⟨⟨"E011"⟩, "Ast", .medium, true, false,
      "Construct has no equivalent in the legacy syntax",
      "Serialize with a non-legacy syntax type or a newer compatibility version"⟩,
    ⟨⟨"E012"⟩, "Ast", .high, false, false,
      "Dialogue history item carries results without being confirmed",
      "Only attach results to confirmed history items"⟩,
    ⟨⟨"E013"⟩, "Ast", .medium, true, false,
      "Value has no runtime representation because it is not constant",
      "Resolve relative and placeholder values before conversion"⟩,
    ⟨⟨"E100"⟩, "Typecheck", .high, true, false,
      "Function could not be resolved",
      "Check the class name and function name, or the schema retriever"⟩,
    ⟨⟨"E101"⟩, "Typecheck", .high, true, false,
      "Parameter is not declared by the function",
      "Remove the parameter or fix its name"⟩,
    ⟨⟨"E102"⟩, "Typecheck", .high, true, false,
      "Parameter given more than once",
      "Remove the duplicate parameter"⟩,
    ⟨⟨"E103"⟩, "Typecheck", .high, true, false,
      "Required argument is missing",
      "Pass the argument, or use $? to mark it as a slot"⟩,
    ⟨⟨"E104"⟩, "Typecheck", .high, true, false,
      "Value type is not assignable to the declared type",
      "Use a value of the declared type"⟩,
    ⟨⟨"E105"⟩, "Typecheck", .high, true, false,
      "No overload of the operator accepts the operand types",
      "Use an operator defined for these types"⟩,
    ⟨⟨"E106"⟩, "Typecheck", .high, true, false,
      "Variable reference is not in scope",
      "Reference an output parameter of an earlier expression"⟩,
    ⟨⟨"E107"⟩, "Typecheck", .high, true, false,
      "Operation is not legal on this kind of function",
      "Filters and projections apply to queries and streams only"⟩,
    ⟨⟨"E108"⟩, "Typecheck", .high, true, false,
      "Device selector attribute is invalid",
      "Only id, all and name attributes are allowed"⟩,
    ⟨⟨"E109"⟩, "Typecheck", .critical, false, true,
      "Expression nesting exceeds the configured limit",
      "Simplify the program or raise typecheck.max_depth"⟩,
    ⟨⟨"E110"⟩, "Typecheck", .high, true, false,
      "Schema retriever failed",
      "Check the retriever configuration; retrying is up to the caller"⟩,
    ⟨⟨"E111"⟩, "Typecheck", .high, true, false,
      "Value is not legal in this position",
      "Use a constant value where a constant is required"⟩,
    ⟨⟨"E200"⟩, "Serialization", .high, false, true,
      "Token stream exceeds the configured maximum size",
      "Raise serialization.max_tokens"⟩,
    ⟨⟨"E201"⟩, "Serialization", .medium, true, false,
      "Legacy conversion failed",
      "Serialize with the normal syntax"⟩,
    ⟨⟨"E300"⟩, "Entities", .medium, true, false,
      "Entity not found in the sentence or entity map",
      "Retry with ignore_not_found or provide more entities"⟩,
    ⟨⟨"E301"⟩, "Entities", .high, false, false,
      "Too many entities of one type",
      "Raise entities.max_entities_per_type"⟩,
    ⟨⟨"E302"⟩, "Entities", .medium, true, false,
      "Value cannot be stored as an entity",
      "Only constant values can be allocated as numbered entities"⟩,
    ⟨⟨"I001"⟩, "System", .low, true, false,
      "Logging system initialized",
      "No action required"⟩,
    ⟨⟨"I100"⟩, "Typecheck", .low, true, false,
      "Typechecking completed successfully",
      "No action required"⟩,
    ⟨⟨"I101"⟩, "Typecheck", .low, true, false,
      "Function schema resolved",
      "No action required"⟩,
    ⟨⟨"I200"⟩, "Serialization", .low, true, false,
      "Serialization completed successfully",
      "No action required"⟩,
    ⟨⟨"I300"⟩, "Entities", .low, true, false,
      "New entity placeholder allocated",
      "No action required"⟩
  ]

def entry? (c : Code) : Option CodeEntry :=
  registry.find? fun e => e.code == c

def severity (c : Code) : Severity :=
  (c.entry?.map CodeEntry.severity).getD .medium

def isRecoverable (c : Code) : Bool :=
  (c.entry?.map CodeEntry.recoverable).getD true

def requiresHalt (c : Code) : Bool :=
  (c.entry?.map CodeEntry.requiresHalt).getD false

def description (c : Code) : String :=
  (c.entry?.map CodeEntry.description).getD "Unknown error"

def action (c : Code) : String :=
  (c.entry?.map CodeEntry.action).getD "No specific action available"

def category (c : Code) : String :=
  (c.entry?.map CodeEntry.category).getD "Unknown"

end Code

end SkillLang
