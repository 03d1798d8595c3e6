import SkillLang.Typing.Builtins
import SkillLang.Typing.Operators
import SkillLang.Typing.Rules
import SkillLang.Typing.Scope

/-!
# Checkers

A checker knows where signatures come from and how strict it is.  Checking is an action:
it looks signatures up, records events, and stops at the first error.
-/

namespace SkillLang

structure Checker (σ : Type) where
  source : SchemaSource σ
  /-- Strings and entities take each other's place. -/
  lenient : Bool := false
  /-- Every lookup is recorded. -/
  logLookups : Bool := false
  /-- The classes that come before the source. -/
  classes : Keyed ClassDef := []

abbrev Check (σ α : Type) : Type := Action σ TypeError α

namespace Checker

variable {σ : Type}

def assignable (c : Checker σ) (type target : Ty) : Bool :=
  type.isAssignable c.lenient target

def guardDepth (depth : Nat) : Check σ Unit :=
  if Limits.maxDepth < depth then throw .depthLimitExceeded else return

def overload (c : Checker σ) (table : OperatorTable) (op : String) (types : List Ty)
    (range : Option Range) : Check σ Overload :=
  match table.resolve? op types c.lenient with
  | some overload => return overload
  | none => do
    Action.record (TypeError.operatorEvent op types range)
    throw (.invalidOperator op types range)

def lookup (c : Checker σ) (key : LookupKey) : Check σ Signature := do
  if c.logLookups then
    Action.record (.debug "Looking up schema"
      [("kind", key.device), ("channel", key.channel), ("function_kind", key.kind.name)])
  let (answer, state) := c.source key (← Action.getState)
  Action.setState state
  match answer with
  | .ok s =>
    Action.record (.success .schemaResolved "Schema resolved" [("function", s.qualifiedName)])
    return s
  | .error e => throw (.schema e)

/-- The signature of a function of a class; the classes of the checker come before its source. -/
def deviceSignature (c : Checker σ) (key : LookupKey) : Check σ Signature :=
  match (Keyed.find? key.device c.classes).bind fun found =>
      found.function? key.channel key.kind.functionType? with
  | some s => return s
  | none => c.lookup key

/-- The signature of the function that a call names, and its selector in normal form. -/
def resolve (c : Checker σ) (selector : Selector) (channel : String) (kind : LookupKind)
    (range : Option Range) : Check σ (Selector × Signature) :=
  match selector with
  | .builtin =>
    match Builtin.function? channel with
    | some s => return (.builtin, s)
    | none => throw (.functionNotFound channel range)
  | .device d => do
    let d ← ofExcept d.normalize
    return (.device d, ← c.deviceSignature ⟨d.kind, channel, kind⟩)

end Checker

end SkillLang
