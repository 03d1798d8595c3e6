import SkillLang.Json.Basic
import SkillLang.Types.Basic

/-!
# Signatures

The signature of a function: whether it is a stream, a query or an action, its inputs
and outputs, whether it returns a list, and whether its results can be monitored.
-/

namespace SkillLang

inductive FunctionType where
  | stream
  | query
  | action
deriving DecidableEq, Repr

def FunctionType.name : FunctionType → String
  | .stream => "stream"
  | .query => "query"
  | .action => "action"

/-- How an argument is passed: as a required or an optional input, or as an output. -/
inductive Direction where
  | inReq
  | inOpt
  | out
deriving DecidableEq, Repr

def Direction.words : Direction → List String
  | .inReq => ["in", "req"]
  | .inOpt => ["in", "opt"]
  | .out => ["out"]

structure Argument where
  name : String
  direction : Direction
  type : Ty
  unique : Bool := false
  /-- Conditions on other arguments, any one of which makes this one required. -/
  requiredIf : List String := []
  annotations : Keyed Json := []
deriving BEq

namespace Argument

def isInput (a : Argument) : Bool :=
  a.direction != .out

def isRequired (a : Argument) : Bool :=
  a.direction == .inReq

end Argument

structure Signature where
  type : FunctionType
  /-- The class of the devices that have the function. -/
  device : Option String
  name : String
  args : List Argument := []
  isList : Bool := false
  isMonitorable : Bool := false
  /-- Groups of inputs of which at least one each has to be given. -/
  requireEither : List (List String) := []
  annotations : Keyed Json := []
deriving BEq

namespace Signature

/-- The first argument of a name. -/
def arg? (s : Signature) (name : String) : Option Argument :=
  s.args.find? fun a => a.name == name

def hasArg (s : Signature) (name : String) : Bool :=
  (s.arg? name).isSome

def inArgs (s : Signature) : List Argument :=
  s.args.filter Argument.isInput

def outArgs (s : Signature) : List Argument :=
  s.args.filter fun a => !a.isInput

def qualifiedName (s : Signature) : String :=
  match s.device with
  | some device => "@" ++ device ++ "." ++ s.name
  | none => s.name

def withType (s : Signature) (type : FunctionType) : Signature :=
  { s with type }

/-- The inputs, followed by the outputs of the given names in the order of the names. -/
def filterOutputs (s : Signature) (names : List String) : Signature :=
  { s with args := s.inArgs ++ names.filterMap fun name =>
      s.outArgs.find? fun a => a.name == name }

/-- Appends an argument in place of all arguments of its name. -/
def addArgument (s : Signature) (a : Argument) : Signature :=
  { s with args := (s.args.filter fun existing => existing.name != a.name) ++ [a] }

def addArguments (s : Signature) (extra : List Argument) : Signature :=
  extra.foldl addArgument s

end Signature

end SkillLang
