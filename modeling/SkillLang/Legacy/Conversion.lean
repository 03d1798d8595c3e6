import SkillLang.Legacy.Tree
import SkillLang.Log.Event
import SkillLang.Syntax.Dialogue

/-!
# Conversion to the legacy language

A query becomes a table, a stream a stream, and an action an action.  A chain becomes
a row of joins; a parameter that refers to an output of an earlier element is moved to
the join that passes it on.  Some constructs have no equivalent, and an expression
that mixes queries and actions in a way that checking refuses is malformed.
-/

namespace SkillLang

namespace Legacy

/-- Constructs without an equivalent in the legacy language. -/
inductive Construct where
  | computedSort
  | join
  | question
  | selection
  | computedAction
  | assignment
  | declaration
  | dialogue
deriving DecidableEq

def Construct.name : Construct → String
  | computedSort => "sort by computed value"
  | join => "join"
  | question => "boolean question"
  | selection => "typed projection"
  | computedAction => "computed projection of an action"
  | assignment => "assignment"
  | declaration => "function declaration"
  | dialogue => "dialogue state"

/-- What is wrong with an expression. -/
inductive Defect where
  | streamInvocation
  | wrapsAction (construct : String)
  | needsQuery (construct : String)
  | missingParam (function name : String)
  | emptyChain
  | actionBeforeEnd
  | notAction
deriving DecidableEq

def Defect.message : Defect → String
  | streamInvocation => "a function invocation cannot be a stream"
  | wrapsAction construct => construct ++ " cannot wrap an action"
  | needsQuery construct => construct ++ " requires a query"
  | missingParam function name => function ++ " requires parameter '" ++ name ++ "'"
  | emptyChain => "empty chain"
  | actionBeforeEnd => "an action can only end a chain"
  | notAction => "expected an action"

inductive ConversionError where
  | unserializable (construct : Construct) (range : Option Range)
  | malformed (defect : Defect) (range : Option Range)
deriving DecidableEq

namespace ConversionError

instance : Diagnostic ConversionError where
  kind
    | unserializable _ _ => "Unserializable"
    | malformed _ _ => "InvalidStructure"
  code
    | unserializable _ _ => .unserializable
    | malformed _ _ => .invalidStructure
  message
    | unserializable construct _ => "Cannot convert " ++ construct.name ++ " to legacy syntax"
    | malformed defect _ => "Invalid AST structure: " ++ excerpt defect.message
  range
    | unserializable _ range | malformed _ range => range

/-- What is recorded when a construct has no equivalent. -/
def event? : ConversionError → Option Event
  | unserializable construct range =>
    some (.failure .legacyConversionFailed "Construct has no legacy equivalent" range
      [("construct", construct.name)])
  | malformed _ _ => none

end ConversionError

/-- The results of a node with a clause applied to them, which no action can have. -/
def Node.clause (n : Node) (onTable : Table → Table) (onStream : Stream → Stream)
    (error : ConversionError) : Except ConversionError Node :=
  match n with
  | .table t => .ok (.table (onTable t))
  | .stream s => .ok (.stream (onStream s))
  | .action _ => .error error

def Node.table? (n : Node) (construct : String) : Except ConversionError Table :=
  match n with
  | .table t => .ok t
  | _ => .error (.malformed (.needsQuery construct) none)

def Node.joinTable (n : Node) (t : Table) (passed : List Param) (range : Option Range) :
    Except ConversionError Node :=
  n.clause (.join · t passed) (.join · t passed) (.malformed .actionBeforeEnd range)

/-- The computed columns of a projection one around the other; each has the label that stands at
its position. -/
def Node.compute (n : Node) (range : Option Range) :
    List Value → List (Option String) → Except ConversionError Node
  | [], _ => .ok n
  | value :: values, labels => do
    let label := labels.head?.join
    let n ← n.clause (.compute · value label) (.compute · value label)
      (.unserializable .computedAction range)
    n.compute range values labels.tail

/-! ## Names that are bound in a chain -/

/-- The outputs of the earlier elements of a chain, or nothing if the signature of one of them is
not known, in which case every variable counts as one of its outputs. -/
abbrev Bound : Type := Option (List String)

namespace Bound

def binds (b : Bound) (name : String) : Bool :=
  match b with
  | some names => names.contains name
  | none => true

/-- The parameter refers to an earlier element. -/
def passes (b : Bound) (p : Param) : Bool :=
  match p.value with
  | .var name _ => b.binds name
  | _ => false

def extend (b : Bound) (schema : Option Signature) : Bound :=
  match b, schema with
  | some names, some schema => some (names ++ schema.outArgs.map Argument.name)
  | _, _ => none

end Bound

end Legacy

namespace Expression

mutual
/-- Whether an expression is a stream, a query or an action: by its signature if it is known, and
otherwise by its form. -/
def classify (e : Expression) : FunctionType :=
  match e with
  | call info name _ =>
    (info.schema.map Signature.type).getD <|
      if ["timer", "attimer", "ontimer"].contains name then .stream
      else if ["notify", "return"].contains name then .action
      else .query
  | invocation info i =>
    (info.schema.map Signature.type).getD ((i.schema.map Signature.type).getD .query)
  | clause info inner c =>
    (info.schema.map Signature.type).getD <|
      match c with
      | .monitor _ => .stream
      | _ => classify inner
  | chain info elements =>
    (info.schema.map Signature.type).getD <|
      let types := classifyAll elements
      if types.getLast? = some .action then .action else types.head?.getD .query
  | join info lhs _ => (info.schema.map Signature.type).getD (classify lhs)
termination_by structural e

def classifyAll (elements : List Expression) : List FunctionType :=
  match elements with
  | [] => []
  | element :: elements => classify element :: classifyAll elements
termination_by structural elements
end

/-- The signature of the call inside of all clauses. -/
def callSchema? : Expression → Option Signature
  | call info _ _ => info.schema
  | invocation _ i => i.schema
  | clause _ inner _ => callSchema? inner
  | chain _ _ | join _ _ _ => none

/-- The parameters of the call inside of all clauses. -/
def callParams : Expression → List Param
  | call _ _ params => params
  | invocation _ i => i.params
  | clause _ inner _ => callParams inner
  | chain _ _ | join _ _ _ => []

def outputSchema? (e : Expression) : Option Signature :=
  e.schema.or e.callSchema?

end Expression

namespace Legacy

open ConversionError

def requireParam (function : String) (params : List Param) (name : String)
    (range : Option Range) : Except ConversionError Value :=
  match params.find? fun p => p.name == name with
  | some p => .ok p.value
  | none => .error (.malformed (.missingParam function name) range)

def optionalParam (params : List Param) (name : String) : Option Value :=
  (params.find? fun p => p.name == name).map Param.value

/-- The elements of an array, or the value itself. -/
def valuesOf : Value → List Value
  | .array values _ => values
  | v => [v]

def convertCall (name : String) (params : List Param) (type : FunctionType)
    (range : Option Range) : Except ConversionError Node :=
  if name = "timer" then do
    let base ← requireParam name params "base" range
    let interval ← requireParam name params "interval" range
    return .stream (.timer base interval (optionalParam params "frequency"))
  else if name = "attimer" then do
    let time ← requireParam name params "time" range
    return .stream (.atTimer (valuesOf time) (optionalParam params "expiration_date"))
  else if name = "ontimer" then do
    let date ← requireParam name params "date" range
    return .stream (.onTimer (valuesOf date))
  else if name = "notify" ∨ name = "return" then .ok (.action (.notify name))
  else
    match type with
    | .stream => .ok (.stream (.call name params))
    | .query => .ok (.table (.call name params))
    | .action => .ok (.action (.call name params))

def convertInvocation (i : Invocation) (type : FunctionType) (range : Option Range) :
    Except ConversionError Node :=
  match type with
  | .action => .ok (.action (.invocation i))
  | .query => .ok (.table (.invocation i))
  | .stream => .error (.malformed .streamInvocation range)

/-- Refuses the clauses that have no equivalent whatever they are applied to. -/
def rejectClause (range : Option Range) : Clause → Except ConversionError Unit
  | .question _ => .error (.unserializable .question range)
  | .selection _ => .error (.unserializable .selection range)
  | .sort (.var _ _) _ => .ok ()
  | .sort _ _ => .error (.unserializable .computedSort range)
  | _ => .ok ()

def convertClause (n : Node) (range : Option Range) : Clause → Except ConversionError Node
  | .filter test =>
    n.clause (.filter · test) (.filter · test) (.malformed (.wrapsAction "a filter") range)
  | .monitor args => do return .stream (.monitor (← n.table? "monitor") args)
  | .projection args computations aliases => do
    let n ← n.compute range computations aliases
    if args.isEmpty then return n
    else
      let args := args ++ aliases.filterMap id
      n.clause (.projection · args) (.projection · args)
        (.malformed (.wrapsAction "a projection") range)
  | .named name =>
    n.clause (.named · name) (.named · name) (.malformed (.wrapsAction "an alias") range)
  | .aggregation field op _ => do return .table (.aggregation (← n.table? "aggregation") field op)
  | .sort (.var field _) direction => do return .table (.sort (← n.table? "sort") field direction)
  | .sort _ _ => .error (.unserializable .computedSort range)
  | .index indices => do return .table (.index (← n.table? "index") indices)
  | .slice base limit => do return .table (.slice (← n.table? "slice") base limit)
  | .question _ => .error (.unserializable .question range)
  | .selection _ => .error (.unserializable .selection range)

mutual

/-- Converts an expression.  The call inside of its clauses keeps the parameters that pass the
test; the others have been moved to a join. -/
def convert (own : Param → Bool) (e : Expression) : Except ConversionError Node :=
  match e with
  | .call info name params =>
    convertCall name (params.filter own) (Expression.classify (.call info name params)) info.range
  | .invocation info i =>
    convertInvocation { i with params := i.params.filter own }
      (Expression.classify (.invocation info i)) info.range
  | .clause info inner c => do
    rejectClause info.range c
    convertClause (← convert own inner) info.range c
  | .chain _ elements => convertChain elements
  | .join info _ _ => .error (.unserializable .join info.range)
termination_by structural e

/-- Converts a chain to joins from the left to the right. -/
def convertChain (elements : List Expression) : Except ConversionError Node :=
  match elements with
  | [] => .error (.malformed .emptyChain none)
  | first :: rest => do
    convertRest (← convert (fun _ => true) first) (Bound.extend (some []) first.outputSchema?) rest
termination_by structural elements

/-- Joins the elements of a chain to what comes before them. -/
def convertRest (n : Node) (bound : Bound) (elements : List Expression) :
    Except ConversionError Node :=
  match elements with
  | [] => .ok n
  | element :: elements => do
    let t ← (← convert (fun p => !bound.passes p) element).table? "join"
    let n ← n.joinTable t (element.callParams.filter bound.passes) element.range
    convertRest n (bound.extend element.outputSchema?) elements
termination_by structural elements

end

/-- The action at the end of a chain of several elements, and the elements before it. -/
def splitAction? (e : Expression) : Option (List Expression × Expression) :=
  match e with
  | .chain _ elements =>
    match elements.getLast? with
    | some last =>
      if 1 < elements.length ∧ last.classify = .action then some (elements.dropLast, last)
      else none
    | none => none
  | _ => none

/-- A statement that runs an action for the results of a node. -/
def Node.statement (n : Node) (a : Action) (range : Option Range) :
    Except ConversionError Statement :=
  match n with
  | .table t => .ok ⟨.table t, [a]⟩
  | .stream s => .ok ⟨.stream s, [a]⟩
  | .action _ => .error (.malformed .actionBeforeEnd range)

/-- Converts the expression of a statement; results that no action takes are handed to `word`. -/
def convertBody (e : Expression) (word : String) : Except ConversionError Statement :=
  match splitAction? e with
  | some (elements, last) => do
    match ← convert (fun _ => true) last with
    | .action a => (← convertChain elements).statement a e.range
    | _ => .error (.malformed .notAction last.range)
  | none => do
    match ← convert (fun _ => true) e with
    | .action a => .ok ⟨.now, [a]⟩
    | n => n.statement (.notify word) e.range

end Legacy

/-- The equivalent of an expression in the legacy language. -/
def Expression.toLegacy (e : Expression) : Except Legacy.ConversionError Legacy.Node :=
  Legacy.convert (fun _ => true) e

def ExpressionStatement.toLegacy (s : ExpressionStatement) :
    Except Legacy.ConversionError Legacy.Statement :=
  Legacy.convertBody s.expression "notify"

def Statement.toLegacy : Statement → Except Legacy.ConversionError Legacy.Statement
  | .expression s => s.toLegacy
  | .ret e _ => Legacy.convertBody e "return"
  | .assign _ _ range => .error (.unserializable .assignment range)

def Program.toLegacy (p : Program) : Except Legacy.ConversionError Legacy.Program :=
  match p.declarations with
  | d :: _ => .error (.unserializable .declaration d.range)
  | [] => do return ⟨p.classes, ← p.statements.mapM Statement.toLegacy⟩

end SkillLang
