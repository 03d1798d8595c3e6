import SkillLang.Syntax.Expression
import SkillLang.Typing.Value

/-!
# Checking expressions

The signature of an expression is found from the inside out: a call has the signature
of its function, and every clause, chain or join has one that follows from those of
its parts.
-/

namespace SkillLang.Checker

variable {σ : Type} (c : Checker σ)

/-- Checks the computed columns of a projection; each leads to an output, which has the label of
the column if there is one. -/
def checkColumns (scope : Scope) (depth : Nat) :
    (computations : List Value) → (labels : List (Option String)) →
      Check σ (List Value × List Argument)
  | [], _ => return ([], [])
  | value :: values, labels => do
    let (value, type) ← c.checkValue scope depth value
    let name := labels.head?.join.getD value.outputName
    let (values, outputs) ← checkColumns scope depth values labels.tail
    return (value :: values, { name, direction := .out, type } :: outputs)

/-- What an element of a selection adds to the outputs: one that is kept, or a new one. -/
inductive Selection where
  | kept (name : String)
  | added (output : Argument)

namespace Selection

def kept? : Selection → Option String
  | kept name => some name
  | added _ => none

def added? : Selection → Option Argument
  | kept _ => none
  | added output => some output

end Selection

/-- A path is selected; if types are asked for, it has to fit one of them. -/
def selectPath (schema : Signature) (path : String) (label : Option String) (types : List Ty)
    (range : Option Range) : Except TypeError Selection :=
  match schema.pathType? path with
  | none => .error (.unknownArgument schema.qualifiedName path range)
  | some type =>
    match types.head? with
    | some expected =>
      if types.any (c.assignable type) then .ok (select type)
      else .error (.invalidArgumentType path expected type range)
    | none => .ok (select type)
where
  select (type : Ty) : Selection :=
    match label with
    | some label => .added { name := label, direction := .out, type }
    | none =>
      if path.contains '.' then .added { name := path, direction := .out, type } else .kept path

def checkSelected (schema : Signature) (scope : Scope) (range : Option Range) (depth : Nat)
    (element : Selected) : Check σ (Selected × Selection) :=
  match element.column with
  | .path path => do
    return (element, ← ofExcept (c.selectPath schema path element.label element.types range))
  | .value value => do
    let (value, type) ← c.checkValue scope depth value
    let name := element.label.getD value.outputName
    return ({ element with column := .value value },
      .added { name, direction := .out, type })

/-- Checks an index, which is a number or an array of numbers. -/
def checkIndex (scope : Scope) (range : Option Range) (depth : Nat) (index : Value) :
    Check σ Value := do
  let (index, type) ← c.checkValue scope depth index
  if c.assignable type .number || c.assignable type (.array .number) then return index
  else throw (.invalidArgumentType "index" .number type range)

def checkNumber (name : String) (scope : Scope) (range : Option Range) (depth : Nat)
    (value : Value) : Check σ Value := do
  let (value, type) ← c.checkValue scope depth value
  if c.assignable type .number then return value
  else throw (.invalidArgumentType name .number type range)

/-- A list of one literal number picks one result. -/
def picksOne : List Value → Bool
  | [.number _] => true
  | _ => false

/-- Checks a clause that is applied to an expression with the signature `schema`; `depth` is the
depth of the parts of the clause. -/
def checkClause (schema : Signature) (scope : Scope) (range : Option Range) (depth : Nat) :
    Clause → Check σ (Clause × Signature)
  | .filter test => do
    ofExcept (schema.rejectAction .filter range)
    let test ← c.checkFilter schema scope depth test
    return (.filter test, schema)
  | .monitor args => do
    let result ← ofExcept (schema.monitored (args.getD []) range)
    return (.monitor args, result)
  | .projection args computations aliases => do
    ofExcept (schema.rejectAction .projection range)
    ofExcept (args.forM fun name => schema.requireArg name range)
    let (computations, outputs) ←
      c.checkColumns (scope.addArguments schema) depth computations aliases
    return (.projection args computations aliases,
      (schema.filterOutputs args).addArguments outputs)
  | .selection elements => do
    ofExcept (schema.rejectAction .projection range)
    let checked ←
      elements.mapM (c.checkSelected schema (scope.addArguments schema) range depth)
    let selections := checked.map Prod.snd
    return (.selection (checked.map Prod.fst),
      (schema.filterOutputs (selections.filterMap Selection.kept?)).addArguments
        (selections.filterMap Selection.added?))
  | .question test => do
    ofExcept (schema.rejectAction .question range)
    let test ← c.checkFilter schema scope depth test
    return (.question test, schema.withOnlyOutput "__answer" .boolean)
  | .named name => return (.named name, schema)
  | .aggregation field op _ => do
    ofExcept (schema.requireList .aggregation range)
    let type ← if field = "*" then pure .any else ofExcept (schema.outputType field range)
    if field = "*" ∧ op ≠ "count" then
      Action.record (TypeError.operatorEvent op [type] range)
      throw (.invalidOperator op [type] range)
    let chosen ← c.overload .aggregations op [type] range
    let name := if op = "count" then "count" else field
    return (.aggregation field op (some chosen.types),
      { schema.withOnlyOutput name chosen.result with isList := false })
  | .sort value direction => do
    ofExcept (schema.requireList .sort range)
    let (value, type) ← c.checkValue (scope.addArguments schema) depth value
    if type.isComparable || type.isAny then return (.sort value direction, schema)
    else throw (.invalidValue (.notSortable type) range)
  | .index indices => do
    ofExcept (schema.requireList .index range)
    let indices ← indices.mapM (c.checkIndex scope range depth)
    return (.index indices, if picksOne indices then { schema with isList := false } else schema)
  | .slice base limit => do
    ofExcept (schema.requireList .slice range)
    let base ← c.checkNumber "base" scope range depth base
    let limit ← c.checkNumber "limit" scope range depth limit
    return (.slice base limit, schema)

/-- A stream stands only at the start of a chain, and an action only at its end. -/
def isMisplaced (type : FunctionType) (isFirst isLast : Bool) : Bool :=
  match type with
  | .stream => !isFirst
  | .action => !isLast
  | .query => false

mutual

/-- Checks an expression, and writes its signature into it. -/
def checkExpression (scope : Scope) (depth : Nat) (expression : Expression) :
    Check σ (Expression × Signature) := do
  guardDepth depth
  match expression with
  | .call info name params =>
    match scope.function? name <|> Builtin.function? name with
    | none => throw (.functionNotFound name info.range)
    | some schema =>
      let params ← c.checkCall schema params scope info.range depth
      return (.call { info with schema := some schema } name params, schema)
  | .invocation info i =>
    let (selector, schema) ← c.resolve i.selector i.channel .both i.range
    let params ← c.checkCall schema i.params scope i.range depth
    let i := { i with selector, params, schema := some schema }
    return (.invocation { info with schema := some schema } i, schema)
  | .clause info inner clause =>
    let (inner, schema) ← checkExpression scope (depth + 1) inner
    let (clause, schema) ← c.checkClause schema scope info.range (depth + 1) clause
    return (.clause { info with schema := some schema } inner clause, schema)
  | .chain info elements =>
    if Limits.maxChainLength < elements.length then
      throw (.chainTooLong elements.length info.range)
    let (elements, schemas) ← checkElementsOf scope (depth + 1) true elements
    let schema ← ofExcept (Signature.chained schemas info.range)
    return (.chain { info with schema := some schema } elements, schema)
  | .join info lhs rhs =>
    let (lhs, left) ← checkExpression scope (depth + 1) lhs
    ofExcept (left.rejectAction .join info.range)
    let (rhs, right) ← checkExpression (scope.addOutputs left) (depth + 1) rhs
    ofExcept (right.requireQuery .join info.range)
    let schema := left.joined right
    return (.join { info with schema := some schema } lhs rhs, schema)
termination_by structural expression

/-- Checks the elements of a chain; each one sees the outputs of those before it. -/
def checkElementsOf (scope : Scope) (depth : Nat) (isFirst : Bool) (elements : List Expression) :
    Check σ (List Expression × List Signature) := do
  match elements with
  | [] => return ([], [])
  | element :: elements =>
    let (checked, schema) ← checkExpression scope depth element
    if isMisplaced schema.type isFirst elements.isEmpty then
      throw (.invalidFunctionType .chainPosition schema.type element.range)
    let (elements, schemas) ← checkElementsOf (scope.addOutputs schema) depth false elements
    return (checked :: elements, schema :: schemas)
termination_by structural elements

end

end SkillLang.Checker
