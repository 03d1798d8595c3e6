import SkillLang.Syntax.Dialogue
import SkillLang.Typing.Expression

/-!
# Checking inputs

A program brings its classes, functions and assigned names into scope one after the
other.  The filters of a permission rule see who asks and what the query returned, and
the items of a dialogue are checked one by one together with their results.
-/

namespace SkillLang.Checker

variable {σ : Type} (c : Checker σ)

/-! ## Programs -/

/-- Checks a statement; the signature is that of its expression, and there is none for an
assignment, which brings a function into scope instead. -/
def checkStatement (scope : Scope) : Statement → Check σ (Statement × Option Signature × Scope)
  | .expression s => do
    let (expression, schema) ← c.checkExpression scope 0 s.expression
    return (.expression { s with expression }, some schema, scope)
  | .ret expression range => do
    let (expression, schema) ← c.checkExpression scope 0 expression
    return (.ret expression range, some schema, scope)
  | .assign name expression range => do
    let (expression, schema) ← c.checkExpression scope 0 expression
    return (.assign name expression range, none, scope.addFunction name (schema.assigned name))

/-- Checks statements in order; the signatures are those of their expressions, without the
assignments. -/
def checkStatements (scope : Scope) : List Statement → Check σ (List Statement × List Signature)
  | [] => return ([], [])
  | s :: rest => do
    let (s, schema, scope) ← c.checkStatement scope s
    let (rest, schemas) ← checkStatements scope rest
    return (s :: rest, schema.toList ++ schemas)

/-- The type of a function that runs expressions of these types: an action if there is one among
them, and otherwise what the last one is. -/
def bodyType (types : List FunctionType) : FunctionType :=
  if types.contains .action then .action else types.getLast?.getD .query

/-- The signature of a declared function, whose outputs are those of its last expression. -/
def declaredSignature (d : FunctionDeclaration) (body : List Signature) : Signature :=
  Signature.addArguments
    { type := bodyType (body.map Signature.type), device := none, name := d.name, args := d.args }
    ((body.getLast?.map Signature.outArgs).getD [])

def checkDeclaration (scope : Scope) (d : FunctionDeclaration) :
    Check σ (FunctionDeclaration × Signature) := do
  let (statements, body) ← c.checkStatements (scope.addAll d.args) d.statements
  let schema := declaredSignature d body
  return ({ d with statements, schema := some schema }, schema)

/-- Checks declarations in order; each one sees the functions before it. -/
def checkDeclarations (scope : Scope) :
    List FunctionDeclaration → Check σ (List FunctionDeclaration × Scope)
  | [] => return ([], scope)
  | d :: rest => do
    let (d, schema) ← c.checkDeclaration scope d
    let (rest, scope) ← checkDeclarations (scope.addFunction d.name schema) rest
    return (d :: rest, scope)

def checkProgram (p : Program) : Check σ Program := do
  let c := { c with classes := Keyed.ofList (p.classes.map fun d : ClassDef => (d.kind, d)) }
  let (declarations, scope) ← c.checkDeclarations .empty p.declarations
  let (statements, _) ← c.checkStatements scope p.statements
  Action.record (.debug "Program typechecked"
    [("classes", toString p.classes.length), ("declarations", toString declarations.length),
      ("statements", toString statements.length)])
  return { p with declarations, statements }

/-! ## Permission rules -/

/-- Checks the function of a permission; `isAction` says on which side of the rule it stands. -/
def checkSpecified (scope : Scope) (isAction : Bool) (f : SpecifiedFunction) :
    Check σ (SpecifiedFunction × Signature) := do
  let schema ← c.deviceSignature ⟨f.kind, f.channel, if isAction then .action else .query⟩
  if (schema.type == .action) != isAction then
    throw (.invalidFunctionType .permissionRule schema.type f.range)
  let filter ← c.checkFilter schema scope 0 f.filter
  return ({ f with filter, schema := some schema }, schema)

def checkPermissionFunction (scope : Scope) (isAction : Bool) :
    PermissionFunction → Check σ (PermissionFunction × Option Signature)
  | .specified f => do
    let (f, schema) ← c.checkSpecified scope isAction f
    return (.specified f, some schema)
  | .builtin => return (.builtin, none)
  | .classStar kind => return (.classStar kind, none)
  | .star => return (.star, none)

def checkPermission (r : PermissionRule) : Check σ PermissionRule := do
  let principal ← c.checkFilter .principal .empty 0 r.principal
  let (query, schema) ← c.checkPermissionFunction .empty false r.query
  let scope := match schema with
    | some schema => Scope.empty.addOutputs schema
    | none => .empty
  let (action, _) ← c.checkPermissionFunction scope true r.action
  return { r with principal, query, action }

/-! ## Dialogues -/

/-- The results have a number as their count, and only names that the signature has. -/
def checkResults (schema : Signature) (results : ResultList) : Except TypeError Unit := do
  let type := results.count.typeOf
  if !c.assignable type .number then
    throw (.invalidArgumentType "count" .number type results.range)
  results.rows.forM fun row =>
    row.values.forM fun (name, _) => schema.requireArg name row.range

def checkItem (item : HistoryItem) : Check σ HistoryItem := do
  let (expression, schema) ← c.checkExpression .empty 0 item.statement.expression
  if let some results := item.results then
    ofExcept (c.checkResults schema results)
  return { item with statement := { item.statement with expression } }

def checkDialogue (s : DialogueState) : Check σ DialogueState := do
  return { s with history := ← s.history.mapM c.checkItem }

def checkControl (command : ControlCommand) : Check σ ControlCommand :=
  match command.intent with
  | .answer value => do
    let (value, _) ← c.checkValue .empty 0 value
    return { command with intent := .answer value }
  | .special _ | .choice _ => return command

/-! ## Inputs -/

/-- Checks an input without recording how it ended. -/
def checkParts : Input → Check σ Input
  | .program p => return .program (← c.checkProgram p)
  | .permission r => return .permission (← c.checkPermission r)
  | .dialogue s => return .dialogue (← c.checkDialogue s)
  | .control command => return .control (← c.checkControl command)

/-- Checks an input and completes it with types, overloads and signatures. -/
def check (input : Input) : Check σ Input := do
  Action.record (.info "Starting typecheck" [("kind", input.kind)])
  try
    let checked ← c.checkParts input
    Action.record (.success .typecheckComplete "Typecheck complete" [("kind", input.kind)])
    return checked
  catch e =>
    Action.record e.event
    throw e

end SkillLang.Checker
