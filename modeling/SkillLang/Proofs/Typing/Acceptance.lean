import SkillLang.Proofs.ActionResults
import SkillLang.Typing.Input

/-!
# Acceptance

The rules by which a checker accepts a part of an input, in which scope and at which
depth, together with the annotated part that it makes of it and the type or signature
that it finds.  The rules are those of a single successful run.  They leave open in
which order parts are visited, how errors are told, and what a stateful source of
signatures remembers: a signature only has to be one of its possible answers.
-/

namespace SkillLang

/-- The value has neither parts nor annotations. -/
def Value.isLeaf : Value → Bool
  | .array _ _ | .var _ _ | .computation _ _ _ _ | .field _ _ _ | .filtered _ _ _
  | .object _ => false
  | .undefined _ | .context _ _ | .boolean _ | .string _ | .number _ | .measure _ _
  | .currency _ _ | .place _ | .date _ | .time _ | .entity _ | .enum _ | .event _
  | .argMap _ => true

namespace Checker

variable {σ : Type} (c : Checker σ)

/-- The checker may find the signature when it looks for a function of a device. -/
def Answers (key : LookupKey) (schema : Signature) : Prop :=
  (c.deviceSignature key).MayReturn schema

/-- A call names a function with a signature, and its selector has a normal form. -/
inductive Resolves : Selector → String → LookupKind → Selector → Signature → Prop
  | builtin
      (hfunction : Builtin.function? channel = some schema) :
      Resolves .builtin channel kind .builtin schema
  | device
      (hnormal : d.normalize = .ok normal)
      (hanswer : c.Answers ⟨normal.kind, channel, kind⟩ schema) :
      Resolves (.device d) channel kind (.device normal) schema

/-- All types fit the first one. -/
def Uniform (types : List Ty) : Prop :=
  ∀ type ∈ types.tail, c.assignable type (types.headD .any) = true

mutual

/-- In a scope and at a depth, a value is annotated and has a type. -/
inductive AcceptsValue : Scope → Nat → Value → Value → Ty → Prop
  | leaf
      (hdepth : depth ≤ Limits.maxDepth)
      (hleaf : value.isLeaf = true) :
      AcceptsValue scope depth value value value.typeOf
  | var
      (hdepth : depth ≤ Limits.maxDepth)
      (hvar : scope.var? name = some type) :
      AcceptsValue scope depth (.var name known) (.var name (some type)) type
  | computation
      (hdepth : depth ≤ Limits.maxDepth)
      (hoperands : AcceptsValues scope (depth + 1) operands operands' types)
      (hchosen : OperatorTable.scalars.resolve? op types c.lenient = some chosen) :
      AcceptsValue scope depth (.computation op operands noted known)
        (.computation op operands' (some chosen.types) (some chosen.result)) chosen.result
  | field
      (hdepth : depth ≤ Limits.maxDepth)
      (hvalue : AcceptsValue scope (depth + 1) value value' type)
      (hfound : type.recordFields?.bind (Keyed.find? name) = some found) :
      AcceptsValue scope depth (.field value name known)
        (.field value' name (some (.array found))) (.array found)
  | filtered
      (hdepth : depth ≤ Limits.maxDepth)
      (hvalue : AcceptsValue scope (depth + 1) value value' type)
      (hfields : type.recordFields? = some fields)
      (hfilter : AcceptsFilter (.ofElement fields) scope (depth + 1) filter filter') :
      AcceptsValue scope depth (.filtered value filter known)
        (.filtered value' filter' (some type)) type
  | array
      (hdepth : depth ≤ Limits.maxDepth)
      (hvalues : AcceptsValues scope (depth + 1) values values' types)
      (huniform : c.Uniform types)
      (htype : type = known.getD (.array (types.headD .any))) :
      AcceptsValue scope depth (.array values known) (.array values' (some type)) type
  | object
      (hdepth : depth ≤ Limits.maxDepth)
      (hfields : AcceptsFields scope (depth + 1) fields fields' types) :
      AcceptsValue scope depth (.object fields) (.object fields') (.compound types)

inductive AcceptsValues : Scope → Nat → List Value → List Value → List Ty → Prop
  | nil : AcceptsValues scope depth [] [] []
  | cons
      (hvalue : AcceptsValue scope depth value value' type)
      (hvalues : AcceptsValues scope depth values values' types) :
      AcceptsValues scope depth (value :: values) (value' :: values') (type :: types)

inductive AcceptsFields :
    Scope → Nat → List (String × Value) → List (String × Value) → List (String × Ty) → Prop
  | nil : AcceptsFields scope depth [] [] []
  | cons
      (hvalue : AcceptsValue scope depth value value' type)
      (hfields : AcceptsFields scope depth fields fields' types) :
      AcceptsFields scope depth ((name, value) :: fields) ((name, value') :: fields')
        ((name, type) :: types)

/-- A filter on the results of a signature is annotated. -/
inductive AcceptsFilter : Signature → Scope → Nat → Filter → Filter → Prop
  | always
      (hdepth : depth ≤ Limits.maxDepth) :
      AcceptsFilter schema scope depth .always .always
  | never
      (hdepth : depth ≤ Limits.maxDepth) :
      AcceptsFilter schema scope depth .never .never
  | conj
      (hdepth : depth ≤ Limits.maxDepth)
      (hoperands : AcceptsFilters schema scope (depth + 1) operands operands') :
      AcceptsFilter schema scope depth (.conj range operands) (.conj range operands')
  | disj
      (hdepth : depth ≤ Limits.maxDepth)
      (hoperands : AcceptsFilters schema scope (depth + 1) operands operands') :
      AcceptsFilter schema scope depth (.disj range operands) (.disj range operands')
  | neg
      (hdepth : depth ≤ Limits.maxDepth)
      (hoperand : AcceptsFilter schema scope (depth + 1) operand operand') :
      AcceptsFilter schema scope depth (.neg range operand) (.neg range operand')
  | dontCare
      (hdepth : depth ≤ Limits.maxDepth)
      (harg : schema.requireArg name range = .ok ()) :
      AcceptsFilter schema scope depth (.dontCare range name) (.dontCare range name)
  | atom
      (hdepth : depth ≤ Limits.maxDepth)
      (htype : ((schema.arg? name).map Argument.type <|> scope.var? name) = some type)
      (hvalue : AcceptsValue (scope.addArguments schema) (depth + 1) value value' found)
      (hchosen :
        OperatorTable.filters.resolve? op [type, found] c.lenient = some chosen) :
      AcceptsFilter schema scope depth (.atom range name op value noted)
        (.atom range name op value' (some chosen.types))
  | compute
      (hdepth : depth ≤ Limits.maxDepth)
      (hlhs : AcceptsValue (scope.addArguments schema) (depth + 1) lhs lhs' lhsType)
      (hrhs : AcceptsValue (scope.addArguments schema) (depth + 1) rhs rhs' rhsType)
      (hchosen :
        OperatorTable.filters.resolve? op [lhsType, rhsType] c.lenient = some chosen) :
      AcceptsFilter schema scope depth (.compute range lhs op rhs noted)
        (.compute range lhs' op rhs' (some chosen.types))
  | external
      (hdepth : depth ≤ Limits.maxDepth)
      (hresolve : c.Resolves selector channel .query selector' external)
      (hkind : external.rejectAction .externalFilter range = .ok ())
      (hparams : AcceptsParams external scope (depth + 2) [] params params')
      (hrequired : external.requireParams params' range = .ok ())
      (hfilter : AcceptsFilter external scope (depth + 1) filter filter') :
      AcceptsFilter schema scope depth
        (.external ⟨selector, channel, params, range, known⟩ filter)
        (.external ⟨selector', channel, params', range, some external⟩ filter')

inductive AcceptsFilters : Signature → Scope → Nat → List Filter → List Filter → Prop
  | nil : AcceptsFilters schema scope depth [] []
  | cons
      (hfilter : AcceptsFilter schema scope depth filter filter')
      (hfilters : AcceptsFilters schema scope depth filters filters') :
      AcceptsFilters schema scope depth (filter :: filters) (filter' :: filters')

/-- Parameters are passed to a signature after others of the names in a list. -/
inductive AcceptsParams :
    Signature → Scope → Nat → List String → List Param → List Param → Prop
  | nil : AcceptsParams schema scope depth seen [] []
  | cons
      (harg : (schema.arg? name).filter Argument.isInput = some arg)
      (hfresh : seen.contains name = false)
      (hvalue : AcceptsValue scope depth value value' type)
      (hfits : c.assignable type arg.type = true)
      (hparams : AcceptsParams schema scope depth (name :: seen) params params') :
      AcceptsParams schema scope depth seen
        (⟨name, value, range⟩ :: params) (⟨name, value', range⟩ :: params')

end

/-! ## Expressions -/

/-- The parameters of a call are accepted and nothing is missing. -/
structure AcceptsCall (schema : Signature) (scope : Scope) (range : Option Range)
    (depth : Nat) (params params' : List Param) : Prop where
  params : c.AcceptsParams schema scope (depth + 1) [] params params'
  required : schema.requireParams params' range = .ok ()

/-- The outputs of computed columns of given types. -/
def columnOutputs : List (Option String) → List Value → List Ty → List Argument
  | labels, value :: values, type :: types =>
    { name := labels.head?.join.getD value.outputName, direction := .out, type } ::
      columnOutputs labels.tail values types
  | _, _, _ => []

/-- A value is accepted with a type that passes a test. -/
def AcceptsFitting (fits : Ty → Bool) (scope : Scope) (depth : Nat)
    (value value' : Value) : Prop :=
  ∃ type, c.AcceptsValue scope depth value value' type ∧ fits type = true

/-- The types of an index: a number or an array of numbers. -/
def fitsIndex (type : Ty) : Bool :=
  c.assignable type .number || c.assignable type (.array .number)

def fitsNumber (type : Ty) : Bool :=
  c.assignable type .number

/-- The types by which results are sorted. -/
def fitsSort (type : Ty) : Bool :=
  type.isComparable || type.isAny

inductive AcceptsSelected (schema : Signature) (scope : Scope) (range : Option Range)
    (depth : Nat) : Selected → Selected × Selection → Prop
  | path
      (hselect : c.selectPath schema path label types range = .ok selection) :
      AcceptsSelected schema scope range depth ⟨.path path, label, types⟩
        (⟨.path path, label, types⟩, selection)
  | value
      (hvalue : c.AcceptsValue scope depth value value' type) :
      AcceptsSelected schema scope range depth ⟨.value value, label, types⟩
        (⟨.value value', label, types⟩,
          .added { name := label.getD value'.outputName, direction := .out, type })

/-- A clause is applied to an expression with the signature `schema`, and leads to another
signature. -/
inductive AcceptsClause (schema : Signature) (scope : Scope) (range : Option Range)
    (depth : Nat) : Clause → Clause → Signature → Prop
  | filter
      (hkind : schema.rejectAction .filter range = .ok ())
      (htest : c.AcceptsFilter schema scope depth test test') :
      AcceptsClause schema scope range depth (.filter test) (.filter test') schema
  | monitor
      (hresult : schema.monitored (args.getD []) range = .ok result) :
      AcceptsClause schema scope range depth (.monitor args) (.monitor args) result
  | projection
      (hkind : schema.rejectAction .projection range = .ok ())
      (hargs : args.forM (fun name => schema.requireArg name range) = .ok ())
      (hcolumns : c.AcceptsValues (scope.addArguments schema) depth columns columns' types) :
      AcceptsClause schema scope range depth (.projection args columns labels)
        (.projection args columns' labels)
        ((schema.filterOutputs args).addArguments (columnOutputs labels columns' types))
  | selection
      (hkind : schema.rejectAction .projection range = .ok ())
      (helements : List.Forall₂
        (c.AcceptsSelected schema (scope.addArguments schema) range depth) elements checked) :
      AcceptsClause schema scope range depth (.selection elements)
        (.selection (checked.map Prod.fst))
        ((schema.filterOutputs
          ((checked.map Prod.snd).filterMap Selection.kept?)).addArguments
            ((checked.map Prod.snd).filterMap Selection.added?))
  | question
      (hkind : schema.rejectAction .question range = .ok ())
      (htest : c.AcceptsFilter schema scope depth test test') :
      AcceptsClause schema scope range depth (.question test) (.question test')
        (schema.withOnlyOutput "__answer" .boolean)
  | named :
      AcceptsClause schema scope range depth (.named name) (.named name) schema
  | aggregation
      (hlist : schema.requireList .aggregation range = .ok ())
      (htype :
        if field = "*" then type = .any else schema.outputType field range = .ok type)
      (hcount : field = "*" → op = "count")
      (hchosen : OperatorTable.aggregations.resolve? op [type] c.lenient = some chosen) :
      AcceptsClause schema scope range depth (.aggregation field op known)
        (.aggregation field op (some chosen.types))
        { schema.withOnlyOutput (if op = "count" then "count" else field) chosen.result with
          isList := false }
  | sort
      (hlist : schema.requireList .sort range = .ok ())
      (hvalue : c.AcceptsFitting fitsSort (scope.addArguments schema) depth value value') :
      AcceptsClause schema scope range depth (.sort value direction)
        (.sort value' direction) schema
  | index
      (hlist : schema.requireList .index range = .ok ())
      (hindices : List.Forall₂ (c.AcceptsFitting c.fitsIndex scope depth) indices indices') :
      AcceptsClause schema scope range depth (.index indices) (.index indices')
        (if picksOne indices' then { schema with isList := false } else schema)
  | slice
      (hlist : schema.requireList .slice range = .ok ())
      (hbase : c.AcceptsFitting c.fitsNumber scope depth base base')
      (hlimit : c.AcceptsFitting c.fitsNumber scope depth limit limit') :
      AcceptsClause schema scope range depth (.slice base limit) (.slice base' limit') schema

mutual

/-- In a scope and at a depth, an expression is annotated and has a signature. -/
inductive AcceptsExpression : Scope → Nat → Expression → Expression → Signature → Prop
  | call
      (hdepth : depth ≤ Limits.maxDepth)
      (hfunction : (scope.function? name <|> Builtin.function? name) = some schema)
      (hcall : c.AcceptsCall schema scope range depth params params') :
      AcceptsExpression scope depth (.call ⟨range, known⟩ name params)
        (.call ⟨range, some schema⟩ name params') schema
  | invocation
      (hdepth : depth ≤ Limits.maxDepth)
      (hresolve : c.Resolves selector channel .both selector' schema)
      (hcall : c.AcceptsCall schema scope callRange depth params params') :
      AcceptsExpression scope depth
        (.invocation ⟨range, known⟩ ⟨selector, channel, params, callRange, noted⟩)
        (.invocation ⟨range, some schema⟩
          ⟨selector', channel, params', callRange, some schema⟩) schema
  | clause {inner inner' : Expression}
      (hdepth : depth ≤ Limits.maxDepth)
      (hinner : AcceptsExpression scope (depth + 1) inner inner' base)
      (hclause : c.AcceptsClause base scope range (depth + 1) clause clause' schema) :
      AcceptsExpression scope depth (.clause ⟨range, known⟩ inner clause)
        (.clause ⟨range, some schema⟩ inner' clause') schema
  | chain
      (hdepth : depth ≤ Limits.maxDepth)
      (hlength : elements.length ≤ Limits.maxChainLength)
      (helements : AcceptsChain scope (depth + 1) true elements elements' schemas)
      (hschema : Signature.chained schemas range = .ok schema) :
      AcceptsExpression scope depth (.chain ⟨range, known⟩ elements)
        (.chain ⟨range, some schema⟩ elements') schema
  | join
      (hdepth : depth ≤ Limits.maxDepth)
      (hlhs : AcceptsExpression scope (depth + 1) lhs lhs' left)
      (hleft : left.rejectAction .join range = .ok ())
      (hrhs : AcceptsExpression (scope.addOutputs left) (depth + 1) rhs rhs' right)
      (hright : right.requireQuery .join range = .ok ()) :
      AcceptsExpression scope depth (.join ⟨range, known⟩ lhs rhs)
        (.join ⟨range, some (left.joined right)⟩ lhs' rhs') (left.joined right)

/-- The elements of a chain see the outputs of those before them. -/
inductive AcceptsChain :
    Scope → Nat → Bool → List Expression → List Expression → List Signature → Prop
  | nil : AcceptsChain scope depth isFirst [] [] []
  | cons
      (helement : AcceptsExpression scope depth element element' schema)
      (hplace : isMisplaced schema.type isFirst elements.isEmpty = false)
      (helements :
        AcceptsChain (scope.addOutputs schema) depth false elements elements' schemas) :
      AcceptsChain scope depth isFirst (element :: elements) (element' :: elements')
        (schema :: schemas)

end

/-! ## Inputs -/

/-- A statement in a scope, the signature of its expression and the scope after it. -/
inductive AcceptsStatement (scope : Scope) :
    Statement → Statement → Option Signature → Scope → Prop
  | expression
      (hbody : c.AcceptsExpression scope 0 body body' schema) :
      AcceptsStatement scope (.expression ⟨body, range⟩) (.expression ⟨body', range⟩)
        (some schema) scope
  | ret
      (hbody : c.AcceptsExpression scope 0 body body' schema) :
      AcceptsStatement scope (.ret body range) (.ret body' range) (some schema) scope
  | assign
      (hbody : c.AcceptsExpression scope 0 body body' schema) :
      AcceptsStatement scope (.assign name body range) (.assign name body' range) none
        (scope.addFunction name (schema.assigned name))

inductive AcceptsStatements :
    Scope → List Statement → List Statement → List Signature → Prop
  | nil : AcceptsStatements scope [] [] []
  | cons
      (hstatement : c.AcceptsStatement scope statement statement' schema next)
      (hrest : AcceptsStatements next rest rest' schemas) :
      AcceptsStatements scope (statement :: rest) (statement' :: rest')
        (schema.toList ++ schemas)

inductive AcceptsDeclarations :
    Scope → List FunctionDeclaration → List FunctionDeclaration → Scope → Prop
  | nil : AcceptsDeclarations scope [] [] scope
  | cons
      (hbody : c.AcceptsStatements (scope.addAll d.args) d.statements statements' body)
      (hrest : AcceptsDeclarations (scope.addFunction d.name (declaredSignature d body))
        rest rest' final) :
      AcceptsDeclarations scope (d :: rest)
        ({ d with statements := statements', schema := some (declaredSignature d body) } ::
          rest') final

/-- The kind under which the function on a side of a permission rule is looked up. -/
def permissionKind (isAction : Bool) : LookupKind :=
  if isAction then .action else .query

inductive AcceptsPermission (scope : Scope) (isAction : Bool) :
    PermissionFunction → PermissionFunction → Option Signature → Prop
  | specified
      (hanswer : c.Answers ⟨kind, channel, permissionKind isAction⟩ schema)
      (hside : (schema.type == .action) = isAction)
      (hfilter : c.AcceptsFilter schema scope 0 filter filter') :
      AcceptsPermission scope isAction (.specified ⟨kind, channel, filter, range, known⟩)
        (.specified ⟨kind, channel, filter', range, some schema⟩) (some schema)
  | builtin : AcceptsPermission scope isAction .builtin .builtin none
  | classStar : AcceptsPermission scope isAction (.classStar kind) (.classStar kind) none
  | star : AcceptsPermission scope isAction .star .star none

/-- What the action of a permission rule sees of the query. -/
def permissionScope (schema : Option Signature) : Scope :=
  match schema with
  | some schema => Scope.empty.addOutputs schema
  | none => .empty

/-- An item of a dialogue whose results, if there are any, fit its statement. -/
inductive AcceptsItem : HistoryItem → HistoryItem → Prop
  | mk {item : HistoryItem}
      (hbody : c.AcceptsExpression .empty 0 item.statement.expression body' schema)
      (hresults : ∀ results, item.results = some results →
        c.checkResults schema results = .ok ()) :
      AcceptsItem item { item with statement := { item.statement with expression := body' } }

/-- The checker of the statements of a program, whose classes come before the source. -/
def forProgram (p : Program) : Checker σ :=
  { c with classes := Keyed.ofList (p.classes.map fun d : ClassDef => (d.kind, d)) }

/-- The checker of the parts of an input. -/
def forInput : Input → Checker σ
  | .program p => c.forProgram p
  | .permission _ | .dialogue _ | .control _ => c

inductive AcceptsInput : Input → Input → Prop
  | program
      (hdeclarations :
        (c.forProgram p).AcceptsDeclarations .empty p.declarations declarations' scope)
      (hstatements : (c.forProgram p).AcceptsStatements scope p.statements statements' body) :
      AcceptsInput (.program p)
        (.program { p with declarations := declarations', statements := statements' })
  | permission
      (hprincipal : c.AcceptsFilter .principal .empty 0 principal principal')
      (hquery : c.AcceptsPermission .empty false query query' schema)
      (haction : c.AcceptsPermission (permissionScope schema) true action action' known) :
      AcceptsInput (.permission ⟨principal, query, action, range⟩)
        (.permission ⟨principal', query', action', range⟩)
  | dialogue
      (hhistory : List.Forall₂ c.AcceptsItem s.history history') :
      AcceptsInput (.dialogue s) (.dialogue { s with history := history' })
  | answer
      (hvalue : c.AcceptsValue .empty 0 value value' type) :
      AcceptsInput (.control ⟨.answer value, range⟩) (.control ⟨.answer value', range⟩)
  | special :
      AcceptsInput (.control ⟨.special name, range⟩) (.control ⟨.special name, range⟩)
  | choice :
      AcceptsInput (.control ⟨.choice number, range⟩) (.control ⟨.choice number, range⟩)

end Checker

end SkillLang
