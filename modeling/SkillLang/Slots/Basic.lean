import SkillLang.Syntax.Program

/-!
# Slots

The slots of an expression are the places that hold values which can be filled in: the
inputs of calls, the attributes of devices, the right-hand sides of comparisons, and
the other values of clauses.  Every slot comes with the argument that it stands for,
the call that it belongs to, and the outputs of earlier calls that are in scope.
-/

namespace SkillLang

/-- What a name in scope stands for: its type and the call that it is an output of. -/
structure ScopeEntry where
  type : Ty
  origin : String
deriving BEq

abbrev ScopeMap := Keyed ScopeEntry

inductive OwnerKind where
  | invocation
  | call
  | external
deriving DecidableEq

/-- The call that a slot belongs to. -/
structure Owner where
  kind : OwnerKind
  name : String
  schema : Option Signature

namespace Owner

def ofInvocation (i : Invocation) : Owner :=
  ⟨.invocation, i.qualifiedName, i.schema⟩

def ofExternal (i : Invocation) : Owner :=
  ⟨.external, i.qualifiedName, i.schema⟩

/-- The scope after a call: its outputs come in, over others of the same names. -/
def extend (o : Owner) (scope : ScopeMap) : ScopeMap :=
  match o.schema with
  | none => scope
  | some schema =>
    schema.outArgs.foldl (fun scope a => Keyed.insert a.name ⟨a.type, o.name⟩ scope) scope

end Owner

inductive SlotKind where
  | inputParam
  | deviceAttribute
  | filterAtom
  | scalar
deriving DecidableEq

structure Slot where
  kind : SlotKind
  name : Option String
  value : Value
  arg : Option Argument
  owner : Option Owner
  scope : ScopeMap

namespace Slot

def isUndefined (s : Slot) : Bool :=
  s.value.isUndefined

/-- A slot that stands for no argument. -/
def scalar (owner : Option Owner) (scope : ScopeMap) (value : Value) : Slot :=
  ⟨.scalar, none, value, none, owner, scope⟩

end Slot

def Selector.slots (owner : Owner) (scope : ScopeMap) : Selector → List Slot
  | .builtin => []
  | .device d => d.attributes.map fun a =>
    ⟨.deviceAttribute, some a.name, a.value, none, some owner, scope⟩

def paramSlots (owner : Owner) (scope : ScopeMap) (params : List Param) : List Slot :=
  params.map fun p =>
    ⟨.inputParam, some p.name, p.value, owner.schema.bind fun s => s.arg? p.name, some owner, scope⟩

mutual
/-- The slots of a filter on the results of a signature. -/
def Filter.slots (scope : ScopeMap) :
    (schema : Option Signature) → (owner : Option Owner) → Filter → List Slot
  | schema, owner, .conj _ operands => Filter.slotsOf scope schema owner operands
  | schema, owner, .disj _ operands => Filter.slotsOf scope schema owner operands
  | schema, owner, .neg _ operand => Filter.slots scope schema owner operand
  | schema, owner, .atom _ name _ value _ =>
    [⟨.filterAtom, some name, value, schema.bind fun s => s.arg? name, owner, scope⟩]
  | _, owner, .compute _ lhs _ rhs _ => [.scalar owner scope lhs, .scalar owner scope rhs]
  | _, _, .external call filter =>
    let inner := Owner.ofExternal call
    call.selector.slots inner scope ++ paramSlots inner scope call.params ++
      Filter.slots scope call.schema (some inner) filter
  | _, _, .dontCare _ _ => []
  | _, _, .always => []
  | _, _, .never => []

def Filter.slotsOf (scope : ScopeMap) :
    (schema : Option Signature) → (owner : Option Owner) → List Filter → List Slot
  | _, _, [] => []
  | schema, owner, operand :: operands =>
    Filter.slots scope schema owner operand ++ Filter.slotsOf scope schema owner operands
end

/-- The values of a clause that are slots of their own. -/
def Clause.scalars : Clause → List Value
  | .projection _ computations _ => computations
  | .selection elements => elements.filterMap fun element =>
    match element.column with
    | .path _ => none
    | .value v => some v
  | .sort value _ => [value]
  | .index indices => indices
  | .slice base limit => [base, limit]
  | .filter _ | .monitor _ | .question _ | .named _ | .aggregation _ _ _ => []

/-- The slots of a clause on the results of a signature. -/
def Clause.slots (scope : ScopeMap) (schema : Option Signature) (owner : Option Owner)
    (c : Clause) : List Slot :=
  match c with
  | .filter f | .question f => f.slots scope schema owner
  | c => c.scalars.map (.scalar owner scope)

/-- The slots of an expression, the call that its results come from, and the scope after it. -/
structure SlotReport where
  slots : List Slot
  owner : Option Owner
  scope : ScopeMap

namespace Expression

mutual
/-- The slots of an expression that is used in a scope. -/
def slotReport : Expression → ScopeMap → SlotReport
  | invocation _ i, scope =>
    let owner := Owner.ofInvocation i
    ⟨i.selector.slots owner scope ++ paramSlots owner scope i.params, some owner,
      owner.extend scope⟩
  | call info name params, scope =>
    let owner : Owner := ⟨.call, name, info.schema⟩
    ⟨paramSlots owner scope params, some owner, owner.extend scope⟩
  | clause _ inner c, scope =>
    let report := slotReport inner scope
    let schema := inner.schema.or (report.owner.bind Owner.schema)
    { report with slots := report.slots ++ c.slots report.scope schema report.owner }
  | chain _ elements, scope => slotReportOf elements ⟨[], none, scope⟩
  | join _ lhs rhs, scope =>
    let left := slotReport lhs scope
    let right := slotReport rhs left.scope
    { right with slots := left.slots ++ right.slots }

/-- Goes on with the elements of a chain after a report on those before. -/
def slotReportOf : List Expression → SlotReport → SlotReport
  | [], before => before
  | element :: elements, before =>
    let report := slotReport element before.scope
    slotReportOf elements { report with slots := before.slots ++ report.slots }
end

def slots (e : Expression) : List Slot :=
  (e.slotReport []).slots

end Expression

/-- The slots of the statements of a program; declared functions have none of their own. -/
def Program.slots (p : Program) : List Slot :=
  p.statements.flatMap fun s => s.body.slots

end SkillLang
