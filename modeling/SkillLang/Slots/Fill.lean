import SkillLang.Slots.Basic

/-!
# Filling slots

Puts new values into the slots of an expression one after the other, in the order in
which the slots are reported.
-/

namespace SkillLang

variable {σ : Type} (f : Value → StateM σ Value)

def fillParams (params : List Param) : StateM σ (List Param) :=
  params.mapM fun p => do return { p with value := ← f p.value }

def Selector.fillSlots : Selector → StateM σ Selector
  | .builtin => return .builtin
  | .device d => do return .device { d with attributes := ← fillParams f d.attributes }

mutual
def Filter.fillSlots : Filter → StateM σ Filter
  | .conj range operands => do return .conj range (← Filter.fillSlotsOf operands)
  | .disj range operands => do return .disj range (← Filter.fillSlotsOf operands)
  | .neg range operand => do return .neg range (← Filter.fillSlots operand)
  | .atom range name op value overload => do return .atom range name op (← f value) overload
  | .compute range lhs op rhs overload => do
    let lhs ← f lhs
    let rhs ← f rhs
    return .compute range lhs op rhs overload
  | .external call filter => do
    let selector ← call.selector.fillSlots f
    let params ← fillParams f call.params
    let filter ← Filter.fillSlots filter
    return .external { call with selector, params } filter
  | .dontCare range name => return .dontCare range name
  | .always => return .always
  | .never => return .never

def Filter.fillSlotsOf : List Filter → StateM σ (List Filter)
  | [] => return []
  | operand :: operands => do
    let operand ← Filter.fillSlots operand
    return operand :: (← Filter.fillSlotsOf operands)
end

def Column.fillSlots : Column → StateM σ Column
  | .path name => return .path name
  | .value v => return .value (← f v)

def Clause.fillSlots : Clause → StateM σ Clause
  | .filter test => return .filter (← test.fillSlots f)
  | .monitor args => return .monitor args
  | .projection args computations aliases =>
    return .projection args (← computations.mapM f) aliases
  | .selection elements =>
    return .selection (← elements.mapM fun element => do
      return { element with column := ← element.column.fillSlots f })
  | .question test => return .question (← test.fillSlots f)
  | .named name => return .named name
  | .aggregation field op overload => return .aggregation field op overload
  | .sort value direction => return .sort (← f value) direction
  | .index indices => return .index (← indices.mapM f)
  | .slice base limit => do
    let base ← f base
    let limit ← f limit
    return .slice base limit

mutual
/-- The expression with the value of each of its slots changed by `f`. -/
def Expression.fillSlots : Expression → StateM σ Expression
  | .invocation info i => do
    let selector ← i.selector.fillSlots f
    let params ← fillParams f i.params
    return .invocation info { i with selector, params }
  | .call info name params => return .call info name (← fillParams f params)
  | .clause info inner c => do
    let inner ← Expression.fillSlots inner
    let c ← c.fillSlots f
    return .clause info inner c
  | .chain info elements => return .chain info (← Expression.fillSlotsOf elements)
  | .join info lhs rhs => do
    let lhs ← Expression.fillSlots lhs
    let rhs ← Expression.fillSlots rhs
    return .join info lhs rhs

def Expression.fillSlotsOf : List Expression → StateM σ (List Expression)
  | [] => return []
  | element :: elements => do
    let element ← Expression.fillSlots element
    return element :: (← Expression.fillSlotsOf elements)
end

end SkillLang
