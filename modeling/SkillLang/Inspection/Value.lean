import SkillLang.Inspection.Constant
import SkillLang.Inspection.Signature
import SkillLang.Syntax.Value

/-!
# Inspected values and filters

Values and filters with all their parts: the ranges in the source and the types,
overloads and signatures that checking fills in are shown where they are known.
-/

namespace SkillLang

mutual

def Value.inspection : Value → Inspection
  | .array values type =>
    .form "Array" [.record "ArrayValue" [
      ("values", .list (Value.inspections values)),
      ("ty", .ofOption (type.map Ty.inspection))]]
  | .var name type =>
    .form "VarRef" [.record "VarRefValue" [
      ("name", .quoted name),
      ("ty", .ofOption (type.map Ty.inspection))]]
  | .computation op operands overload type =>
    .form "Computation" [.record "ComputationValue" [
      ("op", .quoted op),
      ("operands", .list (Value.inspections operands)),
      ("overload", Ty.overloadInspection overload),
      ("ty", .ofOption (type.map Ty.inspection))]]
  | .field value name type =>
    .form "ArrayField" [.record "ArrayFieldValue" [
      ("value", value.inspection),
      ("field", .quoted name),
      ("ty", .ofOption (type.map Ty.inspection))]]
  | .filtered value filter type =>
    .form "Filter" [.record "FilterValue" [
      ("value", value.inspection),
      ("filter", filter.inspection),
      ("ty", .ofOption (type.map Ty.inspection))]]
  | .undefined isLocal => .record "Undefined" [("local", .ofBool isLocal)]
  | .context name type =>
    .form "ContextRef" [.record "ContextRefValue" [
      ("name", .quoted name), ("ty", type.inspection)]]
  | .boolean b => .form "Boolean" [.ofBool b]
  | .string s => .form "String" [.quoted s]
  | .number x => .form "Number" [.ofFloat x]
  | .measure x unit =>
    .form "Measure" [.record "MeasureValue" [("value", .ofFloat x), ("unit", .quoted unit)]]
  | .currency x code =>
    .form "Currency" [.record "CurrencyValue" [("value", .ofFloat x), ("code", .quoted code)]]
  | .place p => .form "Location" [p.inspection]
  | .date d => .form "Date" [d.inspection]
  | .time t => .form "Time" [t.inspection]
  | .entity e => .form "Entity" [e.inspection]
  | .enum entry => .form "Enum" [.quoted entry]
  | .event name => .form "Event" [.ofOption (name.map .quoted)]
  | .argMap args => .form "ArgMap" [.map (Ty.fieldInspections args)]
  | .object fields => .form "Object" [.map (Value.fieldInspections fields)]

def Value.inspections : List Value → List Inspection
  | [] => []
  | value :: values => value.inspection :: Value.inspections values

def Value.fieldInspections : List (String × Value) → List (String × Inspection)
  | [] => []
  | (name, value) :: fields => (name, value.inspection) :: Value.fieldInspections fields

def Filter.inspection : Filter → Inspection
  | .always => .word "True"
  | .never => .word "False"
  | .conj range operands =>
    .form "And" [.record "AndBooleanExpression" [
      ("range", Range.optionInspection range),
      ("operands", .list (Filter.inspections operands))]]
  | .disj range operands =>
    .form "Or" [.record "OrBooleanExpression" [
      ("range", Range.optionInspection range),
      ("operands", .list (Filter.inspections operands))]]
  | .neg range operand =>
    .form "Not" [.record "NotBooleanExpression" [
      ("range", Range.optionInspection range),
      ("expr", operand.inspection)]]
  | .atom range name op value overload =>
    .form "Atom" [.record "AtomBooleanExpression" [
      ("range", Range.optionInspection range),
      ("name", .quoted name),
      ("operator", .quoted op),
      ("value", value.inspection),
      ("overload", Ty.overloadInspection overload)]]
  | .compute range lhs op rhs overload =>
    .form "Compute" [.record "ComputeBooleanExpression" [
      ("range", Range.optionInspection range),
      ("lhs", lhs.inspection),
      ("operator", .quoted op),
      ("rhs", rhs.inspection),
      ("overload", Ty.overloadInspection overload)]]
  | .dontCare range name =>
    .form "DontCare" [.record "DontCareBooleanExpression" [
      ("range", Range.optionInspection range),
      ("name", .quoted name)]]
  | .external ⟨selector, channel, params, range, schema⟩ filter =>
    .form "External" [.record "ExternalBooleanExpression" [
      ("range", Range.optionInspection range),
      ("selector", selector.inspection),
      ("channel", .quoted channel),
      ("in_params", .list (Param.inspections params)),
      ("filter", filter.inspection),
      ("schema", .ofOption (schema.map Signature.inspection))]]

def Filter.inspections : List Filter → List Inspection
  | [] => []
  | operand :: operands => operand.inspection :: Filter.inspections operands

def Param.inspection : Param → Inspection
  | ⟨name, value, range⟩ =>
    .record "InputParam" [
      ("range", Range.optionInspection range),
      ("name", .quoted name),
      ("value", value.inspection)]

def Param.inspections : List Param → List Inspection
  | [] => []
  | param :: params => param.inspection :: Param.inspections params

def Device.inspection : Device → Inspection
  | ⟨kind, id, attributes, all, range⟩ =>
    .record "DeviceSelector" [
      ("range", Range.optionInspection range),
      ("kind", .quoted kind),
      ("id", .ofOption (id.map .quoted)),
      ("attributes", .list (Param.inspections attributes)),
      ("all", .ofBool all)]

def Selector.inspection : Selector → Inspection
  | .builtin => .word "Builtin"
  | .device d => .form "Device" [d.inspection]

end

end SkillLang
