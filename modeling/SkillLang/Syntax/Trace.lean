import SkillLang.Decimal.Style
import SkillLang.Syntax.Tree

/-!
# Traces of visits

A trace tells step by step how a visitor goes through a tree: where it enters and
leaves each node, and between the two, which form of node it visits.
-/

namespace SkillLang

/-- How a form of node is told in a trace. -/
structure NodeTitle where
  /-- The class of the node. -/
  name : String
  /-- The form that is visited, which is finer than the class for values. -/
  visited : String
  /-- What tells nodes of the same form apart; empty if nothing does. -/
  detail : String := ""

namespace NodeTitle

/-- The step in which a node is visited. -/
def visit (t : NodeTitle) : String :=
  if t.detail.isEmpty then t.visited else t.visited ++ " " ++ t.detail

end NodeTitle

/-- The form of a value and what is shown of it. -/
def Value.visited : Value → String × String
  | array _ _ => ("array_value", "")
  | var name _ => ("var_ref_value", name)
  | computation op _ _ _ => ("computation_value", op)
  | field _ name _ => ("array_field_value", name)
  | filtered _ _ _ => ("filter_value", "")
  | undefined isLocal => ("undefined_value", if isLocal then "true" else "false")
  | context name _ => ("context_ref_value", name)
  | boolean b => ("boolean_value", if b then "true" else "false")
  | string s => ("string_value", s)
  | number x => ("number_value", Decimal.plain.write x)
  | measure _ unit => ("measure_value", unit)
  | currency _ code => ("currency_value", code)
  | place _ => ("location_value", "")
  | date _ => ("date_value", "")
  | time _ => ("time_value", "")
  | entity e => ("entity_value", e.kind)
  | enum entry => ("enum_value", entry)
  | event name => ("event_value", name.getD "")
  | argMap args => ("arg_map_value", toString args.length)
  | object fields => ("object_value", toString fields.length)

def Filter.title : Filter → NodeTitle
  | always => ⟨"TrueBooleanExpression", "true_boolean_expression", ""⟩
  | never => ⟨"FalseBooleanExpression", "false_boolean_expression", ""⟩
  | conj _ operands =>
    ⟨"AndBooleanExpression", "and_boolean_expression", toString operands.length⟩
  | disj _ operands => ⟨"OrBooleanExpression", "or_boolean_expression", toString operands.length⟩
  | neg _ _ => ⟨"NotBooleanExpression", "not_boolean_expression", ""⟩
  | atom _ name _ _ _ => ⟨"AtomBooleanExpression", "atom_boolean_expression", name⟩
  | compute _ _ op _ _ => ⟨"ComputeBooleanExpression", "compute_boolean_expression", op⟩
  | dontCare _ name => ⟨"DontCareBooleanExpression", "dont_care_boolean_expression", name⟩
  | external call _ =>
    ⟨"ExternalBooleanExpression", "external_boolean_expression", call.channel⟩

/-- An expression with a clause is told by its clause. -/
def Clause.title : Clause → NodeTitle
  | filter _ => ⟨"FilterExpression", "filter_expression", ""⟩
  | monitor _ => ⟨"MonitorExpression", "monitor_expression", ""⟩
  | projection _ _ _ => ⟨"ProjectionExpression", "projection_expression", ""⟩
  | selection _ => ⟨"ProjectionExpression2", "projection_expression2", ""⟩
  | question _ => ⟨"BooleanQuestionExpression", "boolean_question_expression", ""⟩
  | named name => ⟨"AliasExpression", "alias_expression", name⟩
  | aggregation _ op _ => ⟨"AggregationExpression", "aggregation_expression", op⟩
  | sort _ direction => ⟨"SortExpression", "sort_expression", direction.name⟩
  | index indices => ⟨"IndexExpression", "index_expression", toString indices.length⟩
  | slice _ _ => ⟨"SliceExpression", "slice_expression", ""⟩

def Expression.title : Expression → NodeTitle
  | call _ name _ => ⟨"FunctionCallExpression", "function_call_expression", name⟩
  | invocation _ _ => ⟨"InvocationExpression", "invocation_expression", ""⟩
  | clause _ _ c => c.title
  | chain _ elements => ⟨"ChainExpression", "chain_expression", toString elements.length⟩
  | join _ _ _ => ⟨"JoinExpression", "join_expression", ""⟩

def Statement.title : Statement → NodeTitle
  | expression _ => ⟨"ExpressionStatement", "expression_statement", ""⟩
  | ret _ _ => ⟨"ReturnStatement", "return_statement", ""⟩
  | assign name _ _ => ⟨"Assignment", "assignment", name⟩

def Node.title : Node → NodeTitle
  | program _ => ⟨"Program", "program", ""⟩
  | classDef c => ⟨"ClassDef", "class_def", c.kind⟩
  | function s => ⟨"FunctionDef", "function_def", s.name⟩
  | declaration d => ⟨"FunctionDeclaration", "function_declaration", d.name⟩
  | statement s => s.title
  | permissionRule _ => ⟨"PermissionRule", "permission_rule", ""⟩
  | permissionFunction _ => ⟨"PermissionFunction", "permission_function", ""⟩
  | control _ => ⟨"ControlCommand", "control_command", ""⟩
  | dialogue s => ⟨"DialogueState", "dialogue_state", s.policy⟩
  | historyItem i => ⟨"DialogueHistoryItem", "dialogue_history_item", i.confirm.name⟩
  | builtinSelector => ⟨"BuiltinSelector", "builtin_selector", ""⟩
  | device d => ⟨"DeviceSelector", "device_selector", d.kind⟩
  | param p => ⟨"InputParam", "input_param", p.name⟩
  | invocation i => ⟨"Invocation", "invocation", i.qualifiedName⟩
  | value v => ⟨"Value", v.visited.1, v.visited.2⟩
  | filter f => f.title
  | expression e => e.title

/-- Writes down every step; it does not go into nodes of the forms in `skip`. -/
def tracer (skip : List String) : Visitor (Array String) where
  enter node steps := steps.push ("+" ++ node.title.name)
  visit node steps := (!skip.contains node.title.visited, steps.push node.title.visit)
  exit node steps := steps.push ("-" ++ node.title.name)

def Tree.trace (t : Tree) (skip : List String) : List String :=
  (t.walk (tracer skip) #[]).toList

end SkillLang
