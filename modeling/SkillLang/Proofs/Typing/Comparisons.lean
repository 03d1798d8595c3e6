import SkillLang.Syntax.Dialogue
import SkillLang.Proofs.Typing.Acceptance
import SkillLang.Proofs.Typing.Requirements

/-!
# Overloads of comparisons

The filters that compare two values are annotated with the overload of their operator.
Forgetting these overloads leaves all other annotations as they are, those of computed
values and of aggregations included, as well as the attributes of devices and the results
of dialogues.
-/

namespace SkillLang

mutual

/-- The value without the overloads of the comparisons in it. -/
def Value.forget : Value → Value
  | .array values type => .array (Value.forgetAll values) type
  | .computation op operands overload type =>
    .computation op (Value.forgetAll operands) overload type
  | .field value name type => .field value.forget name type
  | .filtered value filter type => .filtered value.forget filter.forget type
  | .object fields => .object (Value.forgetFields fields)
  | value => value

def Value.forgetAll : List Value → List Value
  | [] => []
  | value :: values => value.forget :: Value.forgetAll values

def Value.forgetFields : List (String × Value) → List (String × Value)
  | [] => []
  | (name, value) :: fields => (name, value.forget) :: Value.forgetFields fields

def Filter.forget : Filter → Filter
  | .conj range operands => .conj range (Filter.forgetAll operands)
  | .disj range operands => .disj range (Filter.forgetAll operands)
  | .neg range operand => .neg range operand.forget
  | .atom range name op value _ => .atom range name op value.forget none
  | .compute range lhs op rhs _ => .compute range lhs.forget op rhs.forget none
  | .external call filter => .external call.forget filter.forget
  | filter => filter

def Filter.forgetAll : List Filter → List Filter
  | [] => []
  | operand :: operands => operand.forget :: Filter.forgetAll operands

def Param.forgetAll : List Param → List Param
  | [] => []
  | ⟨name, value, range⟩ :: params => ⟨name, value.forget, range⟩ :: Param.forgetAll params

def Invocation.forget : Invocation → Invocation
  | ⟨selector, channel, params, range, schema⟩ =>
    ⟨selector, channel, Param.forgetAll params, range, schema⟩

end

def Column.forget : Column → Column
  | .path name => .path name
  | .value v => .value v.forget

def Selected.forget (s : Selected) : Selected :=
  { s with column := s.column.forget }

def Clause.forget : Clause → Clause
  | .filter test => .filter test.forget
  | .monitor args => .monitor args
  | .projection args columns labels => .projection args (columns.map Value.forget) labels
  | .selection elements => .selection (elements.map Selected.forget)
  | .question test => .question test.forget
  | .named name => .named name
  | .aggregation field op overload => .aggregation field op overload
  | .sort value direction => .sort value.forget direction
  | .index indices => .index (indices.map Value.forget)
  | .slice base limit => .slice base.forget limit.forget

mutual

def Expression.forget : Expression → Expression
  | .call info name params => .call info name (Param.forgetAll params)
  | .invocation info i => .invocation info i.forget
  | .clause info inner applied => .clause info inner.forget applied.forget
  | .chain info elements => .chain info (Expression.forgetAll elements)
  | .join info lhs rhs => .join info lhs.forget rhs.forget

def Expression.forgetAll : List Expression → List Expression
  | [] => []
  | element :: elements => element.forget :: Expression.forgetAll elements

end

def Statement.forget : Statement → Statement
  | .expression s => .expression { s with expression := s.expression.forget }
  | .ret body range => .ret body.forget range
  | .assign name body range => .assign name body.forget range

def FunctionDeclaration.forget (d : FunctionDeclaration) : FunctionDeclaration :=
  { d with statements := d.statements.map Statement.forget }

def PermissionFunction.forget : PermissionFunction → PermissionFunction
  | .specified f => .specified { f with filter := f.filter.forget }
  | .builtin => .builtin
  | .classStar kind => .classStar kind
  | .star => .star

/-- The item with the overloads in its statement forgotten; its results stay as they are. -/
def HistoryItem.forget (item : HistoryItem) : HistoryItem :=
  { item with
    statement := { item.statement with expression := item.statement.expression.forget } }

/-- The input without the overloads of its comparisons. -/
def Input.forget : Input → Input
  | .program p =>
    .program { p with
      declarations := p.declarations.map FunctionDeclaration.forget
      statements := p.statements.map Statement.forget }
  | .permission ⟨principal, query, action, range⟩ =>
    .permission ⟨principal.forget, query.forget, action.forget, range⟩
  | .dialogue s => .dialogue { s with history := s.history.map HistoryItem.forget }
  | .control ⟨.answer value, range⟩ => .control ⟨.answer value.forget, range⟩
  | .control command => .control command

/-! ## What does not depend on these overloads -/

theorem Value.forgetAll_eq_map
    (values : List Value) :
    Value.forgetAll values = values.map Value.forget := by
  induction values with
  | nil => rfl
  | cons value values ih => rw [Value.forgetAll, ih, List.map_cons]

theorem Value.outputName_forget
    (v : Value) :
    v.forget.outputName = v.outputName := by
  cases v <;> rfl

theorem Value.matchesText_forget
    (v : Value) :
    v.forget.matchesText = v.matchesText := by
  cases v <;> rfl

theorem Param.any_forgetAll
    (test : String → (String → Bool) → Bool) (params : List Param) :
    ((Param.forgetAll params).any fun p => test p.name p.value.matchesText) =
      params.any fun p => test p.name p.value.matchesText := by
  induction params with
  | nil => rfl
  | cons p params ih =>
      obtain ⟨name, value, range⟩ := p
      simp only [Param.forgetAll, List.any_cons, Value.matchesText_forget, ih]

theorem Signature.requireParams_forgetAll
    (s : Signature) (params : List Param) (range : Option Range) :
    s.requireParams (Param.forgetAll params) range = s.requireParams params range :=
  requireParams_congr_of_any (fun test => Param.any_forgetAll test params) s range

theorem Checker.columnOutputs_map_forget
    (labels : List (Option String)) (columns : List Value) (types : List Ty) :
    columnOutputs labels (columns.map Value.forget) types =
      columnOutputs labels columns types := by
  induction columns generalizing labels types with
  | nil => rfl
  | cons column columns ih =>
      cases types with
      | nil => rfl
      | cons type types =>
          simp only [List.map_cons, columnOutputs, Value.outputName_forget, ih]

theorem Checker.picksOne_map_forget
    (indices : List Value) :
    picksOne (indices.map Value.forget) = picksOne indices := by
  match indices with
  | [] => rfl
  | [index] => cases index <;> rfl
  | _ :: _ :: _ => simp [picksOne]

end SkillLang
