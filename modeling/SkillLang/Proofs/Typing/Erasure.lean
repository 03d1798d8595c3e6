import SkillLang.Proofs.Typing.Visited
import SkillLang.Source.Program

/-!
# Erasure

Erasing an input takes away what a check writes, that is signatures, overloads and the
types of values that stand for others, and changes the devices that calls select by a
function.  Attributes of devices and results of dialogues are left as they are.  The
source of an input does not depend on what is erased.
-/

namespace SkillLang

variable (f : Device → Device)

def Selector.erase : Selector → Selector
  | .builtin => .builtin
  | .device d => .device (f d)

mutual

/-- The value without annotations and with its devices changed by `f`. -/
def Value.erase : Value → Value
  | .array values _ => .array (Value.eraseAll values) none
  | .var name _ => .var name none
  | .computation op operands _ _ => .computation op (Value.eraseAll operands) none none
  | .field value name _ => .field value.erase name none
  | .filtered value filter _ => .filtered value.erase filter.erase none
  | .undefined isLocal => .undefined isLocal
  | .context name type => .context name type
  | .boolean b => .boolean b
  | .string s => .string s
  | .number x => .number x
  | .measure x unit => .measure x unit
  | .currency x code => .currency x code
  | .place p => .place p
  | .date d => .date d
  | .time t => .time t
  | .entity e => .entity e
  | .enum entry => .enum entry
  | .event name => .event name
  | .argMap args => .argMap args
  | .object fields => .object (Value.eraseFields fields)

def Value.eraseAll : List Value → List Value
  | [] => []
  | value :: values => value.erase :: Value.eraseAll values

def Value.eraseFields : List (String × Value) → List (String × Value)
  | [] => []
  | (name, value) :: fields => (name, value.erase) :: Value.eraseFields fields

def Filter.erase : Filter → Filter
  | .always => .always
  | .never => .never
  | .conj range operands => .conj range (Filter.eraseAll operands)
  | .disj range operands => .disj range (Filter.eraseAll operands)
  | .neg range operand => .neg range operand.erase
  | .atom range name op value _ => .atom range name op value.erase none
  | .compute range lhs op rhs _ => .compute range lhs.erase op rhs.erase none
  | .dontCare range name => .dontCare range name
  | .external call filter => .external call.erase filter.erase

def Filter.eraseAll : List Filter → List Filter
  | [] => []
  | operand :: operands => operand.erase :: Filter.eraseAll operands

def Param.eraseAll : List Param → List Param
  | [] => []
  | ⟨name, value, range⟩ :: params => ⟨name, value.erase, range⟩ :: Param.eraseAll params

def Invocation.erase : Invocation → Invocation
  | ⟨selector, channel, params, range, _⟩ =>
    ⟨selector.erase f, channel, Param.eraseAll params, range, none⟩

end

def Column.erase : Column → Column
  | .path name => .path name
  | .value v => .value (v.erase f)

def Selected.erase (s : Selected) : Selected :=
  { s with column := s.column.erase f }

def Clause.erase : Clause → Clause
  | .filter test => .filter (test.erase f)
  | .monitor args => .monitor args
  | .projection args columns labels => .projection args (Value.eraseAll f columns) labels
  | .selection elements => .selection (elements.map (Selected.erase f))
  | .question test => .question (test.erase f)
  | .named name => .named name
  | .aggregation field op _ => .aggregation field op none
  | .sort value direction => .sort (value.erase f) direction
  | .index indices => .index (Value.eraseAll f indices)
  | .slice base limit => .slice (base.erase f) (limit.erase f)

mutual

def Expression.erase : Expression → Expression
  | .call info name params => .call ⟨info.range, none⟩ name (Param.eraseAll f params)
  | .invocation info i => .invocation ⟨info.range, none⟩ (i.erase f)
  | .clause info inner c => .clause ⟨info.range, none⟩ inner.erase (c.erase f)
  | .chain info elements => .chain ⟨info.range, none⟩ (Expression.eraseAll elements)
  | .join info lhs rhs => .join ⟨info.range, none⟩ lhs.erase rhs.erase

def Expression.eraseAll : List Expression → List Expression
  | [] => []
  | element :: elements => element.erase :: Expression.eraseAll elements

end

def Statement.erase : Statement → Statement
  | .expression s => .expression { s with expression := s.expression.erase f }
  | .ret body range => .ret (body.erase f) range
  | .assign name body range => .assign name (body.erase f) range

def FunctionDeclaration.erase (d : FunctionDeclaration) : FunctionDeclaration :=
  { d with statements := d.statements.map (Statement.erase f), schema := none }

def Program.erase (p : Program) : Program :=
  { p with
    declarations := p.declarations.map (FunctionDeclaration.erase f)
    statements := p.statements.map (Statement.erase f) }

def PermissionFunction.erase : PermissionFunction → PermissionFunction
  | .specified p => .specified { p with filter := p.filter.erase f, schema := none }
  | .builtin => .builtin
  | .classStar kind => .classStar kind
  | .star => .star

def PermissionRule.erase (r : PermissionRule) : PermissionRule :=
  { r with
    principal := r.principal.erase f
    query := r.query.erase f
    action := r.action.erase f }

/-- The item with its statement erased; its results stay as they are. -/
def HistoryItem.erase (item : HistoryItem) : HistoryItem :=
  { item with
    statement := { item.statement with expression := item.statement.expression.erase f } }

def DialogueState.erase (s : DialogueState) : DialogueState :=
  { s with history := s.history.map (HistoryItem.erase f) }

def ControlCommand.erase (command : ControlCommand) : ControlCommand :=
  { command with
    intent := match command.intent with
      | .answer value => .answer (value.erase f)
      | .special name => .special name
      | .choice index => .choice index }

/-- The input without annotations and with the devices of its calls changed by `f`. -/
def Input.erase : Input → Input
  | .program p => .program (p.erase f)
  | .permission r => .permission (r.erase f)
  | .dialogue s => .dialogue (s.erase f)
  | .control command => .control (command.erase f)

/-! ## Priorities -/

@[simp] theorem Value.length_eraseAll
    (values : List Value) :
    (Value.eraseAll f values).length = values.length := by
  induction values with
  | nil => rfl
  | cons value values ih => simp [Value.eraseAll, ih]

@[simp] theorem Value.priority_erase
    (v : Value) :
    (v.erase f).priority = v.priority := by
  cases v with
  | computation op operands _ _ => simp [Value.erase, Value.priority]
  | array _ _ | var _ _ | field _ _ _ | filtered _ _ _ | undefined _ | context _ _
  | boolean _ | string _ | number _ | measure _ _ | currency _ _ | place _ | date _ | time _
  | entity _ | enum _ | event _ | argMap _ | object _ =>
      rfl

@[simp] theorem Filter.priority_erase
    (filter : Filter) :
    (filter.erase f).priority = filter.priority := by
  cases filter <;> rfl

@[simp] theorem Filter.isAlways_erase
    (filter : Filter) :
    (filter.erase f).isAlways = filter.isAlways := by
  cases filter <;> rfl

@[simp] theorem Filter.isEmpty_eraseAll
    (operands : List Filter) :
    (Filter.eraseAll f operands).isEmpty = operands.isEmpty := by
  cases operands <;> rfl

@[simp] theorem Param.isEmpty_eraseAll
    (params : List Param) :
    (Param.eraseAll f params).isEmpty = params.isEmpty := by
  cases params with
  | nil => rfl
  | cons p params =>
      cases p
      rfl

@[simp] theorem Clause.priority_erase
    (clause : Clause) :
    (clause.erase f).priority = clause.priority := by
  cases clause <;> rfl

@[simp] theorem Expression.priority_erase
    (expression : Expression) :
    (expression.erase f).priority = expression.priority := by
  match expression with
  | .call _ _ _ | .invocation _ _ | .join _ _ _ => rfl
  | .clause _ _ c => exact Clause.priority_erase f c
  | .chain _ [] | .chain _ (_ :: _ :: _) => rfl
  | .chain _ [element] => exact Expression.priority_erase element

/-! ## Sources -/

/-- The node is not a device that `f` would change. -/
def Node.IsKept (label : Node) : Prop :=
  ∀ d, label = .device d → f d = d

variable {f}

open SkillLang.Tree

theorem Selector.erase_eq_self
    {selector : Selector} (h : selector.tree.Every (Node.IsKept f)) :
    selector.erase f = selector := by
  cases selector with
  | builtin => rfl
  | device d =>
      cases d
      exact congrArg Selector.device ((every_device _ _).mp h _ rfl)

mutual

theorem Value.source_erase :
    (v : Value) → v.tree.Every (Node.IsKept f) → (v.erase f).source = v.source
  | .array values _, h => by
      simp only [Value.erase, Value.source, Value.sources_eraseAll values (h.below rfl)]
  | .computation op operands _ _, h => by
      simp only [Value.erase, Value.source, Value.sources_eraseAll operands (h.below rfl)]
  | .field value name _, h => by
      have hvalue := (everyOf_cons _ _).mp (h.below rfl)
      simp only [Value.erase, Value.source, Value.priority_erase,
        Value.source_erase value hvalue.1]
  | .filtered value filter _, h => by
      have hvalue := (everyOf_cons _ _).mp (h.below rfl)
      have hfilter := (everyOf_cons _ _).mp hvalue.2
      simp only [Value.erase, Value.source, Value.priority_erase,
        Value.source_erase value hvalue.1, Filter.source_erase filter hfilter.1]
  | .object fields, h => by
      simp only [Value.erase, Value.source, Value.fieldSources_eraseFields fields (h.below rfl)]
  | .var _ _, _ | .undefined _, _ | .context _ _, _ | .boolean _, _ | .string _, _
  | .number _, _ | .measure _ _, _ | .currency _ _, _ | .place _, _ | .date _, _ | .time _, _
  | .entity _, _ | .enum _, _ | .event _, _ | .argMap _, _ =>
      rfl

theorem Value.sources_eraseAll :
    (values : List Value) → EveryOf (Node.IsKept f) (Value.trees values) →
      Value.sources (Value.eraseAll f values) = Value.sources values
  | [], _ => rfl
  | value :: values, h => by
      have hparts := (everyOf_cons _ _).mp h
      simp only [Value.eraseAll, Value.sources, Value.priority_erase,
        Value.source_erase value hparts.1, Value.sources_eraseAll values hparts.2]

theorem Value.fieldSources_eraseFields :
    (fields : List (String × Value)) → EveryOf (Node.IsKept f) (Value.fieldTrees fields) →
      Value.fieldSources (Value.eraseFields f fields) = Value.fieldSources fields
  | [], _ => rfl
  | (_, value) :: fields, h => by
      have hparts := (everyOf_cons _ _).mp h
      simp only [Value.eraseFields, Value.fieldSources, Value.source_erase value hparts.1,
        Value.fieldSources_eraseFields fields hparts.2]

theorem Filter.source_erase :
    (filter : Filter) → filter.tree.Every (Node.IsKept f) →
      (filter.erase f).source = filter.source
  | .always, _ | .never, _ | .dontCare _ _, _ => rfl
  | .conj _ operands, h => by
      simp only [Filter.erase, Filter.source, Filter.isEmpty_eraseAll,
        Filter.sources_eraseAll .and operands (h.below rfl)]
  | .disj _ operands, h => by
      simp only [Filter.erase, Filter.source, Filter.isEmpty_eraseAll,
        Filter.sources_eraseAll .or operands (h.below rfl)]
  | .neg _ operand, h => by
      have hoperand := (everyOf_cons _ _).mp (h.below rfl)
      simp only [Filter.erase, Filter.source, Filter.priority_erase,
        Filter.source_erase operand hoperand.1]
  | .atom _ _ _ value _, h => by
      have hvalue := (everyOf_cons _ _).mp (h.below rfl)
      simp only [Filter.erase, Filter.source, Value.priority_erase,
        Value.source_erase value hvalue.1]
  | .compute _ lhs _ rhs _, h => by
      have hlhs := (everyOf_cons _ _).mp (h.below rfl)
      have hrhs := (everyOf_cons _ _).mp hlhs.2
      simp only [Filter.erase, Filter.source, Value.priority_erase,
        Value.source_erase lhs hlhs.1, Value.source_erase rhs hrhs.1]
  | .external call filter, h => by
      have hparts := (everyOf_append _ _).mp (h.below rfl)
      have hfilter := (everyOf_cons _ _).mp hparts.2
      simp only [Filter.erase, Filter.source, Filter.isAlways_erase,
        Invocation.source_erase call hparts.1, Filter.source_erase filter hfilter.1]

theorem Filter.sources_eraseAll (priority : Priority) :
    (operands : List Filter) → EveryOf (Node.IsKept f) (Filter.trees operands) →
      Filter.sources priority (Filter.eraseAll f operands) = Filter.sources priority operands
  | [], _ => rfl
  | operand :: operands, h => by
      have hparts := (everyOf_cons _ _).mp h
      simp only [Filter.eraseAll, Filter.sources, Filter.priority_erase,
        Filter.source_erase operand hparts.1, Filter.sources_eraseAll priority operands hparts.2]

theorem Param.sources_eraseAll :
    (params : List Param) → EveryOf (Node.IsKept f) (Param.trees params) →
      Param.sources (Param.eraseAll f params) = Param.sources params
  | [], _ => rfl
  | ⟨_, value, _⟩ :: params, h => by
      have hparts := (everyOf_cons _ _).mp h
      have hvalue := (everyOf_cons _ _).mp (hparts.1.below rfl)
      simp only [Param.eraseAll, Param.sources, Value.source_erase value hvalue.1,
        Param.sources_eraseAll params hparts.2]

theorem Invocation.source_erase :
    (call : Invocation) → EveryOf (Node.IsKept f) call.partTrees →
      (call.erase f).source = call.source
  | ⟨selector, _, params, _, _⟩, h => by
      have hparts := (everyOf_cons _ _).mp h
      have hparams := Param.sources_eraseAll params hparts.2
      simp only [Invocation.erase, Selector.erase_eq_self hparts.1]
      cases selector with
      | builtin => simp only [Invocation.source, Param.isEmpty_eraseAll, hparams]
      | device d => simp only [Invocation.source, hparams]

end

theorem computationsSource_eraseAll
    {values : List Value} (labels : List (Option String))
    (h : EveryOf (Node.IsKept f) (Value.trees values)) :
    computationsSource (Value.eraseAll f values) labels = computationsSource values labels := by
  induction values generalizing labels with
  | nil => rfl
  | cons value values ih =>
      have hparts := (everyOf_cons _ _).mp h
      cases labels with
      | nil =>
          simp only [Value.eraseAll, computationsSource, Value.source_erase value hparts.1,
            ih [] hparts.2]
      | cons label labels =>
          simp only [Value.eraseAll, computationsSource, Value.source_erase value hparts.1,
            ih labels hparts.2]

theorem Column.source_erase
    {column : Column} (h : EveryOf (Node.IsKept f) column.trees) :
    (column.erase f).source = column.source := by
  cases column with
  | path name => rfl
  | value v => exact Value.source_erase v ((everyOf_cons _ _).mp h).1

theorem map_source_eraseAll
    {values : List Value} (h : EveryOf (Node.IsKept f) (Value.trees values)) :
    (Value.eraseAll f values).map Value.source = values.map Value.source := by
  induction values with
  | nil => rfl
  | cons value values ih =>
      have hparts := (everyOf_cons _ _).mp h
      simp only [Value.eraseAll, List.map_cons, Value.source_erase value hparts.1,
        ih hparts.2]

theorem map_source_eraseElements
    {elements : List Selected}
    (h : EveryOf (Node.IsKept f) (elements.flatMap fun element => element.column.trees)) :
    (elements.map (Selected.erase f)).map Selected.source = elements.map Selected.source := by
  induction elements with
  | nil => rfl
  | cons element elements ih =>
      rw [List.flatMap_cons] at h
      have hparts := (everyOf_append _ _).mp h
      have hcolumn : (element.erase f).column.source = element.column.source :=
        Column.source_erase hparts.1
      have helement : (element.erase f).source = element.source := by
        unfold Selected.source
        rw [hcolumn]
        rfl
      simp only [List.map_cons, helement, ih hparts.2]

theorem Clause.source_erase
    {clause : Clause} (h : EveryOf (Node.IsKept f) clause.trees) (inner : Priority)
    (source : TokenStream) :
    (clause.erase f).source inner source = clause.source inner source := by
  cases clause with
  | filter test | question test =>
      simp only [Clause.erase, Clause.source,
        Filter.source_erase test ((everyOf_cons _ _).mp h).1]
  | monitor _ | named _ | aggregation _ _ _ => rfl
  | projection args columns labels =>
      simp only [Clause.erase, Clause.source, computationsSource_eraseAll labels h]
  | selection elements =>
      simp only [Clause.erase, Clause.source, map_source_eraseElements h]
  | sort value _ =>
      simp only [Clause.erase, Clause.source,
        Value.source_erase value ((everyOf_cons _ _).mp h).1]
  | index indices => simp only [Clause.erase, Clause.source, map_source_eraseAll h]
  | slice base limit =>
      have hbase := (everyOf_cons _ _).mp h
      have hlimit := (everyOf_cons _ _).mp hbase.2
      simp only [Clause.erase, Clause.source, Value.source_erase base hbase.1,
        Value.source_erase limit hlimit.1]

mutual

theorem Expression.source_erase :
    (expression : Expression) → expression.tree.Every (Node.IsKept f) →
      (expression.erase f).source = expression.source
  | .call _ _ params, h => by
      simp only [Expression.erase, Expression.source,
        Param.sources_eraseAll params (h.below rfl)]
  | .invocation _ i, h => by
      have hcall := (everyOf_cons _ _).mp (h.below rfl)
      simp only [Expression.erase, Expression.source,
        Invocation.source_erase i (hcall.1.below rfl)]
  | .clause _ inner _, h => by
      have hparts := (everyOf_cons _ _).mp (h.below rfl)
      simp only [Expression.erase, Expression.source, Expression.priority_erase,
        Expression.source_erase inner hparts.1, Clause.source_erase hparts.2]
  | .chain _ elements, h => by
      simp only [Expression.erase, Expression.source,
        Expression.elementSources_eraseAll elements (h.below rfl)]
  | .join _ lhs rhs, h => by
      have hlhs := (everyOf_cons _ _).mp (h.below rfl)
      have hrhs := (everyOf_cons _ _).mp hlhs.2
      simp only [Expression.erase, Expression.source, Expression.priority_erase,
        Expression.source_erase lhs hlhs.1, Expression.source_erase rhs hrhs.1]

theorem Expression.elementSources_eraseAll :
    (elements : List Expression) → EveryOf (Node.IsKept f) (Expression.trees elements) →
      Expression.elementSources (Expression.eraseAll f elements) =
        Expression.elementSources elements
  | [], _ => rfl
  | element :: elements, h => by
      have hparts := (everyOf_cons _ _).mp h
      simp only [Expression.eraseAll, Expression.elementSources, Expression.priority_erase,
        Expression.source_erase element hparts.1,
        Expression.elementSources_eraseAll elements hparts.2]

end

theorem Statement.source_erase
    {statement : Statement} (h : statement.tree.Every (Node.IsKept f)) :
    (statement.erase f).source = statement.source := by
  have hbody := Expression.source_erase statement.body ((everyOf_cons _ _).mp (h.below rfl)).1
  cases statement with
  | expression s =>
      change (s.expression.erase f).source = s.expression.source at hbody
      simp only [Statement.erase, Statement.source, hbody]
  | ret body _ =>
      change (body.erase f).source = body.source at hbody
      simp only [Statement.erase, Statement.source, hbody]
  | assign _ body _ =>
      change (body.erase f).source = body.source at hbody
      simp only [Statement.erase, Statement.source, hbody]

theorem map_source_eraseStatements
    {statements : List Statement}
    (h : EveryOf (Node.IsKept f) (statements.map Statement.tree)) :
    (statements.map (Statement.erase f)).map Statement.source =
      statements.map Statement.source := by
  induction statements with
  | nil => rfl
  | cons statement statements ih =>
      have hparts := (everyOf_cons _ _).mp h
      simp only [List.map_cons, Statement.source_erase hparts.1, ih hparts.2]

theorem map_source_eraseDeclarations
    {declarations : List FunctionDeclaration}
    (h : EveryOf (Node.IsKept f) (declarations.map FunctionDeclaration.tree)) :
    (declarations.map (FunctionDeclaration.erase f)).map FunctionDeclaration.source =
      declarations.map FunctionDeclaration.source := by
  induction declarations with
  | nil => rfl
  | cons d declarations ih =>
      have hparts := (everyOf_cons _ _).mp h
      have hd : (d.erase f).source = d.source := by
        simp only [FunctionDeclaration.erase, FunctionDeclaration.source,
          map_source_eraseStatements (hparts.1.below rfl)]
      simp only [List.map_cons, hd, ih hparts.2]

theorem PermissionFunction.source_erase
    {function : PermissionFunction} (h : function.tree.Every (Node.IsKept f))
    (builtinWord : String) :
    (function.erase f).source builtinWord = function.source builtinWord := by
  cases function with
  | specified p =>
      have hfilter := Filter.source_erase p.filter ((everyOf_cons _ _).mp (h.below rfl)).1
      simp only [PermissionFunction.erase, PermissionFunction.source, Filter.isAlways_erase,
        hfilter]
  | builtin | classStar _ | star => rfl

theorem map_source_eraseHistory
    {history : List HistoryItem}
    (h : EveryOf (Node.IsKept f)
      ((history.map HistoryItem.withoutResults).map HistoryItem.tree)) :
    (history.map (HistoryItem.erase f)).map HistoryItem.source =
      history.map HistoryItem.source := by
  induction history with
  | nil => rfl
  | cons item history ih =>
      have hparts := (everyOf_cons _ _).mp h
      have hstatement := (everyOf_cons _ _).mp (hparts.1.below rfl)
      have hbody := Expression.source_erase item.statement.expression
        ((everyOf_cons _ _).mp (hstatement.1.below rfl)).1
      have hnotes : (item.erase f).annotations = item.annotations := rfl
      have hitem : (item.erase f).source = item.source := by
        simp only [HistoryItem.source, hnotes]
        simp only [HistoryItem.erase, hbody]
      simp only [List.map_cons, hitem, ih hparts.2]

/-- What is erased does not show in the source, if no device is changed. -/
theorem Input.source_erase
    {input : Input} (h : input.visitedTree.Every (Node.IsKept f)) :
    (input.erase f).source = input.source := by
  cases input with
  | program p =>
      have hparts := (everyOf_append _ _).mp (h.below rfl)
      have hdeclarations := (everyOf_append _ _).mp hparts.1
      simp only [Input.erase, Input.source, Program.erase, Program.source,
        map_source_eraseDeclarations hdeclarations.2, map_source_eraseStatements hparts.2]
  | permission r =>
      have hprincipal := (everyOf_cons _ _).mp (h.below rfl)
      have hquery := (everyOf_cons _ _).mp hprincipal.2
      have haction := (everyOf_cons _ _).mp hquery.2
      simp only [Input.erase, Input.source, PermissionRule.erase, PermissionRule.source,
        Filter.source_erase r.principal hprincipal.1, PermissionFunction.source_erase hquery.1,
        PermissionFunction.source_erase haction.1]
  | dialogue s =>
      have hhistory := map_source_eraseHistory (h.below rfl)
      simp only [Input.erase, Input.source, DialogueState.erase, DialogueState.source, hhistory]
  | control command =>
      obtain ⟨intent, range⟩ := command
      cases intent with
      | answer value =>
          have hvalue := Value.source_erase value ((everyOf_cons _ _).mp (h.below rfl)).1
          simp only [Input.erase, Input.source, ControlCommand.erase, ControlCommand.source, hvalue]
      | special _ | choice _ => rfl

end SkillLang
