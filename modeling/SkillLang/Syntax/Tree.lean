import SkillLang.Syntax.Dialogue

/-!
# Syntax trees

Every form of the language has its syntax tree: a node with the trees of its parts in
the order in which they are visited.  An expression comes before the values that use
its results, and the queries of a class come before its actions.  A visitor walks
through a tree and decides at every node whether to go into it.
-/

namespace SkillLang

inductive Node where
  | program (p : Program)
  | classDef (c : ClassDef)
  | function (s : Signature)
  | declaration (d : FunctionDeclaration)
  | statement (s : Statement)
  | permissionRule (r : PermissionRule)
  | permissionFunction (f : PermissionFunction)
  | control (c : ControlCommand)
  | dialogue (s : DialogueState)
  | historyItem (i : HistoryItem)
  | builtinSelector
  | device (d : Device)
  | param (p : Param)
  | invocation (i : Invocation)
  | value (v : Value)
  | filter (f : Filter)
  | expression (e : Expression)

inductive Tree where
  | node (label : Node) (children : List Tree)

namespace Tree

mutual
/-- The nodes of a tree, every node before those below it. -/
def nodes : Tree → List Node
  | node label children => label :: nodesOf children

def nodesOf : List Tree → List Node
  | [] => []
  | tree :: trees => nodes tree ++ nodesOf trees
end

end Tree

mutual

def Value.tree : Value → Tree
  | .array values type => .node (.value (.array values type)) (Value.trees values)
  | .computation op operands overload type =>
    .node (.value (.computation op operands overload type)) (Value.trees operands)
  | .field value name type => .node (.value (.field value name type)) [value.tree]
  | .filtered value filter type =>
    .node (.value (.filtered value filter type)) [value.tree, filter.tree]
  | .object fields => .node (.value (.object fields)) (Value.fieldTrees fields)
  | .var name type => .node (.value (.var name type)) []
  | .undefined isLocal => .node (.value (.undefined isLocal)) []
  | .context name type => .node (.value (.context name type)) []
  | .boolean b => .node (.value (.boolean b)) []
  | .string s => .node (.value (.string s)) []
  | .number x => .node (.value (.number x)) []
  | .measure x unit => .node (.value (.measure x unit)) []
  | .currency x code => .node (.value (.currency x code)) []
  | .place p => .node (.value (.place p)) []
  | .date d => .node (.value (.date d)) []
  | .time t => .node (.value (.time t)) []
  | .entity e => .node (.value (.entity e)) []
  | .enum entry => .node (.value (.enum entry)) []
  | .event name => .node (.value (.event name)) []
  | .argMap args => .node (.value (.argMap args)) []

def Value.trees : List Value → List Tree
  | [] => []
  | value :: values => value.tree :: Value.trees values

def Value.fieldTrees : List (String × Value) → List Tree
  | [] => []
  | (_, value) :: fields => value.tree :: Value.fieldTrees fields

def Filter.tree : Filter → Tree
  | .always => .node (.filter .always) []
  | .never => .node (.filter .never) []
  | .conj range operands => .node (.filter (.conj range operands)) (Filter.trees operands)
  | .disj range operands => .node (.filter (.disj range operands)) (Filter.trees operands)
  | .neg range operand => .node (.filter (.neg range operand)) [operand.tree]
  | .atom range name op value overload =>
    .node (.filter (.atom range name op value overload)) [value.tree]
  | .compute range lhs op rhs overload =>
    .node (.filter (.compute range lhs op rhs overload)) [lhs.tree, rhs.tree]
  | .dontCare range name => .node (.filter (.dontCare range name)) []
  | .external call filter =>
    .node (.filter (.external call filter)) (call.partTrees ++ [filter.tree])

def Filter.trees : List Filter → List Tree
  | [] => []
  | operand :: operands => operand.tree :: Filter.trees operands

def Param.trees : List Param → List Tree
  | [] => []
  | ⟨name, value, range⟩ :: params =>
    .node (.param ⟨name, value, range⟩) [value.tree] :: Param.trees params

def Device.tree : Device → Tree
  | ⟨kind, id, attributes, all, range⟩ =>
    .node (.device ⟨kind, id, attributes, all, range⟩) (Param.trees attributes)

def Selector.tree : Selector → Tree
  | .builtin => .node .builtinSelector []
  | .device d => d.tree

def Invocation.partTrees : Invocation → List Tree
  | ⟨selector, _, params, _, _⟩ => selector.tree :: Param.trees params

end

def Invocation.tree (i : Invocation) : Tree :=
  .node (.invocation i) i.partTrees

def Column.trees : Column → List Tree
  | .path _ => []
  | .value v => [v.tree]

def Clause.trees : Clause → List Tree
  | .filter f => [f.tree]
  | .monitor _ => []
  | .projection _ computations _ => Value.trees computations
  | .selection elements => elements.flatMap fun element => element.column.trees
  | .question f => [f.tree]
  | .named _ => []
  | .aggregation _ _ _ => []
  | .sort value _ => [value.tree]
  | .index indices => Value.trees indices
  | .slice base limit => [base.tree, limit.tree]

mutual

def Expression.tree : Expression → Tree
  | .call info name params => .node (.expression (.call info name params)) (Param.trees params)
  | .invocation info i => .node (.expression (.invocation info i)) [i.tree]
  | .clause info inner c =>
    .node (.expression (.clause info inner c)) (inner.tree :: c.trees)
  | .chain info elements => .node (.expression (.chain info elements)) (Expression.trees elements)
  | .join info lhs rhs => .node (.expression (.join info lhs rhs)) [lhs.tree, rhs.tree]

def Expression.trees : List Expression → List Tree
  | [] => []
  | e :: es => e.tree :: Expression.trees es

end

def Statement.tree (s : Statement) : Tree :=
  .node (.statement s) [s.body.tree]

def ClassDef.tree (c : ClassDef) : Tree :=
  .node (.classDef c) <|
    (c.queries.values ++ c.actions.values).map fun s => .node (.function s) []

def FunctionDeclaration.tree (d : FunctionDeclaration) : Tree :=
  .node (.declaration d) (d.statements.map Statement.tree)

def Program.tree (p : Program) : Tree :=
  .node (.program p) <|
    p.classes.map ClassDef.tree ++ p.declarations.map FunctionDeclaration.tree ++
      p.statements.map Statement.tree

def PermissionFunction.tree (f : PermissionFunction) : Tree :=
  .node (.permissionFunction f) <|
    match f with
    | .specified f => [f.filter.tree]
    | .builtin | .classStar _ | .star => []

def PermissionRule.tree (r : PermissionRule) : Tree :=
  .node (.permissionRule r) [r.principal.tree, r.query.tree, r.action.tree]

def ControlCommand.tree (c : ControlCommand) : Tree :=
  .node (.control c) <|
    match c.intent with
    | .answer value => [value.tree]
    | .special _ | .choice _ => []

def ResultList.trees (r : ResultList) : List Tree :=
  (r.rows.flatMap fun row => Value.fieldTrees row.values) ++ [r.count.tree] ++
    (match r.error with
      | some error => [error.tree]
      | none => [])

def HistoryItem.tree (i : HistoryItem) : Tree :=
  .node (.historyItem i) <|
    (Statement.expression i.statement).tree ::
      match i.results with
      | some results => results.trees
      | none => []

def DialogueState.tree (s : DialogueState) : Tree :=
  .node (.dialogue s) (s.history.map HistoryItem.tree)

def Input.tree : Input → Tree
  | .program p => p.tree
  | .permission r => r.tree
  | .dialogue s => s.tree
  | .control c => c.tree

/-! ## Visitors -/

/-- What is done on the way into a node, at it, and on the way out, with a state that is passed
along.  A visitor goes into the parts of a node when `visit` says so. -/
structure Visitor (σ : Type) where
  enter : Node → σ → σ := fun _ s => s
  visit : Node → σ → Bool × σ
  exit : Node → σ → σ := fun _ s => s

mutual
/-- Walks a visitor through a tree. -/
def Tree.walk {σ : Type} (v : Visitor σ) : Tree → σ → σ
  | .node label children, s =>
    match v.visit label (v.enter label s) with
    | (true, s) => v.exit label (Tree.walkAll v children s)
    | (false, s) => v.exit label s

def Tree.walkAll {σ : Type} (v : Visitor σ) : List Tree → σ → σ
  | [], s => s
  | tree :: trees, s => Tree.walkAll v trees (tree.walk v s)
end

def Node.isUndefined : Node → Bool
  | .value v => v.isUndefined
  | _ => false

/-- The device function that a node calls or speaks about. -/
def Node.referenced? : Node → Option String
  | .invocation i | .filter (.external i _) => i.selector.kind?.map fun _ => i.qualifiedName
  | .permissionFunction (.specified f) => some ("@" ++ f.kind ++ "." ++ f.channel)
  | _ => none

/-- Stops at the first level below which there is nothing to find. -/
def undefinedFinder : Visitor Bool where
  visit node found := if node.isUndefined then (false, true) else (true, found)

/-- Nothing is left to be asked for. -/
def Tree.isExecutable (t : Tree) : Bool :=
  !t.walk undefinedFinder false

def functionCollector : Visitor (Array String) where
  visit node names := (true, match node.referenced? with
    | some name => names.push name
    | none => names)

/-- The qualified names of the device functions that are referred to, in order. -/
def Tree.referencedFunctions (t : Tree) : List String :=
  (t.walk functionCollector #[]).toList

end SkillLang
