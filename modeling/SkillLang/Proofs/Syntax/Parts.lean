import SkillLang.Proofs.Insertion
import SkillLang.Syntax.Tree

/-!
# Parts of nodes

The parts of a node are the nodes right below it, in the order in which they stand in the
source: a selector before the parameters, parameters before a filter, and an expression before
the values that use its results.  The syntax trees are what results from taking the parts of
the parts, and so on.  A node below another one is told by its address, which says at every
level which one of the parts to take.
-/

namespace SkillLang

/-! ## Parts -/

def Value.parts : Value → List Node
  | .array values _ | .computation _ values _ _ => values.map .value
  | .field value _ _ => [.value value]
  | .filtered value filter _ => [.value value, .filter filter]
  | .object fields => fields.map fun (_, value) => .value value
  | .var _ _ | .undefined _ | .context _ _ | .boolean _ | .string _ | .number _ | .measure _ _
  | .currency _ _ | .place _ | .date _ | .time _ | .entity _ | .enum _ | .event _ | .argMap _ => []

def Selector.node : Selector → Node
  | .builtin => .builtinSelector
  | .device d => .device d

def Invocation.parts (i : Invocation) : List Node :=
  i.selector.node :: i.params.map .param

def Filter.parts : Filter → List Node
  | .always | .never | .dontCare _ _ => []
  | .conj _ operands | .disj _ operands => operands.map .filter
  | .neg _ operand => [.filter operand]
  | .atom _ _ _ value _ => [.value value]
  | .compute _ lhs _ rhs _ => [.value lhs, .value rhs]
  | .external call filter => call.parts ++ [.filter filter]

def Column.parts : Column → List Node
  | .path _ => []
  | .value v => [.value v]

def Clause.parts : Clause → List Node
  | .filter f | .question f => [.filter f]
  | .projection _ computations _ => computations.map .value
  | .selection elements => elements.flatMap fun element => element.column.parts
  | .sort value _ => [.value value]
  | .index indices => indices.map .value
  | .slice base limit => [.value base, .value limit]
  | .monitor _ | .named _ | .aggregation _ _ _ => []

def Expression.parts : Expression → List Node
  | .call _ _ params => params.map .param
  | .invocation _ i => [.invocation i]
  | .clause _ inner c => .expression inner :: c.parts
  | .chain _ elements => elements.map .expression
  | .join _ lhs rhs => [.expression lhs, .expression rhs]

def PermissionFunction.parts : PermissionFunction → List Node
  | .specified f => [.filter f.filter]
  | .builtin | .classStar _ | .star => []

def ControlIntent.parts : ControlIntent → List Node
  | .answer value => [.value value]
  | .special _ | .choice _ => []

def ResultList.parts (r : ResultList) : List Node :=
  (r.rows.flatMap fun row => row.values.map fun (_, value) => .value value) ++
    .value r.count :: (r.error.map .value).toList

/-- The nodes right below a node. -/
def Node.parts : Node → List Node
  | .program p =>
    p.classes.map .classDef ++ p.declarations.map .declaration ++ p.statements.map .statement
  | .classDef c => (c.queries.values ++ c.actions.values).map .function
  | .function _ => []
  | .declaration d => d.statements.map .statement
  | .statement s => [.expression s.body]
  | .permissionRule r =>
    [.filter r.principal, .permissionFunction r.query, .permissionFunction r.action]
  | .permissionFunction f => f.parts
  | .control c => c.intent.parts
  | .dialogue s => s.history.map .historyItem
  | .historyItem i =>
    .statement (.expression i.statement) :: i.results.toList.flatMap ResultList.parts
  | .builtinSelector => []
  | .device d => d.attributes.map .param
  | .param p => [.value p.value]
  | .invocation i => i.parts
  | .value v => v.parts
  | .filter f => f.parts
  | .expression e => e.parts

/-- The node of all of an input. -/
def Input.node : Input → Node
  | .program p => .program p
  | .permission r => .permissionRule r
  | .dialogue s => .dialogue s
  | .control c => .control c

/-! ## Trees -/

/-- The syntax tree of a node. -/
def Node.tree : Node → Tree
  | .program p => p.tree
  | .classDef c => c.tree
  | .function s => .node (.function s) []
  | .declaration d => d.tree
  | .statement s => s.tree
  | .permissionRule r => r.tree
  | .permissionFunction f => f.tree
  | .control c => c.tree
  | .dialogue s => s.tree
  | .historyItem i => i.tree
  | .builtinSelector => .node .builtinSelector []
  | .device d => d.tree
  | .param p => .node (.param p) [p.value.tree]
  | .invocation i => i.tree
  | .value v => v.tree
  | .filter f => f.tree
  | .expression e => e.tree

theorem Input.tree_eq
    (input : Input) :
    input.tree = input.node.tree := by
  cases input <;> rfl

theorem Value.trees_eq_map
    (values : List Value) :
    Value.trees values = values.map Value.tree := by
  induction values with
  | nil => rfl
  | cons value values ih => rw [Value.trees, ih, List.map_cons]

theorem Value.fieldTrees_eq_map
    (fields : List (String × Value)) :
    Value.fieldTrees fields = fields.map fun (_, value) => value.tree := by
  induction fields with
  | nil => rfl
  | cons field fields ih => rw [Value.fieldTrees, ih, List.map_cons]

theorem Filter.trees_eq_map
    (operands : List Filter) :
    Filter.trees operands = operands.map Filter.tree := by
  induction operands with
  | nil => rfl
  | cons operand operands ih => rw [Filter.trees, ih, List.map_cons]

theorem Param.trees_eq_map
    (params : List Param) :
    Param.trees params = params.map fun p => .node (.param p) [p.value.tree] := by
  induction params with
  | nil => rfl
  | cons p params ih =>
      obtain ⟨name, value, range⟩ := p
      rw [Param.trees, ih, List.map_cons]

theorem Expression.trees_eq_map
    (elements : List Expression) :
    Expression.trees elements = elements.map Expression.tree := by
  induction elements with
  | nil => rfl
  | cons element elements ih => rw [Expression.trees, ih, List.map_cons]

theorem Selector.tree_eq
    (s : Selector) :
    s.tree = s.node.tree := by
  cases s <;> rfl

theorem Invocation.partTrees_eq
    (i : Invocation) :
    i.partTrees = i.parts.map Node.tree := by
  obtain ⟨selector, channel, params, range, schema⟩ := i
  rw [Invocation.partTrees, Selector.tree_eq, Param.trees_eq_map, parts, List.map_cons,
    List.map_map]
  rfl

theorem Value.tree_eq
    (v : Value) :
    v.tree = .node (.value v) (v.parts.map Node.tree) := by
  cases v with
  | array _ _ | computation _ _ _ _ =>
      rw [tree, trees_eq_map, parts, List.map_map]
      rfl
  | object _ =>
      rw [tree, fieldTrees_eq_map, parts, List.map_map]
      rfl
  | _ => rfl

theorem Filter.tree_eq
    (f : Filter) :
    f.tree = .node (.filter f) (f.parts.map Node.tree) := by
  cases f with
  | conj _ _ | disj _ _ =>
      rw [tree, trees_eq_map, parts, List.map_map]
      rfl
  | external _ _ =>
      rw [tree, Invocation.partTrees_eq, parts, List.map_append]
      rfl
  | _ => rfl

theorem Clause.trees_eq
    (c : Clause) :
    c.trees = c.parts.map Node.tree := by
  cases c with
  | projection _ _ _ | index _ =>
      rw [trees, Value.trees_eq_map, parts, List.map_map]
      rfl
  | selection elements =>
      rw [trees, parts, List.map_flatMap]
      congr 1
      funext element
      cases element.column <;> rfl
  | _ => rfl

theorem Expression.tree_eq
    (e : Expression) :
    e.tree = .node (.expression e) (e.parts.map Node.tree) := by
  cases e with
  | call _ _ _ =>
      rw [tree, Param.trees_eq_map, parts, List.map_map]
      rfl
  | clause _ _ _ =>
      rw [tree, Clause.trees_eq, parts, List.map_cons]
      rfl
  | chain _ _ =>
      rw [tree, trees_eq_map, parts, List.map_map]
      rfl
  | _ => rfl

theorem ResultList.trees_eq
    (r : ResultList) :
    r.trees = r.parts.map Node.tree := by
  obtain ⟨rows, count, more, error, range⟩ := r
  cases error <;>
    simp [trees, parts, Value.fieldTrees_eq_map, List.map_flatMap, Function.comp_def, Node.tree]

/-- The tree of a node has the trees of the parts of the node below it. -/
theorem Node.tree_eq
    (n : Node) :
    n.tree = .node n (n.parts.map Node.tree) := by
  cases n with
  | value v => exact v.tree_eq
  | filter f => exact f.tree_eq
  | expression e => exact e.tree_eq
  | invocation i =>
      rw [tree, Invocation.tree, Invocation.partTrees_eq]
      rfl
  | device d =>
      obtain ⟨kind, id, attributes, all, range⟩ := d
      rw [tree, Device.tree, Param.trees_eq_map, parts, List.map_map]
      rfl
  | program p => simp [tree, Program.tree, parts, Function.comp_def]
  | classDef c => simp [tree, ClassDef.tree, parts, Function.comp_def]
  | declaration d => simp [tree, FunctionDeclaration.tree, parts, Function.comp_def]
  | dialogue s => simp [tree, DialogueState.tree, parts, Function.comp_def]
  | permissionFunction f => cases f <;> rfl
  | control c =>
      obtain ⟨intent, range⟩ := c
      cases intent <;> rfl
  | historyItem i =>
      obtain ⟨statement, results, confirm, range, _⟩ := i
      cases results with
      | none => rfl
      | some results => simp [tree, HistoryItem.tree, parts, ResultList.trees_eq]
  | statement _ | function _ | permissionRule _ | builtinSelector | param _ => rfl

mutual

theorem Tree.induction_of_eq
    {P : Node → Prop} (h : ∀ n, (∀ part ∈ n.parts, P part) → P n) (t : Tree) (n : Node)
    (ht : n.tree = t) :
    P n := by
  cases t with
  | node label children =>
      rw [Node.tree_eq, Tree.node.injEq] at ht
      exact h n (Tree.induction_of_map_eq h children n.parts ht.2)
termination_by structural t

theorem Tree.induction_of_map_eq
    {P : Node → Prop} (h : ∀ n, (∀ part ∈ n.parts, P part) → P n) (trees : List Tree)
    (parts : List Node) (htrees : parts.map Node.tree = trees) :
    ∀ part ∈ parts, P part := by
  cases trees with
  | nil =>
      rw [List.map_eq_nil_iff.mp htrees]
      exact List.forall_mem_nil P
  | cons t trees =>
      obtain ⟨part, parts, rfl, ht, htrees⟩ := List.map_eq_cons_iff.mp htrees
      exact List.forall_mem_cons.mpr
        ⟨Tree.induction_of_eq h t part ht, Tree.induction_of_map_eq h trees parts htrees⟩
termination_by structural trees

end

/-- What holds of a node if it holds of its parts holds of all nodes. -/
theorem Node.induction
    {P : Node → Prop} (h : ∀ n, (∀ part ∈ n.parts, P part) → P n) (n : Node) :
    P n :=
  Tree.induction_of_eq h n.tree n rfl

/-! ## Addresses -/

/-- The node that an address leads to. -/
def Node.at? : Node → List Nat → Option Node
  | n, [] => some n
  | n, i :: address => n.parts[i]?.bind fun part => part.at? address

/-! ## Classes -/

/-- Classes are built by adding functions one by one. -/
inductive ClassDef.IsBuilt : ClassDef → Prop
  | start (kind : String) (parents : List String) (range : Option Range) :
      IsBuilt ⟨kind, parents, [], [], range⟩
  | withFunction (h : IsBuilt c) (s : Signature) :
      IsBuilt (c.withFunction s)

/-- Functions stand under their names, and the names increase. -/
structure Signature.InOrder (functions : Keyed Signature) : Prop where
  name_eq : ∀ entry ∈ functions, entry.2.name = entry.1
  increasing : functions.keys.Pairwise (· < ·)

theorem Signature.InOrder.insert
    {functions : Keyed Signature} (h : InOrder functions) (s : Signature) :
    InOrder (Keyed.insert s.name s functions) where
  name_eq := by
    intro entry hentry
    rcases Keyed.mem_of_mem_insert hentry with rfl | hold
    · rfl
    · exact h.name_eq entry hold
  increasing := Keyed.pairwise_keys_insert h.increasing s.name s

theorem Signature.InOrder.pairwise_names
    {functions : Keyed Signature} (h : InOrder functions) :
    (functions.values.map Signature.name).Pairwise (· < ·) := by
  have hnames : functions.values.map Signature.name = functions.keys := by
    rw [Keyed.values, List.map_map]
    exact List.map_congr_left h.name_eq
  rw [hnames]
  exact h.increasing

theorem ClassDef.IsBuilt.inOrder
    {c : ClassDef} (h : c.IsBuilt) :
    Signature.InOrder c.queries ∧ Signature.InOrder c.actions := by
  induction h with
  | start _ _ _ => exact ⟨⟨List.forall_mem_nil _, .nil⟩, ⟨List.forall_mem_nil _, .nil⟩⟩
  | withFunction _ s ih =>
      obtain ⟨type, device, name⟩ := s
      cases type with
      | action => exact ⟨ih.1, ih.2.insert _⟩
      | query | stream => exact ⟨ih.1.insert _, ih.2⟩

end SkillLang
