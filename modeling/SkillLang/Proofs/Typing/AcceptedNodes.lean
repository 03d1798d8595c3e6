import SkillLang.Proofs.Typing.Acceptance
import SkillLang.Proofs.Typing.Visited

/-!
# Accepted nodes

Every node that a checker visits comes out of one of the rules of acceptance.  A property
of all nodes of a checked input can therefore be shown rule by rule, and the recursion
through the input is done here once for all of them.
-/

namespace SkillLang

/-- Nodes into which nothing is written and about which no rule says anything. -/
def Node.isPlain : Node → Bool
  | .program _ | .classDef _ | .function _ | .statement _ | .control _ | .dialogue _
  | .historyItem _ | .builtinSelector | .device _ | .param _ => true
  | .declaration _ | .permissionRule _ | .permissionFunction _ | .invocation _ | .value _
  | .filter _ | .expression _ => false

namespace Checker

open SkillLang.Tree

variable {σ : Type} (c : Checker σ)

/-- The node is the annotated side of a rule of acceptance. -/
inductive Accepted : Node → Prop
  | value
      (h : c.AcceptsValue scope depth value value' type) :
      Accepted (.value value')
  | filter
      (h : c.AcceptsFilter schema scope depth filter filter') :
      Accepted (.filter filter')
  | expression
      (h : c.AcceptsExpression scope depth expression expression' schema) :
      Accepted (.expression expression')
  | invocation
      (h : c.AcceptsExpression scope depth expression (.invocation info call) schema) :
      Accepted (.invocation call)
  | declaration
      (h : c.AcceptsDeclarations scope [d] [d'] final) :
      Accepted (.declaration d')
  | permissionFunction
      (h : c.AcceptsPermission scope isAction function function' schema) :
      Accepted (.permissionFunction function')
  | permissionRule
      (h : c.AcceptsInput (.permission r) (.permission r')) :
      Accepted (.permissionRule r')
  | plain
      (h : label.isPlain = true) :
      Accepted label

variable {c}

/-! ## Values and filters -/

theorem every_accepted_leaf
    (scope : Scope) {depth : Nat} {value : Value}
    (hdepth : depth ≤ Limits.maxDepth) (hleaf : value.isLeaf = true) :
    value.tree.Every c.Accepted := by
  have hvalue : c.AcceptsValue scope depth value value value.typeOf := .leaf hdepth hleaf
  have hlabel : c.Accepted (.value value) := .value hvalue
  cases value with
  | array _ _ | var _ _ | computation _ _ _ _ | field _ _ _ | filtered _ _ _ | object _ =>
      cases hleaf
  | undefined _ | context _ _ | boolean _ | string _ | number _ | measure _ _
  | currency _ _ | place _ | date _ | time _ | entity _ | enum _ | event _ | argMap _ =>
      exact (every_node rfl []).mpr ⟨hlabel, everyOf_nil⟩

theorem every_accepted_selector (selector : Selector) :
    selector.tree.Every c.Accepted := by
  cases selector with
  | builtin => exact (every_node rfl []).mpr ⟨.plain rfl, everyOf_nil⟩
  | device d =>
      cases d
      exact (every_device _ _).mpr (.plain rfl)

mutual

theorem AcceptsValue.every_accepted
    {scope : Scope} {depth : Nat} {value value' : Value} {type : Ty} :
    c.AcceptsValue scope depth value value' type → value'.tree.Every c.Accepted
  | .leaf hdepth hleaf => every_accepted_leaf scope hdepth hleaf
  | h@(.var _ _) => (every_node rfl []).mpr ⟨.value h, everyOf_nil⟩
  | h@(.computation _ hoperands _) =>
      (every_node rfl _).mpr ⟨.value h, hoperands.every_accepted⟩
  | h@(.field _ hvalue _) => by
      refine (every_node rfl _).mpr ⟨.value h, ?_⟩
      simp [hvalue.every_accepted]
  | h@(.filtered _ hvalue _ hfilter) => by
      refine (every_node rfl _).mpr ⟨.value h, ?_⟩
      simp [hvalue.every_accepted, hfilter.every_accepted]
  | h@(.array _ hvalues _ _) => (every_node rfl _).mpr ⟨.value h, hvalues.every_accepted⟩
  | h@(.object _ hfields) => (every_node rfl _).mpr ⟨.value h, hfields.every_accepted⟩

theorem AcceptsValues.every_accepted
    {scope : Scope} {depth : Nat} {values values' : List Value} {types : List Ty} :
    c.AcceptsValues scope depth values values' types →
      EveryOf c.Accepted (Value.trees values')
  | .nil => everyOf_nil
  | .cons hvalue hvalues =>
      (everyOf_cons _ _).mpr ⟨hvalue.every_accepted, hvalues.every_accepted⟩

theorem AcceptsFields.every_accepted
    {scope : Scope} {depth : Nat} {fields fields' : List (String × Value)}
    {types : List (String × Ty)} :
    c.AcceptsFields scope depth fields fields' types →
      EveryOf c.Accepted (Value.fieldTrees fields')
  | .nil => everyOf_nil
  | .cons hvalue hfields =>
      (everyOf_cons _ _).mpr ⟨hvalue.every_accepted, hfields.every_accepted⟩

theorem AcceptsFilter.every_accepted
    {schema : Signature} {scope : Scope} {depth : Nat} {filter filter' : Filter} :
    c.AcceptsFilter schema scope depth filter filter' → filter'.tree.Every c.Accepted
  | h@(.always _) | h@(.never _) | h@(.dontCare _ _) =>
      (every_node rfl []).mpr ⟨.filter h, everyOf_nil⟩
  | h@(.conj _ hoperands) | h@(.disj _ hoperands) =>
      (every_node rfl _).mpr ⟨.filter h, hoperands.every_accepted⟩
  | h@(.neg _ hoperand) => by
      refine (every_node rfl _).mpr ⟨.filter h, ?_⟩
      simp [hoperand.every_accepted]
  | h@(.atom _ _ hvalue _) => by
      refine (every_node rfl _).mpr ⟨.filter h, ?_⟩
      simp [hvalue.every_accepted]
  | h@(.compute _ hlhs hrhs _) => by
      refine (every_node rfl _).mpr ⟨.filter h, ?_⟩
      simp [hlhs.every_accepted, hrhs.every_accepted]
  | h@(.external _ _ _ hparams _ hfilter) => by
      refine (every_node rfl _).mpr ⟨.filter h, ?_⟩
      simp [Invocation.partTrees, every_accepted_selector, hparams.every_accepted,
        hfilter.every_accepted]

theorem AcceptsFilters.every_accepted
    {schema : Signature} {scope : Scope} {depth : Nat} {filters filters' : List Filter} :
    c.AcceptsFilters schema scope depth filters filters' →
      EveryOf c.Accepted (Filter.trees filters')
  | .nil => everyOf_nil
  | .cons hfilter hfilters =>
      (everyOf_cons _ _).mpr ⟨hfilter.every_accepted, hfilters.every_accepted⟩

theorem AcceptsParams.every_accepted
    {schema : Signature} {scope : Scope} {depth : Nat} {seen : List String}
    {params params' : List Param} :
    c.AcceptsParams schema scope depth seen params params' →
      EveryOf c.Accepted (Param.trees params')
  | .nil => everyOf_nil
  | .cons _ _ hvalue _ hparams => by
      refine (everyOf_cons _ _).mpr ⟨(every_node rfl _).mpr ⟨.plain rfl, ?_⟩,
        hparams.every_accepted⟩
      simp [hvalue.every_accepted]

end

/-! ## Expressions -/

theorem AcceptsFitting.every_accepted
    {fits : Ty → Bool} {scope : Scope} {depth : Nat} {value value' : Value}
    (h : c.AcceptsFitting fits scope depth value value') :
    value'.tree.Every c.Accepted := by
  obtain ⟨type, hvalue, -⟩ := h
  exact hvalue.every_accepted

theorem AcceptsSelected.every_accepted
    {schema : Signature} {scope : Scope} {range : Option Range} {depth : Nat}
    {element : Selected} {checked : Selected × Selection}
    (h : c.AcceptsSelected schema scope range depth element checked) :
    EveryOf c.Accepted checked.1.column.trees := by
  cases h with
  | path _ => exact everyOf_nil
  | value hvalue => exact (everyOf_cons _ _).mpr ⟨hvalue.every_accepted, everyOf_nil⟩

theorem AcceptsClause.every_accepted
    {base schema : Signature} {scope : Scope} {range : Option Range} {depth : Nat}
    {clause clause' : Clause}
    (h : c.AcceptsClause base scope range depth clause clause' schema) :
    EveryOf c.Accepted clause'.trees := by
  cases h with
  | filter _ htest | question _ htest =>
      exact (everyOf_cons _ _).mpr ⟨htest.every_accepted, everyOf_nil⟩
  | monitor _ | named | aggregation _ _ _ _ => exact everyOf_nil
  | projection _ _ hcolumns => exact hcolumns.every_accepted
  | selection _ helements =>
      simp only [Clause.trees, List.flatMap_map]
      induction helements with
      | nil => exact everyOf_nil
      | cons helement _ ih =>
          rw [List.flatMap_cons]
          exact (everyOf_append _ _).mpr ⟨helement.every_accepted, ih⟩
  | sort _ hvalue => exact (everyOf_cons _ _).mpr ⟨hvalue.every_accepted, everyOf_nil⟩
  | index _ hindices =>
      simp only [Clause.trees]
      induction hindices with
      | nil => exact everyOf_nil
      | cons hindex _ ih => exact (everyOf_cons _ _).mpr ⟨hindex.every_accepted, ih⟩
  | slice _ hbase hlimit =>
      simp [Clause.trees, hbase.every_accepted, hlimit.every_accepted]

mutual

theorem AcceptsExpression.every_accepted
    {scope : Scope} {depth : Nat} {expression expression' : Expression}
    {schema : Signature} :
    c.AcceptsExpression scope depth expression expression' schema →
      expression'.tree.Every c.Accepted
  | h@(.call _ _ hcall) =>
      (every_node rfl _).mpr ⟨.expression h, hcall.params.every_accepted⟩
  | h@(.invocation _ _ hcall) => by
      refine (every_node rfl _).mpr ⟨.expression h, ?_⟩
      refine (everyOf_cons _ _).mpr ⟨(every_node rfl _).mpr ⟨.invocation h, ?_⟩, everyOf_nil⟩
      simp [Invocation.partTrees, every_accepted_selector, hcall.params.every_accepted]
  | h@(.clause _ hinner hclause) => by
      refine (every_node rfl _).mpr ⟨.expression h, ?_⟩
      simp [hinner.every_accepted, hclause.every_accepted]
  | h@(.chain _ _ helements _) =>
      (every_node rfl _).mpr ⟨.expression h, helements.every_accepted⟩
  | h@(.join _ hlhs _ hrhs _) => by
      refine (every_node rfl _).mpr ⟨.expression h, ?_⟩
      simp [hlhs.every_accepted, hrhs.every_accepted]

theorem AcceptsChain.every_accepted
    {scope : Scope} {depth : Nat} {isFirst : Bool}
    {elements elements' : List Expression} {schemas : List Signature} :
    c.AcceptsChain scope depth isFirst elements elements' schemas →
      EveryOf c.Accepted (Expression.trees elements')
  | .nil => everyOf_nil
  | .cons helement _ helements =>
      (everyOf_cons _ _).mpr ⟨helement.every_accepted, helements.every_accepted⟩

end

/-! ## Inputs -/

theorem every_accepted_statement
    {statement : Statement} (h : statement.body.tree.Every c.Accepted) :
    statement.tree.Every c.Accepted := by
  refine (every_node rfl _).mpr ⟨.plain rfl, ?_⟩
  simp [h]

theorem AcceptsStatements.every_accepted
    {scope : Scope} {statements statements' : List Statement} {schemas : List Signature}
    (h : c.AcceptsStatements scope statements statements' schemas) :
    EveryOf c.Accepted (statements'.map Statement.tree) := by
  induction h with
  | nil => exact everyOf_nil
  | cons hstatement _ ih =>
      refine (everyOf_cons _ _).mpr ⟨every_accepted_statement ?_, ih⟩
      cases hstatement with
      | expression hbody | ret hbody | assign hbody => exact hbody.every_accepted

theorem AcceptsDeclarations.every_accepted
    {scope final : Scope} {declarations declarations' : List FunctionDeclaration}
    (h : c.AcceptsDeclarations scope declarations declarations' final) :
    EveryOf c.Accepted (declarations'.map FunctionDeclaration.tree) := by
  induction h with
  | nil => exact everyOf_nil
  | cons hbody _ ih =>
      refine (everyOf_cons _ _).mpr ⟨(every_node rfl _).mpr ⟨?_, hbody.every_accepted⟩, ih⟩
      exact .declaration (.cons hbody .nil)

theorem AcceptsPermission.every_accepted
    {scope : Scope} {isAction : Bool} {function function' : PermissionFunction}
    {schema : Option Signature}
    (h : c.AcceptsPermission scope isAction function function' schema) :
    function'.tree.Every c.Accepted := by
  refine (every_node rfl _).mpr ⟨.permissionFunction h, ?_⟩
  cases h with
  | specified _ _ hfilter => simp [hfilter.every_accepted]
  | builtin | classStar | star => exact everyOf_nil

theorem every_accepted_history
    {history history' : List HistoryItem} (h : List.Forall₂ c.AcceptsItem history history') :
    EveryOf c.Accepted
      ((history'.map HistoryItem.withoutResults).map HistoryItem.tree) := by
  induction h with
  | nil => exact everyOf_nil
  | cons hitem _ ih =>
      refine (everyOf_cons _ _).mpr ⟨(every_node rfl _).mpr ⟨.plain rfl, ?_⟩, ih⟩
      cases hitem with
      | mk hbody _ =>
          exact (everyOf_cons _ _).mpr
            ⟨every_accepted_statement hbody.every_accepted, everyOf_nil⟩

theorem AcceptsInput.every_accepted
    {input output : Input} (h : c.AcceptsInput input output) :
    output.visitedTree.Every (c.forInput input).Accepted := by
  cases h with
  | program hdeclarations hstatements =>
      refine (every_node rfl _).mpr ⟨.plain rfl, ?_⟩
      simp only [everyOf_append]
      refine ⟨⟨?_, hdeclarations.every_accepted⟩, hstatements.every_accepted⟩
      exact everyOf_classes (fun _ => .plain rfl) (fun _ => .plain rfl) _
  | permission hprincipal hquery haction =>
      refine (every_node rfl _).mpr
        ⟨.permissionRule (.permission hprincipal hquery haction), ?_⟩
      simp [forInput, hprincipal.every_accepted, hquery.every_accepted, haction.every_accepted]
  | dialogue hhistory =>
      exact (every_node rfl _).mpr ⟨.plain rfl, every_accepted_history hhistory⟩
  | answer hvalue =>
      refine (every_node rfl _).mpr ⟨.plain rfl, ?_⟩
      simp [forInput, hvalue.every_accepted]
  | special | choice => exact (every_node rfl []).mpr ⟨.plain rfl, everyOf_nil⟩

end Checker

end SkillLang
