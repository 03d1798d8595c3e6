import SkillLang.Proofs.Typing.AcceptanceOfCheck
import SkillLang.Proofs.Typing.Visited

/-!
# Complete annotations

After a check every node that the checker goes into carries its annotation: calls and
expressions have their signatures, comparisons and computations their overloads, and
values that stand for others their types.  The checker stays out of two places, the
attributes of devices and the results in a dialogue.
-/

namespace SkillLang

/-! ## Annotated nodes -/

def Value.isAnnotated : Value → Bool
  | .computation _ _ overload type => overload.isSome && type.isSome
  | .var _ type | .field _ _ type | .filtered _ _ type | .array _ type => type.isSome
  | _ => true

/-- The overload of a comparison: the types of its two sides, and a truth value. -/
def isComparisonOverload : Option (List Ty) → Bool
  | some [_, _, .boolean] => true
  | _ => false

def Filter.isAnnotated : Filter → Bool
  | .atom _ _ _ _ overload | .compute _ _ _ _ overload => isComparisonOverload overload
  | .external call _ => call.schema.isSome
  | _ => true

/-- What a check writes into the node is there. -/
def Node.isAnnotated : Node → Bool
  | .value v => v.isAnnotated
  | .filter f => f.isAnnotated
  | .expression e => e.schema.isSome
  | .invocation i => i.schema.isSome
  | .permissionFunction (.specified f) => f.schema.isSome
  | .declaration d => d.schema.isSome
  | _ => true

namespace Tree

/-- All visited nodes of the tree are annotated. -/
abbrev IsAnnotated (t : Tree) : Prop :=
  t.Every fun label => label.isAnnotated = true

abbrev AllAnnotated (trees : List Tree) : Prop :=
  EveryOf (fun label => label.isAnnotated = true) trees

theorem isAnnotated_node
    {label : Node} {children : List Tree}
    (hlabel : label.isAnnotated = true) (hchildren : AllAnnotated children) :
    (node label children).IsAnnotated := by
  cases label with
  | device d => exact (every_device d children).mpr rfl
  | program _ | classDef _ | function _ | declaration _ | statement _ | permissionRule _
  | permissionFunction _ | control _ | dialogue _ | historyItem _ | builtinSelector | param _
  | invocation _ | value _ | filter _ | expression _ =>
      exact (every_node rfl children).mpr ⟨hlabel, hchildren⟩

theorem isAnnotated_leaf
    {label : Node} (hlabel : label.isAnnotated = true) :
    (node label []).IsAnnotated :=
  isAnnotated_node hlabel everyOf_nil

theorem isAnnotated_node_singleton
    {label : Node} {child : Tree}
    (hlabel : label.isAnnotated = true) (hchild : child.IsAnnotated) :
    (node label [child]).IsAnnotated :=
  isAnnotated_node hlabel ((everyOf_cons child []).mpr ⟨hchild, everyOf_nil⟩)

end Tree

/-! ## Overloads of comparisons -/

namespace OperatorTable

/-- Every operator of filters compares two values. -/
theorem filters_compare :
    (filters.all fun entry => entry.2.all fun o =>
      o.params.length == 2 && o.result == .boolean) = true := by
  decide

theorem resolve_boolean (b : Bindings) :
    Ty.resolve b .boolean = .boolean := by
  unfold Ty.resolve
  cases b.vars.length with
  | zero => simp [Ty.resolveWithin, Ty.substitute]
  | succ hops => simp [Ty.resolveWithin, Ty.substitute]

/-- A chosen overload is one of the table, with its variables replaced. -/
theorem exists_mem_of_resolve?
    {table : OperatorTable} {op : String} {args : List Ty} {lenient : Bool}
    {chosen : Overload} (h : table.resolve? op args lenient = some chosen) :
    ∃ entry ∈ table, ∃ o ∈ entry.2, ∃ b : Bindings,
      chosen = ⟨o.params.map (Ty.resolve b), Ty.resolve b o.result⟩ := by
  unfold resolve? at h
  cases hlookup : table.lookup op with
  | none => simp [hlookup] at h
  | some overloads =>
      rw [hlookup] at h
      obtain ⟨o, ho, hchosen⟩ := List.exists_of_findSome?_eq_some h
      have hentry : (op, overloads) ∈ table := by
        obtain ⟨before, after, htable, -⟩ := List.lookup_eq_some_iff.mp hlookup
        rw [htable]
        simp
      refine ⟨(op, overloads), hentry, o, ?_, ?_⟩
      · exact List.mem_of_mem_take (List.mem_of_mem_filter ho)
      · unfold instantiate? at hchosen
        split at hchosen
        next b _ => exact ⟨b, (Option.some.inj hchosen).symm⟩
        next => cases hchosen

theorem isComparisonOverload_of_resolve?
    {op : String} {args : List Ty} {lenient : Bool} {chosen : Overload}
    (h : filters.resolve? op args lenient = some chosen) :
    isComparisonOverload (some chosen.types) = true := by
  obtain ⟨entry, hentry, ⟨params, result⟩, ho, b, rfl⟩ := exists_mem_of_resolve? h
  have hcompare := List.all_eq_true.mp (List.all_eq_true.mp filters_compare entry hentry) _ ho
  simp only [Bool.and_eq_true, beq_iff_eq] at hcompare
  obtain ⟨hlength, hresult⟩ := hcompare
  obtain ⟨lhs, rhs, rfl⟩ := List.length_eq_two.mp hlength
  simp [Overload.types, hresult, resolve_boolean, isComparisonOverload]

end OperatorTable

namespace Checker

variable {σ : Type} {c : Checker σ}

open SkillLang.Tree

/-! ## Values and filters -/

theorem isAnnotated_of_isLeaf
    {value : Value} (hleaf : value.isLeaf = true) :
    value.tree.IsAnnotated := by
  cases value with
  | array _ _ | var _ _ | computation _ _ _ _ | field _ _ _ | filtered _ _ _ | object _ =>
      cases hleaf
  | undefined _ | context _ _ | boolean _ | string _ | number _ | measure _ _
  | currency _ _ | place _ | date _ | time _ | entity _ | enum _ | event _ | argMap _ =>
      exact isAnnotated_leaf rfl

theorem isAnnotated_selector (selector : Selector) :
    selector.tree.IsAnnotated := by
  cases selector with
  | builtin => exact isAnnotated_leaf rfl
  | device d =>
      cases d
      exact (every_device _ _).mpr rfl

mutual

theorem AcceptsValue.isAnnotated
    {scope : Scope} {depth : Nat} {value value' : Value} {type : Ty} :
    c.AcceptsValue scope depth value value' type → value'.tree.IsAnnotated
  | .leaf _ hleaf => isAnnotated_of_isLeaf hleaf
  | .var _ _ => isAnnotated_leaf rfl
  | .computation _ hoperands _ => isAnnotated_node rfl hoperands.allAnnotated
  | .field _ hvalue _ => isAnnotated_node_singleton rfl hvalue.isAnnotated
  | .filtered _ hvalue _ hfilter => by
      refine isAnnotated_node rfl ?_
      simp [hvalue.isAnnotated, hfilter.isAnnotated]
  | .array _ hvalues _ _ => isAnnotated_node rfl hvalues.allAnnotated
  | .object _ hfields => isAnnotated_node rfl hfields.allAnnotated

theorem AcceptsValues.allAnnotated
    {scope : Scope} {depth : Nat} {values values' : List Value} {types : List Ty} :
    c.AcceptsValues scope depth values values' types → AllAnnotated (Value.trees values')
  | .nil => everyOf_nil
  | .cons hvalue hvalues =>
      (everyOf_cons _ _).mpr ⟨hvalue.isAnnotated, hvalues.allAnnotated⟩

theorem AcceptsFields.allAnnotated
    {scope : Scope} {depth : Nat} {fields fields' : List (String × Value)}
    {types : List (String × Ty)} :
    c.AcceptsFields scope depth fields fields' types →
      AllAnnotated (Value.fieldTrees fields')
  | .nil => everyOf_nil
  | .cons hvalue hfields =>
      (everyOf_cons _ _).mpr ⟨hvalue.isAnnotated, hfields.allAnnotated⟩

theorem AcceptsFilter.isAnnotated
    {schema : Signature} {scope : Scope} {depth : Nat} {filter filter' : Filter} :
    c.AcceptsFilter schema scope depth filter filter' → filter'.tree.IsAnnotated
  | .always _ => isAnnotated_leaf rfl
  | .never _ => isAnnotated_leaf rfl
  | .conj _ hoperands => isAnnotated_node rfl hoperands.allAnnotated
  | .disj _ hoperands => isAnnotated_node rfl hoperands.allAnnotated
  | .neg _ hoperand => isAnnotated_node_singleton rfl hoperand.isAnnotated
  | .dontCare _ _ => isAnnotated_leaf rfl
  -- A chosen overload comes from the table, where all overloads are comparisons.
  | .atom _ _ hvalue hchosen =>
      isAnnotated_node_singleton (OperatorTable.isComparisonOverload_of_resolve? hchosen)
        hvalue.isAnnotated
  | .compute _ hlhs hrhs hchosen => by
      refine isAnnotated_node (OperatorTable.isComparisonOverload_of_resolve? hchosen) ?_
      simp [hlhs.isAnnotated, hrhs.isAnnotated]
  | .external _ _ _ hparams _ hfilter => by
      refine isAnnotated_node rfl ?_
      simp [Invocation.partTrees, isAnnotated_selector, hparams.allAnnotated,
        hfilter.isAnnotated]

theorem AcceptsFilters.allAnnotated
    {schema : Signature} {scope : Scope} {depth : Nat} {filters filters' : List Filter} :
    c.AcceptsFilters schema scope depth filters filters' →
      AllAnnotated (Filter.trees filters')
  | .nil => everyOf_nil
  | .cons hfilter hfilters =>
      (everyOf_cons _ _).mpr ⟨hfilter.isAnnotated, hfilters.allAnnotated⟩

theorem AcceptsParams.allAnnotated
    {schema : Signature} {scope : Scope} {depth : Nat} {seen : List String}
    {params params' : List Param} :
    c.AcceptsParams schema scope depth seen params params' →
      AllAnnotated (Param.trees params')
  | .nil => everyOf_nil
  | .cons _ _ hvalue _ hparams =>
      (everyOf_cons _ _).mpr
        ⟨isAnnotated_node_singleton rfl hvalue.isAnnotated, hparams.allAnnotated⟩

end

/-! ## Expressions -/

theorem AcceptsSelected.allAnnotated
    {schema : Signature} {scope : Scope} {range : Option Range} {depth : Nat}
    {element : Selected} {checked : Selected × Selection}
    (h : c.AcceptsSelected schema scope range depth element checked) :
    AllAnnotated checked.1.column.trees := by
  cases h with
  | path _ => exact everyOf_nil
  | value hvalue =>
      exact (everyOf_cons _ _).mpr ⟨hvalue.isAnnotated, everyOf_nil⟩

theorem AcceptsFitting.isAnnotated
    {fits : Ty → Bool} {scope : Scope} {depth : Nat} {value value' : Value}
    (h : c.AcceptsFitting fits scope depth value value') :
    value'.tree.IsAnnotated := by
  obtain ⟨type, hvalue, -⟩ := h
  exact hvalue.isAnnotated

theorem AcceptsClause.allAnnotated
    {base schema : Signature} {scope : Scope} {range : Option Range} {depth : Nat}
    {clause clause' : Clause}
    (h : c.AcceptsClause base scope range depth clause clause' schema) :
    AllAnnotated clause'.trees := by
  cases h with
  | filter _ htest => exact (everyOf_cons _ _).mpr ⟨htest.isAnnotated, everyOf_nil⟩
  | monitor _ => exact everyOf_nil
  | projection _ _ hcolumns => exact hcolumns.allAnnotated
  | selection _ helements =>
      simp only [Clause.trees, List.flatMap_map]
      induction helements with
      | nil => exact everyOf_nil
      | cons helement _ ih =>
          rw [List.flatMap_cons]
          exact (everyOf_append _ _).mpr ⟨helement.allAnnotated, ih⟩
  | question _ htest =>
      exact (everyOf_cons _ _).mpr ⟨htest.isAnnotated, everyOf_nil⟩
  | named => exact everyOf_nil
  | aggregation _ _ _ _ => exact everyOf_nil
  | sort _ hvalue => exact (everyOf_cons _ _).mpr ⟨hvalue.isAnnotated, everyOf_nil⟩
  | index _ hindices =>
      simp only [Clause.trees]
      induction hindices with
      | nil => exact everyOf_nil
      | cons hindex _ ih => exact (everyOf_cons _ _).mpr ⟨hindex.isAnnotated, ih⟩
  | slice _ hbase hlimit =>
      simp [Clause.trees, hbase.isAnnotated, hlimit.isAnnotated]

mutual

theorem AcceptsExpression.isAnnotated
    {scope : Scope} {depth : Nat} {expression expression' : Expression}
    {schema : Signature} :
    c.AcceptsExpression scope depth expression expression' schema →
      expression'.tree.IsAnnotated
  | .call _ _ hcall => isAnnotated_node rfl hcall.params.allAnnotated
  | .invocation _ _ hcall => by
      refine isAnnotated_node_singleton rfl (isAnnotated_node rfl ?_)
      simp [Invocation.partTrees, isAnnotated_selector, hcall.params.allAnnotated]
  | .clause _ hinner hclause =>
      isAnnotated_node rfl
        ((everyOf_cons _ _).mpr ⟨hinner.isAnnotated, hclause.allAnnotated⟩)
  | .chain _ _ helements _ => isAnnotated_node rfl helements.allAnnotated
  | .join _ hlhs _ hrhs _ => by
      refine isAnnotated_node rfl ?_
      simp [hlhs.isAnnotated, hrhs.isAnnotated]

theorem AcceptsChain.allAnnotated
    {scope : Scope} {depth : Nat} {isFirst : Bool}
    {elements elements' : List Expression} {schemas : List Signature} :
    c.AcceptsChain scope depth isFirst elements elements' schemas →
      AllAnnotated (Expression.trees elements')
  | .nil => everyOf_nil
  | .cons helement _ helements =>
      (everyOf_cons _ _).mpr ⟨helement.isAnnotated, helements.allAnnotated⟩

end

/-! ## Inputs -/

theorem AcceptsStatement.isAnnotated
    {scope next : Scope} {statement statement' : Statement} {schema : Option Signature}
    (h : c.AcceptsStatement scope statement statement' schema next) :
    statement'.tree.IsAnnotated := by
  cases h with
  | expression hbody => exact isAnnotated_node_singleton rfl hbody.isAnnotated
  | ret hbody => exact isAnnotated_node_singleton rfl hbody.isAnnotated
  | assign hbody => exact isAnnotated_node_singleton rfl hbody.isAnnotated

theorem AcceptsStatements.allAnnotated
    {scope : Scope} {statements statements' : List Statement} {schemas : List Signature}
    (h : c.AcceptsStatements scope statements statements' schemas) :
    AllAnnotated (statements'.map Statement.tree) := by
  induction h with
  | nil => exact everyOf_nil
  | cons hstatement _ ih => exact (everyOf_cons _ _).mpr ⟨hstatement.isAnnotated, ih⟩

theorem AcceptsDeclarations.allAnnotated
    {scope final : Scope} {declarations declarations' : List FunctionDeclaration}
    (h : c.AcceptsDeclarations scope declarations declarations' final) :
    AllAnnotated (declarations'.map FunctionDeclaration.tree) := by
  induction h with
  | nil => exact everyOf_nil
  | cons hbody _ ih =>
      exact (everyOf_cons _ _).mpr ⟨isAnnotated_node rfl hbody.allAnnotated, ih⟩

theorem AcceptsPermission.isAnnotated
    {scope : Scope} {isAction : Bool} {function function' : PermissionFunction}
    {schema : Option Signature}
    (h : c.AcceptsPermission scope isAction function function' schema) :
    function'.tree.IsAnnotated := by
  cases h with
  | specified _ _ hfilter => exact isAnnotated_node_singleton rfl hfilter.isAnnotated
  | builtin => exact isAnnotated_leaf rfl
  | classStar => exact isAnnotated_leaf rfl
  | star => exact isAnnotated_leaf rfl

theorem AcceptsItem.isAnnotated
    {item item' : HistoryItem} (h : c.AcceptsItem item item') :
    item'.withoutResults.tree.IsAnnotated := by
  cases h with
  | mk hbody _ =>
      exact isAnnotated_node_singleton rfl (isAnnotated_node_singleton rfl hbody.isAnnotated)

theorem allAnnotated_history
    {history history' : List HistoryItem} (h : List.Forall₂ c.AcceptsItem history history') :
    AllAnnotated ((history'.map HistoryItem.withoutResults).map HistoryItem.tree) := by
  induction h with
  | nil => exact everyOf_nil
  | cons hitem _ ih => exact (everyOf_cons _ _).mpr ⟨hitem.isAnnotated, ih⟩

theorem AcceptsInput.isAnnotated
    {input output : Input} (h : c.AcceptsInput input output) :
    output.visitedTree.IsAnnotated := by
  cases h with
  | program hdeclarations hstatements =>
      apply isAnnotated_node rfl
      simp only [everyOf_append]
      refine ⟨⟨?_, hdeclarations.allAnnotated⟩, hstatements.allAnnotated⟩
      exact everyOf_classes (fun _ => rfl) (fun _ => rfl) _
  | permission hprincipal hquery haction =>
      apply isAnnotated_node rfl
      simp [hprincipal.isAnnotated, hquery.isAnnotated, haction.isAnnotated]
  | dialogue hhistory => exact isAnnotated_node rfl (allAnnotated_history hhistory)
  | answer hvalue => exact isAnnotated_node_singleton rfl hvalue.isAnnotated
  | special => exact isAnnotated_leaf rfl
  | choice => exact isAnnotated_leaf rfl

/-- A successful check leaves no node that it visits without its annotation, whatever the source
of signatures answers and whatever annotations were there before. -/
theorem check_isAnnotated
    {input output : Input} {s : Session σ}
    (h : ((c.check input).runIn s).1 = .ok output) :
    ∀ label ∈ output.visited, label.isAnnotated = true := by
  have haccepted : c.AcceptsInput input output := acceptsInput_of_check h
  exact haccepted.isAnnotated

theorem digest_isAnnotated :
    ∃ output, ((Digest.checker.check Digest.daily).runIn Digest.session).1 = .ok output ∧
      ∀ label ∈ output.visited, label.isAnnotated = true := by
  obtain ⟨output, h⟩ :
      ∃ output, ((Digest.checker.check Digest.daily).runIn Digest.session).1 = .ok output :=
    ⟨_, rfl⟩
  exact ⟨output, h, check_isAnnotated h⟩

end Checker

end SkillLang
