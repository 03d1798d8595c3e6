import SkillLang.Proofs.Typing.AcceptanceOfCheck
import SkillLang.Proofs.Typing.Erasure
import SkillLang.Proofs.Typing.Selectors

/-!
# Checking changes annotations only

An accepted part and what the checker makes of it are the same once annotations are
erased and the selectors of the part are folded.  The items of a dialogue keep their
results, and with them the place of the current one.
-/

namespace SkillLang

/-! ## The current item -/

/-- The index of the current item, if there is one. -/
def Input.currentIndex? : Input → Option Nat
  | .dialogue s => s.currentIndex?
  | _ => none

theorem DialogueState.lastIndex?_map
    {α β : Type} {test : β → Bool} {g : α → β} (index : Nat) (items : List α) :
    lastIndex? test index (items.map g) = lastIndex? (fun item => test (g item)) index items := by
  induction items generalizing index with
  | nil => rfl
  | cons item items ih => simp only [List.map_cons, lastIndex?, ih]

theorem Input.currentIndex?_erase
    (f : Device → Device) (input : Input) :
    (input.erase f).currentIndex? = input.currentIndex? := by
  cases input with
  | dialogue s => exact DialogueState.lastIndex?_map 0 s.history
  | program _ | permission _ | control _ => rfl

/-- There is nothing to erase in a leaf. -/
theorem Value.erase_of_isLeaf
    (f : Device → Device) {value : Value} (hleaf : value.isLeaf = true) :
    value.erase f = value := by
  cases value with
  | array _ _ | var _ _ | computation _ _ _ _ | field _ _ _ | filtered _ _ _ | object _ =>
      cases hleaf
  | undefined _ | context _ _ | boolean _ | string _ | number _ | measure _ _
  | currency _ _ | place _ | date _ | time _ | entity _ | enum _ | event _ | argMap _ =>
      rfl

namespace Checker

variable {σ : Type} {c : Checker σ}

theorem Resolves.erase_eq
    {selector selector' : Selector} {channel : String} {kind : LookupKind}
    {schema : Signature} (h : c.Resolves selector channel kind selector' schema) :
    selector'.erase id = selector.erase Device.folded := by
  cases h with
  | builtin _ => rfl
  | device hnormal _ => exact congrArg Selector.device (Device.normalize_eq_folded hnormal)

/-! ## Values and filters -/

mutual

theorem AcceptsValue.erase_eq
    {scope : Scope} {depth : Nat} {value value' : Value} {type : Ty} :
    c.AcceptsValue scope depth value value' type →
      value'.erase id = value.erase Device.folded
  | .leaf _ hleaf => (Value.erase_of_isLeaf id hleaf).trans
      (Value.erase_of_isLeaf Device.folded hleaf).symm
  | .var _ _ => rfl
  | .computation _ hoperands _ => by simp only [Value.erase, hoperands.erase_eq]
  | .field _ hvalue _ => by simp only [Value.erase, hvalue.erase_eq]
  | .filtered _ hvalue _ hfilter => by
      simp only [Value.erase, hvalue.erase_eq, hfilter.erase_eq]
  | .array _ hvalues _ _ => by simp only [Value.erase, hvalues.erase_eq]
  | .object _ hfields => by simp only [Value.erase, hfields.erase_eq]

theorem AcceptsValues.erase_eq
    {scope : Scope} {depth : Nat} {values values' : List Value} {types : List Ty} :
    c.AcceptsValues scope depth values values' types →
      Value.eraseAll id values' = Value.eraseAll Device.folded values
  | .nil => rfl
  | .cons hvalue hvalues => by simp only [Value.eraseAll, hvalue.erase_eq, hvalues.erase_eq]

theorem AcceptsFields.erase_eq
    {scope : Scope} {depth : Nat} {fields fields' : List (String × Value)}
    {types : List (String × Ty)} :
    c.AcceptsFields scope depth fields fields' types →
      Value.eraseFields id fields' = Value.eraseFields Device.folded fields
  | .nil => rfl
  | .cons hvalue hfields => by
      simp only [Value.eraseFields, hvalue.erase_eq, hfields.erase_eq]

theorem AcceptsFilter.erase_eq
    {schema : Signature} {scope : Scope} {depth : Nat} {filter filter' : Filter} :
    c.AcceptsFilter schema scope depth filter filter' →
      filter'.erase id = filter.erase Device.folded
  | .always _ => rfl
  | .never _ => rfl
  | .conj _ hoperands => by simp only [Filter.erase, hoperands.erase_eq]
  | .disj _ hoperands => by simp only [Filter.erase, hoperands.erase_eq]
  | .neg _ hoperand => by simp only [Filter.erase, hoperand.erase_eq]
  | .dontCare _ _ => rfl
  | .atom _ _ hvalue _ => by simp only [Filter.erase, hvalue.erase_eq]
  | .compute _ hlhs hrhs _ => by simp only [Filter.erase, hlhs.erase_eq, hrhs.erase_eq]
  | .external _ hresolve _ hparams _ hfilter => by
      simp only [Filter.erase, Invocation.erase, hresolve.erase_eq, hparams.erase_eq,
        hfilter.erase_eq]

theorem AcceptsFilters.erase_eq
    {schema : Signature} {scope : Scope} {depth : Nat} {filters filters' : List Filter} :
    c.AcceptsFilters schema scope depth filters filters' →
      Filter.eraseAll id filters' = Filter.eraseAll Device.folded filters
  | .nil => rfl
  | .cons hfilter hfilters => by
      simp only [Filter.eraseAll, hfilter.erase_eq, hfilters.erase_eq]

theorem AcceptsParams.erase_eq
    {schema : Signature} {scope : Scope} {depth : Nat} {seen : List String}
    {params params' : List Param} :
    c.AcceptsParams schema scope depth seen params params' →
      Param.eraseAll id params' = Param.eraseAll Device.folded params
  | .nil => rfl
  | .cons _ _ hvalue _ hparams => by
      simp only [Param.eraseAll, hvalue.erase_eq, hparams.erase_eq]

end

/-! ## Expressions -/

theorem AcceptsFitting.erase_eq
    {fits : Ty → Bool} {scope : Scope} {depth : Nat} {value value' : Value}
    (h : c.AcceptsFitting fits scope depth value value') :
    value'.erase id = value.erase Device.folded := by
  obtain ⟨_, hvalue, -⟩ := h
  exact hvalue.erase_eq

theorem AcceptsSelected.erase_eq
    {schema : Signature} {scope : Scope} {range : Option Range} {depth : Nat}
    {element : Selected} {checked : Selected × Selection}
    (h : c.AcceptsSelected schema scope range depth element checked) :
    checked.1.erase id = element.erase Device.folded := by
  cases h with
  | path _ => rfl
  | value hvalue => simp only [Selected.erase, Column.erase, hvalue.erase_eq]

theorem AcceptsClause.erase_eq
    {base schema : Signature} {scope : Scope} {range : Option Range} {depth : Nat}
    {clause clause' : Clause}
    (h : c.AcceptsClause base scope range depth clause clause' schema) :
    clause'.erase id = clause.erase Device.folded := by
  cases h with
  | filter _ htest => simp only [Clause.erase, htest.erase_eq]
  | monitor _ => rfl
  | projection _ _ hcolumns => simp only [Clause.erase, hcolumns.erase_eq]
  | selection _ helements =>
      simp only [Clause.erase, List.map_map]
      congr 1
      induction helements with
      | nil => rfl
      | cons helement _ ih =>
          simp only [List.map_cons, Function.comp_apply, helement.erase_eq, ih]
  | question _ htest => simp only [Clause.erase, htest.erase_eq]
  | named => rfl
  | aggregation _ _ _ _ => rfl
  | sort _ hvalue => simp only [Clause.erase, hvalue.erase_eq]
  | index _ hindices =>
      simp only [Clause.erase]
      congr 1
      induction hindices with
      | nil => rfl
      | cons hindex _ ih => simp only [Value.eraseAll, hindex.erase_eq, ih]
  | slice _ hbase hlimit => simp only [Clause.erase, hbase.erase_eq, hlimit.erase_eq]

mutual

theorem AcceptsExpression.erase_eq
    {scope : Scope} {depth : Nat} {expression expression' : Expression}
    {schema : Signature} :
    c.AcceptsExpression scope depth expression expression' schema →
      expression'.erase id = expression.erase Device.folded
  | .call _ _ hcall => by simp only [Expression.erase, hcall.params.erase_eq]
  | .invocation _ hresolve hcall => by
      simp only [Expression.erase, Invocation.erase, hresolve.erase_eq, hcall.params.erase_eq]
  | .clause _ hinner hclause => by
      simp only [Expression.erase, hinner.erase_eq, hclause.erase_eq]
  | .chain _ _ helements _ => by simp only [Expression.erase, helements.erase_eq]
  | .join _ hlhs _ hrhs _ => by simp only [Expression.erase, hlhs.erase_eq, hrhs.erase_eq]

theorem AcceptsChain.erase_eq
    {scope : Scope} {depth : Nat} {isFirst : Bool}
    {elements elements' : List Expression} {schemas : List Signature} :
    c.AcceptsChain scope depth isFirst elements elements' schemas →
      Expression.eraseAll id elements' = Expression.eraseAll Device.folded elements
  | .nil => rfl
  | .cons helement _ helements => by
      simp only [Expression.eraseAll, helement.erase_eq, helements.erase_eq]

end

/-! ## Inputs -/

theorem AcceptsStatement.erase_eq
    {scope next : Scope} {statement statement' : Statement} {schema : Option Signature}
    (h : c.AcceptsStatement scope statement statement' schema next) :
    statement'.erase id = statement.erase Device.folded := by
  cases h with
  | expression hbody => simp only [Statement.erase, hbody.erase_eq]
  | ret hbody => simp only [Statement.erase, hbody.erase_eq]
  | assign hbody => simp only [Statement.erase, hbody.erase_eq]

theorem AcceptsStatements.erase_eq
    {scope : Scope} {statements statements' : List Statement} {schemas : List Signature}
    (h : c.AcceptsStatements scope statements statements' schemas) :
    statements'.map (Statement.erase id) = statements.map (Statement.erase Device.folded) := by
  induction h with
  | nil => rfl
  | cons hstatement _ ih => simp only [List.map_cons, hstatement.erase_eq, ih]

theorem AcceptsDeclarations.erase_eq
    {scope final : Scope} {declarations declarations' : List FunctionDeclaration}
    (h : c.AcceptsDeclarations scope declarations declarations' final) :
    declarations'.map (FunctionDeclaration.erase id) =
      declarations.map (FunctionDeclaration.erase Device.folded) := by
  induction h with
  | nil => rfl
  | cons hbody _ ih =>
      simp only [List.map_cons, FunctionDeclaration.erase, hbody.erase_eq, ih]

theorem AcceptsPermission.erase_eq
    {scope : Scope} {isAction : Bool} {function function' : PermissionFunction}
    {schema : Option Signature}
    (h : c.AcceptsPermission scope isAction function function' schema) :
    function'.erase id = function.erase Device.folded := by
  cases h with
  | specified _ _ hfilter => simp only [PermissionFunction.erase, hfilter.erase_eq]
  | builtin => rfl
  | classStar => rfl
  | star => rfl

theorem AcceptsItem.erase_eq
    {item item' : HistoryItem} (h : c.AcceptsItem item item') :
    item'.erase id = item.erase Device.folded := by
  cases h with
  | mk hbody _ => simp only [HistoryItem.erase, hbody.erase_eq]

theorem map_erase_history
    {history history' : List HistoryItem} (h : List.Forall₂ c.AcceptsItem history history') :
    history'.map (HistoryItem.erase id) = history.map (HistoryItem.erase Device.folded) := by
  induction h with
  | nil => rfl
  | cons hitem _ ih => simp only [List.map_cons, hitem.erase_eq, ih]

theorem AcceptsInput.erase_eq
    {input output : Input} (h : c.AcceptsInput input output) :
    output.erase id = input.erase Device.folded := by
  cases h with
  | program hdeclarations hstatements =>
      simp only [Input.erase, Program.erase, hdeclarations.erase_eq, hstatements.erase_eq]
  | permission hprincipal hquery haction =>
      simp only [Input.erase, PermissionRule.erase, hprincipal.erase_eq, hquery.erase_eq,
        haction.erase_eq]
  | dialogue hhistory =>
      simp only [Input.erase, DialogueState.erase, map_erase_history hhistory]
  | answer hvalue => simp only [Input.erase, ControlCommand.erase, hvalue.erase_eq]
  | special => rfl
  | choice => rfl

/-- A successful check writes annotations and folds selectors, and changes nothing else.  Where no
selector has anything to fold, the tokens of the source remain as they are. -/
theorem check_changes_annotations
    {input output : Input} {s : Session σ}
    (h : ((c.check input).runIn s).1 = .ok output) :
    output.erase id = input.erase Device.folded ∧
      output.currentIndex? = input.currentIndex? ∧
      ((∀ d, .device d ∈ input.visited →
          ∀ p ∈ d.attributes, p.name ≠ "id" ∧ p.name ≠ "all") →
        output.source.toList = input.source.toList) := by
  have herase : output.erase id = input.erase Device.folded := (acceptsInput_of_check h).erase_eq
  refine ⟨herase, ?_, ?_⟩
  · calc
      output.currentIndex? = (output.erase id).currentIndex? :=
        (Input.currentIndex?_erase id output).symm
      _ = (input.erase Device.folded).currentIndex? := by rw [herase]
      _ = input.currentIndex? := Input.currentIndex?_erase Device.folded input
  · -- The source ignores what is erased, so it is the same before and after erasing.
    intro hplain
    have hkept : input.visitedTree.Every (Node.IsKept Device.folded) := by
      rintro _ hlabel d rfl
      exact Device.folded_eq_self (hplain d hlabel)
    have houtput : output.visitedTree.Every (Node.IsKept id) := fun _ _ _ _ => rfl
    have hsource : output.source = input.source := by
      calc
        output.source = (output.erase id).source := (Input.source_erase houtput).symm
        _ = (input.erase Device.folded).source := by rw [herase]
        _ = input.source := Input.source_erase hkept
    rw [hsource]

theorem Digest.plain_kept :
    ∀ d, .device d ∈ Digest.plain.visited →
      ∀ p ∈ d.attributes, p.name ≠ "id" ∧ p.name ≠ "all" := by
  intro d hd
  simp [Digest.plain, Digest.program, Digest.expression, Input.visited, Input.visitedTree,
    Input.tree, Program.tree, Statement.tree, Statement.body, Expression.tree,
    Expression.trees, Clause.trees, Filter.tree, Invocation.tree, Invocation.partTrees,
    Selector.tree, Device.tree, Value.tree, Value.trees, Param.trees, Tree.visited,
    Tree.visitedOf, Node.isDevice, Device.ofKind] at hd
  rcases hd with rfl | rfl
  · simp
  · simp

theorem digest_changes_annotations :
    (∃ output, ((Digest.checker.check Digest.daily).runIn Digest.session).1 = .ok output ∧
      output.erase id = Digest.daily.erase Device.folded ∧
      output.currentIndex? = Digest.daily.currentIndex?) ∧
      ∃ output, ((Digest.checker.check Digest.plain).runIn Digest.session).1 = .ok output ∧
        output.source.toList = Digest.plain.source.toList := by
  constructor
  · obtain ⟨output, h⟩ :
        ∃ output, ((Digest.checker.check Digest.daily).runIn Digest.session).1 = .ok output :=
      ⟨_, rfl⟩
    obtain ⟨herase, hindex, -⟩ := check_changes_annotations h
    exact ⟨output, h, herase, hindex⟩
  · obtain ⟨output, h⟩ :
        ∃ output, ((Digest.checker.check Digest.plain).runIn Digest.session).1 = .ok output :=
      ⟨_, rfl⟩
    obtain ⟨-, -, hsource⟩ := check_changes_annotations h
    exact ⟨output, h, hsource Digest.plain_kept⟩

end Checker

end SkillLang
