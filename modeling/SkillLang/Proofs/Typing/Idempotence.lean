import SkillLang.Proofs.Typing.CheckOfAcceptance
import SkillLang.Proofs.Typing.Selectors

/-!
# Checking twice

The annotations that a check writes are the ones that it would write again: what is
accepted as an annotated part is accepted as itself, in the same scope and with the
same type.  Three annotations are read as well as written.  The type of an array is
kept once it is there, a selector in normal form is its own normal form, and the
outputs of a projection are named after its annotated columns.
-/

namespace SkillLang

theorem forall₂_map_self
    {α β : Type} {R : α → β → Prop} {f : β → α} {xs : List α} {ys : List β}
    (h : List.Forall₂ R xs ys) (hself : ∀ x y, R x y → R (f y) y) :
    List.Forall₂ R (ys.map f) ys := by
  induction h with
  | nil => exact .nil
  | cons hhead _ ih => exact .cons (hself _ _ hhead) ih

namespace Checker

variable {σ : Type} {c : Checker σ}

theorem Resolves.again
    {selector selector' : Selector} {channel : String} {kind : LookupKind}
    {schema : Signature}
    (h : c.Resolves selector channel kind selector' schema) :
    c.Resolves selector' channel kind selector' schema := by
  cases h with
  | builtin hfunction => exact .builtin hfunction
  | device hnormal hanswer => exact .device (Device.normalize_normalize hnormal) hanswer

/-! ## Values and filters -/

mutual

theorem AcceptsValue.again
    {scope : Scope} {depth : Nat} {value value' : Value} {type : Ty} :
    c.AcceptsValue scope depth value value' type →
      c.AcceptsValue scope depth value' value' type
  | .leaf hdepth hleaf => .leaf hdepth hleaf
  | .var hdepth hvar => .var hdepth hvar
  | .computation hdepth hoperands hchosen => .computation hdepth hoperands.again hchosen
  | .field hdepth hvalue hfound => .field hdepth hvalue.again hfound
  | .filtered hdepth hvalue hfields hfilter =>
      .filtered hdepth hvalue.again hfields hfilter.again
  -- The type that was written is kept, whatever the types of the elements are.
  | .array hdepth hvalues huniform _ => .array hdepth hvalues.again huniform rfl
  | .object hdepth hfields => .object hdepth hfields.again

theorem AcceptsValues.again
    {scope : Scope} {depth : Nat} {values values' : List Value} {types : List Ty} :
    c.AcceptsValues scope depth values values' types →
      c.AcceptsValues scope depth values' values' types
  | .nil => .nil
  | .cons hvalue hvalues => .cons hvalue.again hvalues.again

theorem AcceptsFields.again
    {scope : Scope} {depth : Nat} {fields fields' : List (String × Value)}
    {types : List (String × Ty)} :
    c.AcceptsFields scope depth fields fields' types →
      c.AcceptsFields scope depth fields' fields' types
  | .nil => .nil
  | .cons hvalue hfields => .cons hvalue.again hfields.again

theorem AcceptsFilter.again
    {schema : Signature} {scope : Scope} {depth : Nat} {filter filter' : Filter} :
    c.AcceptsFilter schema scope depth filter filter' →
      c.AcceptsFilter schema scope depth filter' filter'
  | .always hdepth => .always hdepth
  | .never hdepth => .never hdepth
  | .conj hdepth hoperands => .conj hdepth hoperands.again
  | .disj hdepth hoperands => .disj hdepth hoperands.again
  | .neg hdepth hoperand => .neg hdepth hoperand.again
  | .dontCare hdepth harg => .dontCare hdepth harg
  | .atom hdepth htype hvalue hchosen => .atom hdepth htype hvalue.again hchosen
  | .compute hdepth hlhs hrhs hchosen => .compute hdepth hlhs.again hrhs.again hchosen
  | .external hdepth hresolve hkind hparams hrequired hfilter =>
      .external hdepth hresolve.again hkind hparams.again hrequired hfilter.again

theorem AcceptsFilters.again
    {schema : Signature} {scope : Scope} {depth : Nat} {filters filters' : List Filter} :
    c.AcceptsFilters schema scope depth filters filters' →
      c.AcceptsFilters schema scope depth filters' filters'
  | .nil => .nil
  | .cons hfilter hfilters => .cons hfilter.again hfilters.again

theorem AcceptsParams.again
    {schema : Signature} {scope : Scope} {depth : Nat} {seen : List String}
    {params params' : List Param} :
    c.AcceptsParams schema scope depth seen params params' →
      c.AcceptsParams schema scope depth seen params' params'
  | .nil => .nil
  | .cons harg hfresh hvalue hfits hparams =>
      .cons harg hfresh hvalue.again hfits hparams.again

end

/-! ## Expressions -/

theorem AcceptsCall.again
    {schema : Signature} {scope : Scope} {range : Option Range} {depth : Nat}
    {params params' : List Param}
    (h : c.AcceptsCall schema scope range depth params params') :
    c.AcceptsCall schema scope range depth params' params' :=
  ⟨h.params.again, h.required⟩

theorem AcceptsFitting.again
    {fits : Ty → Bool} {scope : Scope} {depth : Nat} {value value' : Value}
    (h : c.AcceptsFitting fits scope depth value value') :
    c.AcceptsFitting fits scope depth value' value' := by
  obtain ⟨type, hvalue, hfits⟩ := h
  exact ⟨type, hvalue.again, hfits⟩

theorem AcceptsSelected.again
    {schema : Signature} {scope : Scope} {range : Option Range} {depth : Nat}
    {element : Selected} {checked : Selected × Selection}
    (h : c.AcceptsSelected schema scope range depth element checked) :
    c.AcceptsSelected schema scope range depth checked.1 checked := by
  cases h with
  | path hselect => exact .path hselect
  | value hvalue => exact .value hvalue.again

theorem AcceptsClause.again
    {base schema : Signature} {scope : Scope} {range : Option Range} {depth : Nat}
    {clause clause' : Clause}
    (h : c.AcceptsClause base scope range depth clause clause' schema) :
    c.AcceptsClause base scope range depth clause' clause' schema := by
  cases h with
  | filter hkind htest => exact .filter hkind htest.again
  | monitor hresult => exact .monitor hresult
  | projection hkind hargs hcolumns => exact .projection hkind hargs hcolumns.again
  | selection hkind helements =>
      exact .selection hkind (forall₂_map_self helements fun _ _ h => h.again)
  | question hkind htest => exact .question hkind htest.again
  | named => exact .named
  | aggregation hlist htype hcount hchosen => exact .aggregation hlist htype hcount hchosen
  | sort hlist hvalue => exact .sort hlist hvalue.again
  | index hlist hindices =>
      refine .index hlist ?_
      simpa using forall₂_map_self (f := id) hindices fun _ _ h => h.again
  | slice hlist hbase hlimit => exact .slice hlist hbase.again hlimit.again

theorem AcceptsChain.length_eq
    {scope : Scope} {depth : Nat} {isFirst : Bool}
    {elements elements' : List Expression} {schemas : List Signature}
    (h : c.AcceptsChain scope depth isFirst elements elements' schemas) :
    elements'.length = elements.length ∧ schemas.length = elements.length := by
  induction elements generalizing scope isFirst elements' schemas with
  | nil =>
      cases h
      exact ⟨rfl, rfl⟩
  | cons element elements ih =>
      cases h with
      | cons _ _ hrest =>
          simp only [List.length_cons, Nat.add_right_cancel_iff]
          exact ih hrest

theorem AcceptsChain.isEmpty_eq
    {scope : Scope} {depth : Nat} {isFirst : Bool}
    {elements elements' : List Expression} {schemas : List Signature}
    (h : c.AcceptsChain scope depth isFirst elements elements' schemas) :
    elements'.isEmpty = elements.isEmpty ∧ schemas.isEmpty = elements.isEmpty := by
  cases h with
  | nil => exact ⟨rfl, rfl⟩
  | cons _ _ _ => exact ⟨rfl, rfl⟩

mutual

theorem AcceptsExpression.again
    {scope : Scope} {depth : Nat} {expression expression' : Expression}
    {schema : Signature} :
    c.AcceptsExpression scope depth expression expression' schema →
      c.AcceptsExpression scope depth expression' expression' schema
  | .call hdepth hfunction hcall => .call hdepth hfunction hcall.again
  | .invocation hdepth hresolve hcall => .invocation hdepth hresolve.again hcall.again
  | .clause hdepth hinner hclause => .clause hdepth hinner.again hclause.again
  | .chain hdepth hlength helements hschema =>
      .chain hdepth (helements.length_eq.1 ▸ hlength) helements.again hschema
  | .join hdepth hlhs hleft hrhs hright => .join hdepth hlhs.again hleft hrhs.again hright

theorem AcceptsChain.again
    {scope : Scope} {depth : Nat} {isFirst : Bool}
    {elements elements' : List Expression} {schemas : List Signature} :
    c.AcceptsChain scope depth isFirst elements elements' schemas →
      c.AcceptsChain scope depth isFirst elements' elements' schemas
  | .nil => .nil
  | .cons helement hplace helements =>
      .cons helement.again (helements.isEmpty_eq.1 ▸ hplace) helements.again

end

/-! ## Inputs -/

theorem AcceptsStatement.again
    {scope next : Scope} {statement statement' : Statement} {schema : Option Signature}
    (h : c.AcceptsStatement scope statement statement' schema next) :
    c.AcceptsStatement scope statement' statement' schema next := by
  cases h with
  | expression hbody => exact .expression hbody.again
  | ret hbody => exact .ret hbody.again
  | assign hbody => exact .assign hbody.again

theorem AcceptsStatements.again
    {scope : Scope} {statements statements' : List Statement} {schemas : List Signature}
    (h : c.AcceptsStatements scope statements statements' schemas) :
    c.AcceptsStatements scope statements' statements' schemas := by
  induction h with
  | nil => exact .nil
  | cons hstatement _ ih => exact .cons hstatement.again ih

theorem AcceptsDeclarations.again
    {scope final : Scope} {declarations declarations' : List FunctionDeclaration}
    (h : c.AcceptsDeclarations scope declarations declarations' final) :
    c.AcceptsDeclarations scope declarations' declarations' final := by
  induction h with
  | nil => exact .nil
  | cons hbody _ ih => exact .cons hbody.again ih

theorem AcceptsPermission.again
    {scope : Scope} {isAction : Bool} {function function' : PermissionFunction}
    {schema : Option Signature}
    (h : c.AcceptsPermission scope isAction function function' schema) :
    c.AcceptsPermission scope isAction function' function' schema := by
  cases h with
  | specified hanswer hside hfilter => exact .specified hanswer hside hfilter.again
  | builtin => exact .builtin
  | classStar => exact .classStar
  | star => exact .star

theorem AcceptsItem.again
    {item item' : HistoryItem} (h : c.AcceptsItem item item') :
    c.AcceptsItem item' item' := by
  cases h with
  | mk hbody hresults => exact .mk hbody.again hresults

theorem AcceptsInput.again
    {input output : Input} (h : c.AcceptsInput input output) :
    c.AcceptsInput output output := by
  cases h with
  | program hdeclarations hstatements =>
      exact .program hdeclarations.again hstatements.again
  | permission hprincipal hquery haction =>
      exact .permission hprincipal.again hquery.again haction.again
  | dialogue hhistory =>
      refine .dialogue ?_
      simpa using forall₂_map_self (f := id) hhistory fun _ _ h => h.again
  | answer hvalue => exact .answer hvalue.again
  | special => exact .special
  | choice => exact .choice

/-- With a fixed source, an annotated input passes the check again, in any session, and comes out
unchanged. -/
theorem check_idempotent
    (hfixed : c.source.IsFixed)
    {input output : Input} {s : Session σ}
    (h : ((c.check input).runIn s).1 = .ok output) (t : Session σ) :
    ((c.check output).runIn t).1 = .ok output := by
  have haccepted : c.AcceptsInput input output := acceptsInput_of_check h
  exact check_of_acceptsInput hfixed haccepted.again t

theorem digest_idempotent :
    ∃ output, ((Digest.checker.check Digest.daily).runIn Digest.session).1 = .ok output ∧
      ((Digest.checker.check output).runIn Digest.session).1 = .ok output := by
  obtain ⟨output, h⟩ :
      ∃ output, ((Digest.checker.check Digest.daily).runIn Digest.session).1 = .ok output :=
    ⟨_, rfl⟩
  exact ⟨output, h, check_idempotent (SchemaSource.fixed_isFixed _) h Digest.session⟩

end Checker

end SkillLang
