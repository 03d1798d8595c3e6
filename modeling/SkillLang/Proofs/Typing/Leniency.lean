import SkillLang.Proofs.Types.Leniency
import SkillLang.Proofs.Typing.CheckOfAcceptance
import SkillLang.Proofs.Typing.Comparisons

/-!
# Lenient checks

A lenient check accepts everything that a strict one accepts.  Both write the same types
and signatures, and the same overloads of values and aggregations; only a comparison may
get an earlier overload of its operator, because the result of every comparison is a
truth value.
-/

namespace SkillLang

theorem exists_forall₂_of_forall₂
    {α β γ δ : Type} {R : α → β → Prop} {S : α → γ → Prop} {f : β → δ} {g : γ → δ}
    {xs : List α} {ys : List β} (h : List.Forall₂ R xs ys)
    (hstep : ∀ x y, R x y → ∃ z, S x z ∧ g z = f y) :
    ∃ zs, List.Forall₂ S xs zs ∧ zs.map g = ys.map f := by
  induction h with
  | nil => exact ⟨[], .nil, rfl⟩
  | cons hhead _ ih =>
      obtain ⟨z, hz, hzf⟩ := hstep _ _ hhead
      obtain ⟨zs, hzs, hmap⟩ := ih
      exact ⟨z :: zs, .cons hz hzs, by rw [List.map_cons, List.map_cons, hzf, hmap]⟩

namespace Checker

variable {σ : Type} {c : Checker σ}

/-- The checker in lenient use. -/
def relaxed (c : Checker σ) : Checker σ :=
  { c with lenient := true }

theorem assignable_relaxed
    {type target : Ty} (h : c.assignable type target = true) :
    c.relaxed.assignable type target = true :=
  Ty.isAssignable_lenient h

theorem Resolves.relaxed
    {selector selector' : Selector} {channel : String} {kind : LookupKind}
    {schema : Signature} (h : c.Resolves selector channel kind selector' schema) :
    c.relaxed.Resolves selector channel kind selector' schema := by
  cases h with
  | builtin hfunction => exact .builtin hfunction
  | device hnormal hanswer => exact .device hnormal hanswer

theorem Uniform.relaxed
    {types : List Ty} (h : c.Uniform types) :
    c.relaxed.Uniform types :=
  fun type htype => assignable_relaxed (h type htype)

theorem requireParams_of_forgetAll_eq
    {schema : Signature} {params relaxed : List Param} {range : Option Range}
    (hrequired : schema.requireParams params range = .ok ())
    (heq : Param.forgetAll relaxed = Param.forgetAll params) :
    schema.requireParams relaxed range = .ok () := by
  rw [← Signature.requireParams_forgetAll, heq, Signature.requireParams_forgetAll, hrequired]

/-! ## Values and filters -/

mutual

theorem AcceptsValue.relaxed
    {scope : Scope} {depth : Nat} {value value' : Value} {type : Ty} :
    c.AcceptsValue scope depth value value' type →
      ∃ relaxed, c.relaxed.AcceptsValue scope depth value relaxed type ∧
        relaxed.forget = value'.forget
  | .leaf hdepth hleaf => ⟨_, .leaf hdepth hleaf, rfl⟩
  | .var hdepth hvar => ⟨_, .var hdepth hvar, rfl⟩
  | .computation hdepth hoperands hchosen => by
      obtain ⟨_, hrelaxed, heq⟩ := hoperands.relaxed
      have hsame := OperatorTable.scalars_isSteady.resolve?_lenient hchosen
      exact ⟨_, .computation hdepth hrelaxed hsame, by simp only [Value.forget, heq]⟩
  | .field hdepth hvalue hfound => by
      obtain ⟨_, hrelaxed, heq⟩ := hvalue.relaxed
      exact ⟨_, .field hdepth hrelaxed hfound, by simp only [Value.forget, heq]⟩
  | .filtered hdepth hvalue hfields hfilter => by
      obtain ⟨_, hrelaxed, heq⟩ := hvalue.relaxed
      obtain ⟨_, htest, htesteq⟩ := hfilter.relaxed
      exact ⟨_, .filtered hdepth hrelaxed hfields htest,
        by simp only [Value.forget, heq, htesteq]⟩
  | .array hdepth hvalues huniform htype => by
      obtain ⟨_, hrelaxed, heq⟩ := hvalues.relaxed
      exact ⟨_, .array hdepth hrelaxed huniform.relaxed htype, by simp only [Value.forget, heq]⟩
  | .object hdepth hfields => by
      obtain ⟨_, hrelaxed, heq⟩ := hfields.relaxed
      exact ⟨_, .object hdepth hrelaxed, by simp only [Value.forget, heq]⟩

theorem AcceptsValues.relaxed
    {scope : Scope} {depth : Nat} {values values' : List Value} {types : List Ty} :
    c.AcceptsValues scope depth values values' types →
      ∃ relaxed, c.relaxed.AcceptsValues scope depth values relaxed types ∧
        Value.forgetAll relaxed = Value.forgetAll values'
  | .nil => ⟨_, .nil, rfl⟩
  | .cons hvalue hvalues => by
      obtain ⟨_, hfirst, hfirsteq⟩ := hvalue.relaxed
      obtain ⟨_, hrest, hresteq⟩ := hvalues.relaxed
      exact ⟨_, .cons hfirst hrest, by simp only [Value.forgetAll, hfirsteq, hresteq]⟩

theorem AcceptsFields.relaxed
    {scope : Scope} {depth : Nat} {fields fields' : List (String × Value)}
    {types : List (String × Ty)} :
    c.AcceptsFields scope depth fields fields' types →
      ∃ relaxed, c.relaxed.AcceptsFields scope depth fields relaxed types ∧
        Value.forgetFields relaxed = Value.forgetFields fields'
  | .nil => ⟨_, .nil, rfl⟩
  | .cons hvalue hfields => by
      obtain ⟨_, hfirst, hfirsteq⟩ := hvalue.relaxed
      obtain ⟨_, hrest, hresteq⟩ := hfields.relaxed
      exact ⟨_, .cons hfirst hrest, by simp only [Value.forgetFields, hfirsteq, hresteq]⟩

theorem AcceptsFilter.relaxed
    {schema : Signature} {scope : Scope} {depth : Nat} {filter filter' : Filter} :
    c.AcceptsFilter schema scope depth filter filter' →
      ∃ relaxed, c.relaxed.AcceptsFilter schema scope depth filter relaxed ∧
        relaxed.forget = filter'.forget
  | .always hdepth => ⟨_, .always hdepth, rfl⟩
  | .never hdepth => ⟨_, .never hdepth, rfl⟩
  | .dontCare hdepth harg => ⟨_, .dontCare hdepth harg, rfl⟩
  | .conj hdepth hoperands => by
      obtain ⟨_, hrelaxed, heq⟩ := hoperands.relaxed
      exact ⟨_, .conj hdepth hrelaxed, by simp only [Filter.forget, heq]⟩
  | .disj hdepth hoperands => by
      obtain ⟨_, hrelaxed, heq⟩ := hoperands.relaxed
      exact ⟨_, .disj hdepth hrelaxed, by simp only [Filter.forget, heq]⟩
  | .neg hdepth hoperand => by
      obtain ⟨_, hrelaxed, heq⟩ := hoperand.relaxed
      exact ⟨_, .neg hdepth hrelaxed, by simp only [Filter.forget, heq]⟩
  -- The overload may be another one, and is forgotten.
  | .atom hdepth htype hvalue hchosen => by
      obtain ⟨_, hrelaxed, heq⟩ := hvalue.relaxed
      obtain ⟨_, hother⟩ := OperatorTable.exists_resolve?_lenient hchosen
      exact ⟨_, .atom hdepth htype hrelaxed hother, by simp only [Filter.forget, heq]⟩
  | .compute hdepth hlhs hrhs hchosen => by
      obtain ⟨_, hleft, hlefteq⟩ := hlhs.relaxed
      obtain ⟨_, hright, hrighteq⟩ := hrhs.relaxed
      obtain ⟨_, hother⟩ := OperatorTable.exists_resolve?_lenient hchosen
      exact ⟨_, .compute hdepth hleft hright hother,
        by simp only [Filter.forget, hlefteq, hrighteq]⟩
  | .external hdepth hresolve hkind hparams hrequired hfilter => by
      obtain ⟨_, hpassed, hpassedeq⟩ := hparams.relaxed
      obtain ⟨_, htest, htesteq⟩ := hfilter.relaxed
      have hall := requireParams_of_forgetAll_eq hrequired hpassedeq
      exact ⟨_, .external hdepth hresolve.relaxed hkind hpassed hall htest,
        by simp only [Filter.forget, Invocation.forget, hpassedeq, htesteq]⟩

theorem AcceptsFilters.relaxed
    {schema : Signature} {scope : Scope} {depth : Nat} {filters filters' : List Filter} :
    c.AcceptsFilters schema scope depth filters filters' →
      ∃ relaxed, c.relaxed.AcceptsFilters schema scope depth filters relaxed ∧
        Filter.forgetAll relaxed = Filter.forgetAll filters'
  | .nil => ⟨_, .nil, rfl⟩
  | .cons hfilter hfilters => by
      obtain ⟨_, hfirst, hfirsteq⟩ := hfilter.relaxed
      obtain ⟨_, hrest, hresteq⟩ := hfilters.relaxed
      exact ⟨_, .cons hfirst hrest, by simp only [Filter.forgetAll, hfirsteq, hresteq]⟩

theorem AcceptsParams.relaxed
    {schema : Signature} {scope : Scope} {depth : Nat} {seen : List String}
    {params params' : List Param} :
    c.AcceptsParams schema scope depth seen params params' →
      ∃ relaxed, c.relaxed.AcceptsParams schema scope depth seen params relaxed ∧
        Param.forgetAll relaxed = Param.forgetAll params'
  | .nil => ⟨_, .nil, rfl⟩
  | .cons harg hfresh hvalue hfits hparams => by
      obtain ⟨_, hfirst, hfirsteq⟩ := hvalue.relaxed
      obtain ⟨_, hrest, hresteq⟩ := hparams.relaxed
      exact ⟨_, .cons harg hfresh hfirst (assignable_relaxed hfits) hrest,
        by simp only [Param.forgetAll, hfirsteq, hresteq]⟩

end

/-! ## Expressions -/

theorem AcceptsCall.relaxed
    {schema : Signature} {scope : Scope} {range : Option Range} {depth : Nat}
    {params params' : List Param}
    (h : c.AcceptsCall schema scope range depth params params') :
    ∃ relaxed, c.relaxed.AcceptsCall schema scope range depth params relaxed ∧
      Param.forgetAll relaxed = Param.forgetAll params' := by
  obtain ⟨relaxed, hparams, heq⟩ := h.params.relaxed
  exact ⟨relaxed, ⟨hparams, requireParams_of_forgetAll_eq h.required heq⟩, heq⟩

theorem AcceptsFitting.relaxed
    {fits relaxedFits : Ty → Bool} {scope : Scope} {depth : Nat} {value value' : Value}
    (h : c.AcceptsFitting fits scope depth value value')
    (hfits : ∀ type, fits type = true → relaxedFits type = true) :
    ∃ relaxed, c.relaxed.AcceptsFitting relaxedFits scope depth value relaxed ∧
      relaxed.forget = value'.forget := by
  obtain ⟨type, hvalue, htype⟩ := h
  obtain ⟨relaxed, hrelaxed, heq⟩ := hvalue.relaxed
  exact ⟨relaxed, ⟨type, hrelaxed, hfits type htype⟩, heq⟩

theorem fitsIndex_relaxed
    (type : Ty) (h : c.fitsIndex type = true) :
    c.relaxed.fitsIndex type = true := by
  unfold fitsIndex at h ⊢
  rw [Bool.or_eq_true] at h ⊢
  exact h.imp assignable_relaxed assignable_relaxed

theorem selectPath_relaxed
    {schema : Signature} {path : String} {label : Option String} {types : List Ty}
    {range : Option Range} {selection : Selection}
    (h : c.selectPath schema path label types range = .ok selection) :
    c.relaxed.selectPath schema path label types range = .ok selection := by
  unfold selectPath at h ⊢
  cases hpath : schema.pathType? path with
  | none =>
      rw [hpath] at h
      cases h
  | some type =>
      rw [hpath] at h
      cases hhead : types.head? with
      | none =>
          rw [hhead] at h
          exact h
      | some expected =>
          simp only [hhead] at h ⊢
          by_cases hany : types.any (c.assignable type) = true
          · rw [if_pos hany] at h
            obtain ⟨target, htarget, hfits⟩ := List.any_eq_true.mp hany
            rw [if_pos (List.any_eq_true.mpr ⟨target, htarget, assignable_relaxed hfits⟩)]
            exact h
          · rw [if_neg hany] at h
            cases h

theorem AcceptsSelected.relaxed
    {schema : Signature} {scope : Scope} {range : Option Range} {depth : Nat}
    {element : Selected} {checked : Selected × Selection}
    (h : c.AcceptsSelected schema scope range depth element checked) :
    ∃ relaxed, c.relaxed.AcceptsSelected schema scope range depth element relaxed ∧
      (relaxed.1.forget, relaxed.2) = (checked.1.forget, checked.2) := by
  cases h with
  | path hselect => exact ⟨_, .path (selectPath_relaxed hselect), rfl⟩
  | @value _ value' _ _ _ hvalue =>
      obtain ⟨relaxed, hrelaxed, heq⟩ := hvalue.relaxed
      have hname : relaxed.outputName = value'.outputName := by
        rw [← Value.outputName_forget relaxed, heq, Value.outputName_forget]
      exact ⟨_, .value hrelaxed, by simp only [Selected.forget, Column.forget, heq, hname]⟩

theorem AcceptsClause.relaxed
    {base schema : Signature} {scope : Scope} {range : Option Range} {depth : Nat}
    {clause clause' : Clause}
    (h : c.AcceptsClause base scope range depth clause clause' schema) :
    ∃ relaxed, c.relaxed.AcceptsClause base scope range depth clause relaxed schema ∧
      relaxed.forget = clause'.forget := by
  cases h with
  | filter hkind htest =>
      obtain ⟨_, hrelaxed, heq⟩ := htest.relaxed
      exact ⟨_, .filter hkind hrelaxed, by simp only [Clause.forget, heq]⟩
  | monitor hresult => exact ⟨_, .monitor hresult, rfl⟩
  | @projection _ columns' types _ labels hkind hargs hcolumns =>
      obtain ⟨relaxed, hrelaxed, heq⟩ := hcolumns.relaxed
      rw [Value.forgetAll_eq_map, Value.forgetAll_eq_map] at heq
      -- The outputs are named after the columns, and a name does not depend on an overload.
      have houtputs : columnOutputs labels relaxed types = columnOutputs labels columns' types := by
        rw [← columnOutputs_map_forget, heq, columnOutputs_map_forget]
      rw [← houtputs]
      exact ⟨_, .projection hkind hargs hrelaxed, by simp only [Clause.forget, heq]⟩
  | @selection _ checked hkind helements =>
      obtain ⟨relaxed, hrelaxed, heq⟩ := exists_forall₂_of_forall₂ helements
        fun _ _ helement => helement.relaxed
      have helements : (relaxed.map Prod.fst).map Selected.forget =
          (checked.map Prod.fst).map Selected.forget := by
        simpa only [List.map_map, Function.comp_def] using congrArg (List.map Prod.fst) heq
      have hselections : relaxed.map Prod.snd = checked.map Prod.snd := by
        simpa only [List.map_map, Function.comp_def] using congrArg (List.map Prod.snd) heq
      rw [← hselections]
      exact ⟨_, .selection hkind hrelaxed, by simp only [Clause.forget, helements]⟩
  | question hkind htest =>
      obtain ⟨_, hrelaxed, heq⟩ := htest.relaxed
      exact ⟨_, .question hkind hrelaxed, by simp only [Clause.forget, heq]⟩
  | named => exact ⟨_, .named, rfl⟩
  | aggregation hlist htype hcount hchosen =>
      have hsame := OperatorTable.aggregations_isSteady.resolve?_lenient hchosen
      exact ⟨_, .aggregation hlist htype hcount hsame, rfl⟩
  | sort hlist hvalue =>
      obtain ⟨_, hrelaxed, heq⟩ := hvalue.relaxed fun _ htype => htype
      exact ⟨_, .sort hlist hrelaxed, by simp only [Clause.forget, heq]⟩
  | @index _ indices' hlist hindices =>
      obtain ⟨relaxed, hrelaxed, heq⟩ := exists_forall₂_of_forall₂ hindices
        fun _ _ hindex => hindex.relaxed fitsIndex_relaxed
      have hpicks : picksOne relaxed = picksOne indices' := by
        rw [← picksOne_map_forget relaxed, heq, picksOne_map_forget]
      rw [← hpicks]
      exact ⟨_, .index hlist hrelaxed, by simp only [Clause.forget, heq]⟩
  | slice hlist hbase hlimit =>
      obtain ⟨_, hfirst, hfirsteq⟩ := hbase.relaxed fun _ htype => assignable_relaxed htype
      obtain ⟨_, hsecond, hsecondeq⟩ := hlimit.relaxed fun _ htype => assignable_relaxed htype
      exact ⟨_, .slice hlist hfirst hsecond, by simp only [Clause.forget, hfirsteq, hsecondeq]⟩

mutual

theorem AcceptsExpression.relaxed
    {scope : Scope} {depth : Nat} {expression expression' : Expression}
    {schema : Signature} :
    c.AcceptsExpression scope depth expression expression' schema →
      ∃ relaxed, c.relaxed.AcceptsExpression scope depth expression relaxed schema ∧
        relaxed.forget = expression'.forget
  | .call hdepth hfunction hcall => by
      obtain ⟨_, hrelaxed, heq⟩ := hcall.relaxed
      exact ⟨_, .call hdepth hfunction hrelaxed, by simp only [Expression.forget, heq]⟩
  | .invocation hdepth hresolve hcall => by
      obtain ⟨_, hrelaxed, heq⟩ := hcall.relaxed
      exact ⟨_, .invocation hdepth hresolve.relaxed hrelaxed,
        by simp only [Expression.forget, Invocation.forget, heq]⟩
  | .clause hdepth hinner hclause => by
      obtain ⟨_, hbase, hbaseeq⟩ := hinner.relaxed
      obtain ⟨_, happlied, happliedeq⟩ := hclause.relaxed
      exact ⟨_, .clause hdepth hbase happlied,
        by simp only [Expression.forget, hbaseeq, happliedeq]⟩
  | .chain hdepth hlength helements hschema => by
      obtain ⟨_, hrelaxed, heq⟩ := helements.relaxed
      exact ⟨_, .chain hdepth hlength hrelaxed hschema, by simp only [Expression.forget, heq]⟩
  | .join hdepth hlhs hleft hrhs hright => by
      obtain ⟨_, hfirst, hfirsteq⟩ := hlhs.relaxed
      obtain ⟨_, hsecond, hsecondeq⟩ := hrhs.relaxed
      exact ⟨_, .join hdepth hfirst hleft hsecond hright,
        by simp only [Expression.forget, hfirsteq, hsecondeq]⟩

theorem AcceptsChain.relaxed
    {scope : Scope} {depth : Nat} {isFirst : Bool}
    {elements elements' : List Expression} {schemas : List Signature} :
    c.AcceptsChain scope depth isFirst elements elements' schemas →
      ∃ relaxed, c.relaxed.AcceptsChain scope depth isFirst elements relaxed schemas ∧
        Expression.forgetAll relaxed = Expression.forgetAll elements'
  | .nil => ⟨_, .nil, rfl⟩
  | .cons helement hplace helements => by
      obtain ⟨_, hfirst, hfirsteq⟩ := helement.relaxed
      obtain ⟨_, hrest, hresteq⟩ := helements.relaxed
      exact ⟨_, .cons hfirst hplace hrest,
        by simp only [Expression.forgetAll, hfirsteq, hresteq]⟩

end

/-! ## Inputs -/

theorem AcceptsStatement.relaxed
    {scope next : Scope} {statement statement' : Statement} {schema : Option Signature}
    (h : c.AcceptsStatement scope statement statement' schema next) :
    ∃ relaxed, c.relaxed.AcceptsStatement scope statement relaxed schema next ∧
      relaxed.forget = statement'.forget := by
  cases h with
  | expression hbody =>
      obtain ⟨_, hrelaxed, heq⟩ := hbody.relaxed
      exact ⟨_, .expression hrelaxed, by simp only [Statement.forget, heq]⟩
  | ret hbody =>
      obtain ⟨_, hrelaxed, heq⟩ := hbody.relaxed
      exact ⟨_, .ret hrelaxed, by simp only [Statement.forget, heq]⟩
  | assign hbody =>
      obtain ⟨_, hrelaxed, heq⟩ := hbody.relaxed
      exact ⟨_, .assign hrelaxed, by simp only [Statement.forget, heq]⟩

theorem AcceptsStatements.relaxed
    {scope : Scope} {statements statements' : List Statement} {schemas : List Signature}
    (h : c.AcceptsStatements scope statements statements' schemas) :
    ∃ relaxed, c.relaxed.AcceptsStatements scope statements relaxed schemas ∧
      relaxed.map Statement.forget = statements'.map Statement.forget := by
  induction h with
  | nil => exact ⟨_, .nil, rfl⟩
  | cons hstatement _ ih =>
      obtain ⟨_, hfirst, hfirsteq⟩ := hstatement.relaxed
      obtain ⟨_, hrest, hresteq⟩ := ih
      exact ⟨_, .cons hfirst hrest, by simp only [List.map_cons, hfirsteq, hresteq]⟩

theorem AcceptsDeclarations.relaxed
    {scope final : Scope} {declarations declarations' : List FunctionDeclaration}
    (h : c.AcceptsDeclarations scope declarations declarations' final) :
    ∃ relaxed, c.relaxed.AcceptsDeclarations scope declarations relaxed final ∧
      relaxed.map FunctionDeclaration.forget =
        declarations'.map FunctionDeclaration.forget := by
  induction h with
  | nil => exact ⟨_, .nil, rfl⟩
  | cons hbody _ ih =>
      obtain ⟨_, hfirst, hfirsteq⟩ := hbody.relaxed
      obtain ⟨_, hrest, hresteq⟩ := ih
      exact ⟨_, .cons hfirst hrest,
        by simp only [List.map_cons, FunctionDeclaration.forget, hfirsteq, hresteq]⟩

theorem AcceptsPermission.relaxed
    {scope : Scope} {isAction : Bool} {function function' : PermissionFunction}
    {schema : Option Signature}
    (h : c.AcceptsPermission scope isAction function function' schema) :
    ∃ relaxed, c.relaxed.AcceptsPermission scope isAction function relaxed schema ∧
      relaxed.forget = function'.forget := by
  cases h with
  | specified hanswer hside hfilter =>
      obtain ⟨_, hrelaxed, heq⟩ := hfilter.relaxed
      exact ⟨_, .specified hanswer hside hrelaxed, by simp only [PermissionFunction.forget, heq]⟩
  | builtin => exact ⟨_, .builtin, rfl⟩
  | classStar => exact ⟨_, .classStar, rfl⟩
  | star => exact ⟨_, .star, rfl⟩

theorem checkResults_relaxed
    {schema : Signature} {results : ResultList}
    (h : c.checkResults schema results = .ok ()) :
    c.relaxed.checkResults schema results = .ok () := by
  unfold checkResults at h ⊢
  by_cases hcount : c.assignable results.count.typeOf .number = true
  · simpa only [hcount, assignable_relaxed hcount] using h
  · simp [hcount, bind, Except.bind, throw, throwThe, MonadExceptOf.throw] at h

theorem AcceptsItem.relaxed
    {item item' : HistoryItem} (h : c.AcceptsItem item item') :
    ∃ relaxed, c.relaxed.AcceptsItem item relaxed ∧ relaxed.forget = item'.forget := by
  cases h with
  | mk hbody hresults =>
      obtain ⟨_, hrelaxed, heq⟩ := hbody.relaxed
      refine ⟨_, .mk hrelaxed fun results hsome => ?_, by simp only [HistoryItem.forget, heq]⟩
      exact checkResults_relaxed (hresults results hsome)

theorem AcceptsInput.relaxed
    {input output : Input} (h : c.AcceptsInput input output) :
    ∃ relaxed, c.relaxed.AcceptsInput input relaxed ∧ relaxed.forget = output.forget := by
  cases h with
  | program hdeclarations hstatements =>
      obtain ⟨_, hfirst, hfirsteq⟩ := hdeclarations.relaxed
      obtain ⟨_, hsecond, hsecondeq⟩ := hstatements.relaxed
      exact ⟨_, .program hfirst hsecond, by simp only [Input.forget, hfirsteq, hsecondeq]⟩
  | permission hprincipal hquery haction =>
      obtain ⟨_, hfirst, hfirsteq⟩ := hprincipal.relaxed
      obtain ⟨_, hsecond, hsecondeq⟩ := hquery.relaxed
      obtain ⟨_, hthird, hthirdeq⟩ := haction.relaxed
      exact ⟨_, .permission hfirst hsecond hthird,
        by simp only [Input.forget, hfirsteq, hsecondeq, hthirdeq]⟩
  | dialogue hhistory =>
      obtain ⟨_, hrelaxed, heq⟩ := exists_forall₂_of_forall₂ hhistory
        fun _ _ hitem => hitem.relaxed
      exact ⟨_, .dialogue hrelaxed, by simp only [Input.forget, heq]⟩
  | answer hvalue =>
      obtain ⟨_, hrelaxed, heq⟩ := hvalue.relaxed
      exact ⟨_, .answer hrelaxed, by simp only [Input.forget, heq]⟩
  | special => exact ⟨_, .special, rfl⟩
  | choice => exact ⟨_, .choice, rfl⟩

/-- With a fixed source, what passes a strict check passes a lenient one in any session.  The two
results differ at most in the overloads of comparisons. -/
theorem check_lenient
    (hfixed : c.source.IsFixed)
    {input output : Input} {s : Session σ}
    (h : (({ c with lenient := false }.check input).runIn s).1 = .ok output) (t : Session σ) :
    ∃ relaxed, (({ c with lenient := true }.check input).runIn t).1 = .ok relaxed ∧
      relaxed.forget = output.forget := by
  have haccepted : { c with lenient := false }.AcceptsInput input output :=
    acceptsInput_of_check h
  obtain ⟨relaxed, hrelaxed, heq⟩ := haccepted.relaxed
  have hrelaxedfixed : c.relaxed.source.IsFixed := hfixed
  exact ⟨relaxed, check_of_acceptsInput hrelaxedfixed hrelaxed t, heq⟩

theorem digest_lenient :
    ∃ output relaxed,
      (({ Digest.checker with lenient := false }.check Digest.daily).runIn Digest.session).1 =
          .ok output ∧
        (({ Digest.checker with lenient := true }.check Digest.daily).runIn Digest.session).1 =
            .ok relaxed ∧
          relaxed.forget = output.forget := by
  obtain ⟨output, h⟩ : ∃ output,
      (({ Digest.checker with lenient := false }.check Digest.daily).runIn Digest.session).1 =
        .ok output :=
    ⟨_, rfl⟩
  obtain ⟨relaxed, hrelaxed⟩ := check_lenient (SchemaSource.fixed_isFixed _) h Digest.session
  exact ⟨output, relaxed, h, hrelaxed⟩

end Checker

end SkillLang
