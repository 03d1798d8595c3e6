import SkillLang.Proofs.Typing.AcceptanceOfCheck

/-!
# Checks of accepted inputs

A source of signatures is fixed if its answers do not depend on its state.  With such
a source everything that the rules accept passes the check, in every session and with
the annotations of the rules.  Together with the other direction, acceptance is then
the same as a successful check.
-/

namespace SkillLang

variable {σ : Type}

/-- The answers of the source do not depend on its state. -/
def SchemaSource.IsFixed (source : SchemaSource σ) : Prop :=
  ∀ key s t, (source key s).1 = (source key t).1

theorem SchemaSource.fixed_isFixed
    (answer : LookupKey → Except SchemaError Signature) :
    (SchemaSource.fixed answer).IsFixed :=
  fun _ _ _ => rfl

namespace Checker

open SkillLang.Action

variable {c : Checker σ}

/-! ## Steps that leave the session alone -/

theorem runIn_guardDepth
    {depth : Nat} (hdepth : depth ≤ Limits.maxDepth) (s : Session σ) :
    (guardDepth depth : Check σ Unit).runIn s = (.ok (), s) := by
  unfold guardDepth
  rw [if_neg (by omega)]
  exact runIn_pure () s

theorem returns_guardDepth
    {depth : Nat} (hdepth : depth ≤ Limits.maxDepth) :
    (guardDepth depth : Check σ Unit).Returns () := by
  intro s
  rw [runIn_guardDepth hdepth]

theorem returns_overload
    {table : OperatorTable} {op : String} {types : List Ty}
    {range : Option Range} {chosen : Overload}
    (hchosen : table.resolve? op types c.lenient = some chosen) :
    (c.overload table op types range).Returns chosen := by
  unfold overload
  rw [hchosen]
  exact returns_pure chosen

/-! ## Lookups -/

/-- Asks the source, without recording that it is asked. -/
def ask (c : Checker σ) (key : LookupKey) : Check σ Signature := do
  let (answer, state) := c.source key (← getState)
  setState state
  match answer with
  | .ok s =>
    record (.success .schemaResolved "Schema resolved" [("function", s.qualifiedName)])
    return s
  | .error e => throw (.schema e)

theorem ask_result (key : LookupKey) (s : Session σ) :
    ((c.ask key).runIn s).1 = (c.source key s.state).1.mapError TypeError.schema := by
  unfold ask
  rw [runIn_bind, runIn_getState]
  rcases hsource : c.source key s.state with ⟨answer, state⟩
  simp only [hsource]
  rw [runIn_bind, runIn_setState]
  cases answer with
  | ok schema => rfl
  | error e => rfl

/-- A lookup ends with what the source answers in the state of the session. -/
theorem lookup_result (key : LookupKey) (s : Session σ) :
    ((c.lookup key).runIn s).1 =
      (c.source key s.state).1.mapError TypeError.schema := by
  unfold lookup
  cases hlog : c.logLookups with
  | false =>
      simp only [Bool.false_eq_true, if_false]
      exact ask_result key s
  | true =>
      simp only [if_true]
      rw [runIn_bind, runIn_record]
      exact ask_result key _

theorem Answers.returns
    (hfixed : c.source.IsFixed) {key : LookupKey} {schema : Signature}
    (hanswer : c.Answers key schema) :
    (c.deviceSignature key).Returns schema := by
  obtain ⟨s, hs⟩ := hanswer
  intro t
  unfold deviceSignature at hs ⊢
  cases hfound : (Keyed.find? key.device c.classes).bind fun found =>
      found.function? key.channel key.kind.functionType? with
  | some found =>
      simp only [hfound] at hs ⊢
      exact hs
  | none =>
      simp only [hfound] at hs ⊢
      rw [lookup_result] at hs ⊢
      rw [hfixed key t.state s.state]
      exact hs

theorem Resolves.returns
    (hfixed : c.source.IsFixed)
    {selector selector' : Selector} {channel : String} {kind : LookupKind}
    {schema : Signature}
    (hresolve : c.Resolves selector channel kind selector' schema)
    (range : Option Range) :
    (c.resolve selector channel kind range).Returns (selector', schema) := by
  cases hresolve with
  | builtin hfunction =>
      simp only [resolve, hfunction]
      exact returns_pure _
  | device hnormal hanswer =>
      simp only [resolve]
      exact (returns_ofExcept hnormal).bind
        ((hanswer.returns hfixed).bind (returns_pure _))

/-! ## Values and filters -/

theorem Uniform.of_cons_cons
    {found type : Ty} {types : List Ty} (h : c.Uniform (found :: type :: types)) :
    c.assignable type found = true ∧ c.Uniform (found :: types) := by
  refine ⟨h type List.mem_cons_self, ?_⟩
  intro other hother
  exact h other (List.mem_cons_of_mem type hother)

/-- A leaf keeps its form and its type, and the session is left alone. -/
theorem runIn_checkValue_of_isLeaf
    {scope : Scope} {depth : Nat} {value : Value}
    (hdepth : depth ≤ Limits.maxDepth) (hleaf : value.isLeaf = true) (s : Session σ) :
    (c.checkValue scope depth value).runIn s = (.ok (value, value.typeOf), s) := by
  cases value with
  | array _ _ | var _ _ | computation _ _ _ _ | field _ _ _ | filtered _ _ _ | object _ =>
      cases hleaf
  | undefined _ | context _ _ | boolean _ | string _ | number _ | measure _ _
  | currency _ _ | place _ | date _ | time _ | entity _ | enum _ | event _ | argMap _ =>
      simp only [checkValue, runIn_bind_of_ok (runIn_guardDepth hdepth s)]
      exact runIn_pure _ s

theorem returns_leaf
    {scope : Scope} {depth : Nat} {value : Value}
    (hdepth : depth ≤ Limits.maxDepth) (hleaf : value.isLeaf = true) :
    (c.checkValue scope depth value).Returns (value, value.typeOf) := by
  intro s
  rw [runIn_checkValue_of_isLeaf hdepth hleaf]

mutual

theorem AcceptsValue.returns
    (hfixed : c.source.IsFixed)
    {scope : Scope} {depth : Nat} {value value' : Value} {type : Ty} :
    c.AcceptsValue scope depth value value' type →
      (c.checkValue scope depth value).Returns (value', type)
  | .leaf hdepth hleaf => returns_leaf hdepth hleaf
  | .var hdepth hvar => by
      simp only [checkValue, hvar]
      exact (returns_guardDepth hdepth).bind (returns_pure _)
  | .computation hdepth hoperands hchosen => by
      simp only [checkValue]
      exact (returns_guardDepth hdepth).bind <|
        (hoperands.returns hfixed).bind <|
          (returns_overload hchosen).bind (returns_pure _)
  | .field hdepth hvalue hfound => by
      simp only [checkValue]
      refine (returns_guardDepth hdepth).bind ((hvalue.returns hfixed).bind ?_)
      simp only [hfound]
      exact returns_pure _
  | .filtered hdepth hvalue hfields hfilter => by
      simp only [checkValue]
      refine (returns_guardDepth hdepth).bind ((hvalue.returns hfixed).bind ?_)
      simp only [hfields]
      exact (hfilter.returns hfixed).bind (returns_pure _)
  | .array hdepth hvalues huniform htype => by
      simp only [checkValue]
      refine (returns_guardDepth hdepth).bind
        ((hvalues.returns_elements hfixed none huniform).bind ?_)
      rw [htype, List.headD_eq_head?_getD]
      exact returns_pure _
  | .object hdepth hfields => by
      simp only [checkValue]
      exact (returns_guardDepth hdepth).bind
        ((hfields.returns hfixed).bind (returns_pure _))

theorem AcceptsValues.returns
    (hfixed : c.source.IsFixed)
    {scope : Scope} {depth : Nat} {values values' : List Value} {types : List Ty} :
    c.AcceptsValues scope depth values values' types →
      (c.checkValues scope depth values).Returns (values', types)
  | .nil => by
      simp only [checkValues]
      exact returns_pure _
  | .cons hvalue hvalues => by
      simp only [checkValues]
      exact (hvalue.returns hfixed).bind
        ((hvalues.returns hfixed).bind (returns_pure _))

theorem AcceptsValues.returns_elements
    (hfixed : c.source.IsFixed)
    (first : Option Ty) {scope : Scope} {depth : Nat}
    {values values' : List Value} {types : List Ty} :
    c.AcceptsValues scope depth values values' types →
    c.Uniform (first.toList ++ types) →
      (c.checkElements scope depth first values).Returns
        (values', (first.toList ++ types).head?)
  | .nil, _ => by
      simp only [checkElements]
      cases first <;> exact returns_pure _
  | .cons hvalue hvalues, huniform => by
      simp only [checkElements]
      refine (hvalue.returns hfixed).bind ?_
      cases first with
      | none =>
          exact (hvalues.returns_elements hfixed (some _) huniform).bind (returns_pure _)
      | some found =>
          -- The first type stays the one to compare with, so this one drops out.
          obtain ⟨hfits, hrest⟩ := Uniform.of_cons_cons huniform
          simp only [Option.getD_some, hfits]
          exact (hvalues.returns_elements hfixed (some found) hrest).bind (returns_pure _)

theorem AcceptsFields.returns
    (hfixed : c.source.IsFixed)
    {scope : Scope} {depth : Nat} {fields fields' : List (String × Value)}
    {types : List (String × Ty)} :
    c.AcceptsFields scope depth fields fields' types →
      (c.checkFields scope depth fields).Returns (fields', types)
  | .nil => by
      simp only [checkFields]
      exact returns_pure _
  | .cons hvalue hfields => by
      simp only [checkFields]
      exact (hvalue.returns hfixed).bind
        ((hfields.returns hfixed).bind (returns_pure _))

theorem AcceptsFilter.returns
    (hfixed : c.source.IsFixed)
    {schema : Signature} {scope : Scope} {depth : Nat} {filter filter' : Filter} :
    c.AcceptsFilter schema scope depth filter filter' →
      (c.checkFilter schema scope depth filter).Returns filter'
  | .always hdepth => by
      simp only [checkFilter]
      exact (returns_guardDepth hdepth).bind (returns_pure _)
  | .never hdepth => by
      simp only [checkFilter]
      exact (returns_guardDepth hdepth).bind (returns_pure _)
  | .conj hdepth hoperands => by
      simp only [checkFilter]
      exact (returns_guardDepth hdepth).bind
        ((hoperands.returns hfixed).bind (returns_pure _))
  | .disj hdepth hoperands => by
      simp only [checkFilter]
      exact (returns_guardDepth hdepth).bind
        ((hoperands.returns hfixed).bind (returns_pure _))
  | .neg hdepth hoperand => by
      simp only [checkFilter]
      exact (returns_guardDepth hdepth).bind
        ((hoperand.returns hfixed).bind (returns_pure _))
  | .dontCare hdepth harg => by
      simp only [checkFilter]
      exact (returns_guardDepth hdepth).bind
        ((returns_ofExcept harg).bind (returns_pure _))
  | .atom hdepth htype hvalue hchosen => by
      simp only [checkFilter, htype]
      exact (returns_guardDepth hdepth).bind <|
        (hvalue.returns hfixed).bind <|
          (returns_overload hchosen).bind (returns_pure _)
  | .compute hdepth hlhs hrhs hchosen => by
      simp only [checkFilter]
      exact (returns_guardDepth hdepth).bind <|
        (hlhs.returns hfixed).bind <|
          (hrhs.returns hfixed).bind <|
            (returns_overload hchosen).bind (returns_pure _)
  | .external hdepth hresolve hkind hparams hrequired hfilter => by
      simp only [checkFilter]
      exact (returns_guardDepth hdepth).bind <|
        (hresolve.returns hfixed _).bind <|
          (returns_ofExcept hkind).bind <|
            (hparams.returns hfixed).bind <|
              (returns_ofExcept hrequired).bind <|
                (hfilter.returns hfixed).bind (returns_pure _)

theorem AcceptsFilters.returns
    (hfixed : c.source.IsFixed)
    {schema : Signature} {scope : Scope} {depth : Nat} {filters filters' : List Filter} :
    c.AcceptsFilters schema scope depth filters filters' →
      (c.checkFilters schema scope depth filters).Returns filters'
  | .nil => by
      simp only [checkFilters]
      exact returns_pure _
  | .cons hfilter hfilters => by
      simp only [checkFilters]
      exact (hfilter.returns hfixed).bind
        ((hfilters.returns hfixed).bind (returns_pure _))

theorem AcceptsParams.returns
    (hfixed : c.source.IsFixed)
    {schema : Signature} {scope : Scope} {depth : Nat} {seen : List String}
    {params params' : List Param} :
    c.AcceptsParams schema scope depth seen params params' →
      (c.checkParams schema scope depth seen params).Returns params'
  | .nil => by
      simp only [checkParams]
      exact returns_pure _
  | .cons harg hfresh hvalue hfits hparams => by
      simp only [checkParams, harg, hfresh]
      refine (hvalue.returns hfixed).bind ?_
      simp only [hfits]
      exact (hparams.returns hfixed).bind (returns_pure _)

end

/-! ## Expressions -/

theorem AcceptsCall.returns
    (hfixed : c.source.IsFixed)
    {schema : Signature} {scope : Scope} {range : Option Range} {depth : Nat}
    {params params' : List Param}
    (h : c.AcceptsCall schema scope range depth params params') :
    (c.checkCall schema params scope range depth).Returns params' := by
  unfold checkCall
  exact (h.params.returns hfixed).bind
    ((returns_ofExcept h.required).bind (returns_pure _))

theorem AcceptsValues.returns_columns
    (hfixed : c.source.IsFixed)
    {scope : Scope} {depth : Nat} {columns columns' : List Value} {types : List Ty}
    (h : c.AcceptsValues scope depth columns columns' types)
    (labels : List (Option String)) :
    (c.checkColumns scope depth columns labels).Returns
      (columns', columnOutputs labels columns' types) := by
  induction columns generalizing columns' types labels with
  | nil =>
      cases h
      simp only [checkColumns]
      cases labels <;> exact returns_pure _
  | cons column columns ih =>
      cases h with
      | cons hvalue hvalues =>
          simp only [checkColumns]
          exact (hvalue.returns hfixed).bind
            ((ih hvalues labels.tail).bind (returns_pure _))

theorem AcceptsSelected.returns
    (hfixed : c.source.IsFixed)
    {schema : Signature} {scope : Scope} {range : Option Range} {depth : Nat}
    {element : Selected} {checked : Selected × Selection}
    (h : c.AcceptsSelected schema scope range depth element checked) :
    (c.checkSelected schema scope range depth element).Returns checked := by
  cases h with
  | path hselect =>
      simp only [checkSelected]
      exact (returns_ofExcept hselect).bind (returns_pure _)
  | value hvalue =>
      simp only [checkSelected]
      exact (hvalue.returns hfixed).bind (returns_pure _)

theorem AcceptsFitting.returns_index
    (hfixed : c.source.IsFixed)
    {scope : Scope} {depth : Nat} {index index' : Value}
    (h : c.AcceptsFitting c.fitsIndex scope depth index index')
    (range : Option Range) :
    (c.checkIndex scope range depth index).Returns index' := by
  obtain ⟨type, hvalue, hfits⟩ := h
  unfold checkIndex
  refine (hvalue.returns hfixed).bind ?_
  rw [fitsIndex] at hfits
  simp only [hfits]
  exact returns_pure index'

theorem AcceptsFitting.returns_number
    (hfixed : c.source.IsFixed)
    {scope : Scope} {depth : Nat} {value value' : Value}
    (h : c.AcceptsFitting c.fitsNumber scope depth value value')
    (name : String) (range : Option Range) :
    (c.checkNumber name scope range depth value).Returns value' := by
  obtain ⟨type, hvalue, hfits⟩ := h
  unfold checkNumber
  refine (hvalue.returns hfixed).bind ?_
  rw [fitsNumber] at hfits
  simp only [hfits]
  exact returns_pure value'

theorem AcceptsClause.returns
    (hfixed : c.source.IsFixed)
    {base schema : Signature} {scope : Scope} {range : Option Range} {depth : Nat}
    {clause clause' : Clause}
    (h : c.AcceptsClause base scope range depth clause clause' schema) :
    (c.checkClause base scope range depth clause).Returns (clause', schema) := by
  cases h with
  | filter hkind htest =>
      simp only [checkClause]
      exact (returns_ofExcept hkind).bind
        ((htest.returns hfixed).bind (returns_pure _))
  | monitor hresult =>
      simp only [checkClause]
      exact (returns_ofExcept hresult).bind (returns_pure _)
  | projection hkind hargs hcolumns =>
      simp only [checkClause]
      exact (returns_ofExcept hkind).bind <|
        (returns_ofExcept hargs).bind <|
          (hcolumns.returns_columns hfixed _).bind (returns_pure _)
  | selection hkind helements =>
      simp only [checkClause]
      have hchecked := returns_mapM (helements.imp fun _ _ h => h.returns hfixed)
      exact (returns_ofExcept hkind).bind (hchecked.bind (returns_pure _))
  | question hkind htest =>
      simp only [checkClause]
      exact (returns_ofExcept hkind).bind
        ((htest.returns hfixed).bind (returns_pure _))
  | named =>
      exact returns_pure _
  | aggregation hlist htype hcount hchosen =>
      simp only [checkClause]
      refine (returns_ofExcept hlist).bind ?_
      -- The check asks twice whether there is a field: for the type, and to refuse all operators
      -- but `count` without one.
      split at htype
      next hfield =>
        subst htype
        rw [if_pos hfield]
        simp only [pure_bind]
        rw [if_neg (fun hboth => hboth.2 (hcount hfield))]
        exact (returns_overload hchosen).bind (returns_pure _)
      next hfield =>
        rw [if_neg hfield]
        refine (returns_ofExcept htype).bind ?_
        rw [if_neg (fun hboth => hfield hboth.1)]
        exact (returns_overload hchosen).bind (returns_pure _)
  | sort hlist hvalue =>
      obtain ⟨type, hvalue, hfits⟩ := hvalue
      simp only [checkClause]
      refine (returns_ofExcept hlist).bind ((hvalue.returns hfixed).bind ?_)
      rw [fitsSort] at hfits
      simp only [hfits]
      exact returns_pure _
  | index hlist hindices =>
      simp only [checkClause]
      have hchecked := returns_mapM
        (hindices.imp fun _ _ h => h.returns_index hfixed range)
      exact (returns_ofExcept hlist).bind (hchecked.bind (returns_pure _))
  | slice hlist hbase hlimit =>
      simp only [checkClause]
      exact (returns_ofExcept hlist).bind <|
        (hbase.returns_number hfixed "base" range).bind <|
          (hlimit.returns_number hfixed "limit" range).bind (returns_pure _)

mutual

theorem AcceptsExpression.returns
    (hfixed : c.source.IsFixed)
    {scope : Scope} {depth : Nat} {expression expression' : Expression}
    {schema : Signature} :
    c.AcceptsExpression scope depth expression expression' schema →
      (c.checkExpression scope depth expression).Returns (expression', schema)
  | .call hdepth hfunction hcall => by
      simp only [checkExpression, hfunction]
      exact (returns_guardDepth hdepth).bind
        ((hcall.returns hfixed).bind (returns_pure _))
  | .invocation hdepth hresolve hcall => by
      simp only [checkExpression]
      exact (returns_guardDepth hdepth).bind <|
        (hresolve.returns hfixed _).bind <|
          (hcall.returns hfixed).bind (returns_pure _)
  | .clause hdepth hinner hclause => by
      simp only [checkExpression]
      exact (returns_guardDepth hdepth).bind <|
        (hinner.returns hfixed).bind <|
          (hclause.returns hfixed).bind (returns_pure _)
  | .chain hdepth hlength helements hschema => by
      simp only [checkExpression]
      rw [if_neg (by omega)]
      exact (returns_guardDepth hdepth).bind <|
        (helements.returns hfixed).bind <|
          (returns_ofExcept hschema).bind (returns_pure _)
  | .join hdepth hlhs hleft hrhs hright => by
      simp only [checkExpression]
      exact (returns_guardDepth hdepth).bind <|
        (hlhs.returns hfixed).bind <|
          (returns_ofExcept hleft).bind <|
            (hrhs.returns hfixed).bind <|
              (returns_ofExcept hright).bind (returns_pure _)

theorem AcceptsChain.returns
    (hfixed : c.source.IsFixed)
    {scope : Scope} {depth : Nat} {isFirst : Bool}
    {elements elements' : List Expression} {schemas : List Signature} :
    c.AcceptsChain scope depth isFirst elements elements' schemas →
      (c.checkElementsOf scope depth isFirst elements).Returns (elements', schemas)
  | .nil => by
      simp only [checkElementsOf]
      exact returns_pure _
  | .cons helement hplace helements => by
      simp only [checkElementsOf]
      refine (helement.returns hfixed).bind ?_
      simp only [hplace]
      exact (helements.returns hfixed).bind (returns_pure _)

end

/-! ## Inputs -/

theorem AcceptsStatement.returns
    (hfixed : c.source.IsFixed)
    {scope next : Scope} {statement statement' : Statement} {schema : Option Signature}
    (h : c.AcceptsStatement scope statement statement' schema next) :
    (c.checkStatement scope statement).Returns (statement', schema, next) := by
  cases h with
  | expression hbody =>
      simp only [checkStatement]
      exact (hbody.returns hfixed).bind (returns_pure _)
  | ret hbody =>
      simp only [checkStatement]
      exact (hbody.returns hfixed).bind (returns_pure _)
  | assign hbody =>
      simp only [checkStatement]
      exact (hbody.returns hfixed).bind (returns_pure _)

theorem AcceptsStatements.returns
    (hfixed : c.source.IsFixed)
    {scope : Scope} {statements statements' : List Statement} {schemas : List Signature}
    (h : c.AcceptsStatements scope statements statements' schemas) :
    (c.checkStatements scope statements).Returns (statements', schemas) := by
  induction h with
  | nil =>
      exact returns_pure _
  | cons hstatement _ ih =>
      simp only [checkStatements]
      exact (hstatement.returns hfixed).bind (ih.bind (returns_pure _))

theorem AcceptsDeclarations.returns
    (hfixed : c.source.IsFixed)
    {scope final : Scope} {declarations declarations' : List FunctionDeclaration}
    (h : c.AcceptsDeclarations scope declarations declarations' final) :
    (c.checkDeclarations scope declarations).Returns (declarations', final) := by
  induction h with
  | nil =>
      exact returns_pure _
  | cons hbody _ ih =>
      simp only [checkDeclarations, checkDeclaration, bind_assoc]
      refine (hbody.returns hfixed).bind ?_
      simp only [pure_bind]
      exact ih.bind (returns_pure _)

theorem AcceptsPermission.returns
    (hfixed : c.source.IsFixed)
    {scope : Scope} {isAction : Bool} {function function' : PermissionFunction}
    {schema : Option Signature}
    (h : c.AcceptsPermission scope isAction function function' schema) :
    (c.checkPermissionFunction scope isAction function).Returns (function', schema) := by
  cases h with
  | specified hanswer hside hfilter =>
      simp only [checkPermissionFunction, checkSpecified, bind_assoc]
      refine (hanswer.returns hfixed).bind ?_
      simp only [hside, bne_self_eq_false, Bool.false_eq_true, if_false, bind_assoc]
      refine (hfilter.returns hfixed).bind ?_
      simp only [pure_bind]
      exact returns_pure _
  | builtin =>
      exact returns_pure _
  | classStar =>
      exact returns_pure _
  | star =>
      exact returns_pure _

theorem AcceptsItem.returns
    (hfixed : c.source.IsFixed)
    {item item' : HistoryItem} (h : c.AcceptsItem item item') :
    (c.checkItem item).Returns item' := by
  cases h with
  | mk hbody hresults =>
      unfold checkItem
      refine (hbody.returns hfixed).bind ?_
      simp only
      split
      next results hsome =>
        exact (returns_ofExcept (hresults results hsome)).bind (returns_pure _)
      next =>
        exact returns_pure _

theorem AcceptsInput.returns
    (hfixed : c.source.IsFixed)
    {input output : Input} (h : c.AcceptsInput input output) :
    (c.checkParts input).Returns output := by
  cases h with
  | @program p _ _ _ _ hdeclarations hstatements =>
      have hfixed' : (c.forProgram p).source.IsFixed := hfixed
      simp only [checkParts, checkProgram]
      refine Returns.bind ?_ (returns_pure _)
      exact (hdeclarations.returns hfixed').bind <|
        (hstatements.returns hfixed').bind <|
          (returns_record _).bind (returns_pure _)
  | permission hprincipal hquery haction =>
      simp only [checkParts, checkPermission]
      refine Returns.bind ?_ (returns_pure _)
      exact (hprincipal.returns hfixed).bind <|
        (hquery.returns hfixed).bind <|
          (haction.returns hfixed).bind (returns_pure _)
  | dialogue hhistory =>
      simp only [checkParts, checkDialogue, bind_assoc]
      have hchecked := returns_mapM (hhistory.imp fun _ _ h => h.returns hfixed)
      refine hchecked.bind ?_
      simp only [pure_bind]
      exact returns_pure _
  | answer hvalue =>
      simp only [checkParts, checkControl, bind_assoc]
      refine (hvalue.returns hfixed).bind ?_
      simp only [pure_bind]
      exact returns_pure _
  | special =>
      exact returns_pure _
  | choice =>
      exact returns_pure _

/-- With a fixed source, whatever is accepted passes the check in every session. -/
theorem check_of_acceptsInput
    (hfixed : c.source.IsFixed)
    {input output : Input} (h : c.AcceptsInput input output) (s : Session σ) :
    ((c.check input).runIn s).1 = .ok output := by
  rw [check_result]
  exact h.returns hfixed (started input s)

end Checker

end SkillLang
