import SkillLang.Proofs.Typing.Acceptance

/-!
# What a successful check tells

Every possible result of checking a part of an input is one that the rules of
acceptance allow.  The proofs follow the recursion of the checker and open each of
its definitions once; results about accepted inputs only use the rules.
-/

namespace SkillLang.Checker

open SkillLang.Action

variable {σ : Type} {c : Checker σ}

/-! ## Steps that leave the session alone -/

@[simp] theorem mayReturn_guardDepth_bind
    (depth : Nat) (f : Unit → Check σ β) (b : β) :
    (guardDepth depth >>= f).MayReturn b ↔
      depth ≤ Limits.maxDepth ∧ (f ()).MayReturn b := by
  unfold guardDepth
  by_cases hdepth : Limits.maxDepth < depth
  · rw [if_pos hdepth]
    simp only [not_mayReturn_throw_bind, false_iff]
    omega
  · rw [if_neg hdepth]
    simp only [pure_bind]
    constructor
    · intro h
      exact ⟨by omega, h⟩
    · intro h
      exact h.2

@[simp] theorem mayReturn_overload_bind
    (table : OperatorTable) (op : String) (types : List Ty)
    (range : Option Range) (f : Overload → Check σ β) (b : β) :
    (c.overload table op types range >>= f).MayReturn b ↔
      ∃ chosen, table.resolve? op types c.lenient = some chosen ∧
        (f chosen).MayReturn b := by
  unfold overload
  cases hchosen : table.resolve? op types c.lenient with
  | none =>
      constructor
      · intro h
        obtain ⟨chosen, h, -⟩ := h.of_bind
        obtain ⟨-, -, h⟩ := h.of_bind
        exact (not_mayReturn_throw _ _ h).elim
      · rintro ⟨chosen, hnone, -⟩
        cases hnone
  | some chosen =>
      simp only [pure_bind, Option.some.injEq, exists_eq_left']

theorem resolves_of_mayReturn
    {selector selector' : Selector} {channel : String} {kind : LookupKind}
    {range : Option Range} {schema : Signature}
    (h : (c.resolve selector channel kind range).MayReturn (selector', schema)) :
    c.Resolves selector channel kind selector' schema := by
  cases selector with
  | builtin =>
      simp only [resolve] at h
      cases hfunction : Builtin.function? channel with
      | none =>
          rw [hfunction] at h
          exact (not_mayReturn_throw _ _ h).elim
      | some found =>
          rw [hfunction] at h
          cases h.eq_of_pure
          exact .builtin hfunction
  | device d =>
      simp only [resolve, mayReturn_ofExcept_bind] at h
      obtain ⟨normal, hnormal, h⟩ := h
      obtain ⟨found, hfound, h⟩ := h.of_bind
      cases h.eq_of_pure
      exact .device hnormal hfound

/-! ## Values and filters -/

theorem uniform_toList (first : Option Ty) :
    c.Uniform (first.toList ++ []) := by
  intro type htype
  cases first with
  | none => simp at htype
  | some found => simp at htype

/-- An element that fits the first one may be put behind it. -/
theorem Uniform.of_first
    {first : Option Ty} {type : Ty} {types : List Ty}
    (huniform : c.Uniform ((some (first.getD type)).toList ++ types))
    (hfits : first.isSome = true → c.assignable type (first.getD type) = true) :
    c.Uniform (first.toList ++ type :: types) := by
  cases first with
  | none => exact huniform
  | some found =>
      intro other hother
      simp only [Option.toList_some, List.singleton_append, List.tail_cons,
        List.mem_cons] at hother
      rcases hother with rfl | hother
      · exact hfits rfl
      · exact huniform other hother

mutual

theorem acceptsValue_of_mayReturn
    (value : Value) {scope : Scope} {depth : Nat} {value' : Value} {type : Ty}
    (h : (c.checkValue scope depth value).MayReturn (value', type)) :
    c.AcceptsValue scope depth value value' type := by
  cases value with
  | var name known =>
      simp only [checkValue, mayReturn_guardDepth_bind] at h
      obtain ⟨hdepth, h⟩ := h
      cases hvar : scope.var? name with
      | none => simp [hvar] at h
      | some found =>
          rw [hvar] at h
          cases h.eq_of_pure
          exact .var hdepth hvar
  | computation op operands noted known =>
      simp only [checkValue, mayReturn_guardDepth_bind] at h
      obtain ⟨hdepth, h⟩ := h
      obtain ⟨⟨operands', types⟩, hoperands, h⟩ := h.of_bind
      simp only [mayReturn_overload_bind] at h
      obtain ⟨chosen, hchosen, h⟩ := h
      cases h.eq_of_pure
      exact .computation hdepth (acceptsValues_of_mayReturn operands hoperands) hchosen
  | field inner name known =>
      simp only [checkValue, mayReturn_guardDepth_bind] at h
      obtain ⟨hdepth, h⟩ := h
      obtain ⟨⟨inner', innerType⟩, hinner, h⟩ := h.of_bind
      simp only at h
      cases hfound : innerType.recordFields?.bind (Keyed.find? name) with
      | none => simp [hfound] at h
      | some found =>
          rw [hfound] at h
          cases h.eq_of_pure
          exact .field hdepth (acceptsValue_of_mayReturn inner hinner) hfound
  | filtered inner filter known =>
      simp only [checkValue, mayReturn_guardDepth_bind] at h
      obtain ⟨hdepth, h⟩ := h
      obtain ⟨⟨inner', innerType⟩, hinner, h⟩ := h.of_bind
      simp only at h
      cases hfields : innerType.recordFields? with
      | none => simp [hfields] at h
      | some fields =>
          rw [hfields] at h
          obtain ⟨filter', hfilter, h⟩ := h.of_bind
          cases h.eq_of_pure
          exact .filtered hdepth (acceptsValue_of_mayReturn inner hinner) hfields
            (acceptsFilter_of_mayReturn filter hfilter)
  | array values known =>
      -- The checker remembers the type of the first element only; the types of the others
      -- come from the recursion.
      simp only [checkValue, mayReturn_guardDepth_bind] at h
      obtain ⟨hdepth, h⟩ := h
      obtain ⟨⟨values', first⟩, helements, h⟩ := h.of_bind
      cases h.eq_of_pure
      obtain ⟨types, hvalues, huniform, hfirst⟩ :=
        acceptsElements_of_mayReturn values helements
      refine .array hdepth hvalues huniform ?_
      rw [hfirst, List.headD_eq_head?_getD]
      rfl
  | object fields =>
      simp only [checkValue, mayReturn_guardDepth_bind] at h
      obtain ⟨hdepth, h⟩ := h
      obtain ⟨⟨fields', types⟩, hfields, h⟩ := h.of_bind
      cases h.eq_of_pure
      exact .object hdepth (acceptsFields_of_mayReturn fields hfields)
  | undefined _ | context _ _ | boolean _ | string _ | number _ | measure _ _
  | currency _ _ | place _ | date _ | time _ | entity _ | enum _ | event _ | argMap _ =>
      simp only [checkValue, mayReturn_guardDepth_bind] at h
      obtain ⟨hdepth, h⟩ := h
      cases h.eq_of_pure
      exact .leaf hdepth rfl
termination_by structural value

theorem acceptsValues_of_mayReturn
    (values : List Value) {scope : Scope} {depth : Nat} {values' : List Value}
    {types : List Ty}
    (h : (c.checkValues scope depth values).MayReturn (values', types)) :
    c.AcceptsValues scope depth values values' types := by
  cases values with
  | nil =>
      simp only [checkValues] at h
      cases h.eq_of_pure
      exact .nil
  | cons value values =>
      simp only [checkValues] at h
      obtain ⟨⟨value', type⟩, hvalue, h⟩ := h.of_bind
      obtain ⟨⟨rest', restTypes⟩, hrest, h⟩ := h.of_bind
      cases h.eq_of_pure
      exact .cons (acceptsValue_of_mayReturn value hvalue)
        (acceptsValues_of_mayReturn values hrest)
termination_by structural values

theorem acceptsElements_of_mayReturn
    (values : List Value) {scope : Scope} {depth : Nat} {first last : Option Ty}
    {values' : List Value}
    (h : (c.checkElements scope depth first values).MayReturn (values', last)) :
    ∃ types, c.AcceptsValues scope depth values values' types ∧
      c.Uniform (first.toList ++ types) ∧ last = (first.toList ++ types).head? := by
  cases values with
  | nil =>
      simp only [checkElements] at h
      cases h.eq_of_pure
      exact ⟨[], .nil, uniform_toList first, by cases first <;> rfl⟩
  | cons value values =>
      simp only [checkElements] at h
      obtain ⟨⟨value', type⟩, hvalue, h⟩ := h.of_bind
      simp only [mayReturn_ite_throw_bind] at h
      obtain ⟨hfits, h⟩ := h
      obtain ⟨⟨rest', restLast⟩, hrest, h⟩ := h.of_bind
      cases h.eq_of_pure
      obtain ⟨types, htypes, huniform, hlast⟩ :=
        acceptsElements_of_mayReturn values hrest
      refine ⟨type :: types, .cons (acceptsValue_of_mayReturn value hvalue) htypes, ?_, ?_⟩
      · exact huniform.of_first (by simpa using hfits)
      · rw [hlast]
        cases first <;> rfl
termination_by structural values

theorem acceptsFields_of_mayReturn
    (fields : List (String × Value)) {scope : Scope} {depth : Nat}
    {fields' : List (String × Value)} {types : List (String × Ty)}
    (h : (c.checkFields scope depth fields).MayReturn (fields', types)) :
    c.AcceptsFields scope depth fields fields' types := by
  cases fields with
  | nil =>
      simp only [checkFields] at h
      cases h.eq_of_pure
      exact .nil
  | cons field fields =>
      obtain ⟨name, value⟩ := field
      simp only [checkFields] at h
      obtain ⟨⟨value', type⟩, hvalue, h⟩ := h.of_bind
      obtain ⟨⟨rest', restTypes⟩, hrest, h⟩ := h.of_bind
      cases h.eq_of_pure
      exact .cons (acceptsValue_of_mayReturn value hvalue)
        (acceptsFields_of_mayReturn fields hrest)
termination_by structural fields

theorem acceptsFilter_of_mayReturn
    (filter : Filter) {schema : Signature} {scope : Scope} {depth : Nat}
    {filter' : Filter}
    (h : (c.checkFilter schema scope depth filter).MayReturn filter') :
    c.AcceptsFilter schema scope depth filter filter' := by
  -- The check is taken apart step by step; what the steps have returned are the premises of the
  -- rule for the form of the filter.
  cases filter with
  | always =>
      simp only [checkFilter, mayReturn_guardDepth_bind] at h
      obtain ⟨hdepth, h⟩ := h
      cases h.eq_of_pure
      exact .always hdepth
  | never =>
      simp only [checkFilter, mayReturn_guardDepth_bind] at h
      obtain ⟨hdepth, h⟩ := h
      cases h.eq_of_pure
      exact .never hdepth
  | conj range operands =>
      simp only [checkFilter, mayReturn_guardDepth_bind] at h
      obtain ⟨hdepth, h⟩ := h
      obtain ⟨operands', hoperands, h⟩ := h.of_bind
      cases h.eq_of_pure
      exact .conj hdepth (acceptsFilters_of_mayReturn operands hoperands)
  | disj range operands =>
      simp only [checkFilter, mayReturn_guardDepth_bind] at h
      obtain ⟨hdepth, h⟩ := h
      obtain ⟨operands', hoperands, h⟩ := h.of_bind
      cases h.eq_of_pure
      exact .disj hdepth (acceptsFilters_of_mayReturn operands hoperands)
  | neg range operand =>
      simp only [checkFilter, mayReturn_guardDepth_bind] at h
      obtain ⟨hdepth, h⟩ := h
      obtain ⟨operand', hoperand, h⟩ := h.of_bind
      cases h.eq_of_pure
      exact .neg hdepth (acceptsFilter_of_mayReturn operand hoperand)
  | dontCare range name =>
      simp only [checkFilter, mayReturn_guardDepth_bind, mayReturn_ofExcept_bind] at h
      obtain ⟨hdepth, ⟨⟩, harg, h⟩ := h
      cases h.eq_of_pure
      exact .dontCare hdepth harg
  | atom range name op value noted =>
      simp only [checkFilter, mayReturn_guardDepth_bind] at h
      obtain ⟨hdepth, h⟩ := h
      cases htype : (schema.arg? name).map Argument.type <|> scope.var? name with
      | none => simp [htype] at h
      | some type =>
          rw [htype] at h
          obtain ⟨⟨value', found⟩, hvalue, h⟩ := h.of_bind
          simp only [mayReturn_overload_bind] at h
          obtain ⟨chosen, hchosen, h⟩ := h
          cases h.eq_of_pure
          exact .atom hdepth htype (acceptsValue_of_mayReturn value hvalue) hchosen
  | compute range lhs op rhs noted =>
      simp only [checkFilter, mayReturn_guardDepth_bind] at h
      obtain ⟨hdepth, h⟩ := h
      obtain ⟨⟨lhs', lhsType⟩, hlhs, h⟩ := h.of_bind
      obtain ⟨⟨rhs', rhsType⟩, hrhs, h⟩ := h.of_bind
      simp only [mayReturn_overload_bind] at h
      obtain ⟨chosen, hchosen, h⟩ := h
      cases h.eq_of_pure
      exact .compute hdepth (acceptsValue_of_mayReturn lhs hlhs)
        (acceptsValue_of_mayReturn rhs hrhs) hchosen
  | external call filter =>
      obtain ⟨selector, channel, params, range, known⟩ := call
      simp only [checkFilter, mayReturn_guardDepth_bind] at h
      obtain ⟨hdepth, h⟩ := h
      obtain ⟨⟨selector', external⟩, hresolve, h⟩ := h.of_bind
      simp only [mayReturn_ofExcept_bind] at h
      obtain ⟨⟨⟩, hkind, h⟩ := h
      obtain ⟨params', hparams, h⟩ := h.of_bind
      simp only [mayReturn_ofExcept_bind] at h
      obtain ⟨⟨⟩, hrequired, h⟩ := h
      obtain ⟨filter', hfilter, h⟩ := h.of_bind
      cases h.eq_of_pure
      exact .external hdepth (resolves_of_mayReturn hresolve) hkind
        (acceptsParams_of_mayReturn params hparams) hrequired
        (acceptsFilter_of_mayReturn filter hfilter)
termination_by structural filter

theorem acceptsFilters_of_mayReturn
    (filters : List Filter) {schema : Signature} {scope : Scope} {depth : Nat}
    {filters' : List Filter}
    (h : (c.checkFilters schema scope depth filters).MayReturn filters') :
    c.AcceptsFilters schema scope depth filters filters' := by
  cases filters with
  | nil =>
      simp only [checkFilters] at h
      cases h.eq_of_pure
      exact .nil
  | cons filter filters =>
      simp only [checkFilters] at h
      obtain ⟨filter', hfilter, h⟩ := h.of_bind
      obtain ⟨filters', hfilters, h⟩ := h.of_bind
      cases h.eq_of_pure
      exact .cons (acceptsFilter_of_mayReturn filter hfilter)
        (acceptsFilters_of_mayReturn filters hfilters)
termination_by structural filters

theorem acceptsParams_of_mayReturn
    (params : List Param) {schema : Signature} {scope : Scope} {depth : Nat}
    {seen : List String} {params' : List Param}
    (h : (c.checkParams schema scope depth seen params).MayReturn params') :
    c.AcceptsParams schema scope depth seen params params' := by
  cases params with
  | nil =>
      simp only [checkParams] at h
      cases h.eq_of_pure
      exact .nil
  | cons param params =>
      obtain ⟨name, value, range⟩ := param
      simp only [checkParams] at h
      cases harg : (schema.arg? name).filter Argument.isInput with
      | none => simp [harg] at h
      | some arg =>
          simp only [harg, mayReturn_ite_throw_bind] at h
          obtain ⟨hfresh, h⟩ := h
          obtain ⟨⟨value', type⟩, hvalue, h⟩ := h.of_bind
          simp only [mayReturn_ite_throw_bind] at h
          obtain ⟨hfits, h⟩ := h
          obtain ⟨rest', hrest, h⟩ := h.of_bind
          cases h.eq_of_pure
          exact .cons harg (by simpa using hfresh) (acceptsValue_of_mayReturn value hvalue)
            (by simpa using hfits) (acceptsParams_of_mayReturn params hrest)
termination_by structural params

end

/-! ## Expressions -/

theorem acceptsCall_of_mayReturn
    {schema : Signature} {scope : Scope} {range : Option Range} {depth : Nat}
    {params params' : List Param}
    (h : (c.checkCall schema params scope range depth).MayReturn params') :
    c.AcceptsCall schema scope range depth params params' := by
  unfold checkCall at h
  obtain ⟨checked, hparams, h⟩ := h.of_bind
  simp only [mayReturn_ofExcept_bind] at h
  obtain ⟨⟨⟩, hrequired, h⟩ := h
  cases h.eq_of_pure
  exact ⟨acceptsParams_of_mayReturn params hparams, hrequired⟩

theorem acceptsColumns_of_mayReturn
    {scope : Scope} {depth : Nat} {columns columns' : List Value}
    {labels : List (Option String)} {outputs : List Argument}
    (h : (c.checkColumns scope depth columns labels).MayReturn (columns', outputs)) :
    ∃ types, c.AcceptsValues scope depth columns columns' types ∧
      outputs = columnOutputs labels columns' types := by
  induction columns generalizing labels columns' outputs with
  | nil =>
      simp only [checkColumns] at h
      cases h.eq_of_pure
      exact ⟨[], .nil, by cases labels <;> rfl⟩
  | cons value values ih =>
      simp only [checkColumns] at h
      obtain ⟨⟨value', type⟩, hvalue, h⟩ := h.of_bind
      obtain ⟨⟨rest', restOutputs⟩, hrest, h⟩ := h.of_bind
      cases h.eq_of_pure
      obtain ⟨types, htypes, houtputs⟩ := ih hrest
      refine ⟨type :: types, .cons (acceptsValue_of_mayReturn value hvalue) htypes, ?_⟩
      rw [houtputs, columnOutputs]

theorem acceptsSelected_of_mayReturn
    {schema : Signature} {scope : Scope} {range : Option Range} {depth : Nat}
    {element : Selected} {checked : Selected × Selection}
    (h : (c.checkSelected schema scope range depth element).MayReturn checked) :
    c.AcceptsSelected schema scope range depth element checked := by
  obtain ⟨column, label, types⟩ := element
  cases column with
  | path path =>
      simp only [checkSelected, mayReturn_ofExcept_bind] at h
      obtain ⟨selection, hselect, h⟩ := h
      cases h.eq_of_pure
      exact .path hselect
  | value value =>
      simp only [checkSelected] at h
      obtain ⟨⟨value', type⟩, hvalue, h⟩ := h.of_bind
      cases h.eq_of_pure
      exact .value (acceptsValue_of_mayReturn value hvalue)

theorem acceptsIndex_of_mayReturn
    {scope : Scope} {range : Option Range} {depth : Nat} {index index' : Value}
    (h : (c.checkIndex scope range depth index).MayReturn index') :
    c.AcceptsFitting c.fitsIndex scope depth index index' := by
  unfold checkIndex at h
  obtain ⟨⟨checked, type⟩, hvalue, h⟩ := h.of_bind
  simp only at h
  split at h
  next hfits =>
    cases h.eq_of_pure
    exact ⟨type, acceptsValue_of_mayReturn index hvalue, hfits⟩
  next =>
    exact (not_mayReturn_throw _ _ h).elim

theorem acceptsNumber_of_mayReturn
    {name : String} {scope : Scope} {range : Option Range} {depth : Nat}
    {value value' : Value}
    (h : (c.checkNumber name scope range depth value).MayReturn value') :
    c.AcceptsFitting c.fitsNumber scope depth value value' := by
  unfold checkNumber at h
  obtain ⟨⟨checked, type⟩, hvalue, h⟩ := h.of_bind
  simp only at h
  split at h
  next hfits =>
    cases h.eq_of_pure
    exact ⟨type, acceptsValue_of_mayReturn value hvalue, hfits⟩
  next =>
    exact (not_mayReturn_throw _ _ h).elim

/-- All outputs together can only be counted. -/
theorem acceptsAggregation_of_mayReturn
    {base schema : Signature} {scope : Scope} {range : Option Range} {depth : Nat}
    {field op : String} {known : Option (List Ty)} {clause' : Clause}
    (h : (c.checkClause base scope range depth (.aggregation field op known)).MayReturn
      (clause', schema)) :
    c.AcceptsClause base scope range depth (.aggregation field op known) clause' schema := by
  simp only [checkClause, mayReturn_ofExcept_bind] at h
  obtain ⟨⟨⟩, hlist, h⟩ := h
  by_cases hfield : field = "*"
  · rw [if_pos hfield] at h
    simp only [pure_bind] at h
    by_cases hcount : op = "count"
    · rw [if_neg (fun hboth => hboth.2 hcount)] at h
      simp only [mayReturn_overload_bind] at h
      obtain ⟨chosen, hchosen, h⟩ := h
      cases h.eq_of_pure
      exact .aggregation hlist (by rw [if_pos hfield]) (fun _ => hcount) hchosen
    · rw [if_pos ⟨hfield, hcount⟩] at h
      obtain ⟨-, -, h⟩ := h.of_bind
      exact (not_mayReturn_throw_bind _ _ _ h).elim
  · rw [if_neg hfield] at h
    simp only [mayReturn_ofExcept_bind] at h
    obtain ⟨type, htype, h⟩ := h
    rw [if_neg (fun hboth => hfield hboth.1)] at h
    simp only [mayReturn_overload_bind] at h
    obtain ⟨chosen, hchosen, h⟩ := h
    cases h.eq_of_pure
    exact .aggregation hlist (by rwa [if_neg hfield])
      (fun hstar => (hfield hstar).elim) hchosen

theorem acceptsClause_of_mayReturn
    {base schema : Signature} {scope : Scope} {range : Option Range} {depth : Nat}
    {clause clause' : Clause}
    (h : (c.checkClause base scope range depth clause).MayReturn (clause', schema)) :
    c.AcceptsClause base scope range depth clause clause' schema := by
  cases clause with
  | filter test =>
      simp only [checkClause, mayReturn_ofExcept_bind] at h
      obtain ⟨⟨⟩, hkind, h⟩ := h
      obtain ⟨test', htest, h⟩ := h.of_bind
      cases h.eq_of_pure
      exact .filter hkind (acceptsFilter_of_mayReturn test htest)
  | monitor args =>
      simp only [checkClause, mayReturn_ofExcept_bind] at h
      obtain ⟨result, hresult, h⟩ := h
      cases h.eq_of_pure
      exact .monitor hresult
  | projection args columns labels =>
      simp only [checkClause, mayReturn_ofExcept_bind] at h
      obtain ⟨⟨⟩, hkind, ⟨⟩, hargs, h⟩ := h
      obtain ⟨⟨columns', outputs⟩, hcolumns, h⟩ := h.of_bind
      cases h.eq_of_pure
      obtain ⟨types, htypes, rfl⟩ := acceptsColumns_of_mayReturn hcolumns
      exact .projection hkind hargs htypes
  | selection elements =>
      simp only [checkClause, mayReturn_ofExcept_bind] at h
      obtain ⟨⟨⟩, hkind, h⟩ := h
      obtain ⟨checked, helements, h⟩ := h.of_bind
      cases h.eq_of_pure
      refine .selection hkind (helements.forall₂_of_mapM.imp ?_)
      intro element found helement
      exact acceptsSelected_of_mayReturn helement
  | question test =>
      simp only [checkClause, mayReturn_ofExcept_bind] at h
      obtain ⟨⟨⟩, hkind, h⟩ := h
      obtain ⟨test', htest, h⟩ := h.of_bind
      cases h.eq_of_pure
      exact .question hkind (acceptsFilter_of_mayReturn test htest)
  | named name =>
      simp only [checkClause] at h
      cases h.eq_of_pure
      exact .named
  | aggregation field op known => exact acceptsAggregation_of_mayReturn h
  | sort value direction =>
      simp only [checkClause, mayReturn_ofExcept_bind] at h
      obtain ⟨⟨⟩, hlist, h⟩ := h
      obtain ⟨⟨value', type⟩, hvalue, h⟩ := h.of_bind
      simp only at h
      split at h
      next hfits =>
        cases h.eq_of_pure
        exact .sort hlist ⟨type, acceptsValue_of_mayReturn value hvalue, hfits⟩
      next =>
        exact (not_mayReturn_throw _ _ h).elim
  | index indices =>
      simp only [checkClause, mayReturn_ofExcept_bind] at h
      obtain ⟨⟨⟩, hlist, h⟩ := h
      obtain ⟨indices', hindices, h⟩ := h.of_bind
      cases h.eq_of_pure
      refine .index hlist (hindices.forall₂_of_mapM.imp ?_)
      intro index index' hindex
      exact acceptsIndex_of_mayReturn hindex
  | slice base limit =>
      simp only [checkClause, mayReturn_ofExcept_bind] at h
      obtain ⟨⟨⟩, hlist, h⟩ := h
      obtain ⟨base', hbase, h⟩ := h.of_bind
      obtain ⟨limit', hlimit, h⟩ := h.of_bind
      cases h.eq_of_pure
      exact .slice hlist (acceptsNumber_of_mayReturn hbase) (acceptsNumber_of_mayReturn hlimit)

mutual

theorem acceptsExpression_of_mayReturn
    (expression : Expression) {scope : Scope} {depth : Nat}
    {expression' : Expression} {schema : Signature}
    (h : (c.checkExpression scope depth expression).MayReturn (expression', schema)) :
    c.AcceptsExpression scope depth expression expression' schema := by
  cases expression with
  | call info name params =>
      obtain ⟨range, known⟩ := info
      simp only [checkExpression, mayReturn_guardDepth_bind] at h
      obtain ⟨hdepth, h⟩ := h
      cases hfunction : scope.function? name <|> Builtin.function? name with
      | none => simp [hfunction] at h
      | some found =>
          rw [hfunction] at h
          obtain ⟨params', hcall, h⟩ := h.of_bind
          cases h.eq_of_pure
          exact .call hdepth hfunction (acceptsCall_of_mayReturn hcall)
  | invocation info call =>
      obtain ⟨range, known⟩ := info
      obtain ⟨selector, channel, params, callRange, noted⟩ := call
      simp only [checkExpression, mayReturn_guardDepth_bind] at h
      obtain ⟨hdepth, h⟩ := h
      obtain ⟨⟨selector', found⟩, hresolve, h⟩ := h.of_bind
      obtain ⟨params', hcall, h⟩ := h.of_bind
      cases h.eq_of_pure
      exact .invocation hdepth (resolves_of_mayReturn hresolve)
        (acceptsCall_of_mayReturn hcall)
  | clause info inner clause =>
      obtain ⟨range, known⟩ := info
      simp only [checkExpression, mayReturn_guardDepth_bind] at h
      obtain ⟨hdepth, h⟩ := h
      obtain ⟨⟨inner', base⟩, hinner, h⟩ := h.of_bind
      obtain ⟨⟨clause', found⟩, hclause, h⟩ := h.of_bind
      cases h.eq_of_pure
      exact .clause hdepth (acceptsExpression_of_mayReturn inner hinner)
        (acceptsClause_of_mayReturn hclause)
  | chain info elements =>
      obtain ⟨range, known⟩ := info
      simp only [checkExpression, mayReturn_guardDepth_bind, mayReturn_ite_throw_bind] at h
      obtain ⟨hdepth, hlength, h⟩ := h
      obtain ⟨⟨elements', schemas⟩, helements, h⟩ := h.of_bind
      simp only [mayReturn_ofExcept_bind] at h
      obtain ⟨found, hschema, h⟩ := h
      cases h.eq_of_pure
      exact .chain hdepth (by omega) (acceptsChain_of_mayReturn elements helements) hschema
  | join info lhs rhs =>
      obtain ⟨range, known⟩ := info
      simp only [checkExpression, mayReturn_guardDepth_bind] at h
      obtain ⟨hdepth, h⟩ := h
      obtain ⟨⟨lhs', left⟩, hlhs, h⟩ := h.of_bind
      simp only [mayReturn_ofExcept_bind] at h
      obtain ⟨⟨⟩, hleft, h⟩ := h
      obtain ⟨⟨rhs', right⟩, hrhs, h⟩ := h.of_bind
      simp only [mayReturn_ofExcept_bind] at h
      obtain ⟨⟨⟩, hright, h⟩ := h
      cases h.eq_of_pure
      exact .join hdepth (acceptsExpression_of_mayReturn lhs hlhs) hleft
        (acceptsExpression_of_mayReturn rhs hrhs) hright
termination_by structural expression

theorem acceptsChain_of_mayReturn
    (elements : List Expression) {scope : Scope} {depth : Nat} {isFirst : Bool}
    {elements' : List Expression} {schemas : List Signature}
    (h : (c.checkElementsOf scope depth isFirst elements).MayReturn (elements', schemas)) :
    c.AcceptsChain scope depth isFirst elements elements' schemas := by
  cases elements with
  | nil =>
      simp only [checkElementsOf] at h
      cases h.eq_of_pure
      exact .nil
  | cons element elements =>
      simp only [checkElementsOf] at h
      obtain ⟨⟨element', schema⟩, helement, h⟩ := h.of_bind
      simp only [mayReturn_ite_throw_bind] at h
      obtain ⟨hplace, h⟩ := h
      obtain ⟨⟨rest', restSchemas⟩, hrest, h⟩ := h.of_bind
      cases h.eq_of_pure
      exact .cons (acceptsExpression_of_mayReturn element helement) (by simpa using hplace)
        (acceptsChain_of_mayReturn elements hrest)
termination_by structural elements

end

/-! ## Inputs -/

theorem acceptsStatement_of_mayReturn
    {scope next : Scope} {statement statement' : Statement} {schema : Option Signature}
    (h : (c.checkStatement scope statement).MayReturn (statement', schema, next)) :
    c.AcceptsStatement scope statement statement' schema next := by
  cases statement with
  | expression s =>
      obtain ⟨body, range⟩ := s
      simp only [checkStatement] at h
      obtain ⟨⟨body', found⟩, hbody, h⟩ := h.of_bind
      cases h.eq_of_pure
      exact .expression (acceptsExpression_of_mayReturn body hbody)
  | ret body range =>
      simp only [checkStatement] at h
      obtain ⟨⟨body', found⟩, hbody, h⟩ := h.of_bind
      cases h.eq_of_pure
      exact .ret (acceptsExpression_of_mayReturn body hbody)
  | assign name body range =>
      simp only [checkStatement] at h
      obtain ⟨⟨body', found⟩, hbody, h⟩ := h.of_bind
      cases h.eq_of_pure
      exact .assign (acceptsExpression_of_mayReturn body hbody)

theorem acceptsStatements_of_mayReturn
    {scope : Scope} {statements statements' : List Statement} {schemas : List Signature}
    (h : (c.checkStatements scope statements).MayReturn (statements', schemas)) :
    c.AcceptsStatements scope statements statements' schemas := by
  induction statements generalizing scope statements' schemas with
  | nil =>
      simp only [checkStatements] at h
      cases h.eq_of_pure
      exact .nil
  | cons statement rest ih =>
      simp only [checkStatements] at h
      obtain ⟨⟨statement', schema, next⟩, hstatement, h⟩ := h.of_bind
      obtain ⟨⟨rest', restSchemas⟩, hrest, h⟩ := h.of_bind
      cases h.eq_of_pure
      exact .cons (acceptsStatement_of_mayReturn hstatement) (ih hrest)

theorem acceptsDeclarations_of_mayReturn
    {scope final : Scope} {declarations declarations' : List FunctionDeclaration}
    (h : (c.checkDeclarations scope declarations).MayReturn (declarations', final)) :
    c.AcceptsDeclarations scope declarations declarations' final := by
  induction declarations generalizing scope declarations' with
  | nil =>
      simp only [checkDeclarations] at h
      cases h.eq_of_pure
      exact .nil
  | cons d rest ih =>
      simp only [checkDeclarations, checkDeclaration, bind_assoc] at h
      obtain ⟨⟨statements', body⟩, hbody, h⟩ := h.of_bind
      simp only [pure_bind] at h
      obtain ⟨⟨rest', final'⟩, hrest, h⟩ := h.of_bind
      cases h.eq_of_pure
      exact .cons (acceptsStatements_of_mayReturn hbody) (ih hrest)

theorem acceptsPermission_of_mayReturn
    {scope : Scope} {isAction : Bool} {function function' : PermissionFunction}
    {schema : Option Signature}
    (h : (c.checkPermissionFunction scope isAction function).MayReturn (function', schema)) :
    c.AcceptsPermission scope isAction function function' schema := by
  cases function with
  | specified f =>
      obtain ⟨kind, channel, filter, range, known⟩ := f
      simp only [checkPermissionFunction, checkSpecified, bind_assoc] at h
      obtain ⟨found, hanswer, h⟩ := h.of_bind
      obtain ⟨⟨f', found'⟩, hspecified, h⟩ := h.of_bind
      simp only [mayReturn_ite_throw_bind] at hspecified
      obtain ⟨hside, hspecified⟩ := hspecified
      obtain ⟨filter', hfilter, hspecified⟩ := hspecified.of_bind
      cases hspecified.eq_of_pure
      cases h.eq_of_pure
      exact .specified hanswer (by simpa using hside)
        (acceptsFilter_of_mayReturn filter hfilter)
  | builtin =>
      cases h.eq_of_pure
      exact .builtin
  | classStar kind =>
      cases h.eq_of_pure
      exact .classStar
  | star =>
      cases h.eq_of_pure
      exact .star

theorem acceptsItem_of_mayReturn
    {item item' : HistoryItem}
    (h : (c.checkItem item).MayReturn item') :
    c.AcceptsItem item item' := by
  unfold checkItem at h
  obtain ⟨⟨body', schema⟩, hbody, h⟩ := h.of_bind
  simp only at h
  have hbody := acceptsExpression_of_mayReturn _ hbody
  split at h
  next results hresults =>
    simp only [mayReturn_ofExcept_bind] at h
    obtain ⟨⟨⟩, hfits, h⟩ := h
    cases h.eq_of_pure
    refine .mk hbody ?_
    intro found hfound
    cases hresults.symm.trans hfound
    exact hfits
  next hnone =>
    cases h.eq_of_pure
    refine .mk hbody ?_
    intro found hfound
    exact (hnone found hfound).elim

theorem acceptsInput_of_mayReturn
    {input output : Input} (h : (c.checkParts input).MayReturn output) :
    c.AcceptsInput input output := by
  cases input with
  | program p =>
      simp only [checkParts, checkProgram, bind_assoc] at h
      obtain ⟨⟨declarations', scope⟩, hdeclarations, h⟩ := h.of_bind
      simp only at h
      obtain ⟨⟨statements', schemas⟩, hstatements, h⟩ := h.of_bind
      simp only [pure_bind] at h
      obtain ⟨-, -, h⟩ := h.of_bind
      cases h.eq_of_pure
      exact .program (acceptsDeclarations_of_mayReturn hdeclarations)
        (acceptsStatements_of_mayReturn hstatements)
  | permission r =>
      obtain ⟨principal, query, action, range⟩ := r
      simp only [checkParts, checkPermission, bind_assoc] at h
      obtain ⟨principal', hprincipal, h⟩ := h.of_bind
      obtain ⟨⟨query', schema⟩, hquery, h⟩ := h.of_bind
      simp only at h
      obtain ⟨⟨action', known⟩, haction, h⟩ := h.of_bind
      simp only [pure_bind] at h
      cases h.eq_of_pure
      exact .permission (acceptsFilter_of_mayReturn principal hprincipal)
        (acceptsPermission_of_mayReturn hquery) (acceptsPermission_of_mayReturn haction)
  | dialogue s =>
      simp only [checkParts, checkDialogue, bind_assoc] at h
      obtain ⟨history', hhistory, h⟩ := h.of_bind
      simp only [pure_bind] at h
      cases h.eq_of_pure
      refine .dialogue (hhistory.forall₂_of_mapM.imp ?_)
      intro item item' hitem
      exact acceptsItem_of_mayReturn hitem
  | control command =>
      obtain ⟨intent, range⟩ := command
      cases intent with
      | special name =>
          cases h.eq_of_pure
          exact .special
      | choice number =>
          cases h.eq_of_pure
          exact .choice
      | answer value =>
          simp only [checkParts, checkControl, bind_assoc] at h
          obtain ⟨⟨value', type⟩, hvalue, h⟩ := h.of_bind
          simp only [pure_bind] at h
          cases h.eq_of_pure
          exact .answer (acceptsValue_of_mayReturn value hvalue)

/-- The session in which the parts of an input are checked. -/
def started (input : Input) (s : Session σ) : Session σ :=
  { s with log := s.log.push (.info "Starting typecheck" [("kind", input.kind)]) }

/-- A check ends the way the check of its parts ends; what it adds are events. -/
theorem check_result (input : Input) (s : Session σ) :
    ((c.check input).runIn s).1 = ((c.checkParts input).runIn (started input s)).1 := by
  unfold check
  rw [runIn_bind, runIn_record]
  simp only
  rw [runIn_bind, runIn_tryCatch, runIn_bind]
  unfold started
  rcases hrun : (c.checkParts input).runIn
    { s with log := s.log.push (.info "Starting typecheck" [("kind", input.kind)]) } with
    ⟨result, next⟩
  cases result with
  | ok output =>
      simp only
      rw [runIn_bind, runIn_record]
      rfl
  | error e =>
      simp only
      rw [runIn_bind, runIn_record]
      rfl

/-- What comes out of a check is accepted for what went in. -/
theorem acceptsInput_of_check
    {input output : Input} {s : Session σ}
    (h : ((c.check input).runIn s).1 = .ok output) :
    c.AcceptsInput input output := by
  apply acceptsInput_of_mayReturn
  rw [check_result] at h
  exact ⟨started input s, h⟩

/-! ## A digest of news

A small program: news about a topic that is still to be asked for, with titles from a list, are
sent by mail.
-/

namespace Digest

def search : Signature where
  type := .query
  device := some "com.news"
  name := "search"
  args :=
    [{ name := "topic", direction := .inReq, type := .string },
      { name := "title", direction := .out, type := .string }]
  isList := true

def send : Signature where
  type := .action
  device := some "com.mail"
  name := "send"
  args := [{ name := "subject", direction := .inReq, type := .string }]

def checker : Checker Unit :=
  { source := (SchemaLibrary.ofList [search, send]).source }

/-- The news come from devices with the given attributes. -/
def expression (attributes : List Param) : Expression :=
  .chain {}
    [.clause {}
        (.invocation {}
          ⟨.device ⟨"com.news", none, attributes, false, none⟩, "search",
            [⟨"topic", .undefined false, none⟩], none, none⟩)
        (.filter (.atom none "title" "in_array" (.array [.string "Lean"] none) none)),
      .invocation {}
        ⟨.device (.ofKind "com.mail"), "send",
          [⟨"subject", .computation "+" [.var "title" none, .string "!"] none none, none⟩],
          none, none⟩]

def program (attributes : List Param) : Program :=
  ⟨[], [], [.expression ⟨expression attributes, none⟩], none⟩

/-- The digest with the news of one device. -/
def daily : Input :=
  .program (program [⟨"id", .string "daily", none⟩])

/-- The digest with the news of any device. -/
def plain : Input :=
  .program (program [])

def session : Session Unit :=
  { state := () }

end Digest

end SkillLang.Checker
