import SkillLang.Proofs.Slots.Frame
import SkillLang.Slots.Fill

/-!
# Filling follows the report

The report on the slots of an expression and the filling of slots are two recursions.
Filling runs over the reported values in their order and changes each of them once, and
the frame of the expression stays; the report on the filled expression differs from the
first one in the values only.
-/

namespace SkillLang

/-! ## Filling -/

section Filling

variable {σ α β : Type} {f : Value → StateM σ Value}

/-- In every state the action ends as changing the values one after the other by `f` does, and
the new values and its result have a property. -/
def Rewrites (f : Value → StateM σ Value) (values : List Value) (m : StateM σ α)
    (P : List Value → α → Prop) : Prop :=
  ∀ s, ((values.mapM f).run s).2 = (m.run s).2 ∧ P ((values.mapM f).run s).1 (m.run s).1

theorem Rewrites.mono
    {values : List Value} {m : StateM σ α} {P Q : List Value → α → Prop}
    (h : Rewrites f values m P) (hPQ : ∀ news a, P news a → Q news a) :
    Rewrites f values m Q :=
  fun s => ⟨(h s).1, hPQ _ _ (h s).2⟩

theorem rewrites_pure
    {a : α} {P : List Value → α → Prop} (h : P [] a) :
    Rewrites f [] (pure a) P :=
  fun _ => ⟨rfl, h⟩

theorem rewrites_value
    (value : Value) :
    Rewrites f [value] (f value) fun news changed => news = [changed] := by
  intro s
  rw [List.mapM_cons, List.mapM_nil]
  exact ⟨rfl, rfl⟩

theorem Rewrites.bind
    {first second : List Value} {m : StateM σ α} {k : α → StateM σ β}
    {P : List Value → α → Prop} {Q : List Value → β → Prop}
    (hm : Rewrites f first m P)
    (hk : ∀ news a, P news a → Rewrites f second (k a) fun more b => Q (news ++ more) b) :
    Rewrites f (first ++ second) (m >>= k) Q := by
  intro s
  obtain ⟨hstate, hP⟩ := hm s
  have hstep : (m >>= k).run s = (k (m.run s).1).run ((first.mapM f).run s).2 := by
    rw [hstate]
    rfl
  rw [List.mapM_append, hstep]
  exact hk _ _ hP ((first.mapM f).run s).2

theorem Rewrites.map
    {values : List Value} {m : StateM σ α} {P : List Value → α → Prop}
    {Q : List Value → β → Prop}
    (hm : Rewrites f values m P) (g : α → β) (hg : ∀ news a, P news a → Q news (g a)) :
    Rewrites f values (m >>= fun a => pure (g a)) Q :=
  fun s => ⟨(hm s).1, hg _ _ (hm s).2⟩

/-- The parts of a list are changed one after the other. -/
theorem rewrites_mapM
    {values : α → List Value} {frame : α → β} {change : α → StateM σ α}
    (h : ∀ a, Rewrites f (values a) (change a) fun news b =>
      values b = news ∧ frame b = frame a)
    (as : List α) :
    Rewrites f (as.flatMap values) (as.mapM change) fun news bs =>
      bs.flatMap values = news ∧ bs.map frame = as.map frame := by
  induction as with
  | nil => exact rewrites_pure ⟨rfl, rfl⟩
  | cons a as ih =>
      rw [List.flatMap_cons, List.mapM_cons]
      refine (h a).bind ?_
      rintro news b ⟨rfl, hframe⟩
      refine ih.map (b :: ·) ?_
      rintro more bs ⟨rfl, hframes⟩
      exact ⟨rfl, by rw [List.map_cons, List.map_cons, hframe, hframes]⟩

theorem fillParams_rewrites
    (params : List Param) :
    Rewrites f (params.map Param.value) (fillParams f params) fun news filled =>
      filled.map Param.value = news ∧ filled.map Param.frame = params.map Param.frame := by
  have hparam (p : Param) :
      Rewrites f [p.value] (do return { p with value := ← f p.value }) fun news (q : Param) =>
        [q.value] = news ∧ q.frame = p.frame := by
    refine (rewrites_value p.value).map (fun value => { p with value }) ?_
    rintro _ value rfl
    exact ⟨rfl, rfl⟩
  simp only [List.map_eq_flatMap (f := Param.value)]
  exact rewrites_mapM hparam params

theorem mapM_rewrites
    (values : List Value) :
    Rewrites f values (values.mapM f) fun news filled =>
      filled = news ∧ (filled.map fun _ => Value.hole) = values.map fun _ => Value.hole := by
  have hvalue (value : Value) :
      Rewrites f [value] (f value) fun news changed =>
        [changed] = news ∧ Value.hole = Value.hole := by
    refine (rewrites_value value).mono ?_
    rintro _ changed rfl
    exact ⟨rfl, rfl⟩
  have hsame (values : List Value) : (values.flatMap fun value => [value]) = values :=
    List.map_eq_flatMap.symm.trans (List.map_id values)
  have hrewrites := rewrites_mapM hvalue values
  simpa only [hsame] using hrewrites

theorem Selector.fillSlots_rewrites
    (s : Selector) :
    Rewrites f s.slotValues (s.fillSlots f) fun news filled =>
      filled.slotValues = news ∧ filled.frame = s.frame := by
  cases s with
  | builtin => exact rewrites_pure ⟨rfl, rfl⟩
  | device d =>
      refine (fillParams_rewrites d.attributes).map
        (fun attributes => Selector.device { d with attributes }) ?_
      rintro news attributes ⟨rfl, hframe⟩
      simp only [Selector.slotValues, Selector.frame, hframe, and_self]

mutual

theorem Filter.fillSlots_rewrites :
    (test : Filter) →
      Rewrites f test.slotValues (test.fillSlots f) fun news filled =>
        filled.slotValues = news ∧ filled.frame = test.frame
  | .conj range operands => by
      refine (Filter.fillSlotsOf_rewrites operands).map (Filter.conj range) ?_
      rintro news filled ⟨rfl, hframe⟩
      exact ⟨rfl, congrArg (Filter.conj range) hframe⟩
  | .disj range operands => by
      refine (Filter.fillSlotsOf_rewrites operands).map (Filter.disj range) ?_
      rintro news filled ⟨rfl, hframe⟩
      exact ⟨rfl, congrArg (Filter.disj range) hframe⟩
  | .neg range operand => by
      refine (Filter.fillSlots_rewrites operand).map (Filter.neg range) ?_
      rintro news filled ⟨rfl, hframe⟩
      exact ⟨rfl, congrArg (Filter.neg range) hframe⟩
  | .atom range name op value overload => by
      refine (rewrites_value value).map (Filter.atom range name op · overload) ?_
      rintro _ value rfl
      exact ⟨rfl, rfl⟩
  | .compute range lhs op rhs overload => by
      change Rewrites f ([lhs] ++ [rhs]) _ _
      refine (rewrites_value lhs).bind ?_
      rintro _ lhs rfl
      refine (rewrites_value rhs).map (Filter.compute range lhs op · overload) ?_
      rintro _ rhs rfl
      exact ⟨rfl, rfl⟩
  | .external call test => by
      simp only [Filter.slotValues, List.append_assoc]
      refine call.selector.fillSlots_rewrites.bind ?_
      rintro _ selector ⟨rfl, hselector⟩
      refine (fillParams_rewrites call.params).bind ?_
      rintro _ params ⟨rfl, hparams⟩
      refine (Filter.fillSlots_rewrites test).map
        (Filter.external { call with selector, params }) ?_
      rintro _ test ⟨rfl, htest⟩
      simp only [Filter.slotValues, Filter.frame, hselector, hparams, htest, List.append_assoc,
        and_self]
  | .dontCare _ _ | .always | .never => rewrites_pure ⟨rfl, rfl⟩

theorem Filter.fillSlotsOf_rewrites :
    (tests : List Filter) →
      Rewrites f (Filter.slotValuesOf tests) (Filter.fillSlotsOf f tests) fun news filled =>
        Filter.slotValuesOf filled = news ∧ Filter.frames filled = Filter.frames tests
  | [] => rewrites_pure ⟨rfl, rfl⟩
  | test :: tests => by
      refine (Filter.fillSlots_rewrites test).bind ?_
      rintro _ test ⟨rfl, htest⟩
      refine (Filter.fillSlotsOf_rewrites tests).map (test :: ·) ?_
      rintro _ tests ⟨rfl, htests⟩
      simp only [Filter.slotValuesOf, Filter.frames, htest, htests, and_self]

end

theorem Selected.fillSlots_rewrites
    (s : Selected) :
    Rewrites f s.slotValues (do return { s with column := ← s.column.fillSlots f })
      fun news (filled : Selected) => filled.slotValues = news ∧ filled.frame = s.frame := by
  obtain ⟨column, label, types⟩ := s
  cases column with
  | path name => exact rewrites_pure ⟨rfl, rfl⟩
  | value v =>
      have hcolumn :
          Rewrites f [v] (Column.fillSlots f (.value v)) fun news column =>
            ∃ w, news = [w] ∧ column = .value w := by
        refine (rewrites_value v).map Column.value ?_
        rintro _ w rfl
        exact ⟨w, rfl, rfl⟩
      refine hcolumn.map (fun column => Selected.mk column label types) ?_
      rintro _ _ ⟨w, rfl, rfl⟩
      exact ⟨rfl, rfl⟩

theorem Clause.fillSlots_rewrites
    (c : Clause) :
    Rewrites f c.slotValues (c.fillSlots f) fun news filled =>
      filled.slotValues = news ∧ filled.frame = c.frame := by
  cases c with
  | monitor _ | named _ | aggregation _ _ _ => exact rewrites_pure ⟨rfl, rfl⟩
  | filter test =>
      refine test.fillSlots_rewrites.map Clause.filter ?_
      rintro _ filled ⟨rfl, hframe⟩
      exact ⟨rfl, congrArg Clause.filter hframe⟩
  | question test =>
      refine test.fillSlots_rewrites.map Clause.question ?_
      rintro _ filled ⟨rfl, hframe⟩
      exact ⟨rfl, congrArg Clause.question hframe⟩
  | projection args computations aliases =>
      refine (mapM_rewrites computations).map (Clause.projection args · aliases) ?_
      rintro _ filled ⟨rfl, hframe⟩
      exact ⟨rfl, congrArg (Clause.projection args · aliases) hframe⟩
  | selection elements =>
      have helements := rewrites_mapM (f := f) Selected.fillSlots_rewrites elements
      rw [← Clause.scalars_selection] at helements
      refine helements.map Clause.selection ?_
      rintro _ filled ⟨rfl, hframe⟩
      exact ⟨Clause.scalars_selection filled, congrArg Clause.selection hframe⟩
  | sort value direction =>
      refine (rewrites_value value).map (Clause.sort · direction) ?_
      rintro _ value rfl
      exact ⟨rfl, rfl⟩
  | index indices =>
      refine (mapM_rewrites indices).map Clause.index ?_
      rintro _ filled ⟨rfl, hframe⟩
      exact ⟨rfl, congrArg Clause.index hframe⟩
  | slice base limit =>
      change Rewrites f ([base] ++ [limit]) _ _
      refine (rewrites_value base).bind ?_
      rintro _ base rfl
      refine (rewrites_value limit).map (Clause.slice base) ?_
      rintro _ limit rfl
      exact ⟨rfl, rfl⟩

mutual

theorem Expression.fillSlots_rewrites :
    (e : Expression) →
      Rewrites f e.slotValues (e.fillSlots f) fun news filled =>
        filled.slotValues = news ∧ filled.frame = e.frame
  | .call info name params => by
      refine (fillParams_rewrites params).map (Expression.call info name) ?_
      rintro _ params ⟨rfl, hframe⟩
      exact ⟨rfl, congrArg (Expression.call info name) hframe⟩
  | .invocation info i => by
      refine i.selector.fillSlots_rewrites.bind ?_
      rintro _ selector ⟨rfl, hselector⟩
      refine (fillParams_rewrites i.params).map
        (fun params => Expression.invocation info { i with selector, params }) ?_
      rintro _ params ⟨rfl, hparams⟩
      simp only [Expression.slotValues, Expression.frame, hselector, hparams, and_self]
  | .clause info inner c => by
      refine (Expression.fillSlots_rewrites inner).bind ?_
      rintro _ inner ⟨rfl, hinner⟩
      refine c.fillSlots_rewrites.map (Expression.clause info inner) ?_
      rintro _ c ⟨rfl, hc⟩
      simp only [Expression.slotValues, Expression.frame, hinner, hc, and_self]
  | .chain info elements => by
      refine (Expression.fillSlotsOf_rewrites elements).map (Expression.chain info) ?_
      rintro _ elements ⟨rfl, hframe⟩
      exact ⟨rfl, congrArg (Expression.chain info) hframe⟩
  | .join info lhs rhs => by
      refine (Expression.fillSlots_rewrites lhs).bind ?_
      rintro _ lhs ⟨rfl, hlhs⟩
      refine (Expression.fillSlots_rewrites rhs).map (Expression.join info lhs) ?_
      rintro _ rhs ⟨rfl, hrhs⟩
      simp only [Expression.slotValues, Expression.frame, hlhs, hrhs, and_self]

theorem Expression.fillSlotsOf_rewrites :
    (es : List Expression) →
      Rewrites f (Expression.slotValuesOf es) (Expression.fillSlotsOf f es) fun news filled =>
        Expression.slotValuesOf filled = news ∧
          Expression.frames filled = Expression.frames es
  | [] => rewrites_pure ⟨rfl, rfl⟩
  | e :: es => by
      refine (Expression.fillSlots_rewrites e).bind ?_
      rintro _ e ⟨rfl, he⟩
      refine (Expression.fillSlotsOf_rewrites es).map (e :: ·) ?_
      rintro _ es ⟨rfl, hes⟩
      simp only [Expression.slotValuesOf, Expression.frames, he, hes, and_self]

end

end Filling

/-! ## Filling and the report -/

/-- In every state, filling the slots of an expression ends as changing the reported values one
after the other by `f` does.  The report on the filled expression has the new values and is the
old one otherwise: as many slots, of the same kinds, names and arguments, for the same calls and
in the same scopes.  Nothing else in the expression has changed, and no other expression has its
frame and these values. -/
theorem Expression.fillSlots_follows_report
    {σ : Type} (e : Expression) (scope : ScopeMap) (f : Value → StateM σ Value) (s : σ) :
    let values := (e.slotReport scope).slots.map Slot.value
    let filled := ((e.fillSlots f).run s).1
    let report := filled.slotReport scope
    (values.mapM f).run s = (report.slots.map Slot.value, ((e.fillSlots f).run s).2) ∧
      report.frame = (e.slotReport scope).frame ∧
      filled.frame = e.frame ∧
      ∀ other : Expression, other.frame = e.frame →
        (other.slotReport scope).slots.map Slot.value = report.slots.map Slot.value →
        other = filled := by
  intro values filled report
  have hvalues : values = e.slotValues := e.map_value_slots scope
  have hreport : report.slots.map Slot.value = filled.slotValues := filled.map_value_slots scope
  obtain ⟨hstate, hnews, hframe⟩ := e.fillSlots_rewrites (f := f) s
  refine ⟨?_, ?_, hframe, ?_⟩
  · rw [hvalues, hreport]
    exact Prod.ext hnews.symm hstate
  · calc
      report.frame = filled.frame.slotReport scope := (filled.slotReport_frame scope).symm
      _ = e.frame.slotReport scope := by rw [hframe]
      _ = (e.slotReport scope).frame := e.slotReport_frame scope
  · intro other hother hsame
    rw [hreport, other.map_value_slots scope] at hsame
    exact Expression.eq_of_frame_eq other filled (hother.trans hframe.symm) hsame

end SkillLang
