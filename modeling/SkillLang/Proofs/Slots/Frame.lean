import Mathlib.Data.List.Basic
import SkillLang.Slots.Basic

/-!
# Frames

An expression consists of the values of its slots and of its frame, which is all the rest:
frame and values determine it.  The report on the slots of an expression has these values
in their order, and all else in the report depends on the frame only.
-/

namespace SkillLang

/-! ## Frames -/

/-- What stands for a value that is left out. -/
def Value.hole : Value :=
  .undefined false

def Param.frame (p : Param) : Param :=
  { p with value := .hole }

def Selector.frame : Selector → Selector
  | .builtin => .builtin
  | .device d => .device { d with attributes := d.attributes.map Param.frame }

mutual
/-- The filter without the values of its slots. -/
def Filter.frame : Filter → Filter
  | .conj range operands => .conj range (Filter.frames operands)
  | .disj range operands => .disj range (Filter.frames operands)
  | .neg range operand => .neg range operand.frame
  | .atom range name op _ overload => .atom range name op .hole overload
  | .compute range _ op _ overload => .compute range .hole op .hole overload
  | .external call filter =>
    .external
      { call with selector := call.selector.frame, params := call.params.map Param.frame }
      filter.frame
  | .dontCare range name => .dontCare range name
  | .always => .always
  | .never => .never

def Filter.frames : List Filter → List Filter
  | [] => []
  | operand :: operands => operand.frame :: Filter.frames operands
end

def Selected.frame (s : Selected) : Selected :=
  match s.column with
  | .path _ => s
  | .value _ => { s with column := .value .hole }

def Clause.frame : Clause → Clause
  | .filter test => .filter test.frame
  | .question test => .question test.frame
  | .projection args computations aliases =>
    .projection args (computations.map fun _ => .hole) aliases
  | .selection elements => .selection (elements.map Selected.frame)
  | .sort _ direction => .sort .hole direction
  | .index indices => .index (indices.map fun _ => .hole)
  | .slice _ _ => .slice .hole .hole
  | .monitor args => .monitor args
  | .named name => .named name
  | .aggregation field op overload => .aggregation field op overload

mutual
/-- The expression without the values of its slots. -/
def Expression.frame : Expression → Expression
  | .call info name params => .call info name (params.map Param.frame)
  | .invocation info i =>
    .invocation info
      { i with selector := i.selector.frame, params := i.params.map Param.frame }
  | .clause info inner c => .clause info inner.frame c.frame
  | .chain info elements => .chain info (Expression.frames elements)
  | .join info lhs rhs => .join info lhs.frame rhs.frame

def Expression.frames : List Expression → List Expression
  | [] => []
  | element :: elements => element.frame :: Expression.frames elements
end

/-! ## Values of slots -/

def Selector.slotValues : Selector → List Value
  | .builtin => []
  | .device d => d.attributes.map Param.value

mutual
def Filter.slotValues : Filter → List Value
  | .conj _ operands => Filter.slotValuesOf operands
  | .disj _ operands => Filter.slotValuesOf operands
  | .neg _ operand => operand.slotValues
  | .atom _ _ _ value _ => [value]
  | .compute _ lhs _ rhs _ => [lhs, rhs]
  | .external call filter =>
    call.selector.slotValues ++ call.params.map Param.value ++ filter.slotValues
  | .dontCare _ _ => []
  | .always => []
  | .never => []

def Filter.slotValuesOf : List Filter → List Value
  | [] => []
  | operand :: operands => operand.slotValues ++ Filter.slotValuesOf operands
end

def Selected.slotValues (s : Selected) : List Value :=
  match s.column with
  | .path _ => []
  | .value v => [v]

theorem Clause.scalars_selection
    (elements : List Selected) :
    (Clause.selection elements).scalars = elements.flatMap Selected.slotValues := by
  induction elements with
  | nil => rfl
  | cons element elements ih =>
      obtain ⟨column, label, types⟩ := element
      rw [List.flatMap_cons, ← ih]
      cases column <;> rfl

def Clause.slotValues : Clause → List Value
  | .filter f | .question f => f.slotValues
  | c => c.scalars

mutual
/-- The values of the slots of an expression, which do not depend on what is in scope. -/
def Expression.slotValues : Expression → List Value
  | .call _ _ params => params.map Param.value
  | .invocation _ i => i.selector.slotValues ++ i.params.map Param.value
  | .clause _ inner c => inner.slotValues ++ c.slotValues
  | .chain _ elements => Expression.slotValuesOf elements
  | .join _ lhs rhs => lhs.slotValues ++ rhs.slotValues

def Expression.slotValuesOf : List Expression → List Value
  | [] => []
  | element :: elements => element.slotValues ++ Expression.slotValuesOf elements
end

/-! ## The report and the frame -/

/-- The slot without its value. -/
def Slot.frame (s : Slot) : Slot :=
  { s with value := .hole }

/-- The report without the values of the slots. -/
def SlotReport.frame (r : SlotReport) : SlotReport :=
  { r with slots := r.slots.map Slot.frame }

theorem Owner.ofInvocation_frame
    (i : Invocation) (params : List Param) :
    Owner.ofInvocation { i with selector := i.selector.frame, params } =
      Owner.ofInvocation i := by
  obtain ⟨selector, channel, _, range, schema⟩ := i
  cases selector <;> rfl

theorem Owner.ofExternal_frame
    (i : Invocation) (params : List Param) :
    Owner.ofExternal { i with selector := i.selector.frame, params } =
      Owner.ofExternal i := by
  obtain ⟨selector, channel, _, range, schema⟩ := i
  cases selector <;> rfl

theorem paramSlots_frame
    (owner : Owner) (scope : ScopeMap) (params : List Param) :
    paramSlots owner scope (params.map Param.frame) =
      (paramSlots owner scope params).map Slot.frame := by
  simp only [paramSlots, List.map_map]
  rfl

theorem Selector.slots_frame
    (owner : Owner) (scope : ScopeMap) (s : Selector) :
    s.frame.slots owner scope = (s.slots owner scope).map Slot.frame := by
  cases s with
  | builtin => rfl
  | device d =>
      simp only [Selector.frame, Selector.slots, List.map_map]
      rfl

mutual

theorem Filter.slots_frame
    (scope : ScopeMap) (schema : Option Signature) (owner : Option Owner) :
    (f : Filter) →
      f.frame.slots scope schema owner = (f.slots scope schema owner).map Slot.frame
  | .conj _ operands => Filter.slotsOf_frames scope schema owner operands
  | .disj _ operands => Filter.slotsOf_frames scope schema owner operands
  | .neg _ operand => Filter.slots_frame scope schema owner operand
  | .atom _ _ _ _ _ | .compute _ _ _ _ _ | .dontCare _ _ | .always | .never => rfl
  | .external call filter => by
      simp only [Filter.frame, Filter.slots, Owner.ofExternal_frame, Selector.slots_frame,
        paramSlots_frame, List.map_append]
      rw [Filter.slots_frame scope call.schema _ filter]

theorem Filter.slotsOf_frames
    (scope : ScopeMap) (schema : Option Signature) (owner : Option Owner) :
    (fs : List Filter) →
      Filter.slotsOf scope schema owner (Filter.frames fs) =
        (Filter.slotsOf scope schema owner fs).map Slot.frame
  | [] => rfl
  | f :: fs => by
      simp only [Filter.frames, Filter.slotsOf, List.map_append]
      rw [Filter.slots_frame scope schema owner f, Filter.slotsOf_frames scope schema owner fs]

end

theorem Clause.scalars_frame
    (c : Clause) :
    c.frame.scalars = c.scalars.map fun _ => .hole := by
  cases c with
  | selection elements =>
      simp only [Clause.frame, Clause.scalars, List.filterMap_map, List.map_filterMap]
      refine List.filterMap_congr ?_
      rintro ⟨column, label, types⟩ _
      cases column <;> rfl
  | filter _ | monitor _ | projection _ _ _ | question _ | named _ | aggregation _ _ _
  | sort _ _ | index _ | slice _ _ => rfl

theorem Clause.slots_frame
    (scope : ScopeMap) (schema : Option Signature) (owner : Option Owner) (c : Clause) :
    c.frame.slots scope schema owner = (c.slots scope schema owner).map Slot.frame := by
  have hscalars (c : Clause) :
      c.frame.scalars.map (Slot.scalar owner scope) =
        (c.scalars.map (Slot.scalar owner scope)).map Slot.frame := by
    rw [Clause.scalars_frame, List.map_map, List.map_map]
    rfl
  cases c with
  | filter test => exact Filter.slots_frame scope schema owner test
  | question test => exact Filter.slots_frame scope schema owner test
  | monitor _ | projection _ _ _ | selection _ | named _ | aggregation _ _ _ | sort _ _
  | index _ | slice _ _ => exact hscalars _

theorem Expression.info_frame
    (e : Expression) :
    e.frame.info = e.info := by
  cases e <;> rfl

mutual

theorem Expression.slotReport_frame :
    (e : Expression) → (scope : ScopeMap) →
      e.frame.slotReport scope = (e.slotReport scope).frame
  | .call _ _ params, scope => by
      simp only [Expression.frame, Expression.slotReport, SlotReport.frame, paramSlots_frame]
  | .invocation _ i, scope => by
      simp only [Expression.frame, Expression.slotReport, SlotReport.frame,
        Owner.ofInvocation_frame, Selector.slots_frame, paramSlots_frame, List.map_append]
  | .clause _ inner c, scope => by
      simp only [Expression.frame, Expression.slotReport, Expression.slotReport_frame inner scope,
        SlotReport.frame, Expression.schema, Expression.info_frame, Clause.slots_frame,
        List.map_append]
  | .chain _ elements, scope => Expression.slotReportOf_frames elements ⟨[], none, scope⟩
  | .join _ lhs rhs, scope => by
      simp only [Expression.frame, Expression.slotReport, Expression.slotReport_frame lhs scope,
        Expression.slotReport_frame rhs, SlotReport.frame, List.map_append]

theorem Expression.slotReportOf_frames :
    (es : List Expression) → (before : SlotReport) →
      Expression.slotReportOf (Expression.frames es) before.frame =
        (Expression.slotReportOf es before).frame
  | [], _ => rfl
  | e :: es, before => by
      simp only [Expression.frames, Expression.slotReportOf]
      rw [← Expression.slotReportOf_frames es]
      simp only [SlotReport.frame, Expression.slotReport_frame e, List.map_append]

end

/-! ## The report and the values -/

theorem map_value_paramSlots
    (owner : Owner) (scope : ScopeMap) (params : List Param) :
    (paramSlots owner scope params).map Slot.value = params.map Param.value := by
  simp only [paramSlots, List.map_map]
  rfl

theorem Selector.map_value_slots
    (owner : Owner) (scope : ScopeMap) (s : Selector) :
    (s.slots owner scope).map Slot.value = s.slotValues := by
  cases s with
  | builtin => rfl
  | device d =>
      simp only [Selector.slots, Selector.slotValues, List.map_map]
      rfl

mutual

theorem Filter.map_value_slots
    (scope : ScopeMap) (schema : Option Signature) (owner : Option Owner) :
    (f : Filter) → (f.slots scope schema owner).map Slot.value = f.slotValues
  | .conj _ operands => Filter.map_value_slotsOf scope schema owner operands
  | .disj _ operands => Filter.map_value_slotsOf scope schema owner operands
  | .neg _ operand => Filter.map_value_slots scope schema owner operand
  | .atom _ _ _ _ _ | .compute _ _ _ _ _ | .dontCare _ _ | .always | .never => rfl
  | .external call filter => by
      simp only [Filter.slots, Filter.slotValues, List.map_append, Selector.map_value_slots,
        map_value_paramSlots]
      rw [Filter.map_value_slots scope call.schema _ filter]

theorem Filter.map_value_slotsOf
    (scope : ScopeMap) (schema : Option Signature) (owner : Option Owner) :
    (fs : List Filter) →
      (Filter.slotsOf scope schema owner fs).map Slot.value = Filter.slotValuesOf fs
  | [] => rfl
  | f :: fs => by
      simp only [Filter.slotsOf, Filter.slotValuesOf, List.map_append]
      rw [Filter.map_value_slots scope schema owner f,
        Filter.map_value_slotsOf scope schema owner fs]

end

theorem Clause.map_value_slots
    (scope : ScopeMap) (schema : Option Signature) (owner : Option Owner) (c : Clause) :
    (c.slots scope schema owner).map Slot.value = c.slotValues := by
  have hscalars (values : List Value) :
      (values.map (Slot.scalar owner scope)).map Slot.value = values := by
    rw [List.map_map]
    exact List.map_id values
  cases c with
  | filter test => exact Filter.map_value_slots scope schema owner test
  | question test => exact Filter.map_value_slots scope schema owner test
  | monitor _ | projection _ _ _ | selection _ | named _ | aggregation _ _ _ | sort _ _
  | index _ | slice _ _ => exact hscalars _

mutual

theorem Expression.map_value_slots :
    (e : Expression) → (scope : ScopeMap) →
      (e.slotReport scope).slots.map Slot.value = e.slotValues
  | .call _ _ params, scope => map_value_paramSlots _ scope params
  | .invocation _ i, scope => by
      simp only [Expression.slotReport, Expression.slotValues, List.map_append,
        Selector.map_value_slots, map_value_paramSlots]
  | .clause _ inner c, scope => by
      simp only [Expression.slotReport, Expression.slotValues, List.map_append,
        Expression.map_value_slots inner, Clause.map_value_slots]
  | .chain _ elements, scope => Expression.map_value_slotsOf elements ⟨[], none, scope⟩
  | .join _ lhs rhs, scope => by
      simp only [Expression.slotReport, Expression.slotValues, List.map_append,
        Expression.map_value_slots lhs, Expression.map_value_slots rhs]

theorem Expression.map_value_slotsOf :
    (es : List Expression) → (before : SlotReport) →
      (Expression.slotReportOf es before).slots.map Slot.value =
        before.slots.map Slot.value ++ Expression.slotValuesOf es
  | [], before => (List.append_nil _).symm
  | e :: es, before => by
      simp only [Expression.slotReportOf, Expression.slotValuesOf]
      rw [Expression.map_value_slotsOf es, List.map_append, Expression.map_value_slots e,
        List.append_assoc]

end

/-! ## Frames and values determine an expression -/

theorem eq_of_map_frame
    {α : Type} {frame : α → α} {values : α → List Value}
    (hlength : ∀ a b, frame a = frame b → (values a).length = (values b).length)
    (heq : ∀ a b, frame a = frame b → values a = values b → a = b)
    {as bs : List α} (hframe : as.map frame = bs.map frame)
    (hvalues : as.flatMap values = bs.flatMap values) :
    as = bs := by
  induction as generalizing bs with
  | nil =>
      cases bs with
      | nil => rfl
      | cons b bs => cases hframe
  | cons a as ih =>
      cases bs with
      | nil => cases hframe
      | cons b bs =>
          rw [List.map_cons, List.map_cons, List.cons.injEq] at hframe
          rw [List.flatMap_cons, List.flatMap_cons] at hvalues
          obtain ⟨hhead, htail⟩ := List.append_inj hvalues (hlength a b hframe.1)
          rw [heq a b hframe.1 hhead, ih hframe.2 htail]

theorem eq_of_map_paramFrame
    {ps qs : List Param} (hframe : ps.map Param.frame = qs.map Param.frame)
    (hvalues : ps.map Param.value = qs.map Param.value) :
    ps = qs := by
  simp only [List.map_eq_flatMap (f := Param.value)] at hvalues
  refine eq_of_map_frame (fun _ _ _ => rfl) ?_ hframe hvalues
  rintro ⟨name, value, range⟩ ⟨name', value', range'⟩ hframe hvalue
  cases hvalue
  cases hframe
  rfl

theorem Selector.eq_of_frame_eq
    {s t : Selector} (hframe : s.frame = t.frame) (hvalues : s.slotValues = t.slotValues) :
    s = t := by
  cases s with
  | builtin =>
      cases t with
      | builtin => rfl
      | device _ => cases hframe
  | device d =>
      cases t with
      | builtin => cases hframe
      | device d' =>
          obtain ⟨kind, id, attributes, all, range⟩ := d
          obtain ⟨kind', id', attributes', all', range'⟩ := d'
          simp only [Selector.frame, Selector.device.injEq, Device.mk.injEq] at hframe
          obtain ⟨rfl, rfl, hattributes, rfl, rfl⟩ := hframe
          rw [eq_of_map_paramFrame hattributes hvalues]

/-! The number of slots is part of the frame. -/

theorem Selector.length_slotValues
    {s t : Selector} (hframe : s.frame = t.frame) :
    s.slotValues.length = t.slotValues.length := by
  have hlength (s : Selector) : s.frame.slotValues.length = s.slotValues.length := by
    cases s with
    | builtin => rfl
    | device d => simp only [Selector.frame, Selector.slotValues, List.length_map]
  rw [← hlength s, hframe, hlength]

theorem Filter.length_slotValues
    {f g : Filter} (hframe : f.frame = g.frame) :
    f.slotValues.length = g.slotValues.length := by
  have hlength (f : Filter) : f.frame.slotValues.length = f.slotValues.length := by
    rw [← Filter.map_value_slots [] none none f, ← Filter.map_value_slots [] none none f.frame,
      Filter.slots_frame, List.length_map, List.length_map, List.length_map]
  rw [← hlength f, hframe, hlength]

theorem Expression.length_slotValues
    {e e' : Expression} (hframe : e.frame = e'.frame) :
    e.slotValues.length = e'.slotValues.length := by
  have hlength (e : Expression) : e.frame.slotValues.length = e.slotValues.length := by
    rw [← Expression.map_value_slots e [], ← Expression.map_value_slots e.frame [],
      Expression.slotReport_frame]
    simp only [SlotReport.frame, List.length_map]
  rw [← hlength e, hframe, hlength]

mutual

theorem Filter.eq_of_frame_eq :
    (f g : Filter) → f.frame = g.frame → f.slotValues = g.slotValues → f = g
  | .conj _ operands, g, hframe, hvalues => by
      cases g <;> simp only [Filter.frame, Filter.conj.injEq, reduceCtorEq] at hframe
      rw [hframe.1, Filter.eq_of_frames_eq operands _ hframe.2 hvalues]
  | .disj _ operands, g, hframe, hvalues => by
      cases g <;> simp only [Filter.frame, Filter.disj.injEq, reduceCtorEq] at hframe
      rw [hframe.1, Filter.eq_of_frames_eq operands _ hframe.2 hvalues]
  | .neg _ operand, g, hframe, hvalues => by
      cases g <;> simp only [Filter.frame, Filter.neg.injEq, reduceCtorEq] at hframe
      rw [hframe.1, Filter.eq_of_frame_eq operand _ hframe.2 hvalues]
  | .atom _ _ _ _ _, g, hframe, hvalues => by
      cases g <;> cases hframe
      cases hvalues
      rfl
  | .compute _ _ _ _ _, g, hframe, hvalues => by
      cases g <;> cases hframe
      cases hvalues
      rfl
  | .external call test, g, hframe, hvalues => by
      cases g with
      | external call' test' =>
          obtain ⟨selector, channel, params, range, schema⟩ := call
          obtain ⟨selector', channel', params', range', schema'⟩ := call'
          simp only [Filter.frame, Filter.external.injEq, Invocation.mk.injEq] at hframe
          obtain ⟨⟨hselector, rfl, hparams, rfl, rfl⟩, htest⟩ := hframe
          obtain ⟨hcall, htests⟩ :=
            List.append_inj' hvalues (Filter.length_slotValues htest)
          obtain ⟨hattributes, hpassed⟩ :=
            List.append_inj hcall (Selector.length_slotValues hselector)
          rw [Selector.eq_of_frame_eq hselector hattributes,
            eq_of_map_paramFrame hparams hpassed, Filter.eq_of_frame_eq test test' htest htests]
      | conj _ _ | disj _ _ | neg _ _ | atom _ _ _ _ _ | compute _ _ _ _ _ | dontCare _ _
      | always | never => cases hframe
  | .dontCare _ _, g, hframe, _ => by
      cases g <;> cases hframe
      rfl
  | .always, g, hframe, _ => by
      cases g <;> cases hframe
      rfl
  | .never, g, hframe, _ => by
      cases g <;> cases hframe
      rfl

theorem Filter.eq_of_frames_eq :
    (fs gs : List Filter) → Filter.frames fs = Filter.frames gs →
      Filter.slotValuesOf fs = Filter.slotValuesOf gs → fs = gs
  | [], gs, hframe, _ => by
      cases gs with
      | nil => rfl
      | cons g gs => cases hframe
  | f :: fs, gs, hframe, hvalues => by
      cases gs with
      | nil => cases hframe
      | cons g gs =>
          simp only [Filter.frames, List.cons.injEq] at hframe
          obtain ⟨hhead, htail⟩ :=
            List.append_inj hvalues (Filter.length_slotValues hframe.1)
          rw [Filter.eq_of_frame_eq f g hframe.1 hhead, Filter.eq_of_frames_eq fs gs hframe.2 htail]

end

theorem Selected.length_slotValues
    {s t : Selected} (hframe : s.frame = t.frame) :
    s.slotValues.length = t.slotValues.length := by
  obtain ⟨column, label, types⟩ := s
  obtain ⟨column', label', types'⟩ := t
  cases column <;> cases column' <;> first | rfl | cases hframe

theorem Selected.eq_of_frame_eq
    {s t : Selected} (hframe : s.frame = t.frame) (hvalues : s.slotValues = t.slotValues) :
    s = t := by
  obtain ⟨column, label, types⟩ := s
  obtain ⟨column', label', types'⟩ := t
  cases column <;> cases column' <;> cases hframe <;> cases hvalues <;> rfl

theorem Clause.eq_of_frame_eq
    {c d : Clause} (hframe : c.frame = d.frame) (hvalues : c.slotValues = d.slotValues) :
    c = d := by
  cases c with
  | filter test =>
      cases d <;> simp only [Clause.frame, Clause.filter.injEq, reduceCtorEq] at hframe
      rw [Filter.eq_of_frame_eq test _ hframe hvalues]
  | question test =>
      cases d <;> simp only [Clause.frame, Clause.question.injEq, reduceCtorEq] at hframe
      rw [Filter.eq_of_frame_eq test _ hframe hvalues]
  | selection elements =>
      cases d <;> simp only [Clause.frame, Clause.selection.injEq, reduceCtorEq] at hframe
      simp only [Clause.slotValues, Clause.scalars_selection] at hvalues
      rw [eq_of_map_frame (fun _ _ => Selected.length_slotValues)
        (fun _ _ => Selected.eq_of_frame_eq) hframe hvalues]
  | projection _ _ _ =>
      cases d <;> simp only [Clause.frame, Clause.projection.injEq, reduceCtorEq] at hframe
      obtain ⟨rfl, -, rfl⟩ := hframe
      exact congrArg (Clause.projection _ · _) hvalues
  | index _ =>
      cases d <;> simp only [Clause.frame, Clause.index.injEq, reduceCtorEq] at hframe
      exact congrArg Clause.index hvalues
  | sort _ _ | slice _ _ =>
      cases d <;> cases hframe
      cases hvalues
      rfl
  | monitor _ | named _ | aggregation _ _ _ =>
      cases d <;> cases hframe
      rfl

mutual

theorem Expression.eq_of_frame_eq :
    (e e' : Expression) → e.frame = e'.frame → e.slotValues = e'.slotValues → e = e'
  | .call _ _ params, e', hframe, hvalues => by
      cases e' <;>
        simp only [Expression.frame, Expression.call.injEq, reduceCtorEq] at hframe
      obtain ⟨rfl, rfl, hparams⟩ := hframe
      rw [eq_of_map_paramFrame hparams hvalues]
  | .invocation _ i, e', hframe, hvalues => by
      cases e' with
      | invocation _ i' =>
        obtain ⟨selector, channel, params, range, schema⟩ := i
        obtain ⟨selector', channel', params', range', schema'⟩ := i'
        simp only [Expression.frame, Expression.invocation.injEq, Invocation.mk.injEq] at hframe
        obtain ⟨rfl, hselector, rfl, hparams, rfl, rfl⟩ := hframe
        obtain ⟨hvalues, hpassed⟩ :=
          List.append_inj hvalues (Selector.length_slotValues hselector)
        rw [Selector.eq_of_frame_eq hselector hvalues, eq_of_map_paramFrame hparams hpassed]
      | call _ _ _ | clause _ _ _ | chain _ _ | join _ _ _ => cases hframe
  | .clause _ inner c, e', hframe, hvalues => by
      cases e' <;>
        simp only [Expression.frame, Expression.clause.injEq, reduceCtorEq] at hframe
      obtain ⟨rfl, hinner, hc⟩ := hframe
      obtain ⟨hvalues, hclause⟩ :=
        List.append_inj hvalues (Expression.length_slotValues hinner)
      rw [Expression.eq_of_frame_eq inner _ hinner hvalues, Clause.eq_of_frame_eq hc hclause]
  | .chain _ elements, e', hframe, hvalues => by
      cases e' <;>
        simp only [Expression.frame, Expression.chain.injEq, reduceCtorEq] at hframe
      rw [hframe.1, Expression.eq_of_frames_eq elements _ hframe.2 hvalues]
  | .join _ lhs rhs, e', hframe, hvalues => by
      cases e' <;>
        simp only [Expression.frame, Expression.join.injEq, reduceCtorEq] at hframe
      obtain ⟨rfl, hlhs, hrhs⟩ := hframe
      obtain ⟨hleft, hright⟩ :=
        List.append_inj hvalues (Expression.length_slotValues hlhs)
      rw [Expression.eq_of_frame_eq lhs _ hlhs hleft, Expression.eq_of_frame_eq rhs _ hrhs hright]

theorem Expression.eq_of_frames_eq :
    (es es' : List Expression) → Expression.frames es = Expression.frames es' →
      Expression.slotValuesOf es = Expression.slotValuesOf es' → es = es'
  | [], es', hframe, _ => by
      cases es' with
      | nil => rfl
      | cons e' es' => cases hframe
  | e :: es, es', hframe, hvalues => by
      cases es' with
      | nil => cases hframe
      | cons e' es' =>
          simp only [Expression.frames, List.cons.injEq] at hframe
          obtain ⟨hhead, htail⟩ :=
            List.append_inj hvalues (Expression.length_slotValues hframe.1)
          rw [Expression.eq_of_frame_eq e e' hframe.1 hhead,
            Expression.eq_of_frames_eq es es' hframe.2 htail]

end

end SkillLang
