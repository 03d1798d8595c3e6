import SkillLang.Proofs.Signature.Arguments
import SkillLang.Proofs.Typing.FunctionTypes
import SkillLang.Slots.Basic

/-!
# References and slots

A check and a report on slots both follow what is in scope along an expression.  For a check,
an element of a chain brings in what it returns; for a report, it brings in what the calls
inside of it return.  A reference that was checked is in the scope of its slot unless the two
differ about its name, and they do not differ if no clause changes what is handed on.
-/

namespace SkillLang

/-! ## Scopes of slots -/

/-- The slot is a parameter of a call, but not of one inside of a filter. -/
def Slot.isCallParam (s : Slot) : Bool :=
  match s.kind, s.owner with
  | .inputParam, some owner => owner.kind != .external
  | _, _ => false

/-- A variable in the slot is in scope there, with the type that it is annotated with. -/
def Slot.SeesReference (s : Slot) : Prop :=
  ∀ name type, s.value = .var name type →
    ∃ entry, Keyed.find? name s.scope = some entry ∧ type = some entry.type

/-- What is in scope are the arguments of a list, and the last one of a name counts. -/
def ScopeMap.Shows (scope : ScopeMap) (returned : Binders) : Prop :=
  ∀ name, (Keyed.find? name scope).map ScopeEntry.type = returned.type? name

/-- A parameter of a call with what is in scope for a check and what the calls before it
return. -/
structure Passing where
  value : Value
  binders : Binders
  returned : Binders

/-- The variable that is passed has the same type among both. -/
def Passing.Agrees (p : Passing) : Prop :=
  ∀ name type, p.value = .var name type → p.returned.type? name = p.binders.type? name

namespace Expression

mutual
/-- What the calls of an expression return. -/
def callOutputs : Expression → Binders
  | .call info _ _ => (info.schema.map Signature.outArgs).getD []
  | .invocation _ i => (i.schema.map Signature.outArgs).getD []
  | .clause _ inner _ => inner.callOutputs
  | .chain _ elements => callOutputsOf elements
  | .join _ lhs rhs => lhs.callOutputs ++ rhs.callOutputs

def callOutputsOf : List Expression → Binders
  | [] => []
  | element :: elements => element.callOutputs ++ callOutputsOf elements
end

mutual
/-- The parameters of the calls of an expression. -/
def passings (binders returned : Binders) : Expression → List Passing
  | .call _ _ params => params.map fun p => ⟨p.value, binders, returned⟩
  | .invocation _ i => i.params.map fun p => ⟨p.value, binders, returned⟩
  | .clause _ inner _ => inner.passings binders returned
  | .chain _ elements => passingsOf binders returned elements
  | .join _ lhs rhs =>
    lhs.passings binders returned ++
      rhs.passings (binders ++ lhs.outputs) (returned ++ lhs.callOutputs)

def passingsOf (binders returned : Binders) : List Expression → List Passing
  | [] => []
  | element :: elements =>
    element.passings binders returned ++
      passingsOf (binders ++ element.outputs) (returned ++ element.callOutputs) elements
end

end Expression

def Program.passings (p : Program) : List Passing :=
  p.statements.flatMap fun s => s.body.passings [] []

theorem Binders.type?_append
    (binders more : Binders) (name : String) :
    Binders.type? (binders ++ more) name = (more.type? name).or (binders.type? name) := by
  simp only [Binders.type?, List.reverse_append, List.find?_append, Option.map_or]

theorem ScopeMap.shows_nil :
    ScopeMap.Shows [] [] :=
  fun _ => rfl

theorem Owner.extend_shows
    {scope : ScopeMap} {returned : Binders} (h : ScopeMap.Shows scope returned) (o : Owner) :
    ScopeMap.Shows (o.extend scope) (returned ++ (o.schema.map Signature.outArgs).getD []) := by
  intro name
  unfold Owner.extend
  cases o.schema with
  | none =>
      rw [Option.map_none, Option.getD_none, List.append_nil]
      exact h name
  | some schema =>
      dsimp only
      rw [Keyed.find?_foldl_insert, Option.map_or, h name, Option.map_some, Option.getD_some,
        Binders.type?_append, Option.map_map]
      rfl

/-! ## Slots of calls -/

theorem paramSlots_isCallParam
    {owner : Owner} (h : (owner.kind != .external) = true) (scope : ScopeMap)
    (params : List Param) :
    (paramSlots owner scope params).filter Slot.isCallParam = paramSlots owner scope params := by
  rw [List.filter_eq_self]
  intro slot hslot
  obtain ⟨p, -, rfl⟩ := List.mem_map.mp hslot
  exact h

theorem Selector.slots_not_isCallParam
    (owner : Owner) (scope : ScopeMap) (s : Selector) :
    (s.slots owner scope).filter Slot.isCallParam = [] := by
  cases s with
  | builtin => rfl
  | device d =>
      rw [List.filter_eq_nil_iff]
      intro slot hslot
      obtain ⟨a, -, rfl⟩ := List.mem_map.mp hslot
      exact Bool.false_ne_true

theorem paramSlots_not_isCallParam
    (call : Invocation) (scope : ScopeMap) (params : List Param) :
    (paramSlots (.ofExternal call) scope params).filter Slot.isCallParam = [] := by
  rw [List.filter_eq_nil_iff]
  intro slot hslot
  obtain ⟨p, -, rfl⟩ := List.mem_map.mp hslot
  exact Bool.false_ne_true

mutual

theorem Filter.slots_not_isCallParam
    (scope : ScopeMap) (schema : Option Signature) (owner : Option Owner) :
    (f : Filter) → (f.slots scope schema owner).filter Slot.isCallParam = []
  | .conj _ operands => Filter.slotsOf_not_isCallParam scope schema owner operands
  | .disj _ operands => Filter.slotsOf_not_isCallParam scope schema owner operands
  | .neg _ operand => Filter.slots_not_isCallParam scope schema owner operand
  | .atom _ _ _ _ _ | .compute _ _ _ _ _ | .dontCare _ _ | .always | .never => rfl
  | .external call filter => by
      simp only [Filter.slots, List.filter_append, Selector.slots_not_isCallParam,
        paramSlots_not_isCallParam, Filter.slots_not_isCallParam scope call.schema _ filter,
        List.append_nil]

theorem Filter.slotsOf_not_isCallParam
    (scope : ScopeMap) (schema : Option Signature) (owner : Option Owner) :
    (fs : List Filter) → (Filter.slotsOf scope schema owner fs).filter Slot.isCallParam = []
  | [] => rfl
  | f :: fs => by
      rw [Filter.slotsOf, List.filter_append, Filter.slots_not_isCallParam scope schema owner f,
        Filter.slotsOf_not_isCallParam scope schema owner fs, List.append_nil]

end

theorem Clause.slots_not_isCallParam
    (scope : ScopeMap) (schema : Option Signature) (owner : Option Owner) (c : Clause) :
    (c.slots scope schema owner).filter Slot.isCallParam = [] := by
  have hscalars (values : List Value) :
      (values.map (Slot.scalar owner scope)).filter Slot.isCallParam = [] := by
    rw [List.filter_eq_nil_iff]
    intro slot hslot
    obtain ⟨value, -, rfl⟩ := List.mem_map.mp hslot
    exact Bool.false_ne_true
  cases c with
  | filter test | question test => exact Filter.slots_not_isCallParam scope schema owner test
  | monitor _ | projection _ _ _ | selection _ | named _ | aggregation _ _ _ | sort _ _
  | index _ | slice _ _ => exact hscalars _

/-- A slot of a parameter has in its scope what the calls before it return. -/
structure Slot.Follows (s : Slot) (p : Passing) : Prop where
  value_eq : s.value = p.value
  shows : ScopeMap.Shows s.scope p.returned

theorem paramSlots_follow
    {owner : Owner} (h : (owner.kind != .external) = true) {scope : ScopeMap} {returned : Binders}
    (hscope : ScopeMap.Shows scope returned) (binders : Binders) (params : List Param) :
    List.Forall₂ Slot.Follows ((paramSlots owner scope params).filter Slot.isCallParam)
      (params.map fun p => ⟨p.value, binders, returned⟩) := by
  rw [paramSlots_isCallParam h, paramSlots, List.forall₂_map_left_iff, List.forall₂_map_right_iff,
    List.forall₂_same]
  exact fun _ _ => ⟨rfl, hscope⟩

namespace Expression

mutual

theorem slotReport_shows
    {returned : Binders} :
    (e : Expression) → {scope : ScopeMap} → ScopeMap.Shows scope returned →
      ScopeMap.Shows (e.slotReport scope).scope (returned ++ e.callOutputs)
  | .call _ _ _, _, hscope | .invocation _ _, _, hscope => Owner.extend_shows hscope _
  | .clause _ inner _, _, hscope => slotReport_shows inner hscope
  | .chain _ elements, _, hscope => slotReportOf_shows elements hscope
  | .join _ lhs rhs, _, hscope => by
      rw [callOutputs, ← List.append_assoc]
      exact slotReport_shows rhs (slotReport_shows lhs hscope)

theorem slotReportOf_shows
    {returned : Binders} :
    (es : List Expression) → {before : SlotReport} → ScopeMap.Shows before.scope returned →
      ScopeMap.Shows (slotReportOf es before).scope (returned ++ callOutputsOf es)
  | [], _, hscope => by
      rw [callOutputsOf, List.append_nil]
      exact hscope
  | e :: es, _, hscope => by
      rw [callOutputsOf, ← List.append_assoc]
      exact slotReportOf_shows es (slotReport_shows e hscope)

end

mutual

theorem slotReport_follow
    {returned : Binders} (binders : Binders) :
    (e : Expression) → {scope : ScopeMap} → ScopeMap.Shows scope returned →
      List.Forall₂ Slot.Follows ((e.slotReport scope).slots.filter Slot.isCallParam)
        (e.passings binders returned)
  | .call _ _ params, _, hscope => paramSlots_follow rfl hscope binders params
  | .invocation _ i, _, hscope => by
      simp only [slotReport, List.filter_append, Selector.slots_not_isCallParam,
        List.nil_append]
      exact paramSlots_follow rfl hscope binders i.params
  | .clause _ inner c, _, hscope => by
      simp only [slotReport, List.filter_append, Clause.slots_not_isCallParam,
        List.append_nil]
      exact slotReport_follow binders inner hscope
  | .chain _ elements, scope, hscope =>
      slotReportOf_follow binders elements ⟨[], none, scope⟩ hscope [] .nil
  | .join _ lhs rhs, _, hscope => by
      simp only [slotReport, List.filter_append]
      exact List.rel_append (slotReport_follow binders lhs hscope)
        (slotReport_follow _ rhs (slotReport_shows lhs hscope))

theorem slotReportOf_follow
    {returned : Binders} (binders : Binders) :
    (es : List Expression) → (before : SlotReport) → ScopeMap.Shows before.scope returned →
      (earlier : List Passing) →
      List.Forall₂ Slot.Follows (before.slots.filter Slot.isCallParam) earlier →
      List.Forall₂ Slot.Follows ((slotReportOf es before).slots.filter Slot.isCallParam)
        (earlier ++ passingsOf binders returned es)
  | [], _, _, _, hearlier => by
      rw [passingsOf, List.append_nil]
      exact hearlier
  | e :: es, _, hscope, _, hearlier => by
      rw [passingsOf, slotReportOf, ← List.append_assoc]
      refine slotReportOf_follow _ es _ ?_ _ ?_
      · exact slotReport_shows e hscope
      · rw [List.filter_append]
        exact List.rel_append hearlier (slotReport_follow binders e hscope)

end

/-! ## Checked references -/

theorem references_params
    (binders returned : Binders) (params : List Param) :
    ((params.map fun p => (⟨p.value, binders, returned⟩ : Passing)).flatMap fun p =>
        p.value.references p.binders) =
      Param.references binders params := by
  rw [List.flatMap_map]
  rfl

mutual

theorem references_passings
    (binders returned : Binders) :
    (e : Expression) →
      ((e.passings binders returned).flatMap fun p => p.value.references p.binders) =
        e.references binders
  | .call _ _ params => references_params binders returned params
  | .invocation _ i => references_params binders returned i.params
  | .clause _ inner _ => references_passings binders returned inner
  | .chain _ elements => references_passingsOf binders returned elements
  | .join _ lhs rhs => by
      rw [passings, references, List.flatMap_append, references_passings binders returned lhs,
        references_passings _ _ rhs]

theorem references_passingsOf
    (binders returned : Binders) :
    (es : List Expression) →
      ((passingsOf binders returned es).flatMap fun p => p.value.references p.binders) =
        referencesOf binders es
  | [] => rfl
  | e :: es => by
      rw [passingsOf, referencesOf, List.flatMap_append, references_passings binders returned e,
        references_passingsOf _ _ es]

end

end Expression

/-- A variable that is passed has the type of its nearest binder. -/
def Passing.IsResolved (p : Passing) : Prop :=
  ∀ name type, p.value = .var name type →
    ∃ found, type = some found ∧ p.binders.type? name = some found

theorem Slot.Follows.seesReference_iff
    {s : Slot} {p : Passing} (h : s.Follows p) (hresolved : p.IsResolved) :
    s.SeesReference ↔ p.Agrees := by
  constructor
  · intro hsees name type hvalue
    obtain ⟨found, rfl, hbinder⟩ := hresolved name type hvalue
    obtain ⟨entry, hentry, htype⟩ := hsees name _ (h.value_eq.trans hvalue)
    rw [hbinder, ← h.shows name, hentry, Option.map_some]
    exact htype.symm
  · intro hagrees name type hvalue
    have hvalue : p.value = .var name type := h.value_eq.symm.trans hvalue
    obtain ⟨found, rfl, hbinder⟩ := hresolved name type hvalue
    have hfound : (Keyed.find? name s.scope).map ScopeEntry.type = some found := by
      rw [h.shows name, hagrees name _ hvalue, hbinder]
    obtain ⟨entry, hentry, rfl⟩ := Option.map_eq_some_iff.mp hfound
    exact ⟨entry, hentry, rfl⟩

theorem Program.slots_follow
    (p : Program) :
    List.Forall₂ Slot.Follows (p.slots.filter Slot.isCallParam) p.passings := by
  rw [slots, passings]
  induction p.statements with
  | nil => exact .nil
  | cons statement statements ih =>
      rw [List.flatMap_cons, List.flatMap_cons, List.filter_append]
      exact List.rel_append
        (statement.body.slotReport_follow [] ScopeMap.shows_nil) ih

theorem Program.references_passings
    (p : Program) :
    (p.passings.flatMap fun passing => passing.value.references passing.binders) =
      p.statements.flatMap (Statement.references []) := by
  rw [passings]
  induction p.statements with
  | nil => rfl
  | cons statement statements ih =>
      rw [List.flatMap_cons, List.flatMap_cons, List.flatMap_append, ih,
        Expression.references_passings]
      rfl

/-! ## What is handed on -/

/-- The clause does not change what is returned. -/
def Clause.keepsOutputs : Clause → Bool
  | .filter _ | .monitor _ | .named _ | .sort _ _ | .index _ | .slice _ _ => true
  | .projection _ _ _ | .selection _ | .question _ | .aggregation _ _ _ => false

namespace Expression

/-- The expression returns all that the calls inside of it return. -/
def returnsAsCalled : Expression → Bool
  | .call _ _ _ | .invocation _ _ => true
  | .clause _ inner c => inner.returnsAsCalled && c.keepsOutputs
  | .chain _ _ => false
  | .join _ lhs rhs => lhs.returnsAsCalled && rhs.returnsAsCalled

mutual
/-- Nothing is changed on its way to the next element of a chain or the right side of a join. -/
def handsOn : Expression → Bool
  | .call _ _ _ | .invocation _ _ => true
  | .clause _ inner _ => inner.handsOn
  | .chain _ elements => handsOnAll elements
  | .join _ lhs rhs => lhs.returnsAsCalled && lhs.handsOn && rhs.handsOn

def handsOnAll : List Expression → Bool
  | [] => true
  | e :: es => (es.isEmpty || e.returnsAsCalled) && e.handsOn && handsOnAll es
end

end Expression

def Program.handsOn (p : Program) : Bool :=
  p.statements.all fun s => s.body.handsOn

namespace Signature

theorem type?_addArgument
    (s : Signature) {a : Argument} (ha : a.isInput = false) (name : String) :
    Binders.type? (s.addArgument a).outArgs name = Binders.type? (s.outArgs ++ [a]) name := by
  have hargs : (s.addArgument a).outArgs =
      (s.outArgs.filter fun existing => existing.name != a.name) ++ [a] := by
    simp [addArgument, outArgs, List.filter_append, List.filter_filter, ha, Bool.and_comm]
  rw [hargs, Binders.type?_append, Binders.type?_append]
  by_cases hname : a.name = name
  · simp [Binders.type?, hname]
  · congr 1
    rw [Binders.type?, Binders.type?, ← List.filter_reverse, List.find?_filter]
    congr 2
    funext existing
    by_cases hexisting : existing.name = name
    · simp [hexisting, Ne.symm hname]
    · simp [hexisting]

theorem type?_addArguments
    (s : Signature) {extra : List Argument} (hextra : ∀ a ∈ extra, a.isInput = false)
    (name : String) :
    Binders.type? (s.addArguments extra).outArgs name =
      Binders.type? (s.outArgs ++ extra) name := by
  induction extra generalizing s with
  | nil =>
      rw [List.append_nil]
      rfl
  | cons a extra ih =>
      rw [List.forall_mem_cons] at hextra
      calc
        Binders.type? (s.addArguments (a :: extra)).outArgs name
            = Binders.type? ((s.addArgument a).outArgs ++ extra) name :=
          ih (s.addArgument a) hextra.2
        _ = Binders.type? (s.outArgs ++ a :: extra) name := by
          rw [Binders.type?_append, type?_addArgument s hextra.1, ← Binders.type?_append,
            List.append_assoc, List.singleton_append]

theorem type?_joined
    (left right : Signature) (name : String) :
    Binders.type? (left.joined right).outArgs name =
      Binders.type? (left.outArgs ++ right.outArgs) name := by
  exact type?_addArguments _ (fun _ ha => isInput_of_mem_outArgs ha) name

end Signature

namespace Checker

variable {σ : Type} {c : Checker σ}

theorem AcceptsClause.outArgs_eq
    {base schema : Signature} {scope : Scope} {range : Option Range} {depth : Nat}
    {clause clause' : Clause} (h : c.AcceptsClause base scope range depth clause clause' schema)
    (hkeeps : clause'.keepsOutputs = true) :
    schema.outArgs = base.outArgs := by
  cases h with
  | filter _ _ | named | sort _ _ | slice _ _ _ => rfl
  | monitor hresult =>
      obtain ⟨-, -, rfl⟩ := Signature.eq_of_monitored hresult
      rfl
  | index _ _ =>
      split <;> rfl
  | projection _ _ _ | selection _ _ | question _ _ | aggregation _ _ _ _ => cases hkeeps

theorem AcceptsExpression.type?_callOutputs
    {scope : Scope} {depth : Nat} {expression expression' : Expression} {schema : Signature} :
    c.AcceptsExpression scope depth expression expression' schema →
      expression'.returnsAsCalled = true → ∀ name,
        Binders.type? expression'.callOutputs name = Binders.type? schema.outArgs name
  | .call _ _ _, _, _ => rfl
  | .invocation _ _ _, _, _ => rfl
  | .clause _ hinner hclause, hreturns, name => by
      rw [Expression.returnsAsCalled, Bool.and_eq_true] at hreturns
      rw [Expression.callOutputs, hinner.type?_callOutputs hreturns.1 name,
        hclause.outArgs_eq hreturns.2]
  | .chain _ _ _ _, hreturns, _ => nomatch hreturns
  | .join _ hlhs _ hrhs _, hreturns, name => by
      rw [Expression.returnsAsCalled, Bool.and_eq_true] at hreturns
      rw [Expression.callOutputs, Binders.type?_append, hlhs.type?_callOutputs hreturns.1 name,
        hrhs.type?_callOutputs hreturns.2 name, ← Binders.type?_append]
      exact (Signature.type?_joined _ _ name).symm

theorem AcceptsExpression.type?_handedOn
    {scope : Scope} {depth : Nat} {expression expression' : Expression} {schema : Signature}
    (h : c.AcceptsExpression scope depth expression expression' schema)
    (hreturns : expression'.returnsAsCalled = true) {binders returned : Binders}
    (hsame : ∀ name, returned.type? name = binders.type? name) (name : String) :
    Binders.type? (returned ++ expression'.callOutputs) name =
      Binders.type? (binders ++ expression'.outputs) name := by
  rw [Binders.type?_append, Binders.type?_append, hsame name, h.outputs_eq,
    h.type?_callOutputs hreturns name]

mutual

/-- If all that is handed on is what calls return, the two scopes are the same everywhere. -/
theorem AcceptsExpression.passings_agree
    {scope : Scope} {depth : Nat} {expression expression' : Expression} {schema : Signature}
    {binders returned : Binders} (hsame : ∀ name, returned.type? name = binders.type? name) :
    c.AcceptsExpression scope depth expression expression' schema →
      expression'.handsOn = true →
        ∀ p ∈ expression'.passings binders returned, p.Agrees
  | .call _ _ _, _, p, hp => by
      obtain ⟨param, -, rfl⟩ := List.mem_map.mp hp
      exact fun name _ _ => hsame name
  | .invocation _ _ _, _, p, hp => by
      obtain ⟨param, -, rfl⟩ := List.mem_map.mp hp
      exact fun name _ _ => hsame name
  | .clause _ hinner _, hhands, p, hp => by
      rw [Expression.handsOn] at hhands
      rw [Expression.passings] at hp
      exact hinner.passings_agree hsame hhands p hp
  | .chain _ _ helements _, hhands, p, hp => by
      rw [Expression.handsOn] at hhands
      rw [Expression.passings] at hp
      exact helements.passings_agree hsame hhands p hp
  | .join _ hlhs _ hrhs _, hhands, p, hp => by
      rw [Expression.handsOn, Bool.and_eq_true, Bool.and_eq_true] at hhands
      rw [Expression.passings, List.mem_append] at hp
      rcases hp with hp | hp
      · exact hlhs.passings_agree hsame hhands.1.2 p hp
      · exact hrhs.passings_agree (hlhs.type?_handedOn hhands.1.1 hsame) hhands.2 p hp

theorem AcceptsChain.passings_agree
    {scope : Scope} {depth : Nat} {isFirst : Bool}
    {elements elements' : List Expression} {schemas : List Signature}
    {binders returned : Binders} (hsame : ∀ name, returned.type? name = binders.type? name) :
    c.AcceptsChain scope depth isFirst elements elements' schemas →
      Expression.handsOnAll elements' = true →
        ∀ p ∈ Expression.passingsOf binders returned elements', p.Agrees
  | .nil, _, p, hp => nomatch hp
  | .cons helement _ helements, hhands, p, hp => by
      rw [Expression.handsOnAll, Bool.and_eq_true, Bool.and_eq_true, Bool.or_eq_true,
        List.isEmpty_iff] at hhands
      rw [Expression.passingsOf, List.mem_append] at hp
      rcases hp with hp | hp
      · exact helement.passings_agree hsame hhands.1.2 p hp
      · rcases hhands.1.1 with rfl | hreturns
        · exact nomatch hp
        · exact helements.passings_agree (helement.type?_handedOn hreturns hsame) hhands.2 p hp

end

/-! ## Programs -/

theorem forall_mem_right
    {α β : Type} {R : α → β → Prop} {Q : β → Prop} {as : List α} {bs : List β}
    (h : List.Forall₂ R as bs) (hright : ∀ a b, R a b → Q b) :
    ∀ b ∈ bs, Q b := by
  induction h with
  | nil => exact List.forall_mem_nil _
  | cons hab _ ih => exact List.forall_mem_cons.mpr ⟨hright _ _ hab, ih⟩

theorem forall_mem_iff
    {α β : Type} {P : α → Prop} {Q : β → Prop} {as : List α} {bs : List β}
    (h : List.Forall₂ (fun a b => P a ↔ Q b) as bs) :
    (∀ a ∈ as, P a) ↔ ∀ b ∈ bs, Q b := by
  induction h with
  | nil => exact iff_of_true (List.forall_mem_nil _) (List.forall_mem_nil _)
  | cons hab _ ih => rw [List.forall_mem_cons, List.forall_mem_cons, hab, ih]

theorem AcceptsStatements.passings_agree
    {scope : Scope} {statements statements' : List Statement} {schemas : List Signature}
    (h : c.AcceptsStatements scope statements statements' schemas)
    (hhands : statements'.all (fun s => s.body.handsOn) = true) :
    ∀ p ∈ statements'.flatMap (fun s => s.body.passings [] []), p.Agrees := by
  induction h with
  | nil => exact fun _ hp => nomatch hp
  | cons hstatement _ ih =>
      rw [List.all_cons, Bool.and_eq_true] at hhands
      rw [List.flatMap_cons, List.forall_mem_append]
      refine ⟨?_, ih hhands.2⟩
      cases hstatement with
      | expression hbody | ret hbody | assign hbody =>
          exact hbody.passings_agree (fun _ => rfl) hhands.1

theorem AcceptsStatements.passings_isResolved
    {scope : Scope} {statements : List Statement} (q : Program) {schemas : List Signature}
    (h : c.AcceptsStatements scope statements q.statements schemas) (hscope : scope.Holds []) :
    ∀ p ∈ q.passings, p.IsResolved := by
  have hbound : ∀ r ∈ q.statements.flatMap (Statement.references []),
      ∃ type, r.type = some type ∧ r.binders.type? r.name = some type := by
    refine forall_mem_right (h.references [] hscope) ?_
    intro r resolved hresolves
    rw [hresolves.name_eq]
    exact hresolves.exists_type
  intro p hp name type hvalue
  refine hbound ⟨p.binders, name, type⟩ ?_
  rw [← Program.references_passings, List.mem_flatMap]
  refine ⟨p, hp, ?_⟩
  rw [hvalue]
  exact List.mem_singleton_self _

theorem AcceptsStatements.seesReference_iff
    {scope : Scope} {statements : List Statement} (q : Program) {schemas : List Signature}
    (h : c.AcceptsStatements scope statements q.statements schemas) (hscope : scope.Holds []) :
    (∀ slot ∈ q.slots, slot.isCallParam = true → slot.SeesReference) ↔
      ∀ p ∈ q.passings, p.Agrees := by
  rw [← List.forall_mem_filter]
  refine forall_mem_iff ?_
  have hresolved := passings_isResolved q h hscope
  refine (((List.forall₂_and_left _ _).mpr ⟨hresolved, q.slots_follow.flip⟩).imp ?_).flip
  rintro p slot ⟨hp, hfollows⟩
  exact hfollows.seesReference_iff hp

/-- In a checked program the slots of calls see what they refer to exactly if the outputs of the
calls before them and what the check brings into scope do not differ about it.  They never
differ if nothing is changed on its way from call to call. -/
theorem check_slots_seeReferences
    {p q : Program} {s : Session σ}
    (h : ((c.check (.program p)).runIn s).1 = .ok (.program q)) :
    (q.handsOn = true →
        ∀ slot ∈ q.slots, slot.isCallParam = true → slot.SeesReference) ∧
      ((∀ slot ∈ q.slots, slot.isCallParam = true → slot.SeesReference) ↔
        ∀ passing ∈ q.passings, passing.Agrees) := by
  have haccepted : c.AcceptsInput (.program p) (.program q) := acceptsInput_of_check h
  cases haccepted with
  | @program _ declarations' _ statements' _ hdeclarations hstatements =>
      have hiff := AcceptsStatements.seesReference_iff
        { p with declarations := declarations', statements := statements' } hstatements
        (hdeclarations.holds Scope.holds_empty)
      exact ⟨fun hhands => hiff.mpr (hstatements.passings_agree hhands), hiff⟩

/-- Mails about the news: a clause is applied to these, and a variable is the subject. -/
def Digest.forwarded (c : Clause) (subject : String) : Program :=
  ⟨[], [],
    [.expression ⟨.chain {}
      [.clause {}
          (.invocation {} ⟨.device (.ofKind "com.news"), "search",
            [⟨"topic", .undefined false, none⟩], none, none⟩) c,
        .invocation {} ⟨.device (.ofKind "com.mail"), "send",
          [⟨"subject", .var subject none, none⟩], none, none⟩], none⟩],
    none⟩

theorem forwarded_titles_seen :
    ∃ q,
      ((Digest.checker.check (.program (Digest.forwarded (.named "news") "title"))).runIn
          Digest.session).1 = .ok (.program q) ∧
        q.handsOn = true ∧
        (∀ slot ∈ q.slots, slot.isCallParam = true → slot.SeesReference) ∧
        ∀ passing ∈ q.passings, passing.Agrees := by
  obtain ⟨q, h, hhands⟩ : ∃ q,
      ((Digest.checker.check (.program (Digest.forwarded (.named "news") "title"))).runIn
          Digest.session).1 = .ok (.program q) ∧
        q.handsOn = true :=
    ⟨_, rfl, rfl⟩
  obtain ⟨hseen, hiff⟩ := check_slots_seeReferences h
  exact ⟨q, h, hhands, hseen hhands, hiff.mp (hseen hhands)⟩

/-- A computed column, which the checker accepts as the subject. -/
def Digest.headlines : Program :=
  forwarded (.projection [] [.var "title" none] [some "headline"]) "headline"

theorem headline_not_seen :
    ∃ q slot,
      ((Digest.checker.check (.program Digest.headlines)).runIn Digest.session).1 =
          .ok (.program q) ∧
        slot ∈ q.slots ∧ slot.isCallParam = true ∧
        slot.value = .var "headline" (some .string) ∧
        Keyed.find? "headline" slot.scope = none ∧ ¬ slot.SeesReference := by
  refine ⟨_, _, rfl, .tail _ (.tail _ (.head _)), rfl, rfl, rfl, ?_⟩
  intro hsees
  obtain ⟨entry, hentry, -⟩ := hsees "headline" _ rfl
  cases hentry

end Checker

end SkillLang
