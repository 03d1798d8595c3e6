import SkillLang.Proofs.Typing.Idempotence
import SkillLang.Proofs.Typing.Requirements
import SkillLang.Slots.Fill

/-!
# Filling checked expressions

The slots of an expression are reported and filled in the same order, so a list with
one choice for each slot says how an expression is filled.  When an input that is still
to be asked for gets a constant that fits the argument it stands for, an expression
that was accepted remains so, and none of its signatures changes.
-/

namespace SkillLang

/-! ## Choices -/

/-- The next choice in place of a value, which stays when nothing is chosen. -/
def refill (value : Value) : StateM (List (Option Value)) Value :=
  fun choices => (choices.head?.join.getD value, choices.tail)

/-- The expression filled with one choice for each of its slots. -/
def Expression.fill (e : Expression) (choices : List (Option Value)) : Expression :=
  ((e.fillSlots refill).run choices).1

mutual
/-- The signatures of an expression and of the expressions in it, in the order of their nodes. -/
def Expression.schemas : Expression → List (Option Signature)
  | .call info _ _ | .invocation info _ => [info.schema]
  | .clause info inner _ => info.schema :: inner.schemas
  | .chain info elements => info.schema :: Expression.schemasOf elements
  | .join info lhs rhs => info.schema :: (lhs.schemas ++ rhs.schemas)

def Expression.schemasOf : List Expression → List (Option Signature)
  | [] => []
  | element :: elements => element.schemas ++ Expression.schemasOf elements
end

/-- With these choices in front of others, an action takes just them and gives the result. -/
def Takes {α : Type} (m : StateM (List (Option Value)) α) (choices : List (Option Value))
    (result : α) : Prop :=
  ∀ rest, m.run (choices ++ rest) = (result, rest)

theorem takes_pure
    {α : Type} (x : α) :
    Takes (pure x) [] x :=
  fun _ => rfl

theorem Takes.bind
    {α β : Type} {m : StateM (List (Option Value)) α} {k : α → StateM (List (Option Value)) β}
    {first second : List (Option Value)} {x : α} {y : β}
    (hm : Takes m first x) (hk : Takes (k x) second y) :
    Takes (m >>= k) (first ++ second) y := by
  intro rest
  rw [StateT.run_bind, List.append_assoc, hm]
  exact hk rest

theorem Takes.map
    {α β : Type} {m : StateM (List (Option Value)) α} {choices : List (Option Value)} {x : α}
    (hm : Takes m choices x) (g : α → β) :
    Takes (m >>= fun a => pure (g a)) choices (g x) := by
  have hbound := hm.bind (k := fun a => pure (g a)) (takes_pure (g x))
  rwa [List.append_nil] at hbound

theorem Takes.run_eq
    {α : Type} {m : StateM (List (Option Value)) α} {choices : List (Option Value)} {x : α}
    (h : Takes m choices x) :
    (m.run choices).1 = x := by
  have hrun := h []
  rw [List.append_nil] at hrun
  rw [hrun]

theorem takes_refill
    (value : Value) (choice : Option Value) :
    Takes (refill value) [choice] (choice.getD value) := by
  intro rest
  cases choice with
  | none => rfl
  | some chosen => rfl

theorem forall₂_append_split
    {α β : Type} {R : α → β → Prop} {xs ys : List α} {zs : List β}
    (h : List.Forall₂ R (xs ++ ys) zs) :
    ∃ left right, zs = left ++ right ∧ List.Forall₂ R xs left ∧ List.Forall₂ R ys right := by
  induction xs generalizing zs with
  | nil => exact ⟨[], zs, rfl, .nil, h⟩
  | cons x xs ih =>
      cases h with
      | cons hhead htail =>
          obtain ⟨left, right, rfl, hleft, hright⟩ := ih htail
          exact ⟨_ :: left, right, rfl, .cons hhead hleft, hright⟩

/-! ## Admissible choices -/

/-- The value is an array or an object. -/
def Value.isCollection : Value → Bool
  | .array _ _ | .object _ => true
  | _ => false

theorem Value.isLeaf_of_isConstant
    {value : Value} (hconstant : value.isConstant = true)
    (hscalar : value.isCollection = false) :
    value.isLeaf = true := by
  cases value with
  | array _ _ | object _ => cases hscalar
  | var _ _ | computation _ _ _ _ | field _ _ _ | filtered _ _ _ => cases hconstant
  | undefined _ | context _ _ | boolean _ | string _ | number _ | measure _ _
  | currency _ _ | place _ | date _ | time _ | entity _ | enum _ | event _ | argMap _ =>
      rfl

/-- The function of the call that the slot belongs to requires nothing under a condition. -/
def Slot.IsUnconditional (slot : Slot) : Prop :=
  ∀ schema, slot.owner.bind Owner.schema = some schema → ∀ a ∈ schema.args, a.requiredIf = []

/-- The program with nothing to run but an expression. -/
def Program.withExpression (p : Program) (e : Expression) (range : Option Range) : Program :=
  { p with statements := [.expression ⟨e, range⟩] }

namespace Checker

variable {σ : Type} (c : Checker σ)

/-- The value can be filled into the slot: the slot is an input that is still to be asked for,
and the value is a constant, neither an array nor an object, that fits its argument. -/
structure Fits (slot : Slot) (value : Value) : Prop where
  isInput : slot.kind = .inputParam
  isUndefined : slot.isUndefined = true
  isConstant : value.isConstant = true
  isScalar : value.isCollection = false
  arg : ∃ a, slot.arg = some a ∧ c.assignable value.typeOf a.type = true

/-- A slot may be left as it is, or filled with a value that fits it, if its call requires nothing
under a condition. -/
def Admits (slot : Slot) (choice : Option Value) : Prop :=
  ∀ value, choice = some value → c.Fits slot value ∧ slot.IsUnconditional

variable {c}

/-- Only inputs are filled. -/
theorem Admits.eq_none
    {slot : Slot} {choice : Option Value} (h : c.Admits slot choice)
    (hkind : slot.kind ≠ .inputParam) :
    choice = none := by
  cases choice with
  | none => rfl
  | some value => exact absurd (h value rfl).1.isInput hkind

theorem takes_scalar
    {owner : Option Owner} {map : ScopeMap} {value : Value} {choice : Option Value}
    (h : c.Admits (.scalar owner map value) choice) :
    Takes (refill value) [choice] value := by
  have hnone : choice = none := h.eq_none (by simp [Slot.scalar])
  rw [hnone]
  exact takes_refill value none

theorem takes_scalars
    {owner : Option Owner} {map : ScopeMap} {values : List Value}
    {choices : List (Option Value)}
    (h : List.Forall₂ c.Admits (values.map (.scalar owner map)) choices) :
    Takes (values.mapM refill) choices values := by
  induction values generalizing choices with
  | nil =>
      cases h
      exact takes_pure []
  | cons value values ih =>
      cases h with
      | cons hhead htail =>
          rw [List.mapM_cons]
          exact (takes_scalar hhead).bind ((ih htail).map (value :: ·))

theorem takes_attributes
    {owner : Owner} {map : ScopeMap} {attributes : List Param} {choices : List (Option Value)}
    (h : List.Forall₂ c.Admits
      (attributes.map fun a => ⟨.deviceAttribute, some a.name, a.value, none, some owner, map⟩)
      choices) :
    Takes (fillParams refill attributes) choices attributes := by
  unfold fillParams
  induction attributes generalizing choices with
  | nil =>
      cases h
      exact takes_pure []
  | cons p attributes ih =>
      cases h with
      | cons hhead htail =>
          have hnone := hhead.eq_none (by simp)
          rw [List.mapM_cons, hnone]
          obtain ⟨name, value, range⟩ := p
          exact ((takes_refill value none).map _).bind ((ih htail).map _)

theorem takes_selector
    {owner : Owner} {map : ScopeMap} {selector : Selector} {choices : List (Option Value)}
    (h : List.Forall₂ c.Admits (selector.slots owner map) choices) :
    Takes (selector.fillSlots refill) choices selector := by
  cases selector with
  | builtin =>
      cases h
      exact takes_pure _
  | device d =>
      obtain ⟨kind, id, attributes, all, range⟩ := d
      exact (takes_attributes h).map _

/-! ## Calls -/

/-- Without conditions, what a call has to pass is a matter of names. -/
theorem requireParams_congr
    {schema : Signature} {params filled : List Param} (range : Option Range)
    (hnames : filled.map Param.name = params.map Param.name)
    (hsame : filled = params ∨ ∀ a ∈ schema.args, a.requiredIf = []) :
    schema.requireParams filled range = schema.requireParams params range := by
  rcases hsame with rfl | hconditions
  · rfl
  refine Signature.requireParams_congr_of_names ?_ ?_ range
  · intro test
    calc
      (filled.any fun p => test p.name) = (filled.map Param.name).any test :=
        List.any_map.symm
      _ = (params.map Param.name).any test := by rw [hnames]
      _ = params.any fun p => test p.name := List.any_map
  · intro a ha
    rw [hconditions a (List.mem_of_mem_filter ha), List.any_nil, List.any_nil]

/-- Passing what was chosen: a hole may be filled with any constant that fits its argument. -/
theorem AcceptsValue.getD_of_admits
    {scope : Scope} {depth : Nat} {value : Value} {type : Ty} {slot : Slot} {arg : Argument}
    {choice : Option Value}
    (hvalue : c.AcceptsValue scope depth value value type)
    (hfits : c.assignable type arg.type = true)
    (hslot : slot.value = value) (harg : slot.arg = some arg)
    (hchoice : c.Admits slot choice) :
    ∃ type', c.AcceptsValue scope depth (choice.getD value) (choice.getD value) type' ∧
      c.assignable type' arg.type = true := by
  cases choice with
  | none => exact ⟨type, hvalue, hfits⟩
  | some chosen =>
      obtain ⟨hchosen, -⟩ := hchoice chosen rfl
      have hdepth : depth ≤ Limits.maxDepth := by
        have hundefined : value.isUndefined = true := hslot ▸ hchosen.isUndefined
        cases value with
        | undefined _ =>
            cases hvalue with
            | leaf hdepth _ => exact hdepth
        | array _ _ | var _ _ | computation _ _ _ _ | field _ _ _ | filtered _ _ _
        | context _ _ | boolean _ | string _ | number _ | measure _ _ | currency _ _
        | place _ | date _ | time _ | entity _ | enum _ | event _ | argMap _ | object _ =>
            cases hundefined
      obtain ⟨other, hother, hassignable⟩ := hchosen.arg
      have hsame : arg = other := Option.some.inj (harg.symm.trans hother)
      refine ⟨chosen.typeOf, ?_, hsame ▸ hassignable⟩
      exact .leaf hdepth (Value.isLeaf_of_isConstant hchosen.isConstant hchosen.isScalar)

theorem AcceptsParams.filled
    {schema : Signature} {scope : Scope} {depth : Nat} {seen : List String}
    {params : List Param} {owner : Owner} {map : ScopeMap} {choices : List (Option Value)}
    (h : c.AcceptsParams schema scope depth seen params params)
    (howner : owner.schema = some schema)
    (hchoices : List.Forall₂ c.Admits (paramSlots owner map params) choices) :
    ∃ filled, Takes (fillParams refill params) choices filled ∧
      c.AcceptsParams schema scope depth seen filled filled ∧
      filled.map Param.name = params.map Param.name ∧
      (filled = params ∨ ∀ a ∈ schema.args, a.requiredIf = []) := by
  unfold fillParams
  induction params generalizing seen choices with
  | nil =>
      cases hchoices
      exact ⟨[], takes_pure [], .nil, rfl, .inl rfl⟩
  | cons p params ih =>
      obtain ⟨name, value, range⟩ := p
      cases hchoices with
      | @cons _ choice _ rest hhead htail =>
          cases h with
          | cons harg hfresh hvalue hfits hparams =>
              obtain ⟨filled, htakes, haccepts, hnames, hsame⟩ := ih hparams htail
              have hfound := (Option.filter_eq_some_iff.mp harg).1
              obtain ⟨type', hvalue', hfits'⟩ :=
                hvalue.getD_of_admits hfits rfl (by rw [howner]; exact hfound) hhead
              refine ⟨⟨name, choice.getD value, range⟩ :: filled, ?_, ?_, ?_, ?_⟩
              · rw [List.mapM_cons]
                exact ((takes_refill value choice).map _).bind (htakes.map _)
              · exact .cons harg hfresh hvalue' hfits' haccepts
              · simp only [List.map_cons, hnames]
              · -- Conditions read values, so they only matter once there is a new one.
                cases choice with
                | none => exact hsame.imp (fun hsame => by rw [hsame]; rfl) id
                | some chosen => exact .inr ((hhead chosen rfl).2 schema howner)

theorem AcceptsCall.filled
    {schema : Signature} {scope : Scope} {range : Option Range} {depth : Nat}
    {params : List Param} {owner : Owner} {map : ScopeMap} {choices : List (Option Value)}
    (h : c.AcceptsCall schema scope range depth params params)
    (howner : owner.schema = some schema)
    (hchoices : List.Forall₂ c.Admits (paramSlots owner map params) choices) :
    ∃ filled, Takes (fillParams refill params) choices filled ∧
      c.AcceptsCall schema scope range depth filled filled := by
  obtain ⟨filled, htakes, haccepts, hnames, hsame⟩ := h.params.filled howner hchoices
  have hrequired := requireParams_congr range hnames hsame
  exact ⟨filled, htakes, haccepts, hrequired.trans h.required⟩

/-! ## Filters and clauses -/

mutual

theorem AcceptsFilter.filled
    {schema : Signature} {scope : Scope} {depth : Nat} {plain filter : Filter}
    {map : ScopeMap} {known : Option Signature} {owner : Option Owner}
    {choices : List (Option Value)} :
    c.AcceptsFilter schema scope depth plain filter →
      List.Forall₂ c.Admits (filter.slots map known owner) choices →
      ∃ filled, Takes (filter.fillSlots refill) choices filled ∧
        c.AcceptsFilter schema scope depth filled filled
  | .always hdepth, hchoices => by
      cases hchoices
      exact ⟨.always, takes_pure _, .always hdepth⟩
  | .never hdepth, hchoices => by
      cases hchoices
      exact ⟨.never, takes_pure _, .never hdepth⟩
  | .dontCare hdepth harg, hchoices => by
      cases hchoices
      exact ⟨.dontCare _ _, takes_pure _, .dontCare hdepth harg⟩
  | .conj hdepth hoperands, hchoices => by
      obtain ⟨filled, htakes, haccepts⟩ := hoperands.filled hchoices
      exact ⟨.conj _ filled, htakes.map _, .conj hdepth haccepts⟩
  | .disj hdepth hoperands, hchoices => by
      obtain ⟨filled, htakes, haccepts⟩ := hoperands.filled hchoices
      exact ⟨.disj _ filled, htakes.map _, .disj hdepth haccepts⟩
  | .neg hdepth hoperand, hchoices => by
      obtain ⟨filled, htakes, haccepts⟩ := hoperand.filled hchoices
      exact ⟨.neg _ filled, htakes.map _, .neg hdepth haccepts⟩
  | .atom hdepth htype hvalue hchosen, hchoices => by
      cases hchoices with
      | cons hchoice hrest =>
          cases hrest
          -- The value of a comparison is no input of a call, so that nothing is filled in.
          have hnone := hchoice.eq_none (by simp)
          rw [hnone]
          exact ⟨_, (takes_refill _ none).map _, .atom hdepth htype hvalue.again hchosen⟩
  | .compute hdepth hlhs hrhs hchosen, hchoices => by
      cases hchoices with
      | cons hleft hrest =>
          cases hrest with
          | cons hright hrest =>
              cases hrest
              exact ⟨_, (takes_scalar hleft).bind ((takes_scalar hright).map _),
                .compute hdepth hlhs.again hrhs.again hchosen⟩
  | .external hdepth hresolve hkind hparams hrequired hfilter, hchoices => by
      -- The choices are those for the selector, for the parameters and for the test, in this order.
      obtain ⟨before, after, rfl, hcall, hafter⟩ := forall₂_append_split hchoices
      obtain ⟨first, second, rfl, hselector, hpassed⟩ := forall₂_append_split hcall
      have hfilled := AcceptsCall.filled ⟨hparams.again, hrequired⟩ rfl hpassed
      obtain ⟨params, htakesParams, hparams', hrequired'⟩ := hfilled
      obtain ⟨filled, htakesFilter, hfilter'⟩ := hfilter.filled hafter
      refine ⟨_, ?_, .external hdepth hresolve.again hkind hparams' hrequired' hfilter'⟩
      rw [List.append_assoc]
      exact (takes_selector hselector).bind (htakesParams.bind (htakesFilter.map _))

theorem AcceptsFilters.filled
    {schema : Signature} {scope : Scope} {depth : Nat} {plain operands : List Filter}
    {map : ScopeMap} {known : Option Signature} {owner : Option Owner}
    {choices : List (Option Value)} :
    c.AcceptsFilters schema scope depth plain operands →
      List.Forall₂ c.Admits (Filter.slotsOf map known owner operands) choices →
      ∃ filled, Takes (Filter.fillSlotsOf refill operands) choices filled ∧
        c.AcceptsFilters schema scope depth filled filled
  | .nil, hchoices => by
      cases hchoices
      exact ⟨[], takes_pure _, .nil⟩
  | .cons hoperand hoperands, hchoices => by
      obtain ⟨first, second, rfl, hfirst, hsecond⟩ := forall₂_append_split hchoices
      obtain ⟨filled, htakes, haccepts⟩ := hoperand.filled hfirst
      obtain ⟨rest, htakesRest, hrest⟩ := hoperands.filled hsecond
      exact ⟨filled :: rest, htakes.bind (htakesRest.map _), .cons haccepts hrest⟩

end

theorem takes_columns
    {owner : Option Owner} {map : ScopeMap} {elements : List Selected}
    {choices : List (Option Value)}
    (h : List.Forall₂ c.Admits
      ((Clause.selection elements).scalars.map (.scalar owner map)) choices) :
    Takes
      (elements.mapM fun element => do
        return { element with column := ← element.column.fillSlots refill })
      choices elements := by
  induction elements generalizing choices with
  | nil =>
      cases h
      exact takes_pure []
  | cons element elements ih =>
      obtain ⟨column, label, types⟩ := element
      rw [List.mapM_cons]
      cases column with
      | path name =>
          have hrest := (takes_pure (Column.path name)).map fun column =>
            ({ column, label, types } : Selected)
          exact hrest.bind ((ih h).map _)
      | value v =>
          cases h with
          | cons hhead htail =>
              have hcolumn := ((takes_scalar hhead).map Column.value).map fun column =>
                ({ column, label, types } : Selected)
              exact hcolumn.bind ((ih htail).map _)

/-- The slots of a clause besides those of its filter are no inputs. -/
theorem AcceptsClause.filled
    {base schema : Signature} {scope : Scope} {range : Option Range} {depth : Nat}
    {plain clause : Clause} {map : ScopeMap} {known : Option Signature}
    {owner : Option Owner} {choices : List (Option Value)}
    (h : c.AcceptsClause base scope range depth plain clause schema)
    (hchoices : List.Forall₂ c.Admits (clause.slots map known owner) choices) :
    ∃ filled, Takes (clause.fillSlots refill) choices filled ∧
      c.AcceptsClause base scope range depth filled filled schema := by
  have hagain := h.again
  cases h with
  | filter hkind htest =>
      obtain ⟨filled, htakes, haccepts⟩ := htest.filled hchoices
      exact ⟨.filter filled, htakes.map _, .filter hkind haccepts⟩
  | question hkind htest =>
      obtain ⟨filled, htakes, haccepts⟩ := htest.filled hchoices
      exact ⟨.question filled, htakes.map _, .question hkind haccepts⟩
  | monitor _ =>
      cases hchoices
      exact ⟨_, takes_pure _, hagain⟩
  | named =>
      cases hchoices
      exact ⟨_, takes_pure _, hagain⟩
  | aggregation _ _ _ _ =>
      cases hchoices
      exact ⟨_, takes_pure _, hagain⟩
  | projection _ _ _ => exact ⟨_, (takes_scalars hchoices).map _, hagain⟩
  | selection _ _ => exact ⟨_, (takes_columns hchoices).map _, hagain⟩
  | index _ _ => exact ⟨_, (takes_scalars hchoices).map _, hagain⟩
  | sort _ _ =>
      cases hchoices with
      | cons hvalue hrest =>
          cases hrest
          exact ⟨_, (takes_scalar hvalue).map _, hagain⟩
  | slice _ _ _ =>
      cases hchoices with
      | cons hbase hrest =>
          cases hrest with
          | cons hlimit hrest =>
              cases hrest
              exact ⟨_, (takes_scalar hbase).bind ((takes_scalar hlimit).map _), hagain⟩

/-! ## Expressions -/

mutual

theorem AcceptsExpression.filled
    {scope : Scope} {depth : Nat} {plain expression : Expression} {schema : Signature}
    {map : ScopeMap} {choices : List (Option Value)} :
    c.AcceptsExpression scope depth plain expression schema →
      List.Forall₂ c.Admits (expression.slotReport map).slots choices →
      ∃ filled, Takes (expression.fillSlots refill) choices filled ∧
        c.AcceptsExpression scope depth filled filled schema ∧
        filled.schemas = expression.schemas
  | .call hdepth hfunction hcall, hchoices => by
      obtain ⟨params, htakes, hparams⟩ := hcall.again.filled rfl hchoices
      exact ⟨.call _ _ params, htakes.map _, .call hdepth hfunction hparams, rfl⟩
  | .invocation hdepth hresolve hcall, hchoices => by
      obtain ⟨first, second, rfl, hselector, hpassed⟩ := forall₂_append_split hchoices
      obtain ⟨params, htakes, hparams⟩ := hcall.again.filled rfl hpassed
      refine ⟨_, ?_, .invocation hdepth hresolve.again hparams, rfl⟩
      exact (takes_selector hselector).bind (htakes.map _)
  | .clause hdepth hinner hclause, hchoices => by
      obtain ⟨first, second, rfl, hfirst, hsecond⟩ := forall₂_append_split hchoices
      obtain ⟨inner, htakesInner, hinner', hschemas⟩ := hinner.filled hfirst
      obtain ⟨clause, htakesClause, hclause'⟩ := hclause.filled hsecond
      refine ⟨.clause _ inner clause, htakesInner.bind (htakesClause.map _),
        .clause hdepth hinner' hclause', ?_⟩
      simp only [Expression.schemas, hschemas]
  | .chain hdepth hlength helements hschema, hchoices => by
      obtain ⟨first, second, elements, rfl, hfirst, htakes, helements', hschemas⟩ :=
        helements.filled hchoices
      cases hfirst
      have hlength' : elements.length ≤ Limits.maxChainLength := by
        rw [← helements'.length_eq.2, helements.length_eq.2]
        exact hlength
      refine ⟨.chain _ elements, htakes.map _, .chain hdepth hlength' helements' hschema, ?_⟩
      simp only [Expression.schemas, hschemas]
  | .join hdepth hlhs hleft hrhs hright, hchoices => by
      obtain ⟨first, second, rfl, hfirst, hsecond⟩ := forall₂_append_split hchoices
      obtain ⟨lhs, htakesLhs, hlhs', hschemasLhs⟩ := hlhs.filled hfirst
      obtain ⟨rhs, htakesRhs, hrhs', hschemasRhs⟩ := hrhs.filled hsecond
      refine ⟨.join _ lhs rhs, htakesLhs.bind (htakesRhs.map _),
        .join hdepth hlhs' hleft hrhs' hright, ?_⟩
      simp only [Expression.schemas, hschemasLhs, hschemasRhs]

/-- A report on a chain goes on from the slots before it. -/
theorem AcceptsChain.filled
    {scope : Scope} {depth : Nat} {isFirst : Bool} {plain elements : List Expression}
    {schemas : List Signature} {before : SlotReport} {choices : List (Option Value)} :
    c.AcceptsChain scope depth isFirst plain elements schemas →
      List.Forall₂ c.Admits (Expression.slotReportOf elements before).slots choices →
      ∃ first second filled, choices = first ++ second ∧
        List.Forall₂ c.Admits before.slots first ∧
        Takes (Expression.fillSlotsOf refill elements) second filled ∧
        c.AcceptsChain scope depth isFirst filled filled schemas ∧
        Expression.schemasOf filled = Expression.schemasOf elements
  | .nil, hchoices =>
      ⟨choices, [], [], (List.append_nil choices).symm, hchoices, takes_pure _, .nil, rfl⟩
  | .cons helement hplace helements, hchoices => by
      -- The report accumulates: what is left of the choices for the later elements belongs
      -- to the first one and to what came before it.
      obtain ⟨taken, rest, others, rfl, htaken, htakesRest, helements', hschemasRest⟩ :=
        helements.filled hchoices
      obtain ⟨first, second, rfl, hfirst, hsecond⟩ := forall₂_append_split htaken
      obtain ⟨element, htakes, helement', hschemas⟩ := helement.filled hsecond
      have hempty := helements'.isEmpty_eq.2.symm.trans helements.isEmpty_eq.2
      refine ⟨first, second ++ rest, element :: others, List.append_assoc .., hfirst,
        htakes.bind (htakesRest.map _), .cons helement' (hempty ▸ hplace) helements', ?_⟩
      simp only [Expression.schemasOf, hschemas, hschemasRest]

end

/-! ## Programs -/

/-- The classes of a program do not change what fits. -/
theorem Admits.forProgram
    {slot : Slot} {choice : Option Value} (h : c.Admits slot choice) (p : Program) :
    (c.forProgram p).Admits slot choice := by
  intro value hvalue
  obtain ⟨hfits, hunconditional⟩ := h value hvalue
  obtain ⟨hinput, hundefined, hconstant, hscalar, harg⟩ := hfits
  exact ⟨⟨hinput, hundefined, hconstant, hscalar, harg⟩, hunconditional⟩

/-- A checked program that runs one expression, filled in with admissible choices, passes the
check again in any session and comes out as it is.  So every expression in it keeps the
signature that it had before. -/
theorem check_filled
    (hfixed : c.source.IsFixed)
    {p checked : Program} {e : Expression} {range : Option Range} {s : Session σ}
    (h : ((c.check (.program p)).runIn s).1 =
      .ok (.program (checked.withExpression e range)))
    {choices : List (Option Value)} (hchoices : List.Forall₂ c.Admits e.slots choices)
    (t : Session σ) :
    ((c.check (.program (checked.withExpression (e.fill choices) range))).runIn t).1 =
        .ok (.program (checked.withExpression (e.fill choices) range)) ∧
      (e.fill choices).schemas = e.schemas := by
  have haccepted := acceptsInput_of_check h
  obtain ⟨classes, declarations, _, place⟩ := checked
  obtain ⟨_, _, statements, _⟩ := p
  unfold Program.withExpression at haccepted
  cases haccepted with
  | program hdeclarations hbody =>
      cases hbody with
      | cons hstatement hrest =>
          cases hrest
          cases hstatement with
          | expression hexpression =>
              obtain ⟨filled, htakes, haccepts, hschemas⟩ :=
                hexpression.filled (hchoices.imp fun _ _ hchoice => hchoice.forProgram _)
              have hfill : e.fill choices = filled := htakes.run_eq
              rw [hfill]
              refine ⟨check_of_acceptsInput hfixed ?_ t, hschemas⟩
              exact .program hdeclarations.again (.cons (.expression haccepts) .nil)

/-- The topic of the digest is filled in, and its other two slots are left. -/
theorem digest_filled :
    ∃ e filled,
      ((Digest.checker.check Digest.plain).runIn Digest.session).1 =
        .ok (.program ((Digest.program []).withExpression e none)) ∧
      filled = e.fill [some (.string "proofs"), none, none] ∧
      ((Digest.checker.check
        (.program ((Digest.program []).withExpression filled none))).runIn Digest.session).1 =
          .ok (.program ((Digest.program []).withExpression filled none)) ∧
      filled.schemas = e.schemas := by
  refine ⟨_, _, rfl, rfl, check_filled (c := Digest.checker) (p := Digest.program [])
    (s := Digest.session) (SchemaSource.fixed_isFixed _) rfl ?_ Digest.session⟩
  refine .cons ?_ (.cons ?_ (.cons ?_ .nil))
  · intro value hvalue
    cases hvalue
    refine ⟨⟨rfl, rfl, rfl, rfl, _, rfl, rfl⟩, ?_⟩
    intro schema hschema
    cases hschema
    decide
  · intro value hvalue
    cases hvalue
  · intro value hvalue
    cases hvalue

end Checker

end SkillLang
