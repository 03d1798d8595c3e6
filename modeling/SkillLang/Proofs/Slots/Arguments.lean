import SkillLang.Proofs.Typing.AcceptanceOfCheck
import SkillLang.Proofs.Typing.ValueTypes
import SkillLang.Slots.Basic

/-!
# Arguments of slots

A slot looks for its argument in the signature of the call that it belongs to, which the
check has written down there.  In a checked program every input that is passed to a
call, a device function or a condition on other results finds an input of its name, and
what is passed fits it.
-/

namespace SkillLang

/-- The slot stands for an input of the signature of its call and holds a value that fits. -/
structure Slot.PointsAt (lenient : Bool) (slot : Slot) (schema : Signature) (arg : Argument) :
    Prop where
  owner_eq : slot.owner.bind Owner.schema = some schema
  arg_eq : slot.arg = some arg
  mem : arg ∈ schema.args
  isInput : arg.isInput = true
  name_eq : slot.name = some arg.name
  fits : slot.value.typeOf.isAssignable lenient arg.type = true

/-- If the slot is an input that is passed to a call, it points at an argument. -/
def Slot.FindsArgument (lenient : Bool) (slot : Slot) : Prop :=
  slot.kind = .inputParam → ∃ schema arg, slot.PointsAt lenient schema arg

/-- The slot of a parameter for which the signature has an input. -/
theorem Slot.pointsAt_of_param
    {owner : Owner} {schema : Signature} (howner : owner.schema = some schema) {name : String}
    {arg : Argument} (harg : (schema.arg? name).filter Argument.isInput = some arg)
    {value : Value} {lenient : Bool}
    (hfits : value.typeOf.isAssignable lenient arg.type = true) (map : ScopeMap) :
    Slot.PointsAt lenient
      ⟨.inputParam, some name, value, owner.schema.bind fun s => s.arg? name, some owner, map⟩
      schema arg := by
  obtain ⟨hfound, hinput⟩ := Option.filter_eq_some_iff.mp harg
  have hmatch := List.find?_some hfound
  have hname : arg.name = name := eq_of_beq hmatch
  constructor
  case owner_eq => exact howner
  case arg_eq => exact howner ▸ hfound
  case mem => exact List.mem_of_find?_eq_some hfound
  case isInput => exact hinput
  case name_eq => exact congrArg some hname.symm
  case fits => exact hfits

theorem Slot.findsArgument_of_kind_ne
    {slot : Slot} (h : slot.kind ≠ .inputParam) (lenient : Bool) :
    slot.FindsArgument lenient :=
  fun hkind => absurd hkind h

theorem Selector.slots_findArguments
    (lenient : Bool) (selector : Selector) (owner : Owner) (map : ScopeMap) :
    ∀ slot ∈ selector.slots owner map, slot.FindsArgument lenient := by
  cases selector with
  | builtin => exact List.forall_mem_nil _
  | device d =>
      rw [slots, List.forall_mem_map]
      exact fun _ _ => Slot.findsArgument_of_kind_ne (by simp) lenient

theorem Slot.scalars_findArguments
    (lenient : Bool) (values : List Value) (owner : Option Owner) (map : ScopeMap) :
    ∀ slot ∈ values.map (Slot.scalar owner map), slot.FindsArgument lenient := by
  rw [List.forall_mem_map]
  exact fun _ _ => findsArgument_of_kind_ne (by simp [scalar]) lenient

namespace Checker

variable {σ : Type} {c : Checker σ}

theorem AcceptsParams.slots_findArguments
    {schema : Signature} {scope : Scope} {depth : Nat} {seen : List String}
    {params params' : List Param}
    (h : c.AcceptsParams schema scope depth seen params params') (owner : Owner)
    (howner : owner.schema = some schema) (map : ScopeMap) :
    ∀ slot ∈ paramSlots owner map params', slot.FindsArgument c.lenient := by
  induction params generalizing seen params' with
  | nil =>
      cases h
      exact List.forall_mem_nil _
  | cons p params ih =>
      cases h with
      | cons harg _ hvalue hfits hparams =>
          rw [paramSlots, List.map_cons, List.forall_mem_cons]
          have hpassed := hvalue.typeOf_eq.symm ▸ hfits
          exact ⟨fun _ => ⟨_, _, Slot.pointsAt_of_param howner harg hpassed map⟩, ih hparams⟩

/-! ## Filters and clauses -/

mutual

theorem AcceptsFilter.slots_findArguments
    {schema : Signature} {scope : Scope} {depth : Nat} {filter filter' : Filter}
    (map : ScopeMap) (known : Option Signature) (owner : Option Owner) :
    c.AcceptsFilter schema scope depth filter filter' →
      ∀ slot ∈ filter'.slots map known owner, slot.FindsArgument c.lenient
  | .always _ | .never _ | .dontCare _ _ => List.forall_mem_nil _
  | .conj _ hoperands | .disj _ hoperands => hoperands.slots_findArguments map known owner
  | .neg _ hoperand => hoperand.slots_findArguments map known owner
  | .atom _ _ _ _ => by
      rw [Filter.slots, List.forall_mem_singleton]
      exact Slot.findsArgument_of_kind_ne (by simp) c.lenient
  | .compute _ _ _ _ => Slot.scalars_findArguments c.lenient [_, _] owner map
  | .external _ _ _ hparams _ hfilter => by
      rw [Filter.slots, List.forall_mem_append, List.forall_mem_append]
      exact ⟨⟨Selector.slots_findArguments _ _ _ map, hparams.slots_findArguments _ rfl map⟩,
        hfilter.slots_findArguments map _ _⟩

theorem AcceptsFilters.slots_findArguments
    {schema : Signature} {scope : Scope} {depth : Nat} {filters filters' : List Filter}
    (map : ScopeMap) (known : Option Signature) (owner : Option Owner) :
    c.AcceptsFilters schema scope depth filters filters' →
      ∀ slot ∈ Filter.slotsOf map known owner filters', slot.FindsArgument c.lenient
  | .nil => List.forall_mem_nil _
  | .cons hfilter hfilters => by
      rw [Filter.slotsOf, List.forall_mem_append]
      exact ⟨hfilter.slots_findArguments map known owner,
        hfilters.slots_findArguments map known owner⟩

end

theorem AcceptsClause.slots_findArguments
    {base schema : Signature} {scope : Scope} {range : Option Range} {depth : Nat}
    {clause clause' : Clause} (map : ScopeMap) (known : Option Signature) (owner : Option Owner)
    (h : c.AcceptsClause base scope range depth clause clause' schema) :
    ∀ slot ∈ clause'.slots map known owner, slot.FindsArgument c.lenient := by
  cases h with
  | filter _ htest | question _ htest => exact htest.slots_findArguments map known owner
  | monitor _ | projection _ _ _ | selection _ _ | named | aggregation _ _ _ _ | sort _ _
  | index _ _ | slice _ _ _ => exact Slot.scalars_findArguments c.lenient _ owner map

/-! ## Expressions -/

mutual

theorem AcceptsExpression.slots_findArguments
    {scope : Scope} {depth : Nat} {expression expression' : Expression} {schema : Signature}
    (map : ScopeMap) :
    c.AcceptsExpression scope depth expression expression' schema →
      ∀ slot ∈ (expression'.slotReport map).slots, slot.FindsArgument c.lenient
  | .call _ _ hcall => hcall.params.slots_findArguments _ rfl map
  | .invocation _ _ hcall => by
      rw [Expression.slotReport, List.forall_mem_append]
      exact ⟨Selector.slots_findArguments _ _ _ map, hcall.params.slots_findArguments _ rfl map⟩
  | .clause _ hinner hclause => by
      rw [Expression.slotReport, List.forall_mem_append]
      exact ⟨hinner.slots_findArguments map, hclause.slots_findArguments _ _ _⟩
  | .chain _ _ helements _ => helements.slots_findArguments _ (List.forall_mem_nil _)
  | .join _ hlhs _ hrhs _ => by
      rw [Expression.slotReport, List.forall_mem_append]
      exact ⟨hlhs.slots_findArguments map, hrhs.slots_findArguments _⟩

theorem AcceptsChain.slots_findArguments
    {scope : Scope} {depth : Nat} {isFirst : Bool} {elements elements' : List Expression}
    {schemas : List Signature} (before : SlotReport)
    (hbefore : ∀ slot ∈ before.slots, slot.FindsArgument c.lenient) :
    c.AcceptsChain scope depth isFirst elements elements' schemas →
      ∀ slot ∈ (Expression.slotReportOf elements' before).slots, slot.FindsArgument c.lenient
  | .nil => hbefore
  | .cons helement _ helements => by
      refine helements.slots_findArguments _ ?_
      exact List.forall_mem_append.mpr ⟨hbefore, helement.slots_findArguments _⟩

end

/-! ## Programs -/

theorem AcceptsStatements.slots_findArguments
    {scope : Scope} {statements statements' : List Statement} {schemas : List Signature}
    (h : c.AcceptsStatements scope statements statements' schemas) :
    ∀ slot ∈ statements'.flatMap (fun s => s.body.slots), slot.FindsArgument c.lenient := by
  induction h with
  | nil => exact List.forall_mem_nil _
  | cons hstatement _ ih =>
      rw [List.flatMap_cons, List.forall_mem_append]
      refine ⟨?_, ih⟩
      cases hstatement with
      | expression hbody | ret hbody | assign hbody => exact hbody.slots_findArguments []

/-- Every input that is passed to a call of a checked program is a slot that points at an input of
the signature of the call, of the same name and of a type that what is passed can be assigned to. -/
theorem check_slots_pointAtArguments
    {p : Program} {output : Input} {s : Session σ}
    (h : ((c.check (.program p)).runIn s).1 = .ok output) :
    ∃ q, output = .program q ∧
      ∀ slot ∈ q.slots, slot.kind = .inputParam →
        ∃ schema arg, slot.PointsAt c.lenient schema arg := by
  have haccepted : c.AcceptsInput (.program p) output := acceptsInput_of_check h
  cases haccepted with
  | program _ hstatements => exact ⟨_, rfl, hstatements.slots_findArguments⟩

/-- News about a topic that is still to be asked for, if there are any news about proofs. -/
def Digest.conditional : Program :=
  ⟨[], [],
    [.expression ⟨.clause {}
      (.invocation {}
        ⟨.device (.ofKind "com.news"), "search", [⟨"topic", .undefined false, none⟩], none, none⟩)
      (.filter (.external
        ⟨.device (.ofKind "com.news"), "search", [⟨"topic", .string "proofs", none⟩], none, none⟩
        (.atom none "title" "=~" (.string "Lean") none))), none⟩],
    none⟩

theorem conditional_slots_pointAtArguments :
    ∃ q asked given,
      ((Digest.checker.check (.program Digest.conditional)).runIn Digest.session).1 =
          .ok (.program q) ∧
        asked ∈ q.slots ∧ asked.owner.map Owner.kind = some .invocation ∧
        given ∈ q.slots ∧ given.owner.map Owner.kind = some .external ∧
        (∃ schema arg, asked.PointsAt false schema arg) ∧
        ∃ schema arg, given.PointsAt false schema arg := by
  obtain ⟨q, asked, given, h, hasked, haskedOwner, haskedKind, hgiven, hgivenOwner, hgivenKind⟩ :
      ∃ q asked given,
        ((Digest.checker.check (.program Digest.conditional)).runIn Digest.session).1 =
            .ok (.program q) ∧
          asked ∈ q.slots ∧ asked.owner.map Owner.kind = some .invocation ∧
          asked.kind = .inputParam ∧
          given ∈ q.slots ∧ given.owner.map Owner.kind = some .external ∧
          given.kind = .inputParam :=
    ⟨_, _, _, rfl, .head _, rfl, rfl, .tail _ (.head _), rfl, rfl⟩
  obtain ⟨_, hsame, hpoints⟩ := check_slots_pointAtArguments h
  obtain rfl := Input.program.inj hsame
  exact ⟨q, asked, given, h, hasked, haskedOwner, hgiven, hgivenOwner,
    hpoints asked hasked haskedKind, hpoints given hgiven hgivenKind⟩

end Checker

end SkillLang
