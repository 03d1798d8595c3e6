import SkillLang.Proofs.Slots.Frame
import SkillLang.Proofs.Syntax.Executable
import SkillLang.Proofs.Syntax.Parts

/-!
# Slots and holes

A slot has a value as a whole, and what is still to be asked for may also stand inside of a
value or in a declared function, where no slot reports it.  There is nothing else: a program
is executable if and only if the values of its slots and its declared functions are.
-/

namespace SkillLang

/-! ## Expressions -/

theorem Value.forall_mem_trees
    (values : List Value) :
    (∀ t ∈ Value.trees values, t.isExecutable = true) ↔
      ∀ v ∈ values, v.tree.isExecutable = true := by
  rw [Value.trees_eq_map, List.forall_mem_map]

theorem Param.forall_mem_trees
    (params : List Param) :
    (∀ t ∈ Param.trees params, t.isExecutable = true) ↔
      ∀ v ∈ params.map Param.value, v.tree.isExecutable = true := by
  rw [Param.trees_eq_map, List.forall_mem_map, List.forall_mem_map]
  simp only [Tree.isExecutable_node, Node.isUndefined, true_and, List.forall_mem_singleton]

theorem Selector.isExecutable_iff
    (s : Selector) :
    s.tree.isExecutable = true ↔ ∀ v ∈ s.slotValues, v.tree.isExecutable = true := by
  cases s with
  | builtin => simp [Selector.tree, Tree.isExecutable_node, Node.isUndefined, Selector.slotValues]
  | device d =>
      obtain ⟨kind, id, attributes, all, range⟩ := d
      simp only [Selector.tree, Device.tree, Tree.isExecutable_node, Param.forall_mem_trees]
      simp [Node.isUndefined, Selector.slotValues]

theorem Invocation.forall_mem_partTrees
    (i : Invocation) :
    (∀ t ∈ i.partTrees, t.isExecutable = true) ↔
      ∀ v ∈ i.selector.slotValues ++ i.params.map Param.value, v.tree.isExecutable = true := by
  obtain ⟨selector, channel, params, range, schema⟩ := i
  rw [Invocation.partTrees, List.forall_mem_cons, List.forall_mem_append,
    Selector.isExecutable_iff, Param.forall_mem_trees]

mutual

theorem Filter.isExecutable_iff :
    (f : Filter) →
      (f.tree.isExecutable = true ↔ ∀ v ∈ f.slotValues, v.tree.isExecutable = true)
  | .conj _ operands | .disj _ operands => by
      simp [Filter.tree, Tree.isExecutable_node, Node.isUndefined, Filter.slotValues,
        Filter.forall_mem_trees operands]
  | .neg _ operand => by
      simp [Filter.tree, Tree.isExecutable_node, Node.isUndefined, Filter.slotValues,
        Filter.isExecutable_iff operand]
  | .atom _ _ _ _ _ | .compute _ _ _ _ _ | .dontCare _ _ | .always | .never => by
      simp [Filter.tree, Tree.isExecutable_node, Node.isUndefined, Filter.slotValues]
  | .external call test => by
      simp only [Filter.tree, Tree.isExecutable_node, Filter.slotValues, List.forall_mem_append,
        List.forall_mem_singleton, Invocation.forall_mem_partTrees, Filter.isExecutable_iff test]
      simp [Node.isUndefined]

theorem Filter.forall_mem_trees :
    (fs : List Filter) →
      ((∀ t ∈ Filter.trees fs, t.isExecutable = true) ↔
        ∀ v ∈ Filter.slotValuesOf fs, v.tree.isExecutable = true)
  | [] => by simp [Filter.trees, Filter.slotValuesOf]
  | f :: fs => by
      rw [Filter.trees, Filter.slotValuesOf, List.forall_mem_cons, List.forall_mem_append,
        Filter.isExecutable_iff f, Filter.forall_mem_trees fs]

end

theorem Clause.forall_mem_trees
    (c : Clause) :
    (∀ t ∈ c.trees, t.isExecutable = true) ↔
      ∀ v ∈ c.slotValues, v.tree.isExecutable = true := by
  cases c with
  | filter f | question f =>
      simp [Clause.trees, Clause.slotValues, Filter.isExecutable_iff]
  | monitor _ | named _ | aggregation _ _ _ =>
      simp [Clause.trees, Clause.slotValues, Clause.scalars]
  | projection _ values _ | index values => exact Value.forall_mem_trees values
  | selection elements =>
      have hvalues :
          (Clause.selection elements).slotValues = elements.flatMap Selected.slotValues :=
        Clause.scalars_selection elements
      rw [hvalues, Clause.trees, List.forall_mem_flatMap, List.forall_mem_flatMap]
      refine forall₂_congr fun element _ => ?_
      obtain ⟨column, label, types⟩ := element
      cases column <;> simp [Column.trees, Selected.slotValues]
  | sort _ _ | slice _ _ => simp [Clause.trees, Clause.slotValues, Clause.scalars]

mutual

/-- An expression is executable if the values of its slots are. -/
theorem Expression.isExecutable_iff :
    (e : Expression) →
      (e.tree.isExecutable = true ↔ ∀ v ∈ e.slotValues, v.tree.isExecutable = true)
  | .call _ _ params => by
      simp only [Expression.tree, Tree.isExecutable_node, Expression.slotValues,
        Param.forall_mem_trees]
      simp [Node.isUndefined]
  | .invocation _ i => by
      simp only [Expression.tree, Invocation.tree, Tree.isExecutable_node, Expression.slotValues,
        List.forall_mem_singleton, Invocation.forall_mem_partTrees]
      simp [Node.isUndefined]
  | .clause _ inner c => by
      simp only [Expression.tree, Tree.isExecutable_node, Expression.slotValues,
        List.forall_mem_cons, List.forall_mem_append, Clause.forall_mem_trees,
        Expression.isExecutable_iff inner]
      simp [Node.isUndefined]
  | .chain _ elements => by
      simp only [Expression.tree, Tree.isExecutable_node, Expression.slotValues,
        Expression.forall_mem_trees elements]
      simp [Node.isUndefined]
  | .join _ lhs rhs => by
      simp only [Expression.tree, Tree.isExecutable_node, Expression.slotValues,
        List.forall_mem_cons, List.forall_mem_append, Expression.isExecutable_iff lhs,
        Expression.isExecutable_iff rhs]
      simp [Node.isUndefined]

theorem Expression.forall_mem_trees :
    (es : List Expression) →
      ((∀ t ∈ Expression.trees es, t.isExecutable = true) ↔
        ∀ v ∈ Expression.slotValuesOf es, v.tree.isExecutable = true)
  | [] => by simp [Expression.trees, Expression.slotValuesOf]
  | e :: es => by
      rw [Expression.trees, Expression.slotValuesOf, List.forall_mem_cons, List.forall_mem_append,
        Expression.isExecutable_iff e, Expression.forall_mem_trees es]

end

/-! ## Programs -/

theorem ClassDef.isExecutable
    (c : ClassDef) :
    c.tree.isExecutable = true := by
  rw [ClassDef.tree, Tree.isExecutable_node, List.forall_mem_map]
  refine ⟨rfl, fun s _ => ?_⟩
  rw [Tree.isExecutable_node]
  exact ⟨rfl, List.forall_mem_nil _⟩

theorem Statement.isExecutable_iff
    (s : Statement) :
    s.tree.isExecutable = true ↔ ∀ slot ∈ s.body.slots, slot.value.tree.isExecutable = true := by
  rw [Statement.tree, Tree.isExecutable_node, List.forall_mem_singleton,
    Expression.isExecutable_iff, ← Expression.map_value_slots s.body [], List.forall_mem_map]
  exact and_iff_right rfl

theorem Program.isExecutable_iff
    (p : Program) :
    p.tree.isExecutable = true ↔
      (∀ d ∈ p.declarations, d.tree.isExecutable = true) ∧
        ∀ slot ∈ p.slots, slot.value.tree.isExecutable = true := by
  simp only [Program.tree, Tree.isExecutable_node, Node.isUndefined, List.forall_mem_append,
    List.forall_mem_map, ClassDef.isExecutable, Statement.isExecutable_iff, Program.slots,
    List.forall_mem_flatMap, implies_true, true_and]

theorem Slot.isUndefined_eq_false
    {slot : Slot} (h : slot.value.tree.isExecutable = true) :
    slot.isUndefined = false := by
  obtain ⟨kind, name, value, arg, owner, scope⟩ := slot
  cases value with
  | undefined _ =>
      rw [Value.tree, Tree.isExecutable_node] at h
      cases h.1
  | _ => rfl

/-- A program is executable if nothing is left to be asked for in its declared functions and in
the values of its slots.  So no slot of an executable program is undefined, and where nothing
else is left to be asked for than the values of whole slots, it is enough that none of them is
undefined. -/
theorem Program.isExecutable_iff_slots
    (p : Program) :
    (p.tree.isExecutable = true ↔
        (∀ d ∈ p.declarations, d.tree.isExecutable = true) ∧
          ∀ slot ∈ p.slots, slot.value.tree.isExecutable = true) ∧
      (p.tree.isExecutable = true → ∀ slot ∈ p.slots, slot.isUndefined = false) ∧
      ((∀ d ∈ p.declarations, d.tree.isExecutable = true) →
        (∀ slot ∈ p.slots, slot.isUndefined = true ∨ slot.value.tree.isExecutable = true) →
        (p.tree.isExecutable = true ↔ ∀ slot ∈ p.slots, slot.isUndefined = false)) := by
  have hdefined : p.tree.isExecutable = true → ∀ slot ∈ p.slots, slot.isUndefined = false := by
    intro h slot hslot
    exact Slot.isUndefined_eq_false ((p.isExecutable_iff.mp h).2 slot hslot)
  refine ⟨p.isExecutable_iff, hdefined, fun hdeclared hwhole => ⟨hdefined, fun hnone => ?_⟩⟩
  refine p.isExecutable_iff.mpr ⟨hdeclared, fun slot hslot => ?_⟩
  refine (hwhole slot hslot).resolve_left ?_
  rw [hnone slot hslot]
  exact Bool.false_ne_true

/-! ### Mails -/

def Expression.mailTo (recipient : Value) : Expression :=
  .invocation {} ⟨.device (.ofKind "com.mail"), "send", [⟨"to", recipient, none⟩], none, none⟩

/-- A mail is sent, and a function is declared by which another one can be sent. -/
def Program.mailing (declared sent : Value) : Program :=
  ⟨[], [⟨"remind", [], [.expression (.of (.mailTo declared))], none, none⟩],
    [.expression (.of (.mailTo sent))], none⟩

/-- A hole inside of the value of a slot and a hole in a declared function are not reported. -/
theorem Program.holes_not_reported :
    let list := Program.mailing (.string "ann") (.array [.undefined true] none)
    let later := Program.mailing (.undefined true) (.string "ann")
    ¬ (list.tree.isExecutable = true ↔ ∀ slot ∈ list.slots, slot.isUndefined = false) ∧
      ¬ (later.tree.isExecutable = true ↔ ∀ slot ∈ later.slots, slot.isUndefined = false) := by
  decide

theorem Program.mailing_isExecutable_iff_slots :
    let p := Program.mailing (.string "ann") (.undefined true)
    (∀ d ∈ p.declarations, d.tree.isExecutable = true) ∧
      (∀ slot ∈ p.slots, slot.isUndefined = true ∨ slot.value.tree.isExecutable = true) ∧
      (p.tree.isExecutable = true ↔ ∀ slot ∈ p.slots, slot.isUndefined = false) := by
  intro p
  have hdeclared : ∀ d ∈ p.declarations, d.tree.isExecutable = true := by decide
  have hwhole :
      ∀ slot ∈ p.slots, slot.isUndefined = true ∨ slot.value.tree.isExecutable = true := by
    decide
  exact ⟨hdeclared, hwhole, p.isExecutable_iff_slots.2.2 hdeclared hwhole⟩

end SkillLang
