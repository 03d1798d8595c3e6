import Mathlib.Data.List.Basic
import SkillLang.Syntax.Tree

/-!
# Executable trees

The finder of what is still to be asked for turns back only where it has found something,
so that it misses no node: a tree is executable if and only if none of its nodes is
undefined.
-/

namespace SkillLang

namespace Tree

theorem nodesOf_eq_flatMap
    (trees : List Tree) :
    nodesOf trees = trees.flatMap nodes := by
  induction trees with
  | nil => rfl
  | cons tree trees ih => rw [nodesOf, ih, List.flatMap_cons]

mutual

theorem walk_undefinedFinder
    (t : Tree) (found : Bool) :
    t.walk undefinedFinder found = (found || t.nodes.any Node.isUndefined) := by
  cases t with
  | node label children =>
      have hchildren := walkAll_undefinedFinder children
      simp only [walk, undefinedFinder] at hchildren ⊢
      cases hlabel : label.isUndefined with
      | true => simp [nodes, hlabel]
      | false => simp [hchildren, nodes, hlabel]
termination_by structural t

theorem walkAll_undefinedFinder
    (trees : List Tree) (found : Bool) :
    walkAll undefinedFinder trees found = (found || (nodesOf trees).any Node.isUndefined) := by
  cases trees with
  | nil => simp [walkAll, nodesOf]
  | cons tree trees =>
      rw [walkAll, walkAll_undefinedFinder trees, walk_undefinedFinder tree]
      simp [nodesOf, Bool.or_assoc]
termination_by structural trees

end

/-- A tree is executable if nothing in it is undefined. -/
theorem isExecutable_iff
    (t : Tree) :
    t.isExecutable = true ↔ ∀ label ∈ t.nodes, label.isUndefined = false := by
  unfold isExecutable
  rw [walk_undefinedFinder]
  simp

/-- A tree is executable if its node is no undefined value and all trees below are executable. -/
theorem isExecutable_node
    (label : Node) (children : List Tree) :
    (node label children).isExecutable = true ↔
      label.isUndefined = false ∧ ∀ child ∈ children, child.isExecutable = true := by
  simp only [isExecutable_iff, nodes, nodesOf_eq_flatMap, List.forall_mem_cons,
    List.forall_mem_flatMap]

end Tree

end SkillLang
