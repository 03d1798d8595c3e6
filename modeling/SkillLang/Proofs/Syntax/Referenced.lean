import SkillLang.Proofs.Typing.Visited

/-!
# Referenced functions

The collector of functions never turns back, so it meets every node of a tree in order,
and what it has at the end are the functions that the nodes call or speak about.  The
nodes that a checker visits are some of these, so that whatever is known of all
referenced functions is known of theirs.
-/

namespace SkillLang.Tree

mutual

theorem walk_functionCollector
    (t : Tree) (names : Array String) :
    (t.walk functionCollector names).toList =
      names.toList ++ t.nodes.filterMap Node.referenced? := by
  cases t with
  | node label children =>
      have hchildren := walkAll_functionCollector children
      simp only [walk, functionCollector] at hchildren ⊢
      cases hname : label.referenced? with
      | none => simp [hchildren, nodes, hname]
      | some name => simp [hchildren, nodes, hname]
termination_by structural t

theorem walkAll_functionCollector
    (trees : List Tree) (names : Array String) :
    (walkAll functionCollector trees names).toList =
      names.toList ++ (nodesOf trees).filterMap Node.referenced? := by
  cases trees with
  | nil => simp [walkAll, nodesOf]
  | cons tree trees =>
      rw [walkAll, walkAll_functionCollector trees, walk_functionCollector tree]
      simp [nodesOf]
termination_by structural trees

end

theorem referencedFunctions_eq (t : Tree) :
    t.referencedFunctions = t.nodes.filterMap Node.referenced? := by
  unfold referencedFunctions
  rw [walk_functionCollector]
  simp

mutual

theorem visited_subset_nodes
    (t : Tree) : t.visited ⊆ t.nodes := by
  cases t with
  | node label children =>
      have hchildren := visitedOf_subset_nodesOf children
      unfold visited nodes
      split
      · exact List.cons_subset_cons label (List.nil_subset _)
      · exact List.cons_subset_cons label hchildren
termination_by structural t

theorem visitedOf_subset_nodesOf
    (trees : List Tree) : visitedOf trees ⊆ nodesOf trees := by
  cases trees with
  | nil => exact List.Subset.refl _
  | cons tree trees =>
      intro label hlabel
      simp only [visitedOf, nodesOf, List.mem_append] at hlabel ⊢
      rcases hlabel with hlabel | hlabel
      · exact .inl (visited_subset_nodes tree hlabel)
      · exact .inr (visitedOf_subset_nodesOf trees hlabel)
termination_by structural trees

end

/-- What holds of all referenced functions holds of those that are visited. -/
theorem every_of_referencedFunctions
    {Q : String → Prop} {t : Tree} (h : ∀ name ∈ t.referencedFunctions, Q name) :
    t.Every fun label => ∀ name, label.referenced? = some name → Q name := by
  intro label hlabel name hname
  apply h
  rw [referencedFunctions_eq, List.mem_filterMap]
  exact ⟨label, visited_subset_nodes t hlabel, hname⟩

end SkillLang.Tree
