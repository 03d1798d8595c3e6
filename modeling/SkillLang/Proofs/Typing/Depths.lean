import SkillLang.Proofs.Typing.Visited

/-!
# Depths

A check counts how deep it is in an input.  Here the depth of a node is told by its place in the
tree alone: what is right below a value, a filter or an expression is one deeper, but for the
parameters of the call in a filter, which are two deeper.
-/

namespace SkillLang

namespace Node

/-- The node is one of those that are nested in one another. -/
def isNested : Node → Bool
  | .value _ | .filter _ | .expression _ => true
  | .program _ | .classDef _ | .function _ | .declaration _ | .statement _ | .permissionRule _
  | .permissionFunction _ | .control _ | .dialogue _ | .historyItem _ | .builtinSelector
  | .device _ | .param _ | .invocation _ => false

/-- How much deeper than a node the part of it is that is right below. -/
def descent (label part : Node) : Nat :=
  match label with
  | .value _ | .expression _ => 1
  | .filter _ =>
    match part with
    | .param _ => 2
    | _ => 1
  | _ => 0

theorem descent_le (label part : Node) :
    label.descent part ≤ 2 := by
  unfold descent
  split
  next => decide
  next => decide
  next =>
      split
      next => decide
      next => decide
  next => decide

theorem descent_of_not_nested
    {label : Node} (h : label.isNested = false) (part : Node) :
    label.descent part = 0 := by
  cases label with
  | value _ | filter _ | expression _ => cases h
  | _ => rfl

end Node

namespace Tree

def root : Tree → Node
  | node label _ => label

mutual
/-- The visited nodes of a tree whose root is at a depth, each with its own depth. -/
def depths (depth : Nat) : Tree → List (Node × Nat)
  | node label children =>
    (label, depth) :: if label.isDevice then [] else depthsOf label depth children

/-- The visited nodes of trees that are right below a node. -/
def depthsOf (parent : Node) (depth : Nat) : List Tree → List (Node × Nat)
  | [] => []
  | tree :: trees =>
    depths (depth + parent.descent tree.root) tree ++ depthsOf parent depth trees
end

mutual

theorem map_fst_depths (depth : Nat) :
    (t : Tree) → (t.depths depth).map Prod.fst = t.visited
  | node label children => by
      rw [depths, visited]
      cases hlabel : label.isDevice with
      | true => rfl
      | false => exact congrArg (label :: ·) (map_fst_depthsOf label depth children)

theorem map_fst_depthsOf (parent : Node) (depth : Nat) :
    (trees : List Tree) → (depthsOf parent depth trees).map Prod.fst = visitedOf trees
  | [] => rfl
  | tree :: trees => by
      rw [depthsOf, visitedOf, List.map_append, map_fst_depths, map_fst_depthsOf]

end

theorem mem_depthsOf
    {parent : Node} {depth : Nat} {trees : List Tree} {p : Node × Nat} :
    p ∈ depthsOf parent depth trees ↔
      ∃ t ∈ trees, p ∈ t.depths (depth + parent.descent t.root) := by
  induction trees with
  | nil => simp [depthsOf]
  | cons tree trees ih => simp [depthsOf, ih]

theorem root_mem_depths
    (t : Tree) (depth : Nat) :
    (t.root, depth) ∈ t.depths depth := by
  cases t
  exact List.mem_cons_self

/-- With its root at a depth, a tree has no nested node that is deeper than the limit. -/
def Fits (depth : Nat) (t : Tree) : Prop :=
  ∀ p ∈ t.depths depth, p.1.isNested = true → p.2 ≤ Limits.maxDepth

/-- With its root at a depth, a tree has a nested node right behind the limit, if it does not lie
as a whole behind that. -/
def Passes (depth : Nat) (t : Tree) : Prop :=
  Limits.maxDepth + 1 < depth ∨
    ∃ p ∈ t.depths depth, p.1.isNested = true ∧ p.2 = Limits.maxDepth + 1

/-- The parts of a node, each with its depth. -/
def parts (label : Node) (depth : Nat) (children : List Tree) : List (Nat × Tree) :=
  children.map fun t => (depth + label.descent t.root, t)

theorem fits_node
    {label : Node} (hlabel : label.isDevice = false) {depth : Nat} {children : List Tree} :
    (node label children).Fits depth ↔
      (label.isNested = true → depth ≤ Limits.maxDepth) ∧
        ∀ p ∈ parts label depth children, p.2.Fits p.1 := by
  simp only [Fits, depths, hlabel, Bool.false_eq_true, if_false, List.forall_mem_cons, parts,
    List.forall_mem_map, mem_depthsOf]
  refine and_congr_right fun _ => ?_
  constructor
  · intro h t ht p hp
    exact h p ⟨t, ht, hp⟩
  · rintro h p ⟨t, ht, hp⟩
    exact h t ht p hp

theorem depths_subset_of_part
    {label : Node} (hlabel : label.isDevice = false) {depth : Nat} {children : List Tree}
    {t : Tree} (ht : t ∈ children) :
    t.depths (depth + label.descent t.root) ⊆ (node label children).depths depth := by
  intro p hp
  rw [depths, hlabel]
  exact List.mem_cons_of_mem _ (mem_depthsOf.mpr ⟨t, ht, hp⟩)

/-- Where a part of a node is two deeper another one is one deeper, so that no depth is left
out on the way down. -/
theorem passes_of_part
    {label : Node} (hlabel : label.isDevice = false) {depth : Nat}
    (hdepth : depth ≤ Limits.maxDepth) {children : List Tree}
    (hgap : (∀ t ∈ children, label.descent t.root ≤ 1) ∨
      ∃ t ∈ children, t.root.isNested = true ∧ label.descent t.root = 1)
    {p : Nat × Tree} (hp : p ∈ parts label depth children) (hpass : p.2.Passes p.1) :
    (node label children).Passes depth := by
  obtain ⟨t, ht, rfl⟩ := List.mem_map.mp hp
  rcases hpass with hbeyond | ⟨q, hq, hnested, hq'⟩
  · -- The part is skipped over, so it is two deeper, and the node is at the limit.
    dsimp only at hbeyond
    have hle := label.descent_le t.root
    rcases hgap with hone | ⟨u, hu, hnested, hone⟩
    · have := hone t ht
      omega
    · refine .inr ⟨_, depths_subset_of_part hlabel hu (u.root_mem_depths _), hnested, ?_⟩
      dsimp only
      omega
  · exact .inr ⟨q, depths_subset_of_part hlabel ht hq, hnested, hq'⟩

theorem fits_of_not_nested
    {t : Tree} (h : t.Every fun label => label.isNested = false) (depth : Nat) :
    t.Fits depth := by
  intro p hp hnested
  rw [Every, ← map_fst_depths depth] at h
  exact absurd hnested (Bool.eq_false_iff.mp (h p.1 (List.mem_map_of_mem hp)))

end Tree

/-- The expressions, filters and values of an input that a check goes into, with their depths. -/
def Input.depths (input : Input) : List (Node × Nat) :=
  (input.visitedTree.depths 0).filter fun p => p.1.isNested

theorem Input.map_fst_depths
    (input : Input) :
    input.depths.map Prod.fst = input.visited.filter Node.isNested := by
  rw [Input.visited, ← Tree.map_fst_depths 0, List.filter_map]
  rfl

/-- The value of a parameter in a filter is two deeper, and the filter on the results one. -/
example :
    let call : Invocation := ⟨.builtin, "search", [⟨"topic", .string "Lean", none⟩], none, none⟩
    ((Filter.external call .always).tree.depths 0).map Prod.snd = [0, 1, 2, 2, 1] :=
  rfl

end SkillLang
