import SkillLang.Syntax.Tree

/-!
# Visited nodes

A checker goes into every part of an input but two: the attributes of devices, which it
reads as they are, and the results in a dialogue.  What is left are the nodes that it
visits, with the rules for saying something about all of them.
-/

namespace SkillLang

def Node.isDevice : Node → Bool
  | .device _ => true
  | _ => false

namespace Tree

mutual
/-- The nodes of a tree without those below a device. -/
def visited : Tree → List Node
  | node label children =>
    if label.isDevice then [label] else label :: visitedOf children

def visitedOf : List Tree → List Node
  | [] => []
  | tree :: trees => visited tree ++ visitedOf trees
end

/-- All visited nodes have a property. -/
def Every (P : Node → Prop) (t : Tree) : Prop :=
  ∀ label ∈ t.visited, P label

def EveryOf (P : Node → Prop) (trees : List Tree) : Prop :=
  ∀ label ∈ visitedOf trees, P label

variable {P : Node → Prop}

@[simp] theorem everyOf_nil :
    EveryOf P [] := by
  intro label hlabel
  simp [visitedOf] at hlabel

@[simp] theorem everyOf_cons
    (tree : Tree) (trees : List Tree) :
    EveryOf P (tree :: trees) ↔ tree.Every P ∧ EveryOf P trees := by
  simp only [EveryOf, Every, visitedOf, List.forall_mem_append]

@[simp] theorem everyOf_append
    (left right : List Tree) :
    EveryOf P (left ++ right) ↔ EveryOf P left ∧ EveryOf P right := by
  induction left with
  | nil => simp
  | cons tree left ih => simp [ih, and_assoc]

theorem everyOf_iff
    (trees : List Tree) :
    EveryOf P trees ↔ ∀ tree ∈ trees, tree.Every P := by
  induction trees with
  | nil => simp
  | cons tree trees ih => simp [ih]

theorem everyOf_flatMap
    {α : Type} (f : α → List Tree) (xs : List α) :
    EveryOf P (xs.flatMap f) ↔ ∀ x ∈ xs, EveryOf P (f x) := by
  induction xs with
  | nil => simp
  | cons x xs ih => simp [ih]

/-- A device hides what is below it. -/
@[simp] theorem every_device
    (d : Device) (children : List Tree) :
    (node (.device d) children).Every P ↔ P (.device d) := by
  simp [Every, visited, Node.isDevice]

theorem every_node
    {label : Node} (hlabel : label.isDevice = false) (children : List Tree) :
    (node label children).Every P ↔ P label ∧ EveryOf P children := by
  simp [Every, EveryOf, visited, hlabel]

theorem Every.below
    {label : Node} {children : List Tree} (h : (node label children).Every P)
    (hlabel : label.isDevice = false) :
    EveryOf P children :=
  ((every_node hlabel children).mp h).2

theorem everyOf_classes
    (hclass : ∀ d, P (.classDef d)) (hfunction : ∀ s, P (.function s)) (classes : List ClassDef) :
    EveryOf P (classes.map ClassDef.tree) := by
  rw [everyOf_iff, List.forall_mem_map]
  intro d _
  refine (every_node rfl _).mpr ⟨hclass d, ?_⟩
  rw [everyOf_iff, List.forall_mem_map]
  intro s _
  exact (every_node rfl []).mpr ⟨hfunction s, everyOf_nil⟩

end Tree

/-- The item without its results. -/
def HistoryItem.withoutResults (item : HistoryItem) : HistoryItem :=
  { item with results := none, confirmed_of_results := by simp }

/-- The tree of an input without the results of dialogues. -/
def Input.visitedTree : Input → Tree
  | .dialogue s =>
    DialogueState.tree { s with history := s.history.map HistoryItem.withoutResults }
  | input => input.tree

/-- The nodes of an input that a check goes into: all but those in the attributes of devices and
in the results of dialogues. -/
def Input.visited (input : Input) : List Node :=
  input.visitedTree.visited

end SkillLang
