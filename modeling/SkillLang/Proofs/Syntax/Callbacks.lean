import Mathlib.Data.List.Nodup
import SkillLang.Proofs.Syntax.Parts
import SkillLang.Syntax.Trace

/-!
# Callbacks

A visitor is called when a node is entered, when it is visited and when it is left.  In
between come the calls for the parts of the node, if the visitor goes into it.  A visitor that
chooses by the node alone gets the calls of one that goes everywhere, apart from those for
nodes below a node that it has turned back at.
-/

namespace SkillLang

inductive Callback where
  | enter (n : Node)
  | visit (n : Node)
  | exit (n : Node)

namespace Callback

def node : Callback → Node
  | enter n | visit n | exit n => n

def isEnter : Callback → Bool
  | enter _ => true
  | visit _ | exit _ => false

end Callback

namespace Visitor

variable {σ : Type}

/-- The visitor with a record of its callbacks. -/
def recorded (v : Visitor σ) : Visitor (σ × List Callback) where
  enter n s := (v.enter n s.1, s.2 ++ [.enter n])
  visit n s := ((v.visit n s.1).1, (v.visit n s.1).2, s.2 ++ [.visit n])
  exit n s := (v.exit n s.1, s.2 ++ [.exit n])

/-- The callbacks on the way through a tree. -/
def callbacks (v : Visitor σ) (t : Tree) (s : σ) : List Callback :=
  (t.walk v.recorded (s, [])).2

/-- Goes into every node. -/
def everywhere : Visitor Unit where
  visit _ s := (true, s)

end Visitor

open Visitor

/-! ## The protocol -/

variable {σ : Type}

mutual

/-- A node is entered, visited and left, and its parts are gone through in between if the visitor
says so.  `Goes v n s steps after` leads from state `s` to state `after`. -/
inductive Visitor.Goes (v : Visitor σ) : Node → σ → List Callback → σ → Prop
  | into
      (hvisit : v.visit n (v.enter n s) = (true, inside))
      (hparts : GoesThrough v n.parts inside steps after) :
      Goes v n s (.enter n :: .visit n :: (steps ++ [.exit n])) (v.exit n after)
  | back
      (hvisit : v.visit n (v.enter n s) = (false, after)) :
      Goes v n s [.enter n, .visit n, .exit n] (v.exit n after)

inductive Visitor.GoesThrough (v : Visitor σ) : List Node → σ → List Callback → σ → Prop
  | nil : GoesThrough v [] s [] s
  | cons
      (hfirst : Goes v n s first next)
      (hrest : GoesThrough v ns next rest after) :
      GoesThrough v (n :: ns) s (first ++ rest) after

end

/-- The record follows the protocol and leaves the visitor alone. -/
def Visitor.IsRecorded (v : Visitor σ) (n : Node) : Prop :=
  ∀ s before, ∃ steps,
    n.tree.walk v.recorded (s, before) = (n.tree.walk v s, before ++ steps) ∧
      Goes v n s steps (n.tree.walk v s)

theorem Visitor.walkAll_recorded
    {v : Visitor σ} {ns : List Node} (h : ∀ n ∈ ns, IsRecorded v n) (s : σ)
    (before : List Callback) :
    ∃ steps,
      Tree.walkAll v.recorded (ns.map Node.tree) (s, before) =
          (Tree.walkAll v (ns.map Node.tree) s, before ++ steps) ∧
        GoesThrough v ns s steps (Tree.walkAll v (ns.map Node.tree) s) := by
  induction ns generalizing s before with
  | nil => exact ⟨[], by rw [List.append_nil]; rfl, .nil⟩
  | cons n ns ih =>
      obtain ⟨hn, hns⟩ := List.forall_mem_cons.mp h
      obtain ⟨first, hfirst, hgoes⟩ := hn s before
      obtain ⟨rest, hrest, hthrough⟩ := ih hns (n.tree.walk v s) (before ++ first)
      refine ⟨first ++ rest, ?_, .cons hgoes hthrough⟩
      rw [List.map_cons, Tree.walkAll, hfirst, hrest, Tree.walkAll, List.append_assoc]

theorem Visitor.isRecorded
    (v : Visitor σ) (n : Node) :
    IsRecorded v n := by
  induction n using Node.induction with
  | h n ih =>
      intro s before
      rw [Node.tree_eq]
      simp only [Tree.walk, Visitor.recorded]
      -- The record changes no answer, so that both visitors turn back at the same nodes.
      rcases hvisit : v.visit n (v.enter n s) with ⟨_ | _, inside⟩
      · exact ⟨_, by simp, .back hvisit⟩
      · obtain ⟨steps, hsteps, hthrough⟩ :=
          walkAll_recorded ih inside (before ++ [.enter n] ++ [.visit n])
        rw [Visitor.recorded] at hsteps
        simp only [hsteps]
        exact ⟨_, by simp, .into hvisit hthrough⟩

theorem Visitor.goes
    (v : Visitor σ) (n : Node) (s : σ) :
    n.tree.walk v.recorded (s, []) = (n.tree.walk v s, v.callbacks n.tree s) ∧
      Goes v n s (v.callbacks n.tree s) (n.tree.walk v s) := by
  obtain ⟨steps, hsteps, hgoes⟩ := isRecorded v n s []
  have hcallbacks : v.callbacks n.tree s = steps := by
    rw [callbacks, hsteps, List.nil_append]
  rw [hcallbacks]
  exact ⟨hsteps, hgoes⟩

/-! ## The schedule -/

/-- A callback and the address of its node. -/
structure Visitor.Step where
  address : List Nat
  callback : Callback

/-- The step below the part of an index. -/
def Visitor.Step.below (index : Nat) (step : Step) : Step :=
  ⟨index :: step.address, step.callback⟩

mutual

/-- All steps that there can be on the way through a tree, in their order. -/
def Tree.schedule : Tree → List Step
  | .node n children =>
    ⟨[], .enter n⟩ :: ⟨[], .visit n⟩ :: (Tree.scheduleFrom 0 children ++ [⟨[], .exit n⟩])

/-- The steps for the parts from an index on. -/
def Tree.scheduleFrom (index : Nat) : List Tree → List Step
  | [] => []
  | tree :: trees => tree.schedule.map (Step.below index) ++ Tree.scheduleFrom (index + 1) trees

end

/-- The address leads through a node that is refused, to a node below it. -/
def Node.isBelowRefused (choose : Node → Bool) (n : Node) (address : List Nat) : Bool :=
  (List.range address.length).any fun length =>
    match n.at? (address.take length) with
    | some above => !choose above
    | none => false

theorem Node.isBelowRefused_nil
    (choose : Node → Bool) (n : Node) :
    n.isBelowRefused choose [] = false :=
  rfl

theorem Node.isBelowRefused_cons
    (choose : Node → Bool) {n part : Node} {index : Nat} (hpart : n.parts[index]? = some part)
    (address : List Nat) :
    n.isBelowRefused choose (index :: address) =
      (!choose n || part.isBelowRefused choose address) := by
  rw [isBelowRefused, List.length_cons, List.range_succ_eq_map, List.any_cons, List.any_map]
  simp [Function.comp_def, at?, hpart, isBelowRefused]

/-- What is left of a schedule for a visitor that chooses by the node alone. -/
def Node.kept (choose : Node → Bool) (n : Node) (steps : List Step) : List Callback :=
  (steps.filter fun step => !n.isBelowRefused choose step.address).map Step.callback

theorem Node.kept_append
    (choose : Node → Bool) (n : Node) (steps rest : List Step) :
    n.kept choose (steps ++ rest) = n.kept choose steps ++ n.kept choose rest := by
  rw [kept, List.filter_append, List.map_append]
  rfl

/-- Nothing below a refused node is kept, and below other nodes what their parts keep. -/
theorem Node.kept_below
    (choose : Node → Bool) {n part : Node} {index : Nat} (hpart : n.parts[index]? = some part)
    (steps : List Step) :
    n.kept choose (steps.map (Step.below index)) =
      if choose n then part.kept choose steps else [] := by
  have hstep (step : Step) :
      n.isBelowRefused choose (step.below index).address =
        (!choose n || part.isBelowRefused choose step.address) :=
    isBelowRefused_cons choose hpart step.address
  rw [kept, List.filter_map, List.map_map]
  simp only [Function.comp_def, hstep]
  cases choose n with
  | true => simp [kept, Step.below]
  | false => simp

theorem Node.kept_scheduleFrom
    (choose : Node → Bool) (n : Node) {parts : List Node} {index : Nat}
    (hparts : ∀ k part, parts[k]? = some part → n.parts[index + k]? = some part) :
    n.kept choose (Tree.scheduleFrom index (parts.map Node.tree)) =
      if choose n then parts.flatMap fun part => part.kept choose part.tree.schedule else [] := by
  induction parts generalizing index with
  | nil => simp [Tree.scheduleFrom, kept]
  | cons part parts ih =>
      have hfirst : n.parts[index]? = some part := hparts 0 part rfl
      have hrest : ∀ k other, parts[k]? = some other → n.parts[index + 1 + k]? = some other := by
        intro k other hother
        rw [Nat.add_right_comm]
        exact hparts (k + 1) other hother
      rw [List.map_cons, Tree.scheduleFrom, kept_append, kept_below choose hfirst, ih hrest]
      cases choose n <;> simp

theorem Node.kept_schedule
    (choose : Node → Bool) (n : Node) :
    n.kept choose n.tree.schedule =
      .enter n :: .visit n ::
        ((if choose n then n.parts.flatMap fun part => part.kept choose part.tree.schedule
          else []) ++ [.exit n]) := by
  have hparts :
      n.kept choose (Tree.scheduleFrom 0 (n.parts.map Node.tree)) =
        if choose n then n.parts.flatMap fun part => part.kept choose part.tree.schedule
        else [] :=
    n.kept_scheduleFrom choose (by simp)
  rw [← hparts, tree_eq, Tree.schedule]
  simp [kept, isBelowRefused_nil]

section Choices

variable {v : Visitor σ} {choose : Node → Bool}

theorem Visitor.GoesThrough.eq_flatMap
    {ns : List Node} {s after : σ} {steps : List Callback} (h : GoesThrough v ns s steps after)
    (hns : ∀ n ∈ ns, ∀ {s steps after}, Goes v n s steps after →
      steps = n.kept choose n.tree.schedule) :
    steps = ns.flatMap fun n => n.kept choose n.tree.schedule := by
  induction ns generalizing s steps with
  | nil =>
      cases h
      rfl
  | cons n ns ih =>
      obtain ⟨hn, hns⟩ := List.forall_mem_cons.mp hns
      cases h with
      | cons hfirst hrest => rw [List.flatMap_cons, hn hfirst, ih hrest hns]

/-- The callbacks of a visitor that chooses by the node alone. -/
theorem Visitor.Goes.eq_kept
    (hchoose : ∀ n s, (v.visit n s).1 = choose n) (n : Node) :
    ∀ {s steps after}, Goes v n s steps after → steps = n.kept choose n.tree.schedule := by
  induction n using Node.induction with
  | h n ih =>
      intro s steps after h
      rw [Node.kept_schedule, ← hchoose n (v.enter n s)]
      cases h with
      | into hvisit hparts =>
          rw [hvisit, if_pos rfl, hparts.eq_flatMap ih]
      | back hvisit =>
          rw [hvisit, if_neg Bool.false_ne_true, List.nil_append]

end Choices

/-! ## Addresses -/

theorem Tree.mem_scheduleFrom
    {parts : List Node} {index : Nat} {step : Step} :
    step ∈ scheduleFrom index (parts.map Node.tree) ↔
      ∃ k, ∃ part : Node, parts[k]? = some part ∧
        ∃ inner ∈ part.tree.schedule, Step.below (index + k) inner = step := by
  induction parts generalizing index with
  | nil => simp [scheduleFrom]
  | cons part parts ih =>
      rw [List.map_cons, scheduleFrom, List.mem_append, List.mem_map, ih]
      constructor
      · rintro (hfirst | ⟨k, other, hother, hrest⟩)
        · exact ⟨0, part, rfl, hfirst⟩
        · rw [Nat.add_right_comm] at hrest
          exact ⟨k + 1, other, hother, hrest⟩
      · rintro ⟨_ | k, other, hother, hbelow⟩
        · cases hother
          exact .inl hbelow
        · rw [← Nat.add_assoc, Nat.add_right_comm] at hbelow
          exact .inr ⟨k, other, hother, hbelow⟩

theorem Node.mem_schedule
    {n : Node} {step : Step} :
    step ∈ n.tree.schedule ↔
      step = ⟨[], .enter n⟩ ∨ step = ⟨[], .visit n⟩ ∨ step = ⟨[], .exit n⟩ ∨
        ∃ index, ∃ part : Node, n.parts[index]? = some part ∧
          ∃ inner ∈ part.tree.schedule, Step.below index inner = step := by
  rw [tree_eq, Tree.schedule, List.mem_cons, List.mem_cons, List.mem_append,
    Tree.mem_scheduleFrom, List.mem_singleton]
  simp only [Nat.zero_add]
  rw [or_comm (a := ∃ _, _)]

theorem Node.at?_of_mem_schedule
    (n : Node) :
    ∀ step ∈ n.tree.schedule, n.at? step.address = some step.callback.node := by
  induction n using Node.induction with
  | h n ih =>
      intro step hstep
      rcases mem_schedule.mp hstep with rfl | rfl | rfl | ⟨index, part, hpart, inner, hinner, rfl⟩
      · rfl
      · rfl
      · rfl
      · rw [Step.below, at?, hpart, Option.bind_some]
        exact ih part (List.mem_of_getElem? hpart) inner hinner

/-- The addresses at which nodes are entered. -/
def Visitor.entered (steps : List Step) : List (List Nat) :=
  (steps.filter fun step => step.callback.isEnter).map Step.address

theorem Node.mem_entered
    (n : Node) :
    ∀ address, address ∈ entered n.tree.schedule ↔ (n.at? address).isSome = true := by
  induction n using Node.induction with
  | h n ih =>
      intro address
      simp only [entered, List.mem_map, List.mem_filter]
      constructor
      · rintro ⟨step, ⟨hstep, -⟩, rfl⟩
        rw [n.at?_of_mem_schedule step hstep]
        rfl
      · intro hsome
        cases address with
        | nil => exact ⟨⟨[], .enter n⟩, ⟨mem_schedule.mpr (.inl rfl), rfl⟩, rfl⟩
        | cons index address =>
            rw [at?] at hsome
            cases hpart : n.parts[index]? with
            | none =>
                rw [hpart] at hsome
                cases hsome
            | some part =>
                rw [hpart] at hsome
                obtain ⟨step, hstep, rfl⟩ :=
                  List.mem_map.mp ((ih part (List.mem_of_getElem? hpart) address).mpr hsome)
                obtain ⟨hstep, henter⟩ := List.mem_filter.mp hstep
                refine ⟨step.below index, ⟨mem_schedule.mpr ?_, henter⟩, rfl⟩
                exact .inr (.inr (.inr ⟨index, part, hpart, step, hstep, rfl⟩))

theorem Visitor.entered_append
    (steps rest : List Step) :
    entered (steps ++ rest) = entered steps ++ entered rest := by
  rw [entered, List.filter_append, List.map_append]
  rfl

theorem Visitor.entered_below
    (index : Nat) (steps : List Step) :
    entered (steps.map (Step.below index)) = (entered steps).map (index :: ·) := by
  rw [entered, List.filter_map, List.map_map, entered, List.map_map]
  rfl

theorem Tree.mem_entered_scheduleFrom
    {trees : List Tree} {index : Nat} {address : List Nat}
    (h : address ∈ entered (scheduleFrom index trees)) :
    ∃ first rest, index ≤ first ∧ address = first :: rest := by
  induction trees generalizing index with
  | nil => cases h
  | cons tree trees ih =>
      rw [scheduleFrom, entered_append, entered_below, List.mem_append, List.mem_map] at h
      rcases h with ⟨rest, -, rfl⟩ | hrest
      · exact ⟨index, rest, le_rfl, rfl⟩
      · obtain ⟨first, rest, hle, rfl⟩ := ih hrest
        exact ⟨first, rest, Nat.le_of_succ_le hle, rfl⟩

theorem Tree.nodup_entered_scheduleFrom
    {trees : List Tree} (h : ∀ tree ∈ trees, (entered tree.schedule).Nodup) (index : Nat) :
    (entered (scheduleFrom index trees)).Nodup := by
  induction trees generalizing index with
  | nil => exact List.nodup_nil
  | cons tree trees ih =>
      obtain ⟨htree, htrees⟩ := List.forall_mem_cons.mp h
      rw [scheduleFrom, entered_append, entered_below]
      refine List.Nodup.append (htree.map List.cons_injective) (ih htrees (index + 1)) ?_
      intro address hfirst hrest
      obtain ⟨_, -, rfl⟩ := List.mem_map.mp hfirst
      obtain ⟨first, rest, hle, heq⟩ := mem_entered_scheduleFrom hrest
      cases heq
      exact Nat.not_succ_le_self index hle

theorem Node.nodup_entered
    (n : Node) :
    (entered n.tree.schedule).Nodup := by
  induction n using Node.induction with
  | h n ih =>
      have hparts := Tree.nodup_entered_scheduleFrom (List.forall_mem_map.mpr ih) 0
      have hentered :
          entered n.tree.schedule =
            [] :: entered (Tree.scheduleFrom 0 (n.parts.map Node.tree)) := by
        rw [tree_eq, Tree.schedule]
        simp [entered, Callback.isEnter]
      rw [hentered]
      refine List.nodup_cons.mpr ⟨?_, hparts⟩
      intro hmem
      obtain ⟨first, rest, -, heq⟩ := Tree.mem_entered_scheduleFrom hmem
      cases heq

/-! ## Inputs -/

theorem Node.isBelowRefused_true
    (n : Node) (address : List Nat) :
    n.isBelowRefused (fun _ => true) address = false := by
  rw [isBelowRefused, List.any_eq_false]
  intro length _
  split <;> exact Bool.false_ne_true

/-- A visitor that goes everywhere gets all of the schedule. -/
theorem Node.callbacks_everywhere
    (n : Node) :
    Visitor.everywhere.callbacks n.tree () = n.tree.schedule.map Step.callback := by
  have hchoose : ∀ n s, (Visitor.everywhere.visit n s).1 = (fun _ => true) n := fun _ _ => rfl
  rw [Goes.eq_kept hchoose n (Visitor.everywhere.goes n ()).2, kept]
  simp [isBelowRefused_true]

/-- The protocol of visitors.  Whatever a visitor does, each node is entered and visited, then its
parts are gone through in order exactly if the visitor has said so, and then the node is left.  A
visitor that chooses by the node alone gets the callbacks of one that goes everywhere, apart from
those for proper descendants of refused nodes; and going everywhere enters every node once.  Classes
show their queries before their actions, each in the order of their names. -/
theorem Input.walk_follows_protocol
    (input : Input) (v : Visitor σ) (s : σ) :
    let tree := input.tree
    tree.walk v.recorded (s, []) = (tree.walk v s, v.callbacks tree s) ∧
    Goes v input.node s (v.callbacks tree s) (tree.walk v s) ∧
    (∀ choose : Node → Bool, (∀ n s, (v.visit n s).1 = choose n) →
      v.callbacks tree s =
        (tree.schedule.filter fun step =>
          !input.node.isBelowRefused choose step.address).map Step.callback) ∧
    Visitor.everywhere.callbacks tree () = tree.schedule.map Step.callback ∧
    (∀ step ∈ tree.schedule, input.node.at? step.address = some step.callback.node) ∧
    (entered tree.schedule).Nodup ∧
    (∀ address, address ∈ entered tree.schedule ↔ (input.node.at? address).isSome = true) ∧
    (∀ c : ClassDef, c.IsBuilt →
      (Node.classDef c).parts = (c.queries.values ++ c.actions.values).map .function ∧
        (c.queries.values.map Signature.name).Pairwise (· < ·) ∧
          (c.actions.values.map Signature.name).Pairwise (· < ·)) := by
  intro tree
  have htree : tree = input.node.tree := input.tree_eq
  obtain ⟨hrecord, hgoes⟩ := v.goes input.node s
  rw [htree]
  refine ⟨hrecord, hgoes, ?_, input.node.callbacks_everywhere, input.node.at?_of_mem_schedule,
    input.node.nodup_entered, input.node.mem_entered, ?_⟩
  · intro choose hchoose
    exact Goes.eq_kept hchoose input.node hgoes
  · intro c hc
    obtain ⟨hqueries, hactions⟩ := hc.inOrder
    exact ⟨rfl, hqueries.pairwise_names, hactions.pairwise_names⟩

/-! ### A mail -/

namespace Mail

/-- A mail is sent to somebody. -/
def input : Input :=
  .program ⟨[], [], [.expression ⟨.invocation {} ⟨.device (.ofKind "com.mail"), "send",
    [⟨"to", .string "ann", none⟩], none, none⟩, none⟩], none⟩

/-- Calls are not looked into. -/
def choose (n : Node) : Bool :=
  !(["invocation"].contains n.title.visited)

def callbacks : List Callback :=
  (tracer ["invocation"]).callbacks input.tree #[]

end Mail

theorem mail_follows_protocol :
    (∀ n s, ((tracer ["invocation"]).visit n s).1 = Mail.choose n) ∧
      (ClassDef.empty "com.mail").IsBuilt ∧
      Mail.callbacks = (Mail.input.tree.schedule.filter fun step =>
        !Mail.input.node.isBelowRefused Mail.choose step.address).map Step.callback ∧
      Mail.callbacks.map (fun c => c.node.title.name) =
        ["Program", "Program", "ExpressionStatement", "ExpressionStatement",
          "InvocationExpression", "InvocationExpression", "Invocation", "Invocation",
          "Invocation", "InvocationExpression", "ExpressionStatement", "Program"] := by
  obtain ⟨-, -, hkept, -⟩ := Mail.input.walk_follows_protocol (tracer ["invocation"]) #[]
  have hchoose : ∀ n s, ((tracer ["invocation"]).visit n s).1 = Mail.choose n := fun _ _ => rfl
  exact ⟨hchoose, .start _ _ _, hkept Mail.choose hchoose, by decide⟩

end SkillLang
