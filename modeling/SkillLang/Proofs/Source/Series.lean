import SkillLang.Proofs.Source.Separators
import SkillLang.Source.Value

/-!
# Series of operands

Operands with operators between them are a series.  How tightly its operators hold together
tells which operands belong together: a series falls apart at its loosest operator, at the last
one of several except for powers.
-/

namespace SkillLang

open TokenTree

/-- A first operand, and the others with the operators in front of them. -/
structure Series (α : Type) where
  first : α
  rest : List (String × α)

def infixOperators : List String :=
  ["+", "-", "*", "/", "%", "**"]

/-- How tightly an operator holds its operands together. -/
def operatorRank (op : String) : Nat :=
  ((infixPriority? op).map Priority.rank).getD Priority.primary.rank

theorem operatorRank_eq
    {op : String} {p : Priority} (h : infixPriority? op = some p) :
    operatorRank op = p.rank := by
  rw [operatorRank, h]
  rfl

theorem mem_infixOperators
    {op : String} {p : Priority} (h : infixPriority? op = some p) :
    op ∈ infixOperators := by
  unfold infixPriority? at h
  split at h <;> first | decide | cases h

theorem operatorRank_lt
    {op : String} (h : op ∈ infixOperators) :
    operatorRank op < Priority.not.rank := by
  revert op
  decide

/-! ## Series of token trees -/

namespace Series

def restTrees (rest : List (String × List TokenTree)) : List TokenTree :=
  rest.flatMap fun next => word next.1 :: next.2

def trees (s : Series (List TokenTree)) : List TokenTree :=
  s.first ++ restTrees s.rest

/-- No operand has an operator outside of brackets. -/
structure IsProper (s : Series (List TokenTree)) : Prop where
  first : Avoids infixOperators s.first
  rest : ∀ next ∈ s.rest, next.1 ∈ infixOperators ∧ Avoids infixOperators next.2

def ofTrees : List TokenTree → Series (List TokenTree)
  | [] => ⟨[], []⟩
  | t :: ts =>
    let s := ofTrees ts
    match t.mark? infixOperators with
    | some op => ⟨[], (op, s.first) :: s.rest⟩
    | none => ⟨t :: s.first, s.rest⟩

theorem ofTrees_append
    {operand : List TokenTree} (h : Avoids infixOperators operand) (ts : List TokenTree) :
    ofTrees (operand ++ ts) = ⟨operand ++ (ofTrees ts).first, (ofTrees ts).rest⟩ := by
  induction operand with
  | nil => rfl
  | cons t operand ih =>
      rw [avoids_cons] at h
      rw [List.cons_append, ofTrees, h.1, ih h.2]
      rfl

theorem ofTrees_restTrees
    {rest : List (String × List TokenTree)}
    (h : ∀ next ∈ rest, next.1 ∈ infixOperators ∧ Avoids infixOperators next.2) :
    ofTrees (restTrees rest) = ⟨[], rest⟩ := by
  induction rest with
  | nil => rfl
  | cons next rest ih =>
      rw [List.forall_mem_cons] at h
      have htrees : restTrees (next :: rest) = word next.1 :: (next.2 ++ restTrees rest) := by
        rw [restTrees, List.flatMap_cons]
        rfl
      rw [htrees, ofTrees, mark?_of_mem rfl h.1.1, ofTrees_append h.1.2, ih h.2]
      dsimp only
      rw [List.append_nil]

theorem ofTrees_trees
    {s : Series (List TokenTree)} (h : s.IsProper) :
    ofTrees s.trees = s := by
  rw [trees, ofTrees_append h.first, ofTrees_restTrees h.rest, List.append_nil]

/-- The series with the operands read. -/
def mapM? {α β : Type} (f : α → Option β) (s : Series α) : Option (Series β) := do
  let first ← f s.first
  let rest ← s.rest.mapM fun next => (f next.2).map fun operand => (next.1, operand)
  return ⟨first, rest⟩

theorem rest_eq_nil_of_mapM?
    {α β : Type} {f : α → Option β} {s : Series α} {values : Series β}
    (h : s.mapM? f = some values) (hvalues : values.rest = []) :
    s.rest = [] := by
  simp only [mapM?, Option.bind_eq_bind, Option.bind_eq_some_iff, Option.pure_def] at h
  obtain ⟨first, -, rest, hrest, h⟩ := h
  cases h
  cases hvalues
  cases hs : s.rest with
  | nil => rfl
  | cons next more =>
      rw [hs, List.mapM_cons] at hrest
      simp [Option.bind_eq_some_iff] at hrest

theorem mapM?_append
    {α β : Type} {f : α → Option β} {s t : Series α} {s' t' : Series β}
    (hs : s.mapM? f = some s') (ht : t.mapM? f = some t') (op : String) :
    mapM? f ⟨s.first, s.rest ++ (op, t.first) :: t.rest⟩ =
      some ⟨s'.first, s'.rest ++ (op, t'.first) :: t'.rest⟩ := by
  simp only [mapM?, Option.bind_eq_bind, Option.bind_eq_some_iff, Option.pure_def] at hs ht ⊢
  obtain ⟨first, hfirst, rest, hrest, hs⟩ := hs
  obtain ⟨next, hnext, more, hmore, ht⟩ := ht
  cases hs
  cases ht
  refine ⟨first, hfirst, rest ++ (op, next) :: more, ?_, rfl⟩
  rw [List.mapM_append, List.mapM_cons, hrest, hmore, hnext]
  rfl

end Series

/-! ## What belongs together -/

section Cuts

variable {α : Type}

/-- The parts of a list before and after the last operand with one of some operators. -/
def cutLastOperator? (ops : List String) :
    List (String × α) → Option (List (String × α) × (String × α) × List (String × α))
  | [] => none
  | next :: rest =>
    match cutLastOperator? ops rest with
    | some (before, found, after) => some (next :: before, found, after)
    | none => if ops.contains next.1 then some ([], next, rest) else none

theorem cutLastOperator?_eq_none
    {ops : List String} {rest : List (String × α)} (h : ∀ next ∈ rest, next.1 ∉ ops) :
    cutLastOperator? ops rest = none := by
  induction rest with
  | nil => rfl
  | cons next rest ih =>
      rw [List.forall_mem_cons] at h
      rw [cutLastOperator?, ih h.2]
      exact if_neg (mt List.contains_iff_mem.mp h.1)

theorem cutLastOperator?_append
    {ops : List String} {next : String × α} (hnext : next.1 ∈ ops) {after : List (String × α)}
    (h : ∀ later ∈ after, later.1 ∉ ops) (before : List (String × α)) :
    cutLastOperator? ops (before ++ next :: after) = some (before, next, after) := by
  induction before with
  | nil =>
      rw [List.nil_append, cutLastOperator?, cutLastOperator?_eq_none h]
      exact if_pos (List.contains_iff_mem.mpr hnext)
  | cons earlier before ih => rw [List.cons_append, cutLastOperator?, ih]

theorem length_of_cutLastOperator?
    {ops : List String} {rest before after : List (String × α)} {next : String × α}
    (h : cutLastOperator? ops rest = some (before, next, after)) :
    before.length + after.length + 1 = rest.length := by
  induction rest generalizing before with
  | nil => cases h
  | cons first rest ih =>
      rw [cutLastOperator?] at h
      split at h
      next before' found after' hcut =>
          cases h
          have := ih hcut
          simp only [List.length_cons]
          omega
      next =>
          split at h
          next =>
              cases h
              simp
          next => cases h

/-- The place where a series falls apart. -/
def loosest? (rest : List (String × α)) :
    Option (List (String × α) × (String × α) × List (String × α)) :=
  match cutLastOperator? ["+", "-"] rest with
  | some cut => some cut
  | none =>
    match cutLastOperator? ["*", "/", "%"] rest with
    | some cut => some cut
    | none =>
      match rest with
      | [] => none
      | next :: rest => some ([], next, rest)

theorem length_of_loosest?
    {rest before after : List (String × α)} {next : String × α}
    (h : loosest? rest = some (before, next, after)) :
    before.length + after.length + 1 = rest.length := by
  unfold loosest? at h
  split at h
  next hcut =>
      cases h
      exact length_of_cutLastOperator? hcut
  next =>
      split at h
      next hcut =>
          cases h
          exact length_of_cutLastOperator? hcut
      next =>
          cases rest with
          | nil => cases h
          | cons first rest =>
              cases h
              simp

end Cuts

/-- The computation that a series stands for. -/
def associate (first : Value) (rest : List (String × Value)) : Value :=
  match _h : loosest? rest with
  | none => first
  | some (before, next, after) =>
    .computation next.1 [associate first before, associate next.2 after] none none
termination_by rest.length
decreasing_by
  all_goals
    have := length_of_loosest? _h
    omega

theorem associate_nil
    (first : Value) :
    associate first [] = first := by
  rw [associate]
  rfl

theorem associate_of_loosest?
    {first : Value} {rest before after : List (String × Value)} {next : String × Value}
    (h : loosest? rest = some (before, next, after)) :
    associate first rest =
      .computation next.1 [associate first before, associate next.2 after] none none := by
  rw [associate]
  split
  next hnone =>
      rw [h] at hnone
      cases hnone
  next hsome =>
      rw [h] at hsome
      cases hsome
      rfl

theorem not_mem_of_operatorRank
    {ops : List String} {n : Nat} (hops : ∀ op ∈ ops, operatorRank op < n) {op : String}
    (h : n ≤ operatorRank op) :
    op ∉ ops :=
  fun hmem => absurd (hops op hmem) (Nat.not_lt.mpr h)

/-- Nothing in the series holds less tightly than a number. -/
def IsTight (n : Nat) {α : Type} (rest : List (String × α)) : Prop :=
  ∀ next ∈ rest, next.1 ∈ infixOperators ∧ n ≤ operatorRank next.1

section IsTight

variable {α : Type} {n : Nat} {before after rest : List (String × α)} {next : String × α}

theorem IsTight.not_mem
    (h : IsTight n rest) {ops : List String} (hops : ∀ op ∈ ops, operatorRank op < n) :
    ∀ next ∈ rest, next.1 ∉ ops :=
  fun next hnext => not_mem_of_operatorRank hops (h next hnext).2

theorem IsTight.eq_nil
    (h : IsTight n rest) (hn : Priority.not.rank ≤ n) :
    rest = [] := by
  rw [List.eq_nil_iff_forall_not_mem]
  intro next hnext
  obtain ⟨hmem, hrank⟩ := h next hnext
  exact absurd (operatorRank_lt hmem) (Nat.not_lt.mpr (Nat.le_trans hn hrank))

theorem IsTight.mono
    (h : IsTight n rest) {m : Nat} (hm : m ≤ n) :
    IsTight m rest :=
  fun next hnext => ⟨(h next hnext).1, Nat.le_trans hm (h next hnext).2⟩

theorem loosest?_additive
    (hop : next.1 ∈ ["+", "-"]) (hafter : IsTight Priority.mul.rank after)
    (before : List (String × α)) :
    loosest? (before ++ next :: after) = some (before, next, after) := by
  unfold loosest?
  rw [cutLastOperator?_append hop (hafter.not_mem (by decide))]

theorem loosest?_multiplicative
    (hop : next.1 ∈ ["*", "/", "%"]) (hbefore : IsTight Priority.mul.rank before)
    (hafter : IsTight Priority.exp.rank after) :
    loosest? (before ++ next :: after) = some (before, next, after) := by
  have hnone : cutLastOperator? ["+", "-"] (before ++ next :: after) = none := by
    refine cutLastOperator?_eq_none ?_
    rw [List.forall_mem_append, List.forall_mem_cons]
    refine ⟨hbefore.not_mem (by decide), ?_, hafter.not_mem (by decide)⟩
    revert hop
    generalize next.1 = op
    revert op
    decide
  unfold loosest?
  rw [hnone]
  dsimp only
  rw [cutLastOperator?_append hop (hafter.not_mem (by decide))]

theorem loosest?_power
    (hop : next.1 = "**") (hafter : IsTight Priority.exp.rank after) :
    loosest? (next :: after) = some ([], next, after) := by
  have hnone (ops : List String) (hops : ∀ op ∈ ops, operatorRank op < Priority.exp.rank) :
      cutLastOperator? ops (next :: after) = none := by
    refine cutLastOperator?_eq_none ?_
    rw [List.forall_mem_cons]
    refine ⟨not_mem_of_operatorRank hops ?_, hafter.not_mem hops⟩
    rw [hop]
    decide
  unfold loosest?
  rw [hnone _ (by decide)]
  dsimp only
  rw [hnone _ (by decide)]

end IsTight

/-- The priority that the left operand of an operator needs, and the one that the right operand
needs. -/
def operandPriorities (op : String) (p : Priority) : Priority × Priority :=
  if op = "**" then (p.tighter, p) else (p, p.tighter)

theorem rank_le_operandPriorities
    (op : String) (p : Priority) :
    p.rank ≤ (operandPriorities op p).1.rank ∧ p.rank ≤ (operandPriorities op p).2.rank := by
  have htighter : p.rank ≤ p.tighter.rank := by
    cases p <;> decide
  unfold operandPriorities
  split
  next => exact ⟨htighter, Nat.le_refl _⟩
  next => exact ⟨Nat.le_refl _, htighter⟩

/-- A series falls apart at the operator that it was put together with. -/
theorem associate_append
    {op : String} {p : Priority} (hop : infixPriority? op = some p) {first next : Value}
    {before after : List (String × Value)}
    (hbefore : IsTight (operandPriorities op p).1.rank before)
    (hafter : IsTight (operandPriorities op p).2.rank after) :
    associate first (before ++ (op, next) :: after) =
      .computation op [associate first before, associate next after] none none := by
  suffices h : loosest? (before ++ (op, next) :: after) = some (before, (op, next), after) from
    associate_of_loosest? h
  unfold infixPriority? at hop
  split at hop
  · cases hop
    exact loosest?_additive (List.contains_iff_mem.mp rfl) hafter before
  · cases hop
    exact loosest?_additive (List.contains_iff_mem.mp rfl) hafter before
  · cases hop
    exact loosest?_multiplicative (List.contains_iff_mem.mp rfl) hbefore hafter
  · cases hop
    exact loosest?_multiplicative (List.contains_iff_mem.mp rfl) hbefore hafter
  · cases hop
    exact loosest?_multiplicative (List.contains_iff_mem.mp rfl) hbefore hafter
  · cases hop
    rw [hbefore.eq_nil (by decide)]
    exact loosest?_power rfl hafter
  · cases hop

end SkillLang
