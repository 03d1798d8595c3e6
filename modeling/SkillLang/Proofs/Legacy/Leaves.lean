import SkillLang.Legacy.Source
import SkillLang.Proofs.Source.Reader

/-!
# The leaves of legacy trees

The values and filters in tables and streams of which nothing but one token is written.  Some of
them are written alike: a hole for the user and one for the program, a variable whatever its type,
and a condition that always holds and the conjunction of none.  What is read where such a leaf
stands is written the same.
-/

namespace SkillLang

open TokenTree TokenStream

namespace Legacy

/-- The words and signs between the parts of tables and streams. -/
def keywords : List String :=
  [",", ":", "=", ".", "of", "as", "on", "new", "join", "edge", "monitor", "compute", "aggregate",
    "sort"]

/-- The token can be written for a leaf.  A reference to a context is more than one token. -/
def isLeafToken : Token → Bool
  | .literal w => Token.isPlain (.literal w) && !keywords.contains w
  | .constant _ => true
  | .layout _ => false

end Legacy

/-! ## Values -/

/-- The value is written as one token. -/
def Value.isOneToken (v : Value) : Bool :=
  match v.source.toList with
  | [t] => Legacy.isLeafToken t
  | _ => false

/-- The value that is read from the token of a value. -/
def Value.readBack (v : Value) : Value :=
  match v.source.toList with
  | [.literal w] => readWord w
  | [.constant c] => c.value
  | _ => v

/-- A word is written for what is read from it. -/
theorem source_readWord
    (w : String) :
    (readWord w).source.toList = [.literal w] := by
  unfold readWord
  split
  next =>
      split
      next htrue =>
          rw [htrue]
          rfl
      next =>
          split
          next hfalse =>
              rw [hfalse]
              rfl
          next => rfl
  next rest hrest =>
      have hw := eq_append_of_afterPrefix? hrest
      split
      next name htime =>
          rw [hw, eq_append_of_afterPrefix? htime, ← String.append_assoc]
          rfl
      next name hplace =>
          rw [hw, eq_append_of_afterPrefix? hplace, ← String.append_assoc]
          rfl
      next =>
          rw [hw]
          split
          next hundefined =>
              rw [hundefined]
              rfl
          next =>
              split
              next hnow =>
                  rw [hnow]
                  rfl
              next =>
                  split
                  next hresult =>
                      rw [hresult]
                      rfl
                  next => rfl

theorem op_mem_computationSource
    (op : String) (operands : List (Priority × TokenStream)) :
    .literal op ∈ (computationSource op operands).toList := by
  unfold computationSource
  split
  next => split <;> simp [literal]
  next => simp [literal]

theorem not_constant_of_mem
    {ts : List Token} {w : String} (h : .literal w ∈ ts) (c : Constant) :
    ts ≠ [.constant c] := by
  rintro rfl
  rw [List.mem_singleton] at h
  cases h

theorem Value.toList_source_ne_nil
    (v : Value) :
    v.source.toList ≠ [] := by
  cases v with
  | place p => cases p <;> exact List.cons_ne_nil _ _
  | time t => cases t <;> exact List.cons_ne_nil _ _
  | date d => cases d <;> simp [Value.source, DateValue.source, Value.constant, literal]
  | boolean b => cases b <;> exact List.cons_ne_nil _ _
  | computation op operands _ _ =>
      rw [Value.source]
      exact List.ne_nil_of_mem (op_mem_computationSource op _)
  | _ => simp [Value.source, Value.constant, argMapSource, literal]

/-- A constant is written only for itself. -/
theorem value_of_source_constant
    {v : Value} {c : Constant} (h : v.source.toList = [.constant c]) :
    c.value = v := by
  cases v with
  | string _ | number _ | measure _ _ | currency _ _ | entity _ =>
      cases h
      rfl
  | place p =>
      cases p with
      | absolute _ _ _ | unresolved _ =>
          cases h
          rfl
      | relative _ => cases h
  | time t =>
      cases t with
      | absolute _ _ _ =>
          cases h
          rfl
      | relative _ => cases h
  | date d =>
      cases d with
      | absolute _ =>
          cases h
          rfl
      | now => cases h
      | edge e _ => cases e <;> simp [Value.source, DateValue.source, literal] at h
      | piece _ _ _ _ | weekday _ _ => simp [Value.source, DateValue.source, literal] at h
  | boolean b => cases b <;> cases h
  | computation op operands _ _ =>
      rw [Value.source] at h
      exact absurd h (not_constant_of_mem (op_mem_computationSource op _) c)
  | filtered _ _ _ =>
      have hmem : .literal "filter" ∈ (Value.filtered ‹_› ‹_› ‹_›).source.toList := by
        simp [Value.source, literal]
      exact absurd h (not_constant_of_mem hmem c)
  | _ => simp [Value.source, argMapSource, literal] at h

/-- What is read where a value stands is written like the value. -/
theorem Value.source_readBack
    (v : Value) :
    v.readBack.source.toList = v.source.toList := by
  unfold Value.readBack
  split
  next w hw => rw [hw, source_readWord]
  next c hc => rw [value_of_source_constant hc]
  next => rfl

/-! ## Filters -/

/-- The filter is written as one token. -/
def Filter.isOneToken (f : Filter) : Bool :=
  match f.source.toList with
  | [t] => Legacy.isLeafToken t
  | _ => false

/-- The filter that is read from the token of a filter. -/
def Filter.readBack (f : Filter) : Filter :=
  match f.source.toList with
  | [.literal w] => if w = "true" then .always else .never
  | _ => f

section Parens

variable {s : TokenStream}

theorem toList_parens_ne_nil
    (needed actual : Priority) (h : s.toList ≠ []) :
    (parens needed actual s).toList ≠ [] := by
  unfold parens
  split
  next => simp [literal]
  next => exact h

/-- One token does not stand in parentheses. -/
theorem toList_eq_of_parens
    {needed actual : Priority} {t : Token} (h : (parens needed actual s).toList = [t]) :
    s.toList = [t] := by
  unfold parens at h
  split at h
  next => simp [literal] at h
  next => exact h

theorem toList_join_cons
    {parts : List TokenStream} (h : ∀ part ∈ s :: parts, part.toList ≠ [])
    (separator : TokenStream) :
    (join (s :: parts) separator).toList =
      s.toList ++ (parts.flatMap fun part => separator.toList ++ part.toList) := by
  rw [toList_join h]
  induction parts generalizing s with
  | nil => rw [List.intersperse_singleton, List.flatMap_singleton, List.flatMap_nil,
      List.append_nil]
  | cons next parts ih =>
      rw [List.forall_mem_cons] at h
      rw [List.intersperse_cons_cons, List.flatMap_cons, List.flatMap_cons, ih h.2,
        List.flatMap_cons, List.append_assoc]

theorem toList_join_ne_nil
    {parts : List TokenStream} (h : ∀ part ∈ s :: parts, part.toList ≠ [])
    (separator : TokenStream) :
    (join (s :: parts) separator).toList ≠ [] := by
  rw [toList_join_cons h]
  exact List.append_ne_nil_of_left_ne_nil (List.forall_mem_cons.mp h).1 _

/-- Parts of which one token is written are a single part. -/
theorem toList_eq_of_join
    {parts : List TokenStream} (h : ∀ part ∈ s :: parts, part.toList ≠ []) {w : String} {t : Token}
    (ht : (join (s :: parts) (literal w)).toList = [t]) :
    parts = [] ∧ s.toList = [t] := by
  have hs : s.toList ≠ [] := (List.forall_mem_cons.mp h).1
  rw [toList_join_cons h] at ht
  obtain ⟨u, us, hus⟩ := List.exists_cons_of_ne_nil hs
  cases parts with
  | nil => exact ⟨rfl, by rwa [List.flatMap_nil, List.append_nil] at ht⟩
  | cons next parts => simp [hus, literal] at ht

end Parens

theorem toList_literal_ne_nil
    (w : String) :
    (literal w).toList ≠ [] :=
  List.cons_ne_nil _ _

/-- A comparison is more than one token. -/
theorem two_le_length_comparisonSource
    {lhs : TokenStream} (h : lhs.toList ≠ []) (lhsPriority : Priority) (op : String)
    (rhsPriority : Priority) (rhs : TokenStream) :
    2 ≤ (comparisonSource lhsPriority lhs op rhsPriority rhs).toList.length := by
  unfold comparisonSource
  split
  next =>
      have hlhs := List.length_pos_iff.mpr (toList_parens_ne_nil .add lhsPriority h)
      simp only [toList_ofParts, List.flatMap_cons, List.length_append, literal, toList_token,
        List.length_singleton]
      omega
  next => simp [literal]

mutual

theorem Filter.toList_source_ne_nil :
    (f : Filter) → f.source.toList ≠ []
  | .always | .never => List.cons_ne_nil _ _
  | .conj _ [] | .disj _ [] => List.cons_ne_nil _ _
  | .conj _ (operand :: operands) =>
      toList_join_ne_nil (Filter.toList_sources_ne_nil .and (operand :: operands)) "&&"
  | .disj _ (operand :: operands) =>
      toList_join_ne_nil (Filter.toList_sources_ne_nil .or (operand :: operands)) "||"
  | .atom _ _ op _ _ =>
      List.ne_nil_of_length_pos (Nat.zero_lt_of_lt
        (two_le_length_comparisonSource (toList_literal_ne_nil _) _ op _ _))
  | .compute _ lhs op _ _ =>
      List.ne_nil_of_length_pos (Nat.zero_lt_of_lt
        (two_le_length_comparisonSource lhs.toList_source_ne_nil _ op _ _))
  | .neg _ _ | .dontCare _ _ => by simp [Filter.source, literal]
  | .external _ _ => by
      rw [Filter.source]
      split <;> simp [literal]

theorem Filter.toList_sources_ne_nil :
    (needed : Priority) → (operands : List Filter) →
      ∀ part ∈ Filter.sources needed operands, part.toList ≠ []
  | _, [] => List.forall_mem_nil _
  | needed, operand :: operands => by
      rw [Filter.sources, List.forall_mem_cons]
      exact ⟨toList_parens_ne_nil _ _ operand.toList_source_ne_nil,
        Filter.toList_sources_ne_nil needed operands⟩

end

/-- A filter of one token is one of the two constants. -/
theorem Filter.token_of_source :
    (f : Filter) → {t : Token} → f.source.toList = [t] → t = .literal "true" ∨ t = .literal "false"
  | .always, _, h => .inl (List.cons.inj h).1.symm
  | .never, _, h => .inr (List.cons.inj h).1.symm
  | .conj _ [], _, h => .inl (List.cons.inj h).1.symm
  | .disj _ [], _, h => .inr (List.cons.inj h).1.symm
  | .conj _ (operand :: operands), t, h => by
      have hparts := Filter.toList_sources_ne_nil .and (operand :: operands)
      obtain ⟨-, hoperand⟩ := toList_eq_of_join hparts h
      exact operand.token_of_source (toList_eq_of_parens hoperand)
  | .disj _ (operand :: operands), t, h => by
      have hparts := Filter.toList_sources_ne_nil .or (operand :: operands)
      obtain ⟨-, hoperand⟩ := toList_eq_of_join hparts h
      exact operand.token_of_source (toList_eq_of_parens hoperand)
  | .neg _ operand, _, h => by
      have hoperand := toList_parens_ne_nil .not operand.priority operand.toList_source_ne_nil
      simp [Filter.source, literal, hoperand] at h
  | .atom _ name op value _, _, h => by
      have hlength := two_le_length_comparisonSource (toList_literal_ne_nil name) .primary op
        value.priority value.source
      rw [Filter.source] at h
      rw [h] at hlength
      cases Nat.lt_irrefl _ hlength
  | .compute _ lhs op rhs _, _, h => by
      have hlength := two_le_length_comparisonSource lhs.toList_source_ne_nil lhs.priority op
        rhs.priority rhs.source
      rw [Filter.source] at h
      rw [h] at hlength
      cases Nat.lt_irrefl _ hlength
  | .dontCare _ _, _, h => by simp [Filter.source, literal] at h
  | .external _ _, _, h => by
      rw [Filter.source] at h
      split at h <;> simp [literal] at h

/-- What is read where a filter stands is written like the filter. -/
theorem Filter.source_readBack
    (f : Filter) :
    f.readBack.source.toList = f.source.toList := by
  unfold Filter.readBack
  split
  next w hw =>
      obtain hw' | hw' := f.token_of_source hw
      · cases hw'
        rw [hw]
        rfl
      · cases hw'
        rw [hw]
        rfl
  next => rfl

end SkillLang
