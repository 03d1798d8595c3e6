import Mathlib.Data.List.Forall2
import SkillLang.Proofs.Source.Stream

/-!
# Reading streams

A reader comes upon the tokens of a stream one by one, with a stack and without
recursion.  What it has not come upon yet can be read off its stack, and every turn
either takes the first of these tokens away or leaves all of them.  So what it comes upon
is the list of tokens that the stream stands for, whichever way the stream was put
together and however often a part of it is used.

A reader does not look for tokens in order to know whether a stream is empty.  It need
not, because no operation keeps an empty part.
-/

namespace SkillLang.TokenStream

/-! ## What is on a stack -/

def Frame.tokens : Frame → List Token
  | .stream s => s.toList
  | .parts rest => rest.flatMap toList

/-- The tokens that a reader has not come upon yet. -/
def pending (stack : List Frame) : List Token :=
  stack.flatMap Frame.tokens

@[simp] theorem pending_cons
    (frame : Frame) (stack : List Frame) :
    pending (frame :: stack) = frame.tokens ++ pending stack :=
  List.flatMap_cons

@[simp] theorem pending_enter
    (s : TokenStream) (stack : List Frame) :
    pending (s.enter stack) = s.toList ++ pending stack := by
  unfold enter
  cases hempty : s.isEmpty with
  | true =>
      rw [eq_empty_of_isEmpty hempty]
      rfl
  | false => rfl

/-- A turn takes at most the first token away, and that is the one that it comes upon. -/
theorem pending_turn
    (frame : Frame) (stack : List Frame) :
    pending (frame :: stack) = (turn frame stack).1.toList ++ pending (turn frame stack).2 := by
  match frame with
  | .stream empty | .stream (token _) | .parts [] => rfl
  | .stream (concat parts) => simp [turn, Frame.tokens, toList_concat]
  | .parts (part :: rest) => simp [turn, Frame.tokens]

/-! ## Whole readings -/

theorem next?_eq_none
    {stack : List Frame} (h : next? stack = none) :
    pending stack = [] := by
  fun_induction next? stack with
  | case1 => rfl
  | case2 => cases h
  | case3 frame stack rest hturn ih =>
      have hpending := pending_turn frame stack
      rw [hturn] at hpending
      rw [hpending]
      exact ih h

theorem next?_eq_some
    {stack rest : List Frame} {t : Token} (h : next? stack = some (t, rest)) :
    pending stack = t :: pending rest := by
  fun_induction next? stack with
  | case1 => cases h
  | case2 frame stack t rest hturn =>
      cases h
      have hpending := pending_turn frame stack
      rw [hturn] at hpending
      exact hpending
  | case3 frame stack middle hturn ih =>
      have hpending := pending_turn frame stack
      rw [hturn] at hpending
      rw [hpending]
      exact ih h

theorem drain_eq_pending
    (stack : List Frame) :
    drain stack = pending stack := by
  fun_induction drain stack with
  | case1 stack hnext => rw [next?_eq_none hnext]
  | case2 stack t rest hnext ih => rw [next?_eq_some hnext, ih]

@[simp] theorem read_eq_toList
    (s : TokenStream) :
    s.read = s.toList := by
  rw [read, drain_eq_pending, pending_enter]
  exact List.append_nil _

/-- Two readers agree if what they have not come upon yet is equal token by token. -/
theorem agree_iff
    (left right : List Frame) :
    agree left right = true ↔
      List.Forall₂ (fun t u => (t == u) = true) (pending left) (pending right) := by
  fun_induction agree left right with
  | case1 left right hleft =>
      rw [next?_eq_none hleft, List.forall₂_nil_left_iff]
      cases hright : next? right with
      | none => simp [next?_eq_none hright]
      | some found => simp [next?_eq_some hright]
  | case2 left right t left' hleft hright =>
      simp [next?_eq_some hleft, next?_eq_none hright]
  | case3 left right t left' hleft u right' hright ih =>
      rw [next?_eq_some hleft, next?_eq_some hright, List.forall₂_cons, Bool.and_eq_true, ih]

theorem beq_iff
    (left right : TokenStream) :
    (left == right) = true ↔
      List.Forall₂ (fun t u => (t == u) = true) left.toList right.toList := by
  change agree (left.enter []) (right.enter []) = true ↔ _
  rw [agree_iff, pending_enter, pending_enter]
  simp [pending]

/-! ## Emptiness -/

/-- Concatenations have at least two parts, and no part of them is empty. -/
inductive IsTrim : TokenStream → Prop
  | empty : IsTrim empty
  | token (t : Token) : IsTrim (token t)
  | concat
      (hlength : 2 ≤ parts.length)
      (hfull : ∀ part ∈ parts, part.isEmpty = false)
      (hparts : ∀ part ∈ parts, IsTrim part) :
      IsTrim (concat parts)

theorem IsTrim.toList_ne_nil
    {s : TokenStream} (h : s.IsTrim) (hfull : s.isEmpty = false) :
    s.toList ≠ [] := by
  induction h with
  | empty => cases hfull
  | token t => simp
  | @concat parts hlength hparts _ ih =>
      obtain ⟨part, hpart⟩ := List.exists_mem_of_length_pos (Nat.lt_of_lt_of_le Nat.two_pos hlength)
      rw [toList_concat, Ne, List.flatMap_eq_nil_iff]
      intro hnil
      exact ih part hpart (hparts part hpart) (hnil part hpart)

theorem IsTrim.isEmpty_iff
    {s : TokenStream} (h : s.IsTrim) :
    s.isEmpty = true ↔ s.toList = [] := by
  cases hempty : s.isEmpty with
  | true => simp [eq_empty_of_isEmpty hempty]
  | false => simp [h.toList_ne_nil hempty]

theorem isTrim_ofParts
    {parts : List TokenStream} (h : ∀ part ∈ parts, part.IsTrim) :
    (ofParts parts).IsTrim := by
  have hkept : ∀ part ∈ parts.filter fun part => !part.isEmpty,
      part.isEmpty = false ∧ part.IsTrim := by
    intro part hpart
    obtain ⟨hmem, hfull⟩ := List.mem_filter.mp hpart
    exact ⟨by simpa using hfull, h part hmem⟩
  unfold ofParts
  split
  next => exact .empty
  next part hsingle => exact (hkept part (by simp [hsingle])).2
  next hempty hsingle =>
      refine .concat ?_ (fun part hpart => (hkept part hpart).1)
        fun part hpart => (hkept part hpart).2
      match hparts : parts.filter fun part => !part.isEmpty with
      | [] => exact absurd hparts hempty
      | [part] => exact absurd hparts (hsingle part)
      | _ :: _ :: _ => simp [hparts]

theorem mem_or_eq_of_mem_intersperse
    {part separator : TokenStream} {parts : List TokenStream}
    (h : part ∈ parts.intersperse separator) :
    part ∈ parts ∨ part = separator := by
  match parts with
  | [] | [_] => exact .inl h
  | first :: second :: rest =>
      rw [List.intersperse_cons_cons, List.mem_cons, List.mem_cons] at h
      rcases h with rfl | rfl | h
      · exact .inl List.mem_cons_self
      · exact .inr rfl
      · exact (mem_or_eq_of_mem_intersperse h).imp_left (List.mem_cons_of_mem first)

theorem isTrim_join
    {parts : List TokenStream} {separator : TokenStream} (h : ∀ part ∈ parts, part.IsTrim)
    (hseparator : separator.IsTrim) :
    (join parts separator).IsTrim := by
  refine isTrim_ofParts ?_
  intro part hpart
  rcases mem_or_eq_of_mem_intersperse hpart with hmem | rfl
  · exact h part (List.mem_of_mem_filter hmem)
  · exact hseparator

/-! ## Streams that are put together -/

/-- The streams that can be put together.  A stream may be used as a part any number of times. -/
inductive IsBuilt : TokenStream → Prop
  | empty : IsBuilt empty
  | token (t : Token) : IsBuilt (token t)
  | ofParts (hparts : ∀ part ∈ parts, IsBuilt part) : IsBuilt (ofParts parts)
  | join (hparts : ∀ part ∈ parts, IsBuilt part) (hseparator : IsBuilt separator) :
      IsBuilt (join parts separator)
  | andThen (hfirst : IsBuilt first) (hsecond : IsBuilt second) : IsBuilt (first.andThen second)

theorem IsBuilt.isTrim
    {s : TokenStream} (h : s.IsBuilt) :
    s.IsTrim := by
  induction h with
  | empty => exact .empty
  | token t => exact .token t
  | ofParts _ ih => exact isTrim_ofParts ih
  | join _ _ ih hseparator => exact isTrim_join ih hseparator
  | andThen _ _ hfirst hsecond => exact isTrim_ofParts (by simp [hfirst, hsecond])

theorem flatMap_toList_intersperse
    (parts : List TokenStream) (separator : TokenStream) :
    (parts.intersperse separator).flatMap toList =
      separator.toList.intercalate (parts.map toList) := by
  match parts with
  | [] | [_] => rfl
  | first :: second :: rest =>
      have hrest := flatMap_toList_intersperse (second :: rest) separator
      rw [List.intercalate] at hrest ⊢
      rw [List.intersperse_cons_cons, List.flatMap_cons, List.flatMap_cons, hrest]
      rfl

theorem toList_join_of_isTrim
    {parts : List TokenStream} (h : ∀ part ∈ parts, part.IsTrim) (separator : TokenStream) :
    (join parts separator).toList =
      separator.toList.intercalate
        ((parts.map toList).filter fun tokens => !tokens.isEmpty) := by
  have hfull : (parts.map toList).filter (fun tokens => !tokens.isEmpty) =
      (parts.filter fun part => !part.isEmpty).map toList := by
    rw [List.filter_map]
    congr 1
    apply List.filter_congr
    intro part hpart
    rw [Function.comp_apply, Bool.not_inj_iff, Bool.eq_iff_iff, List.isEmpty_iff,
      (h part hpart).isEmpty_iff]
  rw [join, toList_ofParts, hfull, flatMap_toList_intersperse]

/-- What a reader comes upon in a stream that was put together from parts are the tokens of the
parts from left to right.  A separator stands whole between two parts that have tokens, and
nowhere else.  A stream is known to be empty exactly if there is nothing to come upon, and two
streams are equal exactly if their tokens are. -/
theorem read_isFaithful :
    read empty = [] ∧
    (∀ t, read (token t) = [t]) ∧
    (∀ parts, read (ofParts parts) = parts.flatMap read) ∧
    (∀ parts separator, (∀ part ∈ parts, part.IsBuilt) →
      read (join parts separator) =
        (read separator).intercalate
          ((parts.map read).filter fun tokens => !tokens.isEmpty)) ∧
    (∀ first second, read (first.andThen second) = read first ++ read second) ∧
    (∀ s, s.IsBuilt → (s.isEmpty = true ↔ read s = [])) ∧
    ∀ left right, (left == right) = true ↔
      List.Forall₂ (fun t u => (t == u) = true) (read left) (read right) := by
  have hread : read = toList := funext read_eq_toList
  rw [hread]
  refine ⟨toList_empty, toList_token, toList_ofParts, ?_, ?_, ?_, beq_iff⟩
  · intro parts separator hparts
    exact toList_join_of_isTrim (fun part hpart => (hparts part hpart).isTrim) separator
  · intro first second
    simp [andThen]
  · intro s hs
    exact hs.isTrim.isEmpty_iff

/-- Two words with nothing between them. -/
def letters : TokenStream :=
  ofParts ["a", empty, "b"]

/-- The words are used twice, and a join of nothing is left out with its separator. -/
theorem letters_read :
    (∀ part ∈ [letters, join [empty] letters, letters.andThen "c"], part.IsBuilt) ∧
      read (join [letters, join [empty] letters, letters.andThen "c"] ",") =
        [.literal "a", .literal "b", .literal ",", .literal "a", .literal "b", .literal "c"] ∧
      (join [empty] letters).isEmpty = true := by
  have hletters : letters.IsBuilt := .ofParts (by simp [IsBuilt.empty, IsBuilt.token, literal])
  have hjoined : (join [empty] letters).IsBuilt := .join (by simp [IsBuilt.empty]) hletters
  have hbuilt : ∀ part ∈ [letters, join [empty] letters, letters.andThen "c"], part.IsBuilt := by
    simp [hletters, hjoined, IsBuilt.andThen hletters (.token (.literal "c")), literal]
  obtain ⟨hempty, htoken, hparts, hjoin, hthen, hisEmpty, -⟩ := read_isFaithful
  have hnothing : read (join [empty] letters) = [] := by
    rw [hjoin _ _ (by simp [IsBuilt.empty])]
    simp
  have hread : read letters = [.literal "a", .literal "b"] := by
    simp only [letters, literal, hparts, List.flatMap_cons, List.flatMap_nil, htoken, hempty,
      List.cons_append, List.nil_append]
  refine ⟨hbuilt, ?_, (hisEmpty _ hjoined).mpr hnothing⟩
  rw [hjoin _ _ hbuilt]
  simp only [List.map_cons, List.map_nil, hthen, hnothing, hread, literal, htoken]
  rfl

end SkillLang.TokenStream
