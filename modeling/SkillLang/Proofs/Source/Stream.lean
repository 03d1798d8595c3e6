import SkillLang.Source.Stream

/-!
# Tokens of streams

The tokens of a stream are those of its parts one after the other.  An empty part
contributes nothing, and a join leaves it out together with its separator.
-/

namespace SkillLang.TokenStream

mutual

theorem prepend_eq :
    (s : TokenStream) → (rest : List Token) → s.prepend rest = s.toList ++ rest
  | empty, _ => rfl
  | token _, _ => rfl
  | concat parts, rest => by
      rw [toList, prepend, prepend, prependAll_eq parts rest, prependAll_eq parts [],
        List.append_nil]

theorem prependAll_eq :
    (parts : List TokenStream) → (rest : List Token) →
      prependAll parts rest = parts.flatMap toList ++ rest
  | [], _ => rfl
  | part :: parts, rest => by
      rw [prependAll, prepend_eq part, prependAll_eq parts rest, List.flatMap_cons,
        List.append_assoc]

end

@[simp] theorem toList_empty :
    empty.toList = [] :=
  rfl

@[simp] theorem toList_token
    (t : Token) :
    (token t).toList = [t] :=
  rfl

theorem toList_concat
    (parts : List TokenStream) :
    (concat parts).toList = parts.flatMap toList := by
  rw [toList, prepend, prependAll_eq, List.append_nil]

theorem eq_empty_of_isEmpty
    {s : TokenStream} (h : s.isEmpty = true) :
    s = empty := by
  cases s with
  | empty => rfl
  | token _ | concat _ => cases h

theorem isEmpty_eq_false
    {s : TokenStream} (h : s.toList ≠ []) :
    s.isEmpty = false := by
  rw [← Bool.not_eq_true]
  intro hempty
  exact h (congrArg toList (eq_empty_of_isEmpty hempty))

theorem flatMap_toList_filter
    (parts : List TokenStream) :
    (parts.filter fun part => !part.isEmpty).flatMap toList = parts.flatMap toList := by
  induction parts with
  | nil => rfl
  | cons part parts ih =>
      cases hempty : part.isEmpty with
      | true =>
          rw [List.filter_cons_of_neg (by simp [hempty]), ih, List.flatMap_cons,
            eq_empty_of_isEmpty hempty]
          rfl
      | false =>
          rw [List.filter_cons_of_pos (by simp [hempty]), List.flatMap_cons, List.flatMap_cons, ih]

@[simp] theorem toList_ofParts
    (parts : List TokenStream) :
    (ofParts parts).toList = parts.flatMap toList := by
  rw [← flatMap_toList_filter parts]
  unfold ofParts
  split
  next h =>
      rw [h]
      rfl
  next part h =>
      rw [h, List.flatMap_singleton]
  next => exact toList_concat _

/-- Parts none of which is empty are joined with the separator between each two of them. -/
theorem toList_join
    {parts : List TokenStream} (h : ∀ part ∈ parts, part.toList ≠ []) (separator : TokenStream) :
    (join parts separator).toList = (parts.intersperse separator).flatMap toList := by
  have hparts : (parts.filter fun part => !part.isEmpty) = parts := by
    rw [List.filter_eq_self]
    intro part hpart
    rw [isEmpty_eq_false (h part hpart)]
    rfl
  rw [join, toList_ofParts, hparts]

end SkillLang.TokenStream
