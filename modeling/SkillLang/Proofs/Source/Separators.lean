import SkillLang.Proofs.Source.TokenTree

/-!
# Separators

Lists of token trees are cut at words, or line breaks, that stand between them.  What stands
between two separators has no such word outside of brackets, and so the pieces are found again.
-/

namespace SkillLang.TokenTree

/-! ## Marks -/

/-- The text of a tree that can separate others: that of a word, or a line break. -/
def separator? : TokenTree → Option String
  | word w => some w
  | leaf (.layout .newline) => some "\n"
  | _ => none

/-- The separator that the tree is, if it is one of some. -/
def mark? (marks : List String) (t : TokenTree) : Option String :=
  t.separator?.filter marks.contains

/-- None of the trees is one of the separators. -/
def Avoids (marks : List String) (ts : List TokenTree) : Prop :=
  ∀ t ∈ ts, t.mark? marks = none

instance (marks : List String) (ts : List TokenTree) : Decidable (Avoids marks ts) :=
  inferInstanceAs (Decidable (∀ t ∈ ts, t.mark? marks = none))

section Avoids

variable {marks more : List String} {t : TokenTree} {ts us : List TokenTree}

theorem mark?_of_mem
    {w : String} (ht : t.separator? = some w) (h : w ∈ marks) :
    t.mark? marks = some w := by
  rw [mark?, ht]
  exact Option.filter_some_pos (List.contains_iff_mem.mpr h)

theorem mark?_eq_none
    (h : ∀ w, t.separator? = some w → w ∉ marks) :
    t.mark? marks = none := by
  rw [mark?, Option.filter_eq_none_iff]
  intro w hw hmem
  exact h w hw (List.contains_iff_mem.mp hmem)

theorem not_mem_of_mark?
    (h : t.mark? marks = none) {w : String} (hw : t.separator? = some w) :
    w ∉ marks := by
  intro hmem
  rw [mark?_of_mem hw hmem] at h
  cases h

theorem avoids_nil :
    Avoids marks [] :=
  fun _ ht => nomatch ht

theorem avoids_cons :
    Avoids marks (t :: ts) ↔ t.mark? marks = none ∧ Avoids marks ts :=
  List.forall_mem_cons

theorem avoids_append :
    Avoids marks (ts ++ us) ↔ Avoids marks ts ∧ Avoids marks us :=
  List.forall_mem_append

theorem mark?_mono
    (hsub : more ⊆ marks) (h : t.mark? marks = none) :
    t.mark? more = none :=
  mark?_eq_none fun _ hw hmem => not_mem_of_mark? h hw (hsub hmem)

theorem Avoids.mono
    (h : Avoids marks ts) (hsub : more ⊆ marks) :
    Avoids more ts :=
  fun t ht => mark?_mono hsub (h t ht)

theorem avoids_union
    (h : Avoids marks ts) (hmore : Avoids more ts) :
    Avoids (marks ++ more) ts := by
  intro t ht
  refine mark?_eq_none fun w hw hmem => ?_
  obtain hmem | hmem := List.mem_append.mp hmem
  · exact not_mem_of_mark? (h t ht) hw hmem
  · exact not_mem_of_mark? (hmore t ht) hw hmem

theorem avoids_word_cons
    {w : String} :
    Avoids marks (word w :: ts) ↔ w ∉ marks ∧ Avoids marks ts := by
  rw [avoids_cons]
  refine and_congr_left' ⟨fun h => not_mem_of_mark? h rfl, fun h => mark?_eq_none ?_⟩
  intro _ hw
  cases hw
  exact h

theorem avoids_word
    {w : String} (h : w ∉ marks) :
    Avoids marks [word w] :=
  avoids_word_cons.mpr ⟨h, avoids_nil⟩

theorem avoids_cut
    {w : String} :
    Avoids marks (ts ++ word w :: us) ↔ Avoids marks ts ∧ w ∉ marks ∧ Avoids marks us := by
  rw [avoids_append, avoids_word_cons]

theorem avoids_group
    (b : Bracket) (inner : List TokenTree) :
    Avoids marks [group b inner] :=
  avoids_cons.mpr ⟨rfl, avoids_nil⟩

end Avoids

/-! ## Cuts -/

/-- The trees before and after the first of some words. -/
def cutFirst? (marks : List String) :
    List TokenTree → Option (List TokenTree × String × List TokenTree)
  | [] => none
  | t :: ts =>
    match t.mark? marks with
    | some w => some ([], w, ts)
    | none => (cutFirst? marks ts).map fun (before, w, after) => (t :: before, w, after)

/-- The trees before and after the last of some words. -/
def cutLast? (marks : List String) :
    List TokenTree → Option (List TokenTree × String × List TokenTree)
  | [] => none
  | t :: ts =>
    match cutLast? marks ts with
    | some (before, w, after) => some (t :: before, w, after)
    | none => (t.mark? marks).map fun w => ([], w, ts)

section Cuts

variable {marks : List String} {before after : List TokenTree} {w : String}

theorem cutFirst?_eq_none
    {ts : List TokenTree} (h : Avoids marks ts) :
    cutFirst? marks ts = none := by
  induction ts with
  | nil => rfl
  | cons t ts ih =>
      rw [avoids_cons] at h
      rw [cutFirst?, h.1, ih h.2]
      rfl

theorem cutFirst?_append
    (h : Avoids marks before) (hw : w ∈ marks) (after : List TokenTree) :
    cutFirst? marks (before ++ word w :: after) = some (before, w, after) := by
  induction before with
  | nil => rw [List.nil_append, cutFirst?, mark?_of_mem rfl hw]
  | cons t before ih =>
      rw [avoids_cons] at h
      rw [List.cons_append, cutFirst?, h.1, ih h.2]
      rfl

theorem cutLast?_eq_none
    {ts : List TokenTree} (h : Avoids marks ts) :
    cutLast? marks ts = none := by
  induction ts with
  | nil => rfl
  | cons t ts ih =>
      rw [avoids_cons] at h
      rw [cutLast?, ih h.2, h.1]
      rfl

theorem cutLast?_append
    (h : Avoids marks after) (hw : w ∈ marks) (before : List TokenTree) :
    cutLast? marks (before ++ word w :: after) = some (before, w, after) := by
  induction before with
  | nil =>
      rw [List.nil_append, cutLast?, cutLast?_eq_none h, mark?_of_mem rfl hw]
      rfl
  | cons t before ih => rw [List.cons_append, cutLast?, ih]

end Cuts

/-! ## Pieces -/

/-- The pieces between trees, with a separator between each two of them. -/
def separated (separator : TokenTree) : List (List TokenTree) → List TokenTree
  | [] => []
  | [piece] => piece
  | piece :: next :: pieces => piece ++ separator :: separated separator (next :: pieces)

/-- The pieces between the trees that pass a test. -/
def pieces (test : TokenTree → Bool) : List TokenTree → List (List TokenTree)
  | [] => [[]]
  | t :: ts =>
    if test t then [] :: pieces test ts
    else
      match pieces test ts with
      | [] => [[t]]
      | piece :: rest => (t :: piece) :: rest

/-- The pieces, of which there are none if there are no trees. -/
def items (test : TokenTree → Bool) (ts : List TokenTree) : List (List TokenTree) :=
  if ts.isEmpty then [] else pieces test ts

/-- The tree is a certain separator. -/
def isMark (w : String) (t : TokenTree) : Bool :=
  (t.mark? [w]).isSome

section Pieces

variable {test : TokenTree → Bool} {separator : TokenTree}

theorem isMark_of_separator?
    {w : String} (h : separator.separator? = some w) :
    isMark w separator = true := by
  rw [isMark, mark?_of_mem h (List.mem_singleton_self w)]
  rfl

theorem isMark_eq_false
    {marks : List String} {w : String} (hw : w ∈ marks) {ts : List TokenTree}
    (h : Avoids marks ts) :
    ∀ t ∈ ts, isMark w t = false := by
  intro t ht
  rw [isMark, h.mono (List.cons_subset.mpr ⟨hw, List.nil_subset _⟩) t ht]
  rfl

theorem mem_separated
    {ps : List (List TokenTree)} (h : 2 ≤ ps.length) :
    separator ∈ separated separator ps := by
  match ps with
  | p :: q :: ps => exact List.mem_append_right _ List.mem_cons_self

theorem pieces_append
    {piece : List TokenTree} (h : ∀ t ∈ piece, test t = false)
    (hseparator : test separator = true) (ts : List TokenTree) :
    pieces test (piece ++ separator :: ts) = piece :: pieces test ts := by
  induction piece with
  | nil => rw [List.nil_append, pieces, if_pos hseparator]
  | cons t piece ih =>
      rw [List.forall_mem_cons] at h
      rw [List.cons_append, pieces, if_neg (Bool.eq_false_iff.mp h.1), ih h.2]

theorem pieces_ne_nil
    (test : TokenTree → Bool) (ts : List TokenTree) :
    pieces test ts ≠ [] := by
  cases ts with
  | nil => exact List.cons_ne_nil _ _
  | cons t ts =>
      rw [pieces]
      split
      · exact List.cons_ne_nil _ _
      · split <;> exact List.cons_ne_nil _ _

/-- A separator ends a piece, wherever it stands. -/
theorem pieces_cut
    (hseparator : test separator = true) (ts us : List TokenTree) :
    pieces test (ts ++ separator :: us) = pieces test ts ++ pieces test us := by
  induction ts with
  | nil =>
      rw [List.nil_append, pieces.eq_2, if_pos hseparator]
      rfl
  | cons t ts ih =>
      rw [List.cons_append, pieces, pieces, ih]
      split
      · rfl
      · obtain ⟨piece, rest, hpieces⟩ := List.exists_cons_of_ne_nil (pieces_ne_nil test ts)
        rw [hpieces]
        rfl

theorem pieces_self
    {piece : List TokenTree} (h : ∀ t ∈ piece, test t = false) :
    pieces test piece = [piece] := by
  induction piece with
  | nil => rfl
  | cons t piece ih =>
      rw [List.forall_mem_cons] at h
      rw [pieces, if_neg (Bool.eq_false_iff.mp h.1), ih h.2]

theorem pieces_separated
    (hseparator : test separator = true) :
    (ps : List (List TokenTree)) → ps ≠ [] → (∀ p ∈ ps, ∀ t ∈ p, test t = false) →
      pieces test (separated separator ps) = ps
  | [], hne, _ => absurd rfl hne
  | [p], _, h => pieces_self (h p (List.mem_singleton_self p))
  | p :: q :: ps, _, h => by
      rw [List.forall_mem_cons] at h
      rw [separated, pieces_append h.1 hseparator,
        pieces_separated hseparator (q :: ps) (List.cons_ne_nil _ _) h.2]

theorem separated_ne_nil
    {ps : List (List TokenTree)} (hne : ps ≠ []) (h : ∀ p ∈ ps, p ≠ []) :
    separated separator ps ≠ [] := by
  match ps with
  | [] => exact absurd rfl hne
  | [p] => exact h p (List.mem_singleton_self p)
  | p :: q :: ps => exact List.append_ne_nil_of_right_ne_nil _ (List.cons_ne_nil _ _)

theorem items_separated
    (hseparator : test separator = true) {ps : List (List TokenTree)} (hne : ∀ p ∈ ps, p ≠ [])
    (h : ∀ p ∈ ps, ∀ t ∈ p, test t = false) :
    items test (separated separator ps) = ps := by
  by_cases hps : ps = []
  · subst hps
    rfl
  · have hnonempty : (separated separator ps).isEmpty = false :=
      List.isEmpty_eq_false_iff.mpr (separated_ne_nil hps hne)
    rw [items, hnonempty]
    exact pieces_separated hseparator ps hps h

theorem items_pair
    {w : String} {lhs rhs : List TokenTree} (hne : lhs ≠ []) (hlhs : Avoids [w] lhs)
    (hrhs : Avoids [w] rhs) :
    items (isMark w) (lhs ++ word w :: rhs) = [lhs, rhs] := by
  have hmem := List.mem_singleton_self w
  have hnonempty : (lhs ++ word w :: rhs).isEmpty = false :=
    List.isEmpty_eq_false_iff.mpr (List.append_ne_nil_of_left_ne_nil hne _)
  rw [items, hnonempty, pieces_append (isMark_eq_false hmem hlhs) (isMark_of_separator? rfl),
    pieces_self (isMark_eq_false hmem hrhs)]
  rfl

theorem forall_mem_separated
    {P : TokenTree → Prop} (hseparator : P separator) :
    (ps : List (List TokenTree)) → (∀ p ∈ ps, ∀ t ∈ p, P t) → ∀ t ∈ separated separator ps, P t
  | [], _ => fun _ ht => nomatch ht
  | [p], h => h p (List.mem_singleton_self p)
  | p :: q :: ps, h => by
      rw [List.forall_mem_cons] at h
      rw [separated, List.forall_mem_append, List.forall_mem_cons]
      exact ⟨h.1, hseparator, forall_mem_separated hseparator (q :: ps) h.2⟩

end Pieces

end SkillLang.TokenTree
