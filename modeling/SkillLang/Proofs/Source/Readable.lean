import Mathlib.Order.Filter.AtTopBot.Basic
import SkillLang.Proofs.Source.Reader
import SkillLang.Proofs.Source.Spelling

/-!
# Readable streams

A stream is readable as something if the readers of all stages but the first few find it in the
trees that the stream spells.  Lists of readable parts are readable as lists.
-/

namespace SkillLang

open TokenTree

/-- What holds at the next stage holds from some stage on. -/
theorem eventually_of_succ
    {P : Nat → Prop} (h : ∀ᶠ n in Filter.atTop, P (n + 1)) :
    ∀ᶠ n in Filter.atTop, P n := by
  rwa [← Filter.map_add_atTop_eq_nat 1, Filter.eventually_map]

/-- The stream spells trees that have some marks inside of brackets only, and the readers find a
certain thing in them. -/
structure Readable {α : Type} (read : Nat → List TokenTree → Option α) (marks : List String)
    (s : TokenStream) (ts : List TokenTree) (found : α) : Prop where
  spells : s.Spells ts
  ne_nil : ts ≠ []
  avoids : Avoids marks ts
  read_eq : ∀ᶠ n in Filter.atTop, read n ts = some found

/-- What is read alike in parentheses is readable wherever a priority is needed. -/
theorem Readable.wrapped
    {α : Type} {read : Nat → List TokenTree → Option α} {marks : List String} {s : TokenStream}
    {ts : List TokenTree} {found : α} (h : Readable read marks s ts found)
    (hgroup : ∀ᶠ n in Filter.atTop, read n [group .round ts] = some found)
    (needed actual : Priority) :
    Readable read marks (TokenStream.parens needed actual s) (wrap needed actual ts) found := by
  have hspells := TokenStream.spells_parens needed actual h.spells
  unfold wrap at hspells ⊢
  split
  next hlt =>
      rw [if_pos hlt] at hspells
      exact ⟨hspells, List.cons_ne_nil _ _, avoids_group _ _, hgroup⟩
  next hlt =>
      rw [if_neg hlt] at hspells
      exact ⟨hspells, h.ne_nil, h.avoids, h.read_eq⟩

/-- Streams that are readable one by one. -/
inductive AllReadable {α : Type} (read : Nat → List TokenTree → Option α) (marks : List String) :
    List TokenStream → List (List TokenTree) → List α → Prop
  | nil : AllReadable read marks [] [] []
  | cons {s : TokenStream} {ts : List TokenTree} {found : α} {parts : List TokenStream}
      {ps : List (List TokenTree)} {rest : List α} :
      Readable read marks s ts found → AllReadable read marks parts ps rest →
        AllReadable read marks (s :: parts) (ts :: ps) (found :: rest)

namespace AllReadable

section

variable {α : Type} {read : Nat → List TokenTree → Option α} {marks : List String}
  {parts : List TokenStream} {ps : List (List TokenTree)} {found : List α}

theorem append
    (h : AllReadable read marks parts ps found) {parts' : List TokenStream}
    {ps' : List (List TokenTree)} {found' : List α}
    (h' : AllReadable read marks parts' ps' found') :
    AllReadable read marks (parts ++ parts') (ps ++ ps') (found ++ found') := by
  induction h with
  | nil => exact h'
  | cons hpart _ ih => exact .cons hpart ih

theorem forall_mem
    (h : AllReadable read marks parts ps found) {P : List TokenTree → Prop}
    (hP : ∀ s ts b, Readable read marks s ts b → P ts) :
    ∀ p ∈ ps, P p := by
  induction h with
  | nil => exact List.forall_mem_nil _
  | cons hpart _ ih => exact List.forall_mem_cons.mpr ⟨hP _ _ _ hpart, ih⟩

theorem ne_nil
    (h : AllReadable read marks parts ps found) :
    ∀ p ∈ ps, p ≠ [] :=
  h.forall_mem fun _ _ _ hpart => hpart.ne_nil

theorem avoids
    (h : AllReadable read marks parts ps found) :
    ∀ p ∈ ps, Avoids marks p :=
  h.forall_mem fun _ _ _ hpart => hpart.avoids

/-- The trees of the parts, whatever they are read as. -/
theorem trees
    (h : AllReadable read marks parts ps found) :
    AllReadable (fun _ => some) marks parts ps ps := by
  induction h with
  | nil => exact .nil
  | cons hpart _ ih =>
      refine .cons ⟨hpart.spells, hpart.ne_nil, hpart.avoids, ?_⟩ ih
      exact Filter.Eventually.of_forall fun _ => rfl

theorem eq_nil_iff
    (h : AllReadable read marks parts ps found) :
    ps = [] ↔ found = [] := by
  cases h with
  | nil => exact iff_of_true rfl rfl
  | cons _ _ => exact iff_of_false (List.cons_ne_nil _ _) (List.cons_ne_nil _ _)

theorem length_eq
    (h : AllReadable read marks parts ps found) :
    ps.length = found.length := by
  induction h with
  | nil => rfl
  | cons _ _ ih => rw [List.length_cons, List.length_cons, ih]

theorem read_eq
    (h : AllReadable read marks parts ps found) :
    ∀ᶠ n in Filter.atTop, ps.mapM (read n) = some found := by
  induction h with
  | nil => exact Filter.Eventually.of_forall fun _ => rfl
  | cons hpart _ ih =>
      filter_upwards [hpart.read_eq, ih] with n hn hrest
      rw [List.mapM_cons, hn, hrest]
      rfl

theorem forall₂_spells
    (h : AllReadable read marks parts ps found) :
    List.Forall₂ TokenStream.Spells parts ps := by
  induction h with
  | nil => exact .nil
  | cons hpart _ ih => exact .cons hpart.spells ih

theorem spells_join
    (h : AllReadable read marks parts ps found) {t : Token} (ht : t.isPlain = true) :
    (TokenStream.join parts (.token t)).Spells (separated (leaf t) ps) :=
  TokenStream.spells_join ht h.forall₂_spells h.ne_nil

/-- The parts are found again between the separators. -/
theorem items_eq
    (h : AllReadable read marks parts ps found) (separator : TokenTree) {w : String}
    (hseparator : separator.separator? = some w) (hw : w ∈ marks) :
    items (isMark w) (separated separator ps) = ps :=
  items_separated (isMark_of_separator? hseparator) h.ne_nil fun p hp =>
    isMark_eq_false hw (h.avoids p hp)

theorem pieces_eq
    (h : AllReadable read marks parts ps found) (hne : found ≠ []) (separator : TokenTree)
    {w : String} (hseparator : separator.separator? = some w) (hw : w ∈ marks) :
    pieces (isMark w) (separated separator ps) = ps :=
  pieces_separated (isMark_of_separator? hseparator) ps (mt h.eq_nil_iff.mp hne) fun p hp =>
    isMark_eq_false hw (h.avoids p hp)

theorem read_items
    (h : AllReadable read marks parts ps found) (separator : TokenTree) {w : String}
    (hseparator : separator.separator? = some w) (hw : w ∈ marks) :
    ∀ᶠ n in Filter.atTop,
      (items (isMark w) (separated separator ps)).mapM (read n) = some found := by
  rw [h.items_eq separator hseparator hw]
  exact h.read_eq

/-- Parts that are cut at the separator themselves are found in pieces. -/
theorem read_pieces
    {β : Type} {piece : Nat → List TokenTree → Option β} {w : String}
    {parts : List TokenStream} {ps : List (List TokenTree)} {found : List (List β)}
    (h : AllReadable (fun n ts => (pieces (isMark w) ts).mapM (piece n)) marks parts ps found)
    (hne : found ≠ []) :
    ∀ᶠ n in Filter.atTop,
      (pieces (isMark w) (separated (word w) ps)).mapM (piece n) = some found.flatten := by
  induction h with
  | nil => exact absurd rfl hne
  | @cons s ts first parts ps rest hpart hrest ih =>
      cases hrest with
      | nil =>
          rw [List.flatten_singleton]
          exact hpart.read_eq
      | cons _ _ =>
          filter_upwards [hpart.read_eq, ih (List.cons_ne_nil _ _)] with n hn hm
          rw [separated, pieces_cut (isMark_of_separator? rfl), List.mapM_append, hn, hm]
          rfl

theorem length_le_flatten
    {β : Type} {piece : Nat → List TokenTree → Option β} {w : String}
    {parts : List TokenStream} {ps : List (List TokenTree)} {found : List (List β)}
    (h : AllReadable (fun n ts => (pieces (isMark w) ts).mapM (piece n)) marks parts ps found) :
    found.length ≤ found.flatten.length := by
  induction h with
  | nil => exact Nat.le_refl _
  | @cons s ts first parts ps rest hpart _ ih =>
      obtain ⟨n, hn⟩ := hpart.read_eq.exists
      have hfirst : 0 < first.length := by
        obtain ⟨p, more, hpieces⟩ := List.exists_cons_of_ne_nil (pieces_ne_nil (isMark w) ts)
        rw [hpieces, List.mapM_cons] at hn
        simp only [Option.bind_eq_bind, Option.bind_eq_some_iff, Option.pure_def] at hn
        obtain ⟨b, -, bs, -, hfound⟩ := hn
        cases hfound
        exact Nat.succ_pos _
      rw [List.flatten_cons, List.length_append, List.length_cons]
      omega

theorem avoids_separated
    (h : AllReadable read marks parts ps found) {more : List String} (separator : TokenTree)
    (hseparator : separator.mark? more = none) (hsub : more ⊆ marks) :
    Avoids more (separated separator ps) :=
  forall_mem_separated hseparator ps fun p hp => (h.avoids p hp).mono hsub

end

end AllReadable

end SkillLang
