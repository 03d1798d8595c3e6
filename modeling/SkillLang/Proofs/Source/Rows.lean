import SkillLang.Proofs.Source.Separators

/-!
# Rows

A row is a part, or a part, a separator and another row.  Where the parts are read as one thing
only, so are the rows: the first parts of two rows that begin alike are the same and end at the same
tree.  If that were a separator in one of the rows only, the row would go on where the other one
ends.
-/

namespace SkillLang.TokenTree

/-- The trees are read as one thing only, and they end there, whatever follows that does not
continue them. -/
def IsOnlyReading {α : Type} (reads : List TokenTree → α → Prop) (ends : List TokenTree → Prop)
    (ts : List TokenTree) (found : α) : Prop :=
  ∀ ⦃us r s : List TokenTree⦄ ⦃other : α⦄,
    reads us other → ts ++ r = us ++ s → ends r → ends s → found = other ∧ r = s

/-- How parts and rows are read, what does not continue them, and what a row is found to be. -/
structure Rows (α β : Type) where
  part : List TokenTree → α → Prop
  row : List TokenTree → β → Prop
  endsPart : List TokenTree → Prop
  endsRow : List TokenTree → Prop
  separates : String → Prop
  single : α → β
  append : String → β → β → β

namespace Rows

variable {α β : Type}

inductive IsRow (rows : Rows α β) : List TokenTree → β → Prop
  | last {ts : List TokenTree} {a : α} : rows.part ts a → IsRow rows ts (rows.single a)
  | next {ts us : List TokenTree} {a : α} {b : β} {w : String} :
      rows.part ts a → rows.separates w → rows.row us b →
        IsRow rows (ts ++ word w :: us) (rows.append w (rows.single a) b)

structure IsLawful (rows : Rows α β) : Prop where
  row_iff : ∀ ts b, rows.row ts b ↔ rows.IsRow ts b
  append_assoc : ∀ v w a b c,
    rows.append w (rows.append v a b) c = rows.append v a (rows.append w b c)
  endsPart_of_endsRow : ∀ ts, rows.endsRow ts → rows.endsPart ts
  endsPart_separator : ∀ {w}, rows.separates w → ∀ ts, rows.endsPart (word w :: ts)
  not_endsRow : ∀ {w}, rows.separates w → ∀ ts, ¬ rows.endsRow (word w :: ts)

namespace IsLawful

variable {rows : Rows α β} {ts us : List TokenTree} {a : α} {b c : β} {w : String}

/-- Two rows with a separator between them are a row. -/
theorem row_append
    (hrows : rows.IsLawful) (h : rows.row ts b) (hw : rows.separates w) (hc : rows.row us c) :
    rows.row (ts ++ word w :: us) (rows.append w b c) := by
  -- Of the grammar it is only known what a row begins with, so that the induction is on the length.
  induction hn : ts.length using Nat.strongRecOn generalizing ts b with
  | _ n ih =>
      subst hn
      rw [hrows.row_iff]
      cases (hrows.row_iff ts b).mp h with
      | last hfirst => exact .next hfirst hw hc
      | next hfirst hv hrest =>
          rw [List.append_assoc, List.cons_append, hrows.append_assoc]
          refine .next hfirst hv (ih _ ?_ hrest rfl)
          rw [List.length_append, List.length_cons]
          omega

theorem last
    (hrows : rows.IsLawful) (h : IsOnlyReading rows.part rows.endsPart ts a) :
    IsOnlyReading rows.row rows.endsRow ts (rows.single a) := by
  intro vs r s other hother heq hr hs
  have hend := hrows.endsPart_of_endsRow r hr
  cases (hrows.row_iff vs other).mp hother with
  | last hfirst =>
      obtain ⟨rfl, hrest⟩ := h hfirst heq hend (hrows.endsPart_of_endsRow s hs)
      exact ⟨rfl, hrest⟩
  | next hfirst hw _ =>
      rw [List.append_assoc] at heq
      obtain ⟨-, rfl⟩ := h hfirst heq hend (hrows.endsPart_separator hw _)
      exact absurd hr (hrows.not_endsRow hw _)

theorem next
    (hrows : rows.IsLawful) (h : IsOnlyReading rows.part rows.endsPart ts a)
    (hw : rows.separates w) (hnext : IsOnlyReading rows.row rows.endsRow us b) :
    IsOnlyReading rows.row rows.endsRow (ts ++ word w :: us)
      (rows.append w (rows.single a) b) := by
  intro vs r s other hother heq hr hs
  rw [List.append_assoc] at heq
  have hend := hrows.endsPart_separator hw (us ++ r)
  cases (hrows.row_iff vs other).mp hother with
  | last hfirst =>
      obtain ⟨-, rfl⟩ := h hfirst heq hend (hrows.endsPart_of_endsRow s hs)
      exact absurd hs (hrows.not_endsRow hw _)
  | next hfirst hw' hmore =>
      rw [List.append_assoc] at heq
      obtain ⟨rfl, hrest⟩ := h hfirst heq hend (hrows.endsPart_separator hw' _)
      obtain ⟨hword, htail⟩ := List.cons.inj hrest
      obtain ⟨rfl, rfl⟩ := hnext hmore htail hr hs
      cases hword
      exact ⟨rfl, rfl⟩

end IsLawful

end Rows

end SkillLang.TokenTree
