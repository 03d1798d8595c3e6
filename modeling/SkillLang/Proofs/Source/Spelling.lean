import Mathlib.Data.List.Forall2
import SkillLang.Proofs.Source.Separators
import SkillLang.Source.Priority

/-!
# Spelling

A stream spells token trees if its tokens are theirs.  The rules here follow the ways in which
streams are put together: one part after the other, parts between brackets, and parts with
separators between them.
-/

namespace SkillLang

open TokenTree

/-- Trees in parentheses if they hold less tightly than required. -/
def TokenTree.wrap (needed actual : Priority) (ts : List TokenTree) : List TokenTree :=
  if actual.rank < needed.rank then [group .round ts] else ts

/-- The stream consists of the tokens of the trees, in which brackets and contexts are trees of
their own. -/
structure TokenStream.Spells (s : TokenStream) (ts : List TokenTree) : Prop where
  toList_eq : s.toList = tokensOf ts
  plain : allPlain ts = true

namespace TokenStream

theorem spells_empty :
    empty.Spells [] :=
  ⟨rfl, rfl⟩

theorem spells_token
    {t : Token} (h : t.isPlain = true) :
    (token t).Spells [leaf t] :=
  ⟨rfl, by rw [allPlain, allPlain, TokenTree.isPlain, h]; rfl⟩

theorem Spells.toList_ne_nil
    {s : TokenStream} {ts : List TokenTree} (h : s.Spells ts) (hne : ts ≠ []) :
    s.toList ≠ [] := by
  rw [h.toList_eq]
  exact tokensOf_ne_nil hne

/-- The trees are found again from the tokens of the stream. -/
theorem Spells.nest_eq
    {s : TokenStream} {ts : List TokenTree} (h : s.Spells ts) :
    nest s.toList [] [] = some ts := by
  rw [h.toList_eq]
  exact nest_of_tokensOf h.plain

/-- Streams of the same tokens spell the same trees. -/
theorem Spells.eq_of_toList_eq
    {s t : TokenStream} {ts us : List TokenTree} (hs : s.Spells ts) (ht : t.Spells us)
    (h : s.toList = t.toList) :
    ts = us := by
  have hnest := hs.nest_eq
  rw [h, ht.nest_eq] at hnest
  exact (Option.some.inj hnest).symm

/-- Streams one after the other that spell trees together. -/
inductive PartsSpell : List TokenStream → List TokenTree → Prop
  | nil : PartsSpell [] []
  | cons {s : TokenStream} {ts : List TokenTree} {parts : List TokenStream}
      {rest : List TokenTree} :
      s.Spells ts → PartsSpell parts rest → PartsSpell (s :: parts) (ts ++ rest)
  | enclosed {inner parts : List TokenStream} {ts rest : List TokenTree} (b : Bracket) :
      PartsSpell inner ts → PartsSpell parts rest →
        PartsSpell (literal b.opening :: (inner ++ literal b.closing :: parts))
          (TokenTree.group b ts :: rest)

theorem PartsSpell.word
    {w : String} (hw : Token.isPlain (.literal w) = true) {parts : List TokenStream}
    {rest : List TokenTree} (h : PartsSpell parts rest) :
    PartsSpell (literal w :: parts) (TokenTree.word w :: rest) :=
  .cons (spells_token hw) h

theorem PartsSpell.append
    {parts : List TokenStream} {ts : List TokenTree} (h : PartsSpell parts ts)
    {more : List TokenStream} {us : List TokenTree} (hmore : PartsSpell more us) :
    PartsSpell (parts ++ more) (ts ++ us) := by
  induction h with
  | nil => exact hmore
  | cons hs _ ih =>
      rw [List.append_assoc]
      exact .cons hs ih
  | enclosed b hinner _ _ ih =>
      rw [List.cons_append, List.append_assoc, List.cons_append]
      exact .enclosed b hinner ih

theorem PartsSpell.last
    {s : TokenStream} {ts : List TokenTree} (h : s.Spells ts) :
    PartsSpell [s] ts :=
  List.append_nil ts ▸ .cons h .nil

theorem PartsSpell.group
    (b : Bracket) {s : TokenStream} {ts : List TokenTree} (h : s.Spells ts)
    {parts : List TokenStream} {rest : List TokenTree} (hrest : PartsSpell parts rest) :
    PartsSpell (literal b.opening :: s :: literal b.closing :: parts)
      (TokenTree.group b ts :: rest) :=
  .enclosed b (.last h) hrest

theorem PartsSpell.ofParts
    {parts : List TokenStream} {ts : List TokenTree} (h : PartsSpell parts ts) :
    (ofParts parts).Spells ts := by
  induction h with
  | nil => exact spells_empty
  | @cons s ts parts rest hs _ ih =>
      refine ⟨?_, ?_⟩
      · rw [toList_ofParts, List.flatMap_cons, hs.toList_eq, tokensOf_append, ← ih.toList_eq,
          toList_ofParts]
      · rw [allPlain_append, hs.plain, ih.plain]
        rfl
  | @enclosed inner parts ts rest b _ _ hinner ih =>
      refine ⟨?_, ?_⟩
      · rw [toList_ofParts, List.flatMap_cons, List.flatMap_append, List.flatMap_cons,
          ← toList_ofParts parts, ← toList_ofParts inner, ih.toList_eq, hinner.toList_eq, tokensOf,
          TokenTree.tokens]
        simp [literal]
      · rw [allPlain, TokenTree.isPlain, hinner.plain, ih.plain]
        rfl

theorem spells_parens
    (needed actual : Priority) {s : TokenStream} {ts : List TokenTree} (h : s.Spells ts) :
    (parens needed actual s).Spells (wrap needed actual ts) := by
  unfold parens wrap
  split
  next => exact (PartsSpell.group .round h .nil).ofParts
  next => exact h

theorem toList_ne_nil_of_spells
    {parts : List TokenStream} {ps : List (List TokenTree)} (h : List.Forall₂ Spells parts ps)
    (hne : ∀ p ∈ ps, p ≠ []) :
    ∀ part ∈ parts, part.toList ≠ [] := by
  induction h with
  | nil => exact List.forall_mem_nil _
  | cons hspells _ ih =>
      rw [List.forall_mem_cons] at hne ⊢
      exact ⟨hspells.toList_ne_nil hne.1, ih hne.2⟩

theorem spells_intersperse
    {t : Token} (ht : t.isPlain = true) :
    {parts : List TokenStream} → {ps : List (List TokenTree)} → List.Forall₂ Spells parts ps →
      (ofParts (parts.intersperse (token t))).Spells (separated (leaf t) ps)
  | _, _, .nil => spells_empty
  | _, _, .cons hspells .nil => by
      have hparts := (PartsSpell.cons hspells .nil).ofParts
      rw [List.append_nil] at hparts
      exact hparts
  | _, _, .cons hspells (.cons hnext hrest) => by
      have ih := spells_intersperse ht (.cons hnext hrest)
      refine ⟨?_, ?_⟩
      · have htokens := ih.toList_eq
        rw [toList_ofParts] at htokens
        rw [toList_ofParts, List.intersperse_cons_cons, List.flatMap_cons, List.flatMap_cons,
          htokens, hspells.toList_eq, separated, tokensOf_append, tokensOf]
        rfl
      · rw [separated, allPlain_append, hspells.plain, allPlain, TokenTree.isPlain, ht, ih.plain]
        rfl

/-- Parts that spell something are joined with their separator between them. -/
theorem spells_join
    {parts : List TokenStream} {ps : List (List TokenTree)} {t : Token}
    (ht : t.isPlain = true) (h : List.Forall₂ Spells parts ps) (hne : ∀ p ∈ ps, p ≠ []) :
    (join parts (token t)).Spells (separated (leaf t) ps) := by
  have hspells := spells_intersperse ht h
  refine ⟨?_, hspells.plain⟩
  rw [toList_join (toList_ne_nil_of_spells h hne), ← hspells.toList_eq, toList_ofParts]

end TokenStream

end SkillLang
