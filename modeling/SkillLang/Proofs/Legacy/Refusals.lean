import SkillLang.Proofs.Legacy.Kinds

/-!
# Refusals of the conversion

A checked program that keeps streams, queries and actions apart has a legacy form or uses
something without an equivalent.  A check does not see to it that they are kept apart: it
lets an alias name an action, although no other clause is applied to one, and then the
conversion finds the program malformed.
-/

namespace SkillLang

namespace Checker

variable {σ : Type} {c : Checker σ}

/-- A checked program that keeps the kinds apart is never malformed, and no other program has a
legacy form. -/
theorem toLegacy_of_separates
    {p q : Program} {s : Session σ}
    (h : ((c.check (.program p)).runIn s).1 = .ok (.program q)) :
    ((∀ statement ∈ q.statements, statement.body.SeparatesAsStatement) →
      (∃ l, q.toLegacy = .ok l) ∨
        ∃ construct range, q.toLegacy = .error (.unserializable construct range)) ∧
      ((∃ l, q.toLegacy = .ok l) →
        ∀ statement ∈ q.statements, statement.body.SeparatesAsStatement) := by
  have hmeets := (acceptsInput_of_check h).toLegacy_meets
  constructor
  · intro hseparates
    cases hresult : q.toLegacy with
    | ok l => exact .inl ⟨l, rfl⟩
    | error e =>
        cases e with
        | unserializable construct range => exact .inr ⟨construct, range, rfl⟩
        | malformed defect range =>
            rw [hresult] at hmeets
            exact absurd hseparates hmeets
  · rintro ⟨l, hl⟩
    obtain ⟨-, hstatements⟩ := hmeets.of_eq_ok hl
    exact ((List.forall₂_and_left _ _).mp
      (hstatements.imp fun _ _ hconverts => ⟨hconverts.2.2, hconverts.1⟩)).1

theorem digest_separates :
    ∃ q,
      ((Digest.checker.check (.program (Digest.program []))).runIn Digest.session).1 =
          .ok (.program q) ∧
        (∀ statement ∈ q.statements, statement.body.SeparatesAsStatement) ∧
        ((∃ l, q.toLegacy = .ok l) ∨
          ∃ construct range, q.toLegacy = .error (.unserializable construct range)) := by
  obtain ⟨q, h, hseparates⟩ : ∃ q,
      ((Digest.checker.check (.program (Digest.program []))).runIn Digest.session).1 =
          .ok (.program q) ∧
        ∀ statement ∈ q.statements, statement.body.SeparatesAsStatement := by
    refine ⟨_, rfl, ?_⟩
    rw [List.forall_mem_singleton]
    have hsearch : some Digest.search.type ≠ some .stream := by decide
    have hsend : some Digest.send.type ≠ some .stream := by decide
    exact ⟨⟨hsearch, fun _ _ => trivial⟩, hsend, trivial⟩
  exact ⟨q, h, hseparates, (toLegacy_of_separates h).1 hseparates⟩

/-- An action with a name for its results, of which there are none. -/
def Digest.named : Program :=
  ⟨[], [], [.expression ⟨.clause {} (.call {} "notify" []) (.named "x"), none⟩], none⟩

theorem named_isMalformed :
    ∃ q, ((Digest.checker.check (.program Digest.named)).runIn Digest.session).1 =
        .ok (.program q) ∧
      q.toLegacy = .error (.malformed (.wrapsAction "an alias") none) :=
  ⟨_, rfl, rfl⟩

end Checker

end SkillLang
