import SkillLang.Proofs.ActionResults

/-!
# Actions that agree

Two actions agree if they end with the same result or the same error, whatever sessions
they start in.  What they record and what they leave in the state may differ.  Agreement
goes through all the ways in which actions are put together.
-/

namespace SkillLang

namespace Action

variable {σ ε α β : Type}

/-- All sessions lead both actions to the same result or error. -/
def Agree (left right : Action σ ε α) : Prop :=
  ∀ s t : Session σ, (left.runIn s).1 = (right.runIn t).1

theorem agree_pure (a : α) :
    Agree (pure a : Action σ ε α) (pure a) :=
  fun _ _ => rfl

theorem agree_throw (e : ε) :
    Agree (throw e : Action σ ε α) (throw e) :=
  fun _ _ => rfl

theorem agree_record (event event' : Event) :
    Agree (record event : Action σ ε Unit) (record event') :=
  fun _ _ => rfl

theorem Agree.bind
    {left right : Action σ ε α} {f g : α → Action σ ε β}
    (hfirst : left.Agree right) (hrest : ∀ a, (f a).Agree (g a)) :
    (left >>= f).Agree (right >>= g) := by
  intro s t
  have hresult := hfirst s t
  rw [runIn_bind, runIn_bind]
  rcases hleft : left.runIn s with ⟨result, s'⟩
  rcases hright : right.runIn t with ⟨result', t'⟩
  rw [hleft, hright] at hresult
  cases hresult
  cases result with
  | ok a => exact hrest a s' t'
  | error e => rfl

/-- A step that leaves the session alone only decides whether to go on. -/
theorem agree_ofExcept_bind
    {r : Except ε α} {f g : α → Action σ ε β} (h : ∀ a, r = .ok a → (f a).Agree (g a)) :
    Agree (ofExcept r >>= f) (ofExcept r >>= g) := by
  cases r with
  | ok a => exact h a rfl
  | error e => exact fun _ _ => rfl

theorem Agree.ite
    {p : Prop} [Decidable p] {left right left' right' : Action σ ε α}
    (hthen : left.Agree right) (helse : left'.Agree right') :
    (if p then left else left').Agree (if p then right else right') := by
  by_cases hp : p
  · rw [if_pos hp, if_pos hp]
    exact hthen
  · rw [if_neg hp, if_neg hp]
    exact helse

/-- After an error nothing is run. -/
theorem agree_throw_bind
    (e : ε) (f g : α → Action σ ε β) :
    Agree (throw e >>= f) (throw e >>= g) :=
  fun _ _ => rfl

theorem agree_mapM
    {f g : α → Action σ ε β} {xs : List α} (h : ∀ x ∈ xs, (f x).Agree (g x)) :
    (xs.mapM f).Agree (xs.mapM g) := by
  induction xs with
  | nil => exact agree_pure []
  | cons x xs ih =>
      rw [List.mapM_cons, List.mapM_cons]
      have hhead := h x List.mem_cons_self
      have htail := ih fun y hy => h y (List.mem_cons_of_mem x hy)
      exact hhead.bind fun y => htail.bind fun ys => agree_pure (y :: ys)

end Action

end SkillLang
