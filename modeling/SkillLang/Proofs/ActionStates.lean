import SkillLang.Proofs.ActionResults

/-!
# States after actions

What an action ends with, result or error, is related to the state in which it ends.
The log has no part in this: an action never reads it.  The relation of an action that
is put together follows from those of its steps.
-/

namespace SkillLang

namespace Action

variable {σ ε ε' α β : Type}

/-- From a state, the action ends with a result or an error and a state that are related. -/
def Ends (action : Action σ ε α) (state : σ) (Q : Except ε α → σ → Prop) : Prop :=
  ∀ s : Session σ, s.state = state → Q (action.runIn s).1 (action.runIn s).2.state

variable {state : σ} {P Q : Except ε α → σ → Prop}

theorem ends_pure
    {a : α} (h : Q (.ok a) state) :
    (pure a : Action σ ε α).Ends state Q := by
  intro s hs
  rw [runIn_pure, hs]
  exact h

theorem ends_throw
    {e : ε} (h : Q (.error e) state) :
    (throw e : Action σ ε α).Ends state Q := by
  intro s hs
  rw [runIn_throw, hs]
  exact h

theorem Ends.mono
    {action : Action σ ε α} (h : action.Ends state P)
    (hle : ∀ result next, P result next → Q result next) :
    action.Ends state Q :=
  fun s hs => hle _ _ (h s hs)

/-- The second action goes on in the state in which the first one ends, unless that is an error. -/
theorem Ends.bind
    {action : Action σ ε α} {f : α → Action σ ε β} {R : Except ε β → σ → Prop}
    (hfirst : action.Ends state P)
    (hok : ∀ a next, P (.ok a) next → (f a).Ends next R)
    (herror : ∀ e next, P (.error e) next → R (.error e) next) :
    (action >>= f).Ends state R := by
  intro s hs
  have hended := hfirst s hs
  rw [runIn_bind]
  rcases hrun : action.runIn s with ⟨result, next⟩
  rw [hrun] at hended
  cases result with
  | ok a => exact hok a next.state hended next rfl
  | error e => exact herror e next.state hended

theorem ends_record_bind
    {event : Event} {f : Unit → Action σ ε α} (h : (f ()).Ends state Q) :
    (record event >>= f).Ends state Q := by
  intro s hs
  rw [runIn_bind, runIn_record]
  exact h _ hs

theorem ends_getState_bind
    {f : σ → Action σ ε α} (h : (f state).Ends state Q) :
    (getState >>= f).Ends state Q := by
  intro s hs
  rw [runIn_bind, runIn_getState, hs]
  exact h s hs

theorem ends_setState_bind
    {next : σ} {f : Unit → Action σ ε α} (h : (f ()).Ends next Q) :
    (setState next >>= f).Ends state Q := by
  intro s _
  rw [runIn_bind, runIn_setState]
  exact h _ rfl

theorem runIn_mapError
    (g : ε → ε') (action : Action σ ε α) (s : Session σ) :
    (mapError g action).runIn s = ((action.runIn s).1.mapError g, (action.runIn s).2) := by
  rcases hrun : action.runIn s with ⟨result, next⟩
  cases result with
  | ok a => simp only [mapError, runIn] at hrun ⊢; rw [hrun]; rfl
  | error e => simp only [mapError, runIn] at hrun ⊢; rw [hrun]; rfl

theorem Ends.mapError
    {action : Action σ ε α} {g : ε → ε'} {R : Except ε' α → σ → Prop}
    (h : action.Ends state P)
    (hle : ∀ result next, P result next → R (result.mapError g) next) :
    (mapError g action).Ends state R := by
  intro s hs
  rw [runIn_mapError]
  exact hle _ _ (h s hs)

/-! ## Invariants -/

/-- States with an invariant are followed by such states, and the result has a property. -/
def Maintains (action : Action σ ε α) (I : σ → Prop) (R : α → Prop) : Prop :=
  ∀ state, I state → action.Ends state fun result next => I next ∧ ∀ a, result = .ok a → R a

section Maintains

variable {I : σ → Prop} {R : α → Prop} {S : β → Prop}

theorem maintains_pure
    {a : α} (h : R a) :
    (pure a : Action σ ε α).Maintains I R := by
  intro state hstate
  refine ends_pure ⟨hstate, ?_⟩
  rintro _ ⟨⟩
  exact h

theorem maintains_throw
    (e : ε) :
    (throw e : Action σ ε α).Maintains I R :=
  fun _ hstate => ends_throw ⟨hstate, nofun⟩

theorem Maintains.mono
    {action : Action σ ε α} {R' : α → Prop} (h : action.Maintains I R) (hle : ∀ a, R a → R' a) :
    action.Maintains I R' := by
  intro state hstate
  refine (h state hstate).mono ?_
  rintro result next ⟨hnext, hresult⟩
  exact ⟨hnext, fun a ha => hle a (hresult a ha)⟩

theorem Maintains.bind
    {action : Action σ ε α} {f : α → Action σ ε β} (hfirst : action.Maintains I R)
    (hsecond : ∀ a, R a → (f a).Maintains I S) :
    (action >>= f).Maintains I S := by
  intro state hstate
  refine (hfirst state hstate).bind ?_ ?_
  · rintro a next ⟨hnext, hresult⟩
    exact hsecond a (hresult a rfl) next hnext
  · rintro e next ⟨hnext, -⟩
    exact ⟨hnext, nofun⟩

theorem maintains_record_bind
    {event : Event} {f : Unit → Action σ ε α} (h : (f ()).Maintains I R) :
    (record event >>= f).Maintains I R :=
  fun state hstate => ends_record_bind (h state hstate)

theorem Maintains.mapError
    {action : Action σ ε α} (h : action.Maintains I R) (g : ε → ε') :
    (mapError g action).Maintains I R := by
  intro state hstate
  refine (h state hstate).mapError ?_
  rintro (e | a) next ⟨hnext, hresult⟩
  · exact ⟨hnext, nofun⟩
  · refine ⟨hnext, ?_⟩
    rintro _ ⟨⟩
    exact hresult a rfl

end Maintains

end Action

end SkillLang
