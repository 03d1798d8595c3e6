import Mathlib.Data.List.Forall2
import SkillLang.Typing.Checker

/-!
# Results of actions

What an action ends with depends on the session it runs in: on the state at its
start and, through it, on every answer that it gets on the way.  Two relations
abstract from the session.  A result is possible if some session leads to it, and
it is certain if every session does.
-/

namespace SkillLang

namespace Action

variable {σ ε α β : Type}

/-- Some session leads the action to the result. -/
def MayReturn (action : Action σ ε α) (a : α) : Prop :=
  ∃ s : Session σ, (action.runIn s).1 = .ok a

/-- Every session leads the action to the result. -/
def Returns (action : Action σ ε α) (a : α) : Prop :=
  ∀ s : Session σ, (action.runIn s).1 = .ok a

/-! ## Single steps -/

theorem runIn_pure (a : α) (s : Session σ) :
    (pure a : Action σ ε α).runIn s = (.ok a, s) :=
  rfl

theorem runIn_throw (e : ε) (s : Session σ) :
    (throw e : Action σ ε α).runIn s = (.error e, s) :=
  rfl

theorem runIn_record (event : Event) (s : Session σ) :
    (record event : Action σ ε Unit).runIn s =
      (.ok (), { s with log := s.log.push event }) :=
  rfl

theorem runIn_getState (s : Session σ) :
    (getState : Action σ ε σ).runIn s = (.ok s.state, s) :=
  rfl

theorem runIn_setState (state : σ) (s : Session σ) :
    (setState state : Action σ ε Unit).runIn s = (.ok (), { s with state }) :=
  rfl

theorem runIn_ofExcept (r : Except ε α) (s : Session σ) :
    (ofExcept r : Action σ ε α).runIn s = (r, s) := by
  cases r with
  | ok a => rfl
  | error e => rfl

/-- The second action runs only after a result of the first one. -/
theorem runIn_bind
    (action : Action σ ε α) (f : α → Action σ ε β) (s : Session σ) :
    (action >>= f).runIn s =
      match action.runIn s with
      | (.ok a, next) => (f a).runIn next
      | (.error e, next) => (.error e, next) := by
  change (ExceptT.bindCont f <| (action s).1) (action s).2 = _
  unfold runIn
  rcases action s with ⟨result, next⟩
  cases result with
  | ok a => rfl
  | error e => rfl

theorem runIn_bind_of_ok
    {action : Action σ ε α} {s next : Session σ} {a : α} (h : action.runIn s = (.ok a, next))
    (f : α → Action σ ε β) :
    (action >>= f).runIn s = (f a).runIn next := by
  rw [runIn_bind, h]

/-- Two actions in a row have a result only if the first one has one. -/
theorem exists_of_runIn_bind
    {action : Action σ ε α} {f : α → Action σ ε β} {s next : Session σ} {b : β}
    (h : (action >>= f).runIn s = (.ok b, next)) :
    ∃ a middle, action.runIn s = (.ok a, middle) ∧ (f a).runIn middle = (.ok b, next) := by
  rw [runIn_bind] at h
  rcases hrun : action.runIn s with ⟨result, middle⟩
  rw [hrun] at h
  cases result with
  | ok a => exact ⟨a, middle, rfl, h⟩
  | error e => cases h

theorem runIn_bind_eq_ok_iff
    {action : Action σ ε α} {f : α → Action σ ε β} {s next : Session σ} {b : β} :
    (action >>= f).runIn s = (.ok b, next) ↔
      ∃ a middle, action.runIn s = (.ok a, middle) ∧ (f a).runIn middle = (.ok b, next) := by
  constructor
  · exact exists_of_runIn_bind
  · rintro ⟨a, middle, hfirst, hrest⟩
    rw [runIn_bind_of_ok hfirst, hrest]

theorem runIn_ite_throw_bind_eq_ok_iff
    {p : Prop} [Decidable p] {e : ε} {f : α → Action σ ε β} {action : Action σ ε β}
    {s next : Session σ} {b : β} :
    (if p then throw e >>= f else action).runIn s = (.ok b, next) ↔
      ¬ p ∧ action.runIn s = (.ok b, next) := by
  by_cases hp : p
  · rw [if_pos hp, runIn_bind_eq_ok_iff]
    refine iff_of_false ?_ (fun h => h.1 hp)
    rintro ⟨a, middle, hthrow, -⟩
    rw [runIn_throw] at hthrow
    cases hthrow
  · rw [if_neg hp, and_iff_right hp]

/-- An error is handled in the session in which it came up. -/
theorem runIn_tryCatch
    (action : Action σ ε α) (handle : ε → Action σ ε α) (s : Session σ) :
    (tryCatch action handle).runIn s =
      match action.runIn s with
      | (.ok a, next) => (.ok a, next)
      | (.error e, next) => (handle e).runIn next := by
  unfold runIn
  simp only [tryCatch, tryCatchThe, MonadExceptOf.tryCatch, ExceptT.tryCatch, ExceptT.mk]
  rcases hrun : action s with ⟨result, next⟩
  cases result with
  | ok a =>
      simp only [bind, StateT.bind, hrun]
      rfl
  | error e => simp [bind, StateT.bind, hrun]

/-! ## Possible results -/

theorem MayReturn.eq_of_pure
    {a b : α} (h : (pure a : Action σ ε α).MayReturn b) :
    a = b := by
  obtain ⟨s, hs⟩ := h
  rw [runIn_pure] at hs
  exact Except.ok.inj hs

@[simp] theorem not_mayReturn_throw
    (e : ε) (a : α) :
    ¬ (throw e : Action σ ε α).MayReturn a := by
  rintro ⟨s, hs⟩
  rw [runIn_throw] at hs
  cases hs

theorem MayReturn.of_bind
    {action : Action σ ε α} {f : α → Action σ ε β} {b : β}
    (h : (action >>= f).MayReturn b) :
    ∃ a, action.MayReturn a ∧ (f a).MayReturn b := by
  obtain ⟨s, hs⟩ := h
  have hrun : (action >>= f).runIn s = (.ok b, ((action >>= f).runIn s).2) := Prod.ext hs rfl
  obtain ⟨a, next, hfirst, hrest⟩ := exists_of_runIn_bind hrun
  exact ⟨a, ⟨s, by rw [hfirst]⟩, next, by rw [hrest]⟩

@[simp] theorem not_mayReturn_throw_bind
    (e : ε) (f : α → Action σ ε β) (b : β) :
    ¬ (throw e >>= f).MayReturn b := by
  intro h
  obtain ⟨a, ha, -⟩ := h.of_bind
  exact not_mayReturn_throw e a ha

/-- A step that leaves the session alone only decides whether to go on. -/
@[simp] theorem mayReturn_ofExcept_bind
    (r : Except ε α) (f : α → Action σ ε β) (b : β) :
    (ofExcept r >>= f).MayReturn b ↔
      ∃ a, r = .ok a ∧ (f a).MayReturn b := by
  constructor
  · rintro ⟨s, hs⟩
    rw [runIn_bind, runIn_ofExcept] at hs
    cases r with
    | ok a => exact ⟨a, rfl, s, hs⟩
    | error e => cases hs
  · rintro ⟨a, rfl, s, hs⟩
    exact ⟨s, by rw [runIn_bind, runIn_ofExcept]; exact hs⟩

@[simp] theorem mayReturn_ite_throw_bind
    (p : Prop) [Decidable p] (e : ε)
    (f : α → Action σ ε β) (action : Action σ ε β) (b : β) :
    (if p then throw e >>= f else action).MayReturn b ↔
      ¬ p ∧ action.MayReturn b := by
  by_cases hp : p
  · simp [hp]
  · simp [hp]

/-- The results of a list of actions, one after the other. -/
theorem MayReturn.forall₂_of_mapM
    {f : α → Action σ ε β} {xs : List α} {ys : List β}
    (h : (xs.mapM f).MayReturn ys) :
    List.Forall₂ (fun x y => (f x).MayReturn y) xs ys := by
  induction xs generalizing ys with
  | nil =>
      rw [List.mapM_nil] at h
      cases h.eq_of_pure
      exact .nil
  | cons x xs ih =>
      rw [List.mapM_cons] at h
      obtain ⟨y, hy, h⟩ := h.of_bind
      obtain ⟨rest, hrest, h⟩ := h.of_bind
      cases h.eq_of_pure
      exact .cons hy (ih hrest)

/-! ## Certain results -/

theorem returns_pure (a : α) :
    (pure a : Action σ ε α).Returns a :=
  fun _ => rfl

theorem Returns.bind
    {action : Action σ ε α} {f : α → Action σ ε β} {a : α} {b : β}
    (ha : action.Returns a) (hb : (f a).Returns b) :
    (action >>= f).Returns b := by
  intro s
  rw [runIn_bind]
  have hfirst := ha s
  rcases hrun : action.runIn s with ⟨result, next⟩
  rw [hrun] at hfirst
  cases hfirst
  exact hb next

theorem returns_record (event : Event) :
    (record event : Action σ ε Unit).Returns () :=
  fun _ => rfl

theorem returns_ofExcept
    {r : Except ε α} {a : α} (h : r = .ok a) :
    (ofExcept r : Action σ ε α).Returns a := by
  intro s
  rw [runIn_ofExcept, h]

theorem returns_mapM
    {f : α → Action σ ε β} {xs : List α} {ys : List β}
    (h : List.Forall₂ (fun x y => (f x).Returns y) xs ys) :
    (xs.mapM f).Returns ys := by
  induction h with
  | nil =>
      rw [List.mapM_nil]
      exact returns_pure []
  | cons hhead _ ih =>
      rw [List.mapM_cons]
      exact hhead.bind (ih.bind (returns_pure _))

end Action

end SkillLang
