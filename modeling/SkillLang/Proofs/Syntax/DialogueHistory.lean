import Mathlib.Data.List.Basic
import SkillLang.Syntax.TrackedDialogue

/-!
# The history of a dialogue

Only confirmed statements have results.  The history of a dialogue is in two parts: the first
one ends with the current item, and no item of the second one has results.  The index that is
kept of the current item stays right through every run of changes, and an edit that is refused
leaves everything as it is.
-/

namespace SkillLang

/-! ## Items and edits -/

/-- An item is refused exactly if it would have results without being confirmed. -/
theorem HistoryItem.of?_eq_error_iff
    {statement : ExpressionStatement} {results : Option ResultList} {confirm : Confirmation}
    {range : Option Range} :
    (∃ e, of? statement results confirm range = .error e) ↔
      results.isSome = true ∧ confirm ≠ .confirmed := by
  unfold of?
  by_cases h : results.isSome = true → confirm = .confirmed
  · rw [dif_pos h]
    constructor
    · rintro ⟨e, he⟩
      cases he
    · intro hresults
      exact absurd (h hresults.1) hresults.2
  · rw [dif_neg h]
    exact ⟨fun _ => Classical.not_imp.mp h, fun _ => ⟨_, rfl⟩⟩

/-- An item that is not refused is as it was asked for. -/
theorem HistoryItem.of?_eq_ok
    {statement : ExpressionStatement} {results : Option ResultList} {confirm : Confirmation}
    {range : Option Range} {item : HistoryItem}
    (h : of? statement results confirm range = .ok item) :
    item.statement = statement ∧ item.results = results ∧ item.confirm = confirm ∧
      item.range = range := by
  unfold of? at h
  split at h
  next =>
      cases h
      exact ⟨rfl, rfl, rfl, rfl⟩
  next => cases h

namespace HistoryEdit

variable {items : List HistoryItem} {index : Nat} {e : UnconfirmedResults}

theorem insertAt_refused
    {item : Except UnconfirmedResults HistoryItem}
    (h : ((insertAt index item).run.run items).1 = .error e) :
    ((insertAt index item).run.run items).2 = items := by
  cases item with
  | error _ => rfl
  | ok _ => cases h

theorem putAt_refused
    {item : Except UnconfirmedResults HistoryItem}
    (h : ((putAt index item).run.run items).1 = .error e) :
    ((putAt index item).run.run items).2 = items := by
  cases item with
  | error _ => rfl
  | ok _ => cases h

theorem changeAt_run
    (index : Nat) (f : HistoryItem → Except UnconfirmedResults HistoryItem)
    (items : List HistoryItem) :
    (changeAt index f).run.run items =
      match items[index]? with
      | some item => (putAt index (f item)).run.run items
      | none => (.ok (), items) := by
  change (match items[index]? with
    | some item => putAt index (f item)
    | none => pure () : Editing).run.run items = _
  cases items[index]? with
  | some _ => rfl
  | none => rfl

theorem changeAt_refused
    {f : HistoryItem → Except UnconfirmedResults HistoryItem}
    (h : ((changeAt index f).run.run items).1 = .error e) :
    ((changeAt index f).run.run items).2 = items := by
  rw [changeAt_run] at h ⊢
  cases hitem : items[index]? with
  | some item =>
      rw [hitem] at h
      exact putAt_refused h
  | none => rfl

/-- An edit that is refused leaves the history as it is. -/
theorem run_refused
    {edit : HistoryEdit} (h : (edit.run.run.run items).1 = .error e) :
    (edit.run.run.run items).2 = items := by
  cases edit with
  | insert _ _ _ _ _ => exact insertAt_refused h
  | remove _ => cases h
  | setResults _ _ => exact changeAt_refused h
  | setConfirm _ _ => exact changeAt_refused h

end HistoryEdit

/-! ## The current item -/

namespace DialogueState

/-- The last item that passes a test ends the first of two parts, and no item of the second part
passes it. -/
theorem exists_append_of_lastIndex?
    (test : α → Bool) (index : Nat) (items : List α) :
    ∃ front back, items = front ++ back ∧
      (∀ item, front.getLast? = some item → test item = true) ∧
      (∀ item ∈ back, test item = false) ∧
      lastIndex? test index items =
        if front.isEmpty then none else some (index + (front.length - 1)) := by
  induction items generalizing index with
  | nil =>
      refine ⟨[], [], rfl, ?_, ?_, rfl⟩
      · intro item hitem
        cases hitem
      · intro item hitem
        cases hitem
  | cons first items ih =>
      obtain ⟨front, back, rfl, hfront, hback, hindex⟩ := ih (index + 1)
      rw [lastIndex?, hindex]
      -- The first item is the last one that passes only if none of the others does.
      cases front with
      | cons next front =>
          refine ⟨first :: next :: front, back, rfl, ?_, hback, ?_⟩
          · intro item hitem
            rw [List.getLast?_cons_cons] at hitem
            exact hfront item hitem
          · simp only [List.isEmpty_cons, List.length_cons]
            exact congrArg some (by omega)
      | nil =>
          by_cases hfirst : test first = true
          · refine ⟨[first], back, rfl, ?_, hback, ?_⟩
            · intro item hitem
              cases hitem
              exact hfirst
            · rw [if_pos hfirst]
              rfl
          · refine ⟨[], first :: back, rfl, ?_, ?_, ?_⟩
            · intro item hitem
              cases hitem
            · intro item hitem
              rcases List.mem_cons.mp hitem with rfl | hmem
              · exact Bool.eq_false_iff.mpr hfirst
              · exact hback item hmem
            · rw [if_neg hfirst]
              rfl

end DialogueState

namespace TrackedDialogue

/-- The index of the current item is right. -/
def IsTracked (d : TrackedDialogue) : Prop :=
  d.current = d.state.currentIndex?

/-- The history is in two parts: the first one ends with the current item, the second one begins
with the next item, and nothing in the second one has been run. -/
theorem IsTracked.exists_append
    {d : TrackedDialogue} (h : d.IsTracked) :
    ∃ executed pending, d.history = executed ++ pending ∧
      d.current? = executed.getLast? ∧ d.next? = pending.head? ∧
      (∀ item, d.current? = some item → item.results.isSome = true) ∧
      ∀ item ∈ pending, item.results = none := by
  obtain ⟨executed, pending, hhistory, hexecuted, hpending, hindex⟩ :=
    DialogueState.exists_append_of_lastIndex? (fun item => item.results.isSome) 0 d.history
  have hcurrent : d.current =
      if executed.isEmpty then none else some (executed.length - 1) := by
    rw [Nat.zero_add] at hindex
    exact h.trans hindex
  have hlast : d.current? = executed.getLast? := by
    rw [current?, hcurrent, hhistory]
    cases executed with
    | nil => rfl
    | cons first executed =>
        rw [List.getLast?_eq_getElem?]
        exact List.getElem?_append_left (by simp)
  have hnext : d.next? = pending.head? := by
    have hlength : d.nextIndex = executed.length := by
      rw [nextIndex, hcurrent]
      cases executed with
      | nil => rfl
      | cons first executed => rfl
    rw [next?, hlength, hhistory, List.getElem?_append_right (Nat.le_refl _), Nat.sub_self,
      List.head?_eq_getElem?]
  refine ⟨executed, pending, hhistory, hlast, hnext, ?_, ?_⟩
  · intro item hitem
    rw [hlast] at hitem
    exact hexecuted item hitem
  · intro item hitem
    exact Option.not_isSome_iff_eq_none.mp (Bool.eq_false_iff.mp (hpending item hitem))

/-! ## Runs -/

theorem isTracked_of (state : DialogueState) : (of state).IsTracked :=
  rfl

/-- Nothing happens to a dialogue whose history comes out as it was. -/
theorem IsTracked.updateHistory_eq
    {d : TrackedDialogue} (h : d.IsTracked) {α : Type} {change : StateM (List HistoryItem) α}
    (hkept : (change.run d.history).2 = d.history) :
    (d.updateHistory change).2 = d := by
  change track { d with state := { d.state with history := (change.run d.history).2 } } = d
  obtain ⟨state, current⟩ := d
  have hcurrent : current = state.currentIndex? := h
  subst hcurrent
  rw [hkept]
  rfl

end TrackedDialogue

/-- What can be done with a dialogue that goes on: an item is added, or the history is changed in
any way. -/
inductive DialogueStep where
  | push (item : HistoryItem)
  | update (change : StateM (List HistoryItem) Unit)

namespace TrackedDialogue

def step (d : TrackedDialogue) : DialogueStep → TrackedDialogue
  | .push item => d.push item
  | .update change => (d.updateHistory change).2

def after (d : TrackedDialogue) (steps : List DialogueStep) : TrackedDialogue :=
  steps.foldl step d

theorem isTracked_step (d : TrackedDialogue) (s : DialogueStep) : (d.step s).IsTracked := by
  cases s with
  | push item => rfl
  | update change => rfl

theorem IsTracked.after
    {d : TrackedDialogue} (h : d.IsTracked) (steps : List DialogueStep) :
    (d.after steps).IsTracked := by
  induction steps generalizing d with
  | nil => exact h
  | cons s steps ih => exact ih (d.isTracked_step s)

/-- Whatever is done with a dialogue, only confirmed items have results, its current item is the
last one with results, and the next one comes after it.  An edit that is refused changes nothing.
An item is refused exactly if it would have results without being confirmed, and otherwise it is
as asked for. -/
theorem run_keeps_history
    (start : DialogueState) (steps : List DialogueStep) :
    let d := (of start).after steps
    (∀ item ∈ d.history, item.results.isSome = true → item.confirm = .confirmed) ∧
    (∃ executed pending, d.history = executed ++ pending ∧
      d.current? = executed.getLast? ∧ d.next? = pending.head? ∧
      (∀ item, d.current? = some item → item.results.isSome = true) ∧
      ∀ item ∈ pending, item.results = none) ∧
    (∀ (edit : HistoryEdit) (e : UnconfirmedResults),
      (d.updateHistory edit.run.run).1 = .error e →
        (edit.run.run.run d.history).2 = d.history ∧ (d.updateHistory edit.run.run).2 = d) ∧
    ∀ statement results confirm range,
      ((∃ e, HistoryItem.of? statement results confirm range = .error e) ↔
        results.isSome = true ∧ confirm ≠ .confirmed) ∧
      ∀ item, HistoryItem.of? statement results confirm range = .ok item →
        item.statement = statement ∧ item.results = results ∧ item.confirm = confirm ∧
          item.range = range := by
  intro d
  have htracked : d.IsTracked := (isTracked_of start).after steps
  refine ⟨?_, htracked.exists_append, ?_, ?_⟩
  · intro item _
    exact item.confirmed_of_results
  · intro edit e herror
    have hkept := HistoryEdit.run_refused herror
    exact ⟨hkept, htracked.updateHistory_eq hkept⟩
  · intro statement results confirm range
    exact ⟨HistoryItem.of?_eq_error_iff, fun _ => HistoryItem.of?_eq_ok⟩

end TrackedDialogue

end SkillLang
