import SkillLang.Syntax.Dialogue

/-!
# Dialogues that go on

While a dialogue goes on, the index of its current item is kept beside its state and found again
whenever the history changes.  The history can be changed in any way, and in particular by edits
of single items, which are refused where results would meet an unconfirmed statement.
-/

namespace SkillLang

/-! ## Edits of a history -/

/-- An edit of one item of a history. -/
inductive HistoryEdit where
  | insert (index : Nat) (statement : ExpressionStatement) (results : Option ResultList)
      (confirm : Confirmation) (range : Option Range)
  | remove (index : Nat)
  | setResults (index : Nat) (results : Option ResultList)
  | setConfirm (index : Nat) (confirm : Confirmation)

/-- Something that is done to a history in place and may be refused. -/
abbrev Editing : Type := ExceptT UnconfirmedResults (StateM (List HistoryItem)) Unit

namespace HistoryEdit

/-- Puts a new item in front of the one at an index. -/
def insertAt (index : Nat) (item : Except UnconfirmedResults HistoryItem) : Editing := do
  let item ← liftExcept item
  modify fun items => items.take index ++ item :: items.drop index

/-- Puts an item in place of the one at an index. -/
def putAt (index : Nat) (item : Except UnconfirmedResults HistoryItem) : Editing := do
  let item ← liftExcept item
  modify fun items => items.set index item

/-- Changes the item at an index, if there is one. -/
def changeAt (index : Nat) (f : HistoryItem → Except UnconfirmedResults HistoryItem) :
    Editing := do
  match (← get)[index]? with
  | some item => putAt index (f item)
  | none => return ()

def run : HistoryEdit → Editing
  | insert index statement results confirm range =>
    insertAt index (HistoryItem.of? statement results confirm range)
  | remove index => modify fun items => items.eraseIdx index
  | setResults index results => changeAt index fun item => item.setResults results
  | setConfirm index confirm => changeAt index fun item => item.setConfirm confirm

end HistoryEdit

/-! ## Dialogues with their current item -/

structure TrackedDialogue where
  state : DialogueState
  /-- The index of the current item. -/
  current : Option Nat

namespace TrackedDialogue

def history (d : TrackedDialogue) : List HistoryItem :=
  d.state.history

/-- Looks for the current item again. -/
def track (d : TrackedDialogue) : TrackedDialogue :=
  { d with current := d.state.currentIndex? }

def of (state : DialogueState) : TrackedDialogue :=
  track ⟨state, none⟩

def current? (d : TrackedDialogue) : Option HistoryItem :=
  d.current.bind fun index => d.history[index]?

def nextIndex (d : TrackedDialogue) : Nat :=
  match d.current with
  | some index => index + 1
  | none => 0

/-- The item after the current one, or the first item if there is no current one. -/
def next? (d : TrackedDialogue) : Option HistoryItem :=
  d.history[d.nextIndex]?

def push (d : TrackedDialogue) (item : HistoryItem) : TrackedDialogue :=
  track { d with state := d.state.push item }

def updateHistory (d : TrackedDialogue) (change : StateM (List HistoryItem) α) :
    α × TrackedDialogue :=
  let (result, history) := change.run d.history
  (result, track { d with state := { d.state with history } })

end TrackedDialogue

end SkillLang
