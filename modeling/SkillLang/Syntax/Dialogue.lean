import SkillLang.Log.Event
import SkillLang.Syntax.Program

/-!
# Dialogues

The state of a dialogue is the list of the statements that were proposed, accepted or
confirmed in it.  Only confirmed statements have been run and can have results, so the
current item is the last one with results, and the next one comes after it.
-/

namespace SkillLang

inductive Confirmation where
  | proposed
  | accepted
  | confirmed
deriving DecidableEq

def Confirmation.name : Confirmation → String
  | .proposed => "proposed"
  | .accepted => "accepted"
  | .confirmed => "confirmed"

/-- One result of a statement: values by name. -/
structure ResultRow where
  values : List (String × Value)
  range : Option Range

structure ResultList where
  rows : List ResultRow
  count : Value
  more : Bool
  error : Option Value
  range : Option Range

/-- Results were to be attached to a statement that is not confirmed. -/
structure UnconfirmedResults where
  confirm : Confirmation
deriving DecidableEq

instance : Diagnostic UnconfirmedResults where
  kind _ := "InvalidDialogueState"
  code _ := .invalidDialogueState
  message e := "Invalid dialogue state: history item in state '" ++ e.confirm.name ++
    "' cannot carry results"
  range _ := none

structure HistoryItem where
  statement : ExpressionStatement
  results : Option ResultList
  confirm : Confirmation
  range : Option Range
  /-- Only confirmed statements have results. -/
  confirmed_of_results : results.isSome = true → confirm = .confirmed

namespace HistoryItem

/-- An item of the history, unless it would have results without being confirmed. -/
def of? (statement : ExpressionStatement) (results : Option ResultList) (confirm : Confirmation)
    (range : Option Range) : Except UnconfirmedResults HistoryItem :=
  if h : results.isSome = true → confirm = .confirmed then
    .ok ⟨statement, results, confirm, range, h⟩
  else .error ⟨confirm⟩

def setResults (item : HistoryItem) (results : Option ResultList) :
    Except UnconfirmedResults HistoryItem :=
  of? item.statement results item.confirm item.range

def setConfirm (item : HistoryItem) (confirm : Confirmation) :
    Except UnconfirmedResults HistoryItem :=
  of? item.statement item.results confirm item.range

end HistoryItem

structure DialogueState where
  policy : String
  act : String
  params : Option (List String)
  history : List HistoryItem
  range : Option Range

namespace DialogueState

/-- The index of the last item of a list that passes a test, when the first item has index
`index`. -/
def lastIndex? (test : α → Bool) (index : Nat) : List α → Option Nat
  | [] => none
  | item :: items =>
    (lastIndex? test (index + 1) items).or (if test item then some index else none)

def currentIndex? (s : DialogueState) : Option Nat :=
  lastIndex? (fun item => item.results.isSome) 0 s.history

def push (s : DialogueState) (item : HistoryItem) : DialogueState :=
  { s with history := s.history ++ [item] }

end DialogueState

/-- Everything that can be said to the assistant. -/
inductive Input where
  | program (p : Program)
  | permission (r : PermissionRule)
  | dialogue (s : DialogueState)
  | control (c : ControlCommand)

def Input.kind : Input → String
  | .program _ => "program"
  | .permission _ => "permission rule"
  | .dialogue _ => "dialogue state"
  | .control _ => "control command"

end SkillLang
