import SkillLang.Log.Event

/-!
# Sessions

Work that is logged runs in a session: it may change the session's state, it records
events, and it may fail, in which case the state and the log remain as they were at
that point.
-/

namespace SkillLang

structure Session (σ : Type) where
  state : σ
  /-- The recorded events, the oldest first. -/
  log : Array Event := #[]

abbrev Action (σ ε α : Type) : Type := ExceptT ε (StateM (Session σ)) α

namespace Action

variable {σ ε ε' α : Type}

def record (e : Event) : Action σ ε Unit :=
  modify fun s => { s with log := s.log.push e }

def getState : Action σ ε σ := do
  return (← get).state

def setState (state : σ) : Action σ ε Unit :=
  modify fun s => { s with state }

/-- Runs an action in a session; the result comes with the session after it. -/
def runIn (action : Action σ ε α) (s : Session σ) : Except ε α × Session σ :=
  action s

def mapError (f : ε → ε') (action : Action σ ε α) : Action σ ε' α := fun s =>
  match action.runIn s with
  | (.ok a, s) => (.ok a, s)
  | (.error e, s) => (.error (f e), s)

end Action

end SkillLang
