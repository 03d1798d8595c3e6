import SkillLang.Log.Event

/-!
# Logs

A log keeps the most recent events, up to its capacity, of the levels that it is
asked to keep.
-/

namespace SkillLang

structure Logger where
  /-- The number of events that are kept, at least one. -/
  capacity : Nat
  /-- The least important level that is kept. -/
  minLevel : LogLevel
  /-- The events that are kept, the oldest first. -/
  events : List Event := []

namespace Logger

def new (capacity : Nat) (minLevel : LogLevel) : Logger :=
  { capacity := max capacity 1, minLevel }

def shouldLog (l : Logger) (level : LogLevel) : Bool :=
  level.rank ≤ l.minLevel.rank

/-- Keeps an event, dropping the oldest one if there are too many. -/
def log (l : Logger) (e : Event) : Logger :=
  if l.shouldLog e.level then
    { l with events :=
        (if l.capacity ≤ l.events.length then l.events.drop 1 else l.events) ++ [e] }
  else l

def logFailure (l : Logger) (code : Code) (message : String) : Logger :=
  l.log (.failure code message none [])

def logSuccess (l : Logger) (code : Code) (message : String) : Logger :=
  l.log (.success code message [])

def clear (l : Logger) : Logger :=
  { l with events := [] }

def errors (l : Logger) : List Event :=
  l.events.filter Event.isError

def hasError (l : Logger) (code : Code) : Bool :=
  l.events.any fun e => e.isError && e.code == code

def hasSuccess (l : Logger) (code : Code) : Bool :=
  l.events.any fun e => e.isInfo && e.code == code

def inCategory (l : Logger) (category : String) : List Event :=
  l.events.filter fun e => e.category == category

end Logger

end SkillLang
