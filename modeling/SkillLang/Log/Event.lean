import SkillLang.Json.Basic
import SkillLang.Limits
import SkillLang.Log.Code
import SkillLang.Source.Range
import SkillLang.Text.Basic

/-!
# Events

An event records something that happened: how important it is, its code, a message
that is clipped when it is too long, and the circumstances as named texts.
-/

namespace SkillLang

/-- Levels of detail, the most important first. -/
inductive LogLevel where
  | error
  | warning
  | info
  | debug
deriving DecidableEq, Repr

namespace LogLevel

def rank : LogLevel → Nat
  | error => 0
  | warning => 1
  | info => 2
  | debug => 3

def name : LogLevel → String
  | error => "ERROR"
  | warning => "WARN"
  | info => "INFO"
  | debug => "DEBUG"

/-- The code of events of a level that are given none. -/
def defaultCode : LogLevel → Code
  | error => .internalError
  | warning => ⟨"W000"⟩
  | info => ⟨"I000"⟩
  | debug => ⟨"D000"⟩

end LogLevel

structure Event where
  level : LogLevel
  code : Code
  message : String
  range : Option Range
  context : Keyed String

namespace Event

def clipMessage (message : String) : String :=
  Text.clip Limits.maxLogMessageLength Limits.maxLogMessageLength message

def new (level : LogLevel) (code : Option Code) (message : String) (range : Option Range)
    (context : List (String × String)) : Event :=
  ⟨level, code.getD level.defaultCode, clipMessage message, range, Keyed.ofList context⟩

def failure (code : Code) (message : String) (range : Option Range)
    (context : List (String × String)) : Event :=
  new .error (some code) message range context

def success (code : Code) (message : String) (context : List (String × String)) : Event :=
  new .info (some code) message none context

def info (message : String) (context : List (String × String)) : Event :=
  new .info none message none context

def warning (message : String) (context : List (String × String)) : Event :=
  new .warning none message none context

def debug (message : String) (context : List (String × String)) : Event :=
  new .debug none message none context

def isError (e : Event) : Bool :=
  e.level == .error

def isInfo (e : Event) : Bool :=
  e.level == .info

def category (e : Event) : String :=
  e.code.category

def display (e : Event) : String :=
  "[" ++ e.level.name ++ " " ++ e.code.text ++ "] " ++ e.message ++
    (match e.range with
      | some range => " at " ++ range.first.display
      | none => "") ++
    (if e.context.isEmpty then ""
      else " (" ++ ", ".intercalate (e.context.map fun (key, value) => key ++ "=" ++ value) ++ ")")

def locationJson (l : Location) : Json :=
  let part (n : Option Nat) : Json := match n with
    | some n => .int n
    | none => .null
  .obj [("offset", part l.offset), ("line", part l.line), ("column", part l.column),
    ("token", part l.token)]

def rangeJson (r : Range) : Json :=
  .obj [("start", locationJson r.first), ("end", locationJson r.last)]

/-- An event in JSON; what is known about its code is added to errors. -/
def toJson (e : Event) : Json :=
  .obj <| [("level", .str e.level.name), ("code", .str e.code.text),
      ("category", .str e.category), ("message", .str e.message)] ++
    (match e.range with
      | some range => [("range", rangeJson range)]
      | none => []) ++
    (if e.context.isEmpty then []
      else [("context", .obj (Keyed.mapValues Json.str e.context))]) ++
    (if e.isError then
      [("error", .obj [("severity", .str e.code.severity.name),
        ("recoverable", .bool e.code.isRecoverable),
        ("requires_halt", .bool e.code.requiresHalt),
        ("description", .str e.code.description),
        ("recommended_action", .str e.code.action)])]
    else [])

end Event

/-!
## Diagnostics

Errors of every part of the library can be reported: each has a kind, a code, a
message and perhaps a place in the source.
-/

class Diagnostic (ε : Type) where
  kind : ε → String
  code : ε → Code
  message : ε → String
  range : ε → Option Range

/-- A text as it appears in the message of an error. -/
def excerpt (text : String) : String :=
  Text.clip Limits.maxErrorMessageLength (Limits.maxErrorMessageLength - 3) text

end SkillLang
