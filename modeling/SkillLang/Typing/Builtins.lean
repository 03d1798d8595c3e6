import SkillLang.Signature.Basic

/-!
# Builtin functions

Timers, and the actions that show results or say something.
-/

namespace SkillLang.Builtin

def timer : Signature where
  type := .stream
  device := none
  name := "timer"
  args := [{ name := "base", direction := .inReq, type := .date },
    { name := "interval", direction := .inReq, type := .measure "ms" },
    { name := "frequency", direction := .inOpt, type := .number }]

def attimer : Signature where
  type := .stream
  device := none
  name := "attimer"
  args := [{ name := "time", direction := .inReq, type := .array .time },
    { name := "expiration_date", direction := .inOpt, type := .date }]

def ontimer : Signature where
  type := .stream
  device := none
  name := "ontimer"
  args := [{ name := "date", direction := .inReq, type := .array .date }]

def notify : Signature where
  type := .action
  device := none
  name := "notify"

def say : Signature where
  type := .action
  device := none
  name := "say"
  args := [{ name := "message", direction := .inOpt, type := .string }]

def all : List Signature :=
  [timer, attimer, ontimer, notify, say]

def function? (name : String) : Option Signature :=
  all.find? fun s => s.name == name

def isBuiltin (name : String) : Bool :=
  (function? name).isSome

end SkillLang.Builtin
