import SkillLang.Entities.Finder
import SkillLang.Log.Logger
import SkillLang.Serialization.Words
import SkillLang.Typing.Schemas
import SkillLang.Wire.Basic

/-!
# Errors and events in the wire form

An error is an object with the member `error`, which holds the kind of the error.  What
is known about its code is added, and its place if errors of that family have places.
-/

namespace SkillLang

open Wire

/-! ## Events -/

namespace LogLevel

def ofWire : Json → FromWire LogLevel :=
  word [("ERROR", .error), ("WARN", .warning), ("INFO", .info), ("DEBUG", .debug)]

end LogLevel

def Code.ofWire (j : Json) : FromWire Code := do
  return ⟨← asText j⟩

namespace Event

def toWire (e : Event) : Json :=
  .obj [("level", text e.level.name), ("code", text e.code.text), ("message", text e.message),
    ("range", orNull Range.toWire e.range), ("context", .obj (Keyed.mapValues text e.context))]

end Event

def Code.toWire (c : Code) : Json :=
  .obj [("severity", .str c.severity.name), ("recoverable", .bool c.isRecoverable),
    ("halt", .bool c.requiresHalt), ("description", .str c.description),
    ("action", .str c.action), ("category", .str c.category),
    ("metadata", orNull (fun e : CodeEntry =>
      .arr [.str e.code.text, .str e.category, .str e.severity.name, .bool e.recoverable,
        .bool e.requiresHalt, .str e.description, .str e.action]) c.entry?)]

/-! ## Errors -/

namespace Wire

def failed (kind : String) : List (String × Json) :=
  [("error", text kind)]

def failedWith (kind message : String) : List (String × Json) :=
  [("error", text kind), ("message", text message)]

def unplaced {ε : Type} [Diagnostic ε] (e : ε) : List (String × Json) :=
  let code := Diagnostic.code e
  failedWith (Diagnostic.kind e) (Diagnostic.message e) ++
    [("code", text code.text), ("severity", text code.severity.name),
      ("recoverable", .bool code.isRecoverable)]

def placed {ε : Type} [Diagnostic ε] (e : ε) : List (String × Json) :=
  unplaced e ++ [("range", orNull Range.toWire (Diagnostic.range e))]

end Wire

def SerializeError.members : SerializeError → List (String × Json)
  | .conversion e => placed e
  | e => unplaced e

def SchemaError.toWire : SchemaError → Json
  | malformed _ => .obj (failed "Json")
  | notFound device channel => .obj (failedWith "NotFound" (message (notFound device channel)))
  | invalid name reason => .obj (failedWith "InvalidSchema" (message (invalid name reason)))

def Ty.SyntaxError.toWire (e : Ty.SyntaxError) : Json :=
  .obj (failedWith "TypeParseError" e.message)

def WireError.toWire : WireError → Json
  | malformed => .obj (failed "BadInput")
  | signature => .obj (failed "Json")
  | type e => e.toWire
  | results e => .obj (placed e)

end SkillLang
