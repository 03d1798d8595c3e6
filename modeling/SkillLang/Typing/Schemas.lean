import SkillLang.Json.Parser
import SkillLang.Log.Event
import SkillLang.Log.Session
import SkillLang.Signature.Json
import SkillLang.Syntax.Program

/-!
# Sources of signatures

The signatures of device functions are looked up by class, name and kind.  They may
come from a library that is kept in memory, or from any other source, in front of which
a cache remembers every signature that was found.
-/

namespace SkillLang

inductive LookupKind where
  | query
  | action
  | both
deriving DecidableEq

namespace LookupKind

def name : LookupKind → String
  | query => "query"
  | action => "action"
  | both => "both"

/-- The type of function that is asked for, if any. -/
def functionType? : LookupKind → Option FunctionType
  | query => some .query
  | action => some .action
  | both => none

end LookupKind

structure LookupKey where
  device : String
  channel : String
  kind : LookupKind
deriving DecidableEq

inductive SchemaError where
  | notFound (device channel : String)
  /-- A signature is known under a name and makes no sense. -/
  | invalid (name reason : String)
  /-- The text that signatures stand in cannot be read. -/
  | malformed (reason : String)
deriving DecidableEq

def SchemaError.message : SchemaError → String
  | notFound device channel => "Function @" ++ device ++ "." ++ channel ++ " not found"
  | invalid name reason => "Invalid schema for " ++ name ++ ": " ++ reason
  | malformed reason => "Invalid schema JSON: " ++ reason

/-- A source of signatures, which may have a state and answer differently from time to time. -/
abbrev SchemaSource (σ : Type) : Type :=
  LookupKey → StateM σ (Except SchemaError Signature)

/-- A source that always gives the same answers. -/
def SchemaSource.fixed (answer : LookupKey → Except SchemaError Signature) : SchemaSource Unit :=
  fun key => pure (answer key)

/-! ## Libraries -/

/-- The classes that are kept in memory. -/
structure SchemaLibrary where
  classes : Keyed ClassDef := []

namespace SchemaLibrary

def add (l : SchemaLibrary) (s : Signature) : SchemaLibrary :=
  let kind := s.device.getD ""
  let c := (Keyed.find? kind l.classes).getD (.empty kind)
  ⟨Keyed.insert kind (c.withFunction s) l.classes⟩

/-- Adds a class in place of any class of its kind. -/
def addClass (l : SchemaLibrary) (c : ClassDef) : SchemaLibrary :=
  ⟨Keyed.insert c.kind c l.classes⟩

def ofList (signatures : List Signature) : SchemaLibrary :=
  signatures.foldl add {}

def lookup? (l : SchemaLibrary) (key : LookupKey) : Option Signature := do
  (← Keyed.find? key.device l.classes).function? key.channel key.kind.functionType?

def answer (l : SchemaLibrary) (key : LookupKey) : Except SchemaError Signature :=
  match l.lookup? key with
  | some s => .ok s
  | none => .error (.notFound key.device key.channel)

def source (l : SchemaLibrary) : SchemaSource Unit :=
  SchemaSource.fixed l.answer

/-- The depth to which the text of a library may be nested. -/
def maxNesting : Nat := 127

/-- Adds functions from a file in order, each of which has to have a class. -/
def addStored (l : SchemaLibrary) : List Signature → Except SchemaError SchemaLibrary
  | [] => .ok l
  | s :: rest =>
    match s.device with
    | none => .error (.invalid s.name "function has no class")
    | some _ => addStored (l.add s) rest

/-- The library that is written in a text.  Where and why a text cannot be read is not said. -/
def ofText (text : String) : Except SchemaError SchemaLibrary :=
  match (Json.parseShaped (.list Signature.shape) maxNesting text).bind
      (Json.listOf Signature.ofJson?) with
  | some signatures => addStored {} signatures
  | none => .error (.malformed "")

def loadedEvent (l : SchemaLibrary) : Event :=
  .debug "Loaded schemas" [("classes", toString l.classes.length)]

end SchemaLibrary

/-! ## Caches -/

/-- The signatures that have been found, by what was looked up. -/
structure SchemaCache where
  entries : List (LookupKey × Signature) := []

namespace SchemaCache

def find? (c : SchemaCache) (key : LookupKey) : Option Signature :=
  c.entries.lookup key

def size (c : SchemaCache) : Nat :=
  c.entries.length

/-- Remembers a signature for a key that has none yet. -/
def remember (c : SchemaCache) (key : LookupKey) (s : Signature) : SchemaCache :=
  ⟨(key, s) :: c.entries⟩

end SchemaCache

/-- A source behind a cache: what has been found once is not looked up again, and failures are
not remembered. -/
def SchemaSource.cached {σ : Type} (inner : SchemaSource σ) : SchemaSource (σ × SchemaCache) :=
  fun key (state, cache) =>
    match cache.find? key with
    | some s => (.ok s, state, cache)
    | none =>
      match inner key state with
      | (.ok s, state) => (.ok s, state, cache.remember key s)
      | (.error e, state) => (.error e, state, cache)

end SkillLang
