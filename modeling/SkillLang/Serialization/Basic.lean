import SkillLang.Serialization.Words
import SkillLang.Source.Pretty

/-!
# Serialization

An input is written in the current or in the legacy language, as text for people or as
words for machines.  The current language has version 2; whoever asks for
compatibility with an older version gets the legacy language.
-/

namespace SkillLang

inductive OutputFormat where
  | legacy
  | legacyWords
  | normal
  | words
deriving DecidableEq

namespace OutputFormat

def name : OutputFormat → String
  | legacy => "legacy"
  | legacyWords => "legacy-nn"
  | normal => "normal"
  | words => "tokenized"

def isLegacy : OutputFormat → Bool
  | legacy | legacyWords => true
  | normal | words => false

def isWords : OutputFormat → Bool
  | legacyWords | words => true
  | legacy | normal => false

end OutputFormat

/-! ## Versions -/

structure Version where
  major : Nat
  minor : Nat
  patch : Nat
deriving DecidableEq

namespace Version

/-- The version of the current language. -/
def current : Version := ⟨2, 0, 0⟩

def isBefore (a b : Version) : Bool :=
  a.major < b.major || (a.major == b.major &&
    (a.minor < b.minor || (a.minor == b.minor && a.patch < b.patch)))

/-- Reads up to three numbers with dots between them; the first one has to be there.  Blanks
around it do not count, nor does what comes after a hyphen or a plus sign. -/
def ofText? (text : String) : Option Version := do
  let core := (Text.trimChars text.toList).takeWhile fun c => c != '-' && c != '+'
  let number (part : Option String) : Option Nat :=
    match part with
    | some digits => Decimal.natOf? (Nat.pow 2 32) digits.toList
    | none => some 0
  match (String.ofList core).splitOn "." with
  | [] => none
  | major :: parts =>
    return ⟨← number (some major), ← number parts[0]?, ← number parts[1]?⟩

end Version

/-! ## Options -/

structure SerializeOptions where
  /-- The version of the language that the reader knows. -/
  compatibility : Option String
  /-- Seconds east of universal time, less than a day. -/
  timezone : Option Int
  now : Moment
  includeValue : Bool
  explicitStrings : Bool

namespace SerializeOptions

/-- The moment that relative dates refer to, told in the time zone of the options. -/
def referenceTime (o : SerializeOptions) : Moment :=
  match o.timezone with
  | some offset => if offset.natAbs < 86400 then o.now.atOffset offset else o.now
  | none => o.now

end SerializeOptions

/-- The finder takes its moment and its treatment of strings from options. -/
def SentenceFinder.withOptions (f : SentenceFinder) (o : SerializeOptions) : SentenceFinder :=
  { f with now := o.referenceTime, explicitStrings := o.explicitStrings }

/-! ## Serialization -/

/-- What an input has been written as. -/
inductive Serialized where
  | text (text : String)
  | words (words : Array String)

namespace Serialization

/-- The reader knows only the legacy language.  A version that makes no sense is recorded. -/
def wantsLegacy (o : SerializeOptions) : Serialize Bool :=
  match o.compatibility with
  | none => return false
  | some text =>
    match Version.ofText? text with
    | some version => return version.isBefore .current
    | none => do
      Action.record (.warning "Ignoring unparsable compatibility version" [("version", text)])
      return false

/-- The input is written in the legacy language. -/
def usesLegacy (format : OutputFormat) (options : SerializeOptions) : Serialize Bool :=
  if format.isLegacy then return true else wantsLegacy options

def streamOf (input : Input) (legacy : Bool) : Serialize TokenStream :=
  if legacy then
    match input.legacySource with
    | .ok stream => return stream
    | .error e => do
      if let some event := e.event? then
        Action.record event
      throw (.conversion e)
  else return input.source

end Serialization

/-- Writes an input; the finder of the session names its constants. -/
def Input.serialize (input : Input) (format : OutputFormat) (options : SerializeOptions) :
    Action EntityFinder SerializeError Serialized := do
  Action.record (.debug "Serializing input" [("kind", input.kind), ("syntax", format.name)])
  let stream ← Serialization.streamOf input (← Serialization.usesLegacy format options)
  if format.isWords then
    return .words (← stream.words options.includeValue)
  else
    let text := Pretty.print stream
    Action.record (.success .serializationComplete "Serialization complete"
      [("syntax", format.name), ("length", toString text.utf8ByteSize)])
    return .text text

/-- The finder that names constants when none is given: it starts without entities. -/
def SerializeOptions.freshFinder (o : SerializeOptions) : EntityFinder :=
  .allocator (.of [] o.explicitStrings o.referenceTime)

end SkillLang
