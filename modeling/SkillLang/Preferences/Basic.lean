import SkillLang.Json.Basic
import SkillLang.Log.Logger
import SkillLang.Serialization.Basic
import SkillLang.Text.Lowercase
import SkillLang.Typing.Checker

/-!
# Preferences

How users want checking, serialization and logging to be done.  Unless a document says
otherwise, preferences are taken from the environment, in which a variable that makes
no sense counts as missing.
-/

namespace SkillLang

structure CheckingPreferences where
  lenient : Bool
  logLookups : Bool

structure SerializationPreferences where
  /-- The version of the language that readers know. -/
  compatibility : Option String
  explicitStrings : Bool
  includeValue : Bool

structure LoggingPreferences where
  structured : Bool
  console : Bool
  minLevel : LogLevel
  performance : Bool

structure Preferences where
  checking : CheckingPreferences
  serialization : SerializationPreferences
  logging : LoggingPreferences

/-! ## The environment -/

/-- The values of variables. -/
abbrev Environment : Type := Keyed String

namespace Environment

def word? (env : Environment) (name : String) : Option String :=
  Keyed.find? name env

def flag? (env : Environment) (name : String) : Option Bool :=
  match env.word? name with
  | some "true" => some true
  | some "false" => some false
  | _ => none

/-- A level by its name in any case, or by its number. -/
def levelOf? (name : String) : Option LogLevel :=
  match Text.lowercase name with
  | "error" | "0" => some .error
  | "warning" | "warn" | "1" => some .warning
  | "info" | "2" => some .info
  | "debug" | "3" => some .debug
  | _ => none

def level? (env : Environment) (name : String) : Option LogLevel :=
  (env.word? name).bind levelOf?

end Environment

def CheckingPreferences.ofEnvironment (env : Environment) : CheckingPreferences where
  lenient := (env.flag? "THINGTALK_TYPECHECK_LENIENT").getD false
  logLookups := (env.flag? "THINGTALK_TYPECHECK_LOG_SCHEMA_LOOKUPS").getD true

def SerializationPreferences.ofEnvironment (env : Environment) : SerializationPreferences where
  compatibility := env.word? "THINGTALK_SERIALIZATION_COMPATIBILITY"
  explicitStrings := (env.flag? "THINGTALK_SERIALIZATION_EXPLICIT_STRINGS").getD false
  includeValue := (env.flag? "THINGTALK_SERIALIZATION_INCLUDE_ENTITY_VALUE").getD false

def LoggingPreferences.ofEnvironment (env : Environment) : LoggingPreferences where
  structured := (env.flag? "THINGTALK_LOGGING_USE_STRUCTURED").getD false
  console := (env.flag? "THINGTALK_LOGGING_ENABLE_CONSOLE").getD false
  minLevel := (env.level? "THINGTALK_LOGGING_MIN_LEVEL").getD .info
  performance := (env.flag? "THINGTALK_LOGGING_LOG_PERFORMANCE").getD true

def Preferences.ofEnvironment (env : Environment) : Preferences :=
  ⟨.ofEnvironment env, .ofEnvironment env, .ofEnvironment env⟩

/-! ## Use -/

def CheckingPreferences.checker {σ : Type} (p : CheckingPreferences) (source : SchemaSource σ) :
    Checker σ :=
  { source, lenient := p.lenient, logLookups := p.logLookups }

def SerializationPreferences.options (p : SerializationPreferences) (now : Moment) :
    SerializeOptions :=
  ⟨p.compatibility, none, now, p.includeValue, p.explicitStrings⟩

def LoggingPreferences.logger (p : LoggingPreferences) (capacity : Nat) : Logger :=
  .new capacity p.minLevel

end SkillLang
