import SkillLang.Preferences.Basic
import SkillLang.Toml.Decode
import SkillLang.Toml.Parser

/-!
# Documents with preferences

Preferences are read from TOML documents with a section for each group of them, and
written in JSON with the same names.
-/

namespace SkillLang

def LogLevel.keys : List (String × LogLevel) :=
  [("Error", .error), ("Warning", .warning), ("Info", .info), ("Debug", .debug)]

def LogLevel.key : LogLevel → String
  | error => "Error"
  | warning => "Warning"
  | info => "Info"
  | debug => "Debug"

namespace CheckingPreferences

def ofToml? (default : CheckingPreferences) (value : Toml) : Option CheckingPreferences := do
  match ← value.fields? ["lenient_assignability", "log_schema_lookups"] with
  | [lenient, logLookups] =>
    return ⟨← Toml.defaulted default.lenient Toml.asBool? lenient,
      ← Toml.defaulted default.logLookups Toml.asBool? logLookups⟩
  | _ => none

def toJson (p : CheckingPreferences) : Json :=
  .obj [("lenient_assignability", .bool p.lenient), ("log_schema_lookups", .bool p.logLookups)]

end CheckingPreferences

namespace SerializationPreferences

def ofToml? (default : SerializationPreferences) (value : Toml) :
    Option SerializationPreferences := do
  match ← value.fields? ["default_compatibility", "explicit_strings", "include_entity_value"] with
  | [compatibility, explicitStrings, includeValue] =>
    return ⟨← Toml.defaulted default.compatibility (fun v => v.asString?.map some) compatibility,
      ← Toml.defaulted default.explicitStrings Toml.asBool? explicitStrings,
      ← Toml.defaulted default.includeValue Toml.asBool? includeValue⟩
  | _ => none

def toJson (p : SerializationPreferences) : Json :=
  .obj [("default_compatibility", match p.compatibility with
      | some version => .str version
      | none => .null),
    ("explicit_strings", .bool p.explicitStrings), ("include_entity_value", .bool p.includeValue)]

end SerializationPreferences

namespace LoggingPreferences

def ofToml? (default : LoggingPreferences) (value : Toml) : Option LoggingPreferences := do
  match ← value.fields? ["use_structured_logging", "enable_console_logging", "min_log_level",
      "log_performance_events"] with
  | [structured, console, minLevel, performance] =>
    return ⟨← Toml.defaulted default.structured Toml.asBool? structured,
      ← Toml.defaulted default.console Toml.asBool? console,
      ← Toml.defaulted default.minLevel (Toml.choice LogLevel.keys) minLevel,
      ← Toml.defaulted default.performance Toml.asBool? performance⟩
  | _ => none

def toJson (p : LoggingPreferences) : Json :=
  .obj [("use_structured_logging", .bool p.structured),
    ("enable_console_logging", .bool p.console), ("min_log_level", .str p.minLevel.key),
    ("log_performance_events", .bool p.performance)]

end LoggingPreferences

namespace Preferences

def ofToml? (default : Preferences) (value : Toml) : Option Preferences := do
  match ← value.fields? ["typecheck", "serialization", "logging"] with
  | [checking, serialization, logging] =>
    return ⟨← Toml.defaulted default.checking default.checking.ofToml? checking,
      ← Toml.defaulted default.serialization default.serialization.ofToml? serialization,
      ← Toml.defaulted default.logging default.logging.ofToml? logging⟩
  | _ => none

/-- The preferences that a document states; those of the environment stand for the others. -/
def ofText? (env : Environment) (text : String) : Option Preferences := do
  (ofEnvironment env).ofToml? (← Toml.parse text)

def toJson (p : Preferences) : Json :=
  .obj [("typecheck", p.checking.toJson), ("serialization", p.serialization.toJson),
    ("logging", p.logging.toJson)]

end Preferences

end SkillLang
