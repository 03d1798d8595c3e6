/-!
# Limits

The sizes beyond which the checker, the serializer and the entity stores give up,
and the lengths to which messages are cut.
-/

namespace SkillLang.Limits

/-- How deep an expression, filter or value may be nested. -/
def maxDepth : Nat := 256

def maxChainLength : Nat := 32

/-- How many overloads of an operator are tried. -/
def maxOverloadsTried : Nat := 64

/-- The bytes of a message that an error carries. -/
def maxErrorMessageLength : Nat := 2000

/-- The words of one serialized input. -/
def maxTokens : Nat := 1000000

/-- The blanks of one level of indentation. -/
def indentWidth : Nat := 4

/-- The placeholders of one entity type. -/
def maxEntitiesPerType : Nat := 10000

/-- How far apart, in degrees, two places may be that count as one, in millionths. -/
def locationEpsilonMicro : Nat := 10

def locationEpsilon : Float :=
  Float.ofNat locationEpsilonMicro / 1000000.0

/-- The events that a log keeps. -/
def logBufferSize : Nat := 10000

/-- The bytes of the message of an event. -/
def maxLogMessageLength : Nat := 4000

/-- The least level of detail that a log is kept at: 0 for errors up to 3 for everything. -/
def securityMinLogLevel : Nat := 2

/-- Where the limits are configured. -/
def origin : String := "Generated from config/development.toml"

end SkillLang.Limits
