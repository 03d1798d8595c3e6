import SkillLang.Calendar.Date
import SkillLang.Calendar.Moment
import SkillLang.Calendar.Resolve
import SkillLang.Calendar.Timestamp
import SkillLang.Decimal.Reading
import SkillLang.Decimal.Shortest
import SkillLang.Decimal.Style
import SkillLang.Entities.Basic
import SkillLang.Entities.Finder
import SkillLang.Entities.Json
import SkillLang.Inspection.Basic
import SkillLang.Inspection.Constant
import SkillLang.Inspection.Signature
import SkillLang.Inspection.Value
import SkillLang.Json.Basic
import SkillLang.Json.Decode
import SkillLang.Json.Lexeme
import SkillLang.Json.Numeral
import SkillLang.Json.Parser
import SkillLang.Json.Printer
import SkillLang.Json.Shape
import SkillLang.Json.Skip
import SkillLang.Keyed
import SkillLang.Legacy.Conversion
import SkillLang.Legacy.Source
import SkillLang.Legacy.Tree
import SkillLang.Limits
import SkillLang.Log.Code
import SkillLang.Log.Event
import SkillLang.Log.Logger
import SkillLang.Log.Session
import SkillLang.Preferences.Basic
import SkillLang.Preferences.Document
import SkillLang.Proofs.ActionAgreement
import SkillLang.Proofs.ActionResults
import SkillLang.Proofs.ActionStates
import SkillLang.Proofs.Calendar.BareYears
import SkillLang.Proofs.Calendar.Days
import SkillLang.Proofs.Calendar.Periods
import SkillLang.Proofs.Decimal.Sign
import SkillLang.Proofs.Decimal.Words
import SkillLang.Proofs.Entities.Allocation
import SkillLang.Proofs.Entities.Copies
import SkillLang.Proofs.Entities.CountedEntities
import SkillLang.Proofs.Entities.Encoding
import SkillLang.Proofs.Entities.GenericEntities
import SkillLang.Proofs.Entities.Numbers
import SkillLang.Proofs.Entities.Placeholders
import SkillLang.Proofs.Entities.Reuse
import SkillLang.Proofs.Entities.Sentences
import SkillLang.Proofs.Insertion
import SkillLang.Proofs.Json.Lexemes
import SkillLang.Proofs.Json.Values
import SkillLang.Proofs.Legacy.BuiltinCalls
import SkillLang.Proofs.Legacy.Canonical
import SkillLang.Proofs.Legacy.Columns
import SkillLang.Proofs.Legacy.Conversion
import SkillLang.Proofs.Legacy.Kinds
import SkillLang.Proofs.Legacy.Leaves
import SkillLang.Proofs.Legacy.Parameters
import SkillLang.Proofs.Legacy.Readable
import SkillLang.Proofs.Legacy.Reader
import SkillLang.Proofs.Legacy.Refusals
import SkillLang.Proofs.Legacy.Unambiguous
import SkillLang.Proofs.Serialization.Failures
import SkillLang.Proofs.Serialization.Segments
import SkillLang.Proofs.Serialization.WordLists
import SkillLang.Proofs.Signature.Arguments
import SkillLang.Proofs.Slots.Arguments
import SkillLang.Proofs.Slots.Filling
import SkillLang.Proofs.Slots.Frame
import SkillLang.Proofs.Slots.Holes
import SkillLang.Proofs.Slots.Traversal
import SkillLang.Proofs.Slots.Visibility
import SkillLang.Proofs.Source.Arithmetic
import SkillLang.Proofs.Source.Canonical
import SkillLang.Proofs.Source.Constants
import SkillLang.Proofs.Source.Contents
import SkillLang.Proofs.Source.Legible
import SkillLang.Proofs.Source.Names
import SkillLang.Proofs.Source.Propositions
import SkillLang.Proofs.Source.Readable
import SkillLang.Proofs.Source.ReadableBrackets
import SkillLang.Proofs.Source.ReadableCalls
import SkillLang.Proofs.Source.ReadableClasses
import SkillLang.Proofs.Source.ReadableExpressions
import SkillLang.Proofs.Source.ReadableFilters
import SkillLang.Proofs.Source.ReadableParts
import SkillLang.Proofs.Source.ReadablePrograms
import SkillLang.Proofs.Source.ReadableValues
import SkillLang.Proofs.Source.Reader
import SkillLang.Proofs.Source.Rows
import SkillLang.Proofs.Source.Separators
import SkillLang.Proofs.Source.Series
import SkillLang.Proofs.Source.Spacing
import SkillLang.Proofs.Source.Spelling
import SkillLang.Proofs.Source.Stream
import SkillLang.Proofs.Source.StreamReading
import SkillLang.Proofs.Source.TokenTree
import SkillLang.Proofs.Source.Undefined
import SkillLang.Proofs.Syntax.Callbacks
import SkillLang.Proofs.Syntax.DialogueHistory
import SkillLang.Proofs.Syntax.Executable
import SkillLang.Proofs.Syntax.Parts
import SkillLang.Proofs.Syntax.Referenced
import SkillLang.Proofs.Text.Clipping
import SkillLang.Proofs.Text.Words
import SkillLang.Proofs.Types.Bindings
import SkillLang.Proofs.Types.ClosedTypes
import SkillLang.Proofs.Types.Instances
import SkillLang.Proofs.Types.KnownTypes
import SkillLang.Proofs.Types.Leniency
import SkillLang.Proofs.Types.Pieces
import SkillLang.Proofs.Types.RoundTrip
import SkillLang.Proofs.Typing.Acceptance
import SkillLang.Proofs.Typing.AcceptanceOfCheck
import SkillLang.Proofs.Typing.AcceptedNodes
import SkillLang.Proofs.Typing.Annotations
import SkillLang.Proofs.Typing.ArgumentNames
import SkillLang.Proofs.Typing.ArrayLiterals
import SkillLang.Proofs.Typing.Assignments
import SkillLang.Proofs.Typing.CachedSources
import SkillLang.Proofs.Typing.Calls
import SkillLang.Proofs.Typing.CheckOfAcceptance
import SkillLang.Proofs.Typing.Comparisons
import SkillLang.Proofs.Typing.DeclaredInputs
import SkillLang.Proofs.Typing.DepthLimit
import SkillLang.Proofs.Typing.Depths
import SkillLang.Proofs.Typing.Erasure
import SkillLang.Proofs.Typing.ErasureOfCheck
import SkillLang.Proofs.Typing.FunctionTypes
import SkillLang.Proofs.Typing.Idempotence
import SkillLang.Proofs.Typing.Leniency
import SkillLang.Proofs.Typing.References
import SkillLang.Proofs.Typing.Requirements
import SkillLang.Proofs.Typing.Selectors
import SkillLang.Proofs.Typing.SourceIndependence
import SkillLang.Proofs.Typing.ValueTypes
import SkillLang.Proofs.Typing.Visited
import SkillLang.Serialization.Basic
import SkillLang.Serialization.Words
import SkillLang.Signature.Basic
import SkillLang.Signature.Json
import SkillLang.Slots.Basic
import SkillLang.Slots.Fill
import SkillLang.Source.Constant
import SkillLang.Source.Expression
import SkillLang.Source.Json
import SkillLang.Source.Pretty
import SkillLang.Source.Priority
import SkillLang.Source.Program
import SkillLang.Source.Range
import SkillLang.Source.Stream
import SkillLang.Source.Token
import SkillLang.Source.Value
import SkillLang.Syntax.Constant
import SkillLang.Syntax.Dialogue
import SkillLang.Syntax.Expression
import SkillLang.Syntax.Program
import SkillLang.Syntax.Trace
import SkillLang.Syntax.TrackedDialogue
import SkillLang.Syntax.Tree
import SkillLang.Syntax.Value
import SkillLang.Text.Alphanumeric
import SkillLang.Text.Basic
import SkillLang.Text.Lowercase
import SkillLang.Text.Printable
import SkillLang.Text.Quoted
import SkillLang.Toml.Basic
import SkillLang.Toml.Decode
import SkillLang.Toml.Parser
import SkillLang.Toml.Scalar
import SkillLang.Types.Assignable
import SkillLang.Types.Basic
import SkillLang.Types.Text
import SkillLang.Types.Units
import SkillLang.Typing.Builtins
import SkillLang.Typing.Checker
import SkillLang.Typing.Error
import SkillLang.Typing.Expression
import SkillLang.Typing.Input
import SkillLang.Typing.Operators
import SkillLang.Typing.Rules
import SkillLang.Typing.Schemas
import SkillLang.Typing.Scope
import SkillLang.Typing.Value
import SkillLang.Wire.Basic
import SkillLang.Wire.Expression
import SkillLang.Wire.Legacy
import SkillLang.Wire.Log
import SkillLang.Wire.Program
import SkillLang.Wire.Slots
import SkillLang.Wire.Source
import SkillLang.Wire.Value
