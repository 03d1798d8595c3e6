import SkillLang.Limits
import SkillLang.Types.Assignable

/-!
# Operators

The operators of filters, values and aggregations with their overloads.  An overload
is chosen by its parameters, in the order of the table: the first one whose parameters
accept all arguments, from left to right and with shared type variables.
-/

namespace SkillLang

structure Overload where
  params : List Ty
  result : Ty
deriving BEq, DecidableEq

namespace Overload

/-- The types of the parameters, followed by the type of the result. -/
def types (o : Overload) : List Ty :=
  o.params ++ [o.result]

def predicate (lhs rhs : Ty) : Overload :=
  ⟨[lhs, rhs], .boolean⟩

end Overload

abbrev OperatorTable := List (String × List Overload)

namespace OperatorTable

def anyMeasure : Ty := .measure ""

def anyEntity : Ty := .entity "*"

def milliseconds : Ty := .measure "ms"

def comparison : List Overload :=
  [.predicate .number .number, .predicate .currency .currency, .predicate anyMeasure anyMeasure,
    .predicate .date .date, .predicate .time .time, .predicate .string .string]

def similarity : List Overload :=
  [.predicate .string .string, .predicate anyEntity .string]

/-- The operators that compare an output or a value with another value. -/
def filters : OperatorTable :=
  [("==", [.predicate (.var "a") (.var "a")]),
    (">=", comparison),
    ("<=", comparison),
    (">", comparison),
    ("<", comparison),
    ("=~", similarity),
    ("~=", similarity),
    ("starts_with", [.predicate .string .string]),
    ("ends_with", [.predicate .string .string]),
    ("prefix_of", [.predicate .string .string]),
    ("suffix_of", [.predicate .string .string]),
    ("contains", [.predicate (.array (.var "a")) (.var "a"), .predicate .recurrentTime .date,
      .predicate .recurrentTime .time]),
    ("contains~", [.predicate (.array .string) .string, .predicate (.array anyEntity) .string]),
    ("~contains", [.predicate (.array .string) .string]),
    ("in_array", [.predicate (.var "a") (.array (.var "a"))]),
    ("in_array~", [.predicate .string (.array .string), .predicate anyEntity (.array .string)]),
    ("~in_array", [.predicate .string (.array .string)]),
    ("has_member", [.predicate (.entity "tt:contact_group") (.entity "tt:contact")]),
    ("group_member", [.predicate (.entity "tt:contact") (.entity "tt:contact_group")])]

/-- Reductions of an array to a value of the type of its elements. -/
def reduction : List Overload :=
  [⟨[.array .number], .number⟩, ⟨[.array .currency], .currency⟩, ⟨[.array anyMeasure], anyMeasure⟩]

/-- The operators of computed values. -/
def scalars : OperatorTable :=
  [("+", [⟨[.number, .number], .number⟩, ⟨[.currency, .currency], .currency⟩,
      ⟨[anyMeasure, anyMeasure], anyMeasure⟩, ⟨[.date, milliseconds], .date⟩,
      ⟨[.time, milliseconds], .time⟩, ⟨[.string, .string], .string⟩]),
    ("-", [⟨[.number, .number], .number⟩, ⟨[.currency, .currency], .currency⟩,
      ⟨[.date, .date], milliseconds⟩, ⟨[anyMeasure, anyMeasure], anyMeasure⟩,
      ⟨[.date, milliseconds], .date⟩, ⟨[.time, milliseconds], .time⟩]),
    ("*", [⟨[.number, .number], .number⟩, ⟨[.currency, .number], .currency⟩,
      ⟨[anyMeasure, .number], anyMeasure⟩]),
    ("/", [⟨[.number, .number], .number⟩, ⟨[.currency, .number], .currency⟩,
      ⟨[anyMeasure, anyMeasure], .number⟩, ⟨[anyMeasure, .number], anyMeasure⟩]),
    ("%", [⟨[.number, .number], .number⟩]),
    ("**", [⟨[.number, .number], .number⟩]),
    ("distance", [⟨[.location, .location], .measure "m"⟩]),
    ("max", reduction),
    ("min", reduction),
    ("sum", reduction),
    ("avg", reduction),
    ("count", [⟨[.array .any], .number⟩]),
    ("get_currency", [⟨[.number], .currency⟩])]

def numeric : List Overload :=
  [⟨[.number], .number⟩, ⟨[.currency], .currency⟩, ⟨[anyMeasure], anyMeasure⟩]

def extremum : List Overload :=
  numeric ++ [⟨[.date], .date⟩, ⟨[.time], .time⟩]

def aggregations : OperatorTable :=
  [("count", [⟨[.any], .number⟩]),
    ("sum", numeric),
    ("avg", numeric),
    ("min", extremum),
    ("max", extremum)]

/-- Passes arguments to parameters from left to right, as long as they are accepted. -/
def acceptAll (lenient : Bool) : (args params : List Ty) → Bindings → Bool × Bindings
  | [], _, b => (true, b)
  | _, [], b => (true, b)
  | arg :: args, param :: params, b =>
    match arg.assign lenient param b with
    | (true, b) => acceptAll lenient args params b
    | (false, b) => (false, b)

/-- The overload with its type variables replaced, if it accepts the arguments. -/
def instantiate? (lenient : Bool) (args : List Ty) (o : Overload) : Option Overload :=
  match acceptAll lenient args o.params Bindings.empty with
  | (true, b) => some ⟨o.params.map (Ty.resolve b), Ty.resolve b o.result⟩
  | (false, _) => none

/-- The overload of an operator that arguments are passed to. -/
def resolve? (table : OperatorTable) (op : String) (args : List Ty) (lenient : Bool) :
    Option Overload :=
  match table.lookup op with
  | none => none
  | some overloads =>
    ((overloads.take Limits.maxOverloadsTried).filter fun o =>
      o.params.length == args.length).findSome? (instantiate? lenient args)

end OperatorTable

end SkillLang
