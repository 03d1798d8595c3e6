import SkillLang.Source.Value
import SkillLang.Syntax.Expression

/-!
# The source of expressions

Clauses are written around or after the expression that they are applied to.  The
elements of a chain are separated by arrows; a chain of one element is written like
the element.
-/

namespace SkillLang

open TokenStream

def namesSource (names : List String) : TokenStream :=
  ofParts ["[", join (names.map literal) ",", "]"]

/-- Values, each with the name that is given to it at the same position, if there is one. -/
def computationsSource : List Value → List (Option String) → List TokenStream
  | [], _ => []
  | value :: values, [] => value.source :: computationsSource values []
  | value :: values, label :: labels =>
    (match label with
      | some label => ofParts [value.source, "as", label]
      | none => value.source) :: computationsSource values labels

def Column.source : Column → TokenStream
  | .path name => name
  | .value v => v.source

def Selected.source (s : Selected) : TokenStream :=
  ofParts [s.column.source,
    match s.label with
    | some label => ofParts ["as", label]
    | none => empty,
    if s.types.isEmpty then empty
    else ofParts [":", join (s.types.map fun type => literal type.display) "|"]]

def bracketed (elements : List TokenStream) : TokenStream :=
  ofParts ["[", join elements ",", "]"]

namespace Clause

def priority : Clause → Priority
  | filter _ => .filter
  | projection _ _ _ | selection _ | question _ | named _ => .projection
  | index _ | slice _ _ => .index
  | monitor _ | aggregation _ _ _ | sort _ _ => .primary

/-- The source of an expression with the clause, from the priority and source of the expression. -/
def source (inner : Priority) (expression : TokenStream) : Clause → TokenStream
  | filter f => ofParts [parens .filter inner expression, "filter", f.source]
  | monitor args =>
    let head := ofParts ["monitor", "(", expression, ")"]
    match args with
    | some args => ofParts [head, "on", "new", namesSource args]
    | none => head
  | projection args computations aliases =>
    ofParts [bracketed (args.map literal ++ computationsSource computations aliases), "of",
      parens .filter inner expression]
  | selection elements =>
    ofParts [bracketed (elements.map Selected.source), "of", parens .filter inner expression]
  | question f => ofParts ["[", f.source, "]", "of", parens .filter inner expression]
  | named name => ofParts [parens .projection inner expression, "as", name]
  | aggregation field op _ =>
    if field == "*" then ofParts [op, "(", expression, ")"]
    else ofParts [op, "(", field, "of", parens .projection inner expression, ")"]
  | sort value direction =>
    ofParts ["sort", "(", value.source, direction.name, "of", parens .projection inner expression,
      ")"]
  | index indices =>
    ofParts [parens .index inner expression, bracketed (indices.map Value.source)]
  | slice base limit =>
    ofParts [parens .index inner expression, "[", base.source, ":", limit.source, "]"]

end Clause

namespace Expression

def priority : Expression → Priority
  | call _ _ _ => .primary
  | invocation _ _ => .primary
  | clause _ _ c => c.priority
  | chain _ elements =>
    match elements with
    | [element] => element.priority
    | _ => .chain
  | join _ _ _ => .join

mutual
def source : Expression → TokenStream
  | call _ name params => ofParts [name, "(", .join (Param.sources params) ",", ")"]
  | invocation _ i => i.source
  | clause _ inner c => c.source inner.priority inner.source
  | chain _ elements => .join (elementSources elements) "=>"
  | join _ lhs rhs =>
    ofParts [parens .join lhs.priority lhs.source, "join", parens .filter rhs.priority rhs.source]

def elementSources : List Expression → List TokenStream
  | [] => []
  | element :: elements =>
    parens .join element.priority element.source :: elementSources elements
end

end Expression

end SkillLang
