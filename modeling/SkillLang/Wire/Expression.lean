import SkillLang.Syntax.Expression
import SkillLang.Wire.Value

/-!
# Expressions in the wire form

An expression names its form in the member `e`.  The members of a clause stand next to
the expression that the clause is applied to.
-/

namespace SkillLang

open Wire

def SortDirection.toWire (direction : SortDirection) : Json := text direction.name

def SortDirection.ofWire : Json → FromWire SortDirection :=
  word [("asc", .asc), ("desc", .desc)]

namespace Selected

def toWire (s : Selected) : Json :=
  .obj ((match s.column with
      | .path path => [("path", text path)]
      | .value value => [("value", value.toWire)]) ++
    given "alias" text s.label ++ [("types", list Ty.textToWire s.types)])

def ofWire (j : Json) : FromWire Selected := do
  let label ← field? asText j "alias"
  let types ← fields Ty.ofWire j "types"
  match ← field? asText j "path" with
  | some path => return ⟨.path path, label, types⟩
  | none => return ⟨.value (← field Value.ofWire j "value"), label, types⟩

end Selected

namespace Clause

def tag : Clause → String
  | filter _ => "filter"
  | monitor _ => "monitor"
  | projection _ _ _ => "projection"
  | selection _ => "projection2"
  | question _ => "question"
  | named _ => "alias"
  | aggregation _ _ _ => "aggregation"
  | sort _ _ => "sort"
  | index _ => "index"
  | slice _ _ => "slice"

/-- The members of a clause next to its tag and its expression. -/
def members : Clause → List (String × Json)
  | filter f => [("filter", f.toWire)]
  | monitor args => given "args" texts args
  | projection args computations aliases =>
    [("args", texts args), ("computations", list Value.toWire computations),
      ("aliases", list (orNull text) aliases)]
  | selection elements => [("projections", list Selected.toWire elements)]
  | question f => [("filter", f.toWire)]
  | named name => [("name", text name)]
  | aggregation field op overload =>
    [("field", text field), ("operator", text op)] ++ overloadOf overload
  | sort value direction => [("value", value.toWire), ("direction", direction.toWire)]
  | index indices => [("indices", list Value.toWire indices)]
  | slice base limit => [("base", base.toWire), ("limit", limit.toWire)]

def asLabel (j : Json) : FromWire (Option String) :=
  if j.isNull then .ok none else (asText j).map some

def ofWire (tag : String) (j : Json) : FromWire Clause := do
  match tag with
  | "filter" => return filter (← field Filter.ofWire j "filter")
  | "monitor" => return monitor (← field? (asItems asText) j "args")
  | "projection" =>
    return projection (← textsAt j "args") (← fields Value.ofWire j "computations")
      (← fields asLabel j "aliases")
  | "projection2" => return selection (← fields Selected.ofWire j "projections")
  | "question" => return question (← field Filter.ofWire j "filter")
  | "alias" => return named (← textAt j "name")
  | "aggregation" =>
    return aggregation (← textAt j "field") (← textAt j "operator") (← overloadAt j)
  | "sort" =>
    return sort (← field Value.ofWire j "value") (← field SortDirection.ofWire j "direction")
  | "index" => return index (← fields Value.ofWire j "indices")
  | "slice" => return slice (← field Value.ofWire j "base") (← field Value.ofWire j "limit")
  | _ => .error .malformed

end Clause

def Info.members (info : Info) : List (String × Json) :=
  placeOf info.range ++ schemaOf info.schema

namespace Expression

mutual
def toWire : Expression → Json
  | call info name params =>
    .obj ([("e", text "call"), ("name", text name), ("params", .arr (Param.listToWire params))] ++
      info.members)
  | invocation info i =>
    .obj ([("e", text "invocation"), ("invocation", i.toWire)] ++ info.members)
  | clause info inner c =>
    .obj ([("e", text c.tag), ("expression", toWire inner)] ++ c.members ++ info.members)
  | chain info elements =>
    .obj ([("e", text "chain"), ("expressions", .arr (listToWire elements))] ++ info.members)
  | join info lhs rhs =>
    .obj ([("e", text "join"), ("lhs", toWire lhs), ("rhs", toWire rhs)] ++ info.members)

def listToWire : List Expression → List Json
  | [] => []
  | e :: es => toWire e :: listToWire es
end

/-- An invocation without a place of its own stands where its call stands. -/
def ofWire (j : Json) : FromWire Expression := do
  let info : Info := ⟨← rangeAt j, ← schemaAt j⟩
  match ← textAt j "e" with
  | "call" => return call info (← textAt j "name") (← fields Param.ofWire j "params")
  | "invocation" =>
    let i ← field Invocation.ofWire j "invocation"
    return invocation { info with range := info.range.or i.range } i
  | "chain" =>
    return chain info (← (← j.parts "expressions").mapM fun ⟨e, _⟩ => ofWire e)
  | "join" =>
    let ⟨lhs, _⟩ ← j.part "lhs"
    let ⟨rhs, _⟩ ← j.part "rhs"
    return join info (← ofWire lhs) (← ofWire rhs)
  | tag =>
    let ⟨inner, _⟩ ← j.part "expression"
    return clause info (← ofWire inner) (← Clause.ofWire tag j)
termination_by sizeOf j

end Expression

end SkillLang
