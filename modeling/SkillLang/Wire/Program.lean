import SkillLang.Syntax.Dialogue
import SkillLang.Wire.Expression

/-!
# Programs and dialogues in the wire form

A statement names its form in the member `s`, an input in the member `i`.  The items of
a dialogue are checked when they are read, since only confirmed ones have results.
-/

namespace SkillLang

open Wire

/-! ## Statements -/

namespace ExpressionStatement

def members (s : ExpressionStatement) : List (String × Json) :=
  ("expression", s.expression.toWire) :: placeOf s.range

/-- A statement without a place of its own stands where its expression stands. -/
def ofWire (j : Json) : FromWire ExpressionStatement := do
  let e ← field Expression.ofWire j "expression"
  return ⟨e, (← rangeAt j).or e.range⟩

end ExpressionStatement

namespace Statement

def toWire : Statement → Json
  | expression s => .obj (("s", text "expression") :: s.members)
  | ret e range => .obj ([("s", text "return"), ("expression", e.toWire)] ++ placeOf range)
  | assign name e range =>
    .obj ([("s", text "assign"), ("name", text name), ("expression", e.toWire)] ++ placeOf range)

def ofWire (j : Json) : FromWire Statement := do
  match ← textAt j "s" with
  | "expression" => return expression (← ExpressionStatement.ofWire j)
  | "return" => return ret (← field Expression.ofWire j "expression") (← rangeAt j)
  | "assign" =>
    return assign (← textAt j "name") (← field Expression.ofWire j "expression") (← rangeAt j)
  | _ => .error .malformed

end Statement

/-! ## Declarations -/

namespace ClassDef

def toWire (c : ClassDef) : Json :=
  .obj ([("kind", text c.kind), ("extends", texts c.parents),
      ("queries", .obj (c.queries.mapValues Signature.toWire)),
      ("actions", .obj (c.actions.mapValues Signature.toWire))] ++ placeOf c.range)

/-- A class is read as a list of functions, which are added one by one. -/
def ofWire (j : Json) : FromWire ClassDef := do
  let start : ClassDef := ⟨← textAt j "kind", ← textsAt j "extends", [], [], ← rangeAt j⟩
  return (← fields Signature.ofWire j "functions").foldl withFunction start

end ClassDef

namespace FunctionDeclaration

def toWire (d : FunctionDeclaration) : Json :=
  .obj ([("name", text d.name), ("args", list Argument.toWire d.args),
      ("statements", list Statement.toWire d.statements)] ++ placeOf d.range ++
    schemaOf d.schema)

def ofWire (j : Json) : FromWire FunctionDeclaration := do
  return ⟨← textAt j "name", ← fields Argument.ofWire j "args",
    ← fields Statement.ofWire j "statements", ← rangeAt j, ← schemaAt j⟩

end FunctionDeclaration

/-! ## Permissions -/

namespace PermissionFunction

def toWire : PermissionFunction → Json
  | builtin => text "builtin"
  | star => text "star"
  | classStar kind => .obj [("kind", text kind)]
  | specified f =>
    .obj ([("kind", text f.kind), ("channel", text f.channel), ("filter", f.filter.toWire)] ++
      placeOf f.range ++ schemaOf f.schema)

def ofWire (j : Json) : FromWire PermissionFunction := do
  match j with
  | .str "builtin" => return builtin
  | .str "star" => return star
  | j =>
    match ← field? asText j "channel" with
    | none => return classStar (← textAt j "kind")
    | some channel =>
      return specified ⟨← textAt j "kind", channel,
        (← field? Filter.ofWire j "filter").getD .always, ← rangeAt j, ← schemaAt j⟩

end PermissionFunction

/-! ## Dialogues -/

def Confirmation.ofWire : Json → FromWire Confirmation :=
  word [("proposed", .proposed), ("accepted", .accepted), ("confirmed", .confirmed)]

def ResultRow.toWire (row : ResultRow) : Json :=
  .obj (("value", .obj (Keyed.mapValues Value.toWire row.values)) :: placeOf row.range)

def ResultRow.ofWire (j : Json) : FromWire ResultRow := do
  return ⟨← namedFields Value.ofWire j "value", ← rangeAt j⟩

namespace ResultList

def toWire (r : ResultList) : Json :=
  .obj ([("results", list ResultRow.toWire r.rows), ("count", r.count.toWire),
      ("more", .bool r.more)] ++ given "error" Value.toWire r.error ++ placeOf r.range)

def ofWire (j : Json) : FromWire ResultList := do
  return ⟨← fields ResultRow.ofWire j "results", ← field Value.ofWire j "count",
    ← boolAt j "more" false, ← field? Value.ofWire j "error", ← rangeAt j⟩

end ResultList

namespace HistoryItem

def toWire (i : HistoryItem) : Json :=
  .obj ([("stmt", .obj i.statement.members), ("confirm", text i.confirm.name)] ++
    given "results" ResultList.toWire i.results ++ placeOf i.range)

def ofWire (j : Json) : FromWire HistoryItem := do
  let statement ← field ExpressionStatement.ofWire j "stmt"
  let results ← field? ResultList.ofWire j "results"
  let confirm ← field Confirmation.ofWire j "confirm"
  let range := (← rangeAt j).or statement.range
  (of? statement results confirm range).mapError WireError.results

end HistoryItem

namespace DialogueState

def toWire (s : DialogueState) : Json :=
  .obj ([("i", text "dialogue"), ("policy", text s.policy), ("act", text s.act)] ++
    given "params" texts s.params ++ [("history", list HistoryItem.toWire s.history)] ++
    placeOf s.range)

def ofWire (j : Json) : FromWire DialogueState := do
  return ⟨← textAt j "policy", ← textAt j "act", ← field? (asItems asText) j "params",
    ← fields HistoryItem.ofWire j "history", ← rangeAt j⟩

end DialogueState

/-! ## Inputs -/

namespace ControlIntent

def member : ControlIntent → String × Json
  | special name => ("special", text name)
  | choice index => ("choice", natural index)
  | answer value => ("answer", value.toWire)

def ofWire (j : Json) : FromWire ControlIntent := do
  match ← field? asText j "special", ← field? asNat j "choice" with
  | some name, _ => return special name
  | none, some index => return choice index
  | none, none => return answer (← field Value.ofWire j "answer")

end ControlIntent

namespace Input

def toWire : Input → Json
  | program p =>
    .obj ([("i", text "program"), ("classes", list ClassDef.toWire p.classes),
        ("declarations", list FunctionDeclaration.toWire p.declarations),
        ("statements", list Statement.toWire p.statements)] ++ placeOf p.range)
  | permission r =>
    .obj ([("i", text "permission"), ("principal", r.principal.toWire),
        ("query", r.query.toWire), ("action", r.action.toWire)] ++ placeOf r.range)
  | dialogue s => s.toWire
  | control c => .obj (("i", text "control") :: c.intent.member :: placeOf c.range)

def ofWire (j : Json) : FromWire Input := do
  match ← textAt j "i" with
  | "program" =>
    return program ⟨← fields ClassDef.ofWire j "classes",
      ← fields FunctionDeclaration.ofWire j "declarations",
      ← fields Statement.ofWire j "statements", ← rangeAt j⟩
  | "permission" =>
    return permission ⟨← field Filter.ofWire j "principal",
      ← field PermissionFunction.ofWire j "query", ← field PermissionFunction.ofWire j "action",
      ← rangeAt j⟩
  | "dialogue" => return dialogue (← DialogueState.ofWire j)
  | "control" => return control ⟨← ControlIntent.ofWire j, ← rangeAt j⟩
  | _ => .error .malformed

end Input

end SkillLang
