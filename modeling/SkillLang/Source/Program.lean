import SkillLang.Json.Printer
import SkillLang.Source.Expression
import SkillLang.Syntax.Dialogue

/-!
# The source of programs and dialogues

Statements, declarations, rules and dialogue states as token streams, with layout
marks for the lines and levels of their printed form.
-/

namespace SkillLang

open TokenStream

def Argument.source (a : Argument) : TokenStream :=
  ofParts (a.direction.words.map literal ++ [literal a.name, ":", a.type.display])

def Signature.source (s : Signature) : TokenStream :=
  ofParts <|
    (if s.isMonitorable then [literal "monitorable"] else []) ++
    (if s.isList then [literal "list"] else []) ++
    [literal s.type.name, s.name, "(", join (s.args.map Argument.source) ",", ")"] ++
    (if s.requireEither.isEmpty then []
      else [layout .newline,
        literal ("#[require_either=" ++ (Json.arr (s.requireEither.map fun group =>
          Json.arr (group.map .str))).write ++ "]")]) ++
    (s.annotations.flatMap fun (key, value) =>
      [layout .newline, literal ("#[" ++ key ++ "=" ++ value.write ++ "]")]) ++
    [literal ";"]

def Statement.source : Statement → TokenStream
  | .expression s => ofParts [s.expression.source, ";"]
  | .ret e _ => ofParts ["return", e.source, ";"]
  | .assign name e _ =>
    ofParts ["let", name, layout .space, "=", layout .space, e.source, ";"]

/-- Items on lines of their own, one level further in. -/
def block (items : List TokenStream) : TokenStream :=
  let body := join items (layout .newline)
  if body.isEmpty then body
  else ofParts [layout .indent, layout .newline, body, layout .dedent, layout .newline]

def ClassDef.source (c : ClassDef) : TokenStream :=
  let parents : List TokenStream :=
    if c.parents.isEmpty then []
    else ["extends", join (c.parents.map fun parent => literal ("@" ++ parent)) ","]
  ofParts [ofParts ([literal "class", literal ("@" ++ c.kind)] ++ parents), "\x7b",
    block ((c.queries.values ++ c.actions.values).map Signature.source), "\x7d"]

def FunctionDeclaration.source (d : FunctionDeclaration) : TokenStream :=
  ofParts ["function", d.name, "(", join (d.args.map Argument.source) ",", ")", "\x7b",
    block (d.statements.map Statement.source), "\x7d"]

def Program.source (p : Program) : TokenStream :=
  join (p.classes.map ClassDef.source ++ p.declarations.map FunctionDeclaration.source ++
    p.statements.map Statement.source) (layout .newline)

/-- The source of the functions of a permission, with the word for the builtin one. -/
def PermissionFunction.source (builtinWord : String) : PermissionFunction → TokenStream
  | .specified f =>
    let head := literal ("@" ++ f.kind ++ "." ++ f.channel)
    if f.filter.isAlways then head else ofParts [head, "filter", f.filter.source]
  | .builtin => builtinWord
  | .classStar kind => literal ("@" ++ kind ++ ".*")
  | .star => "*"

def PermissionRule.source (r : PermissionRule) : TokenStream :=
  ofParts [r.principal.source, ":", r.query.source "now", "=>", r.action.source "notify", ";"]

def ControlCommand.source (c : ControlCommand) : TokenStream :=
  ofParts [match c.intent with
    | .special name => literal ("$" ++ name)
    | .choice index => ofParts ["$choice", "(", numberSource index, ")"]
    | .answer value => ofParts ["$answer", "(", value.source, ")"],
    ";"]

def ResultRow.source (r : ResultRow) : TokenStream :=
  (Value.object r.values).source

def ResultList.source (r : ResultList) : TokenStream :=
  join ([ofParts ["#[", "results", "=", "[", join (r.rows.map ResultRow.source) ",", "]", "]"],
      ofParts ["#[", "count", "=", r.count.source, "]"]] ++
    (if r.more then [ofParts ["#[", "more", "=", "true", "]"]] else []) ++
    (match r.error with
      | some error => [ofParts ["#[", "error", "=", error.source, "]"]]
      | none => [])) (layout .newline)

/-- What is written about an item of the history besides its statement. -/
def HistoryItem.annotations (item : HistoryItem) : TokenStream :=
  match item.results, item.confirm with
  | some results, _ => results.source
  | none, .proposed => empty
  | none, confirm => ofParts ["#[", "confirm", "=", "enum", "(", confirm.name, ")", "]"]

def HistoryItem.source (item : HistoryItem) : TokenStream :=
  let notes := item.annotations
  if notes.isEmpty then ofParts [item.statement.expression.source, ";"]
  else
    ofParts [item.statement.expression.source, layout .indent, layout .newline, notes,
      layout .dedent, ";"]

def DialogueState.source (s : DialogueState) : TokenStream :=
  let params := match s.params with
    | some params => ofParts ["(", join (params.map literal) ",", ")"]
    | none => empty
  join (ofParts ["$dialogue", literal ("@" ++ s.policy ++ "." ++ s.act), params, ";"] ::
    s.history.map HistoryItem.source) (layout .newline)

def Input.source : Input → TokenStream
  | .program p => p.source
  | .permission r => r.source
  | .dialogue s => s.source
  | .control c => c.source

end SkillLang
