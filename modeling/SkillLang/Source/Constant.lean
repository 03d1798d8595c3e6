import SkillLang.Calendar.Timestamp
import SkillLang.Decimal.Style
import SkillLang.Inspection.Value
import SkillLang.Source.Stream
import SkillLang.Text.Quoted

/-!
# The text of constants

Constants are written out when the source is shown to people.  In the source for
machines they stand for entities and are looked up by their type.  A value that is no
constant of the language is written as it is inspected.
-/

namespace SkillLang

/-- The text of an entity.  User names and hashtags have a short form. -/
def EntityRef.render (kind : ConstantKind) (e : EntityRef) : String :=
  let general :=
    let head := match e.value with
      | some value => Text.quote value
      | none => "null"
    match e.display with
    | some display => head ++ "^^" ++ e.kind ++ "(" ++ Text.quote display ++ ")"
    | none => head ++ "^^" ++ e.kind
  match kind, e.value with
  | .username, some value => "@" ++ value
  | .hashtag, some value => "#" ++ value
  | _, _ => general

def Constant.render (c : Constant) : String :=
  match c.value with
  | .string s => Text.quote s
  | .number x => Decimal.number x
  | .measure x unit => Decimal.number x ++ unit
  | .currency x code => Decimal.number x ++ "$" ++ code
  | .place (.absolute latitude longitude display) =>
    "new Location(" ++ Decimal.number latitude ++ ", " ++ Decimal.number longitude ++
      (match display with
        | some display => ", " ++ Text.quote display ++ ")"
        | none => ")")
  | .place (.unresolved name) => "new Location(" ++ Text.quote name ++ ")"
  | .date (.absolute moment) => "new Date(" ++ Text.quote moment.timestamp ++ ")"
  | .time (.absolute hour minute second) =>
    "new Time(" ++ toString hour ++ ", " ++ toString minute ++
      (if second = 0 then ")" else ", " ++ toString second ++ ")")
  | .entity e => e.render c.kind
  | value => value.inspection.text

/-- The text of a token; layout marks have none. -/
def Token.render : Token → String
  | .literal text => text
  | .layout _ => ""
  | .constant c => c.render

/-- The tokens of a stream with a blank between each two, layout marks aside. -/
def TokenStream.text (s : TokenStream) : String :=
  " ".intercalate ((s.toList.filter fun t => !t.isLayout).map Token.render)

end SkillLang
