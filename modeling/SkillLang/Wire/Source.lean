import SkillLang.Source.Pretty
import SkillLang.Source.Priority
import SkillLang.Source.Json
import SkillLang.Wire.Basic

/-!
# Token streams in the wire form

A token is written as a text that begins with a sign for what it is: `L` for literal
words, `@` for layout marks and `C` for constants, which tell the type of their entities
as well.
-/

namespace SkillLang

open Wire

namespace Layout

def names : List (String × Layout) :=
  [("Indent", .indent), ("Dedent", .dedent), ("SetTab", .setTab), ("ClearTab", .clearTab),
    ("Space", .space), ("Newline", .newline), ("NoNewline", .noNewline)]

def name : Layout → String
  | indent => "Indent"
  | dedent => "Dedent"
  | setTab => "SetTab"
  | clearTab => "ClearTab"
  | space => "Space"
  | newline => "Newline"
  | noNewline => "NoNewline"

def ofWire : Json → FromWire Layout := word names

end Layout

namespace ConstantKind

def names : List (String × ConstantKind) :=
  [("QuotedString", .quotedString), ("Number", .number), ("Measure", .measure),
    ("Currency", .currency), ("Location", .location), ("Date", .date), ("Time", .time),
    ("Username", .username), ("Hashtag", .hashtag), ("Url", .url), ("PhoneNumber", .phoneNumber),
    ("EmailAddress", .emailAddress), ("PathName", .pathName), ("Picture", .picture),
    ("GenericEntity", .genericEntity)]

def ofWire : Json → FromWire ConstantKind := word names

end ConstantKind

def Token.toWire : Token → Json
  | .literal word => text ("L " ++ word)
  | .layout l => text ("@ " ++ l.name)
  | .constant c => text ("C " ++ c.entityType ++ " " ++ c.render)

namespace TokenStream

def prettyToWire (s : TokenStream) : Json :=
  .str (Pretty.print s)

def toWire (s : TokenStream) : Json :=
  .obj [("tokens", list Token.toWire s.toList), ("text", s.prettyToWire), ("plain", .str s.text)]

end TokenStream

def Priority.toWire : Priority → Json
  | chain => text "Chain"
  | join => text "Join"
  | or => text "Or"
  | and => text "And"
  | comp => text "Comp"
  | add => text "Add"
  | mul => text "Mul"
  | exp => text "Exp"
  | not => text "Not"
  | filter => text "Filter"
  | projection => text "Projection"
  | index => text "Index"
  | primary => text "Primary"

end SkillLang
