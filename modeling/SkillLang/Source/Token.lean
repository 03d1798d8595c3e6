import SkillLang.Syntax.Value

/-!
# Tokens

The source of a program is a sequence of tokens: literal words, constants, and layout
marks that only the pretty printer looks at.
-/

namespace SkillLang

inductive Layout where
  | indent
  | dedent
  | setTab
  | clearTab
  | space
  | newline
  | noNewline
deriving DecidableEq, Repr

/-- The syntactic kinds of constants; the first seven are those of values of their own types, and
the others are those of entities. -/
inductive ConstantKind where
  | quotedString
  | number
  | measure
  | currency
  | location
  | date
  | time
  | username
  | hashtag
  | url
  | phoneNumber
  | emailAddress
  | pathName
  | picture
  | genericEntity
deriving DecidableEq, Repr

/-- The kind of constant that entities of a type are written as. -/
def ConstantKind.ofEntityKind : String → ConstantKind
  | "tt:username" => .username
  | "tt:hashtag" => .hashtag
  | "tt:url" => .url
  | "tt:phone_number" => .phoneNumber
  | "tt:email_address" => .emailAddress
  | "tt:path_name" => .pathName
  | "tt:picture" => .picture
  | _ => .genericEntity

structure Constant where
  kind : ConstantKind
  value : Value

instance : BEq Constant := ⟨fun a b => a.kind == b.kind && a.value == b.value⟩

inductive Token where
  | literal (text : String)
  | layout (layout : Layout)
  | constant (c : Constant)
deriving BEq

namespace Token

def isLayout : Token → Bool
  | layout _ => true
  | _ => false

def isLiteral : Token → Bool
  | literal _ => true
  | _ => false

end Token

/-- The type under which a constant is looked up among the entities. -/
def Constant.entityType (c : Constant) : String :=
  match c.kind with
  | .quotedString => "QUOTED_STRING"
  | .number => "NUMBER"
  | .measure =>
    match c.value with
    | .measure _ unit => "MEASURE_" ++ unit
    | _ => "MEASURE"
  | .currency => "CURRENCY"
  | .location => "LOCATION"
  | .date => "DATE"
  | .time => "TIME"
  | .username => "USERNAME"
  | .hashtag => "HASHTAG"
  | .url => "URL"
  | .phoneNumber => "PHONE_NUMBER"
  | .emailAddress => "EMAIL_ADDRESS"
  | .pathName => "PATH_NAME"
  | .picture => "PICTURE"
  | .genericEntity =>
    match c.value with
    | .entity e => "GENERIC_ENTITY_" ++ e.kind
    | _ => "GENERIC_ENTITY"

end SkillLang
