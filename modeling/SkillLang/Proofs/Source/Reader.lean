import SkillLang.Json.Lexeme
import SkillLang.Proofs.Source.Names
import SkillLang.Proofs.Source.Series
import SkillLang.Source.Program

/-!
# Reading sources

The readers of values, filters, calls, expressions and programs, on token trees.  Each of them
looks for the mark at which the trees fall apart first, and leaves the parts to the readers of
the next stage; a stage reads everything that has fewer levels than its number.
-/

namespace SkillLang

open TokenTree

/-- The readers of one stage. -/
structure Readers where
  value : List TokenTree → Option Value
  filter : List TokenTree → Option Filter

/-- One of some separators stands among the trees. -/
def hasMark (marks : List String) (ts : List TokenTree) : Bool :=
  ts.any fun t => (t.mark? marks).isSome

def readName? : List TokenTree → Option String
  | [word w] => if isName w then some w else none
  | _ => none

def readType? (w : String) : Option Ty :=
  (Ty.parse w).toOption

/-- A name with the type that follows it after a colon. -/
def readTyped? : List TokenTree → Option (String × Ty)
  | [word name, word _, word type] => (readType? type).map fun type => (name, type)
  | _ => none

def readTypeTree? : List TokenTree → Option Ty
  | [word type] => readType? type
  | _ => none

/-- Types of which one is meant. -/
def readTypes? (ts : List TokenTree) : Option (List Ty) :=
  (items (isMark "|") ts).mapM readTypeTree?

def readWord (w : String) : Value :=
  match afterPrefix? "$" w with
  | none =>
    if w = "true" then .boolean true
    else if w = "false" then .boolean false
    else .var w none
  | some rest =>
    match afterPrefix? "time." rest, afterPrefix? "location." rest with
    | some name, _ => .time (.relative name)
    | none, some name => .place (.relative name)
    | none, none =>
      if rest = "?" then .undefined true
      else if rest = "now" then .date .now
      else if rest = "result" then .event none
      else .event (some rest)

def wholeNumber (x : Float) : Int :=
  x.toInt64.toInt

/-- A part of a date, which need not be given. -/
def readPiece? : List TokenTree → Option (Option Int)
  | [] => some none
  | [leaf (.constant ⟨_, .number x⟩)] => some (some (wholeNumber x))
  | _ => none

/-- The conjunction of filters, of which there may be only one. -/
def allOf : List Filter → Filter
  | [test] => test
  | tests => .conj none tests

/-- The disjunction of filters, of which there may be only one. -/
def anyOf : List Filter → Filter
  | [test] => test
  | tests => .disj none tests

/-! ## Calls of functions of devices -/

/-- The texts before and after the last of a character. -/
def splitLast? (mark : Char) : List Char → Option (List Char × List Char)
  | [] => none
  | c :: cs =>
    match splitLast? mark cs with
    | some (before, after) => some (c :: before, after)
    | none => if c = mark then some ([], cs) else none

/-- The class and the function of a qualified name. -/
def splitName? (qualified : String) : Option (String × String) :=
  (splitLast? '.' qualified.toList).map fun (kind, channel) =>
    (String.ofList kind, String.ofList channel)

/-- The text that stands between quotes. -/
def unquote? (w : String) : Option String :=
  (afterPrefix? "\"" w).bind fun rest => (Json.readString [] rest.toList).map Prod.fst

def readId? : List TokenTree → Option String
  | [word name, word _, word id] => if name = "id" then unquote? id else none
  | _ => none

/-- The choice of all devices. -/
def isAll : List TokenTree → Bool
  | [word name, word _, word value] => name == "all" && value == "true"
  | _ => false

/-- The identifier, if it is the first choice, and the other choices. -/
def cutId (choices : List (List TokenTree)) : Option String × List (List TokenTree) :=
  match choices.head?.bind readId? with
  | some id => (some id, choices.tail)
  | none => (none, choices)

/-- Whether the last choice is that of all devices, and the other choices. -/
def cutAll (choices : List (List TokenTree)) : Bool × List (List TokenTree) :=
  if choices.getLast?.any isAll then (true, choices.dropLast) else (false, choices)

namespace Readers

variable (r : Readers)

def assignment : List TokenTree → Option (String × Value)
  | word name :: word _ :: value => (r.value value).map fun value => (name, value)
  | _ => none

def param (ts : List TokenTree) : Option Param :=
  (r.assignment ts).map fun (name, value) => ⟨name, value, none⟩

def params (ts : List TokenTree) : Option (List Param) :=
  (items (isMark ",") ts).mapM r.param

def device (kind : String) (ts : List TokenTree) : Option Device :=
  let (id, choices) := cutId (items (isMark ",") ts)
  let (all, choices) := cutAll choices
  (choices.mapM r.param).map fun attributes => ⟨kind, id, attributes, all, none⟩

def invocation : List TokenTree → Option Invocation
  | [word channel] => some ⟨.builtin, channel, [], none, none⟩
  | [word function, group .round inputs] => do
    let (kind, channel) ← (afterPrefix? "@" function).bind splitName?
    return ⟨.device (.ofKind kind), channel, ← r.params inputs, none, none⟩
  | [word kind, group .round choices, word _, word channel, group .round inputs] => do
    let device ← r.device (← afterPrefix? "@" kind) choices
    return ⟨.device device, channel, ← r.params inputs, none, none⟩
  | _ => none

/-! ## Values -/

def dateTime : List TokenTree → Option (Option TimeOfDay)
  | [] => some none
  | t :: ts =>
    match r.value (t :: ts) with
    | some (.time time) => some (some time)
    | _ => none

/-- A date of which the weekday is given, or some of its year, month and day. -/
def writtenDate (ts : List TokenTree) : Option DateValue :=
  match pieces (isMark ",") ts with
  | [word day] :: time => do
    return .weekday (← Weekday.ofName? day) (← r.dateTime (time.headD []))
  | year :: month :: day :: time => do
    return .piece (← readPiece? year) ((← readPiece? month).map Int.toNat)
      ((← readPiece? day).map Int.toNat) (← r.dateTime (time.headD []))
  | _ => none

/-- The value of a word with something in parentheses after it. -/
def applied (op : String) (inner : List TokenTree) : Option Value :=
  if op = "$start_of" then (readName? inner).map fun unit => .date (.edge .startOf unit)
  else if op = "$end_of" then (readName? inner).map fun unit => .date (.edge .endOf unit)
  else
    ((items (isMark ",") inner).mapM r.value).map fun operands =>
      .computation op operands none none

/-- The value of a keyword, from the word after it. -/
def keyed (w : String) : List TokenTree → Option Value
  | [] => some (.enum w)
  | [group .round inner] =>
    if w = "ArgMap" then ((items (isMark ",") inner).mapM readTyped?).map .argMap
    else (r.writtenDate inner).map .date
  | _ => none

/-- What stands for one operand. -/
def operand : List TokenTree → Option Value
  | [leaf (.constant c)] => some c.value
  | [word w] => some (readWord w)
  | [context name type] => (readType? type).map (.context name)
  | [group .round inner] => r.value inner
  | [group .square inner] =>
    ((items (isMark ",") inner).mapM r.value).map fun values => .array values none
  | [group .curly inner] => ((items (isMark ",") inner).mapM r.assignment).map .object
  | [word op, group .round inner] => r.applied op inner
  | word first :: word second :: rest =>
    if second = "of" then (r.value rest).map fun value => .field value first none
    else r.keyed second rest
  | _ => none

def nextValue (ts : List TokenTree) : Option Value :=
  match cutLast? ["filter"] ts with
  | some (before, _, test) => do
    return .filtered (← r.value before) (← r.filter test) none
  | none => do
    let series ← (Series.ofTrees ts).mapM? r.operand
    return associate series.first series.rest

/-! ## Filters -/

/-- A comparison, of an output if a name stands on its left side. -/
def sides (lhs : List TokenTree) (op : String) (rhs : List TokenTree) : Option Filter :=
  match readName? lhs with
  | some name => (r.value rhs).map fun value => .atom none name op value none
  | none => do return .compute none (← r.value lhs) op (← r.value rhs) none

def call (op : String) (inner : List TokenTree) : Option Filter :=
  match items (isMark ",") inner with
  | [lhs, rhs] => r.sides lhs op rhs
  | _ => none

def external (ts : List TokenTree) : Option Filter :=
  match cutFirst? ["filter"] ts with
  | some (call, _, test) => do return .external (← r.invocation call) (← r.filter test)
  | none => (r.invocation ts).map fun call => .external call .always

/-- A filter without any mark outside of brackets. -/
def primaryTest : List TokenTree → Option Filter
  | [group .round inner] => r.filter inner
  | [word w] => some (if w = "true" then .always else .never)
  | [word op, group .round inner] =>
    if op = "true" then (readName? inner).map (.dontCare none)
    else if op = "any" then r.external inner
    else r.call op inner
  | _ => none

/-- A filter without connectives outside of brackets. -/
def test (ts : List TokenTree) : Option Filter :=
  match cutFirst? ["!"] ts with
  | some (_, _, operand) => (r.filter operand).map (.neg none)
  | none =>
    match cutFirst? comparisonMarks ts with
    | some (lhs, op, rhs) => r.sides lhs op rhs
    | none => r.primaryTest ts

def conjunction (ts : List TokenTree) : Option Filter :=
  ((pieces (isMark "&&") ts).mapM r.test).map allOf

def nextFilter (ts : List TokenTree) : Option Filter :=
  ((pieces (isMark "||") ts).mapM r.conjunction).map anyOf

def next : Readers :=
  ⟨r.nextValue, r.nextFilter⟩

end Readers

def readers : Nat → Readers
  | 0 => ⟨fun _ => none, fun _ => none⟩
  | n + 1 => (readers n).next

/-! ## Expressions -/

/-- An external call, or the test of an output that may have any value. -/
def isProbe : List TokenTree → Bool
  | [word w, group .round _] => w == "any" || w == "true"
  | _ => false

/-- A test stands among the trees that is not part of a filtered value. -/
def isQuestion (ts : List TokenTree) : Bool :=
  isProbe ts || !hasMark ["filter"] ts && hasMark testMarks ts

namespace Readers

variable (r : Readers)

/-- A computed column with the name that is given to it. -/
def labelled (ts : List TokenTree) : Option (Value × Option String) :=
  match cutFirst? ["as"] ts with
  | some (value, _, label) => do return (← r.value value, some (← readName? label))
  | none => (r.value ts).map fun value => (value, none)

/-- An output or a computed column. -/
def projected (ts : List TokenTree) : Option (String ⊕ (Value × Option String)) :=
  match readName? ts with
  | some name => some (.inl name)
  | none => (r.labelled ts).map .inr

def column (ts : List TokenTree) : Option Column :=
  match readName? ts with
  | some path => some (.path path)
  | none => (r.value ts).map .value

def columnOf (types : List Ty) (ts : List TokenTree) : Option Selected :=
  match cutFirst? ["as"] ts with
  | some (column, _, label) => do return ⟨← r.column column, some (← readName? label), types⟩
  | none => (r.column ts).map fun column => ⟨column, none, types⟩

def selected (ts : List TokenTree) : Option Selected :=
  match cutFirst? [":"] ts with
  | some (body, _, types) => (readTypes? types).bind fun types => r.columnOf types body
  | none => r.columnOf [] ts

/-- What stands in brackets in front of an expression; a selection has a type in it. -/
def brackets (ts : List TokenTree) : Option Clause :=
  if hasMark [":"] ts then ((items (isMark ",") ts).mapM r.selected).map .selection
  else if isQuestion ts then (r.filter ts).map .question
  else
    ((items (isMark ",") ts).mapM r.projected).map fun columns =>
      let computed := columns.filterMap Sum.getRight?
      .projection (columns.filterMap Sum.getLeft?) (computed.map Prod.fst) (computed.map Prod.snd)

/-- What stands in brackets after an expression. -/
def place (ts : List TokenTree) : Option Clause :=
  match cutFirst? [":"] ts with
  | some (base, _, limit) => do return .slice (← r.value base) (← r.value limit)
  | none => ((items (isMark ",") ts).mapM r.value).map .index

end Readers

/-- What stands in front of an expression with `of` between them, and the expression. -/
def beforeOf? (part? : TokenTree → Option α) : List TokenTree → Option (α × List TokenTree)
  | t :: word w :: rest => if w = "of" then (part? t).map fun part => (part, rest) else none
  | _ => none

def bracketed? : TokenTree → Option (List TokenTree)
  | group .square inner => some inner
  | _ => none

def spelledWord? : TokenTree → Option String
  | word w => some w
  | _ => none

/-- Brackets in front of an expression, and the expression. -/
def frontBrackets? (ts : List TokenTree) : Option (List TokenTree × List TokenTree) :=
  beforeOf? bracketed? ts

/-- Brackets after an expression, and the expression; those after `new` list arguments. -/
def backBrackets? (ts : List TokenTree) : Option (List TokenTree × List TokenTree) :=
  match ts.reverse with
  | group .square inner :: t :: before =>
    if (t.mark? ["new"]).isSome then none else some ((t :: before).reverse, inner)
  | _ => none

def fieldOf? (ts : List TokenTree) : Option (String × List TokenTree) :=
  beforeOf? spelledWord? ts

section Expressions

variable (r : Readers) (e : List TokenTree → Option Expression)

def readSort (ts : List TokenTree) : Option Expression := do
  let (value, direction, rest) ← cutFirst? ["asc", "desc"] ts
  let body ← match rest with
    | _ :: body => e body
    | [] => none
  return .clause {} body
    (.sort (← r.value value) (if direction = "asc" then .asc else .desc))

/-- An expression that is a word with something in parentheses after it. -/
def readApplied (head : String) (inner : List TokenTree) : Option Expression :=
  if head = "monitor" then (e inner).map fun body => .clause {} body (.monitor none)
  else if head = "sort" then readSort r e inner
  else if (afterPrefix? "@" head).isSome then
    (r.invocation [word head, group .round inner]).map (.invocation {})
  else if inner.isEmpty || hasMark ["="] inner then (r.params inner).map (.call {} head)
  else
    match fieldOf? inner with
    | some (field, body) => (e body).map fun body => .clause {} body (.aggregation field head none)
    | none => (e inner).map fun body => .clause {} body (.aggregation "*" head none)

def readPrimary (ts : List TokenTree) : Option Expression :=
  match backBrackets? ts with
  | some (body, inner) => do return .clause {} (← e body) (← r.place inner)
  | none =>
    match ts with
    | [group .round inner] => e inner
    | [word head, group .round inner] => readApplied r e head inner
    | [word _, group .round inner, word _, word _, group .square args] => do
      return .clause {} (← e inner) (.monitor (← (items (isMark ",") args).mapM readName?))
    | _ => (r.invocation ts).map (.invocation {})

def readClauses (ts : List TokenTree) : Option Expression :=
  match frontBrackets? ts with
  | some (inner, body) => do return .clause {} (← e body) (← r.brackets inner)
  | none =>
    match cutLast? ["filter"] ts with
    | some (body, _, test) => do return .clause {} (← e body) (.filter (← r.filter test))
    | none =>
      match cutLast? ["as"] ts with
      | some (body, _, name) => do return .clause {} (← e body) (.named (← readName? name))
      | none => readPrimary r e ts

def readJoin (ts : List TokenTree) : Option Expression :=
  match cutLast? ["join"] ts with
  | some (lhs, _, rhs) => do return .join {} (← e lhs) (← e rhs)
  | none => readClauses r e ts

def readChain (ts : List TokenTree) : Option Expression :=
  match pieces (isMark "=>") ts with
  | [element] => readJoin r e element
  | elements => (elements.mapM e).map (.chain {})

end Expressions

def readExpression : Nat → List TokenTree → Option Expression
  | 0, _ => none
  | n + 1, ts => readChain (readers n) (readExpression n) ts

/-! ## Statements -/

section Programs

variable (e : List TokenTree → Option Expression)

/-- A statement without the semicolon at its end. -/
def readBody (ts : List TokenTree) : Option Statement :=
  match cutFirst? ["return", "let"] ts with
  | none => (e ts).map fun body => .expression ⟨body, none⟩
  | some (_, head, rest) =>
    if head = "return" then (e rest).map fun body => .ret body none
    else
      match rest with
      | word name :: _ :: _ :: _ :: body => (e body).map fun body => .assign name body none
      | _ => none

def readStatement (ts : List TokenTree) : Option Statement :=
  (cutFirst? [";"] ts).bind fun (body, _, _) => readBody e body

end Programs

/-! ## Programs -/

def readArgument : List TokenTree → Option Argument
  | [word _, word kind, word name, word _, word type] => do
    let direction := if kind = "req" then Direction.inReq else Direction.inOpt
    return { name, direction, type := ← readType? type }
  | [word _, word name, word _, word type] => do
    return { name, direction := .out, type := ← readType? type }
  | _ => none

/-- The items of a block, without the layout marks at its ends. -/
def readBlock {α : Type} (read : List TokenTree → Option α) (ts : List TokenTree) :
    Option (List α) :=
  (items (isMark "\n") (ts.drop 2).dropLast.dropLast).mapM read

def FunctionType.ofName? (w : String) : Option FunctionType :=
  [FunctionType.query, .action, .stream].find? fun type => type.name == w

/-- A function of the devices of a class, from the end of its line. -/
def readSignature (kind : String) (ts : List TokenTree) : Option Signature :=
  match ts.reverse with
  | word _ :: group .round args :: word name :: word type :: modifiers => do
    return {
      type := ← FunctionType.ofName? type
      device := some kind
      name
      args := ← (items (isMark ",") args).mapM readArgument
      isList := hasMark ["list"] modifiers
      isMonitorable := hasMark ["monitorable"] modifiers }
  | _ => none

def readKind? : List TokenTree → Option String
  | [word w] => afterPrefix? "@" w
  | _ => none

/-- A class with the functions in its block. -/
def ClassDef.ofFunctions (kind : String) (parents : List String) (functions : List Signature) :
    ClassDef :=
  let named (s : Signature) := (s.name, s)
  ⟨kind, parents, (functions.filter fun s => s.type != .action).map named,
    (functions.filter fun s => s.type == .action).map named, none⟩

/-- What stands between the kind of a class and its block are the classes that it extends. -/
def readClass : List TokenTree → Option ClassDef
  | word _ :: kind :: rest =>
    match rest.getLast? with
    | some (group .curly body) => do
      let kind ← readKind? [kind]
      let parents ← (items (isMark ",") (rest.dropLast.drop 1)).mapM readKind?
      return .ofFunctions kind parents (← readBlock (readSignature kind) body)
    | _ => none
  | _ => none

/-- What a program consists of, one after the other. -/
inductive ProgramItem where
  | ofClass (d : ClassDef)
  | declared (d : FunctionDeclaration)
  | stated (s : Statement)

namespace ProgramItem

def class? : ProgramItem → Option ClassDef
  | ofClass d => some d
  | _ => none

def declaration? : ProgramItem → Option FunctionDeclaration
  | declared d => some d
  | _ => none

def statement? : ProgramItem → Option Statement
  | stated s => some s
  | _ => none

def program (found : List ProgramItem) : Program :=
  ⟨found.filterMap class?, found.filterMap declaration?, found.filterMap statement?, none⟩

end ProgramItem

section Programs

variable (e : List TokenTree → Option Expression)

def readDeclaration : List TokenTree → Option FunctionDeclaration
  | [word _, word name, group .round args, group .curly statements] => do
    return ⟨name, ← (items (isMark ",") args).mapM readArgument,
      ← readBlock (readStatement e) statements, none, none⟩
  | _ => none

def readItem (ts : List TokenTree) : Option ProgramItem :=
  if hasMark ["class"] ts then (readClass ts).map .ofClass
  else if hasMark ["function"] ts then (readDeclaration e ts).map .declared
  else (readStatement e ts).map .stated

def readProgram (ts : List TokenTree) : Option Program :=
  ((items (isMark "\n") ts).mapM (readItem e)).map ProgramItem.program

end Programs

end SkillLang
