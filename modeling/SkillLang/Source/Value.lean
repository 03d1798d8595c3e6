import SkillLang.Source.Constant
import SkillLang.Source.Priority
import SkillLang.Types.Text

/-!
# The source of values and filters

Every part of a value or filter is written with the parentheses that its priority
calls for, so that nothing is read differently from how it was meant.
-/

namespace SkillLang

open TokenStream

/-- The priority of an operator that is written between its operands. -/
def infixPriority? : String → Option Priority
  | "+" | "-" => some .add
  | "*" | "/" | "%" => some .mul
  | "**" => some .exp
  | _ => none

/-- The comparisons that are written between their operands. -/
def isComparison (op : String) : Bool :=
  ["==", ">=", "<=", ">", "<", "=~", "~="].contains op

def Value.priority : Value → Priority
  | .computation op operands _ _ =>
    if operands.length = 2 then (infixPriority? op).getD .primary else .primary
  | .field _ _ _ => .projection
  | .filtered _ _ _ => .filter
  | _ => .primary

def Filter.priority : Filter → Priority
  | .conj _ _ => .and
  | .disj _ _ => .or
  | .neg _ _ => .not
  | .atom _ _ op _ _ => if isComparison op then .comp else .primary
  | .compute _ _ op _ _ => if isComparison op then .comp else .primary
  | _ => .primary

def Value.constant (kind : ConstantKind) (v : Value) : TokenStream :=
  token (.constant ⟨kind, v⟩)

def TimeOfDay.source : TimeOfDay → TokenStream
  | .relative name => "$time." ++ name
  | t => Value.constant .time (.time t)

/-- The time of a date, after a comma. -/
def timeSource : Option TimeOfDay → TokenStream
  | some t => ofParts [",", t.source]
  | none => empty

def numberSource (n : Int) : TokenStream :=
  Value.constant .number (.number (Float.ofInt n))

def pieceSource : Option Int → TokenStream
  | some n => numberSource n
  | none => empty

def DateValue.source : DateValue → TokenStream
  | .absolute moment => Value.constant .date (.date (.absolute moment))
  | .now => "$now"
  | .edge which unit =>
    let head := match which with
      | .startOf => "$start_of"
      | .endOf => "$end_of"
    ofParts [head, "(", unit, ")"]
  | .piece year month day time =>
    ofParts ["new", "Date", "(", pieceSource year, ",", pieceSource (month.map Int.ofNat), ",",
      pieceSource (day.map Int.ofNat), timeSource time, ")"]
  | .weekday day time => ofParts ["new", "Date", "(", day.name, timeSource time, ")"]

def Place.source : Place → TokenStream
  | .relative name => "$location." ++ name
  | p => Value.constant .location (.place p)

/-- A computation from the priorities and sources of its operands. -/
def computationSource (op : String) (operands : List (Priority × TokenStream)) : TokenStream :=
  match infixPriority? op, operands with
  | some priority, [(lhsPriority, lhs), (rhsPriority, rhs)] =>
    if op == "**" then
      ofParts [parens priority.tighter lhsPriority lhs, op, parens priority rhsPriority rhs]
    else
      ofParts [parens priority lhsPriority lhs, op, parens priority.tighter rhsPriority rhs]
  | _, _ => ofParts [op, "(", join (operands.map Prod.snd) ",", ")"]

/-- A comparison, given the priorities and sources of its sides. -/
def comparisonSource (lhsPriority : Priority) (lhs : TokenStream) (op : String)
    (rhsPriority : Priority) (rhs : TokenStream) : TokenStream :=
  if isComparison op then
    ofParts [parens .add lhsPriority lhs, op, parens .add rhsPriority rhs]
  else ofParts [op, "(", lhs, ",", rhs, ")"]

def argMapSource (args : List (String × Ty)) : TokenStream :=
  ofParts ["new", "ArgMap", "(",
    join (args.map fun (name, type) => ofParts [name, ":", type.display]) ",", ")"]

/-- The attributes of devices from the sources of their named attributes. -/
def attributesSource (id : Option String) (attributes : List TokenStream) (all : Bool) :
    TokenStream :=
  join ((match id with | some id => [ofParts ["id", "=", Text.quote id]] | none => []) ++
    attributes ++ (if all then [ofParts ["all", "=", "true"]] else [])) ","

mutual

def Value.source : Value → TokenStream
  | .string s => Value.constant .quotedString (.string s)
  | .number x => Value.constant .number (.number x)
  | .measure x unit => Value.constant .measure (.measure x unit)
  | .currency x code => Value.constant .currency (.currency x code)
  | .entity e => Value.constant (.ofEntityKind e.kind) (.entity e)
  | .boolean b => if b then "true" else "false"
  | .enum entry => ofParts ["enum", entry]
  | .event name => "$" ++ name.getD "result"
  | .undefined _ => "$?"
  | .var name _ => name
  | .context name type => ofParts ["$context." ++ name, ":", type.display]
  | .place p => p.source
  | .time t => t.source
  | .date d => d.source
  | .argMap args => argMapSource args
  | .object fields => ofParts ["\x7b", join (Value.fieldSources fields) ",", "\x7d"]
  | .array values _ => ofParts ["[", join ((Value.sources values).map Prod.snd) ",", "]"]
  | .computation op operands _ _ => computationSource op (Value.sources operands)
  | .field value name _ => ofParts [name, "of", parens .projection value.priority value.source]
  | .filtered value filter _ =>
    ofParts [parens .filter value.priority value.source, "filter", filter.source]

def Value.sources : List Value → List (Priority × TokenStream)
  | [] => []
  | value :: values => (value.priority, value.source) :: Value.sources values

def Value.fieldSources : List (String × Value) → List TokenStream
  | [] => []
  | (name, value) :: fields => ofParts [name, "=", value.source] :: Value.fieldSources fields

def Filter.source : Filter → TokenStream
  | .always => "true"
  | .never => "false"
  | .conj _ operands =>
    if operands.isEmpty then "true" else join (Filter.sources .and operands) "&&"
  | .disj _ operands =>
    if operands.isEmpty then "false" else join (Filter.sources .or operands) "||"
  | .neg _ operand => ofParts ["!", parens .not operand.priority operand.source]
  | .atom _ name op value _ => comparisonSource .primary name op value.priority value.source
  | .compute _ lhs op rhs _ =>
    comparisonSource lhs.priority lhs.source op rhs.priority rhs.source
  | .dontCare _ name => ofParts ["true", "(", name, ")"]
  | .external call filter =>
    if filter.isAlways then ofParts ["any", "(", call.source, ")"]
    else ofParts ["any", "(", call.source, "filter", filter.source, ")"]

def Filter.sources (priority : Priority) : List Filter → List TokenStream
  | [] => []
  | operand :: operands =>
    parens priority operand.priority operand.source :: Filter.sources priority operands

def Param.sources : List Param → List TokenStream
  | [] => []
  | ⟨name, value, _⟩ :: params => ofParts [name, "=", value.source] :: Param.sources params

def Device.source : Device → TokenStream
  | ⟨kind, id, attributes, all, _⟩ =>
    if id.isNone && attributes.isEmpty && !all then ("@" ++ kind : String)
    else
      ofParts [("@" ++ kind : String), "(", attributesSource id (Param.sources attributes) all, ")"]

def Invocation.source : Invocation → TokenStream
  | ⟨.builtin, channel, params, _, _⟩ =>
    if params.isEmpty then channel
    else ofParts [channel, "(", join (Param.sources params) ",", ")"]
  | ⟨.device device, channel, params, _, _⟩ =>
    if device.isPlain then
      ofParts [("@" ++ device.kind ++ "." ++ channel : String), "(",
        join (Param.sources params) ",", ")"]
    else ofParts [device.source, ".", channel, "(", join (Param.sources params) ",", ")"]

end

end SkillLang
