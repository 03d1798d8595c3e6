import SkillLang.Entities.Finder
import SkillLang.Legacy.Source

/-!
# Serialization to words

For machines a token stream becomes a list of words: layout marks are dropped,
literals are split at blanks, and every constant is named by a finder.
-/

namespace SkillLang

inductive SerializeError where
  | conversion (e : Legacy.ConversionError)
  | entity (e : EntityError)
  | tooManyTokens (count : Nat)
deriving DecidableEq

namespace SerializeError

instance : Diagnostic SerializeError where
  kind
    | conversion e => Diagnostic.kind e
    | entity e => Diagnostic.kind e
    | tooManyTokens _ => "TokenLimitExceeded"
  code
    | conversion e => Diagnostic.code e
    | entity e => Diagnostic.code e
    | tooManyTokens _ => .tokenLimitExceeded
  message
    | conversion e => Diagnostic.message e
    | entity e => Diagnostic.message e
    | tooManyTokens count =>
      "Serialized output has " ++ toString count ++ " tokens, more than the limit of " ++
        toString Limits.maxTokens
  range
    | conversion e => Diagnostic.range e
    | entity e => Diagnostic.range e
    | tooManyTokens _ => none

end SerializeError

namespace Serialization

abbrev Serialize (α : Type) : Type := Action EntityFinder SerializeError α

def find (type : String) (v : Value) (options : FindOptions) :
    Serialize (Option (List String)) :=
  Action.mapError .entity (EntityFinder.find type v options)

def numberWords (x : Float) (options : FindOptions) : Serialize (List String) := do
  return (← find "NUMBER" (.number x) options).getD [Decimal.number x]

def placeWords (name : String) : List String :=
  ["new", "Location", "(", "\""] ++ Text.words name ++ ["\"", ")"]

def timeWords (hour minute second : Nat) : List String :=
  ["new", "Time", "(", toString hour, ",", toString minute] ++
    (if second = 0 then [] else [",", toString second]) ++ [")"]

/-- The words of a constant.  A measure or an amount of money that is not found as a whole is a
number and a unit, and places by name and times of day are written out when they are not found. -/
def constantWords (c : Constant) (options : FindOptions) : Serialize (List String) := do
  match c.value with
  | .measure x unit =>
    match ← find c.entityType c.value options.ignoring with
    | some words => return words
    | none => return (← numberWords x options) ++ ["unit:" ++ unit]
  | .currency x code =>
    match ← find c.entityType c.value options.ignoring with
    | some words => return words
    | none => return (← numberWords x options) ++ ["unit:$" ++ code]
  | .place (.unresolved name) =>
    return (← find c.entityType c.value options.ignoring).getD (placeWords name)
  | .time (.absolute hour minute second) =>
    return (← find c.entityType c.value options.ignoring).getD (timeWords hour minute second)
  | v => return (← find c.entityType v options).getD (Text.words c.render)

def tokenWords (t : Token) (options : FindOptions) : Serialize (List String) :=
  match t with
  | .layout _ => return []
  | .literal text => return Text.words text
  | .constant c => constantWords c options

/-- Adds the words of tokens to those before them, unless there are too many. -/
def addWords (options : FindOptions) : List Token → Array String → Serialize (Array String)
  | [], words => return words
  | t :: ts, words => do
    let words := words ++ (← tokenWords t options)
    if Limits.maxTokens < words.size then
      Action.record (.failure .tokenLimitExceeded "Token limit exceeded" none
        [("count", toString words.size), ("limit", toString Limits.maxTokens)])
      throw (.tooManyTokens words.size)
    addWords options ts words

end Serialization

def TokenStream.words (stream : TokenStream) (includeValue : Bool) :
    Action EntityFinder SerializeError (Array String) := do
  let tokens := stream.toList
  Action.record (.debug "Serializing token stream" [("tokens", toString tokens.length)])
  let words ← Serialization.addWords ⟨false, includeValue⟩ tokens #[]
  Action.record (.success .serializationComplete "Tokenized serialization complete"
    [("tokens", toString words.size)])
  return words

end SkillLang
