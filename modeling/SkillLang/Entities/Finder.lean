import SkillLang.Decimal.Reading
import SkillLang.Entities.Json
import SkillLang.Log.Event
import SkillLang.Log.Session
import SkillLang.Source.Constant
import SkillLang.Source.Value
import SkillLang.Text.Basic

/-!
# Finding entities

A finder names a constant by words.  A finder with a sentence copies what the sentence
says, and otherwise looks for an entity that stands for the constant; an allocator
gives every constant that it has not seen yet the next placeholder of its type.  Small
numbers are written out, and negative numbers follow a minus sign.
-/

namespace SkillLang

inductive EntityError where
  | notFound (type value known : String)
  | limitExceeded (type : String)
  | invalidValue (type value : String)
deriving DecidableEq

namespace EntityError

instance : Diagnostic EntityError where
  kind
    | notFound _ _ _ => "NotFound"
    | limitExceeded _ => "LimitExceeded"
    | invalidValue _ _ => "InvalidValue"
  code
    | notFound _ _ _ => .entityNotFound
    | limitExceeded _ => .entityLimitExceeded
    | invalidValue _ _ => .invalidEntityValue
  message
    | notFound type value known =>
      "Cannot find entity " ++ type ++ " for value " ++ excerpt value ++ ", have " ++ excerpt known
    | limitExceeded type =>
      "Too many entities of type " ++ type ++ " (limit " ++ toString Limits.maxEntitiesPerType ++
        ")"
    | invalidValue type value => "Value " ++ excerpt value ++ " cannot be stored as " ++ type
  range _ := none

/-- What is recorded when nothing is found or there are too many entities. -/
def event? : EntityError → Option Event
  | notFound type value _ =>
    some (.failure .entityNotFound "Entity not found" none
      [("entity_type", type), ("value", value)])
  | limitExceeded type =>
    some (.failure .entityLimitExceeded "Entity limit exceeded" none
      [("entity_type", type), ("limit", toString Limits.maxEntitiesPerType)])
  | invalidValue _ _ => none

end EntityError

structure FindOptions where
  /-- It is no error that nothing is found. -/
  ignoreNotFound : Bool := false
  /-- The identifiers of generic entities are given after their names. -/
  includeValue : Bool := false

def FindOptions.ignoring (o : FindOptions) : FindOptions :=
  { o with ignoreNotFound := true }

/-- Words between quotation marks. -/
def quotedWords (words : List String) : List String :=
  "\"" :: (words ++ ["\""])

/-! ## Sentences -/

structure SentenceFinder where
  sentence : List String
  entities : EntityMap
  /-- Strings are only copied. -/
  explicitStrings : Bool
  now : Moment

namespace SentenceFinder

def of (sentence : String) (entities : EntityMap) (explicitStrings : Bool) (now : Moment) :
    SentenceFinder :=
  ⟨Text.words sentence, entities, explicitStrings, now⟩

/-- The first list is at the start of the second one, apart from the case of ASCII letters. -/
def startsWith : (words sentence : List String) → Bool
  | [], _ => true
  | _, [] => false
  | word :: words, other :: sentence =>
    Text.equalIgnoringCase word other && startsWith words sentence

/-- Some words stand in a list one after the other. -/
def occurs (words : List String) : List String → Bool
  | [] => false
  | word :: sentence => startsWith words (word :: sentence) || occurs words sentence

/-- The sentence says the words. -/
def mentions (f : SentenceFinder) (words : List String) : Bool :=
  !words.isEmpty && occurs words f.sentence

def copyString? (f : SentenceFinder) (kind : String) (v : Value) : Option (List String) := do
  let words := Text.words (← Entity.textOf? v)
  if f.mentions words then
    some (quotedWords words ++ if kind.isEmpty then [] else ["^^" ++ kind])
  else none

def copyEntity? (f : SentenceFinder) (kind : String) (e : EntityRef) (options : FindOptions) :
    Option (List String) := do
  let words := Text.words (← e.display)
  if f.mentions words then
    some (quotedWords words ++ ["^^" ++ kind] ++
      match options.includeValue, e.value with
      | true, some value => "(" :: (quotedWords [value] ++ [")"])
      | _, _ => [])
  else none

/-- What comes after the beginning of the type of generic entities. -/
def genericKind? (type : String) : Option String :=
  let start := "GENERIC_ENTITY_".toList
  if start.isPrefixOf type.toList then some (String.ofList (type.toList.drop start.length))
  else none

/-- A constant in the words of the sentence. -/
def copy? (f : SentenceFinder) (type : String) (v : Value) (options : FindOptions) :
    Option (List String) :=
  match v with
  | .number x =>
    let number := Decimal.number x
    if f.mentions [number] then some [number] else none
  | v =>
    match Entity.stringKind? type with
    | some kind => f.copyString? kind v
    | none =>
      match genericKind? type, v with
      | some kind, .entity e => f.copyEntity? kind e options
      | _, _ => none

/-- A constant in the words of the sentence, or else its placeholder. -/
def literal? (f : SentenceFinder) (type : String) (v : Value) (options : FindOptions) :
    Option (List String) :=
  match f.copy? type v options with
  | some words => some words
  | none =>
    if f.explicitStrings && type == "QUOTED_STRING" then none
    else (Entity.placeholder? f.entities type f.now v).map fun key => [key]

end SentenceFinder

/-! ## Allocation -/

structure Allocator where
  /-- The next number of every type that has numbers. -/
  offsets : Keyed Nat
  entities : EntityMap
  /-- Strings are written out. -/
  explicitStrings : Bool
  now : Moment

namespace Allocator

/-- The number at the end of a placeholder, which may have a plus sign. -/
def numberOf? (placeholder : String) : Option Nat := do
  let (_, digits) ← Entity.splitPlaceholder? placeholder
  match digits.toList with
  | '+' :: digits => Decimal.natOf? (Nat.pow 2 64) digits
  | digits => Decimal.natOf? (Nat.pow 2 64) digits

/-- The number that comes after a placeholder, in words of 64 bits. -/
def numberAfter (placeholder : String) : Nat :=
  match numberOf? placeholder with
  | some n => (n + 1) % Nat.pow 2 64
  | none => 0

def offset (a : Allocator) (type : String) : Nat :=
  (Keyed.find? type a.offsets).getD 0

/-- The numbers that come after those of some placeholders. -/
def offsetsAfter (placeholders : List String) : Keyed Nat :=
  placeholders.foldl (fun offsets placeholder =>
    let type := Entity.typeOf placeholder
    let offset := (Keyed.find? type offsets).getD 0
    Keyed.insert type (max offset (numberAfter placeholder)) offsets) []

/-- An allocator that goes on after the entities that there are. -/
def of (entities : EntityMap) (explicitStrings : Bool) (now : Moment) : Allocator :=
  ⟨offsetsAfter entities.keys, entities, explicitStrings, now⟩

def reset (a : Allocator) : Allocator :=
  { a with offsets := [], entities := [] }

/-- A new placeholder for a value. -/
def allocate (a : Allocator) (type : String) (v : Value) :
    Except EntityError (String × Allocator) :=
  match Entity.ofValue? type a.now v with
  | none => .error (.invalidValue type v.source.text)
  | some entity =>
    let offset := a.offset type
    if Limits.maxEntitiesPerType ≤ offset then .error (.limitExceeded type)
    else
      let key := type ++ "_" ++ toString offset
      .ok (key,
        { a with
          offsets := Keyed.insert type (offset + 1) a.offsets
          entities := Keyed.insert key entity a.entities })

/-- The words of a string that is to be written out. -/
def explicit? (a : Allocator) (type : String) (v : Value) : Option (List String) :=
  match v with
  | .string s =>
    if a.explicitStrings && type == "QUOTED_STRING" then some (quotedWords (Text.words s))
    else none
  | _ => none

end Allocator

/-! ## Finders -/

inductive EntityFinder where
  | sentence (f : SentenceFinder)
  | allocator (a : Allocator)

abbrev Find (α : Type) : Type := Action EntityFinder EntityError α

namespace EntityFinder

def entities : EntityFinder → EntityMap
  | sentence f => f.entities
  | allocator a => a.entities

def fail {α : Type} (e : EntityError) : Find α := do
  if let some event := e.event? then
    Action.record event
  throw e

/-- Gives a value a new placeholder. -/
def allocate (a : Allocator) (type : String) (v : Value) : Find String :=
  match a.allocate type v with
  | .error e => fail e
  | .ok (key, a) => do
    Action.setState (.allocator a)
    Action.record (.debug "Allocated entity" [("entity", key)])
    Action.record (.success .entityAllocated "New entity placeholder" [("entity", key)])
    return key

/-- The words of a constant without regard to what numbers look like. -/
def findLiteral (type : String) (v : Value) (options : FindOptions) :
    Find (Option (List String)) := do
  match ← Action.getState with
  | .sentence f => return f.literal? type v options
  | .allocator a =>
    match a.explicit? type v with
    | some words => return some words
    | none =>
      match Entity.placeholder? a.entities type a.now v with
      | some key => return some [key]
      | none => return some [← allocate a type v]

def integerWithin? (low high : Int) (x : Float) : Option Int :=
  match Decimal.exactInt? x with
  | some n => if low ≤ n ∧ n ≤ high then some n else none
  | none => none

def findNumberLiteral (x : Float) (options : FindOptions) : Find (Option (List String)) :=
  findLiteral "NUMBER" (.number x) options

/-- The words of a number that is not negative.  Years may be told by their last two digits. -/
def findMagnitude (x : Float) (options : FindOptions) : Find (Option (List String)) := do
  if (integerWithin? 0 12 x).isSome then
    return some [Decimal.number x]
  match integerWithin? 1950 2050 x with
  | none => findNumberLiteral x options
  | some year =>
    let short := Float.ofInt (year % 100)
    if let some words ← findNumberLiteral x options.ignoring then
      return some words
    if let some words ← findNumberLiteral short options.ignoring then
      return some words
    if year % 100 ≤ 12 then
      return some [Decimal.number short]
    findNumberLiteral x options

/-- The words of a number, with a minus sign if it is negative. -/
def findNumber (x : Float) (options : FindOptions) : Find (Option (List String)) := do
  if x < 0 then
    match ← findMagnitude (-x) options.ignoring with
    | some words => return some ("-" :: words)
    | none => findNumberLiteral x options
  else findMagnitude x options

/-- The words of a constant.  That there are none is an error unless that is to be ignored. -/
def find (type : String) (v : Value) (options : FindOptions) : Find (Option (List String)) := do
  let found ←
    match v with
    | .number x =>
      if type == "NUMBER" then findNumber x options else findLiteral type v options
    | v => findLiteral type v options
  if found.isSome || options.ignoreNotFound then return found
  else fail (.notFound type v.source.text (EntityMap.describe (← Action.getState).entities))

end EntityFinder

end SkillLang
