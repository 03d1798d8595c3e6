/-!
# Places in a source

A location is known by its offset, its line and column, or the index of a token, and
any of them may be missing.  A range runs from one location to another.
-/

namespace SkillLang

structure Location where
  offset : Option Nat
  line : Option Nat
  column : Option Nat
  token : Option Nat
deriving DecidableEq, Repr

namespace Location

def ofText (offset line column : Nat) : Location :=
  ⟨some offset, some line, some column, none⟩

def ofToken (index : Nat) : Location :=
  ⟨none, none, none, some index⟩

/-- Line and column are both known and count from one, or both unknown. -/
def isWellFormed (l : Location) : Bool :=
  match l.line, l.column with
  | some line, some column => 1 ≤ line && 1 ≤ column
  | none, none => true
  | _, _ => false

def display (l : Location) : String :=
  match l.line, l.column, l.token, l.offset with
  | some line, some column, _, _ => toString line ++ ":" ++ toString column
  | _, _, some token, _ => "token " ++ toString token
  | _, _, none, some offset => "offset " ++ toString offset
  | _, _, none, none => "<unknown>"

/-- What locations are ordered by: the offset, or else the index of the token. -/
def position? (l : Location) : Option Nat :=
  l.offset.or l.token

end Location

structure Range where
  first : Location
  last : Location
deriving DecidableEq, Repr

namespace Range

def isWellFormed (r : Range) : Bool :=
  r.first.isWellFormed && r.last.isWellFormed

/-- The range from the earlier beginning to the later end; where only one position is known, it
is taken. -/
def merge (r other : Range) : Range :=
  let first :=
    match r.first.position?, other.first.position? with
    | some a, some b => if b < a then other.first else r.first
    | none, some _ => other.first
    | _, none => r.first
  let last :=
    match r.last.position?, other.last.position? with
    | some a, some b => if a < b then other.last else r.last
    | none, some _ => other.last
    | _, none => r.last
  ⟨first, last⟩

def display (r : Range) : String :=
  r.first.display ++ "-" ++ r.last.display

end Range

end SkillLang
