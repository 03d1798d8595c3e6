import SkillLang.Toml.Scalar

/-!
# Reading TOML

A document is read line by line: comments, headers, and keys with their values.  Arrays
may stretch over several lines, tables in braces may not.  Values are nested less than
`maxNesting` deep, and dotted keys have fewer parts than that.
-/

namespace SkillLang.Toml

def maxNesting : Nat := 80

/-! ## Keys -/

def isBare (c : Char) : Bool :=
  c.isAlphanum || c == '-' || c == '_'

/-- One part of a key: a word, or a string on one line. -/
def readKeyPart : Reader String := fun cs =>
  match cs with
  | '"' :: _ | '\'' :: _ => readShortString cs
  | cs =>
    match cs.span isBare with
    | ([], _) => none
    | (word, rest) => some (String.ofList word, rest)

/-- The parts of a key with dots between them and blanks around them; those in front are in
`read`, the last one first. -/
def readKeyParts : (fuel : Nat) → (read : List String) → Reader (List String)
  | 0, _, _ => none
  | fuel + 1, read, cs => do
    let (key, cs) ← readKeyPart (skipSpace cs)
    match skipSpace cs with
    | '.' :: cs => readKeyParts fuel (key :: read) cs
    | cs => some ((key :: read).reverse, cs)

def readKey : Reader (List String) :=
  readKeyParts (maxNesting - 1) []

/-! ## Values -/

def afterComment (cs : List Char) : List Char :=
  cs.dropWhile isPrintable

/-- Skips blanks, comments and line ends; `fuel` bounds their number. -/
def skipGap : (fuel : Nat) → List Char → Option (List Char)
  | 0, cs => some cs
  | fuel + 1, cs =>
    match skipSpace cs with
    | '#' :: cs => (afterNewline? (afterComment cs)).bind (skipGap fuel)
    | cs =>
      match afterNewline? cs with
      | some cs => skipGap fuel cs
      | none => some cs

def skipAll (cs : List Char) : Option (List Char) :=
  skipGap (cs.length + 1) cs

mutual
/-- The value at the front of a text.  `fuel` bounds the number of nested and following values. -/
def readValue : (fuel depth : Nat) → Reader Toml
  | 0, _, _ => none
  | fuel + 1, depth, cs =>
    match cs, depth with
    | '[' :: _, 0 => none
    | '[' :: cs, depth + 1 => readItems fuel depth [] cs
    | '\x7b' :: _, 0 => none
    | '\x7b' :: cs, depth + 1 =>
      match skipSpace cs with
      | '\x7d' :: cs => some (.table (.empty .inline), cs)
      | cs => readPairs fuel depth [] cs
    | cs, _ => readScalar cs

/-- The items of an array from the next one on; `read` holds those before it, last first. -/
def readItems : (fuel depth : Nat) → (read : List Toml) → Reader Toml
  | 0, _, _, _ => none
  | fuel + 1, depth, read, cs => do
    match ← skipAll cs with
    | ']' :: cs => some (.array read.reverse, cs)
    | cs =>
      let (item, cs) ← readValue fuel depth cs
      match ← skipAll cs with
      | ',' :: cs => readItems fuel depth (item :: read) cs
      | ']' :: cs => some (.array (item :: read).reverse, cs)
      | _ => none

/-- The members of a table in braces from the next one on. -/
def readPairs : (fuel depth : Nat) → (read : List (List String × Toml)) → Reader Toml
  | 0, _, _, _ => none
  | fuel + 1, depth, read, cs => do
    match ← readKey cs with
    | (key, '=' :: cs) =>
      let (value, cs) ← readValue fuel depth (skipSpace cs)
      let read := (key, value) :: read
      match skipSpace cs with
      | ',' :: cs => readPairs fuel depth read cs
      | '\x7d' :: cs => return (.table (← Table.ofPairs? read.reverse), cs)
      | _ => none
    | _ => none
end

/-! ## Documents -/

/-- What comes after the rest of a line, in which there may be a comment. -/
def afterLine? (cs : List Char) : Option (List Char) :=
  let cs := match skipSpace cs with
    | '#' :: cs => afterComment cs
    | cs => cs
  if cs.isEmpty then some [] else afterNewline? cs

/-- What a line says. -/
inductive Line where
  | blank
  | header (path : List String)
  /-- A header in double brackets. -/
  | row (path : List String)
  | pair (path : List String) (value : Toml)

def readLine : Reader Line := fun cs =>
  match skipSpace cs with
  | '[' :: '[' :: cs =>
    match readKey cs with
    | some (path, ']' :: ']' :: cs) => some (.row path, cs)
    | _ => none
  | '[' :: cs =>
    match readKey cs with
    | some (path, ']' :: cs) => some (.header path, cs)
    | _ => none
  | cs =>
    if cs.isEmpty || (afterNewline? cs).isSome || cs.head? == some '#' then some (.blank, cs)
    else
      match readKey cs with
      | some (path, '=' :: cs) =>
        (readValue (cs.length + 1) (maxNesting - 1) (skipSpace cs)).map fun (value, cs) =>
          (.pair path value, cs)
      | _ => none

/-- The document so far, and the path of the last header. -/
structure Document where
  root : Table := .empty .header
  path : List String := []

def Document.add (d : Document) : Line → Option Document
  | .blank => some d
  | .header path => (d.root.define path).map fun root => ⟨root, path⟩
  | .row path => (d.root.addRow path).map fun root => ⟨root, path⟩
  | .pair path value =>
    (d.root.change false (Table.assign path value) d.path).map fun root => { d with root }

/-- Adds the lines of a text to a document; `fuel` bounds their number. -/
def readLines : (fuel : Nat) → Document → List Char → Option Document
  | 0, _, _ => none
  | fuel + 1, d, cs => do
    let (line, cs) ← readLine cs
    let d ← d.add line
    let cs ← afterLine? cs
    if cs.isEmpty then return d else readLines fuel d cs

/-- The document that a text stands for; a byte order mark in front does not count. -/
def parse (text : String) : Option Toml := do
  let cs := match text.toList with
    | '\ufeff' :: cs => cs
    | cs => cs
  return .table (← readLines (cs.length + 1) {} cs).root

end SkillLang.Toml
