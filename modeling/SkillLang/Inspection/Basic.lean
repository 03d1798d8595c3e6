import SkillLang.Decimal.Style
import SkillLang.Text.Printable

/-!
# Inspected values

A value that is inspected is laid out with its kind and all of its parts, also those
that its source leaves out.  The layout is a tree of names, texts and lists, and all
trees are written on one line in the same way.
-/

namespace SkillLang

inductive Inspection where
  /-- A name or a number, written as it is. -/
  | word (text : String)
  | quoted (text : String)
  /-- A kind with its parts in their order. -/
  | form (kind : String) (parts : List Inspection)
  /-- A kind with its parts by name. -/
  | record (kind : String) (fields : List (String × Inspection))
  /-- A kind in front of a list or a map. -/
  | tagged (kind : String) (part : Inspection)
  | list (items : List Inspection)
  | map (entries : List (String × Inspection))

namespace Inspection

/-- A character inside of quotes; one that cannot be told from its looks is written by its code
point. -/
def escapeChar (c : Char) : List Char :=
  match c with
  | '"' => ['\\', '"']
  | '\\' => ['\\', '\\']
  | '\n' => ['\\', 'n']
  | '\r' => ['\\', 'r']
  | '\t' => ['\\', 't']
  | '\x00' => ['\\', '0']
  | c =>
    if Text.isPrintable c then [c]
    else '\\' :: 'u' :: '\x7b' :: (Nat.toDigits 16 c.toNat ++ ['\x7d'])

def quote (s : String) : String :=
  String.ofList ('"' :: (s.toList.flatMap escapeChar ++ ['"']))

def commaSeparated (texts : List String) : String :=
  ", ".intercalate texts

mutual
def text : Inspection → String
  | word text => text
  | quoted text => quote text
  | form kind parts => kind ++ "(" ++ commaSeparated (texts parts) ++ ")"
  | record kind fields => kind ++ " \x7b " ++ commaSeparated (fieldTexts fields) ++ " \x7d"
  | tagged kind part => kind ++ " " ++ text part
  | list items => "[" ++ commaSeparated (texts items) ++ "]"
  | map entries => "\x7b" ++ commaSeparated (entryTexts entries) ++ "\x7d"

def texts : List Inspection → List String
  | [] => []
  | part :: parts => text part :: texts parts

def fieldTexts : List (String × Inspection) → List String
  | [] => []
  | (name, part) :: fields => (name ++ ": " ++ text part) :: fieldTexts fields

def entryTexts : List (String × Inspection) → List String
  | [] => []
  | (key, part) :: entries => (quote key ++ ": " ++ text part) :: entryTexts entries
end

def ofBool (b : Bool) : Inspection :=
  word (toString b)

def ofNat (n : Nat) : Inspection :=
  word (toString n)

def ofInt (n : Int) : Inspection :=
  word (toString n)

def ofFloat (x : Float) : Inspection :=
  word (Decimal.inspected.write x)

def ofOption (part : Option Inspection) : Inspection :=
  match part with
  | none => word "None"
  | some part => form "Some" [part]

def ofStrings (names : List String) : Inspection :=
  list (names.map quoted)

end Inspection

end SkillLang
