import SkillLang.Limits
import SkillLang.Source.Constant
import SkillLang.Text.Alphanumeric
import SkillLang.Text.Basic

/-!
# Pretty printing

A token stream is printed with blanks where two tokens need one between them, and
with lines and levels as its layout marks say.  The printed text holds the texts of
the tokens in order and nothing else but white space.
-/

namespace SkillLang.Pretty

/-- Words after which an opening bracket is set apart. -/
def keywords : List String :=
  ["of", "filter", "join", "as", "on", "return", "let", "new", "edge", "now", "=>", "compute",
    "aggregate", "class", "extends", "function", "in", "out", "req", "opt"]

def isWord (token : String) : Bool :=
  (match token.toList.getLast? with
    | some c => Text.isAlphanumeric c || c == '_' || c == '?'
    | none => false) && !keywords.contains token

/-- A blank belongs between two tokens on a line. -/
def needsSpace (previous next : String) : Bool :=
  if ["(", "[", "\x7b", "#[", "!", "."].contains previous then false
  else if [")", "]", "\x7d", ",", ";", "."].contains next then false
  else if previous == "=" || next == "=" then false
  else if next == "(" then !isWord previous
  else if next == "[" then !(isWord previous || previous == ")" || previous == "]")
  else true

/-- What has been printed, and what is still to be taken into account before the next token. -/
structure Printer where
  /-- The characters printed so far, the last one first. -/
  output : List Char := []
  /-- The indentation of the current level and of those around it. -/
  indents : List Nat := [0]
  previous : Option String := none
  pendingNewline : Bool := false
  forceSpace : Bool := false

namespace Printer

def indent (p : Printer) : Nat :=
  p.indents.headD 0

def column (p : Printer) : Nat :=
  (p.output.takeWhile fun c => c != '\n').length

def layout (p : Printer) : Layout → Printer
  | .indent => { p with indents := (p.indent + Limits.indentWidth) :: p.indents }
  | .setTab => { p with indents := p.column :: p.indents }
  | .dedent | .clearTab =>
    match p.indents with
    | _ :: outer :: rest => { p with indents := outer :: rest }
    | _ => p
  | .space => { p with forceSpace := true }
  | .newline => { p with pendingNewline := true }
  | .noNewline => { p with pendingNewline := false }

/-- Prints the text of a token. -/
def write (p : Printer) (text : String) : Printer :=
  let separated :=
    if p.pendingNewline && !p.output.isEmpty then
      List.replicate p.indent ' ' ++ '\n' :: p.output.dropWhile fun c => c == ' '
    else
      match p.previous with
      | some previous =>
        if p.forceSpace || needsSpace previous text then ' ' :: p.output else p.output
      | none => p.output
  { p with
    output := text.toList.reverse ++ separated
    previous := some text
    pendingNewline := false
    forceSpace := false }

def token (p : Printer) : Token → Printer
  | .layout l => p.layout l
  | .literal text => p.write text
  | .constant c => p.write c.render

def finish (p : Printer) : String :=
  String.ofList (Text.trimChars p.output.reverse)

end Printer

def print (s : TokenStream) : String :=
  (s.toList.foldl Printer.token {}).finish

end SkillLang.Pretty
