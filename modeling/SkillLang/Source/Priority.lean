import SkillLang.Source.Stream

/-!
# Priorities

How tightly the parts of a syntactic form hold together.  A part that holds less
tightly than its place requires is put in parentheses.
-/

namespace SkillLang

inductive Priority where
  | chain
  | join
  | or
  | and
  | comp
  | add
  | mul
  | exp
  | not
  | filter
  | projection
  | index
  | primary
deriving DecidableEq, Repr

namespace Priority

/-- The place in the order from the loosest to the tightest. -/
def rank : Priority → Nat
  | chain => 0
  | join => 1
  | or => 2
  | and => 3
  | comp => 4
  | add => 5
  | mul => 6
  | exp => 7
  | not => 8
  | filter => 9
  | projection => 10
  | index => 11
  | primary => 12

def tighter : Priority → Priority
  | chain => join
  | join => or
  | or => and
  | and => comp
  | comp => add
  | add => mul
  | mul => exp
  | exp => not
  | not => filter
  | filter => projection
  | projection => index
  | index => primary
  | primary => primary

end Priority

/-- A part in parentheses if it holds less tightly than required. -/
def TokenStream.parens (needed actual : Priority) (source : TokenStream) : TokenStream :=
  if actual.rank < needed.rank then ofParts ["(", source, ")"] else source

end SkillLang
