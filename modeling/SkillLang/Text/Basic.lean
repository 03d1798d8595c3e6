/-!
# Characters, words and lengths

Sets of characters, the words of a text, and texts that are cut to a number of bytes.
-/

namespace SkillLang.Text

/-!
## Sets of characters

A set of code points is kept as a sorted array in which the beginnings of its runs
alternate with the first code points after them.  A code point is in the set when
an odd number of bounds do not exceed it.
-/

/-- How many of the sorted `bounds` from `low` up to `high` do not exceed `n`, counted from the
start of the array; each step halves the part in question. -/
def boundsUpTo (bounds : Array Nat) (n : Nat) : (fuel low high : Nat) → Nat
  | 0, low, _ => low
  | fuel + 1, low, high =>
    if low < high then
      let middle := (low + high) / 2
      if bounds.getD middle 0 ≤ n then boundsUpTo bounds n fuel (middle + 1) high
      else boundsUpTo bounds n fuel low middle
    else low

def withinBounds (bounds : Array Nat) (n : Nat) : Bool :=
  boundsUpTo bounds n bounds.size 0 bounds.size % 2 == 1

/-!
## Blank characters and words

The characters that separate words are the Unicode white space characters.
Trimming removes them from the ends of a text, and the words of a text are its
maximal runs of other characters.
-/

/-- The Unicode property White_Space. -/
def isBlank (c : Char) : Bool :=
  let n := c.toNat
  (9 ≤ n && n ≤ 13) || n == 0x20 || n == 0x85 || n == 0xA0 || n == 0x1680 ||
    (0x2000 ≤ n && n ≤ 0x200A) || n == 0x2028 || n == 0x2029 || n == 0x202F ||
    n == 0x205F || n == 0x3000

def trimStart (cs : List Char) : List Char :=
  cs.dropWhile isBlank

def trimEnd (cs : List Char) : List Char :=
  (cs.reverse.dropWhile isBlank).reverse

def trimChars (cs : List Char) : List Char :=
  trimEnd (trimStart cs)

/-- The words of a text when the characters of `current`, last first, stand directly before it. -/
def wordsAfter (current : List Char) : List Char → List (List Char)
  | [] => if current.isEmpty then [] else [current.reverse]
  | c :: cs =>
    if isBlank c then
      if current.isEmpty then wordsAfter [] cs else current.reverse :: wordsAfter [] cs
    else wordsAfter (c :: current) cs

def words (s : String) : List String :=
  (wordsAfter [] s.toList).map String.ofList

/-!
## Clipping

Limits on the length of messages are counted in bytes of UTF-8.  A message that
is too long is cut after its longest run of whole characters that fits, and
three dots mark the cut.
-/

/-- The longest beginning of a text, in whole characters, that takes at most `limit` bytes. -/
def takeBytes (limit : Nat) : List Char → List Char
  | [] => []
  | c :: cs => if c.utf8Size ≤ limit then c :: takeBytes (limit - c.utf8Size) cs else []

/-- `s` itself when it takes at most `limit` bytes, and otherwise its first `keep` bytes of
whole characters followed by dots. -/
def clip (limit keep : Nat) (s : String) : String :=
  if s.utf8ByteSize ≤ limit then s
  else String.ofList (takeBytes keep s.toList) ++ "..."

end SkillLang.Text
