import SkillLang.Source.Token

/-!
# Token streams

Streams are built from parts that may be shared.  A stream is empty, a token, or the
concatenation of at least two streams none of which is empty, so that emptiness is
seen without looking inside.  What a stream stands for is the list of its tokens.
-/

namespace SkillLang

inductive TokenStream where
  | empty
  | token (t : Token)
  | concat (parts : List TokenStream)

namespace TokenStream

def isEmpty : TokenStream → Bool
  | empty => true
  | _ => false

def ofParts (parts : List TokenStream) : TokenStream :=
  match parts.filter fun part => !part.isEmpty with
  | [] => empty
  | [part] => part
  | parts => concat parts

/-- Streams one after the other with a separator between them; empty streams are left out. -/
def join (parts : List TokenStream) (separator : TokenStream) : TokenStream :=
  ofParts ((parts.filter fun part => !part.isEmpty).intersperse separator)

def andThen (first second : TokenStream) : TokenStream :=
  ofParts [first, second]

mutual
/-- The tokens of a stream in front of a list of tokens. -/
def prepend : TokenStream → List Token → List Token
  | empty, rest => rest
  | token t, rest => t :: rest
  | concat parts, rest => prependAll parts rest

def prependAll : List TokenStream → List Token → List Token
  | [], rest => rest
  | part :: parts, rest => prepend part (prependAll parts rest)
end

def toList (s : TokenStream) : List Token :=
  prepend s []

/-! ## Reading a stream token by token

A reader keeps a stack of what it has not read yet.  On top of it stands a stream that is to be
entered, or the parts that are left of one that has been.
-/

inductive Frame where
  | stream (s : TokenStream)
  | parts (rest : List TokenStream)

/-- Puts a stream on the stack of a reader; an empty one is passed over. -/
def enter (s : TokenStream) (stack : List Frame) : List Frame :=
  if s.isEmpty then stack else .stream s :: stack

/-- What a reader does about the frame on top of its stack: it may come upon a token, and it has
another stack afterwards. -/
def turn : Frame → List Frame → Option Token × List Frame
  | .stream empty, stack => (none, stack)
  | .stream (token t), stack => (some t, stack)
  | .stream (concat parts), stack => (none, .parts parts :: stack)
  | .parts [], stack => (none, stack)
  | .parts (part :: rest), stack => (none, part.enter (.parts rest :: stack))

mutual
/-- The number of turns that suffice to read a stream. -/
def turns : TokenStream → Nat
  | empty => 1
  | token _ => 1
  | concat parts => 1 + turnsOf parts

def turnsOf : List TokenStream → Nat
  | [] => 1
  | part :: parts => 1 + turns part + turnsOf parts
end

def Frame.turns : Frame → Nat
  | .stream s => s.turns
  | .parts rest => turnsOf rest

def turnsLeft : List Frame → Nat
  | [] => 0
  | frame :: stack => frame.turns + turnsLeft stack

theorem turnsLeft_enter (s : TokenStream) (stack : List Frame) :
    turnsLeft (s.enter stack) ≤ s.turns + turnsLeft stack := by
  unfold enter
  cases s.isEmpty <;> simp [turnsLeft, Frame.turns]

theorem turnsLeft_turn (frame : Frame) (stack : List Frame) :
    turnsLeft (turn frame stack).2 < turnsLeft (frame :: stack) := by
  match frame with
  | .stream empty | .stream (token _) => simp [turn, turnsLeft, Frame.turns, turns]
  | .stream (concat _) | .parts [] => simp [turn, turnsLeft, Frame.turns, turns, turnsOf]
  | .parts (part :: rest) =>
    have henter := turnsLeft_enter part (.parts rest :: stack)
    simp only [turn, turnsLeft, Frame.turns, turnsOf] at henter ⊢
    omega

/-- The next token that a reader comes upon, and its stack after it. -/
def next? : List Frame → Option (Token × List Frame)
  | [] => none
  | frame :: stack =>
    match _hturn : turn frame stack with
    | (some t, rest) => some (t, rest)
    | (none, rest) => next? rest
termination_by stack => turnsLeft stack
decreasing_by
  have hless := turnsLeft_turn frame stack
  rwa [_hturn] at hless

theorem turnsLeft_next? {stack rest : List Frame} {t : Token} (h : next? stack = some (t, rest)) :
    turnsLeft rest < turnsLeft stack := by
  fun_induction next? stack with
  | case1 => cases h
  | case2 frame stack t rest hturn =>
    cases h
    have hless := turnsLeft_turn frame stack
    rwa [hturn] at hless
  | case3 frame stack rest hturn ih =>
    have hless := turnsLeft_turn frame stack
    rw [hturn] at hless
    exact Nat.lt_trans (ih h) hless

/-- The tokens that a reader comes upon until nothing is left. -/
def drain (stack : List Frame) : List Token :=
  match _hnext : next? stack with
  | none => []
  | some (t, rest) => t :: drain rest
termination_by turnsLeft stack
decreasing_by exact turnsLeft_next? _hnext

/-- Two readers come upon equal tokens turn by turn and end at the same time. -/
def agree (left right : List Frame) : Bool :=
  match _hnext : next? left with
  | none => (next? right).isNone
  | some (t, left) =>
    match next? right with
    | none => false
    | some (u, right) => t == u && agree left right
termination_by turnsLeft left
decreasing_by exact turnsLeft_next? _hnext

/-- The tokens of a stream as a reader comes upon them. -/
def read (s : TokenStream) : List Token :=
  drain (s.enter [])

instance : BEq TokenStream := ⟨fun a b => agree (a.enter []) (b.enter [])⟩

def literal (text : String) : TokenStream :=
  token (.literal text)

def layout (l : Layout) : TokenStream :=
  token (.layout l)

instance : Coe String TokenStream := ⟨literal⟩

end TokenStream

end SkillLang
