import SkillLang.Proofs.Source.Stream

/-!
# Token trees

The tokens of a source form a tree: what stands between two brackets is one tree of its own, and
so is a reference to a context with the type that follows it.  The tree is found from the tokens
alone, from the left to the right.
-/

namespace SkillLang

/-! ## Texts with a prefix -/

/-- What follows a prefix. -/
def stripPrefix? : List Char → List Char → Option (List Char)
  | [], cs => some cs
  | p :: ps, c :: cs => if p = c then stripPrefix? ps cs else none
  | _ :: _, [] => none

theorem stripPrefix?_append
    (ps cs : List Char) :
    stripPrefix? ps (ps ++ cs) = some cs := by
  induction ps with
  | nil => rfl
  | cons p ps ih => rw [List.cons_append, stripPrefix?, if_pos rfl, ih]

theorem eq_append_of_stripPrefix?
    {ps cs rest : List Char} (h : stripPrefix? ps cs = some rest) :
    cs = ps ++ rest := by
  induction ps generalizing cs with
  | nil => exact Option.some.inj h
  | cons p ps ih =>
      cases cs with
      | nil => cases h
      | cons c cs =>
          rw [stripPrefix?] at h
          split at h
          next hp => rw [← hp, ih h, List.cons_append]
          next => cases h

def afterPrefix? (before s : String) : Option String :=
  (stripPrefix? before.toList s.toList).map String.ofList

theorem afterPrefix?_append
    (before s : String) :
    afterPrefix? before (before ++ s) = some s := by
  rw [afterPrefix?, String.toList_append, stripPrefix?_append, Option.map_some,
    String.ofList_toList]

theorem eq_append_of_afterPrefix?
    {before s rest : String} (h : afterPrefix? before s = some rest) :
    s = before ++ rest := by
  obtain ⟨cs, hcs, rfl⟩ := Option.map_eq_some_iff.mp h
  rw [← String.toList_inj, String.toList_append, String.toList_ofList]
  exact eq_append_of_stripPrefix? hcs

/-! ## Trees -/

inductive Bracket where
  | round
  | square
  | curly
deriving DecidableEq

namespace Bracket

def opening : Bracket → String
  | round => "("
  | square => "["
  | curly => "\x7b"

def closing : Bracket → String
  | round => ")"
  | square => "]"
  | curly => "\x7d"

def ofOpening? : String → Option Bracket
  | "(" => some round
  | "[" => some square
  | "\x7b" => some curly
  | _ => none

def ofClosing? : String → Option Bracket
  | ")" => some round
  | "]" => some square
  | "\x7d" => some curly
  | _ => none

theorem ofOpening?_opening
    (b : Bracket) :
    ofOpening? b.opening = some b := by
  cases b <;> rfl

theorem ofOpening?_closing
    (b : Bracket) :
    ofOpening? b.closing = none := by
  cases b <;> rfl

theorem ofClosing?_closing
    (b : Bracket) :
    ofClosing? b.closing = some b := by
  cases b <;> rfl

end Bracket

inductive TokenTree where
  | leaf (t : Token)
  /-- A reference to a context and its type. -/
  | context (name type : String)
  | group (b : Bracket) (inner : List TokenTree)

/-- The first word of a reference to a context. -/
def contextWord (name : String) : String :=
  "$context." ++ name

/-- The name of the context that a word refers to. -/
def contextName? (w : String) : Option String :=
  afterPrefix? "$context." w

namespace TokenTree

@[match_pattern] abbrev word (w : String) : TokenTree :=
  leaf (.literal w)

mutual

def tokens : TokenTree → List Token
  | leaf t => [t]
  | context name type => [.literal (contextWord name), .literal ":", .literal type]
  | group b inner => .literal b.opening :: (tokensOf inner ++ [.literal b.closing])

def tokensOf : List TokenTree → List Token
  | [] => []
  | t :: ts => t.tokens ++ tokensOf ts

end

theorem tokensOf_append
    (ts us : List TokenTree) :
    tokensOf (ts ++ us) = tokensOf ts ++ tokensOf us := by
  induction ts with
  | nil => rfl
  | cons t ts ih => rw [List.cons_append, tokensOf, tokensOf, ih, List.append_assoc]

theorem tokensOf_ne_nil
    {ts : List TokenTree} (h : ts ≠ []) :
    tokensOf ts ≠ [] := by
  cases ts with
  | nil => exact absurd rfl h
  | cons t ts =>
      cases t with
      | leaf _ | context _ _ | group _ _ => exact List.cons_ne_nil _ _

end TokenTree

/-- The token neither opens nor closes a bracket nor refers to a context. -/
def Token.isPlain : Token → Bool
  | .literal w =>
    (Bracket.ofOpening? w).isNone && (Bracket.ofClosing? w).isNone && (contextName? w).isNone
  | _ => true

def bracketWords : List String :=
  ["(", ")", "[", "]", "\x7b", "\x7d"]

theorem Bracket.ofOpening?_eq_none
    {w : String} (h : w ∉ bracketWords) :
    ofOpening? w = none := by
  unfold ofOpening?
  split
  · exact absurd (by decide) h
  · exact absurd (by decide) h
  · exact absurd (by decide) h
  · rfl

theorem Bracket.ofClosing?_eq_none
    {w : String} (h : w ∉ bracketWords) :
    ofClosing? w = none := by
  unfold ofClosing?
  split
  · exact absurd (by decide) h
  · exact absurd (by decide) h
  · exact absurd (by decide) h
  · rfl

theorem Token.isPlain_of_not_mem
    {w : String} (h : w ∉ bracketWords) (hcontext : contextName? w = none) :
    Token.isPlain (.literal w) = true := by
  rw [Token.isPlain, Bracket.ofOpening?_eq_none h, Bracket.ofClosing?_eq_none h, hcontext]
  rfl

namespace TokenTree

mutual

/-- All leaves are plain. -/
def isPlain : TokenTree → Bool
  | leaf t => t.isPlain
  | context _ _ => true
  | group _ inner => allPlain inner

def allPlain : List TokenTree → Bool
  | [] => true
  | t :: ts => t.isPlain && allPlain ts

end

theorem allPlain_append
    (ts us : List TokenTree) :
    allPlain (ts ++ us) = (allPlain ts && allPlain us) := by
  induction ts with
  | nil => rfl
  | cons t ts ih => rw [List.cons_append, allPlain, allPlain, ih, Bool.and_assoc]

/-! ## From tokens to trees -/

/-- What is read so far, last tree first: the trees in the current bracket, and the brackets
around it with what stands before them. -/
abbrev Open : Type :=
  List (Bracket × List TokenTree)

/-- The trees of tokens, if all brackets match. -/
def nest : List Token → Open → List TokenTree → Option (List TokenTree)
  | [], [], done => some done.reverse
  | [], _ :: _, _ => none
  | .literal w :: ts, brackets, done =>
    match Bracket.ofOpening? w, Bracket.ofClosing? w, contextName? w with
    | some b, _, _ => nest ts ((b, done) :: brackets) []
    | none, some b, _ =>
      match brackets with
      | (opened, before) :: brackets =>
        if opened = b then nest ts brackets (group b done.reverse :: before) else none
      | [] => none
    | none, none, some name =>
      match ts with
      | .literal ":" :: .literal type :: ts => nest ts brackets (context name type :: done)
      | _ => none
    | none, none, none => nest ts brackets (word w :: done)
  | t :: ts, brackets, done => nest ts brackets (leaf t :: done)

theorem nest_plain
    {t : Token} (h : t.isPlain = true) (ts : List Token) (brackets : Open)
    (done : List TokenTree) :
    nest (t :: ts) brackets done = nest ts brackets (leaf t :: done) := by
  cases t with
  | literal w =>
      simp only [Token.isPlain, Bool.and_eq_true, Option.isNone_iff_eq_none] at h
      obtain ⟨⟨hopening, hclosing⟩, hcontext⟩ := h
      rw [nest, hopening, hclosing, hcontext]
  | layout _ | constant _ => rfl

theorem nest_opening
    (b : Bracket) (ts : List Token) (brackets : Open) (done : List TokenTree) :
    nest (.literal b.opening :: ts) brackets done = nest ts ((b, done) :: brackets) [] := by
  rw [nest, b.ofOpening?_opening]

theorem nest_closing
    (b : Bracket) (ts : List Token) (brackets : Open) (before done : List TokenTree) :
    nest (.literal b.closing :: ts) ((b, before) :: brackets) done =
      nest ts brackets (group b done.reverse :: before) := by
  rw [nest, b.ofOpening?_closing, b.ofClosing?_closing]
  exact if_pos rfl

theorem contextWord_not_mem
    (name : String) :
    contextWord name ∉ bracketWords := by
  intro hmem
  have hhead : ∀ w ∈ bracketWords, w.toList.head? ≠ some '$' := by decide
  refine hhead _ hmem ?_
  rw [contextWord, String.toList_append]
  rfl

theorem nest_context
    (name type : String) (ts : List Token) (brackets : Open) (done : List TokenTree) :
    nest (.literal (contextWord name) :: .literal ":" :: .literal type :: ts) brackets done =
      nest ts brackets (context name type :: done) := by
  have hname : contextName? (contextWord name) = some name := afterPrefix?_append _ _
  rw [nest, Bracket.ofOpening?_eq_none (contextWord_not_mem name),
    Bracket.ofClosing?_eq_none (contextWord_not_mem name), hname]
  rfl

mutual

theorem nest_tokens :
    (t : TokenTree) → t.isPlain = true →
      ∀ (ts : List Token) (brackets : Open) (done : List TokenTree),
        nest (t.tokens ++ ts) brackets done = nest ts brackets (t :: done)
  | leaf t, h, ts, brackets, done => nest_plain h ts brackets done
  | context name type, _, ts, brackets, done => nest_context name type ts brackets done
  | group b inner, h, ts, brackets, done => by
      rw [tokens, List.cons_append, List.append_assoc, nest_opening, nest_tokensOf inner h,
        List.singleton_append, nest_closing, List.reverse_append, List.reverse_reverse,
        List.reverse_nil, List.nil_append]

theorem nest_tokensOf :
    (us : List TokenTree) → allPlain us = true →
      ∀ (ts : List Token) (brackets : Open) (done : List TokenTree),
        nest (tokensOf us ++ ts) brackets done = nest ts brackets (us.reverse ++ done)
  | [], _, ts, brackets, done => rfl
  | u :: us, h, ts, brackets, done => by
      rw [allPlain, Bool.and_eq_true] at h
      rw [tokensOf, List.append_assoc, nest_tokens u h.1, nest_tokensOf us h.2,
        List.reverse_cons, List.append_assoc, List.singleton_append]

end

/-- Trees are found again from their tokens. -/
theorem nest_of_tokensOf
    {ts : List TokenTree} (h : allPlain ts = true) :
    nest (tokensOf ts) [] [] = some ts := by
  have hnest := nest_tokensOf ts h [] [] []
  rw [List.append_nil, List.append_nil] at hnest
  rw [hnest, nest, List.reverse_reverse]

end TokenTree

end SkillLang
