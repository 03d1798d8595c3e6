import SkillLang.Proofs.Source.ReadableBrackets
import SkillLang.Proofs.Source.Rows

/-!
# The source of arithmetic

Values that are put together from variables, numbers, arrays, fields and computations.  Their
source follows a grammar: a series of operands with infix operators between them, where an operand
that is not tight enough stands in parentheses.  No operator follows a series, and neither `of` nor
parentheses follow an operand, so that the trees of a source fall apart in one way only; and a
series stands for one value, whatever the priorities of its operators are.

An infix operator in front of parentheses is the name of a call, since no operand stands before it.
-/

namespace SkillLang

open TokenTree

mutual

/-- The value consists of variables, numbers, arrays, fields and computations, and no name in it is
a bracket. -/
def Value.isArithmetic : Value → Bool
  | .var name _ => Token.isPlain (.literal name)
  | .number _ => true
  | .array values _ => Value.allArithmetic values
  | .field value name _ => Token.isPlain (.literal name) && value.isArithmetic
  | .computation op operands _ _ =>
    Token.isPlain (.literal op) && Value.allArithmetic operands
  | _ => false

def Value.allArithmetic : List Value → Bool
  | [] => true
  | value :: values => value.isArithmetic && Value.allArithmetic values

end

namespace Arithmetic

/-! ## The grammar -/

/-- What some trees are a part of arithmetic as. -/
inductive Role where
  | operand
  | series
  | list

/-- What is found in trees of a role: a value, a first operand with the others and the operators in
front of them, or values. -/
abbrev Role.Reading : Role → Type
  | operand => Value
  | series => Value × List (String × Value)
  | list => List Value

inductive Reads : (role : Role) → List TokenTree → role.Reading → Prop
  | number (x : Float) : Reads .operand [leaf (.constant ⟨.number, .number x⟩)] (.number x)
  | var (name : String) : Reads .operand [word name] (.var name none)
  | field {ts : List TokenTree} {value : Value} (name : String) :
      Reads .operand ts value →
        Reads .operand (word name :: word "of" :: ts) (.field value name none)
  | call {inner : List TokenTree} {operands : List Value} (op : String) :
      Reads .list inner operands →
        Reads .operand [word op, group .round inner] (.computation op operands none none)
  | array {inner : List TokenTree} {values : List Value} :
      Reads .list inner values → Reads .operand [group .square inner] (.array values none)
  | parens {inner : List TokenTree} {first : Value} {rest : List (String × Value)} :
      Reads .series inner (first, rest) →
        Reads .operand [group .round inner] (associate first rest)
  | last {ts : List TokenTree} {value : Value} :
      Reads .operand ts value → Reads .series ts (value, [])
  | next {ts us : List TokenTree} {first second : Value} {rest : List (String × Value)}
      {op : String} :
      Reads .operand ts first → op ∈ infixOperators → Reads .series us (second, rest) →
        Reads .series (ts ++ word op :: us) (first, (op, second) :: rest)
  | none : Reads .list [] []
  | one {ts : List TokenTree} {first : Value} {rest : List (String × Value)} :
      Reads .series ts (first, rest) → Reads .list ts [associate first rest]
  | more {ts us : List TokenTree} {first : Value} {rest : List (String × Value)}
      {values : List Value} :
      Reads .series ts (first, rest) → Reads .list us values → values ≠ [] →
        Reads .list (ts ++ word "," :: us) (associate first rest :: values)

/-! ## Unique decomposition -/

/-- Nothing in the trees continues a part that stands before them. -/
def Role.Ends : Role → List TokenTree → Prop
  | operand, ts => ∀ rest, ts ≠ word "of" :: rest ∧ ∀ inner, ts ≠ group .round inner :: rest
  | series, ts => ts = [] ∨ ∃ rest, ts = word "," :: rest
  | list, ts => ts = []

section Ends

variable {ts : List TokenTree} {op : String}

theorem ends_operand_word
    {w : String} (h : w ≠ "of") (ts : List TokenTree) :
    Role.operand.Ends (word w :: ts) := by
  intro rest
  constructor
  · intro heq
    simp only [List.cons.injEq, leaf.injEq, Token.literal.injEq] at heq
    exact h heq.1
  · intro inner heq
    simp at heq

theorem ends_operand_operator
    (hop : op ∈ infixOperators) (ts : List TokenTree) :
    Role.operand.Ends (word op :: ts) := by
  apply ends_operand_word
  rintro rfl
  revert hop
  decide

theorem ends_operand_of_series
    (h : Role.series.Ends ts) :
    Role.operand.Ends ts := by
  obtain rfl | ⟨rest, rfl⟩ := h
  · intro rest
    exact ⟨nofun, fun _ => nofun⟩
  · exact ends_operand_word (by decide) rest

theorem ne_operator_of_series
    (h : Role.series.Ends ts) (hop : op ∈ infixOperators) (rest : List TokenTree) :
    ts ≠ word op :: rest := by
  obtain rfl | ⟨more, rfl⟩ := h
  · exact nofun
  · intro heq
    simp only [List.cons.injEq, leaf.injEq, Token.literal.injEq] at heq
    rw [← heq.1] at hop
    revert hop
    decide

end Ends

theorem Reads.ne_nil
    {role : Role} {ts : List TokenTree} {found : role.Reading} (h : Reads role ts found) :
    role ≠ .list → ts ≠ [] := by
  induction h with
  | number _ | var _ | field _ _ _ | call _ _ _ | array _ _ | parens _ _ =>
      exact fun _ => List.cons_ne_nil _ _
  | last _ ih => exact fun _ => ih nofun
  | next _ _ _ ih _ => exact fun _ => List.append_ne_nil_of_left_ne_nil (ih nofun) _
  | none | one _ _ | more _ _ _ _ _ => exact fun h => absurd rfl h

/-! ### Series and lists -/

/-- A series has operands for its parts, with operators between them. -/
def seriesRows : Rows Value (Value × List (String × Value)) where
  part := Reads .operand
  row := Reads .series
  endsPart := Role.operand.Ends
  endsRow := Role.series.Ends
  separates op := op ∈ infixOperators
  single value := (value, [])
  append op lhs rhs := (lhs.1, lhs.2 ++ (op, rhs.1) :: rhs.2)

/-- A list that is not empty has series for its parts, with commas between them. -/
def listRows : Rows (Value × List (String × Value)) (List Value) where
  part := Reads .series
  row ts values := Reads .list ts values ∧ values ≠ []
  endsPart := Role.series.Ends
  endsRow := Role.list.Ends
  separates w := w = ","
  single series := [associate series.1 series.2]
  append _ lhs rhs := lhs ++ rhs

theorem isLawful_seriesRows :
    seriesRows.IsLawful where
  row_iff ts found := by
    constructor
    · intro h
      cases h with
      | last hfirst => exact .last hfirst
      | next hfirst hop hrest => exact .next (b := (_, _)) hfirst hop hrest
    · intro h
      cases h with
      | last hfirst => exact .last hfirst
      | next hfirst hop hrest => exact .next hfirst hop hrest
  append_assoc v w a b c := by
    simp only [seriesRows, List.append_assoc, List.cons_append]
  endsPart_of_endsRow _ h := ends_operand_of_series h
  endsPart_separator := ends_operand_operator
  not_endsRow hop ts h := ne_operator_of_series h hop ts rfl

theorem isLawful_listRows :
    listRows.IsLawful where
  row_iff ts found := by
    constructor
    · rintro ⟨h, hne⟩
      cases h with
      | none => exact absurd rfl hne
      | one hfirst => exact .last (a := (_, _)) hfirst
      | more hfirst hrest hrestNe =>
          exact .next (a := (_, _)) hfirst rfl ⟨hrest, hrestNe⟩
    · intro h
      cases h with
      | last hfirst => exact ⟨.one hfirst, List.cons_ne_nil _ _⟩
      | next hfirst hw hrest =>
          obtain rfl : _ = "," := hw
          exact ⟨.more hfirst hrest.1 hrest.2, List.cons_ne_nil _ _⟩
  append_assoc _ _ a b c := List.append_assoc a b c
  endsPart_of_endsRow _ h := .inl h
  endsPart_separator := by
    rintro _ rfl ts
    exact .inr ⟨ts, rfl⟩
  not_endsRow _ _ := List.cons_ne_nil _ _

/-- The trees are read as one thing only in a role. -/
abbrev IsOnly (role : Role) (ts : List TokenTree) (found : role.Reading) : Prop :=
  IsOnlyReading (Reads role) role.Ends ts found

section IsOnly

variable {ts us : List TokenTree} {first : Value} {rest : List (String × Value)}
  {values : List Value}

theorem isOnly_none :
    IsOnly .list [] [] := by
  intro us r s other hother heq hr hs
  subst hr hs
  have hus : us = [] := by simpa using heq.symm
  cases hother with
  | none => exact ⟨rfl, rfl⟩
  | one hfirst => exact absurd hus (hfirst.ne_nil nofun)
  | more _ _ _ => simp at hus

theorem isOnly_list
    (hne : ts ≠ []) (h : IsOnlyReading listRows.row listRows.endsRow ts values) :
    IsOnly .list ts values := by
  intro us r s other hother heq hr hs
  by_cases hnil : other = []
  · subst hnil
    cases hother
    subst hr hs
    exact absurd heq (List.append_ne_nil_of_left_ne_nil hne _)
  · exact h ⟨hother, hnil⟩ heq hr hs

theorem isOnly_more
    (h : IsOnly .series ts (first, rest)) (hvalues : IsOnly .list us values) :
    IsOnly .list (ts ++ word "," :: us) (associate first rest :: values) := by
  have hrest : IsOnlyReading listRows.row listRows.endsRow us values :=
    fun _ _ _ _ hother => hvalues hother.1
  have hrow := isLawful_listRows.next h rfl hrest
  exact isOnly_list (List.append_ne_nil_of_right_ne_nil _ (List.cons_ne_nil _ _)) hrow

/-! ### Operands

Two operands that begin with the same tree are of the same form, or what follows the shorter one of
them would continue it. -/

theorem isOnly_number (x : Float) :
    IsOnly .operand [leaf (.constant ⟨.number, .number x⟩)] (.number x) := by
  intro us r s other hother heq hr hs
  cases hother with
  | number y =>
      cases heq
      exact ⟨rfl, rfl⟩
  | _ => cases heq

theorem isOnly_var (name : String) :
    IsOnly .operand [word name] (.var name none) := by
  intro us r s other hother heq hr hs
  cases hother with
  | var _ =>
      cases heq
      exact ⟨rfl, rfl⟩
  | field _ _ =>
      cases heq
      exact absurd rfl (hr _).1
  | call _ _ =>
      cases heq
      exact absurd rfl ((hr _).2 _)
  | _ => cases heq

theorem isOnly_field
    {value : Value} (h : IsOnly .operand ts value) (name : String) :
    IsOnly .operand (word name :: word "of" :: ts) (.field value name none) := by
  intro us r s other hother heq hr hs
  cases hother with
  | var _ =>
      cases heq
      exact absurd rfl (hs _).1
  | field _ hvalue =>
      obtain ⟨hname, htail⟩ := List.cons.inj heq
      obtain ⟨rfl, rfl⟩ := h hvalue (List.cons.inj htail).2 hr hs
      cases hname
      exact ⟨rfl, rfl⟩
  | _ => cases heq

theorem isOnly_call
    (h : IsOnly .list ts values) (op : String) :
    IsOnly .operand [word op, group .round ts] (.computation op values none none) := by
  intro us r s other hother heq hr hs
  cases hother with
  | var _ =>
      cases heq
      exact absurd rfl ((hs _).2 _)
  | call _ hinner =>
      cases heq
      obtain ⟨rfl, -⟩ := h hinner rfl rfl rfl
      exact ⟨rfl, rfl⟩
  | _ => cases heq

theorem isOnly_array
    (h : IsOnly .list ts values) :
    IsOnly .operand [group .square ts] (.array values none) := by
  intro us r s other hother heq hr hs
  cases hother with
  | array hinner =>
      cases heq
      obtain ⟨rfl, -⟩ := h hinner rfl rfl rfl
      exact ⟨rfl, rfl⟩
  | _ => cases heq

theorem isOnly_parens
    (h : IsOnly .series ts (first, rest)) :
    IsOnly .operand [group .round ts] (associate first rest) := by
  intro us r s other hother heq hr hs
  cases hother with
  | parens hinner =>
      cases heq
      obtain ⟨hsame, -⟩ := h hinner rfl (.inl rfl) (.inl rfl)
      cases hsame
      exact ⟨rfl, rfl⟩
  | _ => cases heq

/-- The trees of a part end where nothing continues it, and they are read as one thing only. -/
theorem Reads.isOnly
    {role : Role} {found : role.Reading} (h : Reads role ts found) :
    IsOnly role ts found := by
  induction h with
  | number x => exact isOnly_number x
  | var name => exact isOnly_var name
  | field name _ ih => exact isOnly_field ih name
  | call op _ ih => exact isOnly_call ih op
  | array _ ih => exact isOnly_array ih
  | parens _ ih => exact isOnly_parens ih
  | last _ ih => exact isLawful_seriesRows.last ih
  | next _ hop _ ih ihnext => exact isLawful_seriesRows.next ih hop ihnext
  | none => exact isOnly_none
  | one hfirst ih => exact isOnly_list (hfirst.ne_nil nofun) (isLawful_listRows.last ih)
  | more _ _ _ ih ihvalues => exact isOnly_more ih ihvalues

end IsOnly

/-! ## The trees of arithmetic -/

/-- The stream spells a series that stands for a value, and none of its operators holds less
tightly than a priority. -/
structure SpellsSeries (p : Priority) (s : TokenStream) (v : Value) (ts : List TokenTree)
    (first : Value) (rest : List (String × Value)) : Prop where
  spells : s.Spells ts
  reads : Reads .series ts (first, rest)
  tight : IsTight p.rank rest
  associate_eq : associate first rest = v

def HasSeries (p : Priority) (s : TokenStream) (v : Value) : Prop :=
  ∃ ts first rest, SpellsSeries p s v ts first rest

/-- The source of the value is a series for it, as tight as its priority. -/
def IsWritten (v : Value) : Prop :=
  HasSeries v.priority v.source v.canonical

namespace HasSeries

variable {p : Priority} {s t : TokenStream} {v w : Value}

theorem of_operand
    {ts : List TokenTree} (hspells : s.Spells ts) (hreads : Reads .operand ts v) :
    HasSeries p s v := by
  refine ⟨ts, v, [], ?_⟩
  exact
    { spells := hspells
      reads := .last hreads
      tight := List.forall_mem_nil _
      associate_eq := associate_nil v }

/-- What stands in parentheses is an operand. -/
theorem parens
    (h : HasSeries p s v) (needed : Priority) :
    HasSeries needed (.parens needed p s) v := by
  obtain ⟨ts, first, rest, h⟩ := h
  have hspells := TokenStream.spells_parens needed p h.spells
  unfold TokenTree.wrap at hspells
  by_cases hlt : p.rank < needed.rank
  · rw [if_pos hlt] at hspells
    have hreads := Reads.parens h.reads
    rw [h.associate_eq] at hreads
    exact .of_operand hspells hreads
  · rw [if_neg hlt] at hspells
    have htight := h.tight.mono (Nat.not_lt.mp hlt)
    exact ⟨ts, first, rest, { h with spells := hspells, tight := htight }⟩

/-- Nothing but an operand is tighter than all operators. -/
theorem operand
    (h : HasSeries p s v) (hp : Priority.not.rank ≤ p.rank) :
    ∃ ts, s.Spells ts ∧ Reads .operand ts v := by
  obtain ⟨ts, first, rest, h⟩ := h
  have hrest : rest = [] := h.tight.eq_nil hp
  subst hrest
  have hv := h.associate_eq
  rw [associate_nil] at hv
  subst hv
  cases h.reads with
  | last hfirst => exact ⟨ts, h.spells, hfirst⟩

/-- A series on each side of an operator, each as tight as its side needs it. -/
theorem combine
    {op : String} (hop : infixPriority? op = some p)
    (hlhs : HasSeries (operandPriorities op p).1 s v)
    (hrhs : HasSeries (operandPriorities op p).2 t w) :
    HasSeries p (.ofParts [s, op, t]) (.computation op [v, w] none none) := by
  obtain ⟨ts, first, rest, hlhs⟩ := hlhs
  obtain ⟨us, second, more, hrhs⟩ := hrhs
  have hmem := mem_infixOperators hop
  have hrank := rank_le_operandPriorities op p
  refine ⟨ts ++ word op :: us, first, rest ++ (op, second) :: more, ?_⟩
  constructor
  · have hplain := isPlain_of_mem_infixOperators hmem
    exact (TokenStream.PartsSpell.cons hlhs.spells (.word hplain (.last hrhs.spells))).ofParts
  · exact isLawful_seriesRows.row_append hlhs.reads hmem hrhs.reads
  · have htight := hlhs.tight.mono hrank.1
    have hmore := hrhs.tight.mono hrank.2
    have hhead : op ∈ infixOperators ∧ p.rank ≤ operatorRank op :=
      ⟨hmem, (operatorRank_eq hop).ge⟩
    exact List.forall_mem_append.mpr ⟨htight, List.forall_mem_cons.mpr ⟨hhead, hmore⟩⟩
  · rw [associate_append hop hlhs.tight hrhs.tight, hlhs.associate_eq, hrhs.associate_eq]

end HasSeries

/-! ### Values with parts -/

/-- The sources of values, with commas between them, are a list. -/
theorem exists_reads_separated
    {values : List Value} (h : ∀ value ∈ values, IsWritten value) :
    ∃ ps, List.Forall₂ TokenStream.Spells (values.map Value.source) ps ∧ (∀ p ∈ ps, p ≠ []) ∧
      Reads .list (separated (word ",") ps) (Value.canonicalAll values) := by
  induction values with
  | nil => exact ⟨[], .nil, List.forall_mem_nil _, .none⟩
  | cons value values ih =>
      rw [List.forall_mem_cons] at h
      obtain ⟨ts, first, rest, hvalue⟩ := h.1
      obtain ⟨ps, hspells, hne, hreads⟩ := ih h.2
      refine ⟨ts :: ps, .cons hvalue.spells hspells, ?_, ?_⟩
      · exact List.forall_mem_cons.mpr ⟨hvalue.reads.ne_nil nofun, hne⟩
      · rw [Value.canonicalAll, ← hvalue.associate_eq]
        cases values with
        | nil =>
            cases hspells
            exact .one hvalue.reads
        | cons _ _ =>
            cases hspells
            exact .more hvalue.reads hreads (List.cons_ne_nil _ _)

theorem spells_list
    {values : List Value} (h : ∀ value ∈ values, IsWritten value) :
    ∃ ts, (TokenStream.join ((Value.sources values).map Prod.snd) ",").Spells ts ∧
      Reads .list ts (Value.canonicalAll values) := by
  obtain ⟨ps, hspells, hne, hreads⟩ := exists_reads_separated h
  rw [map_source]
  exact ⟨_, TokenStream.spells_join rfl hspells hne, hreads⟩

theorem isWritten_array
    {values : List Value} (h : ∀ value ∈ values, IsWritten value) (type : Option Ty) :
    IsWritten (.array values type) := by
  obtain ⟨ts, hspells, hreads⟩ := spells_list h
  rw [IsWritten, Value.source, Value.canonical]
  exact .of_operand (TokenStream.PartsSpell.group .square hspells .nil).ofParts (.array hreads)

theorem isWritten_field
    {value : Value} {name : String} (hname : Token.isPlain (.literal name) = true)
    (h : IsWritten value) (type : Option Ty) :
    IsWritten (.field value name type) := by
  obtain ⟨ts, hspells, hreads⟩ := (HasSeries.parens h .projection).operand (by decide)
  rw [IsWritten, Value.source, Value.canonical]
  exact .of_operand (TokenStream.PartsSpell.word hname (.word rfl (.last hspells))).ofParts
    (.field name hreads)

theorem isWritten_infix
    {op : String} {p : Priority} (hop : infixPriority? op = some p) {lhs rhs : Value}
    (hlhs : IsWritten lhs) (hrhs : IsWritten rhs) (overload : Option (List Ty))
    (type : Option Ty) :
    IsWritten (.computation op [lhs, rhs] overload type) := by
  have hpriority : (Value.computation op [lhs, rhs] overload type).priority = p := by
    rw [Value.priority, hop]
    rfl
  rw [IsWritten, hpriority, Value.source, Value.sources, Value.sources, Value.sources,
    computationSource_infix hop]
  exact .combine hop (HasSeries.parens hlhs _) (HasSeries.parens hrhs _)

/-- Without two operands or an infix operator, a computation is written as a call. -/
theorem computationSource_call
    {op : String} {operands : List (Priority × TokenStream)}
    (h : infixPriority? op = none ∨ operands.length ≠ 2) :
    computationSource op operands = .ofParts [op, "(", .join (operands.map Prod.snd) ",", ")"] := by
  unfold computationSource
  split
  next hop => simp [hop] at h
  next => rfl

theorem isWritten_call
    {op : String} (hop : Token.isPlain (.literal op) = true) {operands : List Value}
    (hcall : infixPriority? op = none ∨ operands.length ≠ 2)
    (h : ∀ operand ∈ operands, IsWritten operand) (overload : Option (List Ty))
    (type : Option Ty) :
    IsWritten (.computation op operands overload type) := by
  obtain ⟨ts, hspells, hreads⟩ := spells_list h
  have hlength : (Value.sources operands).length = operands.length := by
    rw [← List.length_map Prod.snd, map_source, List.length_map]
  rw [← hlength] at hcall
  rw [IsWritten, Value.source, computationSource_call hcall, Value.canonical]
  exact .of_operand (TokenStream.PartsSpell.word hop (.group .round hspells .nil)).ofParts
    (.call op hreads)

theorem isWritten_computation
    {op : String} (hop : Token.isPlain (.literal op) = true) {operands : List Value}
    (h : ∀ operand ∈ operands, IsWritten operand) (overload : Option (List Ty))
    (type : Option Ty) :
    IsWritten (.computation op operands overload type) := by
  by_cases hcall : infixPriority? op = none ∨ operands.length ≠ 2
  · exact isWritten_call hop hcall h overload type
  · rw [not_or, not_not, ← ne_eq, Option.ne_none_iff_exists'] at hcall
    obtain ⟨⟨p, hp⟩, hlength⟩ := hcall
    obtain ⟨lhs, rhs, rfl⟩ := List.length_eq_two.mp hlength
    rw [List.forall_mem_cons, List.forall_mem_singleton] at h
    exact isWritten_infix hp h.1 h.2 overload type

mutual

theorem isWritten_of_isArithmetic :
    (v : Value) → v.isArithmetic = true → IsWritten v
  | .var name _, h =>
      .of_operand (TokenStream.spells_token h) (.var name)
  | .number x, _ => .of_operand (TokenStream.spells_token rfl) (.number x)
  | .array values type, h => isWritten_array (isWritten_of_allArithmetic values h) type
  | .field value _ type, h => by
      rw [Value.isArithmetic, Bool.and_eq_true] at h
      exact isWritten_field h.1 (isWritten_of_isArithmetic value h.2) type
  | .computation _ operands overload type, h => by
      rw [Value.isArithmetic, Bool.and_eq_true] at h
      exact isWritten_computation h.1 (isWritten_of_allArithmetic operands h.2) overload type

theorem isWritten_of_allArithmetic :
    (values : List Value) → Value.allArithmetic values = true → ∀ value ∈ values, IsWritten value
  | [], _ => List.forall_mem_nil _
  | value :: values, h => by
      rw [Value.allArithmetic, Bool.and_eq_true] at h
      rw [List.forall_mem_cons]
      exact ⟨isWritten_of_isArithmetic value h.1, isWritten_of_allArithmetic values h.2⟩

end

end Arithmetic

/-! ## One value only -/

/-- Arithmetic that is written alike is the same, types aside: every parenthesis that is needed
stands there. -/
theorem Value.canonical_eq_of_arithmetic_source
    {v w : Value} (hv : v.isArithmetic = true) (hw : w.isArithmetic = true)
    (h : v.source.toList = w.source.toList) :
    v.canonical = w.canonical := by
  obtain ⟨ts, first, rest, hts⟩ := Arithmetic.isWritten_of_isArithmetic v hv
  obtain ⟨us, second, more, hus⟩ := Arithmetic.isWritten_of_isArithmetic w hw
  have htrees : ts = us := hts.spells.eq_of_toList_eq hus.spells h
  have hreads : (first, rest) = (second, more) := by
    have happend : ts ++ [] = us ++ [] := by rw [htrees]
    exact (hts.reads.isOnly hus.reads happend (.inl rfl) (.inl rfl)).1
  obtain ⟨rfl, rfl⟩ := Prod.mk.inj hreads
  rw [← hts.associate_eq, hus.associate_eq]

/-- The sizes of what is left of some rows, to a power that is a sum of three. -/
def Value.powerOfSizes (type : Option Ty) : Value :=
  .computation "**"
    [.field (.computation "-" [.var "rows" type, .computation "-" [.var "old" type, .number 2] none
      type] none type) "size" type,
      .computation "+" [.number 1, .array [.var "x" type] none, .var "y" type] none none]
    none type

theorem Value.canonical_powerOfSizes :
    (powerOfSizes none).canonical = (powerOfSizes (some .number)).canonical :=
  Value.canonical_eq_of_arithmetic_source rfl rfl rfl

end SkillLang
