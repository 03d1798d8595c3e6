import SkillLang.Proofs.Source.Stream
import SkillLang.Proofs.Syntax.Executable
import SkillLang.Source.Program

/-!
# Contents of sources

Some tokens of a source are marks, which the syntax has whatever is written in it.  The others
are its contents, and each of them is written by a node of the tree: what a visitor meets and
what the source shows is the same.
-/

namespace SkillLang

open TokenStream

/-! ## Marks -/

/-- The words and signs of the syntax. -/
def syntaxMarks : List String :=
  ["(", ")", "[", "]", "\x7b", "\x7d", ",", ":", ";", ".", "=", "=>", "|", "!", "&&", "||", "*",
    "#[", "true", "false", "of", "filter", "as", "on", "new", "any", "enum", "join", "monitor",
    "sort", "asc", "desc", "let", "return", "function", "class", "extends", "now", "notify", "id",
    "all", "results", "count", "more", "error", "confirm", "proposed", "accepted", "confirmed",
    "$dialogue", "$choice", "$answer"]

def Token.isMark : Token → Bool
  | .layout _ => true
  | .literal w => syntaxMarks.contains w
  | .constant _ => false

/-- A word after a sign that the other word does not begin with. -/
theorem ne_append
    {sign word : String} (h : ¬ sign.toList <+: word.toList) (rest : String) :
    word ≠ sign ++ rest := by
  rintro rfl
  exact h (String.toList_append ▸ List.prefix_append _ _)

section Membership

variable {t : Token}

theorem mem_literal
    (w : String) :
    t ∈ (literal w).toList ↔ t = .literal w :=
  List.mem_singleton

theorem mem_constant
    (kind : ConstantKind) (v : Value) :
    t ∈ (v.constant kind).toList ↔ t = .constant ⟨kind, v⟩ :=
  List.mem_singleton

theorem mem_flatMap_intersperse
    {separator : TokenStream} (hseparator : t ∉ separator.toList) (parts : List TokenStream) :
    t ∈ (parts.intersperse separator).flatMap toList ↔ t ∈ parts.flatMap toList := by
  match parts with
  | [] | [_] => rfl
  | part :: next :: parts =>
      rw [List.intersperse_cons_cons, List.flatMap_cons, List.flatMap_cons, List.flatMap_cons,
        List.mem_append, List.mem_append, List.mem_append,
        mem_flatMap_intersperse hseparator (next :: parts)]
      simp only [hseparator, false_or]

theorem mem_join
    {separator : TokenStream} (hseparator : t ∉ separator.toList) (parts : List TokenStream) :
    t ∈ (join parts separator).toList ↔ t ∈ parts.flatMap toList := by
  rw [join, toList_ofParts, mem_flatMap_intersperse hseparator, flatMap_toList_filter]

variable (ht : t.isMark = false)

include ht

theorem not_mem_mark
    {w : String} (hw : syntaxMarks.contains w = true) :
    t ∉ (literal w).toList := by
  rw [mem_literal]
  rintro rfl
  rw [Token.isMark, hw] at ht
  cases ht

theorem not_mem_layout
    (l : Layout) :
    t ∉ (layout l).toList := by
  intro h
  obtain rfl := List.mem_singleton.mp h
  cases ht

theorem mem_joined
    {w : String} (hw : syntaxMarks.contains w = true) (parts : List TokenStream) :
    t ∈ (join parts (literal w)).toList ↔ t ∈ parts.flatMap toList :=
  mem_join (not_mem_mark ht hw) parts

theorem mem_lines
    (l : Layout) (parts : List TokenStream) :
    t ∈ (join parts (layout l)).toList ↔ t ∈ parts.flatMap toList :=
  mem_join (not_mem_layout ht l) parts

theorem mem_parens
    (needed actual : Priority) (s : TokenStream) :
    t ∈ (parens needed actual s).toList ↔ t ∈ s.toList := by
  unfold parens
  split
  · simp (disch := decide) [not_mem_mark ht]
  · rfl

end Membership

/-! ## Contents of nodes -/

/-- The tokens that a value is written with besides those of the values and filters in it. -/
def Value.tokens : Value → List Token
  | .array _ _ | .filtered _ _ _ => []
  | .computation op _ _ _ => [.literal op]
  | .field _ name _ => [.literal name]
  | .object fields => fields.map fun (name, _) => .literal name
  | v => v.source.toList

def Device.tokens (d : Device) : List Token :=
  if d.isPlain then []
  else .literal ("@" ++ d.kind) :: (d.id.map fun id => Token.literal (Text.quote id)).toList

/-- A class without any choice among its devices is written in one word with the function. -/
def Invocation.tokens (i : Invocation) : List Token :=
  match i.selector with
  | .builtin => [.literal i.channel]
  | .device d =>
    if d.isPlain then [.literal ("@" ++ d.kind ++ "." ++ i.channel)] else [.literal i.channel]

def Filter.tokens : Filter → List Token
  | .conj _ _ | .disj _ _ | .neg _ _ => []
  | .atom _ name op _ _ => [.literal name, .literal op]
  | .compute _ _ op _ _ => [.literal op]
  | .external call _ => call.tokens
  | f => f.source.toList

def Column.tokens : Column → List Token
  | .path name => [.literal name]
  | .value _ => []

def Selected.tokens (s : Selected) : List Token :=
  s.column.tokens ++ (s.label.map Token.literal).toList ++
    s.types.map fun type => .literal type.display

/-- Names for columns beyond the last one are not written. -/
def Clause.tokens : Clause → List Token
  | .monitor args => (args.getD []).map .literal
  | .projection args columns labels =>
    args.map .literal ++ ((labels.take columns.length).filterMap id).map .literal
  | .selection elements => elements.flatMap Selected.tokens
  | .named name => [.literal name]
  | .aggregation field op _ => [.literal op, .literal field]
  | .filter _ | .question _ | .sort _ _ | .index _ | .slice _ _ => []

def Expression.tokens : Expression → List Token
  | .call _ name _ => [.literal name]
  | .clause _ _ c => c.tokens
  | .invocation _ _ | .chain _ _ | .join _ _ _ => []

def Statement.tokens : Statement → List Token
  | .assign name _ _ => [.literal name]
  | .expression _ | .ret _ _ => []

def ClassDef.tokens (c : ClassDef) : List Token :=
  .literal ("@" ++ c.kind) :: c.parents.map fun parent => .literal ("@" ++ parent)

def FunctionDeclaration.tokens (d : FunctionDeclaration) : List Token :=
  .literal d.name :: d.args.flatMap fun a => a.source.toList

def PermissionFunction.tokens : PermissionFunction → List Token
  | .specified f => [.literal ("@" ++ f.kind ++ "." ++ f.channel)]
  | .classStar kind => [.literal ("@" ++ kind ++ ".*")]
  | .builtin | .star => []

def ControlCommand.tokens (c : ControlCommand) : List Token :=
  match c.intent with
  | .special name => [.literal ("$" ++ name)]
  | .choice index => (numberSource index).toList
  | .answer _ => []

def DialogueState.tokens (s : DialogueState) : List Token :=
  .literal ("@" ++ s.policy ++ "." ++ s.act) :: (s.params.getD []).map .literal

/-- The rows of results are no nodes of their own. -/
def HistoryItem.tokens (item : HistoryItem) : List Token :=
  match item.results with
  | some results => results.rows.flatMap fun row => row.values.map fun (name, _) => .literal name
  | none => []

/-- The tokens that a node is written with besides those of the nodes below it. -/
def Node.tokens : Node → List Token
  | .value v => v.tokens
  | .filter f => f.tokens
  | .param p => [.literal p.name]
  | .device d => d.tokens
  | .builtinSelector => []
  | .invocation i => i.tokens
  | .expression e => e.tokens
  | .statement s => s.tokens
  | .function s => s.source.toList
  | .classDef c => c.tokens
  | .declaration d => d.tokens
  | .program _ => []
  | .permissionRule _ => []
  | .permissionFunction f => f.tokens
  | .control c => c.tokens
  | .dialogue s => s.tokens
  | .historyItem item => item.tokens

/-- The tokens of all nodes of a tree. -/
def Tree.tokens (t : Tree) : List Token :=
  t.nodes.flatMap Node.tokens

theorem Tree.mem_tokens
    {t : Token} (label : Node) (children : List Tree) :
    t ∈ (node label children).tokens ↔ t ∈ label.tokens ∨ t ∈ children.flatMap tokens := by
  rw [tokens, nodes, nodesOf_eq_flatMap, List.flatMap_cons, List.flatMap_assoc, List.mem_append]
  rfl

/-! ## Values and filters -/

variable {t : Token}

section Parts

variable (ht : t.isMark = false)

include ht

theorem mem_computationSource
    (op : String) (operands : List (Priority × TokenStream)) :
    t ∈ (computationSource op operands).toList ↔
      t = .literal op ∨ t ∈ (operands.map Prod.snd).flatMap toList := by
  unfold computationSource
  split
  next =>
      split <;>
        simp only [toList_ofParts, List.flatMap_cons, List.flatMap_nil, List.mem_append,
          mem_parens ht, mem_literal, List.map_cons, List.map_nil] <;>
        grind
  next =>
      simp (disch := decide) only [toList_ofParts, List.flatMap_cons, List.flatMap_nil,
        List.mem_append, mem_joined ht, not_mem_mark ht, mem_literal]
      grind

theorem mem_comparisonSource
    (lhsPriority : Priority) (lhs : TokenStream) (op : String) (rhsPriority : Priority)
    (rhs : TokenStream) :
    t ∈ (comparisonSource lhsPriority lhs op rhsPriority rhs).toList ↔
      t = .literal op ∨ t ∈ lhs.toList ∨ t ∈ rhs.toList := by
  unfold comparisonSource
  split <;>
    simp (disch := decide) only [toList_ofParts, List.flatMap_cons, List.flatMap_nil,
      List.mem_append, mem_parens ht, not_mem_mark ht, mem_literal] <;>
    grind

theorem mem_attributesSource
    (id : Option String) (attributes : List TokenStream) (all : Bool) :
    t ∈ (attributesSource id attributes all).toList ↔
      t ∈ (id.map fun id => Token.literal (Text.quote id)).toList ∨
        t ∈ attributes.flatMap toList := by
  unfold attributesSource
  cases id <;> cases all <;>
    simp (disch := decide) only [mem_joined ht, List.flatMap_append, List.flatMap_cons,
      List.flatMap_nil, toList_ofParts, List.mem_append, not_mem_mark ht, mem_literal,
      Option.map_some, Option.map_none, Option.toList_some, Option.toList_none, if_true,
      Bool.false_eq_true, if_false, List.mem_singleton, List.not_mem_nil, false_or, or_false]

end Parts

theorem Filter.not_mem_tokens
    (ht : t.isMark = false) {f : Filter} (halways : f.isAlways = true) :
    t ∉ f.tree.tokens := by
  cases f with
  | always =>
      simp (disch := decide) [Filter.tree, Tree.mem_tokens, Node.tokens, Filter.tokens,
        Filter.source, not_mem_mark ht]
  | never | conj _ _ | disj _ _ | neg _ _ | atom _ _ _ _ _ | compute _ _ _ _ _ | dontCare _ _
  | external _ _ => cases halways

theorem Device.not_mem_tokens
    {d : Device} (hplain : d.isPlain = true) :
    t ∉ d.tree.tokens := by
  cases d with
  | mk kind id attributes all range =>
      have hattributes : attributes = [] := by
        simp only [Device.isPlain, Bool.and_eq_true, List.isEmpty_iff] at hplain
        exact hplain.1.2
      rw [Device.tree, Tree.mem_tokens, Node.tokens, Device.tokens, hplain, hattributes]
      simp [Param.trees]

mutual

theorem Value.mem_source (ht : t.isMark = false) :
    (v : Value) → (t ∈ v.source.toList ↔ t ∈ v.tree.tokens)
  | .array values _ => by
      simp (disch := decide) only [Value.source, toList_ofParts, List.flatMap_cons,
        List.flatMap_nil, List.mem_append, not_mem_mark ht, mem_joined ht,
        Value.mem_sources ht values, Value.tree, Tree.mem_tokens, Node.tokens, Value.tokens,
        List.not_mem_nil, false_or, or_false]
  | .computation op operands _ _ => by
      simp only [Value.source, mem_computationSource ht, Value.mem_sources ht operands, Value.tree,
        Tree.mem_tokens, Node.tokens, Value.tokens, List.mem_singleton]
  | .field value name _ => by
      simp (disch := decide) only [Value.source, toList_ofParts, List.flatMap_cons,
        List.flatMap_nil, List.mem_append, not_mem_mark ht, mem_literal, mem_parens ht,
        Value.mem_source ht value, Value.tree, Tree.mem_tokens, Node.tokens, Value.tokens,
        List.mem_singleton, List.not_mem_nil, false_or]
  | .filtered value test _ => by
      simp (disch := decide) only [Value.source, toList_ofParts, List.flatMap_cons,
        List.flatMap_nil, List.mem_append, not_mem_mark ht, mem_parens ht,
        Value.mem_source ht value, Filter.mem_source ht test, Value.tree, Tree.mem_tokens,
        Node.tokens, Value.tokens, List.not_mem_nil, false_or]
  | .object fields => by
      simp (disch := decide) only [Value.source, toList_ofParts, List.flatMap_cons,
        List.flatMap_nil, List.mem_append, not_mem_mark ht, mem_joined ht,
        Value.mem_fieldSources ht fields, Value.tree, Tree.mem_tokens, Node.tokens, Value.tokens,
        List.not_mem_nil, false_or, or_false]
  | .var _ _ | .undefined _ | .context _ _ | .boolean _ | .string _ | .number _ | .measure _ _
  | .currency _ _ | .place _ | .date _ | .time _ | .entity _ | .enum _ | .event _ | .argMap _ => by
      simp only [Value.tree, Tree.mem_tokens, Node.tokens, Value.tokens, List.flatMap_nil,
        List.not_mem_nil, or_false]

theorem Value.mem_sources (ht : t.isMark = false) :
    (values : List Value) →
      (t ∈ ((Value.sources values).map Prod.snd).flatMap toList ↔
        t ∈ (Value.trees values).flatMap Tree.tokens)
  | [] => Iff.rfl
  | value :: values => by
      simp only [Value.sources, Value.trees, List.map_cons, List.flatMap_cons, List.mem_append,
        Value.mem_source ht value, Value.mem_sources ht values]

theorem Value.mem_fieldSources (ht : t.isMark = false) :
    (fields : List (String × Value)) →
      (t ∈ (Value.fieldSources fields).flatMap toList ↔
        (t ∈ fields.map fun (name, _) => Token.literal name) ∨
          t ∈ (Value.fieldTrees fields).flatMap Tree.tokens)
  | [] => by simp [Value.fieldSources, Value.fieldTrees]
  | (name, value) :: fields => by
      simp (disch := decide) only [Value.fieldSources, Value.fieldTrees, List.map_cons,
        List.mem_cons, toList_ofParts, List.flatMap_cons, List.flatMap_nil, List.mem_append,
        not_mem_mark ht, mem_literal, Value.mem_source ht value, Value.mem_fieldSources ht fields,
        List.not_mem_nil, false_or, or_false]
      grind

theorem Filter.mem_source (ht : t.isMark = false) :
    (f : Filter) → (t ∈ f.source.toList ↔ t ∈ f.tree.tokens)
  | .conj _ [] | .disj _ [] => by
      simp (disch := decide) only [Filter.source, List.isEmpty_nil, if_true, not_mem_mark ht,
        Filter.tree, Filter.trees, Tree.mem_tokens, Node.tokens, Filter.tokens,
        List.flatMap_nil, List.not_mem_nil, or_false]
  | .conj _ (f :: fs) | .disj _ (f :: fs) => by
      simp (disch := decide) only [Filter.source, List.isEmpty_cons, Bool.false_eq_true, if_false,
        mem_joined ht, Filter.mem_sources ht _ (f :: fs), Filter.tree, Tree.mem_tokens,
        Node.tokens, Filter.tokens, List.not_mem_nil, false_or]
  | .neg _ operand => by
      simp (disch := decide) only [Filter.source, toList_ofParts, List.flatMap_cons,
        List.flatMap_nil, List.mem_append, mem_parens ht, not_mem_mark ht,
        Filter.mem_source ht operand, Filter.tree, Tree.mem_tokens, Node.tokens, Filter.tokens,
        List.not_mem_nil, false_or]
  | .atom _ name op value _ => by
      simp only [Filter.source, mem_comparisonSource ht, mem_literal, Value.mem_source ht value,
        Filter.tree, Tree.mem_tokens, Node.tokens, Filter.tokens, List.mem_cons,
        List.flatMap_cons, List.flatMap_nil, List.mem_append, List.not_mem_nil, or_false]
      grind
  | .compute _ lhs op rhs _ => by
      simp only [Filter.source, mem_comparisonSource ht, Value.mem_source ht lhs,
        Value.mem_source ht rhs, Filter.tree, Tree.mem_tokens, Node.tokens, Filter.tokens,
        List.mem_singleton, List.flatMap_cons, List.flatMap_nil, List.mem_append,
        List.not_mem_nil, or_false]
  | .external call test => by
      have htest := Filter.mem_source ht test
      -- A test that is always met is left out, and nothing but marks would be written for it.
      cases halways : test.isAlways with
      | true =>
          simp (disch := decide) only [Filter.source, halways, if_true, toList_ofParts,
            List.flatMap_cons, List.flatMap_nil, List.flatMap_append, List.mem_append,
            not_mem_mark ht, Invocation.mem_source ht call, Filter.tree, Tree.mem_tokens,
            Node.tokens, Filter.tokens, Filter.not_mem_tokens ht halways, List.not_mem_nil,
            false_or, or_false]
      | false =>
          simp (disch := decide) only [Filter.source, halways, Bool.false_eq_true, if_false,
            toList_ofParts, List.flatMap_cons, List.flatMap_nil, List.flatMap_append,
            List.mem_append, not_mem_mark ht, Invocation.mem_source ht call, htest, Filter.tree,
            Tree.mem_tokens, Node.tokens, Filter.tokens, List.not_mem_nil, false_or, or_false,
            or_assoc]
  | .dontCare _ _ | .always | .never => by
      simp only [Filter.tree, Tree.mem_tokens, Node.tokens, Filter.tokens, List.flatMap_nil,
        List.not_mem_nil, or_false]

theorem Filter.mem_sources (ht : t.isMark = false) (priority : Priority) :
    (fs : List Filter) →
      (t ∈ (Filter.sources priority fs).flatMap toList ↔
        t ∈ (Filter.trees fs).flatMap Tree.tokens)
  | [] => Iff.rfl
  | f :: fs => by
      simp only [Filter.sources, Filter.trees, List.flatMap_cons, List.mem_append, mem_parens ht,
        Filter.mem_source ht f, Filter.mem_sources ht priority fs]

theorem Param.mem_sources (ht : t.isMark = false) :
    (params : List Param) →
      (t ∈ (Param.sources params).flatMap toList ↔ t ∈ (Param.trees params).flatMap Tree.tokens)
  | [] => Iff.rfl
  | ⟨name, value, _⟩ :: params => by
      simp (disch := decide) only [Param.sources, Param.trees, List.flatMap_cons,
        List.flatMap_nil, List.mem_append, toList_ofParts, not_mem_mark ht, mem_literal,
        Value.mem_source ht value, Param.mem_sources ht params, Tree.mem_tokens, Node.tokens,
        List.mem_singleton, List.not_mem_nil, false_or, or_false]

/-- A class alone is written in one word with the function, so that its devices have no source. -/
theorem Device.mem_source (ht : t.isMark = false) :
    (d : Device) → d.isPlain = false → (t ∈ d.source.toList ↔ t ∈ d.tree.tokens)
  | ⟨kind, id, attributes, all, _⟩, h => by
      have hplain : (id.isNone && attributes.isEmpty && !all) = false := h
      simp (disch := decide) only [Device.source, hplain, Bool.false_eq_true, if_false,
        toList_ofParts, List.flatMap_cons, List.flatMap_nil, List.mem_append, not_mem_mark ht,
        mem_literal, mem_attributesSource ht, Param.mem_sources ht attributes, Device.tree,
        Tree.mem_tokens, Node.tokens, Device.tokens, h, List.mem_cons, List.not_mem_nil,
        false_or, or_false, or_assoc]

theorem Invocation.mem_source (ht : t.isMark = false) :
    (i : Invocation) →
      (t ∈ i.source.toList ↔ t ∈ i.tokens ∨ t ∈ i.partTrees.flatMap Tree.tokens)
  | ⟨.builtin, channel, params, _, _⟩ => by
      have hparams := Param.mem_sources ht params
      cases params <;>
        simp (disch := decide) only [Invocation.source, List.isEmpty_nil, List.isEmpty_cons,
          Bool.false_eq_true, if_true, if_false, toList_ofParts, List.flatMap_cons,
          List.flatMap_nil, List.mem_append, not_mem_mark ht, mem_literal, mem_joined ht,
          hparams, Invocation.partTrees, Selector.tree, Tree.mem_tokens, Node.tokens,
          Invocation.tokens, List.mem_singleton, Param.trees, List.not_mem_nil, false_or,
          or_false]
  | ⟨.device d, channel, params, _, _⟩ => by
      have hdevice := Device.mem_source ht d
      cases hplain : d.isPlain with
      | true =>
          simp (disch := decide) only [Invocation.source, hplain, if_true, toList_ofParts,
            List.flatMap_cons, List.flatMap_nil, List.mem_append, not_mem_mark ht, mem_literal,
            mem_joined ht, Param.mem_sources ht params, Invocation.partTrees, Selector.tree,
            Device.not_mem_tokens hplain, Invocation.tokens, List.mem_singleton,
            List.not_mem_nil, false_or, or_false]
      | false =>
          simp (disch := decide) only [Invocation.source, hplain, Bool.false_eq_true, if_false,
            toList_ofParts, List.flatMap_cons, List.flatMap_nil, List.mem_append,
            not_mem_mark ht, mem_literal, mem_joined ht, Param.mem_sources ht params,
            hdevice hplain, Invocation.partTrees, Selector.tree, Invocation.tokens,
            List.mem_singleton, List.not_mem_nil, false_or, or_false, or_left_comm]

end

section Sources

variable (ht : t.isMark = false)

include ht

omit ht in
theorem mem_literals
    (words : List String) :
    t ∈ (words.map literal).flatMap toList ↔ t ∈ words.map Token.literal := by
  simp [mem_literal, eq_comm]

theorem mem_bracketed
    (elements : List TokenStream) :
    t ∈ (bracketed elements).toList ↔ t ∈ elements.flatMap toList := by
  simp (disch := decide) only [bracketed, toList_ofParts, List.flatMap_cons, List.flatMap_nil,
    List.mem_append, not_mem_mark ht, mem_joined ht, List.not_mem_nil, false_or, or_false]

/-! ## Expressions -/

theorem mem_computationsSource
    (values : List Value) (labels : List (Option String)) :
    t ∈ (computationsSource values labels).flatMap toList ↔
      t ∈ ((labels.take values.length).filterMap id).map Token.literal ∨
        t ∈ (Value.trees values).flatMap Tree.tokens := by
  induction values generalizing labels with
  | nil => simp [computationsSource, Value.trees]
  | cons value values ih =>
      match labels with
      | [] =>
          simp only [computationsSource, List.flatMap_cons, List.mem_append, ih,
            Value.mem_source ht value, Value.trees, List.take_nil, List.filterMap_nil,
            List.map_nil, List.not_mem_nil, false_or]
      | none :: labels =>
          simp only [computationsSource, List.flatMap_cons, List.mem_append, ih,
            Value.mem_source ht value, Value.trees, List.length_cons, List.take_succ_cons,
            List.filterMap_cons, id, or_left_comm]
      | some label :: labels =>
          simp (disch := decide) only [computationsSource, List.flatMap_cons, List.flatMap_nil,
            List.mem_append, ih, toList_ofParts, not_mem_mark ht, mem_literal,
            Value.mem_source ht value, Value.trees, List.length_cons, List.take_succ_cons,
            List.filterMap_cons, id, List.map_cons, List.mem_cons, List.not_mem_nil, false_or,
            or_false]
          grind

theorem Column.mem_source
    (c : Column) :
    t ∈ c.source.toList ↔ t ∈ c.tokens ∨ t ∈ c.trees.flatMap Tree.tokens := by
  cases c <;>
    simp only [Column.source, Column.tokens, Column.trees, mem_literal, Value.mem_source ht,
      List.flatMap_cons, List.flatMap_nil, List.mem_append, List.mem_singleton,
      List.not_mem_nil, false_or, or_false]

theorem Selected.mem_source
    (s : Selected) :
    t ∈ s.source.toList ↔ t ∈ s.tokens ∨ t ∈ s.column.trees.flatMap Tree.tokens := by
  obtain ⟨column, label, types⟩ := s
  have htypes :
      t ∈ (if types.isEmpty then empty
        else ofParts [":", join (types.map fun type => literal type.display) "|"]).toList ↔
          t ∈ types.map fun type => Token.literal type.display := by
    cases types <;>
      simp (disch := decide) [not_mem_mark ht, mem_joined ht, mem_literal, eq_comm]
  cases label <;>
    simp (disch := decide) only [Selected.source, toList_ofParts, List.flatMap_cons,
      List.flatMap_nil, List.mem_append, Column.mem_source ht, htypes, toList_empty,
      not_mem_mark ht, mem_literal, Selected.tokens, Option.map_none, Option.map_some,
      Option.toList_none, Option.toList_some, List.mem_singleton, List.not_mem_nil, false_or,
      or_false] <;>
    grind

theorem mem_selectedSources
    (elements : List Selected) :
    t ∈ (elements.map Selected.source).flatMap toList ↔
      t ∈ elements.flatMap Selected.tokens ∨
        t ∈ (elements.flatMap fun element => element.column.trees).flatMap Tree.tokens := by
  induction elements with
  | nil => simp
  | cons element elements ih =>
      simp only [List.map_cons, List.flatMap_cons, List.flatMap_append, List.mem_append, ih,
        Selected.mem_source ht element]
      grind

theorem mem_valueSources
    (values : List Value) :
    t ∈ (values.map Value.source).flatMap toList ↔
      t ∈ (Value.trees values).flatMap Tree.tokens := by
  induction values with
  | nil => rfl
  | cons value values ih =>
      simp only [List.map_cons, List.flatMap_cons, List.mem_append, ih, Value.mem_source ht value,
        Value.trees]

theorem Clause.mem_source
    (inner : Priority) (expression : TokenStream) (c : Clause) :
    t ∈ (c.source inner expression).toList ↔
      t ∈ expression.toList ∨ t ∈ c.tokens ∨ t ∈ c.trees.flatMap Tree.tokens := by
  cases c with
  | filter f =>
      simp (disch := decide) only [Clause.source, toList_ofParts, List.flatMap_cons,
        List.flatMap_nil, List.mem_append, not_mem_mark ht, mem_parens ht,
        Filter.mem_source ht f, Clause.tokens, Clause.trees, List.not_mem_nil, false_or]
  | monitor args =>
      cases args <;>
        simp (disch := decide) only [Clause.source, namesSource, toList_ofParts,
          List.flatMap_cons, List.flatMap_nil, List.mem_append, not_mem_mark ht, mem_joined ht,
          mem_literals,
          Clause.tokens, Clause.trees, Option.getD_none, Option.getD_some, List.map_nil,
          List.not_mem_nil, false_or, or_false]
  | projection args columns labels =>
      simp (disch := decide) only [Clause.source, toList_ofParts, List.flatMap_cons,
        List.flatMap_nil, List.flatMap_append, List.mem_append, not_mem_mark ht, mem_parens ht,
        mem_bracketed ht, mem_computationsSource ht, Clause.tokens, Clause.trees,
        mem_literals, List.not_mem_nil, false_or, or_false]
      grind
  | selection elements =>
      simp (disch := decide) only [Clause.source, toList_ofParts, List.flatMap_cons,
        List.flatMap_nil, List.mem_append, not_mem_mark ht, mem_parens ht, mem_bracketed ht,
        mem_selectedSources ht, Clause.tokens, Clause.trees, List.not_mem_nil, false_or, or_false]
      grind
  | question f =>
      simp (disch := decide) only [Clause.source, toList_ofParts, List.flatMap_cons,
        List.flatMap_nil, List.mem_append, not_mem_mark ht, mem_parens ht,
        Filter.mem_source ht f, Clause.tokens, Clause.trees, List.not_mem_nil, false_or,
        or_comm]
  | named name =>
      simp (disch := decide) only [Clause.source, toList_ofParts, List.flatMap_cons,
        List.flatMap_nil, List.mem_append, not_mem_mark ht, mem_parens ht, mem_literal,
        Clause.tokens, Clause.trees, List.mem_singleton, List.not_mem_nil, false_or, or_false]
  | aggregation field op _ =>
      cases hfield : field == "*" with
      | true =>
          -- The results themselves are counted, so that the field is a mark.
          obtain rfl : field = "*" := by simpa using hfield
          have hmark : t ≠ .literal "*" := by
            rw [Ne, ← mem_literal]
            exact not_mem_mark ht (by decide)
          simp (disch := decide) only [Clause.source, beq_self_eq_true, if_true, toList_ofParts,
            List.flatMap_cons, List.flatMap_nil, List.mem_append, not_mem_mark ht, mem_literal,
            hmark, Clause.tokens, Clause.trees, List.mem_cons, List.not_mem_nil, false_or,
            or_false, or_comm]
      | false =>
          simp (disch := decide) only [Clause.source, hfield, Bool.false_eq_true, if_false,
            toList_ofParts, List.flatMap_cons, List.flatMap_nil, List.mem_append,
            not_mem_mark ht, mem_literal, mem_parens ht, Clause.tokens, Clause.trees,
            List.mem_cons, List.not_mem_nil, false_or, or_false]
          grind
  | sort value direction =>
      have hdirection : t ∉ (literal direction.name).toList := by
        cases direction <;> exact not_mem_mark ht (by decide)
      simp (disch := decide) only [Clause.source, toList_ofParts, List.flatMap_cons,
        List.flatMap_nil, List.mem_append, not_mem_mark ht, mem_parens ht, hdirection,
        Value.mem_source ht value, Clause.tokens, Clause.trees, List.not_mem_nil, false_or,
        or_false, or_comm]
  | index indices =>
      simp only [Clause.source, toList_ofParts, List.flatMap_cons, List.flatMap_nil,
        List.mem_append, mem_parens ht, mem_bracketed ht, mem_valueSources ht, Clause.tokens,
        Clause.trees, List.not_mem_nil, false_or, or_false]
  | slice base limit =>
      simp (disch := decide) only [Clause.source, toList_ofParts, List.flatMap_cons,
        List.flatMap_nil, List.mem_append, not_mem_mark ht, mem_parens ht,
        Value.mem_source ht base, Value.mem_source ht limit, Clause.tokens, Clause.trees,
        List.not_mem_nil, false_or, or_false]

mutual

theorem Expression.mem_source :
    (e : Expression) → (t ∈ e.source.toList ↔ t ∈ e.tree.tokens)
  | .call _ name params => by
      simp (disch := decide) only [Expression.source, toList_ofParts, List.flatMap_cons,
        List.flatMap_nil, List.mem_append, not_mem_mark ht, mem_literal, mem_joined ht,
        Param.mem_sources ht params, Expression.tree, Tree.mem_tokens, Node.tokens,
        Expression.tokens, List.mem_singleton, List.not_mem_nil, false_or, or_false]
  | .invocation _ i => by
      simp only [Expression.source, Invocation.mem_source ht i, Expression.tree, Invocation.tree,
        Tree.mem_tokens, Node.tokens, Expression.tokens, List.flatMap_cons, List.flatMap_nil,
        List.mem_append, List.not_mem_nil, false_or, or_false]
  | .clause _ inner c => by
      simp only [Expression.source, Clause.mem_source ht, Expression.mem_source inner,
        Expression.tree, Tree.mem_tokens, Node.tokens, Expression.tokens, List.flatMap_cons,
        List.mem_append, or_left_comm]
  | .chain _ elements => by
      simp (disch := decide) only [Expression.source, mem_joined ht,
        Expression.mem_elementSources elements, Expression.tree, Tree.mem_tokens, Node.tokens,
        Expression.tokens, List.not_mem_nil, false_or]
  | .join _ lhs rhs => by
      simp (disch := decide) only [Expression.source, toList_ofParts, List.flatMap_cons,
        List.flatMap_nil, List.mem_append, not_mem_mark ht, mem_parens ht,
        Expression.mem_source lhs, Expression.mem_source rhs, Expression.tree, Tree.mem_tokens,
        Node.tokens, Expression.tokens, List.not_mem_nil, false_or, or_false]

theorem Expression.mem_elementSources :
    (elements : List Expression) →
      (t ∈ (Expression.elementSources elements).flatMap toList ↔
        t ∈ (Expression.trees elements).flatMap Tree.tokens)
  | [] => Iff.rfl
  | element :: elements => by
      simp only [Expression.elementSources, Expression.trees, List.flatMap_cons, List.mem_append,
        mem_parens ht, Expression.mem_source element, Expression.mem_elementSources elements]

end

/-! ## Programs and dialogues -/

theorem Statement.mem_source
    (s : Statement) :
    t ∈ s.source.toList ↔ t ∈ s.tree.tokens := by
  cases s <;>
    simp (disch := decide) only [Statement.source, toList_ofParts, List.flatMap_cons,
      List.flatMap_nil, List.mem_append, not_mem_mark ht, not_mem_layout ht, mem_literal,
      Expression.mem_source ht, Statement.tree, Statement.body, Tree.mem_tokens, Node.tokens,
      Statement.tokens, List.mem_singleton, List.not_mem_nil, false_or, or_false]

theorem mem_block
    (items : List TokenStream) :
    t ∈ (block items).toList ↔ t ∈ items.flatMap toList := by
  dsimp only [block]
  split
  next =>
      exact mem_lines ht _ _
  next =>
      simp only [toList_ofParts, List.flatMap_cons, List.flatMap_nil, List.mem_append,
        not_mem_layout ht, mem_lines ht, List.not_mem_nil, false_or, or_false]

omit ht in
/-- Parts with a source and a tree of the same contents, one after the other. -/
theorem mem_flatMap_map
    {α : Type} {source : α → TokenStream} {tree : α → Tree}
    (h : ∀ a, t ∈ (source a).toList ↔ t ∈ (tree a).tokens) (parts : List α) :
    t ∈ (parts.map source).flatMap toList ↔ t ∈ (parts.map tree).flatMap Tree.tokens := by
  simp only [List.flatMap_map, List.mem_flatMap, h]

theorem ClassDef.mem_source
    (c : ClassDef) :
    t ∈ c.source.toList ↔ t ∈ c.tree.tokens := by
  have hfunctions (signatures : List Signature) :
      t ∈ (signatures.map Signature.source).flatMap toList ↔
        t ∈ (signatures.map fun s => Tree.node (.function s) []).flatMap Tree.tokens :=
    mem_flatMap_map (fun s => by simp [Tree.mem_tokens, Node.tokens]) signatures
  have hparents :
      t ∈ ((if c.parents.isEmpty then []
        else ["extends", join (c.parents.map fun parent => literal ("@" ++ parent)) ","] :
          List TokenStream)).flatMap toList ↔
        t ∈ c.parents.map fun parent => Token.literal ("@" ++ parent) := by
    cases c.parents <;>
      simp (disch := decide) [not_mem_mark ht, mem_joined ht, mem_literal, eq_comm]
  simp (disch := decide) only [ClassDef.source, toList_ofParts, List.flatMap_cons,
    List.flatMap_nil, List.flatMap_append, List.mem_append, not_mem_mark ht, mem_literal,
    hparents, mem_block ht, hfunctions, ClassDef.tree, Tree.mem_tokens, Node.tokens,
    ClassDef.tokens, List.mem_cons, List.not_mem_nil, false_or, or_false]

theorem FunctionDeclaration.mem_source
    (d : FunctionDeclaration) :
    t ∈ d.source.toList ↔ t ∈ d.tree.tokens := by
  simp (disch := decide) only [FunctionDeclaration.source, toList_ofParts, List.flatMap_cons,
    List.flatMap_nil, List.mem_append, not_mem_mark ht, mem_literal, mem_joined ht,
    mem_block ht, mem_flatMap_map (Statement.mem_source ht), FunctionDeclaration.tree,
    Tree.mem_tokens, Node.tokens, FunctionDeclaration.tokens, List.mem_cons,
    List.not_mem_nil, false_or, or_false, or_assoc]
  rw [List.flatMap_map]

theorem Program.mem_source
    (p : Program) :
    t ∈ p.source.toList ↔ t ∈ p.tree.tokens := by
  simp only [Program.source, mem_lines ht, List.flatMap_append, List.mem_append,
    mem_flatMap_map (ClassDef.mem_source ht), mem_flatMap_map (FunctionDeclaration.mem_source ht),
    mem_flatMap_map (Statement.mem_source ht), Program.tree, Tree.mem_tokens, Node.tokens,
    List.not_mem_nil, false_or]

theorem PermissionFunction.mem_source
    {builtinWord : String} (hword : syntaxMarks.contains builtinWord = true)
    (f : PermissionFunction) :
    t ∈ (f.source builtinWord).toList ↔ t ∈ f.tree.tokens := by
  cases f with
  | specified f =>
      cases halways : f.filter.isAlways with
      | true =>
          simp only [PermissionFunction.source, halways, if_true, mem_literal,
            PermissionFunction.tree, Tree.mem_tokens, Node.tokens, PermissionFunction.tokens,
            Filter.not_mem_tokens ht halways, List.flatMap_cons, List.flatMap_nil,
            List.mem_append, List.mem_singleton, List.not_mem_nil, or_false]
      | false =>
          simp (disch := decide) only [PermissionFunction.source, halways, Bool.false_eq_true,
            if_false, toList_ofParts, mem_literal, not_mem_mark ht, Filter.mem_source ht,
            PermissionFunction.tree, Tree.mem_tokens, Node.tokens, PermissionFunction.tokens,
            List.flatMap_cons, List.flatMap_nil, List.mem_append, List.mem_singleton,
            List.not_mem_nil, false_or, or_false]
  | builtin =>
      simp only [PermissionFunction.source, not_mem_mark ht hword, PermissionFunction.tree,
        Tree.mem_tokens, Node.tokens, PermissionFunction.tokens, List.flatMap_nil,
        List.not_mem_nil, or_false]
  | classStar _ | star =>
      simp (disch := decide) only [PermissionFunction.source, not_mem_mark ht, mem_literal,
        PermissionFunction.tree, Tree.mem_tokens, Node.tokens, PermissionFunction.tokens,
        List.flatMap_nil, List.mem_singleton, List.not_mem_nil, or_false]

theorem PermissionRule.mem_source
    (r : PermissionRule) :
    t ∈ r.source.toList ↔ t ∈ r.tree.tokens := by
  simp (disch := decide) only [PermissionRule.source, toList_ofParts, List.flatMap_cons,
    List.flatMap_nil, List.mem_append, not_mem_mark ht, Filter.mem_source ht,
    PermissionFunction.mem_source ht, PermissionRule.tree, Tree.mem_tokens, Node.tokens,
    List.not_mem_nil, false_or, or_false]

theorem ControlCommand.mem_source
    (c : ControlCommand) :
    t ∈ c.source.toList ↔ t ∈ c.tree.tokens := by
  obtain ⟨intent, range⟩ := c
  cases intent <;>
    simp (disch := decide) only [ControlCommand.source, toList_ofParts, List.flatMap_cons,
      List.flatMap_nil, List.mem_append, not_mem_mark ht, mem_literal, Value.mem_source ht,
      ControlCommand.tree, Tree.mem_tokens, Node.tokens, ControlCommand.tokens,
      List.mem_singleton, List.not_mem_nil, false_or, or_false]

theorem ResultRow.mem_sources
    (rows : List ResultRow) :
    t ∈ (rows.map ResultRow.source).flatMap toList ↔
      (t ∈ rows.flatMap fun row => row.values.map fun (name, _) => Token.literal name) ∨
        t ∈ (rows.flatMap fun row => Value.fieldTrees row.values).flatMap Tree.tokens := by
  induction rows with
  | nil => simp
  | cons row rows ih =>
      simp only [List.map_cons, List.flatMap_cons, List.flatMap_append, List.mem_append, ih,
        ResultRow.source, Value.mem_source ht, Value.tree, Tree.mem_tokens, Node.tokens,
        Value.tokens]
      grind

theorem ResultList.mem_source
    (r : ResultList) :
    t ∈ r.source.toList ↔
      (t ∈ r.rows.flatMap fun row => row.values.map fun (name, _) => Token.literal name) ∨
        t ∈ r.trees.flatMap Tree.tokens := by
  obtain ⟨rows, count, more, error, range⟩ := r
  cases more <;> cases error <;>
    simp (disch := decide) only [ResultList.source, mem_lines ht, toList_ofParts,
      List.flatMap_cons, List.flatMap_nil, List.flatMap_append, List.mem_append, mem_joined ht,
      not_mem_mark ht, ResultRow.mem_sources ht, Value.mem_source ht, ResultList.trees, if_true,
      Bool.false_eq_true, if_false, List.not_mem_nil, false_or, or_false, or_assoc]

theorem HistoryItem.mem_annotations
    (item : HistoryItem) :
    t ∈ item.annotations.toList ↔
      t ∈ item.tokens ∨
        t ∈ (match item.results with
          | some results => results.trees
          | none => []).flatMap Tree.tokens := by
  obtain ⟨statement, results, confirm, range, _⟩ := item
  cases results with
  | some results =>
      exact ResultList.mem_source ht results
  | none =>
      cases confirm <;>
        simp (disch := decide) only [HistoryItem.annotations, toList_empty, toList_ofParts,
          List.flatMap_cons, List.flatMap_nil, List.mem_append, not_mem_mark ht,
          Confirmation.name, HistoryItem.tokens, List.not_mem_nil, or_false]

theorem HistoryItem.mem_source
    (item : HistoryItem) :
    t ∈ item.source.toList ↔ t ∈ item.tree.tokens := by
  have hstatement :
      t ∈ (Statement.expression item.statement).tree.tokens ↔
        t ∈ item.statement.expression.source.toList := by
    simp only [Expression.mem_source ht, Statement.tree, Statement.body, Tree.mem_tokens,
      Node.tokens, Statement.tokens, List.flatMap_cons, List.flatMap_nil, List.mem_append,
      List.not_mem_nil, false_or, or_false]
  simp only [HistoryItem.tree, Tree.mem_tokens, Node.tokens, List.flatMap_cons, List.mem_append,
    hstatement]
  rw [or_left_comm]
  refine Iff.trans ?_ (or_congr_right (HistoryItem.mem_annotations ht item))
  dsimp only [HistoryItem.source]
  split
  next hempty =>
      simp (disch := decide) only [eq_empty_of_isEmpty hempty, toList_empty, toList_ofParts,
        List.flatMap_cons, List.flatMap_nil, List.mem_append, not_mem_mark ht,
        List.not_mem_nil, or_false]
  next =>
      simp (disch := decide) only [toList_ofParts, List.flatMap_cons, List.flatMap_nil,
        List.mem_append, not_mem_mark ht, not_mem_layout ht, List.not_mem_nil, false_or, or_false]

theorem DialogueState.mem_source
    (s : DialogueState) :
    t ∈ s.source.toList ↔ t ∈ s.tree.tokens := by
  obtain ⟨policy, act, params, history, range⟩ := s
  cases params <;>
    simp (disch := decide) only [DialogueState.source, mem_lines ht, toList_ofParts,
      toList_empty, List.flatMap_cons, List.flatMap_nil, List.mem_append, not_mem_mark ht,
      mem_joined ht, mem_literal, mem_literals, mem_flatMap_map (HistoryItem.mem_source ht),
      DialogueState.tree, Tree.mem_tokens, Node.tokens, DialogueState.tokens,
      Option.getD_none, Option.getD_some, List.map_nil, List.mem_cons, List.not_mem_nil,
      false_or, or_false]

/-- What the source of an input shows is what the nodes of its tree are written with. -/
theorem Input.mem_source
    (input : Input) :
    t ∈ input.source.toList ↔ t ∈ input.tree.tokens := by
  cases input with
  | program p => exact Program.mem_source ht p
  | permission r => exact PermissionRule.mem_source ht r
  | dialogue s => exact DialogueState.mem_source ht s
  | control c => exact ControlCommand.mem_source ht c

end Sources

end SkillLang
