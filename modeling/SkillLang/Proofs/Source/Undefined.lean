import SkillLang.Proofs.Source.Contents

/-!
# Undefined values in sources

An undefined value is written as a word of its own.  Other words are made of what a node
stores, mostly after a sign that the word does not begin with, so that only a stored text that
is the word itself could be taken for an undefined value.
-/

namespace SkillLang

open TokenStream

/-- The name of a type that has one. -/
def Ty.names : Ty → List String
  | .var name | .unknown name => [name]
  | _ => []

def DateValue.units : DateValue → List String
  | .edge _ unit => [unit]
  | _ => []

/-- The names, operators, entries, events, types and units of a value. -/
def Value.strings : Value → List String
  | .var name _ => [name]
  | .enum entry => [entry]
  | .event name => name.toList
  | .context _ type => type.names
  | .date d => d.units
  | .argMap args => args.flatMap fun (name, type) => name :: type.names
  | .computation op _ _ _ => [op]
  | .field _ name _ => [name]
  | .object fields => fields.map Prod.fst
  | .array _ _ | .filtered _ _ _ | .undefined _ | .boolean _ | .string _ | .number _
  | .measure _ _ | .currency _ _ | .place _ | .time _ | .entity _ => []

def Filter.strings : Filter → List String
  | .atom _ name op _ _ => [name, op]
  | .compute _ _ op _ _ => [op]
  | .dontCare _ name => [name]
  | .external call _ => [call.channel]
  | .always | .never | .conj _ _ | .disj _ _ | .neg _ _ => []

def Column.strings : Column → List String
  | .path name => [name]
  | .value _ => []

def Selected.strings (s : Selected) : List String :=
  s.column.strings ++ s.label.toList ++ s.types.flatMap Ty.names

def Clause.strings : Clause → List String
  | .monitor args => args.getD []
  | .projection args _ labels => args ++ labels.filterMap id
  | .selection elements => elements.flatMap Selected.strings
  | .named name => [name]
  | .aggregation field op _ => [op, field]
  | .filter _ | .question _ | .sort _ _ | .index _ | .slice _ _ => []

def Expression.strings : Expression → List String
  | .call _ name _ => [name]
  | .clause _ _ c => c.strings
  | .invocation _ _ | .chain _ _ | .join _ _ _ => []

def Statement.strings : Statement → List String
  | .assign name _ _ => [name]
  | .expression _ | .ret _ _ => []

def Argument.strings (a : Argument) : List String :=
  a.name :: a.type.names

def Signature.strings (s : Signature) : List String :=
  s.name :: s.args.flatMap Argument.strings

def ControlIntent.strings : ControlIntent → List String
  | .special name => [name]
  | .choice _ | .answer _ => []

def HistoryItem.strings (item : HistoryItem) : List String :=
  item.results.toList.flatMap fun results => results.rows.flatMap fun row => row.values.map Prod.fst

/-- What a node stores besides its constants, where it is written as or at the end of a word. -/
def Node.strings : Node → List String
  | .value v => v.strings
  | .filter f => f.strings
  | .param p => [p.name]
  | .invocation i => [i.channel]
  | .expression e => e.strings
  | .statement s => s.strings
  | .function s => s.strings
  | .declaration d => d.name :: d.args.flatMap Argument.strings
  | .control c => c.intent.strings
  | .dialogue s => s.params.getD []
  | .historyItem item => item.strings
  | .device _ | .builtinSelector | .classDef _ | .program _ | .permissionRule _
  | .permissionFunction _ => []

/-! ## The word for an undefined value -/

theorem eq_dollar_append
    (name : String) :
    "$?" = "$" ++ name ↔ "?" = name := by
  rw [show "$?" = "$" ++ "?" from rfl]
  exact String.append_right_inj "$"

theorem Text.ne_quote
    (s : String) :
    "$?" ≠ Text.quote s := by
  intro h
  have hquote := congrArg String.toList h
  rw [Text.quote, String.toList_ofList, Text.quoteChars] at hquote
  simp at hquote

theorem Ty.eq_display
    (type : Ty) :
    "$?" = type.display ↔ "$?" ∈ type.names := by
  cases type with
  | var _ | unknown _ => simp [display, names]
  | enum entries =>
      cases entries <;>
        simp (disch := decide) [display, names, String.append_assoc, ne_append]
  | measure _ | entity _ | array _ | compound _ =>
      simp (disch := decide) [display, names, String.append_assoc, ne_append]
  | any | boolean | string | number | currency | date | time | location | recurrentTime | argMap
  | object => simp [display, names]

def undefinedToken : Token :=
  .literal "$?"

theorem undefinedToken_isMark :
    undefinedToken.isMark = false :=
  rfl

theorem undefinedToken_eq
    (word : String) :
    undefinedToken = .literal word ↔ "$?" = word := by
  rw [undefinedToken, Token.literal.injEq]

theorem undefinedToken_mem_map
    (words : List String) :
    undefinedToken ∈ words.map Token.literal ↔ "$?" ∈ words := by
  simp [undefinedToken]

theorem undefinedToken_not_mem_constant
    (kind : ConstantKind) (v : Value) :
    undefinedToken ∉ (v.constant kind).toList := by
  rw [mem_constant]
  nofun

theorem TimeOfDay.undefinedToken_not_mem
    (t : TimeOfDay) :
    undefinedToken ∉ t.source.toList := by
  cases t with
  | absolute _ _ _ => exact undefinedToken_not_mem_constant _ _
  | relative name =>
      rw [source, mem_literal, undefinedToken_eq]
      exact ne_append (by decide) name

theorem undefinedToken_not_mem_timeSource
    (time : Option TimeOfDay) :
    undefinedToken ∉ (timeSource time).toList := by
  cases time <;>
    simp (disch := decide) [timeSource, not_mem_mark undefinedToken_isMark,
      TimeOfDay.undefinedToken_not_mem]

theorem undefinedToken_not_mem_pieceSource
    (n : Option Int) :
    undefinedToken ∉ (pieceSource n).toList := by
  cases n with
  | none => exact List.not_mem_nil
  | some n => exact undefinedToken_not_mem_constant _ _

theorem Weekday.name_ne
    (day : Weekday) :
    "$?" ≠ day.name := by
  cases day <;> decide

theorem DateValue.undefinedToken_not_mem
    {d : DateValue} (h : "$?" ∉ d.units) :
    undefinedToken ∉ d.source.toList := by
  cases d with
  | absolute _ => exact undefinedToken_not_mem_constant _ _
  | now => simp [source, mem_literal, undefinedToken_eq]
  | edge which unit =>
      rw [units, List.mem_singleton] at h
      cases which <;>
        simp (disch := decide) [source, not_mem_mark undefinedToken_isMark, mem_literal,
          undefinedToken_eq, h]
  | piece year month day time =>
      simp (disch := decide) [source, not_mem_mark undefinedToken_isMark, mem_literal,
        undefinedToken_eq, undefinedToken_not_mem_pieceSource, undefinedToken_not_mem_timeSource]
  | weekday day time =>
      simp (disch := decide) [source, not_mem_mark undefinedToken_isMark, mem_literal,
        undefinedToken_eq, Weekday.name_ne, undefinedToken_not_mem_timeSource]

theorem undefinedToken_not_mem_argMapSource
    {args : List (String × Ty)}
    (h : "$?" ∉ args.flatMap fun (name, type) => name :: type.names) :
    undefinedToken ∉ (argMapSource args).toList := by
  simp only [List.mem_flatMap, not_exists, not_and, List.mem_cons, not_or] at h
  simp (disch := decide) only [argMapSource, toList_ofParts, List.flatMap_cons, List.flatMap_nil,
    List.mem_append, not_mem_mark undefinedToken_isMark, mem_joined undefinedToken_isMark,
    mem_literal, undefinedToken_eq, List.flatMap_map, List.mem_flatMap, List.not_mem_nil,
    Ty.eq_display, false_or, or_false, not_or, not_exists, not_and]
  exact ⟨by decide, h⟩

/-- An undefined value is the only one with the word for it. -/
theorem Value.undefinedToken_mem
    {v : Value} (h : "$?" ∉ v.strings) (hevent : "?" ∉ v.strings) :
    undefinedToken ∈ v.tokens ↔ v.isUndefined = true := by
  cases v with
  | undefined _ => simp [tokens, source, isUndefined, mem_literal, undefinedToken_eq]
  | array _ _ | filtered _ _ _ => simp [tokens, isUndefined]
  | string _ | number _ | measure _ _ | currency _ _ | entity _ =>
      simp only [tokens, source, isUndefined, undefinedToken_not_mem_constant, Bool.false_eq_true]
  | boolean b =>
      cases b <;> simp [tokens, source, isUndefined, mem_literal, undefinedToken_eq]
  | enum entry =>
      simpa [tokens, source, isUndefined, mem_literal, undefinedToken_eq, strings] using h
  | event name =>
      cases name with
      | none => simp [tokens, source, isUndefined, mem_literal, undefinedToken_eq]
      | some name =>
          simpa [tokens, source, isUndefined, mem_literal, undefinedToken_eq, eq_dollar_append,
            strings] using hevent
  | var name _ =>
      simpa [tokens, source, isUndefined, mem_literal, undefinedToken_eq, strings] using h
  | context name type =>
      simpa (disch := decide) [tokens, source, isUndefined, mem_literal, undefinedToken_eq,
        strings, Ty.eq_display, ne_append] using h
  | place p =>
      cases p with
      | absolute _ _ _ | unresolved _ =>
          simp only [tokens, source, Place.source, isUndefined, undefinedToken_not_mem_constant,
            Bool.false_eq_true]
      | relative name =>
          simp (disch := decide) [tokens, source, Place.source, isUndefined, mem_literal,
            undefinedToken_eq, ne_append]
  | time t => simp [tokens, source, isUndefined, TimeOfDay.undefinedToken_not_mem]
  | date d => simp [tokens, source, isUndefined, DateValue.undefinedToken_not_mem h]
  | argMap args => simp [tokens, source, isUndefined, undefinedToken_not_mem_argMapSource h]
  | object fields =>
      simpa [tokens, isUndefined, undefinedToken_eq, eq_comm (a := Token.literal _),
        strings] using h
  | computation op _ _ _ =>
      simpa [tokens, isUndefined, undefinedToken_eq, strings] using h
  | field _ name _ =>
      simpa [tokens, isUndefined, undefinedToken_eq, strings] using h

theorem Device.undefinedToken_not_mem
    (d : Device) :
    undefinedToken ∉ d.tokens := by
  unfold tokens
  split
  next => exact List.not_mem_nil
  next =>
      cases d.id <;> simp (disch := decide) [undefinedToken_eq, ne_append, Text.ne_quote]

theorem Invocation.undefinedToken_not_mem
    {i : Invocation} (h : "$?" ≠ i.channel) :
    undefinedToken ∉ i.tokens := by
  unfold tokens
  split
  next => simpa [undefinedToken_eq] using h
  next =>
      split <;> simp (disch := decide) [undefinedToken_eq, ne_append, String.append_assoc, h]

theorem Filter.undefinedToken_not_mem
    {f : Filter} (h : "$?" ∉ f.strings) :
    undefinedToken ∉ f.tokens := by
  cases f with
  | conj _ _ | disj _ _ | neg _ _ => exact List.not_mem_nil
  | always | never => simp [tokens, source, mem_literal, undefinedToken_eq]
  | atom _ name op _ _ | compute _ _ op _ _ | dontCare _ name =>
      simpa [tokens, source, mem_literal, undefinedToken_eq, strings] using h
  | external call _ =>
      exact Invocation.undefinedToken_not_mem (by simpa [strings] using h)

theorem Selected.undefinedToken_not_mem
    {s : Selected} (h : "$?" ∉ s.strings) :
    undefinedToken ∉ s.tokens := by
  obtain ⟨column, label, types⟩ := s
  cases column <;> cases label <;>
    simpa [Selected.tokens, Column.tokens, undefinedToken_eq, eq_comm (a := Token.literal _),
      Ty.eq_display, strings, Column.strings] using h

theorem Clause.undefinedToken_not_mem
    {c : Clause} (h : "$?" ∉ c.strings) :
    undefinedToken ∉ c.tokens := by
  cases c with
  | filter _ | question _ | sort _ _ | index _ | slice _ _ => exact List.not_mem_nil
  | monitor args => simpa [tokens, undefinedToken_mem_map, strings] using h
  | projection args columns labels =>
      have hlabels : (labels.take columns.length).filterMap id ⊆ labels.filterMap id :=
        ((List.take_sublist _ _).filterMap _).subset
      rw [strings, List.mem_append, not_or] at h
      rw [tokens, List.mem_append, undefinedToken_mem_map, undefinedToken_mem_map, not_or]
      exact ⟨h.1, fun hmem => h.2 (hlabels hmem)⟩
  | selection elements =>
      simp only [strings, List.mem_flatMap, not_exists, not_and] at h
      simp only [tokens, List.mem_flatMap, not_exists, not_and]
      exact fun element helement => Selected.undefinedToken_not_mem (h element helement)
  | named name => simpa [tokens, undefinedToken_eq, strings] using h
  | aggregation field op _ => simpa [tokens, undefinedToken_eq, strings] using h

theorem Argument.undefinedToken_not_mem
    {a : Argument} (h : "$?" ∉ a.strings) :
    undefinedToken ∉ a.source.toList := by
  rw [strings, List.mem_cons, not_or, ← Ty.eq_display] at h
  cases hdirection : a.direction <;>
    simp [source, hdirection, Direction.words, mem_literal, undefinedToken_eq, h]

theorem undefinedToken_not_mem_arguments
    {args : List Argument} (h : "$?" ∉ args.flatMap Argument.strings) :
    undefinedToken ∉ args.flatMap fun a => a.source.toList := by
  simp only [List.mem_flatMap, not_exists, not_and] at h ⊢
  exact fun a ha => Argument.undefinedToken_not_mem (h a ha)

theorem Signature.undefinedToken_not_mem
    {s : Signature} (h : "$?" ∉ s.strings) :
    undefinedToken ∉ s.source.toList := by
  rw [strings, List.mem_cons, not_or] at h
  have hargs := undefinedToken_not_mem_arguments h.2
  have htype : "$?" ≠ s.type.name := by
    cases s.type <;> decide
  simp only [source, toList_ofParts, List.flatMap_append, List.mem_append, not_or]
  refine ⟨⟨⟨⟨⟨?monitorable, ?list⟩, ?call⟩, ?requirements⟩, ?annotations⟩, ?stop⟩
  case monitorable | list => split <;> simp [mem_literal, undefinedToken_eq]
  case call =>
    simpa (disch := decide) [not_mem_mark undefinedToken_isMark,
      mem_joined undefinedToken_isMark, mem_literal, undefinedToken_eq, htype, h.1,
      List.flatMap_map] using hargs
  case requirements =>
    split <;>
      simp (disch := decide) [not_mem_layout undefinedToken_isMark, mem_literal,
        undefinedToken_eq, String.append_assoc, ne_append]
  case annotations =>
    simp (disch := decide) [List.flatMap_assoc, not_mem_layout undefinedToken_isMark,
      mem_literal, undefinedToken_eq, String.append_assoc, ne_append]
  case stop => simp [mem_literal, undefinedToken_eq]

/-- Only an undefined value is written with the word for it. -/
theorem Node.undefinedToken_mem
    {n : Node} (h : "$?" ∉ n.strings ∧ "?" ∉ n.strings) :
    undefinedToken ∈ n.tokens ↔ n.isUndefined = true := by
  -- Apart from the value itself, a node is written with its strings and with words that end in
  -- one of them, so that `?` matters only behind a dollar sign.
  cases n with
  | value v => exact Value.undefinedToken_mem h.1 h.2
  | filter f => simp [tokens, isUndefined, Filter.undefinedToken_not_mem h.1]
  | param p => simpa [tokens, isUndefined, undefinedToken_eq, strings] using h.1
  | device d => simp [tokens, isUndefined, Device.undefinedToken_not_mem]
  | builtinSelector | program _ | permissionRule _ => simp [tokens, isUndefined]
  | invocation i =>
      have hi : "$?" ≠ i.channel := by simpa [strings] using h.1
      simp [tokens, isUndefined, Invocation.undefinedToken_not_mem hi]
  | expression e =>
      cases e with
      | call _ name _ =>
          simpa [tokens, Expression.tokens, isUndefined, undefinedToken_eq, strings,
            Expression.strings] using h.1
      | clause _ _ c =>
          simp [tokens, Expression.tokens, isUndefined, Clause.undefinedToken_not_mem h.1]
      | invocation _ _ | chain _ _ | join _ _ _ => simp [tokens, Expression.tokens, isUndefined]
  | statement s =>
      cases s with
      | assign name _ _ =>
          simpa [tokens, Statement.tokens, isUndefined, undefinedToken_eq, strings,
            Statement.strings] using h.1
      | expression _ | ret _ _ => simp [tokens, Statement.tokens, isUndefined]
  | function s => simp [tokens, isUndefined, Signature.undefinedToken_not_mem h.1]
  | classDef c =>
      simp (disch := decide) [tokens, ClassDef.tokens, isUndefined, undefinedToken_eq, ne_append,
        eq_comm (a := Token.literal _)]
  | declaration d =>
      rw [strings, List.mem_cons, not_or] at h
      have hargs := undefinedToken_not_mem_arguments h.1.2
      simp only [tokens, FunctionDeclaration.tokens, isUndefined, undefinedToken_eq,
        List.mem_cons, h.1.1, hargs, or_self, Bool.false_eq_true]
  | permissionFunction f =>
      cases f <;>
        simp (disch := decide) [tokens, PermissionFunction.tokens, isUndefined, undefinedToken_eq,
          String.append_assoc, ne_append]
  | control c =>
      obtain ⟨intent, range⟩ := c
      cases intent with
      | special name =>
          simpa [tokens, ControlCommand.tokens, isUndefined, undefinedToken_eq, eq_dollar_append,
            strings, ControlIntent.strings] using h.2
      | choice index =>
          simp only [tokens, ControlCommand.tokens, numberSource, isUndefined,
            undefinedToken_not_mem_constant, Bool.false_eq_true]
      | answer _ => simp [tokens, ControlCommand.tokens, isUndefined]
  | dialogue s =>
      simpa (disch := decide) [tokens, DialogueState.tokens, isUndefined, undefinedToken_eq,
        String.append_assoc, ne_append, undefinedToken_mem_map, strings] using h.1
  | historyItem item =>
      obtain ⟨statement, results, confirm, range, _⟩ := item
      cases results with
      | none => simp [tokens, HistoryItem.tokens, isUndefined]
      | some results =>
          simpa [tokens, HistoryItem.tokens, isUndefined, undefinedToken_eq,
            eq_comm (a := Token.literal _), strings, HistoryItem.strings] using h.1

/-- The visitor and the source see the same: something is left to be asked for if and only if the
source shows that it is. -/
theorem Input.isExecutable_eq_false_iff
    {input : Input} (h : ∀ n ∈ input.tree.nodes, "$?" ∉ n.strings ∧ "?" ∉ n.strings) :
    input.tree.isExecutable = false ↔ .literal "$?" ∈ input.source.toList := by
  rw [show Token.literal "$?" = undefinedToken from rfl, Input.mem_source undefinedToken_isMark,
    ← Bool.not_eq_true, Tree.isExecutable_iff, Tree.tokens, List.mem_flatMap]
  simp only [not_forall, Bool.not_eq_false, exists_prop]
  exact exists_congr fun n => and_congr_right fun hn => (Node.undefinedToken_mem (h n hn)).symm

/-- The mails with one subject or another that is still to be asked for. -/
def Input.mailsAbout : Input :=
  .program ⟨[], [], [.expression ⟨.clause {} (.invocation {} ⟨.device (.ofKind "com.mail"), "inbox",
    [], none, none⟩) (.filter (.disj none [.atom none "subject" "==" (.string "$?") none,
      .atom none "subject" "==" (.undefined true) none])), none⟩], none⟩

theorem Input.mailsAbout_isExecutable_iff :
    (∀ n ∈ mailsAbout.tree.nodes, "$?" ∉ n.strings ∧ "?" ∉ n.strings) ∧
      (mailsAbout.tree.isExecutable = false ↔
        .literal "$?" ∈ mailsAbout.source.toList) := by
  have h : ∀ n ∈ mailsAbout.tree.nodes, "$?" ∉ n.strings ∧ "?" ∉ n.strings := by
    decide
  exact ⟨h, isExecutable_eq_false_iff h⟩

end SkillLang
