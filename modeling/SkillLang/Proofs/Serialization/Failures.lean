import SkillLang.Proofs.Serialization.Segments
import SkillLang.Proofs.Source.Contents
import SkillLang.Serialization.Basic

/-!
# Failures to serialize

An allocator finds words for every constant that has an entity, so that only limits stop it.
Among the constants of an input two have no entity: a string-like entity without an
identifier, and a place that is known by its name only.  Places by name have words of their
own to be written in, but an allocator is never done without finding something.
-/

namespace SkillLang

/-! ## Reasons -/

/-- A limit has been reached, given the entities that there are in the end. -/
inductive SerializeError.IsLimit (entities : EntityMap) : SerializeError → Prop
  | tokens
      (hcount : Limits.maxTokens < count) :
      IsLimit entities (.tooManyTokens count)
  | entities
      (hall : ∀ n < Limits.maxEntitiesPerType, Entity.numbered type n ∈ entities.keys) :
      IsLimit entities (.entity (.limitExceeded type))

/-- The constant has no entity at a moment, and the error says so. -/
def Constant.Refused (now : Moment) (c : Constant) (e : SerializeError) : Prop :=
  Entity.ofValue? c.entityType now c.value = none ∧
    e = .entity (.invalidValue c.entityType c.value.source.text)

namespace Serialization

open SkillLang.Action EntityFinder Allocator

/-- The allocator has started without entities and works at a moment. -/
structure IsNumbering (now : Moment) (a : Allocator) : Prop where
  isDense : IsDense a
  now_eq : a.now = now

/-- An allocator is left that goes on, and an error has its reason in a limit or in one of some
tokens. -/
def Explains {α : Type} (now : Moment) (tokens : List Token) (result : Except SerializeError α)
    (finder : EntityFinder) : Prop :=
  ∃ a, finder = .allocator a ∧ IsNumbering now a ∧
    ∀ e, result = .error e →
      e.IsLimit a.entities ∨ ∃ c, .constant c ∈ tokens ∧ c.Refused now e

variable {now : Moment} {a : Allocator} {tokens : List Token} {α β : Type}

theorem IsNumbering.of
    (explicitStrings : Bool) (now : Moment) :
    IsNumbering now (.of [] explicitStrings now) where
  isDense := isDense_of_nil explicitStrings now
  now_eq := rfl

theorem IsNumbering.finds
    (ha : IsNumbering now a) {type : String} {v : Value} {a' : Allocator}
    {result : Except EntityError (Option (List String))} (h : a.Finds type v result a') :
    IsNumbering now a' := by
  rcases h.eq_or_issued with rfl | ⟨entity, -, rfl⟩
  · exact ha
  · exact ⟨ha.isDense.issued type entity, ha.now_eq⟩

theorem explains_pure
    (ha : IsNumbering now a) (out : α) :
    (pure out : Serialize α).Ends (.allocator a) (Explains now tokens) := by
  refine ends_pure ⟨a, rfl, ha, ?_⟩
  intro e he
  cases he

theorem explains_throw
    (ha : IsNumbering now a) {e : SerializeError} (he : e.IsLimit a.entities) :
    (throw e : Serialize α).Ends (.allocator a) (Explains now tokens) := by
  refine ends_throw ⟨a, rfl, ha, ?_⟩
  rintro _ ⟨⟩
  exact .inl he

theorem explains_bind
    {first : Serialize α} {f : α → Serialize β}
    (hfirst : first.Ends (.allocator a) (Explains now tokens))
    (hsecond : ∀ out a', IsNumbering now a' →
      (f out).Ends (.allocator a') (Explains now tokens)) :
    (first >>= f).Ends (.allocator a) (Explains now tokens) := by
  refine hfirst.bind ?_ ?_
  · rintro out finder ⟨a', rfl, ha', -⟩
    exact hsecond out a' ha'
  · rintro e finder ⟨a', rfl, ha', hreason⟩
    refine ⟨a', rfl, ha', ?_⟩
    rintro _ ⟨⟩
    exact hreason e rfl

/-- A refused value has no entity, or its type has as many entities as there may be. -/
theorem explains_refusal
    (ha : IsNumbering now a) {c : Constant} (hc : .constant c ∈ tokens) {a' : Allocator}
    {e : EntityError} (h : a.Finds c.entityType c.value (.error e) a') :
    (SerializeError.entity e).IsLimit a'.entities ∨
      ∃ c, .constant c ∈ tokens ∧ c.Refused now (.entity e) := by
  obtain rfl := h.eq_of_error
  rcases h.refused with ⟨hnone, rfl⟩ | ⟨hlimit, rfl⟩
  · rw [ha.now_eq] at hnone
    exact .inr ⟨c, hc, hnone, rfl⟩
  · refine .inl (.entities fun n hn => ?_)
    exact (ha.isDense _).mpr ⟨c.entityType, n, Nat.lt_of_lt_of_le hn hlimit, rfl⟩

theorem find_bind_explains
    (ha : IsNumbering now a) {c : Constant} (hc : .constant c ∈ tokens) (options : FindOptions)
    {f : Option (List String) → Serialize (List String)}
    (hf : ∀ words, f (some words) = pure words) :
    (find c.entityType c.value options >>= f).Ends (.allocator a) (Explains now tokens) := by
  have hfind :
      (find c.entityType c.value options).Ends (.allocator a) fun result finder =>
        Explains now tokens result finder ∧ result ≠ .ok none := by
    refine Ends.mapError (EntityFinder.find_ends c.entityType c.value options) ?_
    rintro result finder ⟨a', rfl, hfinds⟩
    refine ⟨⟨a', rfl, ha.finds hfinds, ?_⟩, ?_⟩
    · intro e he
      cases result with
      | ok _ => cases he
      | error e =>
          cases he
          exact explains_refusal ha hc hfinds
    · rintro hnone
      cases result with
      | ok found =>
          cases hnone
          exact not_finds_none hfinds
      | error _ => cases hnone
  refine hfind.bind ?_ ?_
  -- An allocator never comes back without words, so that no others are ever taken.
  · rintro (_ | words) finder ⟨⟨a', rfl, ha', -⟩, hsome⟩
    · exact absurd rfl hsome
    · rw [hf]
      exact explains_pure ha' words
  · rintro e finder ⟨⟨a', rfl, ha', hreason⟩, -⟩
    refine ⟨a', rfl, ha', ?_⟩
    rintro _ ⟨⟩
    exact hreason e rfl

theorem tokenWords_explains
    (ha : IsNumbering now a) {t : Token} (ht : t ∈ tokens) (options : FindOptions) :
    (tokenWords t options).Ends (.allocator a) (Explains now tokens) := by
  cases t with
  | literal _ | layout _ => exact explains_pure ha _
  | constant c =>
      rw [tokenWords, constantWords]
      split
      all_goals exact find_bind_explains ha ht _ fun _ => rfl

theorem addWords_explains
    (ha : IsNumbering now a) (options : FindOptions) {rest : List Token} (hrest : rest ⊆ tokens)
    (words : Array String) :
    (addWords options rest words).Ends (.allocator a) (Explains now tokens) := by
  induction rest generalizing a words with
  | nil => exact explains_pure ha words
  | cons t rest ih =>
      obtain ⟨ht, hrest⟩ := List.cons_subset.mp hrest
      rw [addWords]
      refine explains_bind (tokenWords_explains ha ht options) fun new a' ha' => ?_
      dsimp only
      split
      next hcount =>
          exact ends_record_bind
            (explains_bind (explains_throw ha' (.tokens hcount)) fun _ _ h => ih h hrest _)
      next => exact ih ha' hrest _

theorem words_explains
    (ha : IsNumbering now a) (stream : TokenStream) (includeValue : Bool) :
    (stream.words includeValue).Ends (.allocator a) (Explains now stream.toList) := by
  unfold TokenStream.words
  apply ends_record_bind
  refine explains_bind (addWords_explains ha _ (List.Subset.refl _) #[]) fun out a' ha' => ?_
  exact ends_record_bind (explains_pure ha' out)

end Serialization

/-! ## Constants of inputs -/

/-- There is an entity for the constant at every moment. -/
def Constant.HasEntity (c : Constant) : Prop :=
  ∀ now, Entity.ofValue? c.entityType now c.value ≠ none

/-- The kinds of entities that are nothing but strings. -/
def EntityRef.isStringLike (e : EntityRef) : Bool :=
  ConstantKind.ofEntityKind e.kind != .genericEntity

/-- The node is no string-like entity without an identifier. -/
def Node.isIdentified : Node → Bool
  | .value (.entity e) => !e.isStringLike || e.value.isSome
  | _ => true

theorem Entity.stringKind?_generic
    (kind : String) :
    stringKind? ("GENERIC_ENTITY_" ++ kind) = none := by
  unfold stringKind?
  split
  all_goals first
    | rfl
    | rename_i heq
      exact absurd heq.symm (ne_append (by decide) kind)

/-- A generic entity needs no identifier. -/
theorem EntityRef.hasEntity
    {e : EntityRef} (h : (Node.value (.entity e)).isIdentified = true) :
    Constant.HasEntity ⟨.ofEntityKind e.kind, .entity e⟩ := by
  intro now hnone
  rw [Entity.ofValue?] at hnone
  split at hnone
  next hstring =>
      have hlike : e.isStringLike = true := by
        rw [isStringLike, bne_iff_ne]
        intro hgeneric
        rw [hgeneric, Constant.entityType, Entity.stringKind?_generic] at hstring
        cases hstring
      rw [Node.isIdentified, hlike, Bool.not_true, Bool.false_or] at h
      rw [Option.map_eq_none_iff.mp hnone] at h
      cases h
  next => cases hnone

open TokenStream

theorem constant_not_mem_literal
    (c : Constant) (w : String) :
    .constant c ∉ (literal w).toList := by
  rw [mem_literal]
  nofun

section Constants

variable {c : Constant}

theorem hasEntity_of_numberSource
    {n : Int} (h : .constant c ∈ (numberSource n).toList) :
    c.HasEntity := by
  cases (mem_constant _ _).mp h
  exact nofun

theorem TimeOfDay.hasEntity
    {time : TimeOfDay} (h : .constant c ∈ time.source.toList) :
    c.HasEntity := by
  cases time with
  | absolute hour minute second =>
      cases (mem_constant _ _).mp h
      exact nofun
  | relative name => exact absurd h (constant_not_mem_literal c _)

theorem DateValue.hasEntity
    {d : DateValue} (h : .constant c ∈ d.source.toList) :
    c.HasEntity := by
  have hpiece (n : Option Int) (hn : .constant c ∈ (pieceSource n).toList) : c.HasEntity := by
    cases n with
    | none => cases hn
    | some n => exact hasEntity_of_numberSource hn
  have htime (time : Option TimeOfDay) (ht : .constant c ∈ (timeSource time).toList) :
      c.HasEntity := by
    cases time with
    | none => cases ht
    | some time =>
        exact TimeOfDay.hasEntity (by simpa [timeSource, constant_not_mem_literal] using ht)
  cases d with
  | absolute moment =>
      cases (mem_constant _ _).mp h
      exact nofun
  | now => exact absurd h (constant_not_mem_literal c _)
  | edge which unit =>
      cases which <;> simp [source, constant_not_mem_literal] at h
  | piece year month day time =>
      simp only [source, toList_ofParts, List.flatMap_cons, List.flatMap_nil, List.mem_append,
        constant_not_mem_literal, List.not_mem_nil, false_or, or_false] at h
      rcases h with h | h | h | h
      · exact hpiece _ h
      · exact hpiece _ h
      · exact hpiece _ h
      · exact htime _ h
  | weekday day time =>
      simp only [source, toList_ofParts, List.flatMap_cons, List.flatMap_nil, List.mem_append,
        constant_not_mem_literal, List.not_mem_nil, false_or, or_false] at h
      exact htime _ h

theorem constant_not_mem_argMapSource
    (c : Constant) (args : List (String × Ty)) :
    .constant c ∉ (argMapSource args).toList := by
  simp [argMapSource, mem_join (constant_not_mem_literal c _), constant_not_mem_literal]

theorem Value.hasEntity
    {v : Value} (h : .constant c ∈ v.tokens) (hv : (Node.value v).isIdentified = true) :
    c.HasEntity ∨ ∃ name, v = .place (.unresolved name) ∧ c = ⟨.location, v⟩ := by
  cases v with
  | string _ | number _ | measure _ _ | currency _ _ =>
      cases (mem_constant _ _).mp h
      exact .inl nofun
  | entity e =>
      cases (mem_constant _ _).mp h
      exact .inl (EntityRef.hasEntity hv)
  | place p =>
      cases p with
      | absolute _ _ _ =>
          cases (mem_constant _ _).mp h
          exact .inl nofun
      | relative name => exact absurd h (constant_not_mem_literal c _)
      | unresolved name =>
          cases (mem_constant _ _).mp h
          exact .inr ⟨name, rfl, rfl⟩
  | time t => exact .inl (TimeOfDay.hasEntity h)
  | date d => exact .inl (DateValue.hasEntity h)
  | argMap args => exact absurd h (constant_not_mem_argMapSource c args)
  | boolean b => cases b <;> exact absurd h (constant_not_mem_literal c _)
  | var _ _ | undefined _ | event _ => exact absurd h (constant_not_mem_literal c _)
  | enum _ | context _ _ => simp [tokens, source, constant_not_mem_literal] at h
  | array _ _ | filtered _ _ _ | computation _ _ _ _ | field _ _ _ | object _ =>
      simp [tokens] at h

theorem Argument.constant_not_mem
    (c : Constant) (a : Argument) :
    .constant c ∉ a.source.toList := by
  cases hdirection : a.direction <;>
    simp [source, hdirection, Direction.words, constant_not_mem_literal]

theorem Signature.constant_not_mem
    (c : Constant) (s : Signature) :
    .constant c ∉ s.source.toList := by
  have hlayout (l : Layout) : .constant c ∉ (layout l).toList := by simp [layout]
  simp only [source, toList_ofParts, List.flatMap_append, List.mem_append, not_or]
  refine ⟨⟨⟨⟨⟨?monitorable, ?list⟩, ?call⟩, ?requirements⟩, ?annotations⟩, ?stop⟩
  case call =>
    simp [mem_join (constant_not_mem_literal c _), constant_not_mem_literal,
      Argument.constant_not_mem]
  case annotations => simp [List.flatMap_assoc, constant_not_mem_literal, hlayout]
  case stop => simp [constant_not_mem_literal]
  all_goals split <;> simp [constant_not_mem_literal, hlayout]

theorem Device.constant_not_mem
    (c : Constant) (d : Device) :
    .constant c ∉ d.tokens := by
  unfold tokens
  split
  next => exact List.not_mem_nil
  next => cases d.id <;> simp

theorem Invocation.constant_not_mem
    (c : Constant) (i : Invocation) :
    .constant c ∉ i.tokens := by
  unfold tokens
  split
  next => simp
  next => split <;> simp

theorem Filter.constant_not_mem
    (c : Constant) (f : Filter) :
    .constant c ∉ f.tokens := by
  cases f with
  | conj _ _ | disj _ _ | neg _ _ => exact List.not_mem_nil
  | always | never => exact constant_not_mem_literal c _
  | atom _ _ _ _ _ | compute _ _ _ _ _ | dontCare _ _ =>
      simp [tokens, source, constant_not_mem_literal]
  | external call _ => exact Invocation.constant_not_mem c call

theorem Clause.constant_not_mem
    (c : Constant) (clause : Clause) :
    .constant c ∉ clause.tokens := by
  cases clause with
  | selection elements =>
      simp only [tokens, List.mem_flatMap, not_exists, not_and]
      rintro ⟨column, label, types⟩ -
      cases column <;> simp [Selected.tokens, Column.tokens]
  | _ => simp [tokens]

/-- Besides values, only choices are written with constants. -/
theorem Node.hasEntity
    {n : Node} (h : .constant c ∈ n.tokens) (hn : n.isIdentified = true) :
    c.HasEntity ∨
      ∃ name, n = .value (.place (.unresolved name)) ∧
        c = ⟨.location, .place (.unresolved name)⟩ := by
  cases n with
  | value v =>
      rcases Value.hasEntity h hn with hentity | ⟨name, rfl, rfl⟩
      · exact .inl hentity
      · exact .inr ⟨name, rfl, rfl⟩
  | control command =>
      obtain ⟨intent, range⟩ := command
      cases intent with
      | choice index => exact .inl (hasEntity_of_numberSource h)
      | special _ | answer _ => simp [tokens, ControlCommand.tokens] at h
  | filter f => exact absurd h (Filter.constant_not_mem c f)
  | invocation i => exact absurd h (Invocation.constant_not_mem c i)
  | function s => exact absurd h (Signature.constant_not_mem c s)
  | expression e =>
      cases e with
      | clause _ _ clause => exact absurd h (Clause.constant_not_mem c clause)
      | _ => simp [tokens, Expression.tokens] at h
  | device d => exact absurd h (Device.constant_not_mem c d)
  | statement s => cases s <;> simp [tokens, Statement.tokens] at h
  | declaration d =>
      simp [tokens, FunctionDeclaration.tokens, Argument.constant_not_mem] at h
  | permissionFunction f => cases f <;> simp [tokens, PermissionFunction.tokens] at h
  | historyItem item =>
      obtain ⟨statement, results, confirm, range, _⟩ := item
      cases results <;> simp [tokens, HistoryItem.tokens] at h
  | param _ | builtinSelector | classDef _ | program _ | permissionRule _ | dialogue _ =>
      simp [tokens, ClassDef.tokens, DialogueState.tokens] at h

end Constants

/-! ## Inputs -/

open SkillLang.Action Serialization

/-- Without compatibility, words are those of the current source. -/
theorem Input.serialize_words
    (input : Input) {options : SerializeOptions} (hcompatibility : options.compatibility = none) :
    input.serialize .words options = do
      Action.record (.debug "Serializing input" [("kind", input.kind), ("syntax", "tokenized")])
      let words ← input.source.words options.includeValue
      return .words words := by
  have hlegacy : usesLegacy .words options = pure false := by
    rw [usesLegacy, if_neg (by decide), wantsLegacy, hcompatibility]
  rw [serialize, hlegacy]
  simp [streamOf, OutputFormat.isWords, OutputFormat.name]

theorem Input.serialize_ends
    (input : Input) {options : SerializeOptions} (hcompatibility : options.compatibility = none) :
    (input.serialize .words options).Ends options.freshFinder fun result finder =>
      (∃ words, result = .ok (.words words)) ∨
        ∃ e, result = .error e ∧ (e.IsLimit finder.entities ∨
          ∃ c, .constant c ∈ input.source.toList ∧ c.Refused options.referenceTime e) := by
  rw [input.serialize_words hcompatibility]
  apply ends_record_bind
  have hfresh := IsNumbering.of options.explicitStrings options.referenceTime
  refine (words_explains hfresh input.source options.includeValue).bind ?_ ?_
  · intro words finder _
    exact ends_pure (.inl ⟨words, rfl⟩)
  · rintro e finder ⟨a, rfl, -, hreason⟩
    exact .inr ⟨e, rfl, hreason e rfl⟩

/-- Where all string-like entities have identifiers, a constant without entity is a place that is
known by its name only. -/
theorem Input.exists_place_of_refused
    {input : Input} (hidentified : ∀ n ∈ input.tree.nodes, n.isIdentified = true) {c : Constant}
    (hc : .constant c ∈ input.source.toList) {now : Moment} {e : SerializeError}
    (h : c.Refused now e) :
    ∃ name, .value (.place (.unresolved name)) ∈ input.tree.nodes ∧
      e = .entity (.invalidValue "LOCATION" (Value.place (.unresolved name)).source.text) := by
  rw [Input.mem_source rfl, Tree.tokens, List.mem_flatMap] at hc
  obtain ⟨n, hn, hmem⟩ := hc
  rcases Node.hasEntity hmem (hidentified n hn) with hentity | ⟨name, rfl, rfl⟩
  · exact absurd h.1 (hentity now)
  · exact ⟨name, hn, h.2⟩

/-- An input whose string-like entities have identifiers is written as words by a fresh allocator
unless a limit is reached or there is a place that is known by its name only. -/
theorem Input.serialize_words_fails_on_limits
    {input : Input} {options : SerializeOptions} (hcompatibility : options.compatibility = none)
    (hidentified : ∀ n ∈ input.tree.nodes, n.isIdentified = true) (log : Array Event) :
    let run := (input.serialize .words options).runIn ⟨options.freshFinder, log⟩
    (∃ words, run.1 = .ok (.words words)) ∨
      ∃ e, run.1 = .error e ∧ (e.IsLimit run.2.state.entities ∨
        ∃ name, .value (.place (.unresolved name)) ∈ input.tree.nodes ∧
          e = .entity (.invalidValue "LOCATION" (Value.place (.unresolved name)).source.text)) := by
  intro run
  rcases input.serialize_ends hcompatibility ⟨options.freshFinder, log⟩ rfl with
    hok | ⟨e, he, hlimit | ⟨c, hc, hrefused⟩⟩
  · exact .inl hok
  · exact .inr ⟨e, he, .inl hlimit⟩
  · exact .inr ⟨e, he, .inr (input.exists_place_of_refused hidentified hc hrefused)⟩

/-! ### Invitations -/

namespace Invitation

/-- Somebody is invited to a place. -/
def input (place : Place) : Input :=
  .control ⟨.answer (.array [.entity ⟨some "ann", "tt:username", none⟩, .place place] none), none⟩

def options : SerializeOptions :=
  ⟨none, none, ⟨0, 0, 0⟩, false, false⟩

def run (place : Place) : Except SerializeError Serialized × Session EntityFinder :=
  ((input place).serialize .words options).runIn ⟨options.freshFinder, #[]⟩

end Invitation

open Invitation

/-- A place by name is refused, although there are words to write it in. -/
theorem invitation_refused :
    let place := Place.unresolved "town hall"
    (∀ n ∈ (input place).tree.nodes, n.isIdentified = true) ∧
      ¬ ((∃ words, (run place).1 = .ok words) ∨
        ∃ e, (run place).1 = .error e ∧ e.IsLimit (run place).2.state.entities) := by
  intro place
  have hrun : (run place).1 =
      .error (.entity (.invalidValue "LOCATION" (Value.place place).source.text)) := rfl
  refine ⟨by decide, ?_⟩
  rw [hrun]
  rintro (⟨words, ⟨⟩⟩ | ⟨e, ⟨⟩, ⟨⟩⟩)

theorem invitation_fails_on_limits :
    let place := Place.absolute 52 13 (some "Berlin")
    (∀ n ∈ (input place).tree.nodes, n.isIdentified = true) ∧
      ((∃ words, (run place).1 = .ok (.words words)) ∨
        ∃ e, (run place).1 = .error e ∧ (e.IsLimit (run place).2.state.entities ∨
          ∃ name, .value (.place (.unresolved name)) ∈ (input place).tree.nodes ∧
            e = .entity
              (.invalidValue "LOCATION" (Value.place (.unresolved name)).source.text))) := by
  intro place
  have hidentified : ∀ n ∈ (input place).tree.nodes, n.isIdentified = true := by decide
  exact ⟨hidentified, (input place).serialize_words_fails_on_limits rfl hidentified #[]⟩

end SkillLang
