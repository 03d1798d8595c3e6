import SkillLang.Proofs.Source.ReadableBrackets

/-!
# Readable expressions

The marks at which an expression falls apart depend on its priority: one that holds tightly has
none of those that hold less tightly.  Brackets in front of an expression reach as far as its
priority lets them, and so whatever follows them belongs to the expression after them.
-/

namespace SkillLang

open TokenTree

/-! ## Trees of a priority -/

/-- The trees of an expression of a priority, which has brackets in front of it or not, have no
mark at which they could fall apart earlier. -/
structure IsLevel (p : Priority) (fronted : Prop) (ts : List TokenTree) : Prop where
  chain : Priority.join.rank ≤ p.rank → Avoids ["=>"] ts
  join : Priority.filter.rank ≤ p.rank → Avoids ["join"] ts
  front : Priority.filter.rank ≤ p.rank → fronted ∨ frontBrackets? ts = none
  filter : Priority.projection.rank ≤ p.rank → fronted ∨ Avoids ["filter"] ts
  named : Priority.index.rank ≤ p.rank → Avoids ["as"] ts
  last : Priority.index.rank ≤ p.rank →
    ∃ before t, ts = before ++ [t] ∧ Avoids ["new"] [t]
  field : fieldOf? ts = none

namespace IsLevel

variable {p q : Priority} {fronted : Prop} {ts : List TokenTree}

theorem group
    (p : Priority) (fronted : Prop) (ts : List TokenTree) :
    IsLevel p fronted [group .round ts] :=
  { chain := fun _ => avoids_group _ _
    join := fun _ => avoids_group _ _
    front := fun _ => .inr rfl
    filter := fun _ => .inr (avoids_group _ _)
    named := fun _ => avoids_group _ _
    last := fun _ => ⟨[], _, rfl, avoids_group _ _⟩
    field := rfl }

theorem mono
    (h : IsLevel p fronted ts) (hq : q.rank ≤ p.rank) :
    IsLevel q fronted ts :=
  { chain := fun hrank => h.chain (hrank.trans hq)
    join := fun hrank => h.join (hrank.trans hq)
    front := fun hrank => h.front (hrank.trans hq)
    filter := fun hrank => h.filter (hrank.trans hq)
    named := fun hrank => h.named (hrank.trans hq)
    last := fun hrank => h.last (hrank.trans hq)
    field := h.field }

theorem imp
    (h : IsLevel p fronted ts) {fronted' : Prop} (himp : fronted → fronted') :
    IsLevel p fronted' ts :=
  { h with
    front := fun hrank => (h.front hrank).imp_left himp
    filter := fun hrank => (h.filter hrank).imp_left himp }

end IsLevel

/-- Where no such part stands, another word than `of` behind the trees does not make one. -/
theorem beforeOf?_append
    {α : Type} {part? : TokenTree → Option α} {ts : List TokenTree}
    (h : beforeOf? part? ts = none) (hne : ts ≠ []) {t : TokenTree} (ht : t ≠ word "of")
    (us : List TokenTree) :
    beforeOf? part? (ts ++ t :: us) = none := by
  match ts with
  | [first] =>
      change beforeOf? part? (first :: t :: us) = none
      unfold beforeOf?
      split
      next w rest heq =>
          cases heq
          exact if_neg fun hw => ht (congrArg word hw)
      next => rfl
  | first :: second :: rest =>
      change beforeOf? part? (first :: second :: (rest ++ t :: us)) = none
      unfold beforeOf? at h ⊢
      split
      next w more heq =>
          cases heq
          dsimp only at h
          split
          next hw =>
              rw [if_pos hw, Option.map_eq_none_iff] at h
              rw [h, Option.map_none]
          next => rfl
      next => rfl

theorem word_ne
    {w v : String} (h : w ≠ v) :
    word w ≠ word v := by
  intro heq
  cases heq
  exact h rfl

/-! ## Reading at a level -/

section Reading

variable {ts : List TokenTree} {e : Expression}

theorem read_of_join
    (hchain : Avoids ["=>"] ts)
    (h : ∀ᶠ n in Filter.atTop, readJoin (readers n) (readExpression n) ts = some e) :
    ∀ᶠ n in Filter.atTop, readExpression n ts = some e := by
  refine eventually_of_succ ?_
  filter_upwards [h] with n hn
  rw [readExpression, readChain, pieces_self (isMark_eq_false (List.mem_singleton_self _) hchain)]
  exact hn

theorem read_of_clauses
    (hchain : Avoids ["=>"] ts) (hjoin : Avoids ["join"] ts)
    (h : ∀ᶠ n in Filter.atTop, readClauses (readers n) (readExpression n) ts = some e) :
    ∀ᶠ n in Filter.atTop, readExpression n ts = some e := by
  refine read_of_join hchain ?_
  filter_upwards [h] with n hn
  rw [readJoin, cutLast?_eq_none hjoin]
  exact hn

theorem read_of_primary
    (havoids : Avoids ["=>", "join", "filter", "as"] ts) (hfront : frontBrackets? ts = none)
    (h : ∀ᶠ n in Filter.atTop, readPrimary (readers n) (readExpression n) ts = some e) :
    ∀ᶠ n in Filter.atTop, readExpression n ts = some e := by
  refine read_of_clauses (havoids.mono (by decide)) (havoids.mono (by decide)) ?_
  filter_upwards [h] with n hn
  rw [readClauses, hfront]
  dsimp only
  rw [cutLast?_eq_none (havoids.mono (by decide))]
  dsimp only
  rw [cutLast?_eq_none (havoids.mono (by decide))]
  exact hn

theorem read_group
    (h : ∀ᶠ n in Filter.atTop, readExpression n ts = some e) :
    ∀ᶠ n in Filter.atTop, readExpression n [group .round ts] = some e :=
  read_of_primary (avoids_group _ _) rfl h

end Reading

/-! ## Expressions of which the trees are known -/

namespace Expression

/-- Brackets stand in front of the expression. -/
def IsFronted (e : Expression) : Prop :=
  e.canonical.hasFrontBrackets = true ∧ e.priority = .projection

structure IsRead (e : Expression) (ts : List TokenTree) : Prop
    extends Readable readExpression statementMarks e.source ts e.canonical where
  level : IsLevel e.priority e.IsFronted ts

namespace IsRead

variable {e : Expression} {ts : List TokenTree}

theorem wrapped
    (h : e.IsRead ts) (needed : Priority) :
    Readable readExpression statementMarks (TokenStream.parens needed e.priority e.source)
      (wrap needed e.priority ts) e.canonical :=
  h.toReadable.wrapped (read_group h.read_eq) needed e.priority

theorem level_wrapped
    (h : e.IsRead ts) (needed : Priority) :
    IsLevel needed (e.IsFronted ∧ needed.rank ≤ Priority.projection.rank)
      (wrap needed e.priority ts) := by
  unfold wrap
  split
  next => exact .group _ _ _
  next hlt =>
      have hle := Nat.not_lt.mp hlt
      refine (h.level.mono hle).imp fun hfronted => ⟨hfronted, ?_⟩
      rwa [hfronted.2] at hle

/-- What no expression that holds most tightly has outside of brackets. -/
theorem of_primary
    (hspells : e.source.Spells ts) (hne : ts ≠ [])
    (havoids : Avoids (statementMarks ++ ["=>", "join", "filter", "as"]) ts)
    (hfront : frontBrackets? ts = none) (hfield : fieldOf? ts = none)
    (hlast : ∃ before t, ts = before ++ [t] ∧ Avoids ["new"] [t])
    (hread : ∀ᶠ n in Filter.atTop,
      readPrimary (readers n) (readExpression n) ts = some e.canonical) :
    e.IsRead ts := by
  have hmarks : Avoids ["=>", "join", "filter", "as"] ts :=
    havoids.mono (List.subset_append_right _ _)
  exact
    { spells := hspells
      ne_nil := hne
      avoids := havoids.mono (List.subset_append_left _ _)
      read_eq := read_of_primary hmarks hfront hread
      level :=
        { chain := fun _ => hmarks.mono (by decide)
          join := fun _ => hmarks.mono (by decide)
          front := fun _ => .inr hfront
          filter := fun _ => .inr (hmarks.mono (by decide))
          named := fun _ => hmarks.mono (by decide)
          last := fun _ => hlast
          field := hfield } }

end IsRead

end Expression

/-! ## Calls -/

theorem ne_of_at
    (name : String) :
    "@" ++ name ≠ "monitor" ∧ "@" ++ name ≠ "sort" := by
  have hmem : "@" ++ name ∉ ["monitor", "sort"] :=
    not_mem_of_afterPrefix? (afterPrefix?_append "@" name) (by decide)
  rw [List.mem_cons, List.mem_singleton, not_or] at hmem
  exact hmem

theorem readPrimary_call
    {ts : List TokenTree} (h : IsCall ts) (r : Readers) (e : List TokenTree → Option Expression) :
    readPrimary r e ts = (r.invocation ts).map (.invocation {}) := by
  cases h with
  | builtin _ => rfl
  | ofDevice h =>
      cases h with
      | ofKind name inputs =>
          have happlied : readPrimary r e [word ("@" ++ name), group .round inputs] =
              readApplied r e ("@" ++ name) inputs := rfl
          obtain ⟨hmonitor, hsort⟩ := ne_of_at name
          rw [happlied, readApplied, if_neg hmonitor, if_neg hsort, afterPrefix?_append]
          rfl
      | onDevice _ _ _ => rfl

theorem Expression.isRead_invocation
    {i : Invocation} {ts : List TokenTree} (hcall : IsCall ts)
    (h : Readable readInvocation filterMarks i.source ts i.canonical) (info : Info) :
    (Expression.invocation info i).IsRead ts := by
  refine .of_primary h.spells h.ne_nil (h.avoids.mono (by decide)) ?_ ?_ ?_ ?_
  · obtain hchannel | ⟨_ | _⟩ := hcall <;> rfl
  · obtain hchannel | ⟨_ | _⟩ := hcall <;> rfl
  · cases hcall with
    | builtin hchannel => exact ⟨[], _, rfl, avoids_of_isName hchannel (by decide)⟩
    | @ofDevice channel _ hdevice =>
        cases hdevice with
        | ofKind name _ => exact ⟨[word ("@" ++ name)], _, rfl, avoids_group _ _⟩
        | onDevice kind choices _ =>
            exact ⟨[word ("@" ++ kind), group .round choices, word ".", word channel], _, rfl,
              avoids_group _ _⟩
  · filter_upwards [h.read_eq] with n hn
    dsimp only [readInvocation] at hn
    rw [readPrimary_call hcall, hn]
    rfl

/-- A word with something in parentheses after it. -/
theorem Expression.IsRead.of_applied
    {e : Expression} {w : String} (hplain : Token.isPlain (.literal w) = true)
    (hw : w ∉ statementMarks ++ ["=>", "join", "filter", "as"]) {s : List TokenStream}
    (hsource : e.source = .ofParts (.literal w :: .literal "(" :: (s ++ [.literal ")"])))
    {inner : List TokenTree} (hs : TokenStream.PartsSpell s inner)
    (hread : ∀ᶠ n in Filter.atTop,
      readApplied (readers n) (readExpression n) w inner = some e.canonical) :
    e.IsRead [word w, group .round inner] := by
  refine .of_primary ?_ (List.cons_ne_nil _ _) ?_ rfl rfl
    ⟨[word w], _, rfl, avoids_group _ _⟩ hread
  · rw [hsource]
    exact (TokenStream.PartsSpell.word hplain (.enclosed .round hs .nil)).ofParts
  · exact avoids_word_cons.mpr ⟨hw, avoids_group _ _⟩

theorem hasInputs
    {params : List Param} {ps : List (List TokenTree)} (h : List.Forall₂ Param.IsRead params ps) :
    ((separated (word ",") ps).isEmpty || hasMark ["="] (separated (word ",") ps)) = true := by
  cases h with
  | nil => rfl
  | @cons p ts _ ps hparam _ =>
      have hmark : hasMark ["="] (separated (word ",") (ts :: ps)) = true := by
        refine hasMark_eq_true fun havoids => ?_
        have hts := avoids_of_separated havoids ts List.mem_cons_self
        obtain ⟨-, us, rfl, -⟩ := hparam
        rw [avoids_word_cons, avoids_word_cons] at hts
        exact hts.2.1 (List.mem_singleton_self _)
      rw [hmark, Bool.or_true]

theorem Expression.isRead_call
    {name : String} (hname : isName name = true) {params : List Param} {ps : List (List TokenTree)}
    (h : List.Forall₂ Param.IsRead params ps) (info : Info) :
    ∃ ts, (Expression.call info name params).IsRead ts := by
  have hinputs := allReadable_params h
  refine ⟨_, .of_applied (isPlain_of_isName hname) (not_mem_of_isName hname (by decide)) rfl
    (.last (hinputs.spells_join rfl)) ?_⟩
  filter_upwards [hinputs.read_items (word ",") rfl (List.mem_singleton_self _)] with n hn
  dsimp only [readParam] at hn
  rw [readApplied, if_neg (ne_of_isName hname (by decide)), if_neg (ne_of_isName hname (by decide)),
    afterPrefix?_of_isName hname (by decide), Option.isSome_none, if_neg Bool.false_ne_true,
    if_pos (hasInputs h), Readers.params, hn]
  rfl

/-! ## Clauses around an expression -/

section Around

variable {e : Expression} {ts : List TokenTree}

theorem Expression.IsRead.not_hasInputs
    (h : e.IsRead ts) :
    (ts.isEmpty || hasMark ["="] ts) = false := by
  rw [List.isEmpty_eq_false_iff.mpr h.ne_nil, hasMark_eq_false (h.avoids.mono (by decide))]
  rfl

theorem Expression.isRead_monitor
    (h : e.IsRead ts) (info : Info) :
    (Expression.clause info e (.monitor none)).IsRead [word "monitor", group .round ts] := by
  refine .of_applied rfl (by decide) rfl (.last h.spells) ?_
  filter_upwards [h.read_eq] with n hn
  rw [readApplied, if_pos rfl, hn]
  rfl

theorem Expression.isRead_monitorOn
    (h : e.IsRead ts) {args : List String} (hargs : args.all isName = true) (info : Info) :
    ∃ ts, (Expression.clause info e (.monitor (some args))).IsRead ts := by
  have hnames : AllReadable (fun _ => readName?) [","] (args.map TokenStream.literal)
      (args.map fun name => [word name]) (args.map id) :=
    allReadable_names (by decide) (fun _ hname _ => readName?_of_isName hname) hargs
  rw [List.map_id] at hnames
  have hhead : (TokenStream.ofParts ["monitor", "(", e.source, ")"]).Spells
      [word "monitor", group .round ts] :=
    (TokenStream.PartsSpell.word rfl (.group .round h.spells .nil)).ofParts
  have hargsSpells : (namesSource args).Spells
      [group .square (separated (word ",") (args.map fun name => [word name]))] :=
    (TokenStream.PartsSpell.group .square (hnames.spells_join rfl) .nil).ofParts
  refine ⟨[word "monitor", group .round ts, word "on", word "new",
    group .square (separated (word ",") (args.map fun name => [word name]))],
    .of_primary ?_ (List.cons_ne_nil _ _) ?_ rfl rfl
      ⟨[word "monitor", group .round ts, word "on", word "new"], _, rfl, avoids_group _ _⟩ ?_⟩
  · exact (TokenStream.PartsSpell.cons hhead
      (.word rfl (.word rfl (.last hargsSpells)))).ofParts
  · rw [avoids_word_cons, avoids_cons, avoids_word_cons, avoids_word_cons]
    exact ⟨by decide, rfl, by decide, by decide, avoids_group _ _⟩
  · filter_upwards [h.read_eq, hnames.read_items (word ",") rfl (List.mem_singleton_self _)] with n
      hn hm
    have hback : backBrackets? [word "monitor", group .round ts, word "on", word "new",
        group .square (separated (word ",") (args.map fun name => [word name]))] = none := rfl
    rw [readPrimary, hback]
    dsimp only
    rw [hn, hm]
    rfl

theorem Expression.isRead_aggregation
    (h : e.IsRead ts) {field op : String} (hop : isName op = true)
    (hfield : field = "*" ∨ isName field = true) (overload : Option (List Ty)) (info : Info) :
    ∃ ts, (Expression.clause info e (.aggregation field op overload)).IsRead ts := by
  obtain rfl | hfield := hfield
  · refine ⟨_, .of_applied (isPlain_of_isName hop) (not_mem_of_isName hop (by decide)) rfl
      (.last h.spells) ?_⟩
    filter_upwards [h.read_eq] with n hn
    rw [readApplied, if_neg (ne_of_isName hop (by decide)), if_neg (ne_of_isName hop (by decide)),
      afterPrefix?_of_isName hop (by decide), Option.isSome_none, if_neg Bool.false_ne_true,
      h.not_hasInputs, if_neg Bool.false_ne_true, h.level.field]
    dsimp only
    rw [hn]
    rfl
  · have hwrapped := h.wrapped .projection
    have hinner : TokenStream.PartsSpell
        [.literal field, "of", .parens .projection e.priority e.source]
        (word field :: word "of" :: wrap .projection e.priority ts) :=
      .word (isPlain_of_isName hfield) (.word rfl (.last hwrapped.spells))
    refine ⟨_, .of_applied (isPlain_of_isName hop) (not_mem_of_isName hop (by decide)) ?_ hinner ?_⟩
    · exact if_neg (mt beq_iff_eq.mp (ne_of_isName hfield (by decide)))
    · filter_upwards [hwrapped.read_eq] with n hn
      have hequals :
          hasMark ["="] (word field :: word "of" :: wrap .projection e.priority ts) = false := by
        refine hasMark_eq_false ?_
        rw [avoids_word_cons, avoids_word_cons]
        exact ⟨not_mem_of_isName hfield (by decide), by decide, hwrapped.avoids.mono (by decide)⟩
      rw [readApplied, if_neg (ne_of_isName hop (by decide)), if_neg (ne_of_isName hop (by decide)),
        afterPrefix?_of_isName hop (by decide), Option.isSome_none, if_neg Bool.false_ne_true,
        hequals, List.isEmpty_cons, Bool.or_false, if_neg Bool.false_ne_true, fieldOf?,
        beforeOf?, if_pos rfl, spelledWord?, Option.map_some]
      dsimp only
      rw [hn]
      rfl

theorem Expression.isRead_sort
    (h : e.IsRead ts) {value : Value} {us : List TokenTree} (hvalue : value.IsRead us)
    (direction : SortDirection) (info : Info) :
    ∃ ts, (Expression.clause info e (.sort value direction)).IsRead ts := by
  have hwrapped := h.wrapped .projection
  have hdirection : Token.isPlain (.literal direction.name) = true ∧
      direction.name ∈ ["asc", "desc"] ∧
      (if direction.name = "asc" then SortDirection.asc else .desc) = direction := by
    cases direction <;> decide
  obtain ⟨hplain, hmem, heq⟩ := hdirection
  have hinner : TokenStream.PartsSpell
      [value.source, .literal direction.name, "of", .parens .projection e.priority e.source]
      (us ++ word direction.name :: word "of" :: wrap .projection e.priority ts) :=
    .cons hvalue.spells (.word hplain (.word rfl (.last hwrapped.spells)))
  refine ⟨_, .of_applied rfl (by decide) rfl hinner ?_⟩
  filter_upwards [hwrapped.read_eq, hvalue.read_eq] with n hn hm
  dsimp only [readValue] at hm
  rw [readApplied, if_neg (by decide), if_pos rfl, readSort,
    cutFirst?_append (hvalue.avoids.mono (by decide)) hmem]
  simp only [Option.bind_some, Option.bind_eq_bind, hn, hm, heq]
  rfl

/-! ### Brackets -/

theorem backBrackets?_concat
    {ts : List TokenTree} (h : ∃ before t, ts = before ++ [t] ∧ Avoids ["new"] [t])
    (inner : List TokenTree) :
    backBrackets? (ts ++ [group .square inner]) = some (ts, inner) := by
  obtain ⟨before, t, rfl, hnew⟩ := h
  have hmark : (t.mark? ["new"]).isSome = false := by
    rw [(avoids_cons.mp hnew).1]
    rfl
  have hreverse : (before ++ [t] ++ [group .square inner]).reverse =
      group .square inner :: t :: before.reverse := by
    simp
  rw [backBrackets?, hreverse]
  dsimp only
  rw [hmark, if_neg Bool.false_ne_true, List.reverse_cons, List.reverse_reverse]

theorem Expression.isRead_back
    (h : e.IsRead ts) {c : Clause} {inner : List TokenTree} (hc : c.IsBack inner) (info : Info) :
    (Expression.clause info e c).IsRead (wrap .index e.priority ts ++ [group .square inner]) := by
  have hwrapped := h.wrapped .index
  have hlevel := h.level_wrapped .index
  have hnotFronted : ¬ (e.IsFronted ∧ Priority.index.rank ≤ Priority.projection.rank) :=
    fun h => absurd h.2 (by decide)
  have hnamed := avoids_union (hlevel.filter (by decide) |>.resolve_left hnotFronted)
    (hlevel.named (by decide))
  have hmarks := avoids_union (hlevel.chain (by decide))
    (avoids_union (hlevel.join (by decide)) hnamed)
  have hgroup : group .square inner ≠ word "of" := nofun
  refine .of_primary (hc.spells _ _ hwrapped.spells)
    (List.append_ne_nil_of_left_ne_nil hwrapped.ne_nil _) ?_ ?_ ?_
    ⟨_, _, rfl, avoids_group _ _⟩ ?_
  · exact avoids_append.mpr ⟨avoids_union hwrapped.avoids hmarks, avoids_group _ _⟩
  · exact beforeOf?_append ((hlevel.front (by decide)).resolve_left hnotFronted)
      hwrapped.ne_nil hgroup []
  · exact beforeOf?_append hlevel.field hwrapped.ne_nil hgroup []
  · filter_upwards [hwrapped.read_eq, hc.read_eq] with n hn hm
    unfold readPrimary
    rw [backBrackets?_concat (hlevel.last (by decide))]
    dsimp only
    rw [hn, hm]
    rfl

/-- Whatever priority the expression has, it stands after the brackets as it is. -/
theorem Expression.isRead_front
    (h : e.IsRead ts) {c : Clause} {inner : List TokenTree} (hc : c.IsFront inner) (info : Info)
    (hpriority : c.priority = .projection)
    (hfronted : (Expression.clause info e c).canonical.hasFrontBrackets = true) :
    (Expression.clause info e c).IsRead
      (group .square inner :: word "of" :: wrap .filter e.priority ts) := by
  have hwrapped := h.wrapped .filter
  have hlevel := h.level_wrapped .filter
  have havoids {marks : List String} (hof : "of" ∉ marks)
      (hmarks : Avoids marks (wrap .filter e.priority ts)) :
      Avoids marks (group .square inner :: word "of" :: wrap .filter e.priority ts) :=
    avoids_cons.mpr ⟨rfl, avoids_word_cons.mpr ⟨hof, hmarks⟩⟩
  have hchain := havoids (by decide) (hlevel.chain (by decide))
  have hjoin := havoids (by decide) (hlevel.join (by decide))
  have hindex : ¬ Priority.index.rank ≤ Priority.projection.rank := by decide
  exact
    { spells := hc.spells _ _ hwrapped.spells
      ne_nil := List.cons_ne_nil _ _
      avoids := havoids (by decide) hwrapped.avoids
      read_eq := by
        refine read_of_clauses hchain hjoin ?_
        filter_upwards [hwrapped.read_eq, hc.read_eq] with n hn hm
        rw [readClauses, frontBrackets?, beforeOf?, if_pos rfl, bracketed?, Option.map_some]
        dsimp only
        rw [hn, hm]
        rfl
      level :=
        { chain := fun _ => hchain
          join := fun _ => hjoin
          front := fun _ => .inl ⟨hfronted, hpriority⟩
          filter := fun _ => .inl ⟨hfronted, hpriority⟩
          named := fun hrank => absurd (hpriority ▸ hrank) hindex
          last := fun hrank => absurd (hpriority ▸ hrank) hindex
          field := rfl } }

/-! ### Filters and names -/

theorem Expression.isRead_filter
    (h : e.IsRead ts) (hfront : e.canonical.hasFrontBrackets = false) {f : Filter}
    {us : List TokenTree} (hf : f.IsRead us) (info : Info) :
    ∃ ts, (Expression.clause info e (.filter f)).IsRead ts := by
  have hwrapped := h.wrapped .filter
  have hlevel := h.level_wrapped .filter
  have hnotFronted : ¬ (e.IsFronted ∧ Priority.filter.rank ≤ Priority.projection.rank) :=
    fun h => Bool.eq_false_iff.mp hfront h.1.1
  have hfilter : Avoids ["filter"] us := hf.avoids.mono (by decide)
  have hof : word "filter" ≠ word "of" := word_ne (by decide)
  -- The expression has no brackets in front; otherwise the reader would look for the filter in
  -- what stands behind them.
  have hbrackets : frontBrackets? (wrap .filter e.priority ts ++ word "filter" :: us) = none :=
    beforeOf?_append ((hlevel.front (by decide)).resolve_left hnotFronted) hwrapped.ne_nil hof us
  have hchain := avoids_cut.mpr
    ⟨hlevel.chain (by decide), (by decide : "filter" ∉ ["=>"]), hf.avoids.mono (by decide)⟩
  have hjoin := avoids_cut.mpr
    ⟨hlevel.join (by decide), (by decide : "filter" ∉ ["join"]), hf.avoids.mono (by decide)⟩
  have hprojection : ¬ Priority.projection.rank ≤ Priority.filter.rank := by decide
  have hindex : ¬ Priority.index.rank ≤ Priority.filter.rank := by decide
  refine ⟨wrap .filter e.priority ts ++ word "filter" :: us, ?_⟩
  exact
    { spells := (TokenStream.PartsSpell.cons hwrapped.spells (.word rfl (.last hf.spells))).ofParts
      ne_nil := List.append_ne_nil_of_left_ne_nil hwrapped.ne_nil _
      avoids := avoids_cut.mpr ⟨hwrapped.avoids, by decide, hf.avoids.mono (by decide)⟩
      read_eq := by
        refine read_of_clauses hchain hjoin ?_
        filter_upwards [hwrapped.read_eq, hf.read_eq] with n hn hm
        dsimp only [readFilter] at hm
        rw [readClauses, hbrackets]
        dsimp only
        rw [cutLast?_append hfilter (List.mem_singleton_self _)]
        dsimp only
        rw [hn, hm]
        rfl
      level :=
        { chain := fun _ => hchain
          join := fun _ => hjoin
          front := fun _ => .inr hbrackets
          filter := fun hrank => absurd hrank hprojection
          named := fun hrank => absurd hrank hindex
          last := fun hrank => absurd hrank hindex
          field := beforeOf?_append hlevel.field hwrapped.ne_nil hof us } }

theorem Expression.isRead_named
    (h : e.IsRead ts) (hfront : e.canonical.hasFrontBrackets = false) {name : String}
    (hname : isName name = true) (info : Info) :
    ∃ ts, (Expression.clause info e (.named name)).IsRead ts := by
  have hwrapped := h.wrapped .projection
  have hlevel := h.level_wrapped .projection
  have hnotFronted : ¬ (e.IsFronted ∧ Priority.projection.rank ≤ Priority.projection.rank) :=
    fun h => Bool.eq_false_iff.mp hfront h.1.1
  have has : Avoids ["as"] [word name] := avoids_of_isName hname (by decide)
  have hof : word "as" ≠ word "of" := word_ne (by decide)
  have hbrackets :
      frontBrackets? (wrap .projection e.priority ts ++ [word "as", word name]) = none :=
    beforeOf?_append ((hlevel.front (by decide)).resolve_left hnotFronted) hwrapped.ne_nil hof _
  have hcut {mark : String} (hmark : isName mark = false) (has : "as" ∉ [mark])
      (hts : Avoids [mark] (wrap .projection e.priority ts)) :
      Avoids [mark] (wrap .projection e.priority ts ++ [word "as", word name]) :=
    avoids_cut.mpr ⟨hts, has, avoids_of_isName hname (by simp [hmark])⟩
  have hchain := hcut (by decide) (by decide) (hlevel.chain (by decide))
  have hjoin := hcut (by decide) (by decide) (hlevel.join (by decide))
  have hfilter := hcut (by decide) (by decide)
    ((hlevel.filter (by decide)).resolve_left hnotFronted)
  have hindex : ¬ Priority.index.rank ≤ Priority.projection.rank := by decide
  refine ⟨wrap .projection e.priority ts ++ [word "as", word name], ?_⟩
  exact
    { spells := (TokenStream.PartsSpell.cons hwrapped.spells
        (.word rfl (.word (isPlain_of_isName hname) .nil))).ofParts
      ne_nil := List.append_ne_nil_of_left_ne_nil hwrapped.ne_nil _
      avoids := avoids_cut.mpr ⟨hwrapped.avoids, by decide, avoids_of_isName hname (by decide)⟩
      read_eq := by
        refine read_of_clauses hchain hjoin ?_
        filter_upwards [hwrapped.read_eq] with n hn
        rw [readClauses, hbrackets]
        dsimp only
        rw [cutLast?_eq_none hfilter]
        dsimp only
        rw [cutLast?_append has (List.mem_singleton_self _)]
        dsimp only
        rw [hn, readName?_of_isName hname]
        rfl
      level :=
        { chain := fun _ => hchain
          join := fun _ => hjoin
          front := fun _ => .inr hbrackets
          filter := fun _ => .inr hfilter
          named := fun hrank => absurd hrank hindex
          last := fun hrank => absurd hrank hindex
          field := beforeOf?_append hlevel.field hwrapped.ne_nil hof [word name] } }

/-! ## Joins and chains -/

theorem Expression.isRead_join
    (h : e.IsRead ts) {rhs : Expression} {us : List TokenTree} (hrhs : rhs.IsRead us)
    (info : Info) :
    ∃ ts, (Expression.join info e rhs).IsRead ts := by
  have hwrapped := h.wrapped .join
  have hlevel := h.level_wrapped .join
  have hrhsWrapped := hrhs.wrapped .filter
  have hrhsLevel := hrhs.level_wrapped .filter
  have hchain := avoids_cut.mpr ⟨hlevel.chain (by decide), (by decide : "join" ∉ ["=>"]),
    hrhsLevel.chain (by decide)⟩
  have hfilter : ¬ Priority.filter.rank ≤ Priority.join.rank := by decide
  have hprojection : ¬ Priority.projection.rank ≤ Priority.join.rank := by decide
  have hindex : ¬ Priority.index.rank ≤ Priority.join.rank := by decide
  refine ⟨wrap .join e.priority ts ++ word "join" :: wrap .filter rhs.priority us, ?_⟩
  exact
    { spells := by
        rw [Expression.source]
        exact (TokenStream.PartsSpell.cons hwrapped.spells
          (.word rfl (.last hrhsWrapped.spells))).ofParts
      ne_nil := List.append_ne_nil_of_left_ne_nil hwrapped.ne_nil _
      avoids := avoids_cut.mpr ⟨hwrapped.avoids, by decide, hrhsWrapped.avoids⟩
      read_eq := by
        refine read_of_join hchain ?_
        filter_upwards [hwrapped.read_eq, hrhsWrapped.read_eq] with n hn hm
        rw [readJoin, cutLast?_append (hrhsLevel.join (by decide)) (List.mem_singleton_self _)]
        dsimp only
        rw [hn, hm]
        rfl
      level :=
        { chain := fun _ => hchain
          join := fun hrank => absurd hrank hfilter
          front := fun hrank => absurd hrank hfilter
          filter := fun hrank => absurd hrank hprojection
          named := fun hrank => absurd hrank hindex
          last := fun hrank => absurd hrank hindex
          field := beforeOf?_append hlevel.field hwrapped.ne_nil (word_ne (by decide)) _ } }

/-- A chain of one element is written like the element. -/
theorem Expression.isRead_single
    (h : e.IsRead ts) (info : Info) :
    (Expression.chain info [e]).IsRead (wrap .join e.priority ts) := by
  have hwrapped := h.wrapped .join
  have hlevel : IsLevel e.priority e.IsFronted (wrap .join e.priority ts) := by
    unfold wrap
    split
    next => exact .group _ _ _
    next => exact h.level
  have hspells := TokenStream.spells_join (t := .literal "=>") rfl
    (.cons hwrapped.spells .nil) (List.forall_mem_singleton.mpr hwrapped.ne_nil)
  exact { hwrapped with spells := hspells, level := hlevel }

end Around

theorem allReadable_elements
    {elements : List Expression} {ps : List (List TokenTree)}
    (h : List.Forall₂ Expression.IsRead elements ps) :
    ∃ qs, AllReadable readExpression (statementMarks ++ ["=>"]) (Expression.elementSources elements)
        qs (Expression.canonicalAll elements) ∧ ∀ q ∈ qs, fieldOf? q = none := by
  induction h with
  | nil => exact ⟨[], .nil, List.forall_mem_nil _⟩
  | cons helement _ ih =>
      obtain ⟨qs, hqs, hfields⟩ := ih
      have hwrapped := helement.wrapped .join
      have hlevel := helement.level_wrapped .join
      refine ⟨_, .cons ?_ hqs, List.forall_mem_cons.mpr ⟨hlevel.field, hfields⟩⟩
      exact { hwrapped with avoids := avoids_union hwrapped.avoids (hlevel.chain (by decide)) }

theorem Expression.isRead_chain
    {first next : Expression} {rest : List Expression} {ps : List (List TokenTree)}
    (h : List.Forall₂ Expression.IsRead (first :: next :: rest) ps) (info : Info) :
    ∃ ts, (Expression.chain info (first :: next :: rest)).IsRead ts := by
  obtain ⟨qs, hqs, hfields⟩ := allReadable_elements h
  match qs, hqs, hfields with
  | p :: q :: qs, hqs, hfields =>
      have hpieces := hqs.pieces_eq (List.cons_ne_nil _ _) (word "=>") rfl
        (List.mem_append_right _ (List.mem_singleton_self _))
      have hne := hqs.ne_nil p List.mem_cons_self
      have hfield := hfields p List.mem_cons_self
      have hnone (mark : Priority) (hmark : Priority.chain.rank < mark.rank) :
          ¬ mark.rank ≤ Priority.chain.rank :=
        Nat.not_le.mpr hmark
      refine ⟨separated (word "=>") (p :: q :: qs), ?_⟩
      exact
        { spells := hqs.spells_join rfl
          ne_nil := List.append_ne_nil_of_left_ne_nil hne _
          avoids := hqs.avoids_separated _ (by decide) (List.subset_append_left _ _)
          read_eq := by
            refine eventually_of_succ ?_
            filter_upwards [hqs.read_eq] with n hn
            rw [readExpression, readChain, hpieces]
            dsimp only
            rw [hn]
            rfl
          level :=
            { chain := fun hrank => absurd hrank (hnone .join (by decide))
              join := fun hrank => absurd hrank (hnone .filter (by decide))
              front := fun hrank => absurd hrank (hnone .filter (by decide))
              filter := fun hrank => absurd hrank (hnone .projection (by decide))
              named := fun hrank => absurd hrank (hnone .index (by decide))
              last := fun hrank => absurd hrank (hnone .index (by decide))
              field := beforeOf?_append hfield hne (word_ne (by decide)) _ } }

/-! ## Legible expressions -/

theorem Expression.isRead_clause
    {e : Expression} {ts : List TokenTree} (h : e.IsRead ts) {c : Clause}
    (hc : c.isLegible = true) (hfollow : c.canFollow e.canonical = true) (info : Info) :
    ∃ ts, (Expression.clause info e c).IsRead ts := by
  cases c with
  | filter f =>
      obtain ⟨us, hus⟩ := Filter.isRead_of_isLegible f hc
      exact Expression.isRead_filter h ((Bool.not_eq_true' _).mp hfollow) hus info
  | monitor args =>
      cases args with
      | none => exact ⟨_, Expression.isRead_monitor h info⟩
      | some args => exact Expression.isRead_monitorOn h hc info
  | projection args columns labels =>
      rw [Clause.isLegible, Bool.and_eq_true, Bool.and_eq_true, Bool.and_eq_true, beq_iff_eq] at hc
      obtain ⟨⟨⟨hargs, hcolumns⟩, hlength⟩, hlabels⟩ := hc
      obtain ⟨ps, hps⟩ := Value.forall₂_isRead columns hcolumns
      obtain ⟨inner, hinner⟩ := Clause.isFront_projection hargs hcolumns hps hlength hlabels
      exact ⟨_, Expression.isRead_front h hinner info rfl rfl⟩
  | selection elements =>
      rw [Clause.isLegible, Bool.and_eq_true] at hc
      obtain ⟨inner, hinner⟩ := Clause.isFront_selection hc.1 hc.2
      exact ⟨_, Expression.isRead_front h hinner info rfl rfl⟩
  | question f =>
      rw [Clause.isLegible, Bool.and_eq_true, Bool.not_eq_true'] at hc
      obtain ⟨us, hus, hquestion⟩ := Filter.exists_question hc.1 hc.2
      exact ⟨_, Expression.isRead_front h (Clause.isFront_question hus hquestion) info rfl rfl⟩
  | named name => exact Expression.isRead_named h ((Bool.not_eq_true' _).mp hfollow) hc info
  | aggregation field op overload =>
      rw [Clause.isLegible, Bool.and_eq_true, Bool.or_eq_true, beq_iff_eq] at hc
      exact Expression.isRead_aggregation h hc.1 hc.2 overload info
  | sort value direction =>
      obtain ⟨us, hus⟩ := Value.isRead_of_isLegible value hc
      exact Expression.isRead_sort h hus direction info
  | index indices =>
      obtain ⟨ps, hps⟩ := Value.forall₂_isRead indices hc
      exact ⟨_, Expression.isRead_back h (Clause.isBack_index hps) info⟩
  | slice base limit =>
      rw [Clause.isLegible, Bool.and_eq_true] at hc
      obtain ⟨us, hus⟩ := Value.isRead_of_isLegible base hc.1
      obtain ⟨vs, hvs⟩ := Value.isRead_of_isLegible limit hc.2
      exact ⟨_, Expression.isRead_back h (Clause.isBack_slice hus hvs) info⟩

namespace Expression

mutual

theorem isRead_of_isLegible :
    (e : Expression) → e.isLegible = true → ∃ ts, e.IsRead ts
  | call info name params, h => by
      rw [isLegible, Bool.and_eq_true] at h
      obtain ⟨ps, hps⟩ := Param.forall₂_isRead params h.2
      exact isRead_call h.1 hps info
  | invocation info i, h => by
      obtain ⟨ts, hcall, hts⟩ := Invocation.readable_of_isLegible i h
      exact ⟨ts, isRead_invocation hcall hts info⟩
  | clause info inner c, h => by
      rw [isLegible, Bool.and_eq_true, Bool.and_eq_true] at h
      obtain ⟨ts, hts⟩ := isRead_of_isLegible inner h.1.1
      exact isRead_clause hts h.1.2 h.2 info
  | chain info elements, h => by
      rw [isLegible, Bool.and_eq_true] at h
      obtain ⟨ps, hps⟩ := forall₂_isRead elements h.2
      match elements, ps, hps with
      | [], _, _ => exact absurd h.1 (by decide)
      | [_], _, .cons helement .nil => exact ⟨_, isRead_single helement info⟩
      | _ :: _ :: _, _, hps => exact isRead_chain hps info
  | join info lhs rhs, h => by
      rw [isLegible, Bool.and_eq_true] at h
      obtain ⟨ts, hts⟩ := isRead_of_isLegible lhs h.1
      obtain ⟨us, hus⟩ := isRead_of_isLegible rhs h.2
      exact isRead_join hts hus info

theorem forall₂_isRead :
    (elements : List Expression) → allLegible elements = true →
      ∃ ps, List.Forall₂ IsRead elements ps
  | [], _ => ⟨[], .nil⟩
  | element :: elements, h => by
      rw [allLegible, Bool.and_eq_true] at h
      obtain ⟨ts, hts⟩ := isRead_of_isLegible element h.1
      obtain ⟨ps, hps⟩ := forall₂_isRead elements h.2
      exact ⟨ts :: ps, .cons hts hps⟩

end

end Expression

end SkillLang
