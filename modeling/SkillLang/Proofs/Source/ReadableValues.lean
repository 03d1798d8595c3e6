import SkillLang.Proofs.Source.Legible
import SkillLang.Proofs.Source.Readable

/-!
# Readable values

Each way to put a value together, with the trees that it is written as.  A value that is not
filtered is a series of operands, as tight as its priority; the filter of a filtered value is
found at the last mark of one.
-/

namespace SkillLang

open TokenTree

abbrev readValue (n : Nat) : List TokenTree → Option Value :=
  (readers n).value

/-- The series of trees is read as a series of values, and these make up a value. -/
structure SeriesReads (p : Priority) (ts : List TokenTree) (v : Value)
    (s : Series (List TokenTree)) (values : Series Value) : Prop where
  trees_eq : s.trees = ts
  proper : s.IsProper
  tight : IsTight p.rank values.rest
  read_eq : ∀ᶠ n in Filter.atTop, s.mapM? (readers n).operand = some values
  associate_eq : associate values.first values.rest = v

/-- The trees are a series for a value, and none of its operators holds less tightly than a
priority. -/
def IsSeries (p : Priority) (ts : List TokenTree) (v : Value) : Prop :=
  ∃ s values, SeriesReads p ts v s values

namespace IsSeries

variable {p : Priority} {ts us : List TokenTree} {v w : Value}

theorem of_operand
    (p : Priority) (h : Avoids infixOperators ts)
    (hread : ∀ᶠ n in Filter.atTop, (readers n).operand ts = some v) :
    IsSeries p ts v := by
  refine ⟨⟨ts, []⟩, ⟨v, []⟩, ?_⟩
  refine
    { trees_eq := List.append_nil ts
      proper := ⟨h, List.forall_mem_nil _⟩
      tight := List.forall_mem_nil _
      read_eq := ?_
      associate_eq := associate_nil v }
  filter_upwards [hread] with n hn
  rw [Series.mapM?, hn]
  rfl

theorem mono
    (h : IsSeries p ts v) {q : Priority} (hq : q.rank ≤ p.rank) :
    IsSeries q ts v := by
  obtain ⟨s, values, h⟩ := h
  exact ⟨s, values, { h with tight := h.tight.mono hq }⟩

theorem combine
    {op : String} (hop : infixPriority? op = some p)
    (hlhs : IsSeries (operandPriorities op p).1 ts v)
    (hrhs : IsSeries (operandPriorities op p).2 us w) :
    IsSeries p (ts ++ word op :: us) (.computation op [v, w] none none) := by
  obtain ⟨s, values, hs⟩ := hlhs
  obtain ⟨t, more, ht⟩ := hrhs
  refine ⟨⟨s.first, s.rest ++ (op, t.first) :: t.rest⟩,
    ⟨values.first, values.rest ++ (op, more.first) :: more.rest⟩, ?_⟩
  refine
    { trees_eq := ?_
      proper := ⟨hs.proper.first, ?_⟩
      tight := ?_
      read_eq := ?_
      associate_eq := ?_ }
  · rw [← hs.trees_eq, ← ht.trees_eq]
    simp [Series.trees, Series.restTrees]
  · rw [List.forall_mem_append, List.forall_mem_cons]
    exact ⟨hs.proper.rest, ⟨mem_infixOperators hop, ht.proper.first⟩, ht.proper.rest⟩
  · obtain ⟨hleft, hright⟩ := rank_le_operandPriorities op p
    refine List.forall_mem_append.mpr ⟨hs.tight.mono hleft, ?_⟩
    exact List.forall_mem_cons.mpr
      ⟨⟨mem_infixOperators hop, (operatorRank_eq hop).ge⟩, ht.tight.mono hright⟩
  · filter_upwards [hs.read_eq, ht.read_eq] with n hn hm
    exact Series.mapM?_append hn hm op
  · rw [← hs.associate_eq, ← ht.associate_eq]
    exact associate_append hop hs.tight ht.tight

theorem avoids
    (h : IsSeries p ts v) (hp : Priority.not.rank ≤ p.rank) :
    Avoids infixOperators ts := by
  obtain ⟨s, values, h⟩ := h
  obtain ⟨n, hn⟩ := h.read_eq.exists
  have hrest : s.rest = [] := Series.rest_eq_nil_of_mapM? hn (h.tight.eq_nil hp)
  rw [← h.trees_eq, Series.trees, hrest]
  exact avoids_append.mpr ⟨h.proper.first, avoids_nil⟩

theorem read_eq
    (h : IsSeries p ts v) (hfilter : Avoids ["filter"] ts) :
    ∀ᶠ n in Filter.atTop, readValue n ts = some v := by
  obtain ⟨s, values, h⟩ := h
  refine eventually_of_succ ?_
  filter_upwards [h.read_eq] with n hn
  change (readers n).nextValue ts = some v
  rw [Readers.nextValue, cutLast?_eq_none hfilter]
  dsimp only
  rw [← h.trees_eq, Series.ofTrees_trees h.proper, ← h.associate_eq, hn]
  rfl

end IsSeries

/-! ## Values of which the trees are known -/

/-- The value is readable; if it is not filtered, it is a series of its priority, without the
marks of filters. -/
structure Value.IsRead (v : Value) (ts : List TokenTree) : Prop
    extends Readable readValue structureMarks v.source ts v.canonical where
  tests : Avoids ["filter"] ts → Avoids testMarks ts
  series : v.isFiltered = false → Avoids testMarks ts ∧ IsSeries v.priority ts v.canonical

section Groups

variable {ts : List TokenTree} {v : Value}

theorem readValue_group
    (h : ∀ᶠ n in Filter.atTop, readValue n ts = some v) :
    ∀ᶠ n in Filter.atTop, readValue n [group .round ts] = some v := by
  have hseries : IsSeries .primary [group .round ts] v := .of_operand _ (avoids_group _ _) h
  exact hseries.read_eq (avoids_group _ _)

end Groups

namespace Value.IsRead

variable {v : Value} {ts : List TokenTree}

theorem of_series
    (hspells : v.source.Spells ts) (hne : ts ≠ [])
    (havoids : Avoids (structureMarks ++ testMarks) ts)
    (hseries : IsSeries v.priority ts v.canonical) :
    v.IsRead ts := by
  have htests : Avoids testMarks ts := havoids.mono (List.subset_append_right _ _)
  exact
    { spells := hspells
      ne_nil := hne
      avoids := havoids.mono (List.subset_append_left _ _)
      read_eq := hseries.read_eq (htests.mono (by decide))
      tests := fun _ => htests
      series := fun _ => ⟨htests, hseries⟩ }

theorem of_operand
    (hspells : v.source.Spells ts) (hne : ts ≠ [])
    (havoids : Avoids (structureMarks ++ testMarks ++ infixOperators) ts)
    (hread : ∀ᶠ n in Filter.atTop, (readers n).operand ts = some v.canonical) :
    v.IsRead ts :=
  of_series hspells hne (havoids.mono (List.subset_append_left _ _))
    (.of_operand _ (havoids.mono (List.subset_append_right _ _)) hread)

theorem wrapped
    (h : v.IsRead ts) (needed : Priority) :
    Readable readValue structureMarks (TokenStream.parens needed v.priority v.source)
      (wrap needed v.priority ts) v.canonical :=
  h.toReadable.wrapped (readValue_group h.read_eq) needed v.priority

/-- Where a value may stand without parentheses, it is a series that is tight enough. -/
theorem series_wrapped
    (h : v.IsRead ts) {needed : Priority}
    (hv : v.isFiltered = false ∨ Priority.filter.rank < needed.rank) :
    Avoids testMarks (wrap needed v.priority ts) ∧
      IsSeries needed (wrap needed v.priority ts) v.canonical := by
  unfold wrap
  split
  next => exact ⟨avoids_group _ _, .of_operand _ (avoids_group _ _) h.read_eq⟩
  next hlt =>
      have hfiltered : v.isFiltered = false := by
        refine hv.elim id fun hneeded => ?_
        cases v with
        | filtered _ _ _ => exact absurd hneeded hlt
        | _ => rfl
      obtain ⟨htests, hseries⟩ := h.series hfiltered
      exact ⟨htests, hseries.mono (Nat.not_lt.mp hlt)⟩

end Value.IsRead

/-! ## Constants and words -/

namespace Value.IsRead

variable {v : Value}

theorem of_constant
    (c : Constant) (hsource : v.source = .token (.constant c))
    (hcanonical : v.canonical = c.value) :
    v.IsRead [leaf (.constant c)] := by
  refine of_operand ?_ (List.cons_ne_nil _ _) ?_ ?_
  · rw [hsource]
    exact TokenStream.spells_token rfl
  · exact avoids_cons.mpr ⟨rfl, avoids_nil⟩
  · exact Filter.Eventually.of_forall fun _ => congrArg some hcanonical.symm

theorem of_word
    {w : String} (hw : w ∉ bracketWords ++ (structureMarks ++ testMarks ++ infixOperators))
    (hcontext : contextName? w = none) (hsource : v.source = .literal w)
    (hcanonical : v.canonical = readWord w) :
    v.IsRead [word w] := by
  rw [List.mem_append, not_or] at hw
  refine of_operand ?_ (List.cons_ne_nil _ _) ?_ ?_
  · rw [hsource]
    exact TokenStream.spells_token (Token.isPlain_of_not_mem hw.1 hcontext)
  · exact avoids_word hw.2
  · exact Filter.Eventually.of_forall fun _ => congrArg some hcanonical.symm

/-- What is written as one word is the value of the word. -/
theorem canonical_of_word
    {w : String} (h : v.IsRead [word w]) (hw : w ∉ "filter" :: infixOperators) :
    v.canonical = readWord w := by
  rw [List.mem_cons, not_or] at hw
  have hword : IsSeries .primary [word w] (readWord w) :=
    .of_operand _ (avoids_word hw.2) (Filter.Eventually.of_forall fun _ => rfl)
  have hfilter : Avoids ["filter"] [word w] :=
    avoids_word fun hmem => hw.1 (List.mem_singleton.mp hmem)
  obtain ⟨_, hn, hsame⟩ := (h.read_eq.and (hword.read_eq hfilter)).exists
  exact Option.some.inj (hn.symm.trans hsame)

/-- What is written as a word and parentheses is the value of the word, applied to what stands in
them. -/
theorem exists_applied
    {op : String} {inner : List TokenTree} (h : v.IsRead [word op, group .round inner])
    (hop : op ∉ "filter" :: infixOperators) :
    ∃ n, (readers n).applied op inner = some v.canonical := by
  rw [List.mem_cons, not_or] at hop
  have hfilter : Avoids ["filter"] [word op, group .round inner] :=
    avoids_word_cons.mpr ⟨fun hmem => hop.1 (List.mem_singleton.mp hmem), avoids_group _ _⟩
  have hproper : Series.IsProper ⟨[word op, group .round inner], []⟩ :=
    ⟨avoids_word_cons.mpr ⟨hop.2, avoids_group _ _⟩, List.forall_mem_nil _⟩
  have hseries := Series.ofTrees_trees hproper
  rw [Series.trees, Series.restTrees, List.flatMap_nil, List.append_nil] at hseries
  obtain ⟨n, hn⟩ := ((Filter.tendsto_add_atTop_nat 1).eventually h.read_eq).exists
  change (readers n).nextValue _ = _ at hn
  rw [Readers.nextValue, cutLast?_eq_none hfilter] at hn
  dsimp only at hn
  rw [hseries] at hn
  simp only [Series.mapM?, List.mapM_nil, Option.bind_eq_bind, Option.bind_eq_some_iff,
    Option.pure_def, Option.some.injEq] at hn
  obtain ⟨series, ⟨first, hfirst, rest, rfl, rfl⟩, hv⟩ := hn
  rw [associate_nil] at hv
  rw [← hv]
  exact ⟨n, hfirst⟩

/-- A word with a dollar sign. -/
theorem of_dollar
    {rest : String} (hcontext : contextName? ("$" ++ rest) = none)
    (hsource : v.source = .literal ("$" ++ rest))
    (hcanonical : v.canonical = readWord ("$" ++ rest)) :
    v.IsRead [word ("$" ++ rest)] :=
  of_word (not_mem_of_afterPrefix? (afterPrefix?_append "$" rest) (by decide)) hcontext hsource
    hcanonical

end Value.IsRead

theorem Value.isRead_var
    {name : String} (h : isName name = true) (type : Option Ty) :
    (Value.var name type).IsRead [word name] := by
  refine .of_word (not_mem_of_isName h (by decide)) (afterPrefix?_of_isName h (by decide)) rfl ?_
  rw [readWord, afterPrefix?_of_isName h (by decide)]
  dsimp only
  rw [if_neg (ne_of_isName h (by decide)), if_neg (ne_of_isName h (by decide))]
  rfl

theorem Value.isRead_boolean
    (b : Bool) :
    ∃ ts, (Value.boolean b).IsRead ts := by
  cases b with
  | false => exact ⟨[word "false"], .of_word (by decide) (by decide) rfl rfl⟩
  | true => exact ⟨[word "true"], .of_word (by decide) (by decide) rfl rfl⟩

theorem Value.isRead_undefined :
    (Value.undefined true).IsRead [word "$?"] :=
  .of_word (by decide) (by decide) rfl rfl

theorem Value.isRead_now :
    (Value.date .now).IsRead [word "$now"] :=
  .of_word (by decide) (by decide) rfl rfl

theorem Value.isRead_relativeTime
    (name : String) :
    ∃ ts, (Value.time (.relative name)).IsRead ts := by
  have hword : "$time." ++ name = "$" ++ ("time." ++ name) := by
    rw [← String.append_assoc]
    rfl
  refine ⟨_, .of_dollar ?_ (congrArg TokenStream.literal hword) ?_⟩
  · rw [contextName?, afterPrefix?, String.toList_append, String.toList_append]
    rfl
  · rw [readWord, afterPrefix?_append]
    dsimp only
    rw [afterPrefix?_append]
    rfl

theorem Value.isRead_relativePlace
    (name : String) :
    ∃ ts, (Value.place (.relative name)).IsRead ts := by
  have hword : "$location." ++ name = "$" ++ ("location." ++ name) := by
    rw [← String.append_assoc]
    rfl
  refine ⟨_, .of_dollar ?_ (congrArg TokenStream.literal hword) ?_⟩
  · rw [contextName?, afterPrefix?, String.toList_append, String.toList_append]
    rfl
  · have htime : afterPrefix? "time." ("location." ++ name) = none := by
      rw [afterPrefix?, String.toList_append]
      rfl
    rw [readWord, afterPrefix?_append]
    dsimp only
    rw [htime, afterPrefix?_append]
    rfl

theorem Value.isRead_event
    {name : String} (h : isName name = true) (hnow : name ≠ "now") (hresult : name ≠ "result") :
    (Value.event (some name)).IsRead [word ("$" ++ name)] := by
  refine .of_dollar ?_ rfl ?_
  · have hdot : '.' ∉ ("$" ++ name).toList := by
      rw [String.toList_append, List.mem_append, not_or]
      refine ⟨by decide, fun hmem => ?_⟩
      cases isNameTail_of_mem h _ hmem
    exact afterPrefix?_eq_none (by decide) hdot
  · rw [readWord, afterPrefix?_append]
    dsimp only
    rw [afterPrefix?_of_isName h (by decide), afterPrefix?_of_isName h (by decide)]
    dsimp only
    rw [if_neg (ne_of_isName h (by decide)), if_neg hnow, if_neg hresult]
    rfl

theorem Value.isRead_result :
    (Value.event none).IsRead [word "$result"] :=
  .of_word (by decide) (by decide) rfl rfl

/-! ## Values with parts -/

theorem Ty.readType?_of_isLegible
    {type : Ty} (h : type.isLegible = true) :
    readType? type.display = some type := by
  rw [Ty.isLegible, Bool.and_eq_true, Bool.and_eq_true] at h
  exact LawfulBEq.eq_of_beq h.1.1

theorem Value.isRead_context
    (name : String) {type : Ty} (h : type.isLegible = true) :
    (Value.context name type).IsRead [TokenTree.context name type.display] := by
  refine .of_operand ?_ (List.cons_ne_nil _ _) (avoids_cons.mpr ⟨rfl, avoids_nil⟩) ?_
  · exact ⟨rfl, rfl⟩
  · refine Filter.Eventually.of_forall fun n => ?_
    rw [Readers.operand, Ty.readType?_of_isLegible h]
    rfl

theorem Value.isRead_enum
    {entry : String} (h : isName entry = true) :
    (Value.enum entry).IsRead [word "enum", word entry] := by
  refine .of_operand ?_ (List.cons_ne_nil _ _) ?_ ?_
  · exact (TokenStream.PartsSpell.word rfl (.word (isPlain_of_isName h) .nil)).ofParts
  · exact avoids_cons.mpr ⟨by decide, avoids_of_isName h (by decide)⟩
  · refine Filter.Eventually.of_forall fun n => ?_
    rw [Readers.operand]
    exact if_neg (ne_of_isName h (by decide))

/-! ### Lists -/

theorem allReadable_sources
    {values : List Value} {ps : List (List TokenTree)} (h : List.Forall₂ Value.IsRead values ps) :
    AllReadable readValue structureMarks ((Value.sources values).map Prod.snd) ps
      (Value.canonicalAll values) := by
  induction h with
  | nil => exact .nil
  | cons hvalue _ ih => exact .cons hvalue.toReadable ih

theorem Value.isRead_array
    {values : List Value} {ps : List (List TokenTree)} (h : List.Forall₂ Value.IsRead values ps)
    (type : Option Ty) :
    (Value.array values type).IsRead [group .square (separated (word ",") ps)] := by
  have hvalues := allReadable_sources h
  refine .of_operand ?_ (List.cons_ne_nil _ _) (avoids_group _ _) ?_
  · rw [Value.source]
    exact (TokenStream.PartsSpell.group .square (hvalues.spells_join rfl) .nil).ofParts
  · filter_upwards [hvalues.read_items (word ",") rfl (by decide)] with n hn
    rw [Readers.operand, hn]
    rfl

/-! ### Computations -/

theorem infixPriority?_of_isName
    {op : String} (h : isName op = true) :
    infixPriority? op = none := by
  rw [Option.eq_none_iff_forall_ne_some]
  intro p hp
  exact not_mem_of_isName h (by decide) (mem_infixOperators hp)

theorem isPlain_of_mem_infixOperators
    {op : String} (h : op ∈ infixOperators) :
    Token.isPlain (.literal op) = true := by
  revert op
  decide

theorem not_mem_of_mem_infixOperators
    {op : String} (h : op ∈ infixOperators) :
    op ∉ structureMarks ++ testMarks := by
  revert op
  decide

theorem computationSource_of_isName
    {op : String} (h : isName op = true) (operands : List (Priority × TokenStream)) :
    computationSource op operands =
      .ofParts [op, "(", .join (operands.map Prod.snd) ",", ")"] := by
  unfold computationSource
  rw [infixPriority?_of_isName h]

theorem computationSource_infix
    {op : String} {p : Priority} (hop : infixPriority? op = some p) (lhsPriority : Priority)
    (lhs : TokenStream) (rhsPriority : Priority) (rhs : TokenStream) :
    computationSource op [(lhsPriority, lhs), (rhsPriority, rhs)] =
      .ofParts [.parens (operandPriorities op p).1 lhsPriority lhs, op,
        .parens (operandPriorities op p).2 rhsPriority rhs] := by
  unfold computationSource operandPriorities
  rw [hop]
  by_cases h : op = "**"
  · simp [h]
  · simp [h]

theorem Value.IsRead.of_applied
    {v : Value} {w : String} (hplain : Token.isPlain (.literal w) = true)
    (hw : w ∉ structureMarks ++ testMarks ++ infixOperators) {s : TokenStream}
    (hsource : v.source = .ofParts [.literal w, "(", s, ")"]) {inner : List TokenTree}
    (hs : s.Spells inner)
    (hread : ∀ᶠ n in Filter.atTop, (readers n).applied w inner = some v.canonical) :
    v.IsRead [word w, group .round inner] := by
  refine .of_operand ?_ (List.cons_ne_nil _ _) ?_ hread
  · rw [hsource]
    exact (TokenStream.PartsSpell.word hplain (.group .round hs .nil)).ofParts
  · exact avoids_append.mpr ⟨avoids_word hw, avoids_group _ _⟩

theorem Value.isRead_applied
    {op : String} (h : isName op = true) {operands : List Value} {ps : List (List TokenTree)}
    (hoperands : List.Forall₂ Value.IsRead operands ps) (overload : Option (List Ty))
    (type : Option Ty) :
    (Value.computation op operands overload type).IsRead
      [word op, group .round (separated (word ",") ps)] := by
  have hvalues := allReadable_sources hoperands
  refine .of_applied (isPlain_of_isName h) (not_mem_of_isName h (by decide)) ?_
    (hvalues.spells_join rfl) ?_
  · rw [Value.source, computationSource_of_isName h]
    rfl
  · filter_upwards [hvalues.read_items (word ",") rfl (by decide)] with n hn
    rw [Readers.applied, if_neg (ne_of_isName h (by decide)), if_neg (ne_of_isName h (by decide)),
      hn]
    rfl

theorem Value.isRead_infix
    {op : String} {p : Priority} (hop : infixPriority? op = some p) {lhs rhs : Value}
    {ts us : List TokenTree} (hlhs : lhs.IsRead ts) (hrhs : rhs.IsRead us)
    (hlhsFiltered : lhs.isFiltered = false) (hrhsFiltered : rhs.isFiltered = false)
    (overload : Option (List Ty)) (type : Option Ty) :
    ∃ ts, (Value.computation op [lhs, rhs] overload type).IsRead ts := by
  have hlhsWrapped := hlhs.wrapped (operandPriorities op p).1
  have hrhsWrapped := hrhs.wrapped (operandPriorities op p).2
  obtain ⟨hlhsTests, hlhsSeries⟩ := hlhs.series_wrapped (.inl hlhsFiltered)
  obtain ⟨hrhsTests, hrhsSeries⟩ := hrhs.series_wrapped (.inl hrhsFiltered)
  have hmem := mem_infixOperators hop
  have hpriority : (Value.computation op [lhs, rhs] overload type).priority.rank = p.rank := by
    rw [Value.priority, hop]
    rfl
  have hseries := hlhsSeries.combine hop hrhsSeries
  refine ⟨_, .of_series ?_ (List.append_ne_nil_of_left_ne_nil hlhsWrapped.ne_nil _) ?_
    (hseries.mono hpriority.le)⟩
  · rw [Value.source, Value.sources, Value.sources, Value.sources, computationSource_infix hop]
    exact (TokenStream.PartsSpell.cons hlhsWrapped.spells
      (.word (isPlain_of_mem_infixOperators hmem) (.last hrhsWrapped.spells))).ofParts
  · exact avoids_cut.mpr ⟨avoids_union hlhsWrapped.avoids hlhsTests,
      not_mem_of_mem_infixOperators hmem, avoids_union hrhsWrapped.avoids hrhsTests⟩

theorem Value.isRead_infix_operands
    {op : String} (hop : op ∈ infixOperators) {operands : List Value}
    (hlength : operands.length = 2) (hfiltered : (operands.all fun v => !v.isFiltered) = true)
    {ps : List (List TokenTree)} (h : List.Forall₂ Value.IsRead operands ps)
    (overload : Option (List Ty)) (type : Option Ty) :
    ∃ ts, (Value.computation op operands overload type).IsRead ts := by
  have hpriority : (infixPriority? op).isSome = true := by
    revert op
    decide
  obtain ⟨p, hp⟩ := Option.isSome_iff_exists.mp hpriority
  match operands, h with
  | [lhs, rhs], .cons hlhs (.cons hrhs .nil) =>
      simp only [List.all_cons, List.all_nil, Bool.and_true, Bool.and_eq_true,
        Bool.not_eq_true'] at hfiltered
      exact Value.isRead_infix hp hlhs hrhs hfiltered.1 hfiltered.2 overload type

/-! ### Fields and filters -/

theorem Value.isRead_field
    {name : String} (h : isName name = true) {value : Value} {ts : List TokenTree}
    (hvalue : value.IsRead ts) (type : Option Ty) :
    ∃ ts, (Value.field value name type).IsRead ts := by
  have hwrapped := hvalue.wrapped .projection
  have hpriority : Priority.filter.rank < Priority.projection.rank := by decide
  obtain ⟨htests, hseries⟩ := hvalue.series_wrapped (.inr hpriority)
  refine ⟨word name :: word "of" :: wrap .projection value.priority ts,
    .of_operand ?_ (List.cons_ne_nil _ _) ?_ ?_⟩
  · rw [Value.source]
    exact (TokenStream.PartsSpell.word (isPlain_of_isName h)
      (.word rfl (.last hwrapped.spells))).ofParts
  · rw [avoids_word_cons, avoids_word_cons]
    exact ⟨not_mem_of_isName h (by decide), by decide,
      avoids_union (avoids_union hwrapped.avoids htests) (hseries.avoids (by decide))⟩
  · filter_upwards [hwrapped.read_eq] with n hn
    dsimp only [readValue] at hn
    rw [Readers.operand, if_pos rfl, hn]
    rfl

abbrev readFilter (n : Nat) : List TokenTree → Option Filter :=
  (readers n).filter

theorem Value.isRead_filtered
    {value : Value} {ts : List TokenTree} (hvalue : value.IsRead ts) {filter : Filter}
    {us : List TokenTree}
    (hfilter : Readable readFilter ("filter" :: structureMarks) filter.source us filter.canonical)
    (type : Option Ty) :
    ∃ ts, (Value.filtered value filter type).IsRead ts := by
  have hwrapped := hvalue.wrapped .filter
  refine ⟨wrap .filter value.priority ts ++ word "filter" :: us, ?_⟩
  exact
    { spells := by
        rw [Value.source]
        exact (TokenStream.PartsSpell.cons hwrapped.spells
          (.word rfl (.last hfilter.spells))).ofParts
      ne_nil := List.append_ne_nil_of_left_ne_nil hwrapped.ne_nil _
      avoids := by
        exact avoids_cut.mpr
          ⟨hwrapped.avoids, by decide, hfilter.avoids.mono (List.subset_cons_self _ _)⟩
      read_eq := by
        refine eventually_of_succ ?_
        filter_upwards [hwrapped.read_eq, hfilter.read_eq] with n hn hm
        change (readers n).nextValue _ = _
        have htests : Avoids ["filter"] us := hfilter.avoids.mono (by simp)
        rw [Readers.nextValue, cutLast?_append htests (List.mem_singleton_self _)]
        dsimp only [readValue, readFilter] at hn hm ⊢
        rw [hn, hm]
        rfl
      tests := fun h => absurd (List.mem_singleton_self _) (avoids_cut.mp h).2.1
      series := fun h => nomatch h }

/-! ### Objects and argument maps -/

abbrev readAssignment (n : Nat) : List TokenTree → Option (String × Value) :=
  (readers n).assignment

theorem readable_assignment
    {name : String} (h : isName name = true) {value : Value} {ts : List TokenTree}
    (hvalue : value.IsRead ts) :
    Readable readAssignment [","] (.ofParts [name, "=", value.source])
      (word name :: word "=" :: ts) (name, value.canonical) := by
  refine ⟨?_, List.cons_ne_nil _ _, ?_, ?_⟩
  · exact (TokenStream.PartsSpell.word (isPlain_of_isName h)
      (.word rfl (.last hvalue.spells))).ofParts
  · rw [avoids_word_cons, avoids_word_cons]
    exact ⟨not_mem_of_isName h (by decide), by decide,
      hvalue.avoids.mono (by decide)⟩
  · filter_upwards [hvalue.read_eq] with n hn
    dsimp only [readValue] at hn
    rw [readAssignment, Readers.assignment, hn]
    rfl

theorem Value.isRead_object
    {fields : List (String × Value)} {ps : List (List TokenTree)}
    (h : AllReadable readAssignment [","] (Value.fieldSources fields) ps
      (Value.canonicalFields fields)) :
    (Value.object fields).IsRead [group .curly (separated (word ",") ps)] := by
  refine .of_operand ?_ (List.cons_ne_nil _ _) (avoids_group _ _) ?_
  · rw [Value.source]
    exact (TokenStream.PartsSpell.group .curly (h.spells_join rfl) .nil).ofParts
  · filter_upwards [h.read_items (word ",") rfl (by decide)] with n hn
    rw [Readers.operand]
    dsimp only [readAssignment] at hn
    rw [hn]
    rfl

theorem Ty.isPlain_of_isLegible
    {type : Ty} (h : type.isLegible = true) :
    Token.isPlain (.literal type.display) = true := by
  rw [Ty.isLegible, Bool.and_eq_true, Bool.and_eq_true] at h
  exact h.1.2

theorem Ty.display_not_mem
    {type : Ty} (h : type.isLegible = true) :
    type.display ∉ structureMarks := by
  rw [Ty.isLegible, Bool.and_eq_true, Bool.not_eq_true'] at h
  exact fun hmem => Bool.eq_false_iff.mp h.2 (List.contains_iff_mem.mpr hmem)

theorem readable_typed
    {name : String} (h : isName name = true) {type : Ty} (htype : type.isLegible = true) :
    Readable (fun _ => readTyped?) [","] (.ofParts [name, ":", type.display])
      [word name, word ":", word type.display] (name, type) := by
  refine ⟨?_, List.cons_ne_nil _ _, ?_, ?_⟩
  · exact (TokenStream.PartsSpell.word (isPlain_of_isName h)
      (.word rfl (.word (Ty.isPlain_of_isLegible htype) .nil))).ofParts
  · rw [avoids_word_cons, avoids_word_cons]
    exact ⟨not_mem_of_isName h (by decide), by decide,
      (avoids_word (Ty.display_not_mem htype)).mono (by decide)⟩
  · refine Filter.Eventually.of_forall fun _ => ?_
    rw [readTyped?, Ty.readType?_of_isLegible htype]
    rfl

theorem allReadable_typed
    {args : List (String × Ty)}
    (h : args.all (fun arg => isName arg.1 && arg.2.isLegible) = true) :
    ∃ ps, AllReadable (fun _ => readTyped?) [","]
      (args.map fun arg => .ofParts [arg.1, ":", arg.2.display]) ps args := by
  induction args with
  | nil => exact ⟨[], .nil⟩
  | cons arg args ih =>
      rw [List.all_cons, Bool.and_eq_true, Bool.and_eq_true] at h
      obtain ⟨ps, hps⟩ := ih h.2
      exact ⟨_, .cons (readable_typed h.1.1 h.1.2) hps⟩

theorem Value.isRead_argMap
    {args : List (String × Ty)}
    (h : args.all (fun arg => isName arg.1 && arg.2.isLegible) = true) :
    ∃ ts, (Value.argMap args).IsRead ts := by
  obtain ⟨ps, hps⟩ := allReadable_typed h
  refine ⟨[word "new", word "ArgMap", group .round (separated (word ",") ps)],
    .of_operand ?_ (List.cons_ne_nil _ _) ?_ ?_⟩
  · exact (TokenStream.PartsSpell.word rfl
      (.word rfl (.group .round (hps.spells_join rfl) .nil))).ofParts
  · exact avoids_cons.mpr ⟨by decide, avoids_cons.mpr ⟨by decide, avoids_group _ _⟩⟩
  · filter_upwards [hps.read_items (word ",") rfl (by decide)] with n hn
    rw [Readers.operand, if_neg (by decide), Readers.keyed, if_pos rfl, hn]
    rfl

/-! ### Dates -/

theorem Value.isRead_edge
    (edge : Edge) {unit : String} (h : isName unit = true) :
    ∃ ts, (Value.date (.edge edge unit)).IsRead ts := by
  have hunit : TokenStream.Spells (.literal unit) [word unit] :=
    TokenStream.spells_token (isPlain_of_isName h)
  have hname : readName? [word unit] = some unit := if_pos h
  cases edge with
  | startOf =>
      refine ⟨_, .of_applied rfl (by decide) rfl hunit (Filter.Eventually.of_forall fun n => ?_)⟩
      rw [Readers.applied, if_pos rfl, hname]
      rfl
  | endOf =>
      refine ⟨_, .of_applied rfl (by decide) rfl hunit (Filter.Eventually.of_forall fun n => ?_)⟩
      rw [Readers.applied, if_neg (by decide), if_pos rfl, hname]
      rfl

theorem Value.isRead_time
    (t : TimeOfDay) :
    ∃ ts, (Value.time t).IsRead ts := by
  cases t with
  | absolute hour minute second => exact ⟨_, .of_constant ⟨.time, _⟩ rfl rfl⟩
  | relative name => exact Value.isRead_relativeTime name

theorem Weekday.ofName?_name
    (day : Weekday) :
    ofName? day.name = some day := by
  cases day <;> decide

theorem Weekday.isName_name
    (day : Weekday) :
    isName day.name = true := by
  cases day <;> decide

/-- The time of a date is the piece after the last comma. -/
theorem read_time
    (time : Option TimeOfDay) :
    ∃ ts rest, (timeSource time).Spells ts ∧
      (∀ {before : List TokenTree}, Avoids [","] before →
        pieces (isMark ",") (before ++ ts) = before :: rest) ∧
      ∀ᶠ n in Filter.atTop, (readers n).dateTime (rest.headD []) = some time := by
  have hmem := List.mem_singleton_self ","
  cases time with
  | none =>
      refine ⟨[], [], TokenStream.spells_empty, fun {before} hbefore => ?_,
        Filter.Eventually.of_forall fun _ => rfl⟩
      rw [List.append_nil, pieces_self (isMark_eq_false hmem hbefore)]
  | some t =>
      obtain ⟨ts, ht⟩ := Value.isRead_time t
      refine ⟨word "," :: ts, [ts], ?_, fun {before} hbefore => ?_, ?_⟩
      · exact (TokenStream.PartsSpell.word rfl (.last ht.spells)).ofParts
      · rw [pieces_append (isMark_eq_false hmem hbefore) (isMark_of_separator? rfl),
          pieces_self (isMark_eq_false hmem (ht.avoids.mono (by decide)))]
      · filter_upwards [ht.read_eq] with n hn
        obtain ⟨head, tail, rfl⟩ := List.exists_cons_of_ne_nil ht.ne_nil
        dsimp only [readValue] at hn
        rw [List.headD_cons, Readers.dateTime, hn]
        rfl

/-- A date is readable if what stands in its parentheses is. -/
theorem Value.isRead_writtenDate
    {d : DateValue} {parts : List TokenStream} {inner : List TokenTree}
    (hsource : d.source = .ofParts ("new" :: "Date" :: "(" :: (parts ++ [.literal ")"])))
    (hspells : TokenStream.PartsSpell parts inner)
    (hread : ∀ᶠ n in Filter.atTop, (readers n).writtenDate inner = some d) :
    (Value.date d).IsRead [word "new", word "Date", group .round inner] := by
  refine .of_operand ?_ (List.cons_ne_nil _ _) ?_ ?_
  · have hsame : (Value.date d).source = d.source := rfl
    have hparts := TokenStream.PartsSpell.enclosed .round hspells .nil
    rw [hsame, hsource]
    exact (TokenStream.PartsSpell.word (w := "new") rfl (.word (w := "Date") rfl hparts)).ofParts
  · exact avoids_cons.mpr ⟨by decide, avoids_cons.mpr ⟨by decide, avoids_group _ _⟩⟩
  · filter_upwards [hread] with n hn
    rw [Readers.operand, if_neg (by decide), Readers.keyed, if_neg (by decide), hn]
    rfl

theorem Value.isRead_weekday
    (day : Weekday) (time : Option TimeOfDay) :
    ∃ ts, (Value.date (.weekday day time)).IsRead ts := by
  obtain ⟨ts, rest, hspells, hpieces, hread⟩ := read_time time
  have hparts : TokenStream.PartsSpell [.literal day.name, timeSource time] (word day.name :: ts) :=
    .word (isPlain_of_isName day.isName_name) (.last hspells)
  refine ⟨_, Value.isRead_writtenDate rfl hparts ?_⟩
  filter_upwards [hread] with n hn
  rw [Readers.writtenDate, ← List.singleton_append,
    hpieces (avoids_of_isName day.isName_name (by decide))]
  dsimp only
  rw [hn, day.ofName?_name]
  rfl

theorem read_piece
    {piece : Option Int} (h : piece.all isExact = true) :
    ∃ ts, (pieceSource piece).Spells ts ∧ Avoids [","] ts ∧ readPiece? ts = some piece ∧
      ∀ w, ts ≠ [word w] := by
  cases piece with
  | none => exact ⟨[], TokenStream.spells_empty, avoids_nil, rfl, fun _ h => nomatch h⟩
  | some n =>
      refine ⟨_, TokenStream.spells_token rfl, avoids_cons.mpr ⟨rfl, avoids_nil⟩, ?_, ?_⟩
      · rw [readPiece?, eq_of_beq h]
      · rintro w ⟨⟩

theorem Value.isRead_piece
    {year : Option Int} {month day : Option Nat} (hyear : year.all isExact = true)
    (hmonth : (month.map Int.ofNat).all isExact = true)
    (hday : (day.map Int.ofNat).all isExact = true) (time : Option TimeOfDay) :
    ∃ ts, (Value.date (.piece year month day time)).IsRead ts := by
  obtain ⟨ys, hys, hyearComma, hreadYear, hword⟩ := read_piece hyear
  obtain ⟨ms, hms, hmonthComma, hreadMonth, -⟩ := read_piece hmonth
  obtain ⟨ds, hds, hdayComma, hreadDay, -⟩ := read_piece hday
  obtain ⟨ts, rest, hspells, hpieces, hread⟩ := read_time time
  have hmem := List.mem_singleton_self ","
  have hparts : TokenStream.PartsSpell
      [pieceSource year, ",", pieceSource (month.map Int.ofNat), ",",
        pieceSource (day.map Int.ofNat), timeSource time]
      (ys ++ word "," :: (ms ++ word "," :: (ds ++ ts))) :=
    .cons hys (.word rfl (.cons hms (.word rfl (.cons hds (.last hspells)))))
  refine ⟨_, Value.isRead_writtenDate rfl hparts ?_⟩
  filter_upwards [hread] with n hn
  rw [Readers.writtenDate, pieces_append (isMark_eq_false hmem hyearComma) rfl,
    pieces_append (isMark_eq_false hmem hmonthComma) rfl, hpieces hdayComma]
  split
  next heq => cases heq; exact absurd rfl (hword _)
  next heq =>
      cases heq
      rw [hreadYear, hreadMonth, hreadDay, hn]
      cases month <;> cases day <;> rfl
  next hnone => exact (hnone _ _ _ _ rfl).elim

theorem Value.isRead_date
    {d : DateValue} (h : d.isLegible = true) :
    ∃ ts, (Value.date d).IsRead ts := by
  cases d with
  | absolute moment => exact ⟨_, .of_constant ⟨.date, _⟩ rfl rfl⟩
  | now => exact ⟨_, Value.isRead_now⟩
  | edge edge unit => exact Value.isRead_edge edge h
  | piece year month day time =>
      rw [DateValue.isLegible, Bool.and_eq_true, Bool.and_eq_true] at h
      exact Value.isRead_piece h.1.1 h.1.2 h.2 time
  | weekday day time => exact Value.isRead_weekday day time

theorem Value.isRead_place
    (p : Place) :
    ∃ ts, (Value.place p).IsRead ts := by
  cases p with
  | absolute _ _ _ | unresolved _ => exact ⟨_, .of_constant ⟨.location, _⟩ rfl rfl⟩
  | relative name => exact Value.isRead_relativePlace name

end SkillLang
