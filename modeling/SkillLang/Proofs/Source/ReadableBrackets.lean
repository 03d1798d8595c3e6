import SkillLang.Proofs.Source.ReadableParts

/-!
# Readable brackets

What stands in brackets in front of an expression, and after it.
-/

namespace SkillLang

open TokenTree

theorem hasMark_eq_false
    {marks : List String} {ts : List TokenTree} (h : Avoids marks ts) :
    hasMark marks ts = false := by
  rw [hasMark, List.any_eq_false]
  intro t ht
  rw [h t ht]
  exact Bool.false_ne_true

theorem avoids_of_hasMark
    {marks : List String} {ts : List TokenTree} (h : hasMark marks ts = false) :
    Avoids marks ts := by
  intro t ht
  rw [hasMark, List.any_eq_false] at h
  rw [← Option.not_isSome_iff_eq_none]
  exact h t ht

theorem hasMark_eq_true
    {marks : List String} {ts : List TokenTree} (h : ¬ Avoids marks ts) :
    hasMark marks ts = true :=
  (Bool.not_eq_false _).mp fun hnone => h (avoids_of_hasMark hnone)

theorem avoids_of_separated
    {marks : List String} {separator : TokenTree} :
    {ps : List (List TokenTree)} → Avoids marks (separated separator ps) → ∀ p ∈ ps, Avoids marks p
  | [], _ => List.forall_mem_nil _
  | [p], h => List.forall_mem_singleton.mpr h
  | p :: q :: ps, h => by
      rw [separated, avoids_append, avoids_cons] at h
      exact List.forall_mem_cons.mpr ⟨h.1, avoids_of_separated h.2.2⟩

/-! ## Columns -/

abbrev readProjected (n : Nat) : List TokenTree → Option (String ⊕ (Value × Option String)) :=
  (readers n).projected

abbrev readSelected (n : Nat) : List TokenTree → Option Selected :=
  (readers n).selected

/-- A computed column with its label, if it has one. -/
def labelledSource (value : TokenStream) : Option String → TokenStream
  | some label => .ofParts [value, "as", label]
  | none => value

def labelTrees : Option String → List TokenTree
  | some label => [word "as", word label]
  | none => []

/-- Names as readable streams. -/
theorem allReadable_names
    {α : Type} {read : Nat → List TokenTree → Option α} {marks : List String}
    (hmarks : marks.all (fun mark => !isName mark) = true) {found : String → α}
    (hread : ∀ name, isName name = true → ∀ n, read n [word name] = some (found name))
    {names : List String} (h : names.all isName = true) :
    AllReadable read marks (names.map TokenStream.literal) (names.map fun name => [word name])
      (names.map found) := by
  induction names with
  | nil => exact .nil
  | cons name names ih =>
      rw [List.all_cons, Bool.and_eq_true] at h
      refine .cons ?_ (ih h.2)
      exact
        { spells := TokenStream.spells_token (isPlain_of_isName h.1)
          ne_nil := List.cons_ne_nil _ _
          avoids := avoids_of_isName h.1 hmarks
          read_eq := Filter.Eventually.of_forall fun n => hread name h.1 n }

theorem readName?_cut
    {ts : List TokenTree} (h : ts ≠ []) (w : String) (us : List TokenTree) :
    readName? (ts ++ word w :: us) = none := by
  rw [Option.eq_none_iff_forall_ne_some]
  intro name hname
  have hlength := congrArg List.length (eq_of_readName? hname).1
  have hpos := List.length_pos_iff.mpr h
  rw [List.length_append, List.length_cons, List.length_singleton] at hlength
  omega

theorem tests_label
    {v : Value} {ts : List TokenTree} (h : v.IsRead ts) {label : Option String}
    (hlabel : label.all isName = true) (hfilter : Avoids ["filter"] (ts ++ labelTrees label)) :
    Avoids testMarks (ts ++ labelTrees label) := by
  rw [avoids_append] at hfilter ⊢
  refine ⟨h.tests hfilter.1, ?_⟩
  cases label with
  | none => exact avoids_nil
  | some label => exact avoids_word_cons.mpr ⟨by decide, avoids_of_isName hlabel (by decide)⟩

theorem isQuestion_eq_false_iff
    {ts : List TokenTree} :
    isQuestion ts = false ↔ isProbe ts = false ∧ (Avoids ["filter"] ts → Avoids testMarks ts) := by
  rw [isQuestion, Bool.or_eq_false_iff]
  refine and_congr_right fun _ => ⟨fun h hfilter => ?_, fun h => ?_⟩
  · rw [hasMark_eq_false hfilter, Bool.not_false, Bool.true_and] at h
    exact avoids_of_hasMark h
  · cases hfilter : hasMark ["filter"] ts with
    | true => rfl
    | false => exact hasMark_eq_false (h (avoids_of_hasMark hfilter))

/-- Two parts with a separator between them are no call. -/
theorem isProbe_cut
    (ts : List TokenTree) {w : String} (hw : w ∉ ["any", "true"]) (us : List TokenTree) :
    isProbe (ts ++ word w :: us) = false := by
  unfold isProbe
  split
  next op inner heq =>
      have hmem : word w ∈ [word op, group .round inner] :=
        heq ▸ List.mem_append_right ts List.mem_cons_self
      obtain hop | hgroup := List.mem_pair.mp hmem
      · cases hop
        rw [List.mem_pair, not_or] at hw
        rw [beq_false_of_ne hw.1, beq_false_of_ne hw.2]
        rfl
      · cases hgroup
  next => rfl

/-- A word with parentheses after it, not of a date, is a name if a value is written so. -/
theorem Value.IsRead.isName_of_applied
    {v : Value} {op : String} {inner : List TokenTree} (h : v.IsRead [word op, group .round inner])
    (hv : v.isLegible = true) (hop : op ∉ "filter" :: infixOperators)
    (hedge : op ≠ "$start_of" ∧ op ≠ "$end_of") :
    isName op = true := by
  obtain ⟨n, hn⟩ := h.exists_applied hop
  rw [Readers.applied, if_neg hedge.1, if_neg hedge.2, Option.map_eq_some_iff] at hn
  obtain ⟨operands, -, hn⟩ := hn
  cases v with
  | computation op operands overload type =>
      cases hn
      rw [Value.isLegible, Bool.and_eq_true, Bool.or_eq_true] at hv
      obtain hname | hinfix := hv.1
      · exact hname
      · rw [Bool.and_eq_true, Bool.and_eq_true, List.contains_iff_mem] at hinfix
        exact absurd (List.mem_cons_of_mem _ hinfix.1.1) hop
  | _ => cases hn

theorem Value.IsRead.isProbe_eq_false
    {v : Value} {ts : List TokenTree} (h : v.IsRead ts) (hv : v.isLegible = true) :
    isProbe ts = false := by
  unfold isProbe
  split
  next op inner =>
      rw [Bool.or_eq_false_iff, beq_eq_false_iff_ne, beq_eq_false_iff_ne]
      constructor
      · rintro rfl
        exact absurd (h.isName_of_applied hv (by decide) (by decide)) (by decide)
      · rintro rfl
        exact absurd (h.isName_of_applied hv (by decide) (by decide)) (by decide)
  next => rfl

theorem Value.IsRead.isProbe_label
    {v : Value} {ts : List TokenTree} (h : v.IsRead ts) (hv : v.isLegible = true)
    (label : Option String) :
    isProbe (ts ++ labelTrees label) = false := by
  cases label with
  | none => exact (List.append_nil ts).symm ▸ h.isProbe_eq_false hv
  | some label => exact isProbe_cut ts (by decide) _

theorem readable_computed
    {v : Value} {ts : List TokenTree} (h : v.IsRead ts) {label : Option String}
    (hlabel : label.elim (!v.isVar) isName = true) :
    Readable readProjected [",", ":"] (labelledSource v.source label) (ts ++ labelTrees label)
      (.inr (v.canonical, label)) := by
  have has : Avoids ["as"] ts := h.avoids.mono (by decide)
  cases label with
  | none =>
      rw [labelTrees, List.append_nil]
      refine ⟨h.spells, h.ne_nil, h.avoids.mono (by decide), ?_⟩
      filter_upwards [h.read_eq] with n hn
      dsimp only [readValue] at hn
      rw [Option.elim_none, Bool.not_eq_true'] at hlabel
      rw [readProjected, Readers.projected, readName?_eq_none h.toReadable hlabel]
      dsimp only
      rw [Readers.labelled, cutFirst?_eq_none has]
      dsimp only
      rw [hn]
      rfl
  | some label =>
      rw [Option.elim_some] at hlabel
      refine ⟨?_, List.append_ne_nil_of_left_ne_nil h.ne_nil _, ?_, ?_⟩
      · exact (TokenStream.PartsSpell.cons h.spells
          (.word rfl (.word (isPlain_of_isName hlabel) .nil))).ofParts
      · exact avoids_cut.mpr
          ⟨h.avoids.mono (by decide), by decide, avoids_of_isName hlabel (by decide)⟩
      · filter_upwards [h.read_eq] with n hn
        dsimp only [readValue] at hn
        rw [labelTrees, readProjected, Readers.projected, readName?_cut h.ne_nil]
        dsimp only
        rw [Readers.labelled, cutFirst?_append has (List.mem_singleton_self _)]
        dsimp only
        rw [hn, readName?_of_isName hlabel]
        rfl

theorem allReadable_computations
    {values : List Value} {ps : List (List TokenTree)} (h : List.Forall₂ Value.IsRead values ps)
    (hlegible : Value.allLegible values = true) {labels : List (Option String)}
    (hlength : labels.length = values.length)
    (hlabels : ((values.zip labels).all fun (value, label) =>
      label.elim (!value.isVar) isName) = true) :
    ∃ qs, AllReadable readProjected [",", ":"] (computationsSource values labels) qs
        (((Value.canonicalAll values).zip labels).map .inr) ∧
      ∀ q ∈ qs, isQuestion q = false := by
  induction h generalizing labels with
  | nil => exact ⟨[], .nil, List.forall_mem_nil _⟩
  | @cons value ts values ps hvalue _ ih =>
      rw [Value.allLegible, Bool.and_eq_true] at hlegible
      match labels with
      | label :: labels =>
          rw [List.zip_cons_cons, List.all_cons, Bool.and_eq_true] at hlabels
          obtain ⟨qs, hqs, hquestions⟩ := ih hlegible.2 (Nat.succ.inj hlength) hlabels.2
          have hname : label.all isName = true := by
            cases label with
            | none => rfl
            | some _ => exact hlabels.1
          have hquestion := isQuestion_eq_false_iff.mpr
            ⟨hvalue.isProbe_label hlegible.1 label, tests_label hvalue hname⟩
          exact ⟨_, .cons (readable_computed hvalue hlabels.1) hqs,
            List.forall_mem_cons.mpr ⟨hquestion, hquestions⟩⟩

/-! ## Brackets in front of an expression -/

/-- The clause puts brackets with some trees in front of an expression. -/
structure Clause.IsFront (c : Clause) (inner : List TokenTree) : Prop where
  spells : ∀ (p : Priority) (s : TokenStream) {us : List TokenTree},
    (TokenStream.parens .filter p s).Spells us →
      (c.source p s).Spells (group .square inner :: word "of" :: us)
  read_eq : ∀ᶠ n in Filter.atTop, (readers n).brackets inner = some c.canonical

theorem spells_bracketed
    {elements : List TokenStream} {inner : List TokenTree}
    (h : (TokenStream.join elements ",").Spells inner) {s : TokenStream} {us : List TokenTree}
    (hs : s.Spells us) :
    (TokenStream.ofParts [bracketed elements, "of", s]).Spells
      (group .square inner :: word "of" :: us) := by
  have hbracketed : (bracketed elements).Spells [group .square inner] :=
    (TokenStream.PartsSpell.group .square h .nil).ofParts
  exact (TokenStream.PartsSpell.cons hbracketed (.word rfl (.last hs))).ofParts

theorem length_canonicalAll
    (values : List Value) :
    (Value.canonicalAll values).length = values.length := by
  induction values with
  | nil => rfl
  | cons value values ih => rw [Value.canonicalAll, List.length_cons, ih, List.length_cons]

/-- The outputs of a projection and its computed columns are told apart. -/
theorem filterMap_columns
    {α β : Type} (outputs : List α) (computed : List β) :
    (outputs.map Sum.inl ++ computed.map Sum.inr).filterMap Sum.getLeft? = outputs ∧
      (outputs.map Sum.inl ++ computed.map Sum.inr).filterMap Sum.getRight? = computed := by
  induction outputs with
  | nil =>
      induction computed with
      | nil => exact ⟨rfl, rfl⟩
      | cons value _ ih => exact ⟨ih.1, congrArg (value :: ·) ih.2⟩
  | cons name _ ih => exact ⟨congrArg (name :: ·) ih.1, ih.2⟩

/-- There is no question among columns if none of them is one. -/
theorem isQuestion_separated
    {ps : List (List TokenTree)} (h : ∀ p ∈ ps, isQuestion p = false) :
    isQuestion (separated (word ",") ps) = false := by
  match ps with
  | [] => rfl
  | [p] => exact h p (List.mem_singleton_self p)
  | p :: q :: ps =>
      refine isQuestion_eq_false_iff.mpr ⟨isProbe_cut p (by decide) _, fun hfilter => ?_⟩
      have hpieces := avoids_of_separated hfilter
      exact forall_mem_separated (by decide) _ fun p hp =>
        (isQuestion_eq_false_iff.mp (h p hp)).2 (hpieces p hp)

theorem Clause.isFront_projection
    {args : List String} (hargs : args.all isName = true) {columns : List Value}
    (hlegible : Value.allLegible columns = true) {ps : List (List TokenTree)}
    (hcolumns : List.Forall₂ Value.IsRead columns ps) {labels : List (Option String)}
    (hlength : labels.length = columns.length)
    (hlabels : ((columns.zip labels).all fun (value, label) =>
      label.elim (!value.isVar) isName) = true) :
    ∃ inner, (Clause.projection args columns labels).IsFront inner := by
  obtain ⟨qs, hqs, hquestions⟩ := allReadable_computations hcolumns hlegible hlength hlabels
  have hnames : AllReadable readProjected [",", ":"] (args.map TokenStream.literal)
      (args.map fun name => [word name]) (args.map Sum.inl) := by
    refine allReadable_names (by decide) (fun name hname n => ?_) hargs
    rw [readProjected, Readers.projected, readName?_of_isName hname]
  have houtputs : ∀ p ∈ args.map (fun name => [word name]), isQuestion p = false := by
    rw [List.forall_mem_map]
    intro name hname
    exact isQuestion_eq_false_iff.mpr
      ⟨rfl, fun _ => avoids_of_isName (List.all_eq_true.mp hargs name hname) (by decide)⟩
  have hall := hnames.append hqs
  refine ⟨_, fun p s us hs => spells_bracketed (hall.spells_join rfl) hs, ?_⟩
  filter_upwards [hall.read_items (word ",") rfl (by decide)] with n hn
  have hcolon := hasMark_eq_false (hall.avoids_separated (word ",") (by decide)
    (by decide : [":"] ⊆ [",", ":"]))
  have hquestion := isQuestion_separated (List.forall_mem_append.mpr ⟨houtputs, hquestions⟩)
  obtain ⟨hleft, hright⟩ := filterMap_columns args ((Value.canonicalAll columns).zip labels)
  have hsame : (Value.canonicalAll columns).length = labels.length := by
    rw [length_canonicalAll, hlength]
  dsimp only [readProjected] at hn
  rw [Readers.brackets, hcolon, if_neg Bool.false_ne_true, hquestion, if_neg Bool.false_ne_true, hn,
    Option.map_some, hleft, hright]
  dsimp only
  rw [List.map_fst_zip hsame.le, List.map_snd_zip hsame.ge]
  rfl

theorem Filter.exists_question
    {f : Filter} (h : f.isLegible = true) (hcolumn : f.isLikeColumn = false) :
    ∃ ts, f.IsRead ts ∧ isQuestion ts = true := by
  obtain ⟨ts, hts⟩ := Filter.isRead_of_isLegible f h
  by_cases hpriority : f.priority = .primary
  · cases f with
    | dontCare range name => exact ⟨_, Filter.isRead_dontCare h range, rfl⟩
    | external call filter =>
        rw [Filter.isLegible, Bool.and_eq_true] at h
        obtain ⟨us, -, hus⟩ := Invocation.readable_of_isLegible call h.1
        obtain ⟨vs, hvs⟩ := Filter.isRead_of_isLegible filter h.2
        obtain ⟨_, hexternal⟩ := Filter.isRead_external hus hvs
        exact ⟨_, hexternal, rfl⟩
    | _ => exact absurd (beq_iff_eq.mpr hpriority) (Bool.eq_false_iff.mp hcolumn)
  · refine ⟨ts, hts, ?_⟩
    rw [isQuestion, hasMark_eq_false (hts.avoids.mono (by decide)),
      hasMark_eq_true (hts.tests hpriority)]
    exact Bool.or_true _

theorem Clause.isFront_question
    {f : Filter} {ts : List TokenTree} (h : f.IsRead ts) (hquestion : isQuestion ts = true) :
    (Clause.question f).IsFront ts := by
  refine ⟨fun p s us hs => ?_, ?_⟩
  · exact (TokenStream.PartsSpell.group .square h.spells (.word rfl (.last hs))).ofParts
  · filter_upwards [h.read_eq] with n hn
    dsimp only [readFilter] at hn
    rw [Readers.brackets, hasMark_eq_false (h.avoids.mono (by decide)), if_neg Bool.false_ne_true,
      if_pos hquestion, hn]
    rfl

/-! ## Selections -/

abbrev readColumn (n : Nat) : List TokenTree → Option Column :=
  (readers n).column

theorem readable_column
    {c : Column} (h : c.isLegible = true) :
    ∃ ts, Readable readColumn structureMarks c.source ts c.canonical := by
  cases c with
  | path name =>
      refine ⟨[word name], ?_⟩
      exact
        { spells := TokenStream.spells_token (isPlain_of_isName h)
          ne_nil := List.cons_ne_nil _ _
          avoids := avoids_of_isName h (by decide)
          read_eq := Filter.Eventually.of_forall fun n => by
            rw [readColumn, Readers.column, readName?_of_isName h]
            rfl }
  | value v =>
      rw [Column.isLegible, Bool.and_eq_true, Bool.not_eq_true'] at h
      obtain ⟨ts, hts⟩ := Value.isRead_of_isLegible v h.2
      refine ⟨ts, hts.spells, hts.ne_nil, hts.avoids, ?_⟩
      filter_upwards [hts.read_eq] with n hn
      dsimp only [readValue] at hn
      rw [readColumn, Readers.column, readName?_eq_none hts.toReadable h.1]
      dsimp only
      rw [hn]
      rfl

/-- The label of a column, after the column. -/
def labelSource : Option String → TokenStream
  | some label => .ofParts ["as", label]
  | none => .empty

theorem spells_label
    {label : Option String} (h : label.all isName = true) :
    (labelSource label).Spells (labelTrees label) := by
  cases label with
  | none => exact TokenStream.spells_empty
  | some label =>
      exact (TokenStream.PartsSpell.word rfl (.word (isPlain_of_isName h) .nil)).ofParts

theorem readable_labelledColumn
    {c : Column} (h : c.isLegible = true) {label : Option String} (hlabel : label.all isName = true)
    (types : List Ty) :
    ∃ ts, TokenStream.PartsSpell [c.source, labelSource label] ts ∧ ts ≠ [] ∧ Avoids [",", ":"] ts ∧
      ∀ᶠ n in Filter.atTop, (readers n).columnOf types ts = some ⟨c.canonical, label, types⟩ := by
  obtain ⟨ts, hts⟩ := readable_column h
  refine ⟨ts ++ labelTrees label, .cons hts.spells (.last (spells_label hlabel)),
    List.append_ne_nil_of_left_ne_nil hts.ne_nil _, ?_, ?_⟩
  · refine avoids_append.mpr ⟨hts.avoids.mono (by decide), ?_⟩
    cases label with
    | none => exact avoids_nil
    | some label => exact avoids_word_cons.mpr ⟨by decide, avoids_of_isName hlabel (by decide)⟩
  · filter_upwards [hts.read_eq] with n hn
    have has : Avoids ["as"] ts := hts.avoids.mono (by decide)
    dsimp only [readColumn] at hn
    cases label with
    | none =>
        rw [labelTrees, List.append_nil, Readers.columnOf, cutFirst?_eq_none has]
        dsimp only
        rw [hn]
        rfl
    | some label =>
        rw [labelTrees, Readers.columnOf, cutFirst?_append has (List.mem_singleton_self _)]
        dsimp only
        rw [hn, readName?_of_isName hlabel]
        rfl

theorem allReadable_types
    {types : List Ty} (h : types.all Ty.isLegible = true) :
    AllReadable (fun _ => readTypeTree?) structureMarks
      (types.map fun type => TokenStream.literal type.display)
      (types.map fun type => [word type.display]) types := by
  induction types with
  | nil => exact .nil
  | cons type types ih =>
      rw [List.all_cons, Bool.and_eq_true] at h
      refine .cons ?_ (ih h.2)
      exact
        { spells := TokenStream.spells_token (Ty.isPlain_of_isLegible h.1)
          ne_nil := List.cons_ne_nil _ _
          avoids := avoids_word (Ty.display_not_mem h.1)
          read_eq := Filter.Eventually.of_forall fun _ => Ty.readType?_of_isLegible h.1 }

theorem readable_selected
    {s : Selected} (h : s.isLegible = true) :
    ∃ ts, Readable readSelected [","] s.source ts s.canonical ∧
      (s.types.isEmpty = false → ¬ Avoids [":"] ts) := by
  obtain ⟨column, label, types⟩ := s
  rw [Selected.isLegible, Bool.and_eq_true, Bool.and_eq_true] at h
  obtain ⟨⟨hcolumn, hlabel⟩, htypes⟩ := h
  obtain ⟨ts, hspells, hne, havoids, hread⟩ := readable_labelledColumn hcolumn hlabel types
  cases types with
  | nil =>
      refine ⟨ts, ⟨?_, hne, havoids.mono (by decide), ?_⟩, fun h => nomatch h⟩
      · have hsource := (hspells.append (.last TokenStream.spells_empty)).ofParts
        rw [List.append_nil] at hsource
        exact hsource
      · filter_upwards [hread] with n hn
        rw [readSelected, Readers.selected, cutFirst?_eq_none (havoids.mono (by decide))]
        exact hn
  | cons type types =>
      have hall := allReadable_types htypes
      refine ⟨ts ++ word ":" ::
        separated (word "|") ((type :: types).map fun type => [word type.display]),
        ⟨?_, List.append_ne_nil_of_left_ne_nil hne _, ?_, ?_⟩, fun _ h => ?_⟩
      · exact (hspells.append (.last (TokenStream.PartsSpell.word rfl
          (.last (hall.spells_join rfl))).ofParts)).ofParts
      · exact avoids_cut.mpr ⟨havoids.mono (by decide), by decide,
          hall.avoids_separated _ (by decide) (by decide)⟩
      · filter_upwards [hread, hall.read_items (word "|") rfl (by decide)] with n hn hm
        rw [readSelected, Readers.selected,
          cutFirst?_append (havoids.mono (by decide)) (List.mem_singleton_self _)]
        dsimp only
        rw [readTypes?, hm]
        exact hn
      · exact (avoids_cut.mp h).2.1 (List.mem_singleton_self _)

theorem allReadable_selected
    {elements : List Selected} (h : elements.all Selected.isLegible = true) :
    ∃ ps, AllReadable readSelected [","] (elements.map Selected.source) ps
        (elements.map Selected.canonical) ∧
      ((elements.any fun s => !s.types.isEmpty) = true → ∃ p ∈ ps, ¬ Avoids [":"] p) := by
  induction elements with
  | nil => exact ⟨[], .nil, fun h => nomatch h⟩
  | cons s elements ih =>
      rw [List.all_cons, Bool.and_eq_true] at h
      obtain ⟨ts, hts, htype⟩ := readable_selected h.1
      obtain ⟨ps, hps, htypes⟩ := ih h.2
      refine ⟨ts :: ps, .cons hts hps, fun hany => ?_⟩
      rw [List.any_cons, Bool.or_eq_true, Bool.not_eq_true'] at hany
      obtain hempty | hany := hany
      · exact ⟨ts, List.mem_cons_self, htype hempty⟩
      · obtain ⟨p, hp, hcolon⟩ := htypes hany
        exact ⟨p, List.mem_cons_of_mem _ hp, hcolon⟩

theorem Clause.isFront_selection
    {elements : List Selected} (h : elements.all Selected.isLegible = true)
    (htyped : (elements.any fun s => !s.types.isEmpty) = true) :
    ∃ inner, (Clause.selection elements).IsFront inner := by
  obtain ⟨ps, hps, hcolon⟩ := allReadable_selected h
  obtain ⟨p, hp, hpcolon⟩ := hcolon htyped
  refine ⟨_, fun _ _ _ hs => spells_bracketed (hps.spells_join rfl) hs, ?_⟩
  filter_upwards [hps.read_items (word ",") rfl (by decide)] with n hn
  have hmark : hasMark [":"] (separated (word ",") ps) = true :=
    hasMark_eq_true fun havoids => hpcolon (avoids_of_separated havoids p hp)
  dsimp only [readSelected] at hn
  rw [Readers.brackets, if_pos hmark, hn]
  rfl

/-! ## Brackets after an expression -/

/-- The clause puts brackets with some trees after an expression. -/
structure Clause.IsBack (c : Clause) (inner : List TokenTree) : Prop where
  spells : ∀ (p : Priority) (s : TokenStream) {us : List TokenTree},
    (TokenStream.parens .index p s).Spells us → (c.source p s).Spells (us ++ [group .square inner])
  read_eq : ∀ᶠ n in Filter.atTop, (readers n).place inner = some c.canonical

theorem map_source
    (values : List Value) :
    (Value.sources values).map Prod.snd = values.map Value.source := by
  induction values with
  | nil => rfl
  | cons value values ih => rw [Value.sources, List.map_cons, ih, List.map_cons]

theorem Clause.isBack_index
    {indices : List Value} {ps : List (List TokenTree)}
    (h : List.Forall₂ Value.IsRead indices ps) :
    (Clause.index indices).IsBack (separated (word ",") ps) := by
  have hvalues := allReadable_sources h
  rw [map_source] at hvalues
  refine ⟨fun p s us hs => ?_, ?_⟩
  · have hplace : (bracketed (indices.map Value.source)).Spells
        [group .square (separated (word ",") ps)] :=
      (TokenStream.PartsSpell.group .square (hvalues.spells_join rfl) .nil).ofParts
    exact (TokenStream.PartsSpell.cons hs (.last hplace)).ofParts
  · filter_upwards [hvalues.read_items (word ",") rfl (by decide)] with n hn
    have hcolon : Avoids [":"] (separated (word ",") ps) :=
      hvalues.avoids_separated _ (by decide) (by decide)
    dsimp only [readValue] at hn
    rw [Readers.place, cutFirst?_eq_none hcolon]
    dsimp only
    rw [hn]
    rfl

theorem Clause.isBack_slice
    {base limit : Value} {ts us : List TokenTree} (hbase : base.IsRead ts)
    (hlimit : limit.IsRead us) :
    (Clause.slice base limit).IsBack (ts ++ word ":" :: us) := by
  refine ⟨fun p s vs hs => ?_, ?_⟩
  · have hinner : TokenStream.PartsSpell [base.source, ":", limit.source] (ts ++ word ":" :: us) :=
      .cons hbase.spells (.word rfl (.last hlimit.spells))
    exact (TokenStream.PartsSpell.cons hs (.enclosed .square hinner .nil)).ofParts
  · filter_upwards [hbase.read_eq, hlimit.read_eq] with n hn hm
    dsimp only [readValue] at hn hm
    rw [Readers.place, cutFirst?_append (hbase.avoids.mono (by decide)) (List.mem_singleton_self _)]
    dsimp only
    rw [hn, hm]
    rfl

end SkillLang
