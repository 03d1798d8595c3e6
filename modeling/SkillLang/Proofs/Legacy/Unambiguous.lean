import SkillLang.Proofs.Legacy.Canonical
import SkillLang.Proofs.Legacy.Readable

/-!
# Legacy sources are unambiguous

The source of a table or a stream shows the tree: its parts are found again between the words and
signs around them.  Only what is not written is lost, which are ranges and signatures, and so is
the difference of leaves that are written alike.
-/

namespace SkillLang

namespace Legacy

open TokenTree

/-! ## Tables -/

/-- The source of the table is read as the table. -/
def Table.IsRead (t : Table) : Prop :=
  ∃ ts, Reads readTable readCalledTable t.isPrimary t.source ts t.canonical

section Tables

variable {ts us : List TokenTree} {t u : Table}

theorem readTableForm_part
    (h : IsPart us) (part : List TokenTree → Option Table) (ts : List TokenTree) :
    readTableForm part (us ++ ts) =
      Table.forms.readBehind part part (readUnmarkedTable part) (us ++ ts) := by
  cases h with
  | wrapped inner => rfl
  | called h =>
      obtain ⟨w, rest, rfl, hw⟩ := h.exists_head
      simp only [frontWords, List.mem_cons, not_or] at hw
      rw [List.cons_append, readTableForm, if_neg hw.1, if_neg hw.2.1, if_neg hw.2.2.1]

/-- Brackets behind a part are a place in the table. -/
theorem readTableForm_brackets
    (h : IsPart us) (part : List TokenTree → Option Table) (inner : List TokenTree) :
    readTableForm part (us ++ [group .square inner]) =
      (part us).bind fun table => readPlace table inner := by
  have havoids : Avoids partMarks (us ++ [group .square inner]) :=
    avoids_append.mpr ⟨h.avoids, avoids_group _ _⟩
  rw [readTableForm_part h, Forms.readBehind_unmarked _ havoids, readUnmarkedTable,
    backBrackets?_part h]

namespace Table.IsRead

theorem of_called
    (hspells : t.source.Spells ts) (hcalled : IsCalled ts)
    (hread : readCalledTable ts = some t.canonical) :
    t.IsRead := by
  refine ⟨ts, .of_called hspells hcalled hread fun n => ?_⟩
  have hform := readTableForm_part (.called hcalled) (readTablePart n) []
  rw [List.append_nil] at hform
  rw [readTable, hform, Forms.readBehind_unmarked _ hcalled.avoids, readUnmarkedTable,
    backBrackets?_called hcalled]

/-- A table that is not a call is read by the words and signs around its parts. -/
theorem of_form
    (hprimary : t.isPrimary = false) (hspells : t.source.Spells ts)
    (hread : ∀ᶠ n in Filter.atTop, readTableForm (readTablePart n) ts = some t.canonical) :
    t.IsRead := by
  rw [IsRead, hprimary]
  exact ⟨ts, .of_form hspells hread⟩

/-- The table as a part of something else. -/
theorem exists_part
    (h : t.IsRead) :
    ∃ us, PartReads readTablePart (wrapped t.isPrimary t.source) us t.canonical := by
  obtain ⟨_, ht⟩ := h
  exact ht.part

theorem of_behind
    (hprimary : t.isPrimary = false) (hpart : IsPart us) (hspells : t.source.Spells (us ++ ts))
    (hread : ∀ᶠ n in Filter.atTop, Table.forms.readBehind (readTablePart n) (readTablePart n)
      (readUnmarkedTable (readTablePart n)) (us ++ ts) = some t.canonical) :
    t.IsRead := by
  refine of_form hprimary hspells ?_
  filter_upwards [hread] with n hn
  rw [readTableForm_part hpart, hn]

theorem invocation
    {i : Invocation} (h : i.isSimple = true) :
    (Table.invocation i).IsRead := by
  obtain ⟨ts, hspells, hcalled, hread⟩ := reads_invocation h
  exact of_called hspells hcalled hread

theorem call
    {name : String} (hname : isFreeWord name = true) {params : List Param}
    (hparams : params.all Param.isSimple = true) :
    (Table.call name params).IsRead := by
  obtain ⟨inner, hspells, hcalled, hread⟩ := reads_call hname hparams
  refine of_called hspells hcalled ?_
  rw [readCalledTable, afterPrefix?_of_isFreeWord hname, if_neg Bool.false_ne_true, hread]
  rfl

theorem filter
    (h : t.IsRead) {test : Filter} (htest : test.isOneToken = true) :
    (Table.filter t test).IsRead := by
  obtain ⟨us, hus⟩ := h.exists_part
  obtain ⟨ts, hspells, hread⟩ := Table.forms.exists_filter _ _ htest hus
  exact of_behind rfl hus.isPart hspells hread

theorem projection
    (h : t.IsRead) {args : List String} (hargs : args.all isFreeWord = true) :
    (Table.projection t args).IsRead := by
  obtain ⟨us, hus⟩ := h.exists_part
  obtain ⟨names, hspells, hread⟩ := Table.forms.exists_projection hargs hus
  exact of_form rfl hspells hread

theorem compute
    (h : t.IsRead) {v : Value} (hv : v.isOneToken = true) {label : Option String}
    (hlabel : label.all isFreeWord = true) :
    (Table.compute t v label).IsRead := by
  obtain ⟨us, hus⟩ := h.exists_part
  obtain ⟨ts, hspells, hread⟩ := Table.forms.exists_compute hv hlabel hus
  exact of_form rfl hspells hread

theorem named
    (h : t.IsRead) {name : String} (hname : isFreeWord name = true) :
    (Table.named t name).IsRead := by
  obtain ⟨us, hus⟩ := h.exists_part
  obtain ⟨ts, hspells, hread⟩ := Table.forms.exists_named _ _ hname hus
  exact of_behind rfl hus.isPart hspells hread

theorem aggregation
    (h : t.IsRead) {field op : String} (hfield : isFreeWord field = true)
    (hop : isFreeWord op = true) :
    (Table.aggregation t field op).IsRead := by
  obtain ⟨us, hus⟩ := h.exists_part
  have hopPlain := isPlain_of_isFreeWord hop
  by_cases hstar : field = "*"
  · subst hstar
    have hspells : (Table.aggregation t "*" op).source.Spells
        (word "aggregate" :: word op :: word "of" :: us) :=
      (TokenStream.PartsSpell.word rfl
        (.word hopPlain (.word rfl (.last hus.spells)))).ofParts
    refine of_form rfl hspells ?_
    filter_upwards [hus.read_eq] with n hn
    rw [readTableForm, if_neg (by decide), if_pos rfl, readAggregation, if_pos rfl, hn]
    rfl
  · have hsource : (Table.aggregation t field op).source =
        .ofParts ["aggregate", op, field, "of", wrapped t.isPrimary t.source] :=
      if_neg (mt beq_iff_eq.mp hstar)
    have hof : field ≠ "of" := ne_of_not_mem_keywords (not_mem_of_isFreeWord hfield) (by decide)
    have hspells : (Table.aggregation t field op).source.Spells
        (word "aggregate" :: word op :: word field :: word "of" :: us) := by
      rw [hsource]
      exact (TokenStream.PartsSpell.word rfl (.word hopPlain
        (.word (isPlain_of_isFreeWord hfield) (.word rfl (.last hus.spells))))).ofParts
    refine of_form rfl hspells ?_
    filter_upwards [hus.read_eq] with n hn
    rw [readTableForm, if_neg (by decide), if_pos rfl, readAggregation, if_neg hof,
      readAggregated, hn]
    rfl

theorem sort
    (h : t.IsRead) {field : String} (hfield : isFreeWord field = true)
    (direction : SortDirection) :
    (Table.sort t field direction).IsRead := by
  obtain ⟨us, hus⟩ := h.exists_part
  have hfieldPlain := isPlain_of_isFreeWord hfield
  have hdirection : Token.isPlain (.literal direction.name) = true := by cases direction <;> rfl
  have hspells : (Table.sort t field direction).source.Spells
      (word "sort" :: word field :: word direction.name :: word "of" :: us) :=
    (TokenStream.PartsSpell.word rfl (.word hfieldPlain
      (.word hdirection (.word rfl (.last hus.spells))))).ofParts
  refine of_form rfl hspells ?_
  · filter_upwards [hus.read_eq] with n hn
    rw [readTableForm, if_neg (by decide), if_neg (by decide), if_pos rfl, readSorted, hn]
    cases direction <;> rfl

theorem index
    (h : t.IsRead) {indices : List Value} (hindices : indices.all Value.isOneToken = true) :
    (Table.index t indices).IsRead := by
  obtain ⟨us, hus⟩ := h.exists_part
  obtain ⟨inner, hinner, havoids, hread⟩ := reads_values hindices
  refine of_form rfl (TokenStream.PartsSpell.cons hus.spells (.last hinner)).ofParts ?_
  filter_upwards [hus.read_eq] with n hn
  rw [readTableForm_brackets hus.isPart, hn, Option.bind_some, readPlace, cutFirst?_eq_none havoids]
  dsimp only
  rw [hread]
  rfl

theorem slice
    (h : t.IsRead) {base limit : Value} (hbase : base.isOneToken = true)
    (hlimit : limit.isOneToken = true) :
    (Table.slice t base limit).IsRead := by
  obtain ⟨us, hus⟩ := h.exists_part
  obtain ⟨b, hb⟩ := readable_value hbase
  obtain ⟨l, hl⟩ := readable_value hlimit
  have hbrackets : TokenStream.PartsSpell ["[", base.source, ":", limit.source, "]"]
      [group .square ([leaf b] ++ word ":" :: [leaf l])] :=
    .enclosed .square (.cons hb.spells (.word rfl (.last hl.spells))) .nil
  have hcut : Avoids [":"] [leaf b] := hb.avoids.mono (by decide)
  refine of_form rfl (TokenStream.PartsSpell.cons hus.spells hbrackets).ofParts ?_
  filter_upwards [hus.read_eq, hb.read_eq, hl.read_eq] with n hn hreadBase hreadLimit
  rw [readTableForm_brackets hus.isPart, hn, Option.bind_some, readPlace,
    cutFirst?_append hcut (List.mem_singleton_self _)]
  dsimp only
  rw [hreadBase, hreadLimit]
  rfl

theorem join
    (h : t.IsRead) (hu : u.IsRead) {params : List Param}
    (hparams : params.all Param.isSimple = true) :
    (Table.join t u params).IsRead := by
  obtain ⟨us, hus⟩ := h.exists_part
  obtain ⟨vs, hvs⟩ := hu.exists_part
  obtain ⟨ts, hspells, hread⟩ := Table.forms.exists_join _ _ hparams hus hvs
  exact of_behind rfl hus.isPart hspells hread

end Table.IsRead

end Tables

/-- The sources of simple tables are read, one form around the other. -/
theorem Table.isRead :
    (t : Table) → t.isSimple = true → t.IsRead
  | invocation _, h => .invocation h
  | call _ _, h =>
      have h := Bool.and_eq_true_iff.mp h
      .call h.1 h.2
  | filter table _, h =>
      have h := Bool.and_eq_true_iff.mp h
      (table.isRead h.1).filter h.2
  | projection table _, h =>
      have h := Bool.and_eq_true_iff.mp h
      (table.isRead h.1).projection h.2
  | compute table _ _, h =>
      have h := Bool.and_eq_true_iff.mp h
      have hvalue := Bool.and_eq_true_iff.mp h.1
      (table.isRead hvalue.1).compute hvalue.2 h.2
  | named table _, h =>
      have h := Bool.and_eq_true_iff.mp h
      (table.isRead h.1).named h.2
  | aggregation table _ _, h =>
      have h := Bool.and_eq_true_iff.mp h
      have hfield := Bool.and_eq_true_iff.mp h.1
      (table.isRead hfield.1).aggregation hfield.2 h.2
  | sort table _ direction, h =>
      have h := Bool.and_eq_true_iff.mp h
      (table.isRead h.1).sort h.2 direction
  | index table _, h =>
      have h := Bool.and_eq_true_iff.mp h
      (table.isRead h.1).index h.2
  | slice table _ _, h =>
      have h := Bool.and_eq_true_iff.mp h
      have hbase := Bool.and_eq_true_iff.mp h.1
      (table.isRead hbase.1).slice hbase.2 h.2
  | join lhs rhs _, h =>
      have h := Bool.and_eq_true_iff.mp h
      have hsides := Bool.and_eq_true_iff.mp h.1
      (lhs.isRead hsides.1).join (rhs.isRead hsides.2) h.2

/-! ## Streams -/

/-- The source of the stream is read as the stream. -/
def Stream.IsRead (s : Stream) : Prop :=
  ∃ ts, Reads readStream readCalledStream s.isPrimary s.source ts s.canonical

section Streams

variable {ts us : List TokenTree} {s : Stream} {t : Table}

theorem readStreamForm_part
    (h : IsPart us) (part : List TokenTree → Option Stream)
    (table tablePart : List TokenTree → Option Table) (ts : List TokenTree) :
    readStreamForm part table tablePart (us ++ ts) =
      Stream.forms.readBehind part tablePart readCalledStream (us ++ ts) := by
  cases h with
  | wrapped inner => rfl
  | called h =>
      obtain ⟨w, rest, rfl, hw⟩ := h.exists_head
      simp only [frontWords, List.mem_cons, not_or] at hw
      rw [List.cons_append, readStreamForm, if_neg hw.1, if_neg hw.2.2.2.1, if_neg hw.2.2.2.2.1]

theorem allReadable_optional
    {name : String} (hname : isFreeWord name = true) {value : Option Value}
    (h : value.all Value.isOneToken = true) :
    ∃ ps, AllReadable (fun _ => leafReaders.param) [","] (optionalSource name value) ps
      (value.map fun v => ⟨name, v.readBack, none⟩).toList := by
  cases value with
  | none => exact ⟨[], .nil⟩
  | some v =>
      obtain ⟨ts, hts⟩ := readable_named hname h
      exact ⟨[ts], .cons hts .nil⟩

theorem readable_times
    {name : String} (hname : isFreeWord name = true) {times : List Value}
    (h : times.all Value.isOneToken = true) :
    ∃ ts, Readable (fun _ => readTimes) [","] (assignment name (valuesSource times)) ts
      (times.map Value.readBack) := by
  obtain ⟨inner, hinner, -, hread⟩ := reads_values h
  have hcomma : name ≠ "," := ne_of_not_mem_keywords (not_mem_of_isFreeWord hname) (by decide)
  refine ⟨[word name, word "=", group .square inner], ?_, List.cons_ne_nil _ _, ?_, ?_⟩
  · exact (TokenStream.PartsSpell.word (isPlain_of_isFreeWord hname)
      (.word rfl (.last hinner))).ofParts
  · rw [avoids_word_cons, avoids_word_cons, List.mem_singleton]
    exact ⟨hcomma, by decide, avoids_group _ _⟩
  · exact Filter.Eventually.of_forall fun _ => hread

theorem spells_timer
    {name : String} (hname : Token.isPlain (.literal name) = true) {params : List TokenStream}
    (h : (TokenStream.join params ",").Spells ts) :
    (timerSource name params).Spells [word name, group .round ts] :=
  (TokenStream.PartsSpell.word hname (.group .round h .nil)).ofParts

namespace Stream.IsRead

theorem of_called
    (hspells : s.source.Spells ts) (hcalled : IsCalled ts)
    (hread : readCalledStream ts = some s.canonical) :
    s.IsRead := by
  refine ⟨ts, .of_called hspells hcalled hread fun n => ?_⟩
  have hform := readStreamForm_part (.called hcalled) (readStreamPart n) (readTable n)
    (readTablePart n) []
  rw [List.append_nil] at hform
  rw [readStream, hform, Forms.readBehind_unmarked _ hcalled.avoids]

/-- A stream that is not a call is read by the words and signs around its parts. -/
theorem of_form
    (hprimary : s.isPrimary = false) (hspells : s.source.Spells ts)
    (hread : ∀ᶠ n in Filter.atTop,
      readStreamForm (readStreamPart n) (readTable n) (readTablePart n) ts = some s.canonical) :
    s.IsRead := by
  rw [IsRead, hprimary]
  exact ⟨ts, .of_form hspells hread⟩

/-- The stream as a part of something else. -/
theorem exists_part
    (h : s.IsRead) :
    ∃ us, PartReads readStreamPart (wrapped s.isPrimary s.source) us s.canonical := by
  obtain ⟨_, hs⟩ := h
  exact hs.part

theorem of_behind
    (hprimary : s.isPrimary = false) (hpart : IsPart us) (hspells : s.source.Spells (us ++ ts))
    (hread : ∀ᶠ n in Filter.atTop, Stream.forms.readBehind (readStreamPart n) (readTablePart n)
      readCalledStream (us ++ ts) = some s.canonical) :
    s.IsRead := by
  refine of_form hprimary hspells ?_
  filter_upwards [hread] with n hn
  rw [readStreamForm_part hpart, hn]

theorem timer
    {base interval : Value} (hbase : base.isOneToken = true)
    (hinterval : interval.isOneToken = true) {frequency : Option Value}
    (hfrequency : frequency.all Value.isOneToken = true) :
    (Stream.timer base interval frequency).IsRead := by
  obtain ⟨b, hb⟩ := readable_named (by decide : isFreeWord "base" = true) hbase
  obtain ⟨i, hi⟩ := readable_named (by decide : isFreeWord "interval" = true) hinterval
  obtain ⟨ps, hps⟩ := allReadable_optional (by decide : isFreeWord "frequency" = true) hfrequency
  have hall := AllReadable.cons hb (.cons hi hps)
  refine of_called (spells_timer rfl (hall.spells_join rfl)) (.call (by decide) _) ?_
  obtain ⟨_, hread⟩ := (hall.read_items (word ",") rfl (List.mem_singleton_self _)).exists
  rw [readCalledStream, if_pos rfl, readTimer, Readers.params, hread]
  cases frequency <;> rfl

theorem atTimer
    {times : List Value} (htimes : times.all Value.isOneToken = true)
    {expiration : Option Value} (hexpiration : expiration.all Value.isOneToken = true) :
    (Stream.atTimer times expiration).IsRead := by
  obtain ⟨us, hus⟩ := readable_times (by decide : isFreeWord "time" = true) htimes
  obtain ⟨_, htime⟩ := hus.read_eq.exists
  cases expiration with
  | none =>
      have hall := AllReadable.cons hus .nil
      refine of_called (spells_timer rfl (hall.spells_join rfl)) (.call (by decide) _) ?_
      rw [readCalledStream, if_neg (by decide), if_pos rfl, readAtTimer,
        hall.items_eq (word ",") rfl (List.mem_singleton_self _)]
      dsimp only
      rw [htime]
      rfl
  | some v =>
      have hname : isFreeWord "expiration_date" = true := by decide
      obtain ⟨vs, hvs⟩ := readable_named hname hexpiration
      obtain ⟨_, hdate⟩ := hvs.read_eq.exists
      have hspells := TokenStream.spells_join (t := .literal ",") rfl
        (.cons hus.spells (.cons hvs.spells .nil))
        (List.forall_mem_cons.mpr ⟨hus.ne_nil, List.forall_mem_singleton.mpr hvs.ne_nil⟩)
      refine of_called (spells_timer rfl hspells) (.call (by decide) _) ?_
      rw [readCalledStream, if_neg (by decide), if_pos rfl, readAtTimer, separated, separated,
        items_pair hus.ne_nil hus.avoids hvs.avoids]
      dsimp only
      rw [htime, hdate]
      rfl

theorem onTimer
    {dates : List Value} (h : dates.all Value.isOneToken = true) :
    (Stream.onTimer dates).IsRead := by
  obtain ⟨us, hus⟩ := readable_times (by decide : isFreeWord "date" = true) h
  have hall := AllReadable.cons hus .nil
  refine of_called (spells_timer rfl (hall.spells_join rfl)) (.call (by decide) _) ?_
  obtain ⟨_, hread⟩ := hus.read_eq.exists
  rw [readCalledStream, if_neg (by decide), if_neg (by decide), if_pos rfl, separated, hread]
  rfl

theorem call
    {name : String} (hname : isFreeWord name = true)
    (htimer : timerNames.contains name = false) {params : List Param}
    (hparams : params.all Param.isSimple = true) :
    (Stream.call name params).IsRead := by
  obtain ⟨inner, hspells, hcalled, hread⟩ := reads_call hname hparams
  have hne : name ∉ timerNames := fun hmem =>
    Bool.eq_false_iff.mp htimer (List.contains_iff_mem.mpr hmem)
  simp only [timerNames, List.mem_cons, not_or] at hne
  refine of_called hspells hcalled ?_
  rw [readCalledStream, if_neg hne.1, if_neg hne.2.1, if_neg hne.2.2.1, hread]
  rfl

theorem monitor
    (h : t.IsRead) {args : Option (List String)}
    (hargs : args.all (fun args => args.all isFreeWord) = true) :
    (Stream.monitor t args).IsRead := by
  obtain ⟨inner, ht⟩ := h
  have hgroup := (TokenStream.PartsSpell.group .round ht.spells .nil).ofParts
  have hhead := (TokenStream.PartsSpell.word (w := "monitor") rfl (.last hgroup)).ofParts
  cases args with
  | none =>
      refine of_form rfl hhead ?_
      filter_upwards [ht.read_eq] with n hn
      rw [readStreamForm, if_neg (by decide), if_pos rfl, readMonitor, hn]
      rfl
  | some args =>
      obtain ⟨names, hnames, hread⟩ := reads_names hargs
      have hspells : (Stream.monitor t (some args)).source.Spells
          [word "monitor", group .round inner, word "on", word "new", group .square names] :=
        (TokenStream.PartsSpell.cons hhead (.word rfl (.word rfl (.last hnames)))).ofParts
      refine of_form rfl hspells ?_
      filter_upwards [ht.read_eq] with n hn
      rw [readStreamForm, if_neg (by decide), if_pos rfl, readMonitor, hn, hread]
      rfl

/-- A condition on the edges of a stream, which is one word behind the `on`. -/
theorem readEdge_part
    (h : IsPart us) (part : List TokenTree → Option Stream) (w : String) :
    readEdge part (us ++ [word "on", word w]) =
      (part us).bind fun stream =>
        if w = "new" then some (.edgeNew stream)
        else (readTest [word w]).map (.edgeFilter stream) := by
  have havoids : Avoids ["on"] us := h.avoids.mono (by decide)
  rw [readEdge, cutFirst?_append havoids (List.mem_singleton_self _)]

theorem edgeNew
    (h : s.IsRead) :
    (Stream.edgeNew s).IsRead := by
  obtain ⟨us, hus⟩ := h.exists_part
  have hspells : (Stream.edgeNew s).source.Spells
      (word "edge" :: (us ++ [word "on", word "new"])) :=
    (TokenStream.PartsSpell.word rfl (.cons hus.spells (.word rfl (.word rfl .nil)))).ofParts
  refine of_form rfl hspells ?_
  filter_upwards [hus.read_eq] with n hn
  rw [readStreamForm, if_neg (by decide), if_neg (by decide), if_pos rfl,
    readEdge_part hus.isPart, hn]
  rfl

theorem edgeFilter
    (h : s.IsRead) {test : Filter} (htest : test.isOneToken = true) :
    (Stream.edgeFilter s test).IsRead := by
  obtain ⟨us, hus⟩ := h.exists_part
  obtain ⟨w, hw⟩ := readable_test htest
  have hnew : w ≠ "new" := ne_of_not_mem_keywords (avoids_word_cons.mp hw.avoids).1 (by decide)
  have hspells : (Stream.edgeFilter s test).source.Spells
      (word "edge" :: (us ++ [word "on", word w])) :=
    (TokenStream.PartsSpell.word rfl
      (.cons hus.spells (.word rfl (.last hw.spells)))).ofParts
  refine of_form rfl hspells ?_
  filter_upwards [hus.read_eq, hw.read_eq] with n hn hread
  rw [readStreamForm, if_neg (by decide), if_neg (by decide), if_pos rfl,
    readEdge_part hus.isPart, hn, Option.bind_some, if_neg hnew, hread]
  rfl

theorem filter
    (h : s.IsRead) {test : Filter} (htest : test.isOneToken = true) :
    (Stream.filter s test).IsRead := by
  obtain ⟨us, hus⟩ := h.exists_part
  obtain ⟨ts, hspells, hread⟩ := Stream.forms.exists_filter readTablePart _ htest hus
  exact of_behind rfl hus.isPart hspells hread

theorem projection
    (h : s.IsRead) {args : List String} (hargs : args.all isFreeWord = true) :
    (Stream.projection s args).IsRead := by
  obtain ⟨us, hus⟩ := h.exists_part
  obtain ⟨names, hspells, hread⟩ := Stream.forms.exists_projection hargs hus
  exact of_form rfl hspells hread

theorem compute
    (h : s.IsRead) {v : Value} (hv : v.isOneToken = true) {label : Option String}
    (hlabel : label.all isFreeWord = true) :
    (Stream.compute s v label).IsRead := by
  obtain ⟨us, hus⟩ := h.exists_part
  obtain ⟨ts, hspells, hread⟩ := Stream.forms.exists_compute hv hlabel hus
  exact of_form rfl hspells hread

theorem named
    (h : s.IsRead) {name : String} (hname : isFreeWord name = true) :
    (Stream.named s name).IsRead := by
  obtain ⟨us, hus⟩ := h.exists_part
  obtain ⟨ts, hspells, hread⟩ := Stream.forms.exists_named readTablePart _ hname hus
  exact of_behind rfl hus.isPart hspells hread

theorem join
    (h : s.IsRead) (ht : t.IsRead) {params : List Param}
    (hparams : params.all Param.isSimple = true) :
    (Stream.join s t params).IsRead := by
  obtain ⟨us, hus⟩ := h.exists_part
  obtain ⟨vs, hvs⟩ := ht.exists_part
  obtain ⟨ts, hspells, hread⟩ := Stream.forms.exists_join readTablePart _ hparams hus hvs
  exact of_behind rfl hus.isPart hspells hread

end Stream.IsRead

end Streams

/-- The sources of simple streams are read, one form around the other. -/
theorem Stream.isRead :
    (s : Stream) → s.isSimple = true → s.IsRead
  | timer _ _ _, h =>
      have h := Bool.and_eq_true_iff.mp h
      have hbase := Bool.and_eq_true_iff.mp h.1
      .timer hbase.1 hbase.2 h.2
  | atTimer _ _, h =>
      have h := Bool.and_eq_true_iff.mp h
      .atTimer h.1 h.2
  | onTimer _, h => .onTimer h
  | call _ _, h =>
      have h := Bool.and_eq_true_iff.mp h
      have hname := Bool.and_eq_true_iff.mp h.1
      .call hname.1 (Bool.not_eq_true' _ ▸ hname.2) h.2
  | monitor table _, h =>
      have h := Bool.and_eq_true_iff.mp h
      .monitor (table.isRead h.1) h.2
  | edgeNew stream, h => (stream.isRead h).edgeNew
  | edgeFilter stream _, h =>
      have h := Bool.and_eq_true_iff.mp h
      (stream.isRead h.1).edgeFilter h.2
  | filter stream _, h =>
      have h := Bool.and_eq_true_iff.mp h
      (stream.isRead h.1).filter h.2
  | projection stream _, h =>
      have h := Bool.and_eq_true_iff.mp h
      (stream.isRead h.1).projection h.2
  | compute stream _ _, h =>
      have h := Bool.and_eq_true_iff.mp h
      have hvalue := Bool.and_eq_true_iff.mp h.1
      (stream.isRead hvalue.1).compute hvalue.2 h.2
  | named stream _, h =>
      have h := Bool.and_eq_true_iff.mp h
      (stream.isRead h.1).named h.2
  | join stream table _, h =>
      have h := Bool.and_eq_true_iff.mp h
      have hsides := Bool.and_eq_true_iff.mp h.1
      (stream.isRead hsides.1).join (table.isRead hsides.2) h.2

/-! ## Equal sources -/

/-- Two tables, or two streams, have the same source exactly if they are the same but for ranges,
signatures, and the difference of leaves that are written alike. -/
theorem source_eq_iff_canonical_eq :
    (∀ t u : Table, t.isSimple = true → u.isSimple = true →
      (t.source.toList = u.source.toList ↔ t.canonical = u.canonical)) ∧
    ∀ s r : Stream, s.isSimple = true → r.isSimple = true →
      (s.source.toList = r.source.toList ↔ s.canonical = r.canonical) := by
  constructor
  · intro t u ht hu
    obtain ⟨_, hreadT⟩ := t.isRead ht
    obtain ⟨_, hreadU⟩ := u.isRead hu
    refine ⟨hreadT.eq_of_toList_eq hreadU, fun h => ?_⟩
    rw [← t.toList_source_canonical, h, u.toList_source_canonical]
  · intro s r hs hr
    obtain ⟨_, hreadS⟩ := s.isRead hs
    obtain ⟨_, hreadR⟩ := r.isRead hr
    refine ⟨hreadS.eq_of_toList_eq hreadR, fun h => ?_⟩
    rw [← s.toList_source_canonical, h, r.toList_source_canonical]

/-- The mails from someone. -/
def mailFrom (v : Value) (range : Option Range) : Table :=
  .invocation ⟨.device (.ofKind "com.mail"), "inbox", [⟨"from", v, range⟩], range, none⟩

/-- The last mail from someone, by its date. -/
def lastMailFrom (v : Value) (range : Option Range) : Table :=
  .index (.sort (.filter (mailFrom v range) .always) "date" .desc) [.var "place" none]

theorem lastMailFrom_canonical_eq :
    (lastMailFrom (.undefined true) none).isSimple = true ∧
      (lastMailFrom (.undefined false) (some ⟨⟨none, some 1, none, none⟩,
        ⟨none, some 2, none, none⟩⟩)).isSimple = true ∧
      (lastMailFrom (.undefined true) none).canonical =
        (lastMailFrom (.undefined false) (some ⟨⟨none, some 1, none, none⟩,
          ⟨none, some 2, none, none⟩⟩)).canonical ∧
      (Stream.monitor (lastMailFrom (.undefined true) none) none).source.toList ≠
        (Stream.monitor (lastMailFrom (.boolean true) none) (some ["date"])).source.toList := by
  refine ⟨rfl, rfl, (source_eq_iff_canonical_eq.1 _ _ rfl rfl).mp rfl, fun h => ?_⟩
  have hcanonical := (source_eq_iff_canonical_eq.2 _ _ rfl rfl).mp h
  cases hcanonical

/-- A hole is written alike whether it is local or not, so these tables differ in more than ranges
and signatures, of which they have none. -/
theorem mailFrom_undefined_ambiguous :
    (mailFrom (.undefined true) none).isSimple = true ∧
      (mailFrom (.undefined false) none).isSimple = true ∧
      (mailFrom (.undefined true) none).source.toList =
        (mailFrom (.undefined false) none).source.toList ∧
      mailFrom (.undefined true) none ≠ mailFrom (.undefined false) none := by
  refine ⟨rfl, rfl, rfl, fun h => ?_⟩
  simp only [mailFrom, Table.invocation.injEq, Invocation.mk.injEq, List.cons.injEq,
    Param.mk.injEq, Value.undefined.injEq] at h
  exact absurd h.2.2.1.1.2.1 (by decide)

end Legacy

end SkillLang
