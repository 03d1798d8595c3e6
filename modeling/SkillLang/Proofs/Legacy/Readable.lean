import SkillLang.Proofs.Legacy.Reader
import SkillLang.Proofs.Source.ReadableCalls

/-!
# Readable parts of legacy trees

The leaves, lists, inputs and calls that tables and streams are made of, and the forms that there
are of both.  A part that is not a call stands in parentheses, so none of the marks around the part
is found in it.
-/

namespace SkillLang

open TokenTree

/-! ## Simple trees -/

namespace Legacy

/-- The word can be a name: it is no bracket, no keyword, and no function of a class. -/
def isFreeWord (w : String) : Bool :=
  Token.isPlain (.literal w) && !keywords.contains w && (afterPrefix? "@" w).isNone

end Legacy

def Param.isSimple (p : Param) : Bool :=
  Legacy.isFreeWord p.name && p.value.isOneToken

/-- The call is one of devices, and its parameters and attributes are leaves. -/
def Invocation.isSimple (i : Invocation) : Bool :=
  match i.selector with
  | .builtin => false
  | .device d =>
    d.attributes.all Param.isSimple &&
      d.attributes.all (fun p => p.name != "id" && p.name != "all") &&
      Legacy.isFreeWord i.channel && !i.channel.toList.contains '.' && i.params.all Param.isSimple

namespace Legacy

def Table.isSimple : Table → Bool
  | invocation i => i.isSimple
  | call name params => isFreeWord name && params.all Param.isSimple
  | filter table test => table.isSimple && test.isOneToken
  | projection table args => table.isSimple && args.all isFreeWord
  | compute table value label => table.isSimple && value.isOneToken && label.all isFreeWord
  | named table name => table.isSimple && isFreeWord name
  | aggregation table field op => table.isSimple && isFreeWord field && isFreeWord op
  | sort table field _ => table.isSimple && isFreeWord field
  | index table indices => table.isSimple && indices.all Value.isOneToken
  | slice table base limit => table.isSimple && base.isOneToken && limit.isOneToken
  | join lhs rhs params => lhs.isSimple && rhs.isSimple && params.all Param.isSimple

/-- The names of calls that are timers. -/
def timerNames : List String :=
  ["timer", "attimer", "ontimer"]

def Stream.isSimple : Stream → Bool
  | timer base interval frequency =>
    base.isOneToken && interval.isOneToken && frequency.all Value.isOneToken
  | atTimer times expiration => times.all Value.isOneToken && expiration.all Value.isOneToken
  | onTimer dates => dates.all Value.isOneToken
  | call name params =>
    isFreeWord name && !timerNames.contains name && params.all Param.isSimple
  | monitor table args => table.isSimple && args.all fun args => args.all isFreeWord
  | edgeNew stream => stream.isSimple
  | edgeFilter stream test => stream.isSimple && test.isOneToken
  | filter stream test => stream.isSimple && test.isOneToken
  | projection stream args => stream.isSimple && args.all isFreeWord
  | compute stream value label => stream.isSimple && value.isOneToken && label.all isFreeWord
  | named stream name => stream.isSimple && isFreeWord name
  | join stream table params =>
    stream.isSimple && table.isSimple && params.all Param.isSimple

/-! ## Words and leaves -/

section Words

variable {w : String}

theorem isPlain_of_isFreeWord
    (h : isFreeWord w = true) :
    Token.isPlain (.literal w) = true := by
  rw [isFreeWord, Bool.and_eq_true, Bool.and_eq_true] at h
  exact h.1.1

theorem not_mem_of_isFreeWord
    (h : isFreeWord w = true) :
    w ∉ keywords := by
  rw [isFreeWord, Bool.and_eq_true, Bool.and_eq_true, Bool.not_eq_true'] at h
  exact fun hmem => Bool.eq_false_iff.mp h.1.2 (List.contains_iff_mem.mpr hmem)

theorem afterPrefix?_of_isFreeWord
    (h : isFreeWord w = true) :
    (afterPrefix? "@" w).isSome = false := by
  rw [isFreeWord, Bool.and_eq_true] at h
  exact Option.isSome_eq_false_iff.mpr h.2

theorem ne_of_not_mem_keywords
    (h : w ∉ keywords) {keyword : String} (hkeyword : keyword ∈ keywords) :
    w ≠ keyword := by
  rintro rfl
  exact h hkeyword

theorem readable_freeWord
    (h : isFreeWord w = true) :
    Readable (fun _ => readFreeWord) keywords (.literal w) [word w] w :=
  { spells := TokenStream.spells_token (isPlain_of_isFreeWord h)
    ne_nil := List.cons_ne_nil _ _
    avoids := avoids_word (not_mem_of_isFreeWord h)
    read_eq := Filter.Eventually.of_forall fun _ => rfl }

end Words

theorem isPlain_of_isLeafToken
    {t : Token} (h : isLeafToken t = true) :
    t.isPlain = true := by
  cases t with
  | literal w => exact (Bool.and_eq_true_iff.mp h).1
  | constant _ => rfl
  | layout _ => cases h

theorem avoids_of_isLeafToken
    {t : Token} (h : isLeafToken t = true) :
    Avoids keywords [leaf t] := by
  cases t with
  | literal w =>
      rw [isLeafToken, Bool.and_eq_true, Bool.not_eq_true'] at h
      exact avoids_word fun hmem => Bool.eq_false_iff.mp h.2 (List.contains_iff_mem.mpr hmem)
  | constant _ => exact avoids_cons.mpr ⟨rfl, avoids_nil⟩
  | layout _ => cases h

theorem spells_oneToken
    {s : TokenStream} {t : Token} (hs : s.toList = [t]) (h : isLeafToken t = true) :
    s.Spells [leaf t] := by
  refine ⟨hs, ?_⟩
  rw [allPlain, TokenTree.isPlain, isPlain_of_isLeafToken h]
  rfl

theorem readable_value
    {v : Value} (h : v.isOneToken = true) :
    ∃ t, Readable (fun _ => readLeaf) keywords v.source [leaf t] v.readBack := by
  unfold Value.isOneToken at h
  split at h
  next t ht =>
      refine ⟨t, spells_oneToken ht h, List.cons_ne_nil _ _, avoids_of_isLeafToken h, ?_⟩
      refine Filter.Eventually.of_forall fun _ => ?_
      cases t with
      | literal w => rw [Value.readBack, ht, readLeaf]
      | constant c => rw [Value.readBack, ht, readLeaf]
      | layout _ => cases h
  next => cases h

theorem readable_test
    {f : Filter} (h : f.isOneToken = true) :
    ∃ w, Readable (fun _ => readTest) keywords f.source [word w] f.readBack := by
  unfold Filter.isOneToken at h
  split at h
  next t ht =>
      cases t with
      | literal w =>
          refine ⟨w, spells_oneToken ht h, List.cons_ne_nil _ _, avoids_of_isLeafToken h, ?_⟩
          refine Filter.Eventually.of_forall fun _ => ?_
          rw [Filter.readBack, ht, readTest]
      | constant _ => obtain hword | hword := f.token_of_source ht <;> cases hword
      | layout _ => cases h
  next => cases h

/-! ## Lists of leaves and inputs -/

theorem allReadable_values
    {values : List Value} (h : values.all Value.isOneToken = true) :
    ∃ ps, AllReadable (fun _ => readLeaf) keywords (values.map Value.source) ps
      (values.map Value.readBack) := by
  induction values with
  | nil => exact ⟨[], .nil⟩
  | cons value values ih =>
      rw [List.all_cons, Bool.and_eq_true] at h
      obtain ⟨t, ht⟩ := readable_value h.1
      obtain ⟨ps, hps⟩ := ih h.2
      exact ⟨[leaf t] :: ps, .cons ht hps⟩

theorem allReadable_freeWords
    {names : List String} (h : names.all isFreeWord = true) :
    ∃ ps,
      AllReadable (fun _ => readFreeWord) keywords (names.map TokenStream.literal) ps names := by
  induction names with
  | nil => exact ⟨[], .nil⟩
  | cons name names ih =>
      rw [List.all_cons, Bool.and_eq_true] at h
      obtain ⟨ps, hps⟩ := ih h.2
      exact ⟨[word name] :: ps, .cons (readable_freeWord h.1) hps⟩

theorem reads_values
    {values : List Value} (h : values.all Value.isOneToken = true) :
    ∃ ts, (valuesSource values).Spells [group .square ts] ∧ Avoids [":"] ts ∧
      readLeaves ts = some (values.map Value.readBack) := by
  obtain ⟨ps, hps⟩ := allReadable_values h
  refine ⟨separated (word ",") ps, ?_, ?_, ?_⟩
  · exact (TokenStream.PartsSpell.group .square (hps.spells_join rfl) .nil).ofParts
  · exact hps.avoids_separated (word ",") rfl (by decide)
  · obtain ⟨_, hread⟩ := (hps.read_items (word ",") rfl (by decide)).exists
    exact hread

theorem reads_names
    {names : List String} (h : names.all isFreeWord = true) :
    ∃ ts, (namesSource names).Spells [group .square ts] ∧ readNames ts = some names := by
  obtain ⟨ps, hps⟩ := allReadable_freeWords h
  refine ⟨separated (word ",") ps, ?_, ?_⟩
  · exact (TokenStream.PartsSpell.group .square (hps.spells_join rfl) .nil).ofParts
  · obtain ⟨_, hread⟩ := (hps.read_items (word ",") rfl (by decide)).exists
    exact hread

/-- A leaf with a name in front of it. -/
theorem readable_named
    {name : String} (hname : isFreeWord name = true) {v : Value} (h : v.isOneToken = true) :
    ∃ ts, Readable (fun _ => leafReaders.param) [","] (.ofParts [name, "=", v.source]) ts
      ⟨name, v.readBack, none⟩ := by
  obtain ⟨t, ht⟩ := readable_value h
  have hcomma : name ≠ "," := ne_of_not_mem_keywords (not_mem_of_isFreeWord hname) (by decide)
  refine ⟨word name :: word "=" :: [leaf t], ?_, List.cons_ne_nil _ _, ?_, ?_⟩
  · exact (TokenStream.PartsSpell.word (isPlain_of_isFreeWord hname)
      (.word rfl (.last ht.spells))).ofParts
  · rw [avoids_word_cons, avoids_word_cons, List.mem_singleton]
    exact ⟨hcomma, by decide, ht.avoids.mono (by decide)⟩
  · filter_upwards [ht.read_eq] with _ hread
    rw [Readers.param, Readers.assignment]
    change ((readLeaf [leaf t]).map _).map _ = _
    rw [hread]
    rfl

theorem allReadable_inputs
    {params : List Param} (h : params.all Param.isSimple = true) :
    ∃ ps, AllReadable (fun _ => leafReaders.param) [","] (Param.sources params) ps
      (params.map Param.readBack) := by
  induction params with
  | nil => exact ⟨[], .nil⟩
  | cons p params ih =>
      rw [List.all_cons, Bool.and_eq_true, Param.isSimple, Bool.and_eq_true] at h
      obtain ⟨ts, hts⟩ := readable_named h.1.1 h.1.2
      obtain ⟨ps, hps⟩ := ih h.2
      obtain ⟨name, value, range⟩ := p
      exact ⟨ts :: ps, .cons hts hps⟩

theorem exists_of_param
    {ts : List TokenTree} {p : Param} (h : leafReaders.param ts = some p) :
    ∃ w us, ts = word p.name :: word w :: us := by
  rw [Readers.param, Option.map_eq_some_iff] at h
  obtain ⟨⟨name, value⟩, hread, rfl⟩ := h
  unfold Readers.assignment at hread
  split at hread
  next name' w us =>
      obtain ⟨value', -, heq⟩ := Option.map_eq_some_iff.mp hread
      cases heq
      exact ⟨w, us, rfl⟩
  next => cases hread

/-- Under other names, attributes are no choices of a device. -/
theorem areAttributes_of_names
    {sources : List TokenStream} {ps : List (List TokenTree)} {attributes : List Param}
    (h : AllReadable (fun _ => leafReaders.param) [","] sources ps attributes)
    (hnames : attributes.all (fun p => p.name != "id" && p.name != "all") = true) (all : Bool) :
    AreAttributes all ps := by
  have hnone : ∀ ts ∈ ps, readId? ts = none ∧ isAll ts = false := by
    induction h with
    | nil => exact List.forall_mem_nil _
    | @cons _ _ p _ _ _ hparam _ ih =>
        rw [List.all_cons, Bool.and_eq_true, Bool.and_eq_true, bne_iff_ne, bne_iff_ne] at hnames
        obtain ⟨⟨hid, hall⟩, hrest⟩ := hnames
        obtain ⟨_, hread⟩ := hparam.read_eq.exists
        obtain ⟨w, us, rfl⟩ := exists_of_param hread
        refine List.forall_mem_cons.mpr ⟨⟨?_, ?_⟩, ih hrest⟩
        · unfold readId?
          split
          next heq => cases heq; exact if_neg hid
          next => rfl
        · unfold isAll
          split
          next heq => cases heq; simp [hall]
          next => rfl
  refine ⟨fun ts hts => (hnone ts hts).1, fun _ => ?_⟩
  cases hlast : ps.getLast? with
  | none => rfl
  | some ts => exact (hnone ts (List.mem_of_getLast? hlast)).2

/-- The inputs in the parentheses of a call. -/
theorem reads_inputs
    {params : List Param} (h : params.all Param.isSimple = true) :
    ∃ ts, (TokenStream.join (Param.sources params) ",").Spells ts ∧
      leafReaders.params ts = some (params.map Param.readBack) := by
  obtain ⟨ps, hps⟩ := allReadable_inputs h
  refine ⟨separated (word ",") ps, hps.spells_join rfl, ?_⟩
  obtain ⟨_, hread⟩ := (hps.read_items (word ",") rfl (by decide)).exists
  exact hread

/-! ## Parts -/

/-- The shapes of calls. -/
inductive IsCalled : List TokenTree → Prop
  | call {w : String} (hw : w ∉ keywords) (inner : List TokenTree) :
      IsCalled [word w, group .round inner]
  | ofDevice {channel : String} {ts : List TokenTree} (hchannel : channel ∉ keywords)
      (h : IsDeviceCall channel ts) : IsCalled ts

/-- The shapes of parts: something in parentheses, or a call. -/
inductive IsPart : List TokenTree → Prop
  | wrapped (inner : List TokenTree) : IsPart [group .round inner]
  | called {ts : List TokenTree} (h : IsCalled ts) : IsPart ts

/-- The marks behind and between parts. -/
def partMarks : List String :=
  [",", "as", "join", "on"]

section Parts

variable {ts : List TokenTree}

theorem IsCalled.avoids
    (h : IsCalled ts) :
    Avoids partMarks ts := by
  have hsub : partMarks ⊆ keywords := by decide
  cases h with
  | call hw inner => exact avoids_word_cons.mpr ⟨fun hmem => hw (hsub hmem), avoids_group _ _⟩
  | ofDevice hchannel h => exact h.avoids (by decide) fun hmem => hchannel (hsub hmem)

theorem IsPart.avoids
    (h : IsPart ts) :
    Avoids partMarks ts := by
  cases h with
  | wrapped inner => exact avoids_group _ _
  | called h => exact h.avoids

theorem readPart_called
    {α : Type} (h : IsCalled ts) (whole called : List TokenTree → Option α) :
    readPart whole called ts = called ts := by
  obtain _ | ⟨_, _ | _⟩ := h <;> rfl

/-- A call is not taken for something with brackets behind it. -/
theorem backBrackets?_called
    (h : IsCalled ts) :
    backBrackets? ts = none := by
  obtain _ | ⟨_, _ | _⟩ := h <;> rfl

theorem backBrackets?_part
    (h : IsPart ts) (inner : List TokenTree) :
    backBrackets? (ts ++ [group .square inner]) = some (ts, inner) := by
  obtain _ | (_ | ⟨_, _ | _⟩) := h <;> rfl

end Parts

/-! ## Trees that are read -/

/-- The source is read as a tree by the readers of all stages but the first few, and that of a call
as a call. -/
structure Reads {α : Type} (read : Nat → List TokenTree → Option α)
    (called : List TokenTree → Option α) (isPrimary : Bool) (s : TokenStream)
    (ts : List TokenTree) (found : α) : Prop where
  spells : s.Spells ts
  read_eq : ∀ᶠ n in Filter.atTop, read n ts = some found
  called : isPrimary = true → IsCalled ts ∧ called ts = some found

/-- The source is found as a part of something else. -/
structure PartReads {α : Type} (part : Nat → List TokenTree → Option α) (s : TokenStream)
    (ts : List TokenTree) (found : α) : Prop where
  spells : s.Spells ts
  isPart : IsPart ts
  read_eq : ∀ᶠ n in Filter.atTop, part n ts = some found

section Reads

variable {α : Type} {read : Nat → List TokenTree → Option α}
  {called : List TokenTree → Option α} {isPrimary : Bool} {s : TokenStream} {ts : List TokenTree}
  {found : α}

theorem Reads.of_called
    (hspells : s.Spells ts) (hcalled : IsCalled ts) (hread : called ts = some found)
    (hstage : ∀ n, read (n + 1) ts = called ts) :
    Reads read called isPrimary s ts found where
  spells := hspells
  read_eq := eventually_of_succ (Filter.Eventually.of_forall fun n => (hstage n).trans hread)
  called _ := ⟨hcalled, hread⟩

theorem Reads.of_form
    (hspells : s.Spells ts) (hread : ∀ᶠ n in Filter.atTop, read (n + 1) ts = some found) :
    Reads read called false s ts found where
  spells := hspells
  read_eq := eventually_of_succ hread
  called h := absurd h Bool.false_ne_true

/-- What is read as a whole is found as a part, in parentheses unless it is a call. -/
theorem Reads.part
    (h : Reads read called isPrimary s ts found) :
    ∃ us, PartReads (fun n => readPart (read n) called) (wrapped isPrimary s) us found := by
  cases hprimary : isPrimary with
  | true =>
      obtain ⟨hcalled, hread⟩ := h.called hprimary
      refine ⟨ts, h.spells, .called hcalled, Filter.Eventually.of_forall fun n => ?_⟩
      rw [readPart_called hcalled]
      exact hread
  | false =>
      have hspells := (TokenStream.PartsSpell.group .round h.spells .nil).ofParts
      exact ⟨[group .round ts], hspells, .wrapped ts, h.read_eq⟩

/-- What is read from a source is the same for all of which it is the source. -/
theorem Reads.eq_of_toList_eq
    (h : Reads read called isPrimary s ts found) {b : Bool} {t : TokenStream}
    {us : List TokenTree} {other : α} (hother : Reads read called b t us other)
    (heq : s.toList = t.toList) :
    found = other := by
  have htrees : ts = us := h.spells.eq_of_toList_eq hother.spells heq
  subst htrees
  obtain ⟨n, hfound, hread⟩ := (h.read_eq.and hother.read_eq).exists
  rw [hfound] at hread
  exact Option.some.inj hread

end Reads

/-! ## What tables and streams have in common -/

namespace Forms

section Marks

variable {α : Type} (forms : Forms α) {part : List TokenTree → Option α}
  {tablePart : List TokenTree → Option Table} {unmarked : List TokenTree → Option α}
  {us : List TokenTree} {x : α}

theorem readBehind_mark
    (hpart : IsPart us) {mark : String} (hmark : mark ∈ [",", "as", "join"])
    (after : List TokenTree) (hx : part us = some x) :
    forms.readBehind part tablePart unmarked (us ++ word mark :: after) =
      forms.readAfter tablePart x mark after := by
  have havoids : Avoids [",", "as", "join"] us := hpart.avoids.mono (by decide)
  rw [readBehind, cutFirst?_append havoids hmark]
  dsimp only
  rw [hx]
  rfl

theorem readBehind_unmarked
    (h : Avoids partMarks us) :
    forms.readBehind part tablePart unmarked us = unmarked us := by
  have havoids : Avoids [",", "as", "join"] us := h.mono (by decide)
  rw [readBehind, cutFirst?_eq_none havoids]

end Marks

variable {α : Type} (forms : Forms α) {part : Nat → List TokenTree → Option α}
  (tablePart : Nat → List TokenTree → Option Table)
  (unmarked : Nat → List TokenTree → Option α) {s : TokenStream} {us : List TokenTree} {x : α}

/-- A part with a filter behind it. -/
theorem exists_filter
    {f : Filter} (hf : f.isOneToken = true) (h : PartReads part s us x) :
    ∃ ts, TokenStream.Spells (.ofParts [s, ",", f.source]) (us ++ ts) ∧
      ∀ᶠ n in Filter.atTop, forms.readBehind (part n) (tablePart n) (unmarked n) (us ++ ts) =
        some (forms.filter x f.readBack) := by
  obtain ⟨w, hw⟩ := readable_test hf
  refine ⟨[word ",", word w], ?_, ?_⟩
  · exact (TokenStream.PartsSpell.cons h.spells (.word rfl (.last hw.spells))).ofParts
  · filter_upwards [h.read_eq, hw.read_eq] with n hx hread
    rw [readBehind_mark forms h.isPart (by decide) _ hx, readAfter, if_pos rfl, hread]
    rfl

/-- A part with a name behind it. -/
theorem exists_named
    {name : String} (hname : isFreeWord name = true) (h : PartReads part s us x) :
    ∃ ts, TokenStream.Spells (.ofParts [s, "as", name]) (us ++ ts) ∧
      ∀ᶠ n in Filter.atTop, forms.readBehind (part n) (tablePart n) (unmarked n) (us ++ ts) =
        some (forms.named x name) := by
  have hplain := isPlain_of_isFreeWord hname
  refine ⟨[word "as", word name], ?_, ?_⟩
  · exact (TokenStream.PartsSpell.cons h.spells (.word rfl (.word hplain .nil))).ofParts
  · filter_upwards [h.read_eq] with n hx
    rw [readBehind_mark forms h.isPart (by decide) _ hx, readAfter, if_neg (by decide), if_pos rfl]
    rfl

/-- What stands behind the `join`. -/
theorem exists_joined
    {params : List Param} (hparams : params.all Param.isSimple = true) {t : TokenStream}
    {vs : List TokenTree} {rhs : Table} (h : PartReads tablePart t vs rhs) :
    ∃ ts, TokenStream.PartsSpell [t, passedSource params] ts ∧
      ∀ᶠ n in Filter.atTop, readJoined (tablePart n) ts =
        some (rhs, params.map Param.readBack) := by
  have havoids : Avoids ["on"] vs := h.isPart.avoids.mono (by decide)
  by_cases hempty : params = []
  · subst hempty
    refine ⟨vs ++ [], .cons h.spells (.last TokenStream.spells_empty), ?_⟩
    filter_upwards [h.read_eq] with n hrhs
    rw [List.append_nil, readJoined, cutFirst?_eq_none havoids]
    dsimp only
    rw [hrhs]
    rfl
  · obtain ⟨inputs, hinputs, hread⟩ := reads_inputs hparams
    refine ⟨vs ++ [word "on", group .round inputs], ?_, ?_⟩
    · have hpassed : passedSource params =
          .ofParts ["on", .ofParts ["(", .join (Param.sources params) ",", ")"]] :=
        if_neg (mt List.isEmpty_iff.mp hempty)
      have hgroup := (TokenStream.PartsSpell.group .round hinputs .nil).ofParts
      rw [hpassed]
      exact .cons h.spells (.last (TokenStream.PartsSpell.word rfl (.last hgroup)).ofParts)
    · filter_upwards [h.read_eq] with n hrhs
      rw [readJoined, cutFirst?_append havoids (List.mem_singleton_self _)]
      dsimp only
      rw [hrhs, hread]
      rfl

/-- Parts on both sides of a join. -/
theorem exists_join
    {params : List Param} (hparams : params.all Param.isSimple = true) (h : PartReads part s us x)
    {t : TokenStream} {vs : List TokenTree} {rhs : Table} (hrhs : PartReads tablePart t vs rhs) :
    ∃ ts, TokenStream.Spells (.ofParts [s, "join", t, passedSource params]) (us ++ ts) ∧
      ∀ᶠ n in Filter.atTop, forms.readBehind (part n) (tablePart n) (unmarked n) (us ++ ts) =
        some (forms.join x rhs (params.map Param.readBack)) := by
  obtain ⟨ts, hts, hread⟩ := exists_joined tablePart hparams hrhs
  refine ⟨word "join" :: ts, ?_, ?_⟩
  · exact (TokenStream.PartsSpell.cons h.spells (.word rfl hts)).ofParts
  · filter_upwards [h.read_eq, hread] with n hx hjoined
    rw [readBehind_mark forms h.isPart (by decide) _ hx, readAfter, if_neg (by decide),
      if_neg (by decide), hjoined]
    rfl

/-- Names in brackets in front of a part. -/
theorem exists_projection
    {args : List String} (hargs : args.all isFreeWord = true) (h : PartReads part s us x) :
    ∃ names, TokenStream.Spells (.ofParts [namesSource args, "of", s])
        (group .square names :: word "of" :: us) ∧
      ∀ᶠ n in Filter.atTop, forms.readProjection (part n) names us =
        some (forms.projection x args) := by
  obtain ⟨names, hnames, hread⟩ := reads_names hargs
  refine ⟨names, ?_, ?_⟩
  · exact (TokenStream.PartsSpell.cons hnames (.word rfl (.last h.spells))).ofParts
  · filter_upwards [h.read_eq] with n hx
    rw [readProjection, hx, hread]
    rfl

/-- A value and perhaps a name in front of a part. -/
theorem exists_compute
    {v : Value} (hv : v.isOneToken = true) {label : Option String}
    (hlabel : label.all isFreeWord = true) (h : PartReads part s us x) :
    ∃ ts, (computeSource v label s).Spells (word "compute" :: ts) ∧
      ∀ᶠ n in Filter.atTop, forms.readComputed (part n) ts =
        some (forms.compute x v.readBack label) := by
  obtain ⟨t, ht⟩ := readable_value hv
  cases label with
  | none =>
      refine ⟨leaf t :: word "of" :: us, ?_, ?_⟩
      · have hparts := TokenStream.PartsSpell.word (w := "compute") rfl
          (.cons ht.spells
            (.cons TokenStream.spells_empty (.word (w := "of") rfl (.last h.spells))))
        exact hparts.ofParts
      · filter_upwards [h.read_eq, ht.read_eq] with n hx hread
        rw [readComputed, if_neg (by decide), hx, hread]
        rfl
  | some name =>
      have hplain := isPlain_of_isFreeWord hlabel
      refine ⟨leaf t :: word "as" :: word name :: word "of" :: us, ?_, ?_⟩
      · have hname := (TokenStream.PartsSpell.word (w := "as") rfl (.word hplain .nil)).ofParts
        have hparts := TokenStream.PartsSpell.word (w := "compute") rfl
          (.cons ht.spells (.cons hname (.word (w := "of") rfl (.last h.spells))))
        exact hparts.ofParts
      · filter_upwards [h.read_eq, ht.read_eq] with n hx hread
        rw [readComputed, if_pos rfl, readLabelled, hx, hread]
        rfl

end Forms

/-! ## Calls -/

/-- The words in front of parts. -/
def frontWords : List String :=
  ["compute", "aggregate", "sort", "monitor", "edge"]

/-- A call begins with no word that stands in front of a part. -/
theorem IsCalled.exists_head
    {ts : List TokenTree} (h : IsCalled ts) :
    ∃ w rest, ts = word w :: rest ∧ w ∉ frontWords := by
  have hsub : frontWords ⊆ keywords := by decide
  have hat (name : String) : "@" ++ name ∉ frontWords :=
    not_mem_of_afterPrefix? (afterPrefix?_append "@" name) (by decide)
  cases h with
  | call hw inner => exact ⟨_, _, rfl, fun hmem => hw (hsub hmem)⟩
  | ofDevice _ h =>
      cases h with
      | ofKind name inputs => exact ⟨_, _, rfl, hat name⟩
      | onDevice kind choices inputs => exact ⟨_, _, rfl, hat kind⟩

theorem reads_call
    {name : String} (hname : isFreeWord name = true) {params : List Param}
    (hparams : params.all Param.isSimple = true) :
    ∃ inner, (callSource name params).Spells [word name, group .round inner] ∧
      IsCalled [word name, group .round inner] ∧
      leafReaders.params inner = some (params.map Param.readBack) := by
  obtain ⟨inner, hinner, hread⟩ := reads_inputs hparams
  refine ⟨inner, ?_, .call (not_mem_of_isFreeWord hname) inner, hread⟩
  exact (TokenStream.PartsSpell.word (isPlain_of_isFreeWord hname)
    (.group .round hinner .nil)).ofParts

theorem reads_invocation
    {i : Invocation} (h : i.isSimple = true) :
    ∃ ts, i.source.Spells ts ∧ IsCalled ts ∧
      readCalledTable ts = some (.invocation i.readBack) := by
  obtain ⟨selector, channel, params, range, schema⟩ := i
  cases selector with
  | builtin => cases h
  | device d =>
      simp only [Invocation.isSimple, Bool.and_eq_true, Bool.not_eq_true'] at h
      obtain ⟨⟨⟨⟨hattributes, hnames⟩, hchannel⟩, hdot⟩, hparams⟩ := h
      have hdot' : '.' ∉ channel.toList := fun hmem =>
        Bool.eq_false_iff.mp hdot (List.contains_iff_mem.mpr hmem)
      have hreadNames : (d.attributes.map Param.readBack).all
          (fun p => p.name != "id" && p.name != "all") = true := by
        rw [List.all_map]
        exact hnames
      obtain ⟨qs, hqs⟩ := allReadable_inputs hattributes
      obtain ⟨ps, hps⟩ := allReadable_inputs hparams
      obtain ⟨ts, hcall, hspells, hread⟩ := reads_deviceCall hqs
        (areAttributes_of_names hqs hreadNames d.all) (isPlain_of_isFreeWord hchannel) hdot' hps
        range schema
      refine ⟨ts, hspells, .ofDevice (not_mem_of_isFreeWord hchannel) hcall, ?_⟩
      obtain ⟨_, hread⟩ := hread.exists
      cases hcall with
      | ofKind name inputs =>
          rw [readCalledTable, afterPrefix?_append, Option.isSome_some, if_pos rfl, hread]
          rfl
      | onDevice kind choices inputs =>
          change (leafReaders.invocation _).map Table.invocation = _
          rw [hread]
          rfl

end Legacy

end SkillLang
