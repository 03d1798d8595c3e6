import SkillLang.Proofs.Json.Lexemes
import SkillLang.Proofs.Source.ReadableValues

/-!
# Readable calls

Inputs that are passed by name, the choice of a device, and calls of functions of devices.
-/

namespace SkillLang

open TokenTree

abbrev readParam (n : Nat) : List TokenTree → Option Param :=
  (readers n).param

abbrev readInvocation (n : Nat) : List TokenTree → Option Invocation :=
  (readers n).invocation

/-- The trees of an input: its name, and its value. -/
def Param.IsRead (p : Param) (ts : List TokenTree) : Prop :=
  isName p.name = true ∧ ∃ us, ts = word p.name :: word "=" :: us ∧ p.value.IsRead us

theorem Param.IsRead.readable
    {p : Param} {ts : List TokenTree} (h : p.IsRead ts) :
    Readable readParam [","] (.ofParts [p.name, "=", p.value.source]) ts
      ⟨p.name, p.value.canonical, none⟩ := by
  obtain ⟨hname, us, rfl, hvalue⟩ := h
  have hassignment := readable_assignment hname hvalue
  refine ⟨hassignment.spells, hassignment.ne_nil, hassignment.avoids, ?_⟩
  filter_upwards [hassignment.read_eq] with n hn
  dsimp only [readAssignment] at hn
  rw [readParam, Readers.param, hn]
  rfl

theorem allReadable_params
    {params : List Param} {ps : List (List TokenTree)} (h : List.Forall₂ Param.IsRead params ps) :
    AllReadable readParam [","] (Param.sources params) ps (Param.canonicalAll params) := by
  induction h with
  | nil => exact .nil
  | @cons p _ _ _ hparam _ ih =>
      cases p
      exact .cons hparam.readable ih

/-! ## Words with a sign -/

theorem not_mem_of_at
    (name : String) :
    "@" ++ name ∉ bracketWords ++ "filter" :: structureMarks :=
  not_mem_of_afterPrefix? (afterPrefix?_append "@" name) (by decide)

theorem isPlain_at
    (name : String) :
    Token.isPlain (.literal ("@" ++ name)) = true := by
  have hmem := not_mem_of_at name
  rw [List.mem_append, not_or] at hmem
  refine Token.isPlain_of_not_mem hmem.1 ?_
  rw [contextName?, afterPrefix?, String.toList_append]
  rfl

theorem avoids_at
    (name : String) :
    Avoids ("filter" :: structureMarks) [word ("@" ++ name)] := by
  have hmem := not_mem_of_at name
  rw [List.mem_append, not_or] at hmem
  exact avoids_word hmem.2

theorem splitLast?_append
    {mark : Char} {cs : List Char} (h : mark ∉ cs) (before : List Char) :
    splitLast? mark (before ++ mark :: cs) = some (before, cs) := by
  have hnone : splitLast? mark cs = none := by
    induction cs with
    | nil => rfl
    | cons c cs ih =>
        rw [List.mem_cons, not_or] at h
        rw [splitLast?, ih h.2]
        exact if_neg fun hc => h.1 hc.symm
  induction before with
  | nil =>
      rw [List.nil_append, splitLast?, hnone]
      exact if_pos rfl
  | cons c before ih => rw [List.cons_append, splitLast?, ih]

theorem splitName?_append
    (kind : String) {channel : String} (hdot : '.' ∉ channel.toList) :
    splitName? (kind ++ "." ++ channel) = some (kind, channel) := by
  have hlist : (kind ++ "." ++ channel).toList = kind.toList ++ '.' :: channel.toList := by
    rw [String.toList_append, String.toList_append, List.append_assoc]
    rfl
  rw [splitName?, hlist, splitLast?_append hdot, Option.map_some]
  dsimp only
  rw [String.ofList_toList, String.ofList_toList]

/-! ## Choice of a device -/

theorem toList_quote
    (s : String) :
    (Text.quote s).toList = '"' :: (s.toList.flatMap Text.escapeChar ++ ['"']) :=
  String.toList_ofList

theorem afterPrefix?_quote
    (s : String) :
    afterPrefix? "\"" (Text.quote s) =
      some (String.ofList (s.toList.flatMap Text.escapeChar ++ ['"'])) := by
  rw [afterPrefix?, toList_quote]
  rfl

theorem unquote?_quote
    (s : String) :
    unquote? (Text.quote s) = some s := by
  rw [unquote?, afterPrefix?_quote, Option.bind_some, String.toList_ofList,
    Json.readString_escaped, Option.map_some]
  exact congrArg some String.ofList_toList

theorem isPlain_quote
    (s : String) :
    Token.isPlain (.literal (Text.quote s)) = true := by
  refine Token.isPlain_of_not_mem (not_mem_of_afterPrefix? (afterPrefix?_quote s) (by decide)) ?_
  rw [contextName?, afterPrefix?, toList_quote]
  rfl

/-! ### Attributes -/

/-- No legible value is written like a text in quotes. -/
theorem Value.IsRead.unquote?_eq_none
    {v : Value} {w : String} (h : v.IsRead [word w]) (hlegible : v.isLegible = true) :
    unquote? w = none := by
  cases hquote : afterPrefix? "\"" w with
  | none => rw [unquote?, hquote, Option.bind_none]
  | some rest =>
      have hdollar : afterPrefix? "$" w = none := by
        rw [eq_append_of_afterPrefix? hquote, afterPrefix?, String.toList_append]
        rfl
      have hfree : w ∉ ["true", "false"] := not_mem_of_afterPrefix? hquote (by decide)
      rw [List.mem_cons, not_or, List.mem_singleton] at hfree
      have hcanonical : v.canonical = .var w none := by
        rw [h.canonical_of_word (not_mem_of_afterPrefix? hquote (by decide)), readWord, hdollar]
        dsimp only
        rw [if_neg hfree.1, if_neg hfree.2]
      cases v with
      | var name type =>
          cases hcanonical
          rw [afterPrefix?_of_isName hlegible (by decide)] at hquote
          cases hquote
      | _ => cases hcanonical

theorem Param.IsRead.readId?_eq_none
    {p : Param} {ts : List TokenTree} (h : p.IsRead ts) (hlegible : p.value.isLegible = true) :
    readId? ts = none := by
  obtain ⟨-, us, rfl, hvalue⟩ := h
  unfold readId?
  split
  next name w id heq =>
      cases heq
      rw [hvalue.unquote?_eq_none hlegible, ite_self]
  next => rfl

theorem Param.readId?_eq_none
    {params : List Param} {qs : List (List TokenTree)} (h : List.Forall₂ Param.IsRead params qs)
    (hlegible : Param.allLegible params = true) :
    ∀ ts ∈ qs, readId? ts = none := by
  induction h with
  | nil => exact List.forall_mem_nil _
  | @cons p _ _ _ hparam _ ih =>
      obtain ⟨name, value, range⟩ := p
      rw [Param.allLegible, Bool.and_eq_true, Bool.and_eq_true] at hlegible
      exact List.forall_mem_cons.mpr ⟨hparam.readId?_eq_none hlegible.1.2, ih hlegible.2⟩

theorem Param.IsRead.isEvery_of_isAll
    {p : Param} {ts : List TokenTree} (h : p.IsRead ts) (hall : isAll ts = true) :
    p.isEvery = true := by
  obtain ⟨-, us, rfl, hvalue⟩ := h
  unfold isAll at hall
  split at hall
  next name w value heq =>
      cases heq
      rw [Bool.and_eq_true, beq_iff_eq, beq_iff_eq] at hall
      obtain ⟨hname, rfl⟩ := hall
      have hcanonical : p.value.canonical = .boolean true := hvalue.canonical_of_word (by decide)
      obtain ⟨name, value, range⟩ := p
      cases value with
      | boolean b =>
          cases hcanonical
          exact beq_iff_eq.mpr hname
      | _ => cases hcanonical
  next => cases hall

theorem Param.any_isEvery_of_isAll
    {params : List Param} {qs : List (List TokenTree)} (h : List.Forall₂ Param.IsRead params qs)
    (hall : qs.getLast?.any isAll = true) :
    params.getLast?.any Param.isEvery = true := by
  induction h with
  | nil => exact hall
  | cons hparam hrest ih =>
      cases hrest with
      | nil => exact hparam.isEvery_of_isAll hall
      | cons _ _ =>
          rw [List.getLast?_cons_cons] at hall ⊢
          exact ih hall

/-! ### Choices -/

/-- The trees of a choice by the identifier. -/
def identifierTrees : Option String → List (List TokenTree)
  | some id => [[word "id", word "=", word (Text.quote id)]]
  | none => []

/-- The trees of the choice of all devices. -/
def everyTrees (all : Bool) : List (List TokenTree) :=
  if all then [[word "all", word "=", word "true"]] else []

/-- The trees of attributes, between those of the identifier and those of the choice of all
devices. -/
structure AreAttributes (all : Bool) (ps : List (List TokenTree)) : Prop where
  not_id : ∀ ts ∈ ps, readId? ts = none
  not_every : all = false → ps.getLast?.any isAll = false

theorem cutId_append
    {choices : List (List TokenTree)} (h : ∀ ts ∈ choices, readId? ts = none)
    (id : Option String) :
    cutId (identifierTrees id ++ choices) = (id, choices) := by
  cases id with
  | some id =>
      have hid : (identifierTrees (some id) ++ choices).head?.bind readId? = some id := by
        rw [identifierTrees, List.singleton_append, List.head?_cons, Option.bind_some, readId?,
          if_pos rfl, unquote?_quote]
      rw [cutId, hid]
      rfl
  | none =>
      have hnone : choices.head?.bind readId? = none := by
        rw [Option.bind_eq_none_iff]
        intro ts hts
        exact h ts (List.mem_of_mem_head? hts)
      rw [identifierTrees, List.nil_append, cutId, hnone]

theorem cutAll_append
    {all : Bool} {ps : List (List TokenTree)} (h : AreAttributes all ps) :
    cutAll (ps ++ everyTrees all) = (all, ps) := by
  cases all with
  | false =>
      rw [show everyTrees false = [] from rfl, List.append_nil, cutAll, h.not_every rfl,
        if_neg Bool.false_ne_true]
  | true =>
      rw [show everyTrees true = [[word "all", word "=", word "true"]] from rfl, cutAll,
        List.getLast?_concat, List.dropLast_concat]
      exact if_pos rfl

/-- What is written for the identifier of a device. -/
def identifierSources : Option String → List TokenStream
  | some id => [.ofParts ["id", "=", Text.quote id]]
  | none => []

/-- What is written for a call of all devices. -/
def everySources (all : Bool) : List TokenStream :=
  if all then [.ofParts ["all", "=", "true"]] else []

theorem attributesSource_eq (id : Option String) (attributes : List TokenStream) (all : Bool) :
    attributesSource id attributes all =
      .join (identifierSources id ++ (attributes ++ everySources all)) "," := by
  rw [← List.append_assoc]
  cases id <;> rfl

theorem allReadable_identifier
    (id : Option String) :
    AllReadable (fun _ => some) [","] (identifierSources id) (identifierTrees id)
      (identifierTrees id) := by
  cases id with
  | none => exact .nil
  | some id =>
      refine .cons ⟨?_, List.cons_ne_nil _ _, ?_, Filter.Eventually.of_forall fun _ => rfl⟩ .nil
      · exact (TokenStream.PartsSpell.word rfl
          (.word rfl (.word (isPlain_quote id) .nil))).ofParts
      · exact avoids_cons.mpr ⟨by decide, avoids_cons.mpr ⟨by decide,
          avoids_word (not_mem_of_afterPrefix? (afterPrefix?_quote id) (by decide))⟩⟩

theorem allReadable_every
    (all : Bool) :
    AllReadable (fun _ => some) [","] (everySources all) (everyTrees all) (everyTrees all) := by
  cases all with
  | false => exact .nil
  | true =>
      refine .cons ⟨?_, List.cons_ne_nil _ _, by decide,
        Filter.Eventually.of_forall fun _ => rfl⟩ .nil
      exact (TokenStream.PartsSpell.word rfl (.word rfl (.word rfl .nil))).ofParts

section Attributes

variable {r : Nat → Readers} {sources : List TokenStream} {ps : List (List TokenTree)}
  {attributes : List Param} {all : Bool}

/-- The choices are found again, those of a device before and behind its attributes. -/
theorem exists_choices
    (id : Option String) (h : AllReadable (fun n => (r n).param) [","] sources ps attributes)
    (hps : AreAttributes all ps) :
    ∃ ts, (attributesSource id sources all).Spells ts ∧
      cutId (items (isMark ",") ts) = (id, ps ++ everyTrees all) := by
  have hchoices := (allReadable_identifier id).append (h.trees.append (allReadable_every all))
  have hid : ∀ ts ∈ ps ++ everyTrees all, readId? ts = none := by
    rw [List.forall_mem_append]
    refine ⟨hps.not_id, ?_⟩
    cases all <;> simp [everyTrees, readId?]
  rw [attributesSource_eq]
  refine ⟨_, hchoices.spells_join rfl, ?_⟩
  rw [hchoices.items_eq (word ",") rfl (List.mem_singleton_self _), cutId_append hid]

theorem readable_device
    {d : Device} (h : AllReadable (fun n => (r n).param) [","] (Param.sources d.attributes) ps
      attributes)
    (hps : AreAttributes d.all ps) (hplain : d.isPlain = false) :
    ∃ ts, d.source.Spells [word ("@" ++ d.kind), group .round ts] ∧
      ∀ᶠ n in Filter.atTop,
        (r n).device d.kind ts = some ⟨d.kind, d.id, attributes, d.all, none⟩ := by
  obtain ⟨kind, id, written, all, range⟩ := d
  obtain ⟨ts, hspells, hcut⟩ := exists_choices id h hps
  refine ⟨ts, ?_, ?_⟩
  · have hsource : Device.source ⟨kind, id, written, all, range⟩ =
        .ofParts [.literal ("@" ++ kind), "(", attributesSource id (Param.sources written) all,
          ")"] := by
      rw [Device.source]
      exact if_neg (Bool.eq_false_iff.mp hplain)
    rw [hsource]
    exact (TokenStream.PartsSpell.word (isPlain_at kind) (.group .round hspells .nil)).ofParts
  · filter_upwards [h.read_eq] with n hn
    rw [Readers.device, hcut]
    dsimp only
    rw [cutAll_append hps]
    dsimp only
    rw [hn]
    rfl

end Attributes

/-! ## Calls -/

/-- The shapes of calls of a function of devices: by the name of their class, and of chosen
devices. -/
inductive IsDeviceCall (channel : String) : List TokenTree → Prop
  | ofKind (name : String) (inputs : List TokenTree) :
      IsDeviceCall channel [word ("@" ++ name), group .round inputs]
  | onDevice (kind : String) (choices inputs : List TokenTree) :
      IsDeviceCall channel [word ("@" ++ kind), group .round choices, word ".", word channel,
        group .round inputs]

/-- A call avoids marks that its words are none of. -/
theorem IsDeviceCall.avoids
    {channel : String} {ts : List TokenTree} (h : IsDeviceCall channel ts) {marks : List String}
    (hmarks : marks.all (fun mark => (afterPrefix? "@" mark).isNone && mark != ".") = true)
    (hchannel : channel ∉ marks) :
    Avoids marks ts := by
  have hat (name : String) : "@" ++ name ∉ marks := by
    refine not_mem_of_afterPrefix? (afterPrefix?_append "@" name) ?_
    rw [List.all_eq_true] at hmarks ⊢
    intro mark hmark
    exact (Bool.and_eq_true_iff.mp (hmarks mark hmark)).1
  have hdot : "." ∉ marks := by
    intro hmem
    have := List.all_eq_true.mp hmarks _ hmem
    rw [bne_self_eq_false, Bool.and_false] at this
    cases this
  cases h with
  | ofKind name inputs => exact avoids_word_cons.mpr ⟨hat name, avoids_group _ _⟩
  | onDevice kind choices inputs =>
      refine avoids_word_cons.mpr ⟨hat kind, avoids_append.mpr ⟨avoids_group _ choices, ?_⟩⟩
      exact avoids_word_cons.mpr ⟨hdot, avoids_word_cons.mpr ⟨hchannel, avoids_group _ _⟩⟩

section Calls

variable {r : Nat → Readers} {channel : String} {params inputs attributes : List Param}
  {ps qs : List (List TokenTree)}

theorem reads_ofKind
    (kind : String) (deviceRange : Option Range) (hdot : '.' ∉ channel.toList)
    (hinputs : AllReadable (fun n => (r n).param) [","] (Param.sources params) ps inputs)
    (range : Option Range) (schema : Option Signature) :
    ∃ ts, IsDeviceCall channel ts ∧
      (Invocation.source
        ⟨.device ⟨kind, none, [], false, deviceRange⟩, channel, params, range, schema⟩).Spells ts ∧
      ∀ᶠ n in Filter.atTop,
        (r n).invocation ts = some ⟨.device (.ofKind kind), channel, inputs, none, none⟩ := by
  have hword : "@" ++ kind ++ "." ++ channel = "@" ++ (kind ++ "." ++ channel) := by
    rw [String.append_assoc, String.append_assoc, String.append_assoc]
  refine ⟨[word ("@" ++ (kind ++ "." ++ channel)), group .round (separated (word ",") ps)],
    .ofKind _ _, ?_, ?_⟩
  · have hsource : Invocation.source
        ⟨.device ⟨kind, none, [], false, deviceRange⟩, channel, params, range, schema⟩ =
          .ofParts [.literal ("@" ++ kind ++ "." ++ channel), "(", .join (Param.sources params) ",",
            ")"] := by
      rw [Invocation.source]
      exact if_pos rfl
    rw [hsource, hword]
    exact (TokenStream.PartsSpell.word (isPlain_at _)
      (.group .round (hinputs.spells_join rfl) .nil)).ofParts
  · filter_upwards [hinputs.read_items (word ",") rfl (List.mem_singleton_self _)] with n hn
    rw [Readers.invocation, afterPrefix?_append, Readers.params, hn]
    simp only [Option.bind_some, splitName?_append kind hdot, Option.bind_eq_bind]
    rfl

theorem reads_onDevice
    {d : Device}
    (hattributes : AllReadable (fun n => (r n).param) [","] (Param.sources d.attributes) qs
      attributes)
    (hqs : AreAttributes d.all qs) (hplain : d.isPlain = false)
    (hchannel : Token.isPlain (.literal channel) = true)
    (hinputs : AllReadable (fun n => (r n).param) [","] (Param.sources params) ps inputs)
    (range : Option Range) (schema : Option Signature) :
    ∃ ts, IsDeviceCall channel ts ∧
      (Invocation.source ⟨.device d, channel, params, range, schema⟩).Spells ts ∧
      ∀ᶠ n in Filter.atTop, (r n).invocation ts =
        some ⟨.device ⟨d.kind, d.id, attributes, d.all, none⟩, channel, inputs, none, none⟩ := by
  obtain ⟨choices, hspells, hread⟩ := readable_device hattributes hqs hplain
  refine ⟨[word ("@" ++ d.kind), group .round choices, word ".", word channel,
    group .round (separated (word ",") ps)], .onDevice _ _ _, ?_, ?_⟩
  · have hsource : Invocation.source ⟨.device d, channel, params, range, schema⟩ =
        .ofParts [d.source, ".", channel, "(", .join (Param.sources params) ",", ")"] := by
      rw [Invocation.source]
      exact if_neg (Bool.eq_false_iff.mp hplain)
    rw [hsource]
    exact (TokenStream.PartsSpell.cons hspells (.word rfl (.word hchannel
      (.group .round (hinputs.spells_join rfl) .nil)))).ofParts
  · filter_upwards [hread, hinputs.read_items (word ",") rfl (List.mem_singleton_self _)] with n
      hn hm
    rw [Readers.invocation, afterPrefix?_append, Readers.params, hm]
    simp only [Option.bind_some, Option.bind_eq_bind, hn]
    rfl

/-- A call of a function of devices is read from its source. -/
theorem reads_deviceCall
    {d : Device}
    (hattributes : AllReadable (fun n => (r n).param) [","] (Param.sources d.attributes) qs
      attributes)
    (hqs : AreAttributes d.all qs)
    (hchannel : Token.isPlain (.literal channel) = true) (hdot : '.' ∉ channel.toList)
    (hinputs : AllReadable (fun n => (r n).param) [","] (Param.sources params) ps inputs)
    (range : Option Range) (schema : Option Signature) :
    ∃ ts, IsDeviceCall channel ts ∧
      (Invocation.source ⟨.device d, channel, params, range, schema⟩).Spells ts ∧
      ∀ᶠ n in Filter.atTop, (r n).invocation ts =
        some ⟨.device ⟨d.kind, d.id, attributes, d.all, none⟩, channel, inputs, none, none⟩ := by
  cases hplain : d.isPlain with
  | false => exact reads_onDevice hattributes hqs hplain hchannel hinputs range schema
  | true =>
      obtain ⟨kind, id, written, all, deviceRange⟩ := d
      simp only [Device.isPlain, Bool.and_eq_true, Option.isNone_iff_eq_none, List.isEmpty_iff,
        Bool.not_eq_true'] at hplain
      obtain ⟨⟨rfl, rfl⟩, rfl⟩ := hplain
      cases hattributes
      exact reads_ofKind kind deviceRange hdot hinputs range schema

end Calls

/-- The shapes of calls: of a builtin function, and of a function of devices. -/
inductive IsCall : List TokenTree → Prop
  | builtin {channel : String} (h : isName channel = true) : IsCall [word channel]
  | ofDevice {channel : String} {ts : List TokenTree} (h : IsDeviceCall channel ts) : IsCall ts

theorem readable_builtin
    {channel : String} (h : isName channel = true) (range : Option Range)
    (schema : Option Signature) :
    Readable readInvocation ("filter" :: structureMarks)
      (Invocation.source ⟨.builtin, channel, [], range, schema⟩) [word channel]
      (Invocation.canonical ⟨.builtin, channel, [], range, schema⟩) :=
  { spells := TokenStream.spells_token (isPlain_of_isName h)
    ne_nil := List.cons_ne_nil _ _
    avoids := avoids_of_isName h (by decide)
    read_eq := Filter.Eventually.of_forall fun _ => rfl }

/-- Behind the attributes of a legible device, none of them is taken for the choice of all
devices. -/
theorem areAttributes_of_isLegible
    {d : Device} (hdevice : d.isLegible = true) {qs : List (List TokenTree)}
    (hattributes : List.Forall₂ Param.IsRead d.attributes qs) :
    AreAttributes d.all qs := by
  obtain ⟨kind, id, attributes, all, deviceRange⟩ := d
  rw [Device.isLegible, Bool.and_eq_true, Bool.or_eq_true, Bool.not_eq_true'] at hdevice
  obtain ⟨hlegible, hlast⟩ := hdevice
  exact
    { not_id := Param.readId?_eq_none hattributes hlegible
      not_every := fun hall => Bool.eq_false_iff.mpr fun hevery => by
        rw [Param.any_isEvery_of_isAll hattributes hevery] at hlast
        exact hlast.elim (Bool.eq_false_iff.mp hall) nofun }

theorem readable_invocation
    {d : Device} (hdevice : d.isLegible = true) {qs : List (List TokenTree)}
    (hattributes : List.Forall₂ Param.IsRead d.attributes qs) {channel : String}
    (h : isName channel = true) {params : List Param} {ps : List (List TokenTree)}
    (hparams : List.Forall₂ Param.IsRead params ps) (range : Option Range)
    (schema : Option Signature) :
    ∃ ts, IsCall ts ∧ Readable readInvocation ("filter" :: structureMarks)
      (Invocation.source ⟨.device d, channel, params, range, schema⟩) ts
      (Invocation.canonical ⟨.device d, channel, params, range, schema⟩) := by
  have hdot : '.' ∉ channel.toList := fun hmem => by cases isNameTail_of_mem h _ hmem
  obtain ⟨ts, hcall, hspells, hread⟩ := reads_deviceCall (allReadable_params hattributes)
    (areAttributes_of_isLegible hdevice hattributes) (isPlain_of_isName h) hdot
    (allReadable_params hparams) range schema
  have hne : ts ≠ [] := by
    cases hcall with
    | ofKind _ _ | onDevice _ _ _ => exact List.cons_ne_nil _ _
  have havoids : Avoids ("filter" :: structureMarks) ts :=
    hcall.avoids (by decide) (not_mem_of_isName h (by decide))
  refine ⟨ts, .ofDevice hcall, hspells, hne, havoids, ?_⟩
  obtain ⟨kind, id, attributes, all, deviceRange⟩ := d
  exact hread

end SkillLang
