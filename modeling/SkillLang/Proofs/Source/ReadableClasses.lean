import SkillLang.Proofs.Source.ReadableBrackets

/-!
# Readable classes

Arguments and the functions of classes, and blocks of lines.  A function is read from the end of
its line, since the words in front of it need not be there.
-/

namespace SkillLang

open TokenTree

/-! ## Arguments -/

theorem readable_argument
    {a : Argument} (h : a.isLegible = true) :
    ∃ ts, Readable (fun _ => readArgument) [","] a.source ts a := by
  obtain ⟨name, direction, type, unique, requiredIf, annotations⟩ := a
  simp only [Argument.isLegible, Bool.and_eq_true, Bool.not_eq_true', List.isEmpty_iff] at h
  obtain ⟨⟨⟨⟨hname, htype⟩, rfl⟩, rfl⟩, rfl⟩ := h
  have hplain := isPlain_of_isName hname
  have hdisplay := Ty.isPlain_of_isLegible htype
  have htail : Avoids [","] [word name, word ":", word type.display] := by
    rw [avoids_word_cons, avoids_word_cons]
    exact ⟨not_mem_of_isName hname (by decide), by decide,
      (avoids_word (Ty.display_not_mem htype)).mono (by decide)⟩
  have hread := Ty.readType?_of_isLegible htype
  cases direction with
  | inReq | inOpt =>
      refine ⟨_, (TokenStream.PartsSpell.word rfl (.word rfl (.word hplain
        (.word rfl (.word hdisplay .nil))))).ofParts, List.cons_ne_nil _ _, ?_, ?_⟩
      · exact avoids_word_cons.mpr ⟨by decide, avoids_word_cons.mpr ⟨by decide, htail⟩⟩
      · refine Filter.Eventually.of_forall fun _ => ?_
        rw [readArgument, hread]
        rfl
  | out =>
      refine ⟨_, (TokenStream.PartsSpell.word rfl (.word hplain
        (.word rfl (.word hdisplay .nil)))).ofParts, List.cons_ne_nil _ _, ?_, ?_⟩
      · exact avoids_word_cons.mpr ⟨by decide, htail⟩
      · refine Filter.Eventually.of_forall fun _ => ?_
        rw [readArgument, hread]
        rfl

theorem allReadable_arguments
    {args : List Argument} (h : args.all Argument.isLegible = true) :
    ∃ ps, AllReadable (fun _ => readArgument) [","] (args.map Argument.source) ps args := by
  induction args with
  | nil => exact ⟨[], .nil⟩
  | cons a args ih =>
      rw [List.all_cons, Bool.and_eq_true] at h
      obtain ⟨ts, hts⟩ := readable_argument h.1
      obtain ⟨ps, hps⟩ := ih h.2
      exact ⟨ts :: ps, .cons hts hps⟩

/-! ## Blocks -/

/-- The trees of a block around those of its lines. -/
def blockTrees (body : List TokenTree) : List TokenTree :=
  leaf (.layout .indent) :: leaf (.layout .newline) ::
    (body ++ [leaf (.layout .dedent), leaf (.layout .newline)])

theorem drop_blockTrees
    (body : List TokenTree) :
    ((blockTrees body).drop 2).dropLast.dropLast = body := by
  simp [blockTrees]

/-- A block of readable lines is readable as a list. -/
theorem readable_block
    {α : Type} {read : Nat → List TokenTree → Option α} {marks : List String}
    (hmarks : "\n" ∈ marks) {parts : List TokenStream} {ps : List (List TokenTree)}
    {found : List α} (h : AllReadable read marks parts ps found) :
    ∃ ts, (block parts).Spells ts ∧
      ∀ᶠ n in Filter.atTop, readBlock (read n) ts = some found := by
  have hbody := h.spells_join (t := .layout .newline) rfl
  have hread := h.read_items (leaf (.layout .newline)) rfl hmarks
  by_cases hps : ps = []
  · cases h with
    | nil => exact ⟨[], TokenStream.spells_empty, Filter.Eventually.of_forall fun _ => rfl⟩
    | cons _ _ => cases hps
  · have hnonempty : (TokenStream.join parts (.layout .newline)).isEmpty = false :=
      TokenStream.isEmpty_eq_false (hbody.toList_ne_nil (separated_ne_nil hps h.ne_nil))
    have hspells : TokenStream.PartsSpell
        [.layout .indent, .layout .newline, .join parts (.layout .newline), .layout .dedent,
          .layout .newline]
        (blockTrees (separated (leaf (.layout .newline)) ps)) :=
      .cons (TokenStream.spells_token rfl) (.cons (TokenStream.spells_token rfl)
        (.cons hbody (.cons (TokenStream.spells_token rfl)
          (.cons (TokenStream.spells_token rfl) .nil))))
    refine ⟨blockTrees (separated (leaf (.layout .newline)) ps), ?_, ?_⟩
    · rw [block, if_neg (Bool.eq_false_iff.mp hnonempty)]
      exact hspells.ofParts
    · filter_upwards [hread] with n hn
      rw [readBlock, drop_blockTrees, hn]

/-! ## Functions of classes -/

/-- The words in front of a function. -/
def modifiers (isMonitorable isList : Bool) : List String :=
  (if isMonitorable then ["monitorable"] else []) ++ if isList then ["list"] else []

theorem spells_modifiers
    (isMonitorable isList : Bool) :
    TokenStream.PartsSpell ((modifiers isMonitorable isList).map TokenStream.literal)
      ((modifiers isMonitorable isList).map word) := by
  cases isMonitorable <;> cases isList
  · exact .nil
  · exact .word rfl .nil
  · exact .word rfl .nil
  · exact .word rfl (.word rfl .nil)

theorem FunctionType.ofName?_name
    (type : FunctionType) :
    FunctionType.ofName? type.name = some type := by
  cases type <;> rfl

theorem FunctionType.isName_name
    (type : FunctionType) :
    isName type.name = true := by
  cases type <;> rfl

theorem readable_signature
    {kind : String} {s : Signature} (h : s.isLegible kind = true) :
    ∃ ts, Readable (fun _ => readSignature kind) ["\n"] s.source ts s := by
  obtain ⟨type, device, name, args, isList, isMonitorable, requireEither, annotations⟩ := s
  simp only [Signature.isLegible, Bool.and_eq_true, beq_iff_eq, List.isEmpty_iff, and_assoc] at h
  obtain ⟨rfl, hname, hargs, rfl, rfl⟩ := h
  obtain ⟨ps, hps⟩ := allReadable_arguments hargs
  have htype := type.isName_name
  have hfunction : TokenStream.PartsSpell
      [.literal type.name, .literal name, "(", .join (args.map Argument.source) ",", ")", ";"]
      [word type.name, word name, group .round (separated (word ",") ps), word ";"] :=
    .word (isPlain_of_isName htype) (.word (isPlain_of_isName hname)
      (.group .round (hps.spells_join rfl) (.word rfl .nil)))
  refine ⟨(modifiers isMonitorable isList).map word ++
    [word type.name, word name, group .round (separated (word ",") ps), word ";"],
    ?_, List.append_ne_nil_of_right_ne_nil _ (List.cons_ne_nil _ _), ?_, ?_⟩
  · have hsource : Signature.source
        ⟨type, some kind, name, args, isList, isMonitorable, [], []⟩ =
          .ofParts ((modifiers isMonitorable isList).map TokenStream.literal ++
            ([.literal type.name, .literal name, "(", .join (args.map Argument.source) ",", ")",
              ";"] : List TokenStream)) := by
      cases isMonitorable <;> cases isList <;> rfl
    rw [hsource]
    exact ((spells_modifiers isMonitorable isList).append hfunction).ofParts
  · refine avoids_append.mpr ⟨?_, ?_⟩
    · cases isMonitorable <;> cases isList <;> decide
    · rw [avoids_word_cons, avoids_word_cons, avoids_cons]
      exact ⟨not_mem_of_isName htype (by decide), not_mem_of_isName hname (by decide), rfl,
        by decide⟩
  · filter_upwards [hps.read_items (word ",") rfl (List.mem_singleton_self _)] with n hn
    have hreverse : ((modifiers isMonitorable isList).map word ++
        [word type.name, word name, group .round (separated (word ",") ps), word ";"]).reverse =
          word ";" :: group .round (separated (word ",") ps) :: word name :: word type.name ::
            ((modifiers isMonitorable isList).map word).reverse :=
      List.reverse_append
    rw [readSignature, hreverse]
    dsimp only
    rw [type.ofName?_name, hn]
    cases isMonitorable <;> cases isList <;> rfl

theorem allReadable_signatures
    {kind : String} {functions : List Signature}
    (h : functions.all (Signature.isLegible kind) = true) :
    ∃ ps, AllReadable (fun _ => readSignature kind) ["\n"] (functions.map Signature.source) ps
      functions := by
  induction functions with
  | nil => exact ⟨[], .nil⟩
  | cons s functions ih =>
      rw [List.all_cons, Bool.and_eq_true] at h
      obtain ⟨ts, hts⟩ := readable_signature h.1
      obtain ⟨ps, hps⟩ := ih h.2
      exact ⟨ts :: ps, .cons hts hps⟩

/-! ## Classes -/

theorem allReadable_parents
    (parents : List String) :
    AllReadable (fun _ => readKind?) structureMarks
      (parents.map fun parent => .literal ("@" ++ parent))
      (parents.map fun parent => [word ("@" ++ parent)]) parents := by
  induction parents with
  | nil => exact .nil
  | cons parent parents ih =>
      refine .cons ?_ ih
      exact
        { spells := TokenStream.spells_token (isPlain_at parent)
          ne_nil := List.cons_ne_nil _ _
          avoids := (avoids_at parent).mono (by decide)
          read_eq := Filter.Eventually.of_forall fun _ => afterPrefix?_append "@" parent }

/-- The classes that a class extends, after the word for it. -/
def parentSources (parents : List String) : List TokenStream :=
  if parents.isEmpty then []
  else ["extends", .join (parents.map fun parent => .literal ("@" ++ parent)) ","]

theorem readable_parents
    (parents : List String) :
    ∃ ts, TokenStream.PartsSpell (parentSources parents) ts ∧ Avoids ["\n"] ts ∧
      (items (isMark ",") (ts.drop 1)).mapM readKind? = some parents := by
  have hparents := allReadable_parents parents
  obtain ⟨n, hn⟩ := (hparents.read_items (word ",") rfl (by decide)).exists
  cases parents with
  | nil => exact ⟨[], .nil, avoids_nil, rfl⟩
  | cons parent parents =>
      refine ⟨word "extends" :: separated (word ",") _,
        .word rfl (.last (hparents.spells_join rfl)), ?_, hn⟩
      exact avoids_word_cons.mpr ⟨by decide, hparents.avoids_separated _ (by decide) (by decide)⟩

theorem map_named
    {functions : Keyed Signature} (h : ∀ entry ∈ functions, entry.1 = entry.2.name) :
    (functions.values.map fun s => (s.name, s)) = functions := by
  rw [Keyed.values, List.map_map]
  refine (List.map_congr_left fun entry hentry => ?_).trans (List.map_id functions)
  exact Prod.ext (h entry hentry).symm rfl

/-- The functions of a legible class are told apart by their types. -/
theorem ClassDef.ofFunctions_values
    {d : ClassDef} (h : d.isLegible = true) :
    ClassDef.ofFunctions d.kind d.parents (d.queries.values ++ d.actions.values) =
      { d with range := none } := by
  obtain ⟨kind, parents, queries, actions, range⟩ := d
  simp only [ClassDef.isLegible, Bool.and_eq_true, List.all_eq_true, beq_iff_eq, bne_iff_ne] at h
  obtain ⟨hqueries, hactions⟩ := h
  have hquery : ∀ s ∈ queries.values, s.type ≠ .action :=
    List.forall_mem_map.mpr fun entry hentry => (hqueries entry hentry).1.2
  have haction : ∀ s ∈ actions.values, s.type = .action :=
    List.forall_mem_map.mpr fun entry hentry => (hactions entry hentry).1.2
  have hleft : (queries.values ++ actions.values).filter (fun s => s.type != .action) =
      queries.values := by
    rw [List.filter_append, List.filter_eq_self.mpr (by simpa using hquery),
      List.filter_eq_nil_iff.mpr (by simpa using haction), List.append_nil]
  have hright : (queries.values ++ actions.values).filter (fun s => s.type == .action) =
      actions.values := by
    rw [List.filter_append, List.filter_eq_nil_iff.mpr (by simpa using hquery),
      List.filter_eq_self.mpr (by simpa using haction), List.nil_append]
  have hqueryNames := map_named fun entry hentry => (hqueries entry hentry).1.1
  have hactionNames := map_named fun entry hentry => (hactions entry hentry).1.1
  rw [ClassDef.ofFunctions, hleft, hright, hqueryNames, hactionNames]

theorem ClassDef.all_isLegible
    {d : ClassDef} (h : d.isLegible = true) :
    (d.queries.values ++ d.actions.values).all (Signature.isLegible d.kind) = true := by
  simp only [ClassDef.isLegible, Bool.and_eq_true, List.all_eq_true] at h
  rw [List.all_append, Bool.and_eq_true, List.all_eq_true, List.all_eq_true]
  exact ⟨List.forall_mem_map.mpr fun entry hentry => (h.1 entry hentry).2,
    List.forall_mem_map.mpr fun entry hentry => (h.2 entry hentry).2⟩

/-- A legible class is found in its source. -/
theorem readable_class
    {d : ClassDef} (h : d.isLegible = true) :
    ∃ ts, Readable (fun _ => readClass) ["\n"] d.source ts { d with range := none } ∧
      hasMark ["class"] ts = true := by
  obtain ⟨ps, hps⟩ := allReadable_signatures (ClassDef.all_isLegible h)
  obtain ⟨body, hbody, hread⟩ := readable_block (List.mem_singleton_self _) hps
  obtain ⟨parents, hparents, hnewline, hreadParents⟩ := readable_parents d.parents
  have hhead : TokenStream.PartsSpell
      (.literal "class" :: .literal ("@" ++ d.kind) :: parentSources d.parents)
      (word "class" :: word ("@" ++ d.kind) :: parents) :=
    .word rfl (.word (isPlain_at d.kind) hparents)
  refine ⟨word "class" :: word ("@" ++ d.kind) :: (parents ++ [group .curly body]),
    ⟨?_, List.cons_ne_nil _ _, ?_, ?_⟩, rfl⟩
  · exact (TokenStream.PartsSpell.cons hhead.ofParts (.group .curly hbody .nil)).ofParts
  · have hkind := not_mem_of_afterPrefix? (afterPrefix?_append "@" d.kind)
      (by decide : ["\n"].all (fun mark => (afterPrefix? "@" mark).isNone) = true)
    rw [avoids_word_cons, avoids_word_cons, avoids_append]
    exact ⟨by decide, hkind, hnewline, avoids_group _ _⟩
  · filter_upwards [hread] with n hn
    rw [readClass, List.getLast?_concat, List.dropLast_concat]
    dsimp only
    rw [readKind?, afterPrefix?_append, hreadParents]
    simp only [Option.bind_eq_bind, Option.bind_some, hn]
    exact congrArg some (ClassDef.ofFunctions_values h)

end SkillLang
