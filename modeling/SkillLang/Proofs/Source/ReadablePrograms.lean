import SkillLang.Proofs.Source.ReadableClasses
import SkillLang.Proofs.Source.ReadableExpressions

/-!
# Readable programs

Statements end with a semicolon, and the items of a program stand on lines of their own.  A
legible program is found again in its source, up to its canonical form, and so two legible
programs with one source have one canonical form.
-/

namespace SkillLang

open TokenTree

/-! ## Statements -/

/-- What no item of a program has outside of brackets. -/
def itemMarks : List String :=
  ["\n", "function", "class"]

abbrev readStatementAt (n : Nat) : List TokenTree → Option Statement :=
  readStatement (readExpression n)

theorem readable_body
    {parts : List TokenStream} {body : List TokenTree}
    (hspells : TokenStream.PartsSpell parts body) (hne : body ≠ [])
    (havoids : Avoids (";" :: itemMarks) body) {found : Statement}
    (hread : ∀ᶠ n in Filter.atTop, readBody (readExpression n) body = some found) :
    Readable readStatementAt itemMarks (.ofParts (parts ++ [.literal ";"])) (body ++ [word ";"])
      found := by
  refine ⟨?_, List.append_ne_nil_of_left_ne_nil hne _, ?_, ?_⟩
  · exact (hspells.append (.word rfl .nil)).ofParts
  · exact avoids_cut.mpr ⟨havoids.mono (List.subset_cons_self _ _), by decide, avoids_nil⟩
  · filter_upwards [hread] with n hn
    rw [readStatementAt, readStatement,
      cutFirst?_append (havoids.mono (by decide)) (List.mem_singleton_self _)]
    exact hn

theorem readable_statement
    {s : Statement} (h : s.isLegible = true) :
    ∃ ts, Readable readStatementAt itemMarks s.source ts s.canonical := by
  -- Outside of brackets an expression has neither of the words that tell the other forms.
  cases s with
  | expression s =>
      obtain ⟨ts, hts⟩ := Expression.isRead_of_isLegible s.expression h
      refine ⟨_, readable_body (.last hts.spells) hts.ne_nil (hts.avoids.mono (by decide)) ?_⟩
      filter_upwards [hts.read_eq] with n hn
      rw [readBody, cutFirst?_eq_none (hts.avoids.mono (by decide))]
      dsimp only
      rw [hn]
      rfl
  | ret body range =>
      obtain ⟨ts, hts⟩ := Expression.isRead_of_isLegible body h
      refine ⟨_, readable_body (.word rfl (.last hts.spells)) (List.cons_ne_nil _ _)
        (avoids_word_cons.mpr ⟨by decide, hts.avoids.mono (by decide)⟩) ?_⟩
      filter_upwards [hts.read_eq] with n hn
      have hcut : cutFirst? ["return", "let"] (word "return" :: ts) = some ([], "return", ts) :=
        cutFirst?_append avoids_nil (by decide) ts
      rw [readBody, hcut]
      dsimp only
      rw [if_pos rfl, hn]
      rfl
  | assign name body range =>
      rw [Statement.isLegible, Bool.and_eq_true] at h
      obtain ⟨ts, hts⟩ := Expression.isRead_of_isLegible body h.2
      have hspells : TokenStream.PartsSpell
          ["let", name, .layout .space, "=", .layout .space, body.source]
          (word "let" :: word name :: leaf (.layout .space) :: word "=" ::
            leaf (.layout .space) :: ts) :=
        .word rfl (.word (isPlain_of_isName h.1) (.cons (TokenStream.spells_token rfl)
          (.word rfl (.cons (TokenStream.spells_token rfl) (.last hts.spells)))))
      refine ⟨_, readable_body hspells (List.cons_ne_nil _ _) ?_ ?_⟩
      · rw [avoids_word_cons, avoids_word_cons, avoids_cons, avoids_word_cons, avoids_cons]
        exact ⟨by decide, not_mem_of_isName h.1 (by decide), rfl, by decide, rfl,
          hts.avoids.mono (by decide)⟩
      · filter_upwards [hts.read_eq] with n hn
        have hcut : cutFirst? ["return", "let"] (word "let" :: word name :: leaf (.layout .space) ::
            word "=" :: leaf (.layout .space) :: ts) =
              some ([], "let", word name :: leaf (.layout .space) :: word "=" ::
                leaf (.layout .space) :: ts) :=
          cutFirst?_append avoids_nil (by decide) _
        rw [readBody, hcut]
        dsimp only
        rw [if_neg (by decide), hn]
        rfl

theorem allReadable_statements
    {statements : List Statement} (h : statements.all Statement.isLegible = true) :
    ∃ ps, AllReadable readStatementAt itemMarks (statements.map Statement.source) ps
      (statements.map Statement.canonical) := by
  induction statements with
  | nil => exact ⟨[], .nil⟩
  | cons s statements ih =>
      rw [List.all_cons, Bool.and_eq_true] at h
      obtain ⟨ts, hts⟩ := readable_statement h.1
      obtain ⟨ps, hps⟩ := ih h.2
      exact ⟨ts :: ps, .cons hts hps⟩

/-! ## Declarations -/

abbrev readItemAt (n : Nat) : List TokenTree → Option ProgramItem :=
  readItem (readExpression n)

theorem readable_declaration
    {d : FunctionDeclaration} (h : d.isLegible = true) :
    ∃ ts, Readable readItemAt ["\n"] d.source ts (.declared d.canonical) := by
  obtain ⟨name, args, statements, range, schema⟩ := d
  rw [FunctionDeclaration.isLegible, Bool.and_eq_true, Bool.and_eq_true] at h
  obtain ⟨⟨hname, hargs⟩, hstatements⟩ := h
  obtain ⟨ps, hps⟩ := allReadable_arguments hargs
  obtain ⟨qs, hqs⟩ := allReadable_statements hstatements
  obtain ⟨ts, hspells, hread⟩ := readable_block (by decide) hqs
  have havoids : Avoids ["\n", "class"]
      [word "function", word name, group .round (separated (word ",") ps), group .curly ts] := by
    rw [avoids_word_cons, avoids_word_cons, avoids_cons]
    exact ⟨by decide, not_mem_of_isName hname (by decide), rfl, avoids_group _ _⟩
  refine ⟨[word "function", word name, group .round (separated (word ",") ps), group .curly ts],
    ?_, List.cons_ne_nil _ _, ?_, ?_⟩
  · exact (TokenStream.PartsSpell.word rfl (.word (isPlain_of_isName hname)
      (.group .round (hps.spells_join rfl) (.group .curly hspells .nil)))).ofParts
  · exact havoids.mono (by decide)
  · have hclass := havoids.mono (by decide : ["class"] ⊆ ["\n", "class"])
    filter_upwards [hread, hps.read_items (word ",") rfl (List.mem_singleton_self _)] with n hn hm
    have hmark : hasMark ["function"] [word "function", word name,
        group .round (separated (word ",") ps), group .curly ts] = true := rfl
    rw [readItemAt, readItem, hasMark_eq_false hclass, if_neg Bool.false_ne_true, if_pos hmark,
      readDeclaration, hm, hn]
    rfl

/-! ## Programs -/

theorem readable_statementItem
    {s : Statement} {ts : List TokenTree}
    (h : Readable readStatementAt itemMarks s.source ts s.canonical) :
    Readable readItemAt ["\n"] s.source ts (.stated s.canonical) := by
  refine ⟨h.spells, h.ne_nil, h.avoids.mono (by decide), ?_⟩
  filter_upwards [h.read_eq] with n hn
  dsimp only [readStatementAt] at hn
  rw [readItemAt, readItem, hasMark_eq_false (h.avoids.mono (by decide)),
    if_neg Bool.false_ne_true, hasMark_eq_false (h.avoids.mono (by decide)),
    if_neg Bool.false_ne_true, hn]
  rfl

theorem readable_classItem
    {d : ClassDef} (h : d.isLegible = true) :
    ∃ ts, Readable readItemAt ["\n"] d.source ts (.ofClass { d with range := none }) := by
  obtain ⟨ts, hts, hmark⟩ := readable_class h
  refine ⟨ts, hts.spells, hts.ne_nil, hts.avoids, ?_⟩
  filter_upwards [hts.read_eq] with n hn
  rw [readItemAt, readItem, if_pos hmark, hn]
  rfl

theorem allReadable_classes
    {classes : List ClassDef} (h : classes.all ClassDef.isLegible = true) :
    ∃ ps, AllReadable readItemAt ["\n"] (classes.map ClassDef.source) ps
      ((classes.map fun d => { d with range := none }).map .ofClass) := by
  induction classes with
  | nil => exact ⟨[], .nil⟩
  | cons d classes ih =>
      rw [List.all_cons, Bool.and_eq_true] at h
      obtain ⟨ts, hts⟩ := readable_classItem h.1
      obtain ⟨ps, hps⟩ := ih h.2
      exact ⟨ts :: ps, .cons hts hps⟩

theorem allReadable_declarations
    {declarations : List FunctionDeclaration}
    (h : declarations.all FunctionDeclaration.isLegible = true) :
    ∃ ps, AllReadable readItemAt ["\n"] (declarations.map FunctionDeclaration.source) ps
      ((declarations.map FunctionDeclaration.canonical).map .declared) := by
  induction declarations with
  | nil => exact ⟨[], .nil⟩
  | cons d declarations ih =>
      rw [List.all_cons, Bool.and_eq_true] at h
      obtain ⟨ts, hts⟩ := readable_declaration h.1
      obtain ⟨ps, hps⟩ := ih h.2
      exact ⟨ts :: ps, .cons hts hps⟩

theorem allReadable_statementItems
    {statements : List Statement} (h : statements.all Statement.isLegible = true) :
    ∃ ps, AllReadable readItemAt ["\n"] (statements.map Statement.source) ps
      ((statements.map Statement.canonical).map .stated) := by
  induction statements with
  | nil => exact ⟨[], .nil⟩
  | cons s statements ih =>
      rw [List.all_cons, Bool.and_eq_true] at h
      obtain ⟨ts, hts⟩ := readable_statement h.1
      obtain ⟨ps, hps⟩ := ih h.2
      exact ⟨ts :: ps, .cons (readable_statementItem hts) hps⟩

/-- The items of a program are told apart. -/
theorem ProgramItem.program_items
    (classes : List ClassDef) (declarations : List FunctionDeclaration)
    (statements : List Statement) :
    ProgramItem.program (classes.map .ofClass ++ declarations.map .declared ++
        statements.map .stated) =
      ⟨classes, declarations, statements, none⟩ := by
  simp [ProgramItem.program, List.filterMap_append, List.filterMap_map, Function.comp_def,
    ProgramItem.class?, ProgramItem.declaration?, ProgramItem.statement?]

/-- A legible program is found in its source. -/
theorem Program.read_source
    {p : Program} (h : p.isLegible = true) :
    ∀ᶠ n in Filter.atTop,
      (nest p.source.toList [] []).bind (readProgram (readExpression n)) = some p.canonical := by
  obtain ⟨classes, declarations, statements, range⟩ := p
  rw [Program.isLegible, Bool.and_eq_true, Bool.and_eq_true] at h
  obtain ⟨⟨hclasses, hdeclarations⟩, hstatements⟩ := h
  obtain ⟨cs, hcs⟩ := allReadable_classes hclasses
  obtain ⟨ps, hps⟩ := allReadable_declarations hdeclarations
  obtain ⟨qs, hqs⟩ := allReadable_statementItems hstatements
  have hitems := (hcs.append hps).append hqs
  have hspells : (Program.source ⟨classes, declarations, statements, range⟩).Spells
      (separated (leaf (.layout .newline)) (cs ++ ps ++ qs)) :=
    hitems.spells_join rfl
  filter_upwards [hitems.read_items (leaf (.layout .newline)) rfl (List.mem_singleton_self _)]
    with n hn
  dsimp only [readItemAt] at hn
  rw [hspells.nest_eq, Option.bind_some, readProgram, hn, Option.map_some,
    ProgramItem.program_items]
  rfl

/-- Legible programs that are written alike are alike, up to places and annotations, nested
connectives of one kind, and chains of one element. -/
theorem Program.canonical_eq_of_source_eq
    {p q : Program} (hp : p.isLegible = true) (hq : q.isLegible = true)
    (h : p.source.toList = q.source.toList) :
    p.canonical = q.canonical := by
  obtain ⟨n, hn, hm⟩ := ((Program.read_source hp).and (Program.read_source hq)).exists
  rw [h, hm] at hn
  exact (Option.some.inj hn).symm

/-- The rows of a certain size, place and name, under conditions that are nested to the left. -/
def Value.rowsLeft : Value :=
  .filtered (.var "rows" none)
    (.conj none
      [.conj none
        [.atom none "size" "==" (.var "limit" none) none,
          .atom none "place" "==" (.var "here" none) none],
        .dontCare none "name"]) none

/-- The same rows, under conditions that are nested to the right and have been checked. -/
def Value.rowsRight : Value :=
  .filtered (.var "rows" (some (.array .any)))
    (.conj none
      [.atom none "size" "==" (.var "limit" (some .number)) none,
        .conj none [.atom none "place" "==" (.var "here" none) none, .dontCare none "name"]])
    (some (.array .any))

theorem mailAbout_rows_canonical_eq :
    (Program.mailAbout .rowsLeft).isLegible = true ∧
      (Program.mailAbout .rowsRight).isLegible = true ∧
      (Program.mailAbout .rowsLeft).source.toList = (Program.mailAbout .rowsRight).source.toList ∧
      (Program.mailAbout .rowsLeft).canonical = (Program.mailAbout .rowsRight).canonical :=
  ⟨rfl, rfl, rfl, Program.canonical_eq_of_source_eq rfl rfl rfl⟩

end SkillLang
