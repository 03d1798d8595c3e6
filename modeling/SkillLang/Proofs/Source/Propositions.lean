import SkillLang.Proofs.Source.ReadableFilters
import SkillLang.Proofs.Source.Rows

/-!
# Filters as propositions

What a filter says of its comparisons, whichever of them hold.  Connectives of one kind in each
other are written as one, connectives without operands as a constant, and those with one operand
as this operand, if need be in parentheses.  The source still tells what the filter says: its trees
fall apart in one way only, at disjunctions, conjunctions and negations down to trees without any of
these.
-/

namespace SkillLang

open TokenTree

def connectives : List String :=
  ["!", "&&", "||"]

/-- The word can stand in a comparison: it is no bracket and no connective. -/
def isOperandWord (w : String) : Bool :=
  Token.isPlain (.literal w) && !connectives.contains w

mutual

/-- The value is a variable or a constant. -/
def Value.isTerm : Value → Bool
  | .var name _ | .enum name => isOperandWord name
  | .event name => isOperandWord ("$" ++ name.getD "result")
  | .date (.edge _ unit) => isOperandWord unit
  | .argMap args => args.all fun (name, type) => isOperandWord name && isOperandWord type.display
  | .array values _ => Value.allTerms values
  | .object fields => Value.allFieldTerms fields
  | .computation _ _ _ _ | .field _ _ _ | .filtered _ _ _ => false
  | _ => true

def Value.allTerms : List Value → Bool
  | [] => true
  | value :: values => value.isTerm && Value.allTerms values

def Value.allFieldTerms : List (String × Value) → Bool
  | [] => true
  | (name, value) :: fields => isOperandWord name && value.isTerm && Value.allFieldTerms fields

end

namespace Filter

mutual

/-- The filter is put together from comparisons of variables and constants. -/
def isPropositional : Filter → Bool
  | .always | .never => true
  | .conj _ operands | .disj _ operands => allPropositional operands
  | .neg _ operand => operand.isPropositional
  | .atom _ name op value _ => isOperandWord name && isOperandWord op && value.isTerm
  | .compute _ lhs op rhs _ => lhs.isTerm && isOperandWord op && rhs.isTerm
  | .dontCare _ name => isOperandWord name
  | .external _ _ => false

def allPropositional : List Filter → Bool
  | [] => true
  | operand :: operands => operand.isPropositional && allPropositional operands

end

mutual

/-- The filter holds if the comparisons do whose tokens a truth assignment makes true. -/
def holds (truth : List Token → Bool) : Filter → Bool
  | .always => true
  | .never => false
  | .conj _ operands => allHold truth operands
  | .disj _ operands => anyHolds truth operands
  | .neg _ operand => !operand.holds truth
  | f => truth f.source.toList

def allHold (truth : List Token → Bool) : List Filter → Bool
  | [] => true
  | operand :: operands => operand.holds truth && allHold truth operands

def anyHolds (truth : List Token → Bool) : List Filter → Bool
  | [] => false
  | operand :: operands => operand.holds truth || anyHolds truth operands

end

end Filter

namespace Proposition

/-! ## The grammar -/

/-- The level at which trees stand: between conjunctions, between disjunctions, or for a filter. -/
inductive Level where
  | test
  | conj
  | disj

/-- Trees of a comparison. -/
structure IsLeaf (ts : List TokenTree) : Prop where
  avoids : Avoids connectives ts
  two_le : 2 ≤ ts.length

/-- The trees say what is the case for a truth assignment. -/
inductive Says (truth : List Token → Bool) : Level → List TokenTree → Bool → Prop
  | leaf {ts : List TokenTree} : IsLeaf ts → Says truth .test ts (truth (tokensOf ts))
  | yes : Says truth .test [word "true"] true
  | no : Says truth .test [word "false"] false
  | parens {inner : List TokenTree} {b : Bool} :
      Says truth .disj inner b → Says truth .test [group .round inner] b
  | neg {ts : List TokenTree} {b : Bool} :
      Says truth .test ts b → Says truth .test (word "!" :: ts) !b
  | factor {ts : List TokenTree} {b : Bool} : Says truth .test ts b → Says truth .conj ts b
  | and {ts us : List TokenTree} {b c : Bool} :
      Says truth .test ts b → Says truth .conj us c →
        Says truth .conj (ts ++ word "&&" :: us) (b && c)
  | alternative {ts : List TokenTree} {b : Bool} : Says truth .conj ts b → Says truth .disj ts b
  | or {ts us : List TokenTree} {b c : Bool} :
      Says truth .conj ts b → Says truth .disj us c →
        Says truth .disj (ts ++ word "||" :: us) (b || c)

/-! ## Unique decomposition -/

/-- Nothing in the trees continues what stands before them. -/
def Level.Ends : Level → List TokenTree → Prop
  | test, ts => ts = [] ∨ ∃ op rest, op ∈ ["&&", "||"] ∧ ts = word op :: rest
  | conj, ts => ts = [] ∨ ∃ rest, ts = word "||" :: rest
  | disj, ts => ts = []

section Ends

variable {ts us r s : List TokenTree}

theorem ends_test_of_conj
    (h : Level.conj.Ends ts) :
    Level.test.Ends ts := by
  obtain rfl | ⟨rest, rfl⟩ := h
  · exact .inl rfl
  · exact .inr ⟨"||", rest, by decide, rfl⟩

theorem ends_conj_of_disj
    (h : Level.disj.Ends ts) :
    Level.conj.Ends ts :=
  .inl h

theorem ends_test_and
    (ts : List TokenTree) :
    Level.test.Ends (word "&&" :: ts) :=
  .inr ⟨"&&", ts, by decide, rfl⟩

theorem not_ends_conj_and
    (ts : List TokenTree) :
    ¬ Level.conj.Ends (word "&&" :: ts) := by
  rintro (hnil | ⟨rest, heq⟩)
  · cases hnil
  · simp at heq

theorem not_ends_of_avoids
    {t : TokenTree} (h : Avoids connectives (t :: ts)) :
    ¬ Level.test.Ends (t :: ts ++ r) := by
  rintro (hnil | ⟨op, rest, hop, heq⟩)
  · cases hnil
  · cases heq
    have hmem : op ∈ connectives := List.mem_cons_of_mem _ hop
    exact (avoids_word_cons.mp h).1 hmem

/-- Trees without connectives are known from where they end. -/
theorem eq_of_avoids
    (hts : Avoids connectives ts) (hus : Avoids connectives us) (heq : ts ++ r = us ++ s)
    (hr : Level.test.Ends r) (hs : Level.test.Ends s) :
    ts = us ∧ r = s := by
  induction ts generalizing us with
  | nil =>
      cases us with
      | nil => exact ⟨rfl, heq⟩
      | cons u us =>
          rw [List.nil_append] at heq
          rw [heq] at hr
          exact absurd hr (not_ends_of_avoids hus)
  | cons t ts ih =>
      cases us with
      | nil =>
          rw [List.nil_append] at heq
          rw [← heq] at hs
          exact absurd hs (not_ends_of_avoids hts)
      | cons u us =>
          obtain ⟨rfl, htail⟩ := List.cons.inj heq
          obtain ⟨rfl, hrest⟩ := ih (avoids_cons.mp hts).2 (avoids_cons.mp hus).2 htail
          exact ⟨rfl, hrest⟩

/-- A comparison is more than one tree. -/
theorem IsLeaf.not_ends
    (h : IsLeaf ts) {t : TokenTree} (heq : ts ++ r = t :: s) :
    ¬ Level.test.Ends s := by
  obtain ⟨havoids, hlength⟩ := h
  match ts, hlength with
  | _ :: u :: ts, _ =>
      obtain ⟨-, rfl⟩ := List.cons.inj heq
      exact not_ends_of_avoids (avoids_cons.mp havoids).2

theorem IsLeaf.ne_neg
    (h : IsLeaf ts) :
    ts ++ r ≠ word "!" :: s := by
  obtain ⟨havoids, hlength⟩ := h
  match ts, hlength with
  | t :: u :: ts, _ =>
      intro heq
      obtain ⟨rfl, -⟩ := List.cons.inj heq
      exact (avoids_word_cons.mp havoids).1 List.mem_cons_self

end Ends

/-- Conjunctions and disjunctions are rows: of what stands at an inner level, with a connective
between any two. -/
def connectiveRows (truth : List Token → Bool) (inner outer : Level) (w : String)
    (op : Bool → Bool → Bool) : Rows Bool Bool where
  part := Says truth inner
  row := Says truth outer
  endsPart := inner.Ends
  endsRow := outer.Ends
  separates v := v = w
  single := id
  append _ := op

abbrev conjRows (truth : List Token → Bool) : Rows Bool Bool :=
  connectiveRows truth .test .conj "&&" and

abbrev disjRows (truth : List Token → Bool) : Rows Bool Bool :=
  connectiveRows truth .conj .disj "||" or

section Says

variable {truth : List Token → Bool} {level : Level} {ts us : List TokenTree} {b c : Bool}

theorem isLawful_conjRows :
    (conjRows truth).IsLawful where
  row_iff ts b := by
    constructor
    · intro h
      cases h with
      | factor hts => exact .last hts
      | and hts hrest => exact .next hts rfl hrest
    · intro h
      cases h with
      | last hts => exact .factor hts
      | next hts hw hrest =>
          cases hw
          exact .and hts hrest
  append_assoc _ _ a b c := Bool.and_assoc a b c
  endsPart_of_endsRow _ h := ends_test_of_conj h
  endsPart_separator := by
    rintro _ rfl ts
    exact ends_test_and ts
  not_endsRow := by
    rintro _ rfl ts
    exact not_ends_conj_and ts

theorem isLawful_disjRows :
    (disjRows truth).IsLawful where
  row_iff ts b := by
    constructor
    · intro h
      cases h with
      | alternative hts => exact .last hts
      | or hts hrest => exact .next hts rfl hrest
    · intro h
      cases h with
      | last hts => exact .alternative hts
      | next hts hw hrest =>
          cases hw
          exact .or hts hrest
  append_assoc _ _ a b c := Bool.or_assoc a b c
  endsPart_of_endsRow _ h := ends_conj_of_disj h
  endsPart_separator := by
    rintro _ rfl ts
    exact .inr ⟨ts, rfl⟩
  not_endsRow _ _ := List.cons_ne_nil _ _

/-- The trees of a part end where nothing continues it, and they say one thing only. -/
theorem Says.isOnlyReading
    (h : Says truth level ts b) :
    IsOnlyReading (Says truth level) level.Ends ts b := by
  induction h with
  | factor _ ih => exact isLawful_conjRows.last ih
  | and _ _ ih ihrest => exact isLawful_conjRows.next ih rfl ihrest
  | alternative _ ih => exact isLawful_disjRows.last ih
  | or _ _ ih ihrest => exact isLawful_disjRows.next ih rfl ihrest
  -- Another test begins with the same tree, so that it is of the same form, or one of the two is a
  -- comparison, which would go on with a connective, or where the other one ends.
  | leaf hts =>
      intro us r s other hother heq hr hs
      cases hother with
      | leaf hus =>
          obtain ⟨rfl, hrest⟩ := eq_of_avoids hts.avoids hus.avoids heq hr hs
          exact ⟨rfl, hrest⟩
      | yes | no | parens _ => exact absurd hs (hts.not_ends heq)
      | neg _ => exact absurd heq hts.ne_neg
  | yes =>
      intro us r s other hother heq hr hs
      cases hother with
      | leaf hus => exact absurd hr (hus.not_ends heq.symm)
      | yes => exact ⟨rfl, (List.cons.inj heq).2⟩
      | _ => simp at heq
  | no =>
      intro us r s other hother heq hr hs
      cases hother with
      | leaf hus => exact absurd hr (hus.not_ends heq.symm)
      | no => exact ⟨rfl, (List.cons.inj heq).2⟩
      | _ => simp at heq
  | parens _ ih =>
      intro us r s other hother heq hr hs
      cases hother with
      | leaf hus => exact absurd hr (hus.not_ends heq.symm)
      | parens hinner =>
          cases heq
          obtain ⟨rfl, -⟩ := ih hinner rfl rfl rfl
          exact ⟨rfl, rfl⟩
      | _ => cases heq
  | neg _ ih =>
      intro us r s other hother heq hr hs
      cases hother with
      | leaf hus => exact absurd heq.symm hus.ne_neg
      | neg hus =>
          obtain ⟨rfl, hrest⟩ := ih hus (List.cons.inj heq).2 hr hs
          exact ⟨rfl, hrest⟩
      | _ => simp at heq

/-! ## Operands of connectives -/

theorem Says.ne_nil
    (h : Says truth level ts b) :
    ts ≠ [] := by
  induction h with
  | leaf hts => exact List.ne_nil_of_length_pos (Nat.lt_of_lt_of_le Nat.two_pos hts.two_le)
  | yes | no | parens _ _ | neg _ _ => exact List.cons_ne_nil _ _
  | factor _ ih | alternative _ ih => exact ih
  | and _ _ ih _ | or _ _ ih _ => exact List.append_ne_nil_of_left_ne_nil ih _

/-- Parts with connectives between them say what the connective makes of what they say. -/
theorem says_separated
    {inner : Level} {w : String} {op : Bool → Bool → Bool} {unit : Bool}
    (hrows : (connectiveRows truth inner level w op).IsLawful) (hunit : ∀ b, op b unit = b) :
    {ps : List (List TokenTree)} → {bs : List Bool} → List.Forall₂ (Says truth level) ps bs →
      ps ≠ [] → Says truth level (separated (word w) ps) (bs.foldr op unit)
  | _, _, .nil, hne => absurd rfl hne
  | _, _, .cons (b := b) hts .nil, _ => by
      rw [List.foldr_cons, List.foldr_nil, hunit]
      exact hts
  | _, _, .cons hts (.cons hnext hrest), _ =>
      hrows.row_append hts rfl
        (says_separated hrows hunit (.cons hnext hrest) (List.cons_ne_nil _ _))

end Says

/-! ## Variables and constants -/

/-- The stream spells trees that can stand in a comparison. -/
def IsPhrase (s : TokenStream) : Prop :=
  ∃ ts, s.Spells ts ∧ ts ≠ [] ∧ Avoids connectives ts

section IsPhrase

variable {s : TokenStream} {w : String}

theorem isPlain_of_isOperandWord
    (h : isOperandWord w = true) :
    Token.isPlain (.literal w) = true :=
  (Bool.and_eq_true_iff.mp h).1

theorem not_mem_of_isOperandWord
    (h : isOperandWord w = true) :
    w ∉ connectives := by
  intro hmem
  rw [isOperandWord, List.contains_iff_mem.mpr hmem, Bool.not_true, Bool.and_false] at h
  cases h

theorem IsPhrase.of_isRead
    {v : Value} {ts : List TokenTree} (h : v.IsRead ts) (hv : v.isFiltered = false) :
    IsPhrase v.source := by
  have htests : Avoids testMarks ts := (h.series hv).1
  exact ⟨ts, h.spells, h.ne_nil, htests.mono (by decide)⟩

theorem IsPhrase.of_constant
    (c : Constant) (hs : s = .token (.constant c)) :
    IsPhrase s := by
  rw [hs]
  have havoids : Avoids connectives [leaf (.constant c)] := avoids_cons.mpr ⟨rfl, avoids_nil⟩
  exact ⟨_, TokenStream.spells_token rfl, List.cons_ne_nil _ _, havoids⟩

theorem isPhrase_context
    (name : String) (type : Ty) :
    IsPhrase (Value.context name type).source := by
  have havoids : Avoids connectives [context name type.display] := avoids_cons.mpr ⟨rfl, avoids_nil⟩
  exact ⟨_, ⟨rfl, rfl⟩, List.cons_ne_nil _ _, havoids⟩

theorem IsPhrase.word
    (h : isOperandWord w = true) :
    IsPhrase (.literal w) := by
  have havoids := avoids_word (not_mem_of_isOperandWord h)
  exact ⟨_, TokenStream.spells_token (isPlain_of_isOperandWord h), List.cons_ne_nil _ _, havoids⟩

theorem isPhrase_ofParts
    {parts : List TokenStream} {ts : List TokenTree} (h : TokenStream.PartsSpell parts ts)
    (hne : ts ≠ []) (havoids : Avoids connectives ts) :
    IsPhrase (.ofParts parts) :=
  ⟨ts, h.ofParts, hne, havoids⟩

/-- Something in brackets. -/
theorem IsPhrase.group
    {parts : List TokenStream} {inner : List TokenTree} (b : Bracket)
    (h : TokenStream.PartsSpell parts inner) :
    IsPhrase (.ofParts (.literal b.opening :: (parts ++ [.literal b.closing]))) :=
  isPhrase_ofParts (.enclosed b h .nil) (List.cons_ne_nil _ _) (avoids_group _ _)

/-- Something in parentheses that follows the word for what it is. -/
theorem IsPhrase.made
    {made : String} (hw : isOperandWord w = true) (hmade : isOperandWord made = true)
    {parts : List TokenStream} {inner : List TokenTree} (h : TokenStream.PartsSpell parts inner) :
    IsPhrase (.ofParts (.literal w :: .literal made :: "(" :: (parts ++ [.literal ")"]))) := by
  have hparts := TokenStream.PartsSpell.word (isPlain_of_isOperandWord hw)
    (.word (isPlain_of_isOperandWord hmade) (.enclosed .round h .nil))
  refine isPhrase_ofParts hparts (List.cons_ne_nil _ _) ?_
  rw [avoids_word_cons, avoids_word_cons]
  exact ⟨not_mem_of_isOperandWord hw, not_mem_of_isOperandWord hmade, avoids_group _ _⟩

/-- Phrases with commas between them. -/
theorem spells_join_phrases
    {parts : List TokenStream} (h : ∀ part ∈ parts, IsPhrase part) :
    ∃ ts, (TokenStream.join parts ",").Spells ts := by
  suffices hps : ∃ ps, List.Forall₂ TokenStream.Spells parts ps ∧ ∀ p ∈ ps, p ≠ [] by
    obtain ⟨ps, hspells, hne⟩ := hps
    exact ⟨_, TokenStream.spells_join rfl hspells hne⟩
  induction parts with
  | nil => exact ⟨[], .nil, List.forall_mem_nil _⟩
  | cons part parts ih =>
      rw [List.forall_mem_cons] at h
      obtain ⟨ts, hts, hne, -⟩ := h.1
      obtain ⟨ps, hps, hrest⟩ := ih h.2
      exact ⟨ts :: ps, .cons hts hps, List.forall_mem_cons.mpr ⟨hne, hrest⟩⟩

theorem isPhrase_enum
    {entry : String} (h : isOperandWord entry = true) :
    IsPhrase (Value.enum entry).source := by
  have hparts := TokenStream.PartsSpell.word (w := "enum") rfl
    (.word (isPlain_of_isOperandWord h) .nil)
  refine isPhrase_ofParts hparts (List.cons_ne_nil _ _) ?_
  exact avoids_word_cons.mpr ⟨by decide, avoids_word (not_mem_of_isOperandWord h)⟩

theorem isPhrase_edge
    (edge : Edge) {unit : String} (h : isOperandWord unit = true) :
    IsPhrase (Value.date (.edge edge unit)).source := by
  have hunit := TokenStream.spells_token (isPlain_of_isOperandWord h)
  cases edge with
  | startOf =>
      refine isPhrase_ofParts (.word rfl (.group .round hunit .nil)) (List.cons_ne_nil _ _) ?_
      exact avoids_word_cons.mpr ⟨by decide, avoids_group _ _⟩
  | endOf =>
      refine isPhrase_ofParts (.word rfl (.group .round hunit .nil)) (List.cons_ne_nil _ _) ?_
      exact avoids_word_cons.mpr ⟨by decide, avoids_group _ _⟩

theorem spells_piece
    (piece : Option Int) :
    ∃ ts, (pieceSource piece).Spells ts := by
  cases piece with
  | none => exact ⟨[], TokenStream.spells_empty⟩
  | some n => exact ⟨_, TokenStream.spells_token rfl⟩

theorem isPhrase_dateOfPieces
    (year : Option Int) (month day : Option Nat) (time : Option TimeOfDay) :
    IsPhrase (Value.date (.piece year month day time)).source := by
  obtain ⟨ys, hys⟩ := spells_piece year
  obtain ⟨ms, hms⟩ := spells_piece (month.map Int.ofNat)
  obtain ⟨ds, hds⟩ := spells_piece (day.map Int.ofNat)
  obtain ⟨ts, -, hts, -⟩ := read_time time
  have hparts : TokenStream.PartsSpell
      [pieceSource year, ",", pieceSource (month.map Int.ofNat), ",",
        pieceSource (day.map Int.ofNat), timeSource time]
      (ys ++ word "," :: (ms ++ word "," :: (ds ++ ts))) :=
    .cons hys (.word rfl (.cons hms (.word rfl (.cons hds (.last hts)))))
  exact .made (by decide) (by decide) hparts

theorem isPhrase_date
    {d : DateValue} (h : (Value.date d).isTerm = true) :
    IsPhrase (Value.date d).source := by
  cases d with
  | absolute moment => exact .of_constant ⟨.date, _⟩ rfl
  | now => exact .word (by decide)
  | edge edge _ => exact isPhrase_edge edge h
  | piece year month day time => exact isPhrase_dateOfPieces year month day time
  | weekday day time =>
      obtain ⟨ts, hts⟩ := Value.isRead_weekday day time
      exact .of_isRead hts rfl

theorem isPhrase_argMap
    {args : List (String × Ty)}
    (h : args.all (fun (name, type) => isOperandWord name && isOperandWord type.display) = true) :
    IsPhrase (Value.argMap args).source := by
  have hargs : ∀ part ∈ args.map fun arg => .ofParts [arg.1, ":", arg.2.display],
      IsPhrase part := by
    rw [List.forall_mem_map]
    intro arg harg
    have hwords := List.all_eq_true.mp h arg harg
    rw [Bool.and_eq_true] at hwords
    have hparts := TokenStream.PartsSpell.word (isPlain_of_isOperandWord hwords.1)
      (.word (w := ":") rfl (.word (isPlain_of_isOperandWord hwords.2) .nil))
    refine isPhrase_ofParts hparts (List.cons_ne_nil _ _) ?_
    rw [avoids_word_cons, avoids_word_cons]
    exact ⟨not_mem_of_isOperandWord hwords.1, by decide,
      avoids_word (not_mem_of_isOperandWord hwords.2)⟩
  obtain ⟨ts, hts⟩ := spells_join_phrases hargs
  exact .made (by decide) (by decide) (.last hts)

theorem IsPhrase.field
    {name : String} (hname : isOperandWord name = true) (h : IsPhrase s) :
    IsPhrase (.ofParts [name, "=", s]) := by
  obtain ⟨ts, hts, -, havoids⟩ := h
  have hparts := TokenStream.PartsSpell.word (isPlain_of_isOperandWord hname)
    (.word (w := "=") rfl (.last hts))
  refine isPhrase_ofParts hparts (List.cons_ne_nil _ _) ?_
  rw [avoids_word_cons, avoids_word_cons]
  exact ⟨not_mem_of_isOperandWord hname, by decide, havoids⟩

mutual

theorem isPhrase_of_isTerm :
    (v : Value) → v.isTerm = true → IsPhrase v.source
  | .var _ _, h => .word h
  | .enum _, h => isPhrase_enum h
  | .event _, h => .word h
  | .date _, h => isPhrase_date h
  | .argMap _, h => isPhrase_argMap h
  | .array values _, h => by
      obtain ⟨ts, hts⟩ := spells_join_phrases (allPhrases_of_allTerms values h)
      exact .group .square (.last hts)
  | .object fields, h => by
      obtain ⟨ts, hts⟩ := spells_join_phrases (allPhrases_of_allFieldTerms fields h)
      exact .group .curly (.last hts)
  | .context name type, _ => isPhrase_context name type
  | .undefined _, _ => .word (by decide)
  | .boolean b, _ => by
      obtain ⟨ts, hts⟩ := Value.isRead_boolean b
      exact .of_isRead hts rfl
  | .place p, _ => by
      obtain ⟨ts, hts⟩ := Value.isRead_place p
      exact .of_isRead hts rfl
  | .time t, _ => by
      obtain ⟨ts, hts⟩ := Value.isRead_time t
      exact .of_isRead hts rfl
  | .string _, _ | .number _, _ | .measure _ _, _ | .currency _ _, _ | .entity _, _ =>
      .of_constant _ rfl

theorem allPhrases_of_allTerms :
    (values : List Value) → Value.allTerms values = true →
      ∀ part ∈ (Value.sources values).map Prod.snd, IsPhrase part
  | [], _ => List.forall_mem_nil _
  | value :: values, h => by
      rw [Value.allTerms, Bool.and_eq_true] at h
      rw [Value.sources, List.map_cons, List.forall_mem_cons]
      exact ⟨isPhrase_of_isTerm value h.1, allPhrases_of_allTerms values h.2⟩

theorem allPhrases_of_allFieldTerms :
    (fields : List (String × Value)) → Value.allFieldTerms fields = true →
      ∀ part ∈ Value.fieldSources fields, IsPhrase part
  | [], _ => List.forall_mem_nil _
  | (name, value) :: fields, h => by
      rw [Value.allFieldTerms, Bool.and_eq_true, Bool.and_eq_true] at h
      rw [Value.fieldSources, List.forall_mem_cons]
      have hvalue := isPhrase_of_isTerm value h.1.2
      exact ⟨hvalue.field h.1.1, allPhrases_of_allFieldTerms fields h.2⟩

end

end IsPhrase

theorem priority_of_isTerm
    {v : Value} (h : v.isTerm = true) :
    v.priority = .primary := by
  cases v with
  | computation _ _ _ _ | field _ _ _ | filtered _ _ _ => cases h
  | _ => rfl

/-! ## The trees of a filter -/

/-- The filter is written as trees that say what it says. -/
structure SpellsFilter (truth : List Token → Bool) (f : Filter) (ts : List TokenTree) : Prop where
  spells : f.source.Spells ts
  alternatives : Says truth .disj ts (f.holds truth)
  factors : f.priority ≠ .or → Says truth .conj ts (f.holds truth)
  test : f.priority ≠ .or → f.priority ≠ .and → Says truth .test ts (f.holds truth)

def IsWritten (truth : List Token → Bool) (f : Filter) : Prop :=
  ∃ ts, SpellsFilter truth f ts

section Filters

variable {truth : List Token → Bool} {f : Filter} {operands : List Filter}

theorem IsWritten.of_test
    {ts : List TokenTree} (hspells : f.source.Spells ts)
    (h : Says truth .test ts (f.holds truth)) :
    IsWritten truth f := by
  refine ⟨ts, ?_⟩
  exact
    { spells := hspells
      alternatives := .alternative (.factor h)
      factors := fun _ => .factor h
      test := fun _ _ => h }

/-! ### Operands -/

/-- The operand of a connective, in parentheses if need be, stands at a level. -/
def IsOperand (truth : List Token → Bool) (needed : Priority) (level : Level) (f : Filter) : Prop :=
  ∃ ts, (TokenStream.parens needed f.priority f.source).Spells ts ∧
    Says truth level ts (f.holds truth)

theorem SpellsFilter.operand
    {ts : List TokenTree} (h : SpellsFilter truth f ts) {needed : Priority} {level : Level}
    (hgroup : ∀ {us : List TokenTree} {b : Bool}, Says truth .test us b → Says truth level us b)
    (hfits : needed.rank ≤ f.priority.rank → Says truth level ts (f.holds truth)) :
    IsOperand truth needed level f := by
  have hspells := TokenStream.spells_parens needed f.priority h.spells
  unfold TokenTree.wrap at hspells
  by_cases hlt : f.priority.rank < needed.rank
  · rw [if_pos hlt] at hspells
    exact ⟨_, hspells, hgroup (.parens h.alternatives)⟩
  · rw [if_neg hlt] at hspells
    exact ⟨_, hspells, hfits (Nat.not_lt.mp hlt)⟩

theorem ne_of_rank_le
    {p q needed : Priority} (h : needed.rank ≤ p.rank) (hq : q.rank < needed.rank) :
    p ≠ q := by
  rintro rfl
  omega

theorem IsWritten.alternative
    (h : IsWritten truth f) :
    IsOperand truth .or .disj f := by
  obtain ⟨ts, h⟩ := h
  exact h.operand (fun htest => .alternative (.factor htest)) fun _ => h.alternatives

theorem IsWritten.factor
    (h : IsWritten truth f) :
    IsOperand truth .and .conj f := by
  obtain ⟨ts, h⟩ := h
  exact h.operand .factor fun hrank => h.factors (ne_of_rank_le hrank (by decide))

theorem IsWritten.test
    (h : IsWritten truth f) :
    IsOperand truth .not .test f := by
  obtain ⟨ts, h⟩ := h
  refine h.operand id fun hrank => ?_
  exact h.test (ne_of_rank_le hrank (by decide)) (ne_of_rank_le hrank (by decide))

theorem exists_spells_operands
    {needed : Priority} {level : Level} (h : ∀ f ∈ operands, IsOperand truth needed level f) :
    ∃ ps, List.Forall₂ TokenStream.Spells (Filter.sources needed operands) ps ∧
      (∀ p ∈ ps, p ≠ []) ∧
      List.Forall₂ (Says truth level) ps (operands.map (Filter.holds truth)) := by
  induction operands with
  | nil => exact ⟨[], .nil, List.forall_mem_nil _, .nil⟩
  | cons operand operands ih =>
      rw [List.forall_mem_cons] at h
      obtain ⟨ts, hspells, hmeans⟩ := h.1
      obtain ⟨ps, hrest, hne, hmeansRest⟩ := ih h.2
      refine ⟨ts :: ps, .cons hspells hrest, ?_, .cons hmeans hmeansRest⟩
      exact List.forall_mem_cons.mpr ⟨hmeans.ne_nil, hne⟩

theorem allHold_eq
    (truth : List Token → Bool) (operands : List Filter) :
    Filter.allHold truth operands = (operands.map (Filter.holds truth)).foldr and true := by
  induction operands with
  | nil => rfl
  | cons operand operands ih => rw [Filter.allHold, ih, List.map_cons, List.foldr_cons]

theorem anyHolds_eq
    (truth : List Token → Bool) (operands : List Filter) :
    Filter.anyHolds truth operands = (operands.map (Filter.holds truth)).foldr or false := by
  induction operands with
  | nil => rfl
  | cons operand operands ih => rw [Filter.anyHolds, ih, List.map_cons, List.foldr_cons]

/-- Operands that are joined by a connective. -/
theorem exists_says_join
    {needed : Priority} {inner level : Level} {w : String} {op : Bool → Bool → Bool} {unit : Bool}
    (hrows : (connectiveRows truth inner level w op).IsLawful) (hunit : ∀ b, op b unit = b)
    (hw : Token.isPlain (.literal w) = true) (hne : operands ≠ [])
    (h : ∀ f ∈ operands, IsOperand truth needed level f) :
    ∃ ts, (TokenStream.join (Filter.sources needed operands) (.literal w)).Spells ts ∧
      Says truth level ts ((operands.map (Filter.holds truth)).foldr op unit) := by
  obtain ⟨ps, hspells, hparts, hmeans⟩ := exists_spells_operands h
  have hps : ps ≠ [] := by
    intro hnil
    have hlength := hmeans.length_eq
    rw [hnil, List.length_map] at hlength
    exact hne (List.eq_nil_of_length_eq_zero hlength.symm)
  exact ⟨_, TokenStream.spells_join hw hspells hparts, says_separated hrows hunit hmeans hps⟩

/-! ### Connectives -/

theorem isWritten_conj
    (range : Option Range) (h : ∀ f ∈ operands, IsWritten truth f) :
    IsWritten truth (.conj range operands) := by
  by_cases hne : operands = []
  · subst hne
    exact .of_test (TokenStream.spells_token rfl) .yes
  · obtain ⟨ts, hspells, hmeans⟩ := exists_says_join isLawful_conjRows Bool.and_true rfl hne
      fun f hf => (h f hf).factor
    rw [← allHold_eq] at hmeans
    refine ⟨ts, ?_⟩
    exact
      { spells := by
          rw [Filter.source, if_neg (mt List.isEmpty_iff.mp hne)]
          exact hspells
        alternatives := .alternative hmeans
        factors := fun _ => hmeans
        test := fun _ hand => absurd rfl hand }

theorem isWritten_disj
    (range : Option Range) (h : ∀ f ∈ operands, IsWritten truth f) :
    IsWritten truth (.disj range operands) := by
  by_cases hne : operands = []
  · subst hne
    exact .of_test (TokenStream.spells_token rfl) .no
  · obtain ⟨ts, hspells, hmeans⟩ := exists_says_join isLawful_disjRows Bool.or_false rfl hne
      fun f hf => (h f hf).alternative
    rw [← anyHolds_eq] at hmeans
    refine ⟨ts, ?_⟩
    exact
      { spells := by
          rw [Filter.source, if_neg (mt List.isEmpty_iff.mp hne)]
          exact hspells
        alternatives := hmeans
        factors := fun hor => absurd rfl hor
        test := fun hor _ => absurd rfl hor }

theorem isWritten_neg
    (range : Option Range) (h : IsWritten truth f) :
    IsWritten truth (.neg range f) := by
  obtain ⟨ts, hspells, hmeans⟩ := h.test
  exact .of_test (TokenStream.PartsSpell.word rfl (.last hspells)).ofParts (.neg hmeans)

/-! ### Comparisons -/

theorem isWritten_of_isLeaf
    {ts : List TokenTree} (hspells : f.source.Spells ts) (hts : IsLeaf ts)
    (hf : f.holds truth = truth f.source.toList) :
    IsWritten truth f := by
  have hmeans : Says truth .test ts (f.holds truth) := by
    rw [hf, hspells.toList_eq]
    exact .leaf hts
  exact .of_test hspells hmeans

theorem exists_isLeaf_comparison
    {lhs rhs : TokenStream} {op : String} (hlhs : IsPhrase lhs) (hop : isOperandWord op = true)
    (hrhs : IsPhrase rhs) :
    ∃ ts, (comparisonSource .primary lhs op .primary rhs).Spells ts ∧ IsLeaf ts := by
  obtain ⟨ts, hts, htsne, htsAvoids⟩ := hlhs
  obtain ⟨us, hus, husne, husAvoids⟩ := hrhs
  have hplain := isPlain_of_isOperandWord hop
  have hmem := not_mem_of_isOperandWord hop
  cases hcomparison : isComparison op with
  | true =>
      refine ⟨ts ++ word op :: us, ?_, ?_, ?_⟩
      · rw [comparisonSource, hcomparison]
        exact (TokenStream.PartsSpell.cons hts (.word hplain (.last hus))).ofParts
      · exact avoids_cut.mpr ⟨htsAvoids, hmem, husAvoids⟩
      · have hlength := List.length_pos_of_ne_nil htsne
        rw [List.length_append, List.length_cons]
        omega
  | false =>
      have hinner : TokenStream.PartsSpell [lhs, ",", rhs] (ts ++ word "," :: us) :=
        .cons hts (.word rfl (.last hus))
      refine ⟨[word op, group .round (ts ++ word "," :: us)], ?_, ?_, Nat.le_refl _⟩
      · rw [comparisonSource, hcomparison]
        exact (TokenStream.PartsSpell.word hplain (.enclosed .round hinner .nil)).ofParts
      · exact avoids_word_cons.mpr ⟨hmem, avoids_group _ _⟩

theorem isWritten_comparison
    {lhs rhs : TokenStream} {op : String} (hlhs : IsPhrase lhs) (hop : isOperandWord op = true)
    (hrhs : IsPhrase rhs) (hsource : f.source = comparisonSource .primary lhs op .primary rhs)
    (hf : f.holds truth = truth f.source.toList) :
    IsWritten truth f := by
  obtain ⟨ts, hspells, hts⟩ := exists_isLeaf_comparison hlhs hop hrhs
  rw [← hsource] at hspells
  exact isWritten_of_isLeaf hspells hts hf

theorem isWritten_dontCare
    {name : String} (h : isOperandWord name = true) (range : Option Range) :
    IsWritten truth (.dontCare range name) := by
  have hname := TokenStream.spells_token (isPlain_of_isOperandWord h)
  have hspells : (Filter.dontCare range name).source.Spells
      [word "true", group .round [word name]] :=
    (TokenStream.PartsSpell.word rfl (.group .round hname .nil)).ofParts
  have havoids : Avoids connectives [word "true", group .round [word name]] :=
    avoids_word_cons.mpr ⟨by decide, avoids_group _ _⟩
  exact isWritten_of_isLeaf hspells ⟨havoids, Nat.le_refl _⟩ rfl

mutual

theorem isWritten_of_isPropositional :
    (f : Filter) → f.isPropositional = true → IsWritten truth f
  | .always, _ => .of_test (TokenStream.spells_token rfl) .yes
  | .never, _ => .of_test (TokenStream.spells_token rfl) .no
  | .conj range operands, h => isWritten_conj range (isWritten_of_allPropositional operands h)
  | .disj range operands, h => isWritten_disj range (isWritten_of_allPropositional operands h)
  | .neg range operand, h => isWritten_neg range (isWritten_of_isPropositional operand h)
  | .atom _ name op value _, h => by
      rw [Filter.isPropositional, Bool.and_eq_true, Bool.and_eq_true] at h
      refine isWritten_comparison (.word h.1.1) h.1.2 (isPhrase_of_isTerm value h.2) ?_ rfl
      rw [Filter.source, priority_of_isTerm h.2]
  | .compute _ lhs op rhs _, h => by
      rw [Filter.isPropositional, Bool.and_eq_true, Bool.and_eq_true] at h
      refine isWritten_comparison (isPhrase_of_isTerm lhs h.1.1) h.1.2
        (isPhrase_of_isTerm rhs h.2) ?_ rfl
      rw [Filter.source, priority_of_isTerm h.1.1, priority_of_isTerm h.2]
  | .dontCare range _, h => isWritten_dontCare h range

theorem isWritten_of_allPropositional :
    (operands : List Filter) → Filter.allPropositional operands = true →
      ∀ f ∈ operands, IsWritten truth f
  | [], _ => List.forall_mem_nil _
  | operand :: operands, h => by
      rw [Filter.allPropositional, Bool.and_eq_true] at h
      rw [List.forall_mem_cons]
      exact ⟨isWritten_of_isPropositional operand h.1, isWritten_of_allPropositional operands h.2⟩

end

end Filters

end Proposition

/-! ## One meaning only -/

/-- Filters that are written alike hold alike, whichever of their comparisons do. -/
theorem Filter.holds_eq_of_source_eq
    {f g : Filter} (hf : f.isPropositional = true) (hg : g.isPropositional = true)
    (h : f.source.toList = g.source.toList) (truth : List Token → Bool) :
    f.holds truth = g.holds truth := by
  have hwritten : Proposition.IsWritten truth f := Proposition.isWritten_of_isPropositional f hf
  have hother : Proposition.IsWritten truth g := Proposition.isWritten_of_isPropositional g hg
  obtain ⟨ts, hts⟩ := hwritten
  obtain ⟨us, hus⟩ := hother
  have htrees : ts = us := hts.spells.eq_of_toList_eq hus.spells h
  have happend : ts ++ [] = us ++ [] := by rw [htrees]
  exact (hts.alternatives.isOnlyReading hus.alternatives happend rfl rfl).1

def Filter.isUnread : Filter :=
  .atom none "is_read" "==" (.boolean false) none

def Filter.fromTheBoss : Filter :=
  .atom none "from" "in_array" (.array [.string "bob", .var "boss" none] none) none

/-- Unread mail from the boss, unless it is of no matter, with the connectives on the left. -/
def Filter.importantLeft : Filter :=
  .conj none
    [.conj none [isUnread, fromTheBoss, .always], .neg none (.disj none [.dontCare none "label",
      .disj none []])]

/-- Unread mail from the boss, unless it is of no matter, with the connectives on the right. -/
def Filter.importantRight : Filter :=
  .conj none
    [isUnread, .conj none [fromTheBoss, .conj none [], .neg none (.disj none
      [.disj none [.dontCare none "label"], .never])]]

theorem Filter.holds_important :
    importantLeft.holds (fun tokens => tokens.length == 3) =
      importantRight.holds fun tokens => tokens.length == 3 :=
  Filter.holds_eq_of_source_eq rfl rfl rfl _

end SkillLang
