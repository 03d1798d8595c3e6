import SkillLang.Proofs.Insertion
import SkillLang.Proofs.Types.Pieces

/-!
# Types are read back from their syntax

A type is read back from the text that it is written as.  The text of a type begins and ends with
no blank, so that trimming it does nothing, and all of its commas stand inside of brackets, so that
the fields of a compound are cut where they were joined.  Both facts are carried through arrays and
compounds together with the reading itself.

A type can be told from its text if its names are free of blanks, brackets and commas; the text of
a type variable is that of an unknown type.
-/

namespace SkillLang

/-- A name that is greater than all others comes last. -/
theorem Keyed.insert_of_forall_lt
    {α : Type} {key : String} {value : α} {entries : Keyed α}
    (h : ∀ name ∈ entries.keys, name < key) :
    insert key value entries = entries ++ [(key, value)] := by
  induction entries with
  | nil => rfl
  | cons entry rest ih =>
      obtain ⟨k, v⟩ := entry
      rw [keys, List.map_cons, List.forall_mem_cons] at h
      have hlt : ¬ key < k := h.1.asymm
      have hne : key ≠ k := ne_of_gt h.1
      rw [insert, if_neg hlt, if_neg hne, ih h.2, List.cons_append]

open Text

namespace Ty

/-! ## Readable types -/

/-- The names that stand for types without parameters. -/
def knownNames : List String :=
  ["Any", "Boolean", "String", "Number", "Currency", "Date", "Time", "Location",
    "RecurrentTimeSpecification", "ArgMap", "Object"]

/-- A list of entries that is written, and not like the absence of one. -/
def isPlainChoice (entries : List String) : Bool :=
  !entries.isEmpty && entries != ["*"] && entries.all isPlainName

mutual

/-- The type can be told from its text: it has no type variables, its names are plain, and fields
have names without colons. -/
def isReadable : Ty → Bool
  | measure unit => isPlainName unit
  | enum (some entries) => isPlainChoice entries
  | entity kind => isPlainName kind
  | array elem => isReadable elem
  | compound fields => decide ((Keyed.keys fields).Pairwise (· < ·)) && fieldsReadable fields
  | unknown name => isPlainName name && name != "" && !knownNames.contains name
  | var _ => false
  | _ => true

def fieldsReadable : List (String × Ty) → Bool
  | [] => true
  | (name, type) :: fields =>
    isPlainName name && name != "" && !name.toList.contains ':' && isReadable type &&
      fieldsReadable fields

end

theorem ofName_of_not_mem
    {name : String} (h : name ∉ knownNames) :
    ofName name = unknown name := by
  unfold ofName
  split
  all_goals first | rfl | exact absurd (by decide) h

/-! ## Reading what is written -/

/-- The type is read back from its text, which stays in one piece wherever types are written. -/
structure ReadsBack (type : Ty) : Prop where
  solid : IsSolid type.display.toList
  whole : ∀ depth, 0 ≤ depth → IsWhole depth type.display.toList
  parse_eq : ∀ fuel cs, trimChars cs = type.display.toList → type.display.toList.length < fuel →
    parseChars fuel cs = .ok type

/-- Reads what stands in parentheses after a name. -/
def parseApplied (parse : List Char → Except SyntaxError Ty) (invalid : SyntaxError)
    (head : String) (inner : List Char) : Except SyntaxError Ty :=
  match head with
  | "Measure" => return measure (String.ofList inner)
  | "Entity" => return entity (String.ofList inner)
  | "Array" => return array (← parse inner)
  | "Enum" =>
    if inner == ['*'] then return enum none
    else return enum (some ((splitCommas [] inner).map trimmed))
  | _ => throw invalid

/-- Reads a part of a compound, and adds it to the fields before it. -/
def parseField (parse : List Char → Except SyntaxError Ty) (invalid : SyntaxError)
    (fields : Keyed Ty) (part : List Char) : Except SyntaxError (Keyed Ty) := do
  if (trimChars part).isEmpty then return fields
  match splitAt? ':' part with
  | none => throw invalid
  | some (name, type) => return Keyed.insert (trimmed name) (← parse type) fields

section Reading

variable {cs : List Char}

theorem parseChars_word
    {text : List Char} (htrim : trimChars cs = text) (hne : text ≠ [])
    (hplain : ∀ c ∈ syntaxChars, c ∉ text) (fuel : Nat) :
    parseChars (fuel + 1) cs = .ok (ofName (String.ofList text)) := by
  have hempty : text.isEmpty = false := List.isEmpty_eq_false_iff.mpr hne
  have hbrace : unbrace? text = none := by
    apply unbrace?_eq_none
    intro hhead
    exact hplain '\x7b' (by decide) (List.mem_of_head? hhead)
  have hparen : splitAt? '(' text = none := splitAt?_eq_none (hplain '(' (by decide))
  rw [parseChars, htrim, hempty, hbrace, hparen]
  rfl

theorem parseChars_applied
    {head inner : List Char}
    (htrim : trimChars cs = head ++ '(' :: (inner ++ [')'])) (hbrace : '\x7b' ∉ head)
    (hparen : '(' ∉ head) (fuel : Nat) :
    ∃ invalid, parseChars (fuel + 1) cs =
      parseApplied (parseChars fuel) invalid (String.ofList head) (trimChars inner) := by
  have hempty : (head ++ '(' :: (inner ++ [')'])).isEmpty = false := by simp
  have hunbrace : unbrace? (head ++ '(' :: (inner ++ [')'])) = none := by
    apply unbrace?_eq_none
    intro hhead
    cases head with
    | nil => cases hhead
    | cons c head =>
        obtain rfl := Option.some.inj hhead
        exact hbrace List.mem_cons_self
  refine ⟨⟨String.ofList (head ++ '(' :: (inner ++ [')']))⟩, ?_⟩
  rw [parseChars, htrim, hempty, hunbrace, splitAt?_append hparen]
  dsimp only
  rw [dropEnd?_concat]
  rfl

theorem parseChars_braces
    {inner : List Char} (htrim : trimChars cs = '\x7b' :: (inner ++ ['\x7d'])) (fuel : Nat) :
    ∃ invalid, parseChars (fuel + 1) cs =
      ((splitFields 0 [] inner).foldlM (parseField (parseChars fuel) invalid) []).map compound := by
  have hunbrace : unbrace? ('\x7b' :: (inner ++ ['\x7d'])) = some inner :=
    dropEnd?_concat '\x7d' inner
  refine ⟨⟨String.ofList ('\x7b' :: (inner ++ ['\x7d']))⟩, ?_⟩
  rw [parseChars, htrim, List.isEmpty_cons, hunbrace]
  rfl

end Reading

/-! ### Names alone and names with parameters -/

theorem readsBack_word
    {type : Ty} (hplain : isPlainName type.display = true) (hne : type.display ≠ "")
    (hname : ofName type.display = type) :
    type.ReadsBack where
  solid := isSolid_of_isPlainName hplain hne
  whole _ _ := isWhole_of_isPlainName hplain
  parse_eq fuel cs htrim hfuel := by
    obtain ⟨fuel, rfl⟩ := Nat.exists_eq_succ_of_ne_zero (Nat.ne_zero_of_lt hfuel)
    have hsolid := isSolid_of_isPlainName hplain hne
    have hchars : ∀ c ∈ syntaxChars, c ∉ type.display.toList :=
      fun c hc => not_mem_of_isPlainName hplain hc
    rw [Nat.succ_eq_add_one, parseChars_word htrim hsolid.ne_nil hchars, String.ofList_toList,
      hname]

theorem readsBack_applied
    {type : Ty} (head : String) (inner : List Char)
    (hdisplay : type.display.toList = head.toList ++ '(' :: (inner ++ [')']))
    (hhead : isPlainName head = true) (hne : head ≠ "")
    (hinner : ∀ depth, 0 < depth → IsWhole depth inner)
    (hparse : ∀ fuel invalid, inner.length < fuel →
      parseApplied (parseChars fuel) invalid head (trimChars inner) = .ok type) :
    type.ReadsBack where
  solid := by
    rw [hdisplay]
    exact (isSolid_of_isPlainName hhead hne).around (isSolid_char (by decide)) ('(' :: inner)
  whole depth hdepth := by
    rw [hdisplay]
    have hbrackets : IsWhole depth ('(' :: (inner ++ [')'])) :=
      (hinner (depth + 1) (by omega)).enclosed (.inl rfl) (.inl rfl)
    exact (isWhole_of_isPlainName hhead).append hbrackets
  parse_eq fuel cs htrim hfuel := by
    obtain ⟨fuel, rfl⟩ := Nat.exists_eq_succ_of_ne_zero (Nat.ne_zero_of_lt hfuel)
    rw [hdisplay] at htrim hfuel
    have hlength : inner.length < fuel := by
      simp only [List.length_append, List.length_cons] at hfuel
      omega
    have hbrace := not_mem_of_isPlainName hhead (by decide : '\x7b' ∈ syntaxChars)
    have hparen := not_mem_of_isPlainName hhead (by decide : '(' ∈ syntaxChars)
    obtain ⟨invalid, heq⟩ := parseChars_applied htrim hbrace hparen fuel
    rw [Nat.succ_eq_add_one, heq, String.ofList_toList, hparse fuel invalid hlength]

/-- Types that have one name in parentheses. -/
theorem readsBack_named
    (head : String) (make : String → Ty) {name : String} (h : isPlainName name = true)
    (hdisplay : (make name).display.toList = head.toList ++ '(' :: (name.toList ++ [')']))
    (hhead : isPlainName head = true) (hne : head ≠ "")
    (hparse : ∀ recur invalid inner,
      parseApplied recur invalid head inner = .ok (make (String.ofList inner))) :
    (make name).ReadsBack := by
  apply readsBack_applied head name.toList hdisplay hhead hne
  · exact fun _ _ => isWhole_of_isPlainName h
  · intro fuel invalid _
    rw [trimChars_of_no_blank (not_blank_of_isPlainName h), hparse, String.ofList_toList]

theorem readsBack_anyEntry :
    (enum none).ReadsBack := by
  apply readsBack_applied "Enum" ['*']
  · rfl
  · decide
  · decide
  · exact fun _ _ => isWhole_char (.inl (by decide))
  · intro fuel invalid _
    rfl

theorem readsBack_array
    {elem : Ty} (h : elem.ReadsBack) :
    (array elem).ReadsBack := by
  apply readsBack_applied "Array" elem.display.toList
  · simp [display]
  · decide
  · decide
  · exact fun depth hdepth => h.whole depth (by omega)
  · intro fuel invalid hfuel
    rw [h.solid.trimChars_self, parseApplied, h.parse_eq fuel _ h.solid.trimChars_self hfuel]
    rfl

/-! ### Entries -/

theorem mem_intercalate
    {c : Char} {pieces : List (List Char)} (h : c ∈ [','].intercalate pieces) :
    c = ',' ∨ ∃ piece ∈ pieces, c ∈ piece := by
  induction pieces with
  | nil => simp [List.intercalate] at h
  | cons piece pieces ih =>
      cases pieces with
      | nil =>
          have hmem : c ∈ piece := by simpa [List.intercalate] using h
          exact .inr ⟨piece, List.mem_cons_self, hmem⟩
      | cons next pieces =>
          rw [List.intercalate_cons_cons, List.mem_append, List.mem_append] at h
          obtain (hpiece | hcomma) | hrest := h
          · exact .inr ⟨piece, List.mem_cons_self, hpiece⟩
          · exact .inl (List.mem_singleton.mp hcomma)
          · obtain hcomma | ⟨p, hp, hc⟩ := ih hrest
            · exact .inl hcomma
            · exact .inr ⟨p, List.mem_cons_of_mem _ hp, hc⟩

theorem readsBack_enum
    {entries : List String} (h : isPlainChoice entries = true) :
    (enum (some entries)).ReadsBack := by
  rw [isPlainChoice, Bool.and_eq_true, Bool.and_eq_true, Bool.not_eq_true', bne_iff_ne,
    List.all_eq_true] at h
  obtain ⟨⟨hempty, hstar⟩, hplain⟩ := h
  have hne : entries.map String.toList ≠ [] := by
    rw [ne_eq, List.map_eq_nil_iff]
    exact List.isEmpty_eq_false_iff.mp hempty
  have hcommas : ∀ piece ∈ entries.map String.toList, ',' ∉ piece :=
    List.forall_mem_map.mpr fun entry hentry =>
      not_mem_of_isPlainName (hplain entry hentry) (by decide)
  have hsplit := splitCommas_intercalate hne hcommas
  have hchar : ∀ c ∈ [','].intercalate (entries.map String.toList),
      c = ',' ∨ ∃ entry ∈ entries, c ∈ entry.toList := by
    intro c hc
    obtain hcomma | ⟨piece, hpiece, hmem⟩ := mem_intercalate hc
    · exact .inl hcomma
    · obtain ⟨entry, hentry, rfl⟩ := List.mem_map.mp hpiece
      exact .inr ⟨entry, hentry, hmem⟩
  apply readsBack_applied "Enum" ([','].intercalate (entries.map String.toList))
  · simp [display, String.toList_intercalate]
  · decide
  · decide
  · intro depth hdepth
    apply isWhole_of_forall
    intro c hc
    obtain rfl | ⟨entry, hentry, hmem⟩ := hchar c hc
    · exact .inr ⟨rfl, hdepth⟩
    · exact .inl fun hsyntax => not_mem_of_isPlainName (hplain entry hentry) hsyntax hmem
  · intro fuel invalid _
    have hblank : ∀ c ∈ [','].intercalate (entries.map String.toList), isBlank c = false := by
      intro c hc
      obtain rfl | ⟨entry, hentry, hmem⟩ := hchar c hc
      · decide
      · exact not_blank_of_isPlainName (hplain entry hentry) c hmem
    have hany : ([','].intercalate (entries.map String.toList) == ['*']) = false := by
      rw [beq_eq_false_iff_ne]
      intro heq
      rw [heq] at hsplit
      have hentries : entries.map String.toList = ["*"].map String.toList := hsplit.symm
      exact hstar (List.map_injective_iff.mpr (fun _ _ => String.toList_inj.mp) hentries)
    have htrimmed : (entries.map String.toList).map trimmed = entries := by
      rw [List.map_map]
      apply (List.map_congr_left _).trans (List.map_id entries)
      exact fun entry hentry => trimmed_of_isPlainName (hplain entry hentry)
    rw [trimChars_of_no_blank hblank, parseApplied, hany, hsplit, htrimmed]
    rfl

/-! ### Compounds -/

/-- The field has a name that is told from its type, and its type is read back. -/
structure FieldReadsBack (field : String × Ty) : Prop where
  plain : isPlainName field.1 = true
  ne_empty : field.1 ≠ ""
  colon : ':' ∉ field.1.toList
  type : field.2.ReadsBack

/-- A field as it stands between the commas of a compound. -/
def fieldText (field : String × Ty) : List Char :=
  field.1.toList ++ ([':', ' '] ++ field.2.display.toList)

theorem toList_displayFields_cons
    (separator : String) (field : String × Ty) (fields : List (String × Ty)) :
    (displayFields separator (field :: fields)).toList =
      separator.toList ++ (fieldText field ++ (displayFields ", " fields).toList) := by
  simp [displayFields, fieldText]

theorem toList_displayFields_separator
    (field : String × Ty) (fields : List (String × Ty)) :
    (displayFields ", " (field :: fields)).toList =
      ',' :: ' ' :: (displayFields "" (field :: fields)).toList := by
  rw [toList_displayFields_cons, toList_displayFields_cons]
  rfl

section Fields

variable {field : String × Ty} {fields : List (String × Ty)}

theorem FieldReadsBack.isSolid
    (h : FieldReadsBack field) :
    IsSolid (fieldText field) :=
  (isSolid_of_isPlainName h.plain h.ne_empty).around h.type.solid [':', ' ']

theorem FieldReadsBack.isWhole
    (h : FieldReadsBack field) {depth : Int} (hdepth : 0 ≤ depth) :
    IsWhole depth (fieldText field) := by
  have hmark : IsWhole depth [':', ' '] :=
    (isWhole_char (.inl (by decide))).append (isWhole_char (.inl (by decide)))
  exact (isWhole_of_isPlainName h.plain).append (hmark.append (h.type.whole depth hdepth))

theorem isWhole_displayFields
    (h : ∀ field ∈ fields, FieldReadsBack field) {depth : Int} (hdepth : 0 < depth)
    {separator : String} (hseparator : IsWhole depth separator.toList) :
    IsWhole depth (displayFields separator fields).toList := by
  induction fields generalizing separator with
  | nil => exact isWhole_nil
  | cons field fields ih =>
      rw [List.forall_mem_cons] at h
      have hcomma : IsWhole depth ", ".toList :=
        (isWhole_char (.inr ⟨rfl, hdepth⟩)).append (isWhole_char (.inl (by decide)))
      have hfield : IsWhole depth (fieldText field) := h.1.isWhole (by omega)
      rw [toList_displayFields_cons]
      exact hseparator.append (hfield.append (ih h.2 hcomma))

theorem length_le_displayFields
    (hmem : field ∈ fields) (separator : String) :
    field.2.display.toList.length ≤ (displayFields separator fields).toList.length := by
  induction fields generalizing separator with
  | nil => cases hmem
  | cons first fields ih =>
      rw [toList_displayFields_cons]
      simp only [fieldText, List.length_append]
      obtain rfl | hmem := List.mem_cons.mp hmem
      · omega
      · have hrest := ih hmem ", "
        omega

/-- A field is added behind those with smaller names. -/
theorem parseField_eq
    {parse : List Char → Except SyntaxError Ty} (invalid : SyntaxError)
    (h : FieldReadsBack field)
    (hparse : ∀ cs, trimChars cs = field.2.display.toList → parse cs = .ok field.2)
    {done : Keyed Ty} (hdone : ∀ name ∈ Keyed.keys done, name < field.1) {after : List Char}
    (hafter : ∀ c ∈ after, isBlank c = true) :
    parseField parse invalid done (' ' :: (fieldText field ++ after)) =
      .ok (done ++ [field]) := by
  have hbefore : ∀ c ∈ [' '], isBlank c = true := List.forall_mem_singleton.mpr rfl
  have hpart : trimChars (' ' :: (fieldText field ++ after)) = fieldText field :=
    h.isSolid.trimChars_eq hbefore hafter
  have hname : trimmed (' ' :: field.1.toList) = field.1 := by
    have htrim := (isSolid_of_isPlainName h.plain h.ne_empty).trimChars_eq hbefore
      (List.forall_mem_nil _)
    rw [List.append_nil, List.singleton_append] at htrim
    rw [trimmed, htrim, String.ofList_toList]
  have htype : parse (' ' :: (field.2.display.toList ++ after)) = .ok field.2 :=
    hparse _ (h.type.solid.trimChars_eq hbefore hafter)
  have hcolon : ':' ∉ ' ' :: field.1.toList := by
    rw [List.mem_cons, not_or]
    exact ⟨by decide, h.colon⟩
  have hsplit : splitAt? ':' (' ' :: (fieldText field ++ after)) =
      some (' ' :: field.1.toList, ' ' :: (field.2.display.toList ++ after)) := by
    have hcut := splitAt?_append hcolon (' ' :: (field.2.display.toList ++ after))
    rw [← hcut, fieldText, List.append_assoc]
    rfl
  have hempty : (fieldText field).isEmpty = false :=
    List.isEmpty_eq_false_iff.mpr h.isSolid.ne_nil
  rw [parseField, hpart, hempty, hsplit]
  dsimp only
  rw [htype, hname, ← Keyed.insert_of_forall_lt hdone]
  rfl

/-- The fields of a compound are cut where they were joined, and read one after the other. -/
theorem foldlM_parseField
    {parse : List Char → Except SyntaxError Ty} {invalid : SyntaxError}
    (h : ∀ field ∈ fields, FieldReadsBack field)
    (hparse : ∀ field ∈ fields, ∀ cs, trimChars cs = field.2.display.toList →
      parse cs = .ok field.2)
    (hne : fields ≠ []) (done : Keyed Ty)
    (hsorted : (Keyed.keys (done ++ fields)).Pairwise (· < ·)) :
    (splitFields 0 [' '] ((displayFields "" fields).toList ++ [' '])).foldlM
        (parseField parse invalid) done =
      .ok (done ++ fields) := by
  -- Behind the text of a field there is nothing or a comma, and the text has none of its own
  -- outside of brackets, so that it is cut off as a whole.
  induction fields generalizing done with
  | nil => exact absurd rfl hne
  | cons field fields ih =>
      rw [List.forall_mem_cons] at h hparse
      have hwhole : IsWhole 0 (fieldText field) := h.1.isWhole (Int.le_refl 0)
      have hdone : ∀ name ∈ Keyed.keys done, name < field.1 := by
        intro name hname
        rw [Keyed.keys, List.map_append, List.pairwise_append] at hsorted
        exact hsorted.2.2 name hname field.1 List.mem_cons_self
      have hread {after : List Char} (hafter : ∀ c ∈ after, isBlank c = true) :=
        parseField_eq invalid h.1 hparse.1 hdone hafter
      rw [toList_displayFields_cons, List.append_assoc, List.append_assoc,
        show "".toList = [] from rfl, List.nil_append, hwhole]
      cases fields with
      | nil =>
          have hcut : splitFields 0 ((fieldText field).reverse ++ [' '])
              ((displayFields ", " []).toList ++ [' ']) = [' ' :: (fieldText field ++ [' '])] := by
            simp [displayFields, splitFields]
          rw [hcut, List.foldlM_cons, hread (List.forall_mem_singleton.mpr rfl)]
          rfl
      | cons next fields =>
          have hcut : splitFields 0 ((fieldText field).reverse ++ [' '])
              ((displayFields ", " (next :: fields)).toList ++ [' ']) =
                (' ' :: (fieldText field ++ [])) ::
                  splitFields 0 [' '] ((displayFields "" (next :: fields)).toList ++ [' ']) := by
            rw [toList_displayFields_separator]
            simp [splitFields]
          have happend : done ++ field :: next :: fields = (done ++ [field]) ++ next :: fields := by
            simp
          rw [happend] at hsorted
          rw [hcut, List.foldlM_cons, hread (List.forall_mem_nil _), happend]
          exact ih h.2 hparse.2 (List.cons_ne_nil _ _) _ hsorted

theorem readsBack_compound
    (h : ∀ field ∈ fields, FieldReadsBack field)
    (hsorted : (Keyed.keys fields).Pairwise (· < ·)) :
    (compound fields).ReadsBack := by
  have hdisplay : (compound fields).display.toList =
      '\x7b' :: ((' ' :: ((displayFields "" fields).toList ++ [' '])) ++ ['\x7d']) := by
    simp [display]
  have hspace (depth : Int) : IsWhole depth [' '] := isWhole_char (.inl (by decide))
  constructor
  · have hopening : IsSolid ['\x7b'] := isSolid_char (by decide)
    have hclosing : IsSolid ['\x7d'] := isSolid_char (by decide)
    rw [hdisplay]
    exact hopening.around hclosing (' ' :: ((displayFields "" fields).toList ++ [' ']))
  · intro depth hdepth
    have hfields : IsWhole (depth + 1) (displayFields "" fields).toList :=
      isWhole_displayFields h (by omega) isWhole_nil
    rw [hdisplay]
    exact ((hspace _).append (hfields.append (hspace _))).enclosed (.inr rfl) (.inr rfl)
  · intro fuel cs htrim hfuel
    obtain ⟨fuel, rfl⟩ := Nat.exists_eq_succ_of_ne_zero (Nat.ne_zero_of_lt hfuel)
    rw [hdisplay] at htrim hfuel
    obtain ⟨invalid, heq⟩ := parseChars_braces htrim fuel
    have hparse : ∀ field ∈ fields, ∀ cs, trimChars cs = field.2.display.toList →
        parseChars fuel cs = .ok field.2 := by
      intro field hfield cs htrim
      have hle := length_le_displayFields hfield ""
      simp only [List.length_cons, List.length_append] at hfuel
      exact (h field hfield).type.parse_eq fuel cs htrim (by omega)
    rw [Nat.succ_eq_add_one, heq]
    by_cases hne : fields = []
    · subst hne
      rfl
    · have hcut : splitFields 0 [] (' ' :: ((displayFields "" fields).toList ++ [' '])) =
          splitFields 0 [' '] ((displayFields "" fields).toList ++ [' ']) := rfl
      rw [hcut, foldlM_parseField h hparse hne [] hsorted]
      rfl

end Fields

/-! ## All types -/

mutual

theorem readsBack_of_isReadable :
    (type : Ty) → type.isReadable = true → type.ReadsBack
  | measure _, h =>
      readsBack_named "Measure" measure h (by simp [display]) (by decide) (by decide)
        fun _ _ _ => rfl
  | enum none, _ => readsBack_anyEntry
  | enum (some _), h => readsBack_enum h
  | entity _, h =>
      readsBack_named "Entity" entity h (by simp [display]) (by decide) (by decide)
        fun _ _ _ => rfl
  | array elem, h => readsBack_array (readsBack_of_isReadable elem h)
  | compound fields, h => by
      rw [isReadable, Bool.and_eq_true, decide_eq_true_iff] at h
      exact readsBack_compound (fieldReadsBack_of_fieldsReadable fields h.2) h.1
  | unknown name, h => by
      rw [isReadable, Bool.and_eq_true, Bool.and_eq_true, bne_iff_ne, Bool.not_eq_true'] at h
      obtain ⟨⟨hplain, hne⟩, hknown⟩ := h
      have hunknown : name ∉ knownNames := by
        intro hmem
        rw [List.contains_iff_mem.mpr hmem] at hknown
        cases hknown
      exact readsBack_word hplain hne (ofName_of_not_mem hunknown)
  | any, _ | boolean, _ | string, _ | number, _ | currency, _ | date, _ | time, _ | location, _
  | recurrentTime, _ | argMap, _ | object, _ =>
      readsBack_word (by decide) (by decide) rfl

theorem fieldReadsBack_of_fieldsReadable :
    (fields : List (String × Ty)) → fieldsReadable fields = true →
      ∀ field ∈ fields, FieldReadsBack field
  | [], _ => List.forall_mem_nil _
  | (name, type) :: fields, h => by
      rw [fieldsReadable] at h
      simp only [Bool.and_eq_true, bne_iff_ne, Bool.not_eq_true', List.contains_eq_mem,
        decide_eq_false_iff_not] at h
      obtain ⟨⟨⟨⟨hplain, hne⟩, hcolon⟩, htype⟩, hfields⟩ := h
      rw [List.forall_mem_cons]
      constructor
      · exact ⟨hplain, hne, hcolon, readsBack_of_isReadable type htype⟩
      · exact fieldReadsBack_of_fieldsReadable fields hfields

end

/-- A type is read back from its text, and from the JSON of a signature that it stands in. -/
theorem parse_display
    {type : Ty} (h : type.isReadable = true) :
    parse type.display = .ok type ∧ ofJson? (.str type.display) = some type := by
  have hreads := readsBack_of_isReadable type h
  have hparse : parse type.display = .ok type :=
    hreads.parse_eq _ _ hreads.solid.trimChars_self (Nat.lt_succ_self _)
  constructor
  · exact hparse
  · rw [ofJson?, Json.asString?]
    simp [hparse, Except.toOption]

/-- The type of readings, with compounds in arrays in compounds. -/
def readings : Ty :=
  .compound
    [("at", .date),
      ("by", .entity "tt:username"),
      ("values",
        .array (.compound
          [("kept", .measure ""), ("level", .enum (some ["", "*", "high"])),
            ("raw", .unknown "a:b")]))]

theorem parse_display_readings :
    readings.isReadable = true ∧ parse readings.display = .ok readings ∧
      ofJson? (.str readings.display) = some readings :=
  ⟨by decide, parse_display (by decide)⟩

end Ty

end SkillLang
