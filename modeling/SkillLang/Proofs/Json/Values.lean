import SkillLang.Json.Parser
import SkillLang.Proofs.Json.Lexemes

/-!
# Reading written values

The text of a value is read as the value, members in their order and repeated keys included.  The
reader meets the text of a part in the middle of another text, so a part is followed by nothing or
by one of the marks that can stand after it.  A text has more characters than its value has parts,
which is why the fuel of the reader lasts.
-/

namespace SkillLang.Json

/-- Nothing is left, or what is left begins with a mark that can stand after a value. -/
def Delimits (rest : List Char) : Prop :=
  ∀ c ∈ rest.head?, c = ',' ∨ c = ']' ∨ c = '\x7d'

theorem Delimits.endsNumeral
    {rest : List Char} (h : Delimits rest) :
    EndsNumeral rest where
  digit c hc := by
    obtain rfl | rfl | rfl := h c hc
    all_goals rfl
  point hc := by
    obtain heq | heq | heq := h '.' hc
    all_goals cases heq
  mark c hc := by
    obtain rfl | rfl | rfl := h c hc
    all_goals rfl

theorem delimits_cons
    {c : Char} (hc : c = ',' ∨ c = ']' ∨ c = '\x7d') (rest : List Char) :
    Delimits (c :: rest) := by
  rintro _ ⟨⟩
  exact hc

theorem skipSpace_cons
    {c : Char} (hc : isSpace c = false) (cs : List Char) :
    skipSpace (c :: cs) = c :: cs :=
  List.dropWhile_cons_of_neg (by simp [hc])

/-- The text of a value is read as the value, wherever it stands. -/
structure IsReadable (depth : Nat) (value : Json) : Prop where
  head : ∃ c cs, value.write.toList = c :: cs ∧ isSpace c = false ∧ c ≠ ']'
  read : ∀ (fuel : Nat) (rest : List Char), 2 * value.write.toList.length ≤ fuel → Delimits rest →
    readValue fuel depth .whole (value.write.toList ++ rest) = some (value, rest)

/-- One unit of fuel is for the value itself, the others are for its parts. -/
theorem isReadable_of_cons
    {depth : Nat} {value : Json} {c : Char} {cs : List Char} (hwrite : value.write.toList = c :: cs)
    (hspace : isSpace c = false) (hclose : c ≠ ']')
    (hread : ∀ (fuel : Nat) (rest : List Char), 2 * cs.length + 1 ≤ fuel → Delimits rest →
      readValue (fuel + 1) depth .whole (c :: (cs ++ rest)) = some (value, rest)) :
    IsReadable depth value := by
  refine ⟨⟨c, cs, hwrite, hspace, hclose⟩, fun fuel rest hfuel hrest => ?_⟩
  rw [hwrite, List.length_cons] at hfuel
  obtain ⟨fuel, rfl⟩ : ∃ n, fuel = n + 1 := ⟨fuel - 1, by omega⟩
  rw [hwrite, List.cons_append]
  exact hread fuel rest (by omega) hrest

/-! ## Numbers -/

def BeginsNumeral (c : Char) : Prop :=
  c = '-' ∨ c.isDigit = true

theorem Numeral.IsProper.begins
    {n : Numeral} (hn : n.IsProper) :
    ∃ c cs, n.chars = c :: cs ∧ BeginsNumeral c := by
  obtain ⟨c, cs, hcs⟩ := List.exists_cons_of_ne_nil hn.whole.ne_nil
  have hdigit := hn.whole.isDigit c (by simp [hcs])
  cases hsign : n.negative with
  | true => exact ⟨'-', n.unsignedChars, by rw [chars, if_pos hsign], .inl rfl⟩
  | false =>
      refine ⟨c, cs ++ (fractionChars n.fraction ++ exponentChars n.exponent), ?_, .inr hdigit⟩
      rw [chars, hsign, if_neg Bool.false_ne_true, unsignedChars, hcs, List.cons_append]

theorem BeginsNumeral.ne
    {c d : Char} (hc : BeginsNumeral c) (hd : d.isDigit = false) (hminus : d ≠ '-') :
    c ≠ d := by
  rintro rfl
  obtain heq | hdigit := hc
  · exact hminus heq
  · rw [hd] at hdigit
    cases hdigit

theorem BeginsNumeral.isSpace
    {c : Char} (hc : BeginsNumeral c) :
    isSpace c = false := by
  rw [Json.isSpace]
  simp [hc.ne (d := ' ') rfl (by decide), hc.ne (d := '\n') rfl (by decide),
    hc.ne (d := '\r') rfl (by decide), hc.ne (d := '\t') rfl (by decide)]

theorem readValue_numeral
    {c : Char} (hc : BeginsNumeral c) (fuel depth : Nat) (shape : Shape) (cs : List Char) :
    readValue (fuel + 1) depth shape (c :: cs) =
      (readNumeral (c :: cs)).bind fun (n, rest) => n.value.map fun value => (value, rest) := by
  have hother {d : Char} {ds : List Char} (heq : c :: cs = d :: ds) (hd : d.isDigit = false)
      (hminus : d ≠ '-') : False :=
    hc.ne hd hminus (List.cons.inj heq).1
  rw [readValue.eq_def]
  dsimp only
  rw [skipSpace_cons hc.isSpace]
  split
  next heq => exact (hother heq rfl (by decide)).elim
  next heq => exact (hother heq rfl (by decide)).elim
  next heq => exact (hother heq rfl (by decide)).elim
  next heq => exact (hother heq rfl (by decide)).elim
  next heq => exact (hother heq rfl (by decide)).elim
  next heq => exact (hother heq rfl (by decide)).elim
  next =>
      cases readNumeral (c :: cs) with
      | none => rfl
      | some found =>
          obtain ⟨n, rest⟩ := found
          cases hvalue : n.value with
          | none => simp [hvalue]
          | some value => simp [hvalue]

theorem isReadable_number
    {value : Json} (h : IsNumeralOf value.write.toList value) (depth : Nat) :
    IsReadable depth value := by
  obtain ⟨n, hn, hchars, hvalue⟩ := h
  obtain ⟨c, cs, hcs, hc⟩ := hn.begins
  refine isReadable_of_cons (hchars ▸ hcs) hc.isSpace (hc.ne rfl (by decide)) ?_
  intro fuel rest _ hrest
  have hread := readNumeral_chars hn hrest.endsNumeral
  rw [hcs, List.cons_append] at hread
  rw [readValue_numeral hc, hread, Option.bind_some]
  dsimp only
  rw [hvalue, Option.map_some]

/-! ## Strings -/

theorem toList_quote
    (s : String) :
    (Text.quote s).toList = '"' :: (s.toList.flatMap Text.escapeChar ++ ['"']) := by
  rw [Text.quote, String.toList_ofList, Text.quoteChars]

theorem readString_quote
    (s : String) (rest : List Char) :
    ∃ cs, (Text.quote s).toList ++ rest = '"' :: cs ∧ readString [] cs = some (s, rest) := by
  refine ⟨s.toList.flatMap Text.escapeChar ++ '"' :: rest, ?_, ?_⟩
  · rw [toList_quote, List.cons_append, List.append_assoc, List.singleton_append]
  · rw [readString_escaped, List.reverse_nil, List.nil_append, String.ofList_toList]

theorem readValue_quote
    (fuel depth : Nat) (shape : Shape) (cs : List Char) :
    readValue (fuel + 1) depth shape ('"' :: cs) =
      (readString [] cs).map fun (s, rest) => (.str s, rest) := by
  rw [readValue]
  rfl

theorem isReadable_str
    (s : String) (depth : Nat) :
    IsReadable depth (.str s) := by
  have hwrite : (write (.str s)).toList = (Text.quote s).toList := by rw [write]
  refine isReadable_of_cons (hwrite.trans (toList_quote s)) rfl (by decide) ?_
  intro fuel rest _ _
  obtain ⟨cs, hcs, hread⟩ := readString_quote s rest
  rw [← List.cons_append, ← toList_quote, hcs, readValue_quote, hread, Option.map_some]

/-! ## Constants -/

theorem isReadable_null
    (depth : Nat) :
    IsReadable depth .null := by
  have hwrite : (write .null).toList = ['n', 'u', 'l', 'l'] := by
    rw [write]
    rfl
  refine isReadable_of_cons hwrite rfl (by decide) fun fuel rest _ _ => ?_
  rw [readValue]
  rfl

theorem isReadable_bool
    (b : Bool) (depth : Nat) :
    IsReadable depth (.bool b) := by
  cases b with
  | true =>
      have hwrite : (write (.bool true)).toList = ['t', 'r', 'u', 'e'] := by
        rw [write]
        rfl
      refine isReadable_of_cons hwrite rfl (by decide) fun fuel rest _ _ => ?_
      rw [readValue]
      rfl
  | false =>
      have hwrite : (write (.bool false)).toList = ['f', 'a', 'l', 's', 'e'] := by
        rw [write]
        rfl
      refine isReadable_of_cons hwrite rfl (by decide) fun fuel rest _ _ => ?_
      rw [readValue]
      rfl

/-! ## Arrays -/

/-- The texts of items with commas between them. -/
def separated (texts : List String) : List Char :=
  [','].intercalate (texts.map String.toList)

theorem separated_singleton
    (text : String) :
    separated [text] = text.toList :=
  List.intercalate_singleton

theorem separated_cons_cons
    (text next : String) (texts : List String) :
    separated (text :: next :: texts) = text.toList ++ ',' :: separated (next :: texts) := by
  rw [separated, List.map_cons, List.intercalate_cons_of_ne_nil (by simp), List.append_assoc]
  rfl

theorem separated_cons_of_cons
    {text : String} {c : Char} {cs : List Char} (h : text.toList = c :: cs) (texts : List String) :
    separated (text :: texts) = c :: [','].intercalate (cs :: texts.map String.toList) := by
  rw [separated, List.map_cons, h, List.intercalate_cons_cons_left]

section Items

variable {fuel depth : Nat} {item : Json} {cs rest : List Char}

theorem readItems_of_comma
    (h : readValue fuel depth .whole cs = some (item, ',' :: rest)) (read : List Json) :
    readItems (fuel + 1) depth .whole read cs =
      readItems fuel depth .whole (item :: read) rest := by
  rw [readItems, Shape.uncons]
  dsimp only
  rw [h]
  rfl

theorem readItems_of_bracket
    (h : readValue fuel depth .whole cs = some (item, ']' :: rest)) (read : List Json) :
    readItems (fuel + 1) depth .whole read cs = some (.arr (item :: read).reverse, rest) := by
  rw [readItems, Shape.uncons]
  dsimp only
  rw [h]
  rfl

end Items

theorem readItems_separated
    {depth : Nat} {items : List Json} (hitems : ∀ item ∈ items, IsReadable depth item)
    (hne : items ≠ []) (fuel : Nat) (read : List Json) (rest : List Char)
    (hfuel : 2 * (separated (writeItems items)).length + 1 ≤ fuel) :
    readItems fuel depth .whole read (separated (writeItems items) ++ ']' :: rest) =
      some (.arr (read.reverse ++ items), rest) := by
  induction items generalizing fuel read with
  | nil => exact absurd rfl hne
  | cons item items ih =>
      obtain ⟨fuel, rfl⟩ : ∃ n, fuel = n + 1 := ⟨fuel - 1, by omega⟩
      have hitem := (hitems item List.mem_cons_self).read fuel
      cases items with
      | nil =>
          rw [writeItems, writeItems, separated_singleton] at hfuel ⊢
          rw [readItems_of_bracket (hitem _ (by omega) (delimits_cons (by decide) rest)),
            List.reverse_cons]
      | cons next items =>
          -- The item and its comma have two characters at least, and reading them takes one turn.
          rw [writeItems, writeItems, separated_cons_cons, ← writeItems] at hfuel ⊢
          rw [List.length_append, List.length_cons] at hfuel
          rw [List.append_assoc, List.cons_append,
            readItems_of_comma (hitem _ (by omega) (delimits_cons (by decide) _)),
            ih (fun value hvalue => hitems value (List.mem_cons_of_mem _ hvalue)) (by simp) _ _
              (by omega),
            List.reverse_cons, List.append_assoc, List.singleton_append]

/-- What is left after an opening bracket decides whether the array has items. -/
def afterBracket (fuel depth : Nat) (rest : List Char) : Option (Json × List Char) :=
  match skipSpace rest with
  | ']' :: rest => some (.arr [], rest)
  | rest => readItems fuel depth .whole [] rest

theorem readValue_bracket
    (fuel depth : Nat) (rest : List Char) :
    readValue (fuel + 1) (depth + 1) .whole ('[' :: rest) = afterBracket fuel depth rest := by
  rw [readValue]
  rfl

theorem afterBracket_item
    {c : Char} (hspace : isSpace c = false) (hclose : c ≠ ']') (fuel depth : Nat)
    (cs : List Char) :
    afterBracket fuel depth (c :: cs) = readItems fuel depth .whole [] (c :: cs) := by
  rw [afterBracket, skipSpace_cons hspace]
  split
  next heq => exact absurd (List.cons.inj heq).1 hclose
  next => rfl

theorem toList_write_arr
    (items : List Json) :
    (write (.arr items)).toList = '[' :: (separated (writeItems items) ++ [']']) := by
  rw [write, String.toList_append, String.toList_append, String.toList_intercalate]
  rfl

theorem isReadable_arr
    {depth : Nat} {items : List Json} (hitems : ∀ item ∈ items, IsReadable depth item) :
    IsReadable (depth + 1) (.arr items) := by
  refine isReadable_of_cons (toList_write_arr items) rfl (by decide) fun fuel rest hfuel _ => ?_
  rw [List.length_append] at hfuel
  rw [List.append_assoc, List.singleton_append]
  cases items with
  | nil => exact readValue_bracket fuel depth (']' :: rest)
  | cons item others =>
      have hread := readItems_separated hitems (by simp) fuel [] rest (by omega)
      -- The text of the first item shows that the array is not empty.
      obtain ⟨c, cs, hcs, hspace, hclose⟩ := (hitems item List.mem_cons_self).head
      rw [writeItems, separated_cons_of_cons hcs, List.cons_append] at hread ⊢
      rw [readValue_bracket, afterBracket_item hspace hclose, hread, List.reverse_nil,
        List.nil_append]

/-! ## Objects -/

/-- The text of a member. -/
def member (key : String) (value : Json) : String :=
  Text.quote key ++ ":" ++ value.write

theorem toList_member
    (key : String) (value : Json) :
    (member key value).toList = (Text.quote key).toList ++ ':' :: value.write.toList := by
  rw [member, String.toList_append, String.toList_append, List.append_assoc]
  rfl

/-- What is left after a member decides whether another one follows. -/
def afterMember (fuel depth : Nat) (read : List (String × Json)) (rest : List Char) :
    Option (Json × List Char) :=
  match skipSpace rest with
  | ',' :: cs => readMembers fuel depth .whole read cs
  | '\x7d' :: cs => some (.obj read.reverse, cs)
  | _ => none

section Members

variable {fuel depth : Nat} {key : String} {value : Json} {rest : List Char}
  (hvalue : readValue fuel depth .whole (value.write.toList ++ rest) = some (value, rest))
include hvalue

theorem readMembers_member
    (read : List (String × Json)) :
    readMembers (fuel + 2) depth .whole read ((member key value).toList ++ rest) =
      afterMember (fuel + 1) depth ((key, value) :: read) rest := by
  obtain ⟨cs, hcs, hkey⟩ := readString_quote key (':' :: (value.write.toList ++ rest))
  have hmember : readMember (fuel + 1) depth (Shape.whole.member? key) key read
      (value.write.toList ++ rest) = some ((key, value) :: read, rest) := by
    rw [Shape.member?, readMember, hvalue, Option.map_some]
    simp
  rw [toList_member, List.append_assoc, List.cons_append, hcs, readMembers, skipSpace_cons rfl]
  split
  next heq =>
      obtain rfl := (List.cons.inj heq).2
      rw [hkey]
      dsimp only
      rw [skipSpace_cons rfl]
      split
      next heq =>
          obtain rfl := (List.cons.inj heq).2
          rw [hmember]
          rfl
      next hcolon => exact absurd rfl (hcolon _)
  next hquote => exact absurd rfl (hquote _)

theorem readMembers_of_comma
    {cs : List Char} (hrest : rest = ',' :: cs) (read : List (String × Json)) :
    readMembers (fuel + 2) depth .whole read ((member key value).toList ++ rest) =
      readMembers (fuel + 1) depth .whole ((key, value) :: read) cs := by
  rw [readMembers_member hvalue, hrest]
  rfl

theorem readMembers_of_brace
    {cs : List Char} (hrest : rest = '\x7d' :: cs) (read : List (String × Json)) :
    readMembers (fuel + 2) depth .whole read ((member key value).toList ++ rest) =
      some (.obj ((key, value) :: read).reverse, cs) := by
  rw [readMembers_member hvalue, hrest]
  rfl

end Members

theorem readMembers_separated
    {depth : Nat} {members : List (String × Json)}
    (hmembers : ∀ m ∈ members, IsReadable depth m.2)
    (hne : members ≠ []) (fuel : Nat) (read : List (String × Json)) (rest : List Char)
    (hfuel : 2 * (separated (writeMembers members)).length + 1 ≤ fuel) :
    readMembers fuel depth .whole read (separated (writeMembers members) ++ '\x7d' :: rest) =
      some (.obj (read.reverse ++ members), rest) := by
  induction members generalizing fuel read with
  | nil => exact absurd rfl hne
  | cons m members ih =>
      obtain ⟨key, value⟩ := m
      have hvalue : IsReadable depth value := hmembers _ List.mem_cons_self
      have hlength : 3 + value.write.toList.length ≤ (member key value).toList.length := by
        rw [toList_member, toList_quote]
        simp
        omega
      cases members with
      | nil =>
          rw [writeMembers, writeMembers, ← member, separated_singleton] at hfuel ⊢
          obtain ⟨fuel, rfl⟩ : ∃ n, fuel = n + 2 := ⟨fuel - 2, by omega⟩
          have hread := hvalue.read fuel _ (by omega) (delimits_cons (.inr (.inr rfl)) rest)
          rw [readMembers_of_brace hread rfl, List.reverse_cons]
      | cons next members =>
          obtain ⟨nextKey, nextValue⟩ := next
          rw [writeMembers, ← member, writeMembers, separated_cons_cons, ← writeMembers] at hfuel ⊢
          rw [List.length_append, List.length_cons] at hfuel
          obtain ⟨fuel, rfl⟩ : ∃ n, fuel = n + 2 := ⟨fuel - 2, by omega⟩
          have hread := hvalue.read fuel _ (by omega) (delimits_cons (.inl rfl)
            (separated (writeMembers ((nextKey, nextValue) :: members)) ++ '\x7d' :: rest))
          rw [List.append_assoc, List.cons_append, readMembers_of_comma hread rfl,
            ih (fun m hm => hmembers m (List.mem_cons_of_mem _ hm)) (by simp) _ _ (by omega),
            List.reverse_cons, List.append_assoc, List.singleton_append]

theorem readValue_braces
    (fuel depth : Nat) (rest : List Char) :
    readValue (fuel + 1) (depth + 1) .whole ('\x7b' :: '\x7d' :: rest) = some (.obj [], rest) := by
  rw [readValue]
  rfl

theorem readValue_brace
    (fuel depth : Nat) (cs : List Char) :
    readValue (fuel + 1) (depth + 1) .whole ('\x7b' :: '"' :: cs) =
      readMembers fuel depth .whole [] ('"' :: cs) := by
  rw [readValue]
  rfl

theorem toList_write_obj
    (members : List (String × Json)) :
    (write (.obj members)).toList = '\x7b' :: (separated (writeMembers members) ++ ['\x7d']) := by
  rw [write, String.toList_append, String.toList_append, String.toList_intercalate]
  rfl

theorem isReadable_obj
    {depth : Nat} {members : List (String × Json)}
    (hmembers : ∀ m ∈ members, IsReadable depth m.2) :
    IsReadable (depth + 1) (.obj members) := by
  refine isReadable_of_cons (toList_write_obj members) rfl (by decide) fun fuel rest hfuel _ => ?_
  rw [List.length_append] at hfuel
  rw [List.append_assoc, List.singleton_append]
  cases members with
  | nil => exact readValue_braces fuel depth rest
  | cons m others =>
      have hread := readMembers_separated hmembers (by simp) fuel [] rest (by omega)
      obtain ⟨key, value⟩ := m
      obtain ⟨cs, hcs⟩ : ∃ cs, (member key value).toList = '"' :: cs :=
        ⟨_, by rw [toList_member, toList_quote, List.cons_append]⟩
      rw [writeMembers, ← member, separated_cons_of_cons hcs, List.cons_append] at hread ⊢
      rw [readValue_brace, hread, List.reverse_nil, List.nil_append]

/-! ## All values -/

/-- A value that is written without a loss and nested no deeper than a reader follows. -/
inductive IsWritable : (depth : Nat) → Json → Prop
  | null {depth : Nat} : IsWritable depth .null
  | bool {depth : Nat} (b : Bool) : IsWritable depth (.bool b)
  | int {depth : Nat} {n : Int} (hlow : -(Nat.pow 2 63 : Nat) ≤ n) (hhigh : n < Nat.pow 2 64) :
      IsWritable depth (.int n)
  | float {depth : Nat} {x : Float} (hfinite : Decimal.isFinite x = true) (hback : ReadsBack x) :
      IsWritable depth (.float x)
  | str {depth : Nat} (s : String) : IsWritable depth (.str s)
  | arr {depth : Nat} {items : List Json} (hitems : ∀ item ∈ items, IsWritable depth item) :
      IsWritable (depth + 1) (.arr items)
  | obj {depth : Nat} {members : List (String × Json)}
      (hmembers : ∀ m ∈ members, IsWritable depth m.2) :
      IsWritable (depth + 1) (.obj members)

theorem IsWritable.isReadable
    {depth : Nat} {value : Json} (h : IsWritable depth value) :
    IsReadable depth value := by
  induction h with
  | null => exact isReadable_null _
  | bool b => exact isReadable_bool b _
  | int hlow hhigh => exact isReadable_number (isNumeralOf_int hlow hhigh) _
  | float hfinite hback => exact isReadable_number (isNumeralOf_float hfinite hback) _
  | str s => exact isReadable_str s _
  | arr _ ih => exact isReadable_arr ih
  | obj _ ih => exact isReadable_obj ih

/-- The text of a value stands for the value. -/
theorem parse_write
    {depth : Nat} {value : Json} (h : IsWritable depth value) :
    parse depth value.write = some value := by
  have hread := h.isReadable.read (2 * value.write.toList.length + 2) [] (by omega)
    (by simp [Delimits])
  rw [List.append_nil] at hread
  rw [parse, parseShaped, hread]
  rfl

end SkillLang.Json
