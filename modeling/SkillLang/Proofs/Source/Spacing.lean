import Mathlib.Data.List.TakeWhile
import Mathlib.Tactic.Common
import SkillLang.Source.Pretty

/-!
# Blanks of printed texts

Printing moves blanks about and nothing else.  What a printer has put out only loses blanks at its
end, and whatever it adds shows the token that it writes.  The text up to a character that is
not blank is therefore kept by all later tokens, which is why a gap between two words stays in
the text.
-/

namespace SkillLang

/-! ## What a text shows -/

namespace Text

/-- The characters of a text other than white space. -/
def visible (cs : List Char) : List Char :=
  cs.filter fun c => !isBlank c

def AreBlank (cs : List Char) : Prop :=
  ∀ c ∈ cs, isBlank c = true

/-- A text in which white space stands between what shows `left` and what shows `right`. -/
def IsParted (cs left right : List Char) : Prop :=
  ∃ before gap after, cs = before ++ (gap ++ after) ∧ gap ≠ [] ∧ AreBlank gap ∧
    visible before = left ∧ visible after = right

@[simp] theorem visible_nil :
    visible [] = [] :=
  rfl

@[simp] theorem visible_append
    (cs ds : List Char) :
    visible (cs ++ ds) = visible cs ++ visible ds :=
  List.filter_append cs ds

theorem visible_reverse
    (cs : List Char) :
    visible cs.reverse = (visible cs).reverse :=
  List.filter_reverse

theorem AreBlank.visible_eq
    {cs : List Char} (h : AreBlank cs) :
    visible cs = [] := by
  rw [visible, List.filter_eq_nil_iff]
  intro c hc
  simp [h c hc]

/-- The beginning of a line, its last character first. -/
theorem areBlank_line
    (n : Nat) :
    AreBlank (List.replicate n ' ' ++ ['\n']) := by
  intro c hc
  rcases List.mem_append.mp hc with hc | hc
  · rw [List.eq_of_mem_replicate hc]
    rfl
  · rw [List.mem_singleton.mp hc]
    rfl

/-- Taking blanks away from the front of a text does not change what it shows. -/
theorem visible_dropWhile
    {p : Char → Bool} (hp : ∀ c, p c = true → isBlank c = true) (cs : List Char) :
    visible (cs.dropWhile p) = visible cs := by
  have htaken : AreBlank (cs.takeWhile p) := by
    intro c hc
    exact hp c (List.mem_takeWhile_imp hc)
  calc
    visible (cs.dropWhile p) = visible (cs.takeWhile p) ++ visible (cs.dropWhile p) := by
      rw [htaken.visible_eq, List.nil_append]
    _ = visible cs := by
      rw [← visible_append, List.takeWhile_append_dropWhile]

theorem visible_trimChars
    (cs : List Char) :
    visible (trimChars cs) = visible cs := by
  have hblank (c : Char) (hc : isBlank c = true) : isBlank c = true := hc
  rw [trimChars, trimEnd, visible_reverse, visible_dropWhile hblank, visible_reverse,
    List.reverse_reverse, trimStart, visible_dropWhile hblank]

/-- A text is not shortened beyond a character that is to stay. -/
theorem dropWhile_append_of_head
    {p : Char → Bool} {cs ds : List Char} (h : ∀ c ∈ ds.head?, p c = false) :
    (cs ++ ds).dropWhile p = cs.dropWhile p ++ ds := by
  induction cs with
  | nil =>
      cases ds with
      | nil => rfl
      | cons d ds => exact List.dropWhile_cons_of_neg (by simp [h d rfl])
  | cons c cs ih =>
      by_cases hc : p c = true
      · rw [List.cons_append, List.dropWhile_cons_of_pos hc, List.dropWhile_cons_of_pos hc, ih]
      · rw [List.cons_append, List.dropWhile_cons_of_neg hc, List.dropWhile_cons_of_neg hc,
          List.cons_append]

/-- Trimming stops at the characters on both sides of a gap. -/
theorem trimChars_parted
    {c d : Char} (hc : isBlank c = false) (hd : isBlank d = false) (cs gap ds : List Char) :
    trimChars (cs ++ c :: (gap ++ d :: ds)) =
      trimStart cs ++ c :: (gap ++ d :: trimEnd ds) := by
  have hstart :
      trimStart (cs ++ c :: (gap ++ d :: ds)) = trimStart cs ++ c :: (gap ++ d :: ds) :=
    dropWhile_append_of_head (by simp [hc])
  have hend (front : List Char) : trimEnd (front ++ d :: ds) = front ++ d :: trimEnd ds := by
    have hdrop : (ds.reverse ++ d :: front.reverse).dropWhile isBlank =
        ds.reverse.dropWhile isBlank ++ d :: front.reverse :=
      dropWhile_append_of_head (by simp [hd])
    simp [trimEnd, hdrop]
  rw [trimChars, hstart]
  simpa using hend (trimStart cs ++ c :: gap)

/-! ## Characters of words -/

/-- A letter, a digit or an underscore. -/
def isWordChar (c : Char) : Bool :=
  isAlphanumeric c || c == '_'

def EndsInWord (text : String) : Prop :=
  ∃ c ∈ text.toList.getLast?, isWordChar c = true

def BeginsWithWord (text : String) : Prop :=
  ∃ c ∈ text.toList.head?, isWordChar c = true

/-- The code points of the blanks. -/
def blankPoints : List Nat :=
  [9, 10, 11, 12, 13, 0x20, 0x85, 0xA0, 0x1680, 0x2000, 0x2001, 0x2002, 0x2003, 0x2004, 0x2005,
    0x2006, 0x2007, 0x2008, 0x2009, 0x200A, 0x2028, 0x2029, 0x202F, 0x205F, 0x3000]

theorem mem_blankPoints
    {c : Char} (h : isBlank c = true) :
    c.toNat ∈ blankPoints := by
  simp only [isBlank, Bool.or_eq_true, Bool.and_eq_true, decide_eq_true_eq, beq_iff_eq] at h
  simp only [blankPoints, List.mem_cons, List.not_mem_nil, or_false]
  omega

theorem not_word_of_mem_blankPoints :
    ∀ n ∈ blankPoints, isWordChar (Char.ofNat n) = false := by
  decide +kernel

theorem isBlank_of_isWordChar
    {c : Char} (h : isWordChar c = true) :
    isBlank c = false := by
  by_contra hblank
  rw [Bool.not_eq_false] at hblank
  have hnot := not_word_of_mem_blankPoints c.toNat (mem_blankPoints hblank)
  rw [Char.ofNat_toNat, h] at hnot
  exact Bool.noConfusion hnot

theorem beq_space_eq_false
    {c : Char} (h : isBlank c = false) :
    (c == ' ') = false := by
  rw [beq_eq_false_iff_ne]
  rintro rfl
  exact Bool.noConfusion h

theorem EndsInWord.exists_last
    {text : String} (h : EndsInWord text) :
    ∃ cs c, text.toList = cs ++ [c] ∧ isBlank c = false := by
  obtain ⟨c, hlast, hword⟩ := h
  obtain ⟨cs, hcs⟩ := List.getLast?_eq_some_iff.mp hlast
  exact ⟨cs, c, hcs, isBlank_of_isWordChar hword⟩

theorem BeginsWithWord.exists_head
    {text : String} (h : BeginsWithWord text) :
    ∃ c cs, text.toList = c :: cs ∧ isBlank c = false := by
  obtain ⟨c, hhead, hword⟩ := h
  obtain ⟨cs, hcs⟩ := List.head?_eq_some_iff.mp hhead
  exact ⟨c, cs, hcs, isBlank_of_isWordChar hword⟩

/-- A text with a word at its edge is none of some marks that have no word there. -/
theorem not_mem_of_edge
    (edge : String → Option Char) {text : String} (h : ∃ c ∈ edge text, isWordChar c = true)
    {marks : List String} (hmarks : ∀ mark ∈ marks, (edge mark).any isWordChar = false) :
    text ∉ marks := by
  intro hmem
  obtain ⟨c, hc, hword⟩ := h
  have hmark := hmarks text hmem
  rw [Option.mem_def.mp hc, Option.any_some, hword] at hmark
  exact Bool.noConfusion hmark

end Text

/-- What a token shows, which is nothing for a layout mark. -/
def Token.visible (t : Token) : List Char :=
  Text.visible t.render.toList

namespace Pretty

open Text

/-! ## What one token does to a printer -/

namespace Printer

@[simp] theorem output_layout
    (p : Printer) (l : Layout) :
    (p.layout l).output = p.output := by
  unfold layout
  split <;> first | rfl | split <;> rfl

@[simp] theorem previous_layout
    (p : Printer) (l : Layout) :
    (p.layout l).previous = p.previous := by
  unfold layout
  split <;> first | rfl | split <;> rfl

/-- A token is written behind a gap, for which blanks at the end of the output may go. -/
theorem output_write
    (p : Printer) (text : String) :
    ∃ gap, AreBlank gap ∧
      ((p.write text).output = text.toList.reverse ++ (gap ++ p.output) ∨
        (p.write text).output =
          text.toList.reverse ++ (gap ++ p.output.dropWhile fun c => c == ' ')) := by
  have hone : AreBlank [' '] := List.forall_mem_singleton.mpr rfl
  have hnone : AreBlank [] := List.forall_mem_nil _
  by_cases hline : (p.pendingNewline && !p.output.isEmpty) = true
  · refine ⟨_, areBlank_line p.indent, .inr ?_⟩
    simp [write, hline]
  · cases hprevious : p.previous with
    | none =>
        refine ⟨[], hnone, .inl ?_⟩
        simp [write, hline, hprevious]
    | some previous =>
        by_cases hspace : (p.forceSpace || needsSpace previous text) = true
        · refine ⟨_, hone, .inl ?_⟩
          simp [write, hline, hprevious, hspace]
        · refine ⟨[], hnone, .inl ?_⟩
          simp [write, hline, hprevious, hspace]

/-- The output of a printer begins with `base`, its last character first, and shows `shown`
behind it. -/
def Continues (p : Printer) (base shown : List Char) : Prop :=
  ∃ added, p.output = added ++ base ∧ Text.visible added.reverse = shown

theorem Continues.write
    {p : Printer} {base shown : List Char} (h : p.Continues base shown)
    (hbase : ∀ c ∈ base.head?, (c == ' ') = false) (text : String) :
    (p.write text).Continues base (shown ++ Text.visible text.toList) := by
  obtain ⟨added, houtput, hshown⟩ := h
  have hspace (c : Char) (hc : (c == ' ') = true) : isBlank c = true := by
    rw [beq_iff_eq.mp hc]
    rfl
  obtain ⟨gap, hgap, hwrite | hwrite⟩ := p.output_write text
  · refine ⟨text.toList.reverse ++ (gap ++ added), ?_, ?_⟩
    · rw [hwrite, houtput, List.append_assoc, List.append_assoc]
    · have hnothing : Text.visible gap.reverse = [] := by
        rw [visible_reverse, hgap.visible_eq, List.reverse_nil]
      simp [hnothing, hshown]
  · refine ⟨text.toList.reverse ++ (gap ++ added.dropWhile fun c => c == ' '), ?_, ?_⟩
    · rw [hwrite, houtput, dropWhile_append_of_head hbase, List.append_assoc, List.append_assoc]
    · have hnothing : Text.visible gap.reverse = [] := by
        rw [visible_reverse, hgap.visible_eq, List.reverse_nil]
      have hkept : Text.visible (added.dropWhile fun c => c == ' ').reverse = shown := by
        rw [visible_reverse, visible_dropWhile hspace, ← visible_reverse, hshown]
      simp [hnothing, hkept]

theorem Continues.token
    {p : Printer} {base shown : List Char} (h : p.Continues base shown)
    (hbase : ∀ c ∈ base.head?, (c == ' ') = false) (t : Token) :
    (p.token t).Continues base (shown ++ t.visible) := by
  cases t with
  | layout l =>
      have hnothing : (Token.layout l).visible = [] := rfl
      rw [hnothing, List.append_nil]
      simpa [Continues, Printer.token] using h
  | literal text => exact h.write hbase text
  | constant c => exact h.write hbase c.render

/-- Whatever is printed later stands behind the base and shows the tokens in their order. -/
theorem Continues.foldl
    {p : Printer} {base shown : List Char} (h : p.Continues base shown)
    (hbase : ∀ c ∈ base.head?, (c == ' ') = false) (tokens : List Token) :
    (tokens.foldl Printer.token p).Continues base (shown ++ tokens.flatMap Token.visible) := by
  induction tokens generalizing p shown with
  | nil => simpa using h
  | cons t tokens ih =>
      rw [List.foldl_cons, List.flatMap_cons, ← List.append_assoc]
      exact ih (h.token hbase t)

theorem visible_finish
    (p : Printer) :
    Text.visible p.finish.toList = Text.visible p.output.reverse := by
  rw [finish, String.toList_ofList, visible_trimChars]

/-! ## Two words -/

theorem needsSpace_of_words
    {previous next : String} (hprevious : EndsInWord previous) (hnext : BeginsWithWord next) :
    needsSpace previous next = true := by
  have hopening : previous ∉ ["(", "[", "\x7b", "#[", "!", ".", "="] :=
    not_mem_of_edge (fun text => text.toList.getLast?) hprevious (by decide)
  have hclosing : next ∉ [")", "]", "\x7d", ",", ";", ".", "=", "(", "["] :=
    not_mem_of_edge (fun text => text.toList.head?) hnext (by decide)
  simp only [List.mem_cons, List.not_mem_nil, or_false, not_or] at hopening hclosing
  simp [needsSpace, hopening, hclosing]

/-- The printer has put out a token, and nothing after it. -/
structure IsAfter (p : Printer) (t : Token) : Prop where
  previous_eq : p.previous = some t.render
  output_eq : ∃ base, p.output = t.render.toList.reverse ++ base

theorem isAfter_token
    (p : Printer) {t : Token} (h : t.isLayout = false) :
    (p.token t).IsAfter t := by
  cases t with
  | layout l => cases h
  | literal text => exact ⟨rfl, _, rfl⟩
  | constant c => exact ⟨rfl, _, rfl⟩

theorem foldl_layouts
    {layouts : List Token} (h : ∀ l ∈ layouts, l.isLayout = true) (p : Printer) :
    (layouts.foldl Printer.token p).output = p.output ∧
      (layouts.foldl Printer.token p).previous = p.previous := by
  induction layouts generalizing p with
  | nil => exact ⟨rfl, rfl⟩
  | cons t layouts ih =>
      obtain ⟨ht, hrest⟩ := List.forall_mem_cons.mp h
      obtain ⟨houtput, hprevious⟩ := ih hrest (p.token t)
      cases t with
      | literal text => cases ht
      | constant c => cases ht
      | layout l =>
          refine ⟨houtput.trans ?_, hprevious.trans ?_⟩
          · exact p.output_layout l
          · exact p.previous_layout l

/-- A word is never written directly behind another one. -/
theorem IsAfter.write_word
    {p : Printer} {t : Token} (h : p.IsAfter t) (hends : EndsInWord t.render) {text : String}
    (hbegins : BeginsWithWord text) :
    ∃ gap, gap ≠ [] ∧ AreBlank gap ∧
      (p.write text).output = text.toList.reverse ++ (gap ++ p.output) := by
  obtain ⟨cs, c, hcs, hc⟩ := hends.exists_last
  obtain ⟨base, houtput⟩ := h.output_eq
  rw [hcs, List.reverse_append, List.reverse_singleton, List.singleton_append,
    List.cons_append] at houtput
  have hkept : (p.output.dropWhile fun c => c == ' ') = p.output := by
    rw [houtput]
    exact List.dropWhile_cons_of_neg (by simpa using beq_space_eq_false hc)
  by_cases hline : p.pendingNewline = true
  · have hfull : p.output.isEmpty = false := by rw [houtput, List.isEmpty_cons]
    refine ⟨_, by simp, areBlank_line p.indent, ?_⟩
    simp [write, hline, hfull, hkept]
  · refine ⟨[' '], by simp, List.forall_mem_singleton.mpr rfl, ?_⟩
    simp [write, hline, h.previous_eq, needsSpace_of_words hends hbegins]

/-! ## A whole run -/

theorem visible_run
    (tokens : List Token) :
    Text.visible (tokens.foldl Printer.token {}).output.reverse =
      tokens.flatMap Token.visible := by
  have hempty : ({} : Printer).Continues [] [] := ⟨[], rfl, rfl⟩
  obtain ⟨added, houtput, hshown⟩ := hempty.foldl (by simp) tokens
  rw [houtput, List.append_nil, hshown, List.nil_append]

theorem isLayout_eq_false_of_word
    {t : Token} (h : EndsInWord t.render ∨ BeginsWithWord t.render) :
    t.isLayout = false := by
  cases t with
  | literal text => rfl
  | constant c => rfl
  | layout l =>
      rcases h with ⟨c, hc, -⟩ | ⟨c, hc, -⟩
      · cases hc
      · cases hc

theorem token_eq_write
    {t : Token} (h : t.isLayout = false) (p : Printer) :
    p.token t = p.write t.render := by
  cases t with
  | layout l => cases h
  | literal text => rfl
  | constant c => rfl

/-- The output of a run, its last character first, when two words have been written in it. -/
theorem exists_output_run
    {t u : Token} {layouts : List Token} (hlayouts : ∀ l ∈ layouts, l.isLayout = true)
    (hends : EndsInWord t.render) (hbegins : BeginsWithWord u.render) (before after : List Token) :
    ∃ added d gap c base,
      ((before ++ t :: (layouts ++ u :: after)).foldl Printer.token {}).output =
        added ++ d :: (gap ++ c :: base) ∧
      isBlank c = false ∧ isBlank d = false ∧ gap ≠ [] ∧ AreBlank gap ∧
      Text.visible (c :: base).reverse = (before ++ [t]).flatMap Token.visible ∧
      Text.visible (d :: added.reverse) = (u :: after).flatMap Token.visible := by
  have hfirst := isAfter_token (before.foldl Printer.token {})
    (isLayout_eq_false_of_word (.inl hends))
  have hshown := visible_run (before ++ [t])
  rw [List.foldl_append, List.foldl_cons, List.foldl_nil] at hshown
  rw [List.foldl_append, List.foldl_cons]
  generalize (before.foldl Printer.token {}).token t = p at hfirst hshown ⊢
  -- The printer `p` has written the first word, so that its output ends in a character `c`.
  obtain ⟨cs, c, hcs, hc⟩ := hends.exists_last
  obtain ⟨base, hbase⟩ := hfirst.output_eq
  have hword : p.output = c :: (cs.reverse ++ base) := by rw [hbase, hcs]; simp
  obtain ⟨houtput, hprevious⟩ := foldl_layouts hlayouts p
  have hsecond : (layouts.foldl Printer.token p).IsAfter t :=
    ⟨hprevious.trans hfirst.previous_eq, base, houtput.trans hbase⟩
  obtain ⟨gap, hne, hgap, hwrite⟩ := hsecond.write_word hends hbegins
  rw [← token_eq_write (isLayout_eq_false_of_word (.inr hbegins)), houtput, hword] at hwrite
  -- The second word begins with a character `d`, and from then on the output up to `d` stays.
  obtain ⟨d, ds, hds, hd⟩ := hbegins.exists_head
  have hcontinues : ((layouts.foldl Printer.token p).token u).Continues
      (d :: (gap ++ c :: (cs.reverse ++ base))) (Text.visible ds) := by
    refine ⟨ds.reverse, ?_, by rw [List.reverse_reverse]⟩
    rw [hwrite, hds, List.reverse_cons, List.append_assoc, List.singleton_append]
  obtain ⟨added, hadded, hlater⟩ :=
    hcontinues.foldl (by simpa using beq_space_eq_false hd) after
  refine ⟨added, d, gap, c, cs.reverse ++ base, ?_, hc, hd, hne, hgap, ?_, ?_⟩
  · rw [List.foldl_append, List.foldl_cons, hadded]
  · rw [← hword, hshown]
  · have hu : u.visible = Text.visible [d] ++ Text.visible ds := by
      rw [Token.visible, hds, ← visible_append, List.singleton_append]
    rw [List.flatMap_cons, hu, List.append_assoc, ← hlater, ← visible_append,
      List.singleton_append]

theorem isParted_finish
    {p : Printer} {added gap base left right : List Char} {c d : Char}
    (houtput : p.output = added ++ d :: (gap ++ c :: base)) (hc : isBlank c = false)
    (hd : isBlank d = false) (hne : gap ≠ []) (hgap : AreBlank gap)
    (hleft : Text.visible (c :: base).reverse = left)
    (hright : Text.visible (d :: added.reverse) = right) :
    IsParted p.finish.toList left right := by
  have htext : p.finish.toList =
      trimStart base.reverse ++ c :: (gap.reverse ++ d :: trimEnd added.reverse) := by
    rw [finish, String.toList_ofList, houtput, ← trimChars_parted hc hd]
    simp
  have hblank (x : Char) (hx : isBlank x = true) : isBlank x = true := hx
  refine ⟨trimStart base.reverse ++ [c], gap.reverse, d :: trimEnd added.reverse, ?_, ?_, ?_, ?_,
    ?_⟩
  · rw [htext, List.append_assoc, List.singleton_append]
  · simpa using hne
  · intro x hx
    exact hgap x (List.mem_reverse.mp hx)
  · rw [← hleft, List.reverse_cons, visible_append, visible_append, trimStart,
      visible_dropWhile hblank]
  · rw [← hright, ← List.singleton_append, visible_append, trimEnd, visible_reverse,
      visible_dropWhile hblank, ← visible_reverse, ← visible_append, List.reverse_reverse,
      List.singleton_append]

end Printer

/-! ## The printed text -/

/-- Printing a stream only arranges white space.  The printed text shows what the tokens of the
stream show, one after the other.  Where a token that ends in a letter, a digit or an underscore
is followed by one that begins with one, with any layout marks between them, there is white
space between the two in the printed text. -/
theorem print_arranges_blanks (s : TokenStream) :
    Text.visible (print s).toList = s.toList.flatMap Token.visible ∧
    ∀ before t layouts u after, s.toList = before ++ t :: (layouts ++ u :: after) →
      (∀ l ∈ layouts, l.isLayout = true) → EndsInWord t.render → BeginsWithWord u.render →
      IsParted (print s).toList ((before ++ [t]).flatMap Token.visible)
        ((u :: after).flatMap Token.visible) := by
  constructor
  · rw [print, Printer.visible_finish, Printer.visible_run]
  · intro before t layouts u after htokens hlayouts hends hbegins
    obtain ⟨added, d, gap, c, base, houtput, hc, hd, hne, hgap, hleft, hright⟩ :=
      Printer.exists_output_run hlayouts hends hbegins before after
    rw [print, htokens]
    exact Printer.isParted_finish houtput hc hd hne hgap hleft hright

/-- Two words between which the layout marks ask for nothing, and a string with a blank. -/
def crowded : TokenStream :=
  .ofParts ["filter", .layout .newline, .layout .noNewline, .layout .dedent, "_x",
    .token (.constant ⟨.quotedString, .string "a b"⟩)]

theorem crowded_arranges_blanks :
    crowded.toList =
        [] ++ .literal "filter" ::
          ([.layout .newline, .layout .noNewline, .layout .dedent] ++ .literal "_x" ::
            [.constant ⟨.quotedString, .string "a b"⟩]) ∧
      EndsInWord "filter" ∧ BeginsWithWord "_x" ∧
      IsParted (print crowded).toList "filter".toList "_x\"ab\"".toList := by
  have htokens : crowded.toList =
      [] ++ .literal "filter" ::
        ([.layout .newline, .layout .noNewline, .layout .dedent] ++ .literal "_x" ::
          [.constant ⟨.quotedString, .string "a b"⟩]) := rfl
  have hlayouts : ∀ l ∈ [Token.layout .newline, .layout .noNewline, .layout .dedent],
      l.isLayout = true := by simp [Token.isLayout]
  have hends : EndsInWord "filter" := ⟨'r', rfl, rfl⟩
  have hbegins : BeginsWithWord "_x" := ⟨'_', rfl, rfl⟩
  exact ⟨htokens, hends, hbegins,
    (print_arranges_blanks crowded).2 _ _ _ _ _ htokens hlayouts hends hbegins⟩

end Pretty

end SkillLang
