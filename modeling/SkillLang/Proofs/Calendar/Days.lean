import Mathlib.Tactic.Common
import Mathlib.Tactic.IntervalCases
import Mathlib.Tactic.SplitIfs
import SkillLang.Calendar.Date

/-!
# Days and their numbers

Dates and day numbers correspond to each other.  Both directions go through the counting year,
which begins in March: its length is only known from the leap day at its end, so that months and
days within it do not depend on the year.  Months and years are then runs of consecutive numbers.
-/

namespace SkillLang.Date

/-- The date is a day of the proleptic Gregorian calendar. -/
structure IsProper (d : Date) : Prop where
  month_pos : 1 ≤ d.month
  month_le : d.month ≤ 12
  day_pos : 1 ≤ d.day
  day_le : d.day ≤ daysInMonth d.year d.month

theorem IsProper.of?_eq
    {d : Date} (h : d.IsProper) (hfirst : firstYear ≤ d.year) (hlast : d.year ≤ lastYear) :
    of? d.year d.month d.day = some d := by
  have hvalid : d.isValid = true := by
    simp [isValid, hfirst, hlast, h.month_pos, h.month_le, h.day_pos, h.day_le]
  exact if_pos hvalid

/-! ## Counting years -/

theorem isLeapYear_iff
    {year : Int} :
    isLeapYear year = true ↔ year % 4 = 0 ∧ (year % 100 ≠ 0 ∨ year % 400 = 0) := by
  simp [isLeapYear]

/-- The number of days of a year, which lie between the first of March before it and the first of
March in it. -/
def daysInYear (year : Int) : Nat :=
  if isLeapYear year then 366 else 365

theorem daysToMarch_succ
    (year : Int) :
    daysToMarch (year + 1) = daysToMarch year + daysInYear (year + 1) := by
  unfold daysInYear daysToMarch
  by_cases h : isLeapYear (year + 1) = true
  · have hleap := isLeapYear_iff.mp h
    rw [if_pos h]
    omega
  · have hleap := mt isLeapYear_iff.mpr h
    rw [if_neg h]
    omega

theorem daysToMarch_mono
    {year later : Int} (h : year ≤ later) :
    daysToMarch year ≤ daysToMarch later := by
  unfold daysToMarch
  omega

/-- The four centuries, the century, the four years and the year that a counting year is in. -/
theorem daysToMarch_parts
    (cycle : Int) {century four single : Nat} (hcentury : century ≤ 3) (hfour : four ≤ 24)
    (hsingle : single ≤ 3) :
    daysToMarch (400 * cycle + 100 * century + 4 * four + single) =
      146097 * cycle + 36524 * century + 1461 * four + 365 * single := by
  unfold daysToMarch
  omega

theorem countingYear_spec
    (days : Int) :
    daysToMarch (countingYear days).1 + (countingYear days).2 = days ∧
      (countingYear days).2 < daysInYear ((countingYear days).1 + 1) := by
  unfold countingYear
  dsimp only
  generalize hcycle : days / 146097 = cycle
  generalize hinCycle : (days % 146097).toNat = inCycle
  generalize hcentury : min (inCycle / 36524) 3 = century
  generalize hinCentury : inCycle - 36524 * century = inCentury
  generalize hfour : inCentury / 1461 = four
  generalize hinFour : inCentury - 1461 * four = inFour
  generalize hsingle : min (inFour / 365) 3 = single
  have hdays : days = 146097 * cycle + inCycle := by omega
  have hcenturyLe : century ≤ 3 := by omega
  have hcycleSum : inCycle = 36524 * century + inCentury := by omega
  -- The last of four centuries and the last of four years are longer by a day.
  have hcenturyLt : inCentury < 36524 + century / 3 := by omega
  have hcenturySum : inCentury = 1461 * four + inFour := by omega
  have hfourLe : four ≤ 24 := by omega
  have hfourLt : inFour < 1461 := by omega
  have hsingleLe : single ≤ 3 := by omega
  have hsingleStart : 365 * single ≤ inFour := by omega
  have hsingleLt : inFour - 365 * single < 365 + single / 3 := by omega
  constructor
  · rw [daysToMarch_parts cycle hcenturyLe hfourLe hsingleLe]
    omega
  · clear hinCycle hcentury hinCentury hfour hinFour hsingle hcycle
    unfold daysInYear
    by_cases hleap : isLeapYear (400 * cycle + 100 * century + 4 * four + single + 1) = true
    · rw [if_pos hleap]
      omega
    · have hnot := mt isLeapYear_iff.mpr hleap
      rw [if_neg hleap]
      omega

theorem countingYear_eq
    {year : Int} {day : Nat} (h : day < daysInYear (year + 1)) :
    countingYear (daysToMarch year + day) = (year, day) := by
  obtain ⟨hsum, hlt⟩ := countingYear_spec (daysToMarch year + day)
  generalize countingYear (daysToMarch year + day) = found at hsum hlt
  obtain ⟨other, rest⟩ := found
  dsimp only at hsum hlt
  have hnext := daysToMarch_succ year
  have hotherNext := daysToMarch_succ other
  have hyear : other = year := by
    rcases lt_trichotomy other year with hless | heq | hless
    · have hmono : daysToMarch (other + 1) ≤ daysToMarch year := daysToMarch_mono hless
      omega
    · exact heq
    · have hmono : daysToMarch (year + 1) ≤ daysToMarch other := daysToMarch_mono hless
      omega
  subst hyear
  have hday : rest = day := by omega
  rw [hday]

/-! ## Dates in counting years -/

/-- The counting year that a date is in. -/
def marchYear (d : Date) : Int :=
  if d.month ≤ 2 then d.year - 1 else d.year

/-- How many months after March the month of a date begins. -/
def marchMonth (d : Date) : Nat :=
  if d.month ≤ 2 then d.month + 9 else d.month - 3

/-- How many days after the first of March a date is. -/
def dayOfYear (d : Date) : Nat :=
  daysFromMarch d.marchMonth + (d.day - 1)

theorem IsProper.dayNumber_eq
    {d : Date} (h : d.IsProper) :
    d.dayNumber = daysToMarch d.marchYear + d.dayOfYear - 719468 := by
  have hday := h.day_pos
  unfold dayNumber dayOfYear marchYear marchMonth
  by_cases hmonth : d.month ≤ 2
  · simp only [if_pos hmonth]
    omega
  · simp only [if_neg hmonth]
    omega

theorem daysInYear_le
    (year : Int) :
    365 ≤ daysInYear year ∧ daysInYear year ≤ 366 := by
  unfold daysInYear
  split <;> omega

/-- A month ends where the next one begins, and February where the counting year ends. -/
theorem daysFromMarch_add_daysInMonth
    {d : Date} (hpos : 1 ≤ d.month) (hle : d.month ≤ 12) :
    daysFromMarch d.marchMonth + daysInMonth d.year d.month =
      if d.month = 2 then daysInYear d.year else daysFromMarch (d.marchMonth + 1) := by
  obtain ⟨year, month, day⟩ := d
  dsimp only at hpos hle
  by_cases hfebruary : month = 2
  · subst hfebruary
    have hmarch : marchMonth ⟨year, 2, day⟩ = 11 := rfl
    rw [hmarch, if_pos rfl, daysInMonth, daysInYear]
    split <;> rfl
  · simp only [marchMonth, if_neg hfebruary]
    interval_cases month <;> first | rfl | contradiction

theorem IsProper.dayOfYear_lt
    {d : Date} (h : d.IsProper) :
    d.dayOfYear < daysInYear (d.marchYear + 1) := by
  have hend := daysFromMarch_add_daysInMonth h.month_pos h.month_le
  have hpos := h.day_pos
  have hle := h.day_le
  have hmonth := h.month_le
  unfold dayOfYear
  by_cases hfebruary : d.month = 2
  · have hyear : d.marchYear + 1 = d.year := by
      rw [marchYear, if_pos (by omega)]
      omega
    rw [if_pos hfebruary] at hend
    rw [hyear]
    omega
  · have hlength := (daysInYear_le (d.marchYear + 1)).1
    have hshifted : d.marchMonth ≤ 10 := by
      unfold marchMonth
      split <;> omega
    rw [if_neg hfebruary] at hend
    unfold daysFromMarch at hend ⊢
    omega

theorem IsProper.marchMonth_eq
    {d : Date} (h : d.IsProper) :
    (5 * d.dayOfYear + 2) / 153 = d.marchMonth := by
  have hend := daysFromMarch_add_daysInMonth h.month_pos h.month_le
  have hyear := h.dayOfYear_lt
  have hlength := (daysInYear_le (d.marchYear + 1)).2
  have hpos := h.day_pos
  have hle := h.day_le
  have hmonth := h.month_le
  unfold dayOfYear at hyear ⊢
  by_cases hfebruary : d.month = 2
  · have hshifted : d.marchMonth = 11 := by rw [marchMonth, if_pos (by omega), hfebruary]
    rw [hshifted, daysFromMarch] at hyear ⊢
    omega
  · rw [if_neg hfebruary] at hend
    unfold daysFromMarch at hend ⊢
    omega

/-- Every date is the day with its number. -/
theorem IsProper.ofDayNumber_dayNumber
    {d : Date} (h : d.IsProper) :
    ofDayNumber d.dayNumber = d := by
  have hcount : d.dayNumber + 719468 = daysToMarch d.marchYear + d.dayOfYear := by
    rw [h.dayNumber_eq]
    omega
  have hpos := h.day_pos
  have hday : d.dayOfYear - daysFromMarch d.marchMonth + 1 = d.day := by
    unfold dayOfYear
    omega
  have hmonthPos := h.month_pos
  have hmonthLe := h.month_le
  unfold ofDayNumber
  rw [hcount, countingYear_eq h.dayOfYear_lt]
  dsimp only
  rw [h.marchMonth_eq, hday]
  unfold marchMonth marchYear
  by_cases hmonth : d.month ≤ 2
  · simp only [if_pos hmonth]
    rw [if_neg (by omega), Int.sub_add_cancel, Nat.add_sub_cancel]
  · simp only [if_neg hmonth]
    rw [if_pos (by omega), Nat.sub_add_cancel (by omega)]

/-- The date so many months and days after the first of March of a counting year. -/
def ofMarch (year : Int) (shifted day : Nat) : Date :=
  if shifted < 10 then ⟨year, shifted + 3, day + 1⟩ else ⟨year + 1, shifted - 9, day + 1⟩

theorem ofMarch_parts
    (year : Int) {shifted : Nat} (h : shifted ≤ 11) (day : Nat) :
    (ofMarch year shifted day).marchYear = year ∧
      (ofMarch year shifted day).marchMonth = shifted ∧
      1 ≤ (ofMarch year shifted day).month ∧ (ofMarch year shifted day).month ≤ 12 ∧
      (ofMarch year shifted day).day = day + 1 := by
  unfold ofMarch
  by_cases hearly : shifted < 10
  · have hmonth : ¬ shifted + 3 ≤ 2 := by omega
    simp only [if_pos hearly, marchYear, marchMonth, if_neg hmonth]
    exact ⟨trivial, by omega, by omega, by omega, trivial⟩
  · have hmonth : shifted - 9 ≤ 2 := by omega
    simp only [if_neg hearly, marchYear, marchMonth, if_pos hmonth]
    exact ⟨by omega, by omega, by omega, by omega, trivial⟩

theorem isProper_ofMarch
    {year : Int} {shifted day : Nat} (h : shifted ≤ 11)
    (hday : daysFromMarch shifted + day <
      if shifted = 11 then daysInYear (year + 1) else daysFromMarch (shifted + 1)) :
    (ofMarch year shifted day).IsProper := by
  obtain ⟨hyear, hshifted, hpos, hle, heq⟩ := ofMarch_parts year h day
  have hend := daysFromMarch_add_daysInMonth hpos hle
  generalize ofMarch year shifted day = d at hyear hshifted hpos hle heq hend ⊢
  have hfebruary : d.month = 2 ↔ shifted = 11 := by
    rw [← hshifted, marchMonth]
    split <;> omega
  have hnext (hmonth : d.month = 2) : d.year = year + 1 := by
    rw [← hyear, marchYear, if_pos (by omega)]
    omega
  refine ⟨hpos, hle, by omega, ?_⟩
  rw [hshifted] at hend
  by_cases hmonth : d.month = 2
  · rw [if_pos hmonth, hnext hmonth] at hend
    rw [if_pos (hfebruary.mp hmonth)] at hday
    rw [hnext hmonth]
    omega
  · rw [if_neg hmonth] at hend
    rw [if_neg (mt hfebruary.mpr hmonth)] at hday
    omega

/-- Every number is that of a day, which is in some month of a counting year. -/
theorem exists_ofMarch
    (number : Int) :
    ∃ year shifted day, ofDayNumber number = ofMarch year shifted day ∧ shifted ≤ 11 ∧
      (ofMarch year shifted day).IsProper ∧
      number = daysToMarch year + (daysFromMarch shifted + day : Nat) - 719468 := by
  obtain ⟨hsum, hlt⟩ := countingYear_spec (number + 719468)
  unfold ofDayNumber
  generalize countingYear (number + 719468) = found at hsum hlt ⊢
  obtain ⟨year, day⟩ := found
  dsimp only at hsum hlt ⊢
  have hlength := (daysInYear_le (year + 1)).2
  have hle : (5 * day + 2) / 153 ≤ 11 := by omega
  have hfirst : daysFromMarch ((5 * day + 2) / 153) ≤ day := by
    unfold daysFromMarch
    omega
  have hnext : day < daysFromMarch ((5 * day + 2) / 153 + 1) := by
    unfold daysFromMarch
    omega
  generalize (5 * day + 2) / 153 = shifted at hle hfirst hnext ⊢
  refine ⟨year, shifted, day - daysFromMarch shifted, rfl, hle, isProper_ofMarch hle ?_, ?_⟩
  · rw [Nat.add_sub_cancel' hfirst]
    split
    · exact hlt
    · exact hnext
  · rw [Nat.add_sub_cancel' hfirst]
    omega

theorem isProper_ofDayNumber
    (number : Int) :
    (ofDayNumber number).IsProper := by
  obtain ⟨year, shifted, day, heq, -, hproper, -⟩ := exists_ofMarch number
  rwa [heq]

@[simp] theorem dayNumber_ofDayNumber
    (number : Int) :
    (ofDayNumber number).dayNumber = number := by
  obtain ⟨year, shifted, day, heq, hle, hproper, hnumber⟩ := exists_ofMarch number
  obtain ⟨hyear, hshifted, -, -, hday⟩ := ofMarch_parts year hle day
  rw [heq, hproper.dayNumber_eq, dayOfYear, hyear, hshifted, hday, Nat.add_sub_cancel, hnumber]

/-! ## Months -/

theorem le_daysInMonth
    (year : Int) (month : Nat) :
    28 ≤ daysInMonth year month := by
  unfold daysInMonth
  split
  · split <;> omega
  all_goals omega

def firstOfMonth (d : Date) : Date :=
  { d with day := 1 }

/-- The first day of the month after that of a date. -/
def nextMonth (d : Date) : Date :=
  if d.month = 12 then ⟨d.year + 1, 1, 1⟩ else ⟨d.year, d.month + 1, 1⟩

theorem isProper_first
    {year : Int} {month : Nat} (hpos : 1 ≤ month) (hle : month ≤ 12) :
    IsProper ⟨year, month, 1⟩ where
  month_pos := hpos
  month_le := hle
  day_pos := le_rfl
  day_le := Nat.le_trans (Nat.le_add_left 1 27) (le_daysInMonth year month)

theorem IsProper.ofDayNumber_firstOfMonth
    {d : Date} (h : d.IsProper) :
    ofDayNumber d.firstOfMonth.dayNumber = d.firstOfMonth :=
  (isProper_first h.month_pos h.month_le).ofDayNumber_dayNumber

@[simp] theorem nextMonth_firstOfMonth
    (d : Date) :
    d.firstOfMonth.nextMonth = d.nextMonth :=
  rfl

theorem isProper_nextMonth
    {d : Date} (h : d.IsProper) :
    d.nextMonth.IsProper := by
  have hle := h.month_le
  unfold nextMonth
  split
  · exact isProper_first le_rfl (by omega)
  · exact isProper_first (by omega) (by omega)

theorem nextMonth_march
    {d : Date} (h : d.IsProper) :
    d.nextMonth.marchYear = (if d.month = 2 then d.year else d.marchYear) ∧
      d.nextMonth.marchMonth = (if d.month = 2 then 0 else d.marchMonth + 1) ∧
      d.nextMonth.day = 1 := by
  have hpos := h.month_pos
  have hle := h.month_le
  unfold nextMonth marchYear marchMonth
  split_ifs <;> dsimp only at * <;> omega

/-- The next month begins when the days of a month are over. -/
theorem IsProper.dayNumber_nextMonth
    {d : Date} (h : d.IsProper) :
    d.nextMonth.dayNumber = d.firstOfMonth.dayNumber + daysInMonth d.year d.month := by
  have hend := daysFromMarch_add_daysInMonth h.month_pos h.month_le
  have hfirst : d.firstOfMonth.dayNumber =
      daysToMarch d.marchYear + daysFromMarch d.marchMonth - 719468 :=
    (isProper_first h.month_pos h.month_le).dayNumber_eq
  obtain ⟨hyear, hmonth, hday⟩ := nextMonth_march h
  rw [(isProper_nextMonth h).dayNumber_eq, dayOfYear, hyear, hmonth, hday, hfirst]
  by_cases hfebruary : d.month = 2
  · have hlength := daysToMarch_succ (d.year - 1)
    have hbefore : d.marchYear = d.year - 1 := if_pos (by omega)
    have hnone : daysFromMarch 0 = 0 := rfl
    rw [Int.sub_add_cancel] at hlength
    rw [if_pos hfebruary] at hend
    rw [if_pos hfebruary, if_pos hfebruary, hbefore]
    omega
  · rw [if_neg hfebruary] at hend
    rw [if_neg hfebruary, if_neg hfebruary]
    omega

theorem dayNumber_add
    (d : Date) (days : Nat) :
    ({ d with day := days + 1 } : Date).dayNumber = d.firstOfMonth.dayNumber + days := by
  unfold dayNumber firstOfMonth
  dsimp only
  split <;> omega

/-- The days of a month are told apart by their distance from its first day. -/
theorem IsProper.ofDayNumber_add
    {d : Date} (h : d.IsProper) {days : Nat} (hdays : days < daysInMonth d.year d.month) :
    ofDayNumber (d.firstOfMonth.dayNumber + days) = { d with day := days + 1 } := by
  have hproper : IsProper { d with day := days + 1 } :=
    ⟨h.month_pos, h.month_le, by dsimp only; omega, hdays⟩
  rw [← dayNumber_add, hproper.ofDayNumber_dayNumber]

theorem IsProper.dayNumber_eq_add
    {d : Date} (h : d.IsProper) :
    d.dayNumber = d.firstOfMonth.dayNumber + (d.day - 1 : Nat) := by
  have hnumber := dayNumber_add d (d.day - 1)
  rwa [Nat.sub_add_cancel h.day_pos] at hnumber

theorem addMonths?_firstOfMonth
    {d : Date} (h : d.IsProper) :
    d.firstOfMonth.addMonths? 1 =
      of? d.nextMonth.year d.nextMonth.month d.nextMonth.day := by
  have hpos := h.month_pos
  have hle := h.month_le
  have hyear : (d.year * 12 + (d.month - 1 : Nat) + (1 : Nat)) / 12 = d.nextMonth.year := by
    unfold nextMonth
    split <;> dsimp only <;> omega
  have hmonth :
      ((d.year * 12 + (d.month - 1 : Nat) + (1 : Nat)) % 12).toNat + 1 = d.nextMonth.month := by
    unfold nextMonth
    split <;> dsimp only <;> omega
  have hday : d.nextMonth.day = 1 := (nextMonth_march h).2.2
  have hlength := le_daysInMonth d.nextMonth.year d.nextMonth.month
  unfold addMonths? firstOfMonth
  dsimp only
  rw [hyear, hmonth, hday, Nat.min_eq_left (by omega)]

/-! ## Years -/

/-- The number of the first day of a year. -/
def newYear (year : Int) : Int :=
  dayNumber ⟨year, 1, 1⟩

theorem ofDayNumber_newYear
    (year : Int) :
    ofDayNumber (newYear year) = ⟨year, 1, 1⟩ :=
  (isProper_first le_rfl (by omega)).ofDayNumber_dayNumber

theorem newYear_eq
    (year : Int) :
    newYear year = daysToMarch (year - 1) - 719162 := by
  have hmarch : marchYear ⟨year, 1, 1⟩ = year - 1 := rfl
  have hshifted : marchMonth ⟨year, 1, 1⟩ = 10 := rfl
  have hday : dayOfYear ⟨year, 1, 1⟩ = 306 := by
    rw [dayOfYear, hshifted]
    rfl
  rw [newYear, (isProper_first le_rfl (by omega)).dayNumber_eq, hmarch, hday]
  omega

theorem newYear_succ
    (year : Int) :
    newYear (year + 1) = newYear year + daysInYear year := by
  have hlength := daysToMarch_succ (year - 1)
  rw [Int.sub_add_cancel] at hlength
  rw [newYear_eq, newYear_eq, Int.add_sub_cancel]
  omega

theorem newYear_mono
    {year later : Int} (h : year ≤ later) :
    newYear year ≤ newYear later := by
  have hmono : daysToMarch (year - 1) ≤ daysToMarch (later - 1) := daysToMarch_mono (by omega)
  rw [newYear_eq, newYear_eq]
  omega

/-- A date is within its year. -/
theorem IsProper.newYear_le
    {d : Date} (h : d.IsProper) :
    newYear d.year ≤ d.dayNumber ∧ d.dayNumber < newYear (d.year + 1) := by
  have hlt := h.dayOfYear_lt
  have hlength := daysToMarch_succ (d.year - 1)
  rw [Int.sub_add_cancel] at hlength
  rw [newYear_eq, newYear_eq, Int.add_sub_cancel, h.dayNumber_eq]
  by_cases hmonth : d.month ≤ 2
  · -- January and February are the last months of a counting year.
    have hpos := h.month_pos
    have hyear : d.marchYear = d.year - 1 := if_pos hmonth
    have hshifted : d.marchMonth = d.month + 9 := if_pos hmonth
    have hfirst : 306 ≤ d.dayOfYear := by
      rw [dayOfYear, hshifted, daysFromMarch]
      omega
    rw [hyear, Int.sub_add_cancel] at hlt
    rw [hyear]
    omega
  · have hend := daysFromMarch_add_daysInMonth h.month_pos h.month_le
    have hle := h.month_le
    have hday := h.day_le
    have hpos := h.day_pos
    have hyear : d.marchYear = d.year := if_neg hmonth
    have hshifted : d.marchMonth = d.month - 3 := if_neg hmonth
    have hbefore : d.dayOfYear < 306 := by
      rw [if_neg (by omega), hshifted] at hend
      rw [dayOfYear, hshifted]
      unfold daysFromMarch at hend ⊢
      omega
    have hfull := (daysInYear_le d.year).1
    rw [hyear]
    omega

/-- The year of a day is the one between whose first day and that of the next year it is. -/
theorem year_ofDayNumber
    {year number : Int} (hfirst : newYear year ≤ number) (hnext : number < newYear (year + 1)) :
    (ofDayNumber number).year = year := by
  obtain ⟨hle, hlt⟩ := (isProper_ofDayNumber number).newYear_le
  rw [dayNumber_ofDayNumber] at hle hlt
  by_contra hne
  rcases lt_or_gt_of_ne hne with hless | hgreater
  · have hmono : newYear ((ofDayNumber number).year + 1) ≤ newYear year := newYear_mono hless
    omega
  · have hmono : newYear (year + 1) ≤ newYear (ofDayNumber number).year := newYear_mono hgreater
    omega

/-- The months of a year are over when the next year begins. -/
theorem IsProper.nextMonth_le
    {d : Date} (h : d.IsProper) :
    d.year ≤ d.nextMonth.year ∧ d.nextMonth.year ≤ d.year + 1 ∧
      d.nextMonth.dayNumber ≤ newYear (d.year + 1) := by
  have hlt := (isProper_nextMonth h).newYear_le.2
  unfold nextMonth at hlt ⊢
  by_cases hlast : d.month = 12
  · rw [if_pos hlast]
    exact ⟨by dsimp only; omega, le_rfl, le_rfl⟩
  · rw [if_neg hlast] at hlt ⊢
    exact ⟨le_rfl, by dsimp only; omega, hlt.le⟩

theorem addMonths?_newYear
    (year : Int) :
    (Date.mk year 1 1).addMonths? 12 = of? (year + 1) 1 1 := by
  have hyear : (year * 12 + (1 - 1 : Nat) + (12 : Nat)) / 12 = year + 1 := by omega
  have hmonth : ((year * 12 + (1 - 1 : Nat) + (12 : Nat)) % 12).toNat + 1 = 1 := by omega
  unfold addMonths?
  dsimp only
  rw [hyear, hmonth]
  rfl

end SkillLang.Date
