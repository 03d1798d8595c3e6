import Mathlib.Tactic.Common
import SkillLang.Calendar.Resolve
import SkillLang.Proofs.Calendar.Days

/-!
# Periods of time

Each unit divides time into periods.  That is first shown of whole numbers, for runs of one length
and for the months and years of the calendar, then of the seconds of the local time, and from it
the edges of a period are found to be the same for all moments between them.
-/

namespace SkillLang

/-! ## Divisions of the whole numbers -/

/-- The whole numbers fall into runs: `first` gives the beginning of the run that a number is in,
and `after` the beginning of the run that follows the one with a given beginning. -/
structure IsDivision (first after : Int → Int) : Prop where
  first_le : ∀ n, first n ≤ n
  lt_after : ∀ n, n < after (first n)
  first_eq : ∀ {n m}, first n ≤ m → m < after (first n) → first m = first n

namespace IsDivision

theorem first_first
    {first after : Int → Int} (h : IsDivision first after) (n : Int) :
    first (first n) = first n :=
  h.first_eq le_rfl (lt_of_le_of_lt (h.first_le n) (h.lt_after n))

/-- A run begins where the one before it ends. -/
theorem first_after
    {first after : Int → Int} (h : IsDivision first after) (n : Int) :
    first (after (first n)) = after (first n) := by
  have hle := h.first_le (after (first n))
  have hlt := h.lt_after (after (first n))
  have hidem := h.first_first (after (first n))
  by_contra hne
  by_cases hin : first n ≤ first (after (first n))
  · -- The beginning would be in the run of `n`, which ends before `after (first n)`.
    have hsame := h.first_eq hin (lt_of_le_of_ne hle hne)
    rw [hidem] at hsame
    rw [hsame] at hlt
    exact lt_irrefl _ hlt
  · have hbefore : first n < after (first n) := lt_of_le_of_lt (h.first_le n) (h.lt_after n)
    have hsame := h.first_eq (le_of_not_ge hin) (lt_trans hbefore hlt)
    rw [h.first_first] at hsame
    exact hin (le_of_eq hsame)

/-- A division of days is one of seconds. -/
theorem ofDays
    {first after : Int → Int} (h : IsDivision first after) :
    IsDivision (fun s => first (s / 86400) * 86400) (fun s => after (s / 86400) * 86400) where
  first_le s := by
    have hle := h.first_le (s / 86400)
    omega
  lt_after s := by
    have hlt := h.lt_after (s / 86400)
    rw [Int.mul_ediv_cancel _ (by decide)]
    omega
  first_eq := by
    intro s t hle hlt
    rw [Int.mul_ediv_cancel _ (by decide)] at hlt
    have hsame : first (t / 86400) = first (s / 86400) := h.first_eq (by omega) (by omega)
    rw [hsame]

end IsDivision

/-- The last number up to `n` that together with `shift` is a multiple of a length. -/
def floorTo (length shift n : Int) : Int :=
  n - (n + shift) % length

theorem isDivision_floorTo
    {length : Int} (hpos : 0 < length) (shift : Int) :
    IsDivision (floorTo length shift) (fun first => first + length) where
  first_le n := by
    have hnonneg := Int.emod_nonneg (n + shift) hpos.ne'
    unfold floorTo
    omega
  lt_after n := by
    have hlt := Int.emod_lt_of_pos (n + shift) hpos
    unfold floorTo
    omega
  first_eq := by
    intro n m hle hlt
    have hsum := Int.mul_ediv_add_emod (n + shift) length
    unfold floorTo at hle hlt ⊢
    have hshifted :
        m + shift = length * ((n + shift) / length) + (m - (n - (n + shift) % length)) := by
      omega
    have hmod : (m + shift) % length = m - (n - (n + shift) % length) := by
      rw [hshifted, Int.mul_add_emod_self_left]
      exact Int.emod_eq_of_lt (by omega) (by omega)
    omega

namespace Date

/-- Months are runs of days. -/
theorem isDivision_months :
    IsDivision (fun n => (ofDayNumber n).firstOfMonth.dayNumber)
      (fun n => (ofDayNumber n).nextMonth.dayNumber) where
  first_le n := by
    have hnumber := (isProper_ofDayNumber n).dayNumber_eq_add
    rw [dayNumber_ofDayNumber] at hnumber
    omega
  lt_after n := by
    have hproper := isProper_ofDayNumber n
    have hnumber := hproper.dayNumber_eq_add
    have hnext := hproper.dayNumber_nextMonth
    have hpos := hproper.day_pos
    have hle := hproper.day_le
    rw [dayNumber_ofDayNumber] at hnumber
    rw [hproper.ofDayNumber_firstOfMonth, nextMonth_firstOfMonth]
    omega
  first_eq := by
    intro n m hle hlt
    have hproper := isProper_ofDayNumber n
    have hnext := hproper.dayNumber_nextMonth
    rw [hproper.ofDayNumber_firstOfMonth, nextMonth_firstOfMonth] at hlt
    obtain ⟨days, hdays⟩ := Int.eq_ofNat_of_zero_le (Int.sub_nonneg_of_le hle)
    have hm : m = (ofDayNumber n).firstOfMonth.dayNumber + days := by omega
    have hday : ofDayNumber m = { ofDayNumber n with day := days + 1 } := by
      rw [hm]
      exact hproper.ofDayNumber_add (by omega)
    rw [hday]
    rfl

/-- Years are runs of days. -/
theorem isDivision_years :
    IsDivision (fun n => newYear (ofDayNumber n).year)
      (fun n => newYear ((ofDayNumber n).year + 1)) where
  first_le n := by
    have hle := (isProper_ofDayNumber n).newYear_le.1
    rwa [dayNumber_ofDayNumber] at hle
  lt_after n := by
    have hlt := (isProper_ofDayNumber n).newYear_le.2
    rw [dayNumber_ofDayNumber] at hlt
    rwa [ofDayNumber_newYear]
  first_eq := by
    intro n m hle hlt
    rw [ofDayNumber_newYear] at hlt
    rw [year_ofDayNumber hle hlt]

end Date

/-! ## Seconds of the local time -/

namespace Moment

/-- Earlier moments and the moment itself, whatever the offset at which they are told. -/
instance : LE Moment :=
  ⟨fun a b => a.seconds < b.seconds ∨ a.seconds = b.seconds ∧ a.nanos ≤ b.nanos⟩

/-- Seconds of the local time since the beginning of 1970. -/
def localSeconds (m : Moment) : Int :=
  m.seconds + m.offset

/-- The year of a second of the local time. -/
def yearOf (s : Int) : Int :=
  (Date.ofDayNumber (s / 86400)).year

/-- The moment at which a second of the local time begins. -/
def atSecond (s offset : Int) : Moment :=
  ⟨s - offset, 0, offset⟩

/-- A moment of whole milliseconds that is no leap second. -/
structure IsWholeMilli (m : Moment) : Prop where
  lt : m.nanos < 1000000000
  whole : m.nanos % 1000000 = 0

/-- The local time of a moment is neither in the first nor in the last year of the supported range,
and its offset is less than a day. -/
structure IsInside (m : Moment) : Prop where
  after_first : Date.firstYear < m.toLocal.date.year
  before_last : m.toLocal.date.year < Date.lastYear
  lt_offset : -86400 < m.offset
  offset_lt : m.offset < 86400

/-- The moment at which a second of the local time begins, if it is supported. -/
def atSecond? (s offset : Int) : Option Moment :=
  if inRange (s - offset) then some (atSecond s offset) else none

theorem ofLocal?_second
    (date : Date) (second : Nat) (offset : Int) :
    ofLocal? ⟨date, second, 0⟩ offset = atSecond? (date.dayNumber * 86400 + second) offset :=
  rfl

@[simp] theorem dayNumber_toLocal
    (m : Moment) :
    m.toLocal.date.dayNumber = m.localSeconds / 86400 :=
  Date.dayNumber_ofDayNumber _

theorem second_toLocal
    (m : Moment) :
    m.toLocal.second = (m.localSeconds % 86400).toNat :=
  rfl

theorem newYear_yearOf
    (s : Int) :
    Date.newYear (yearOf s) * 86400 ≤ s ∧ s < Date.newYear (yearOf s + 1) * 86400 := by
  have hle := Date.isDivision_years.first_le (s / 86400)
  have hlt := Date.isDivision_years.lt_after (s / 86400)
  rw [Date.ofDayNumber_newYear] at hlt
  unfold yearOf
  dsimp only at hle hlt
  omega

/-- Within a week of a year inside of the supported range all moments are supported. -/
theorem inRange_of_near
    {year s offset : Int} (hfirst : Date.firstYear < year) (hlast : year < Date.lastYear)
    (hle : Date.newYear year * 86400 ≤ s + 604800)
    (hlt : s ≤ Date.newYear (year + 1) * 86400 + 604800)
    (hoffset : -86400 < offset) (hoffset' : offset < 86400) :
    inRange (s - offset) = true := by
  have hlow : Date.newYear (Date.firstYear + 1) ≤ Date.newYear year := Date.newYear_mono hfirst
  have hhigh : Date.newYear (year + 1) ≤ Date.newYear Date.lastYear := Date.newYear_mono hlast
  have hlowest : (Date.mk Date.firstYear 1 1).dayNumber = Date.newYear Date.firstYear := rfl
  have hhighest : (Date.mk Date.lastYear 12 31).dayNumber =
      Date.newYear Date.lastYear + Date.daysInYear Date.lastYear - 1 := by decide
  have hlength := (Date.daysInYear_le Date.firstYear).1
  have hlength' := (Date.daysInYear_le Date.lastYear).1
  rw [Date.newYear_succ] at hlow
  simp only [inRange, secondsPerDay, decide_eq_true_eq, hlowest, hhighest]
  omega

theorem IsInside.inRange_eq
    {m : Moment} (h : m.IsInside) {s : Int}
    (hle : Date.newYear (yearOf m.localSeconds) * 86400 ≤ s + 604800)
    (hlt : s ≤ Date.newYear (yearOf m.localSeconds + 1) * 86400 + 604800) :
    inRange (s - m.offset) = true :=
  inRange_of_near h.after_first h.before_last hle hlt h.lt_offset h.offset_lt

theorem IsInside.atSecond?_eq
    {m : Moment} (h : m.IsInside) {s : Int}
    (hle : Date.newYear (yearOf m.localSeconds) * 86400 ≤ s + 604800)
    (hlt : s ≤ Date.newYear (yearOf m.localSeconds + 1) * 86400 + 604800) :
    atSecond? s m.offset = some (atSecond s m.offset) :=
  if_pos (h.inRange_eq hle hlt)

/-! ## Units -/

/-- The periods of a unit are runs of seconds of the local time: `first` gives the beginning of the
current period, and `after` the beginning of the one after it.  No period reaches farther than a
week beyond the year that it is in. -/
structure IsPeriodic (unit : String) (first after : Int → Int) : Prop
    extends IsDivision first after where
  startOf?_eq : ∀ m : Moment, m.startOf? unit = atSecond? (first m.localSeconds) m.offset
  nextPeriod?_eq : ∀ m : Moment, m.IsInside →
    (atSecond (first m.localSeconds) m.offset).nextPeriod? unit =
      some (atSecond (after (first m.localSeconds)) m.offset)
  le_first : ∀ s, Date.newYear (yearOf s) * 86400 ≤ first s + 604800
  after_le : ∀ s, after (first s) ≤ Date.newYear (yearOf s + 1) * 86400 + 604800

/-- Units of one length, which is a week at most. -/
theorem isPeriodic_of_length
    {unit : String} {length shift : Int} (hpos : 0 < length) (hle : length ≤ 604800)
    (hnext : ∀ m : Moment, m.nextPeriod? unit = some (m.addSeconds length))
    (hstart : ∀ m : Moment, ∃ date second, m.startOf? unit = ofLocal? ⟨date, second, 0⟩ m.offset ∧
      date.dayNumber * 86400 + second = floorTo length shift m.localSeconds) :
    IsPeriodic unit (floorTo length shift) (fun first => first + length) where
  toIsDivision := isDivision_floorTo hpos shift
  startOf?_eq m := by
    obtain ⟨date, second, hlocal, hseconds⟩ := hstart m
    rw [hlocal, ofLocal?_second, hseconds]
  nextPeriod?_eq m _ := by
    have hsum (s : Int) : s - m.offset + length = s + length - m.offset := by omega
    rw [hnext]
    simp [addSeconds, atSecond, hsum]
  le_first s := by
    have hyear := (newYear_yearOf s).1
    have hlt := (isDivision_floorTo hpos shift).lt_after s
    omega
  after_le s := by
    have hyear := (newYear_yearOf s).2
    have hfirst := (isDivision_floorTo hpos shift).first_le s
    omega

/-- Units that cut off the clock of a day: as many of them as there are make up the day. -/
theorem isPeriodic_clock
    {unit : String} {length : Nat} (hdvd : length ∣ 86400)
    (hnext : ∀ m : Moment, m.nextPeriod? unit = some (m.addSeconds length))
    (hstart : ∀ m : Moment, m.startOf? unit =
      ofLocal? ⟨m.toLocal.date, m.toLocal.second / length * length, 0⟩ m.offset) :
    IsPeriodic unit (floorTo length 0) (fun first => first + length) := by
  have hpos : 0 < length := Nat.pos_of_dvd_of_pos hdvd (by decide)
  have hle : length ≤ 86400 := Nat.le_of_dvd (by decide) hdvd
  refine isPeriodic_of_length (by omega) (by omega) hnext fun m => ⟨_, _, hstart m, ?_⟩
  have hnonneg : 0 ≤ m.localSeconds % 86400 := Int.emod_nonneg _ (by decide)
  have hday := Int.ediv_mul_add_emod m.localSeconds 86400
  have hcut := Int.ediv_mul_add_emod (m.localSeconds % 86400) length
  have hsame : m.localSeconds % 86400 % length = m.localSeconds % length :=
    Int.emod_emod_of_dvd _ (by exact_mod_cast hdvd)
  rw [dayNumber_toLocal, second_toLocal, floorTo, Int.add_zero, Nat.cast_mul, Int.natCast_ediv,
    Int.toNat_of_nonneg hnonneg]
  omega

theorem isPeriodic_second :
    IsPeriodic "s" (floorTo 1 0) (fun first => first + 1) := by
  refine isPeriodic_clock (by decide) (fun _ => rfl) fun m => ?_
  rw [Nat.div_one, Nat.mul_one]
  rfl

theorem isPeriodic_minute :
    IsPeriodic "min" (floorTo 60 0) (fun first => first + 60) :=
  isPeriodic_clock (by decide) (fun _ => rfl) fun _ => rfl

theorem isPeriodic_hour :
    IsPeriodic "h" (floorTo 3600 0) (fun first => first + 3600) :=
  isPeriodic_clock (by decide) (fun _ => rfl) fun _ => rfl

theorem isPeriodic_day :
    IsPeriodic "day" (floorTo 86400 0) (fun first => first + 86400) := by
  refine isPeriodic_clock (by decide) (fun _ => rfl) fun m => ?_
  have hlt : m.toLocal.second < 86400 := by
    rw [second_toLocal]
    omega
  rw [Nat.div_eq_of_lt hlt, Nat.zero_mul]
  rfl

/-- Weeks begin on Mondays, and the beginning of 1970 was a Thursday. -/
theorem isPeriodic_week :
    IsPeriodic "week" (floorTo 604800 259200) (fun first => first + 604800) := by
  refine isPeriodic_of_length (by decide) (by decide) (fun _ => rfl) fun m => ⟨_, _, rfl, ?_⟩
  rw [Date.addDays, Date.dayNumber_ofDayNumber, Date.weekdayIndex, dayNumber_toLocal, floorTo]
  omega

/-- Units whose periods are runs of days, none of which reaches beyond a year. -/
theorem isPeriodic_of_days
    {unit : String} {first after : Int → Int} (hdivision : IsDivision first after)
    (hstart : ∀ m : Moment, ∃ date, m.startOf? unit = m.midnight? date ∧
      date.dayNumber = first (m.localSeconds / 86400))
    (hnext : ∀ m : Moment, m.IsInside →
      (atSecond (first (m.localSeconds / 86400) * 86400) m.offset).nextPeriod? unit =
        some (atSecond (after (first (m.localSeconds / 86400)) * 86400) m.offset))
    (hle : ∀ n, Date.newYear (Date.ofDayNumber n).year ≤ first n)
    (hlt : ∀ n, after (first n) ≤ Date.newYear ((Date.ofDayNumber n).year + 1)) :
    IsPeriodic unit (fun s => first (s / 86400) * 86400) (fun s => after (s / 86400) * 86400) where
  toIsDivision := hdivision.ofDays
  startOf?_eq m := by
    obtain ⟨date, hlocal, hday⟩ := hstart m
    rw [hlocal, midnight?, ofLocal?_second, hday, Nat.cast_zero, Int.add_zero]
  nextPeriod?_eq m hinside := by
    rw [Int.mul_ediv_cancel _ (by decide)]
    exact hnext m hinside
  le_first s := by
    have hfirst := hle (s / 86400)
    unfold yearOf
    omega
  after_le s := by
    have hafter := hlt (s / 86400)
    rw [Int.mul_ediv_cancel _ (by decide)]
    unfold yearOf
    omega

theorem addMonths?_atSecond
    (day offset : Int) (months : Nat) :
    (atSecond (day * 86400) offset).addMonths? months =
      ((Date.ofDayNumber day).addMonths? months).bind fun date =>
        atSecond? (date.dayNumber * 86400) offset := by
  have hlocal : (atSecond (day * 86400) offset).toLocal = ⟨Date.ofDayNumber day, 0, 0⟩ := by
    have hseconds : day * 86400 - offset + offset = day * 86400 := by omega
    simp [toLocal, atSecond, secondsPerDay, hseconds]
  have hbegin (date : Date) :
      ofLocal? ⟨date, 0, 0⟩ offset = atSecond? (date.dayNumber * 86400) offset := by
    rw [ofLocal?_second, Nat.cast_zero, Int.add_zero]
  unfold addMonths?
  rw [hlocal]
  exact congrArg (Option.bind _) (funext hbegin)

theorem isPeriodic_month :
    IsPeriodic "mon"
      (fun s => (Date.ofDayNumber (s / 86400)).firstOfMonth.dayNumber * 86400)
      (fun s => (Date.ofDayNumber (s / 86400)).nextMonth.dayNumber * 86400) := by
  refine isPeriodic_of_days Date.isDivision_months (fun m => ⟨_, rfl, rfl⟩) ?_ ?_ ?_
  · intro m hinside
    have hproper := Date.isProper_ofDayNumber (m.localSeconds / 86400)
    have hfirst : Date.firstYear < (Date.ofDayNumber (m.localSeconds / 86400)).year :=
      hinside.after_first
    have hlast : (Date.ofDayNumber (m.localSeconds / 86400)).year < Date.lastYear :=
      hinside.before_last
    obtain ⟨hyear, hyear', hend⟩ := hproper.nextMonth_le
    have hnext := (Date.isProper_nextMonth hproper).of?_eq (by omega) (by omega)
    have hbegin := (Date.isProper_nextMonth hproper).newYear_le.1
    have hmono := Date.newYear_mono hyear
    refine (addMonths?_atSecond _ _ _).trans ?_
    rw [hproper.ofDayNumber_firstOfMonth, Date.addMonths?_firstOfMonth hproper, hnext,
      Date.nextMonth_firstOfMonth]
    exact hinside.atSecond?_eq (by unfold yearOf; omega) (by unfold yearOf; omega)
  · intro n
    have hproper := Date.isProper_ofDayNumber n
    exact (Date.isProper_first hproper.month_pos hproper.month_le).newYear_le.1
  · intro n
    have hproper := Date.isProper_ofDayNumber n
    rw [hproper.ofDayNumber_firstOfMonth]
    exact hproper.nextMonth_le.2.2

theorem isPeriodic_year :
    IsPeriodic "year"
      (fun s => Date.newYear (Date.ofDayNumber (s / 86400)).year * 86400)
      (fun s => Date.newYear ((Date.ofDayNumber (s / 86400)).year + 1) * 86400) := by
  refine isPeriodic_of_days Date.isDivision_years (fun m => ⟨_, rfl, rfl⟩) ?_ (fun n => le_rfl) ?_
  · intro m hinside
    have hfirst : Date.firstYear < yearOf m.localSeconds := hinside.after_first
    have hlast : yearOf m.localSeconds < Date.lastYear := hinside.before_last
    have hproper : Date.IsProper ⟨yearOf m.localSeconds + 1, 1, 1⟩ :=
      Date.isProper_first le_rfl (by omega)
    have hnext := hproper.of?_eq (by dsimp only; omega) (by dsimp only; omega)
    have hmono : Date.newYear (yearOf m.localSeconds) ≤ Date.newYear (yearOf m.localSeconds + 1) :=
      Date.newYear_mono (by omega)
    refine (addMonths?_atSecond _ _ _).trans ?_
    rw [Date.ofDayNumber_newYear, Date.addMonths?_newYear]
    change (Date.of? (yearOf m.localSeconds + 1) 1 1).bind _ = _
    rw [hnext]
    exact hinside.atSecond?_eq (by change _ ≤ Date.newYear _ * 86400 + _; omega)
      (by change Date.newYear _ * 86400 ≤ _; omega)
  · intro n
    rw [Date.ofDayNumber_newYear]

/-! ## Edges -/

/-- What the edges of the period of a unit that a moment is in have to be: they resolve, the moment
is between them, every moment of the same offset between them has the same edges, and the
millisecond after the last one is the first one of its own period. -/
structure ArePeriodEdges (unit : String) (now start stop : Moment) : Prop where
  resolve_start : (DateValue.edge .startOf unit).resolve now = some start
  resolve_stop : (DateValue.edge .endOf unit).resolve now = some stop
  start_le : start ≤ now
  le_stop : now ≤ stop
  resolve_start_between : ∀ t : Moment, t.offset = now.offset → start ≤ t → t ≤ stop →
    (DateValue.edge .startOf unit).resolve t = some start
  resolve_stop_between : ∀ t : Moment, t.offset = now.offset → start ≤ t → t ≤ stop →
    (DateValue.edge .endOf unit).resolve t = some stop
  resolve_following :
    (DateValue.edge .startOf unit).resolve stop.nextMilli = some stop.nextMilli

theorem previousMilli_atSecond
    (s offset : Int) :
    (atSecond s offset).previousMilli = ⟨s - offset - 1, 999000000, offset⟩ := by
  simp [previousMilli, atSecond]

theorem nextMilli_previousMilli_atSecond
    (s offset : Int) :
    (atSecond s offset).previousMilli.nextMilli = atSecond s offset := by
  rw [previousMilli_atSecond]
  simp [nextMilli, atSecond]

/-- A moment between the edges of a period falls on a second of that period. -/
theorem between_atSecond
    {first after offset : Int} {t : Moment} (hoffset : t.offset = offset)
    (hstart : atSecond first offset ≤ t) (hstop : t ≤ (atSecond after offset).previousMilli) :
    first ≤ t.localSeconds ∧ t.localSeconds < after := by
  rw [previousMilli_atSecond] at hstop
  unfold localSeconds
  change first - offset < t.seconds ∨ first - offset = t.seconds ∧ _ at hstart
  change t.seconds < after - offset - 1 ∨ t.seconds = after - offset - 1 ∧ _ at hstop
  omega

theorem IsPeriodic.arePeriodEdges
    {unit : String} {first after : Int → Int} (h : IsPeriodic unit first after) {now : Moment}
    (hwhole : now.IsWholeMilli) (hinside : now.IsInside) :
    ArePeriodEdges unit now (atSecond (first now.localSeconds) now.offset)
      (atSecond (after (first now.localSeconds)) now.offset).previousMilli := by
  have hfirst := h.first_le now.localSeconds
  have hafter := h.lt_after now.localSeconds
  obtain ⟨hbegin, hend⟩ := newYear_yearOf now.localSeconds
  have hle := h.le_first now.localSeconds
  have hlt := h.after_le now.localSeconds
  have hinRange : atSecond? (first now.localSeconds) now.offset =
      some (atSecond (first now.localSeconds) now.offset) :=
    hinside.atSecond?_eq hle (by omega)
  -- Both edges are found from the beginning of the current run alone, and so are the same for
  -- all moments in it.
  have hstart (t : Moment) (hoffset : t.offset = now.offset)
      (hsame : first t.localSeconds = first now.localSeconds) :
      t.startOf? unit = some (atSecond (first now.localSeconds) now.offset) := by
    rw [h.startOf?_eq, hsame, hoffset, hinRange]
  have hstop (t : Moment) (hoffset : t.offset = now.offset)
      (hsame : first t.localSeconds = first now.localSeconds) :
      (DateValue.edge .endOf unit).resolve t =
        some (atSecond (after (first now.localSeconds)) now.offset).previousMilli := by
    simp [DateValue.resolve, hstart t hoffset hsame, h.nextPeriod?_eq now hinside]
  refine
    { resolve_start := hstart now rfl rfl
      resolve_stop := hstop now rfl rfl
      start_le := ?_
      le_stop := ?_
      resolve_start_between := ?_
      resolve_stop_between := ?_
      resolve_following := ?_ }
  · change first now.localSeconds - now.offset < now.seconds ∨
      first now.localSeconds - now.offset = now.seconds ∧ 0 ≤ now.nanos
    unfold localSeconds at hfirst ⊢
    omega
  -- In whole milliseconds nothing lies between the last one of the run and the next run.
  · have hnanos := hwhole.lt
    have hmillis := hwhole.whole
    rw [previousMilli_atSecond]
    change now.seconds < after (first now.localSeconds) - now.offset - 1 ∨
      now.seconds = after (first now.localSeconds) - now.offset - 1 ∧ now.nanos ≤ 999000000
    unfold localSeconds at hafter ⊢
    omega
  · intro t hoffset hle hle'
    obtain ⟨hlow, hhigh⟩ := between_atSecond hoffset hle hle'
    exact hstart t hoffset (h.first_eq hlow hhigh)
  · intro t hoffset hle hle'
    obtain ⟨hlow, hhigh⟩ := between_atSecond hoffset hle hle'
    exact hstop t hoffset (h.first_eq hlow hhigh)
  · have hlocal : (atSecond (after (first now.localSeconds)) now.offset).localSeconds =
        after (first now.localSeconds) := by
      simp [localSeconds, atSecond]
    rw [nextMilli_previousMilli_atSecond]
    change (atSecond (after (first now.localSeconds)) now.offset).startOf? unit = _
    rw [h.startOf?_eq, hlocal, h.first_after]
    exact hinside.atSecond?_eq (by omega) hlt

theorem le_antisymm_of_offset
    {a b : Moment} (hle : a ≤ b) (hge : b ≤ a) (hoffset : b.offset = a.offset) :
    b = a := by
  obtain ⟨seconds, nanos, offset⟩ := a
  obtain ⟨seconds', nanos', offset'⟩ := b
  change seconds < seconds' ∨ seconds = seconds' ∧ nanos ≤ nanos' at hle
  change seconds' < seconds ∨ seconds' = seconds ∧ nanos' ≤ nanos at hge
  dsimp only at hoffset
  have hseconds : seconds' = seconds := by omega
  have hnanos : nanos' = nanos := by omega
  rw [hseconds, hnanos, hoffset]

theorem IsWholeMilli.previousMilli_nextMilli
    {m : Moment} (h : m.IsWholeMilli) :
    m.nextMilli.previousMilli = m := by
  obtain ⟨hlt, hwhole⟩ := h
  obtain ⟨seconds, nanos, offset⟩ := m
  dsimp only at hlt hwhole
  unfold nextMilli
  rw [if_neg (by dsimp only; omega), if_neg (by dsimp only; omega)]
  by_cases hlast : 999000000 ≤ nanos
  · have hnanos : nanos = 999000000 := by omega
    rw [if_pos hlast, hnanos]
    simp [previousMilli]
  · rw [if_neg hlast]
    unfold previousMilli
    rw [if_neg (by dsimp only; omega), if_pos (by dsimp only; omega), Nat.add_sub_cancel]

theorem IsWholeMilli.seconds_nextMilli
    {m : Moment} (h : m.IsWholeMilli) :
    m.seconds ≤ m.nextMilli.seconds ∧ m.nextMilli.seconds ≤ m.seconds + 1 := by
  have hlt := h.lt
  unfold nextMilli
  rw [if_neg (by omega), if_neg (by omega)]
  split
  · exact ⟨by dsimp only; omega, le_rfl⟩
  · exact ⟨le_rfl, by dsimp only; omega⟩

theorem startOf?_milli
    {m : Moment} (h : inRange m.seconds = true) :
    m.startOf? "ms" = some m := by
  have hseconds : m.toLocal.date.dayNumber * secondsPerDay + m.toLocal.second - m.offset =
      m.seconds := by
    rw [dayNumber_toLocal, second_toLocal, secondsPerDay]
    unfold localSeconds
    omega
  change (if inRange _ then some (Moment.mk _ m.nanos m.offset) else none) = some m
  rw [hseconds, if_pos h]

/-- Whole milliseconds are periods of their own. -/
theorem arePeriodEdges_milli
    {now : Moment} (hwhole : now.IsWholeMilli) (hinside : now.IsInside) :
    ArePeriodEdges "ms" now now now := by
  obtain ⟨hbegin, hend⟩ := newYear_yearOf now.localSeconds
  obtain ⟨hnext, hnext'⟩ := hwhole.seconds_nextMilli
  have hinRange {seconds : Int} (hle : now.seconds ≤ seconds) (hle' : seconds ≤ now.seconds + 1) :
      inRange seconds = true := by
    have hnear : inRange (seconds + now.offset - now.offset) = true := by
      apply hinside.inRange_eq
      · unfold localSeconds at hbegin ⊢
        omega
      · unfold localSeconds at hend ⊢
        omega
    rwa [Int.add_sub_cancel] at hnear
  have hstart : now.startOf? "ms" = some now := startOf?_milli (hinRange le_rfl (by omega))
  have hstop : (DateValue.edge .endOf "ms").resolve now = some now := by
    simp [DateValue.resolve, hstart, nextPeriod?, hwhole.previousMilli_nextMilli]
  have hrefl : now ≤ now := .inr ⟨rfl, le_rfl⟩
  refine
    { resolve_start := hstart
      resolve_stop := hstop
      start_le := hrefl
      le_stop := hrefl
      resolve_start_between := ?_
      resolve_stop_between := ?_
      resolve_following := startOf?_milli (hinRange hnext hnext') }
  · intro t hoffset hle hge
    rw [le_antisymm_of_offset hle hge hoffset]
    exact hstart
  · intro t hoffset hle hge
    rw [le_antisymm_of_offset hle hge hoffset]
    exact hstop

def periodUnits : List String :=
  ["ms", "s", "min", "h", "day", "week", "mon", "year"]

/-- The edges of the periods of each unit divide time: every moment of whole milliseconds in the
inner years of the supported range is between the two edges of its period, all moments between
them have the same edges, and directly after them the next period begins. -/
theorem exists_arePeriodEdges
    {unit : String} (hunit : unit ∈ periodUnits) {now : Moment} (hwhole : now.IsWholeMilli)
    (hinside : now.IsInside) :
    ∃ start stop, ArePeriodEdges unit now start stop := by
  simp only [periodUnits, List.mem_cons, List.not_mem_nil, or_false] at hunit
  rcases hunit with rfl | rfl | rfl | rfl | rfl | rfl | rfl | rfl
  · exact ⟨_, _, arePeriodEdges_milli hwhole hinside⟩
  · exact ⟨_, _, isPeriodic_second.arePeriodEdges hwhole hinside⟩
  · exact ⟨_, _, isPeriodic_minute.arePeriodEdges hwhole hinside⟩
  · exact ⟨_, _, isPeriodic_hour.arePeriodEdges hwhole hinside⟩
  · exact ⟨_, _, isPeriodic_day.arePeriodEdges hwhole hinside⟩
  · exact ⟨_, _, isPeriodic_week.arePeriodEdges hwhole hinside⟩
  · exact ⟨_, _, isPeriodic_month.arePeriodEdges hwhole hinside⟩
  · exact ⟨_, _, isPeriodic_year.arePeriodEdges hwhole hinside⟩

/-- The last millisecond of a leap day. -/
def leapDay : Moment :=
  ⟨1709231399, 999000000, 19800⟩

/-- Its week begins in February and ends in March. -/
theorem leapDay_arePeriodEdges :
    "week" ∈ periodUnits ∧ leapDay.IsWholeMilli ∧ leapDay.IsInside ∧
      ArePeriodEdges "week" leapDay ⟨1708885800, 0, 19800⟩ ⟨1709490599, 999000000, 19800⟩ := by
  have hunit : "week" ∈ periodUnits := by decide
  have hwhole : leapDay.IsWholeMilli := ⟨by decide, by decide⟩
  have hinside : leapDay.IsInside := ⟨by decide, by decide, by decide, by decide⟩
  obtain ⟨start, stop, hedges⟩ := exists_arePeriodEdges hunit hwhole hinside
  have hlocal : floorTo 604800 259200 leapDay.localSeconds = 1708905600 := by decide
  have hinRange : inRange (1708905600 - leapDay.offset) = true := by decide
  have hmonday : leapDay.startOf? "week" = some ⟨1708885800, 0, 19800⟩ := by
    rw [isPeriodic_week.startOf?_eq, hlocal, atSecond?, if_pos hinRange]
    simp [atSecond, leapDay]
  have hsunday : (DateValue.edge .endOf "week").resolve leapDay =
      some ⟨1709490599, 999000000, 19800⟩ := by
    simp [DateValue.resolve, hmonday, nextPeriod?, addSeconds, previousMilli]
  have hstart : start = ⟨1708885800, 0, 19800⟩ :=
    Option.some.inj (hedges.resolve_start.symm.trans hmonday)
  have hstop : stop = ⟨1709490599, 999000000, 19800⟩ :=
    Option.some.inj (hedges.resolve_stop.symm.trans hsunday)
  rw [hstart, hstop] at hedges
  exact ⟨hunit, hwhole, hinside, hedges⟩

end Moment

end SkillLang
