import Mathlib.Tactic.Common
import SkillLang.Entities.Basic
import SkillLang.Proofs.Calendar.Periods

/-!
# Dates that name only their year

The month and the day of such a date are those of the present day.  The twenty-ninth of February
is the only day that is missing in some years, so that a bare year resolves on every other day, and
on that one if it is a leap year.
-/

namespace SkillLang

namespace Date

/-- The same day of another year, which need not be in the calendar. -/
def withYear (d : Date) (year : Int) : Date :=
  { d with year }

/-- A day of some year is one of another year too. -/
def RecursIn (d : Date) (year : Int) : Prop :=
  d.month = 2 → d.day = 29 → isLeapYear year = true

theorem isValid_iff
    {d : Date} :
    d.isValid = true ↔ (firstYear ≤ d.year ∧ d.year ≤ lastYear) ∧ d.IsProper := by
  unfold isValid
  rw [Bool.and_eq_true, Bool.and_eq_true, decide_eq_true_eq, decide_eq_true_eq, decide_eq_true_eq]
  constructor
  · rintro ⟨⟨hyear, hmonth⟩, hday⟩
    exact ⟨hyear, hmonth.1, hmonth.2, hday.1, hday.2⟩
  · rintro ⟨hyear, hproper⟩
    exact ⟨⟨hyear, hproper.month_pos, hproper.month_le⟩, hproper.day_pos, hproper.day_le⟩

theorem IsProper.isProper_withYear_iff
    {d : Date} (h : d.IsProper) (year : Int) :
    (d.withYear year).IsProper ↔ d.RecursIn year := by
  obtain ⟨hpos, hle, hday, hdays⟩ := h
  obtain ⟨old, month, day⟩ := d
  dsimp only at hpos hle hday hdays
  constructor
  · intro hproper hmonth hlast
    have hlength : day ≤ daysInMonth year month := hproper.day_le
    dsimp only at hmonth hlast
    subst hmonth hlast
    by_contra hleap
    simp [daysInMonth, hleap] at hlength
  · intro hrecurs
    refine ⟨hpos, hle, hday, ?_⟩
    change day ≤ daysInMonth year month
    by_cases hmonth : month = 2
    · subst hmonth
      have hbound : day ≤ 29 := by
        simp only [daysInMonth] at hdays
        split at hdays <;> omega
      by_cases hlast : day = 29
      · simp [daysInMonth, hrecurs rfl hlast, hbound]
      · exact le_trans (by omega) (le_daysInMonth year 2)
    · have hsame : daysInMonth year month = daysInMonth old month := by
        unfold daysInMonth
        split <;> first | contradiction | rfl
      exact hdays.trans hsame.ge

end Date

/-- A time of day that clocks show. -/
def TimeOfDay.IsClockTime : TimeOfDay → Prop
  | absolute hour minute second => hour < 24 ∧ minute < 60 ∧ second < 60
  | relative _ => False

/-- Seconds since midnight; without a time it is midnight. -/
def TimeOfDay.secondOf : Option TimeOfDay → Nat
  | some (absolute hour minute second) => hour * 3600 + minute * 60 + second
  | _ => 0

namespace Moment

theorem secondOf_lt
    {time : Option TimeOfDay} (htime : ∀ t ∈ time, t.IsClockTime) :
    TimeOfDay.secondOf time < 86400 := by
  match time with
  | none => exact Nat.zero_lt_succ _
  | some (.relative _) => exact absurd (htime _ rfl) id
  | some (.absolute hour minute second) =>
      obtain ⟨hhour, hminute, hsecond⟩ := htime _ rfl
      change hour * 3600 + minute * 60 + second < 86400
      omega

theorem onDate?_eq
    {time : Option TimeOfDay} (htime : ∀ t ∈ time, t.IsClockTime) (m : Moment) (date : Date) :
    m.onDate? date time =
      atSecond? (date.dayNumber * 86400 + TimeOfDay.secondOf time) m.offset := by
  match time with
  | none => exact ofLocal?_second date 0 m.offset
  | some (.relative _) => exact absurd (htime _ rfl) id
  | some (.absolute hour minute second) =>
      have hclock : hour < 24 ∧ minute < 60 ∧ second < 60 := htime _ rfl
      simp only [onDate?, LocalTime.of?, if_pos hclock]
      exact ofLocal?_second date _ m.offset

/-- A second of a proper date is told as that date again. -/
theorem date_atSecond
    {date : Date} (h : date.IsProper) {second : Nat} (hsecond : second < 86400) (offset : Int) :
    (atSecond (date.dayNumber * 86400 + second) offset).toLocal.date = date := by
  have hlocal : date.dayNumber * 86400 + second - offset + offset =
      date.dayNumber * 86400 + second := by omega
  have hday : (date.dayNumber * 86400 + second) / 86400 = date.dayNumber := by omega
  simp only [toLocal, atSecond, secondsPerDay]
  rw [hlocal, hday, h.ofDayNumber_dayNumber]

end Moment

namespace DateValue

/-- The moment that a bare year would stand for is supported. -/
def IsSupported (now : Moment) (year : Int) (time : Option TimeOfDay) : Prop :=
  Moment.inRange ((now.toLocal.date.withYear year).dayNumber * 86400 +
    TimeOfDay.secondOf time - now.offset) = true

theorem resolve_bareYear
    {year : Int} {time : Option TimeOfDay} (hfirst : Date.firstYear ≤ year)
    (hlast : year ≤ Date.lastYear) (htime : ∀ t ∈ time, t.IsClockTime) (now : Moment) :
    ((piece (some year) none none time).resolve now = none ∧
        ¬ (now.toLocal.date.RecursIn year ∧ IsSupported now year time)) ∨
      ∃ moment, (piece (some year) none none time).resolve now = some moment ∧
        moment.toLocal.date = now.toLocal.date.withYear year ∧
        now.toLocal.date.RecursIn year ∧ IsSupported now year time := by
  have htoday : now.toLocal.date.IsProper := Date.isProper_ofDayNumber _
  have hunfold : (piece (some year) none none time).resolve now =
      (Date.of? year now.toLocal.date.month now.toLocal.date.day).bind fun date =>
        now.onDate? date time := rfl
  rw [hunfold]
  by_cases hrecurs : now.toLocal.date.RecursIn year
  · have hproper := (htoday.isProper_withYear_iff year).mpr hrecurs
    have hdate : Date.of? year now.toLocal.date.month now.toLocal.date.day =
        some (now.toLocal.date.withYear year) := hproper.of?_eq hfirst hlast
    rw [hdate, Option.bind_some, Moment.onDate?_eq htime, Moment.atSecond?]
    by_cases hsupported : IsSupported now year time
    · refine .inr ⟨_, if_pos hsupported, ?_, hrecurs, hsupported⟩
      exact Moment.date_atSecond hproper (Moment.secondOf_lt htime) now.offset
    · exact .inl ⟨if_neg hsupported, fun h => hsupported h.2⟩
  · refine .inl ⟨?_, fun h => hrecurs h.1⟩
    have hnone : Date.of? year now.toLocal.date.month now.toLocal.date.day = none := by
      apply if_neg
      intro hvalid
      exact hrecurs ((htoday.isProper_withYear_iff year).mp (Date.isValid_iff.mp hvalid).2)
    rw [hnone]
    rfl

theorem isSupported_of_inner
    {now : Moment} {year : Int} {time : Option TimeOfDay} (hfirst : Date.firstYear < year)
    (hlast : year < Date.lastYear) (hlow : -86400 < now.offset) (hhigh : now.offset < 86400)
    (htime : ∀ t ∈ time, t.IsClockTime) (hrecurs : now.toLocal.date.RecursIn year) :
    IsSupported now year time := by
  have hproper := ((Date.isProper_ofDayNumber _).isProper_withYear_iff year).mpr hrecurs
  have hle : Date.newYear year ≤ (now.toLocal.date.withYear year).dayNumber :=
    hproper.newYear_le.1
  have hlt : (now.toLocal.date.withYear year).dayNumber < Date.newYear (year + 1) :=
    hproper.newYear_le.2
  have hsecond := Moment.secondOf_lt htime
  exact Moment.inRange_of_near hfirst hlast (by omega) (by omega) hlow hhigh

/-- A date that names only its year, with or without a time, resolves to a moment of that year,
and has an entity, exactly if the present day is one of that year and the moment is supported;
otherwise no entity stands for it.  Within the inner years of the supported range that is so on
every day that is not the twenty-ninth of February, and on that one in leap years. -/
theorem resolve_bareYear_iff
    {now : Moment} {year : Int} {time : Option TimeOfDay} (hfirst : Date.firstYear ≤ year)
    (hlast : year ≤ Date.lastYear) (htime : ∀ t ∈ time, t.IsClockTime) :
    ((∃ moment, (piece (some year) none none time).resolve now = some moment ∧
        moment.toLocal.date.year = year) ↔
      now.toLocal.date.RecursIn year ∧ IsSupported now year time) ∧
    ((Entity.ofValue? "DATE" now (.date (piece (some year) none none time))).isSome = true ↔
      now.toLocal.date.RecursIn year ∧ IsSupported now year time) ∧
    (¬ (now.toLocal.date.RecursIn year ∧ IsSupported now year time) → ∀ type (e : Entity),
      e.denotes type now (.date (piece (some year) none none time)) = false) ∧
    (Date.firstYear < year → year < Date.lastYear → -86400 < now.offset → now.offset < 86400 →
      now.toLocal.date.RecursIn year → IsSupported now year time) := by
  have hinner (hfirst : Date.firstYear < year) (hlast : year < Date.lastYear)
      (hlow : -86400 < now.offset) (hhigh : now.offset < 86400)
      (hrecurs : now.toLocal.date.RecursIn year) : IsSupported now year time :=
    isSupported_of_inner hfirst hlast hlow hhigh htime hrecurs
  rcases resolve_bareYear hfirst hlast htime now with
    ⟨hnone, hnot⟩ | ⟨moment, hsome, hdate, hholds⟩
  · refine ⟨iff_of_false ?_ hnot, iff_of_false ?_ hnot, fun _ type e => ?_, hinner⟩
    · rintro ⟨moment, hsome, -⟩
      rw [hnone] at hsome
      cases hsome
    · simp [Entity.ofValue?, hnone]
    · cases e <;> simp [Entity.denotes, hnone]
  · refine ⟨iff_of_true ⟨moment, hsome, ?_⟩ hholds, iff_of_true ?_ hholds, fun hnot => ?_, hinner⟩
    · rw [hdate]
      rfl
    · simp [Entity.ofValue?, hsome]
    · exact absurd hholds hnot

/-- The leap day has no counterpart in the year before. -/
theorem bareYear_unresolved :
    Moment.leapDay.toLocal.date = ⟨2024, 2, 29⟩ ∧
      (piece (some 2023) none none none).resolve Moment.leapDay = none ∧
      Entity.ofValue? "DATE" Moment.leapDay (.date (piece (some 2023) none none none)) = none := by
  have hnone : (piece (some 2023) none none none).resolve Moment.leapDay = none := rfl
  exact ⟨rfl, hnone, by simp [Entity.ofValue?, hnone]⟩

/-- In the next leap year it has one, at half past nine in the evening. -/
theorem bareYear_resolved :
    Date.firstYear ≤ 2028 ∧ 2028 ≤ Date.lastYear ∧
      (∀ t ∈ some (TimeOfDay.absolute 21 30 0), t.IsClockTime) ∧
      ∃ moment, (piece (some 2028) none none (some (.absolute 21 30 0))).resolve Moment.leapDay =
        some moment ∧ moment.toLocal.date.year = 2028 := by
  have hfirst : Date.firstYear ≤ 2028 := by decide
  have hlast : 2028 ≤ Date.lastYear := by decide
  have htime : ∀ t ∈ some (TimeOfDay.absolute 21 30 0), t.IsClockTime := by
    simp [TimeOfDay.IsClockTime]
  have hrecurs : Moment.leapDay.toLocal.date.RecursIn 2028 := fun _ _ => rfl
  have hsupported : IsSupported Moment.leapDay 2028 (some (.absolute 21 30 0)) := by
    unfold IsSupported
    decide
  exact ⟨hfirst, hlast, htime,
    (resolve_bareYear_iff hfirst hlast htime).1.mpr ⟨hrecurs, hsupported⟩⟩

end DateValue

end SkillLang
