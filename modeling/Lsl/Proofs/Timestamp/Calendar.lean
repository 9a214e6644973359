import Lsl.Proofs.Literal.Numerals
import Lsl.Timestamp
import Mathlib.Algebra.BigOperators.Intervals
import Mathlib.Algebra.Order.BigOperators.Group.Finset
import Mathlib.Data.List.Lex

/-!
Moments as dates of the Gregorian calendar, and their texts. Years and then months are taken off a
number of days until less than one of them is left, so as many days stand in front of the date that
is reached, and later moments have later dates. Each part of a moment is written with its digits,
zeros in front up to the width of the part, and marks that are no digits stand between the parts; so
a text shows one moment only, and the text of a number of seconds shows the date and time that it
leads to.
-/

set_option autoImplicit false

namespace Lsl

open Finset (Ico)

namespace Calendar

/-- The years with a twenty-ninth of February. -/
def IsLeap (year : Nat) : Prop := 4 ∣ year ∧ (100 ∣ year → 400 ∣ year)

instance (year : Nat) : Decidable (IsLeap year) := inferInstanceAs (Decidable (_ ∧ _))

def monthLength (year : Nat) : Nat → Nat
  | 2 => if IsLeap year then 29 else 28
  | 4 | 6 | 9 | 11 => 30
  | _ => 31

def yearLength (year : Nat) : Nat := ∑ month ∈ Ico 1 13, monthLength year month

theorem is_leap_year_iff (year : Nat) : isLeapYear year = true ↔ IsLeap year := by
  simp only [isLeapYear, IsLeap, Bool.or_eq_true, Bool.and_eq_true, beq_iff_eq, bne_iff_ne]
  omega

theorem month_lengths_eq (year : Nat) :
    monthLengths year = (List.range' 1 12).map (monthLength year) := by
  simp [monthLengths, List.range', monthLength, ← is_leap_year_iff]

theorem days_in_year_eq (year : Nat) : daysInYear year = yearLength year := by
  have months : Ico 1 13 = {1, 2, 3, 4, 5, 6, 7, 8, 9, 10, 11, 12} := by decide
  rw [daysInYear, yearLength, months]
  by_cases leap : IsLeap year <;> simp [is_leap_year_iff, monthLength, leap]

/-- The calendar repeats every four hundred years. -/
theorem days_in_year_add (year : Nat) : daysInYear (year + 400) = daysInYear year := by
  have same : isLeapYear (year + 400) = isLeapYear year := by
    rw [Bool.eq_iff_iff, is_leap_year_iff, is_leap_year_iff, IsLeap, IsLeap]
    omega
  rw [daysInYear, daysInYear, same]

theorem days_of_cycle (start : Nat) :
    ∑ year ∈ Ico start (start + 400), daysInYear year = Moment.cycleDays := by
  induction start with
  | zero => decide +kernel
  | succ start induction =>
      have bottom := Finset.sum_eq_sum_Ico_succ_bot (show start < start + 400 by omega) daysInYear
      have top := Finset.sum_Ico_succ_top (show start + 1 ≤ start + 400 by omega) daysInYear
      rw [days_in_year_add] at top
      rw [show start + 1 + 400 = start + 400 + 1 by omega]
      omega

theorem days_of_cycles (count : Nat) :
    ∑ year ∈ Ico 1970 (1970 + 400 * count), daysInYear year = Moment.cycleDays * count := by
  induction count with
  | zero => simp
  | succ count induction =>
      have cycle := days_of_cycle (1970 + 400 * count)
      rw [show 1970 + 400 * (count + 1) = 1970 + 400 * count + 400 by omega,
        ← Finset.sum_Ico_consecutive _ (show 1970 ≤ 1970 + 400 * count by omega)
          (show 1970 + 400 * count ≤ 1970 + 400 * count + 400 by omega), induction, cycle,
        Nat.mul_succ]

/-- A day is the place in a period that is reached from the first one on. -/
structure Reaches (length : Nat → Nat) (first days period place : Nat) : Prop where
  onward : first ≤ period
  passed : (∑ past ∈ Ico first period, length past) + place = days
  within : place < length period

theorem sum_before_le (length : Nat → Nat) {first period later : Nat} (onward : first ≤ period)
    (before : period < later) :
    (∑ past ∈ Ico first period, length past) + length period ≤
      ∑ past ∈ Ico first later, length past := by
  rw [← Finset.sum_Ico_succ_top onward]
  exact Finset.sum_le_sum_of_subset (Finset.Ico_subset_Ico_right before)

namespace Reaches

variable {length : Nat → Nat} {first days period place : Nat}

theorem lt_of_period_lt {other more far : Nat} (reaches : Reaches length first days period place)
    (also : Reaches length first more other far) (before : period < other) : days < more := by
  have earlier := sum_before_le length reaches.onward before
  have passed := reaches.passed
  have further := also.passed
  have within := reaches.within
  omega

theorem unique {other far : Nat} (reaches : Reaches length first days period place)
    (also : Reaches length first days other far) : period = other ∧ place = far := by
  rcases Nat.lt_trichotomy period other with before | rfl | behind
  · exact absurd (reaches.lt_of_period_lt also before) (Nat.lt_irrefl _)
  · have passed := reaches.passed
    have further := also.passed
    exact ⟨rfl, by omega⟩
  · exact absurd (also.lt_of_period_lt reaches behind) (Nat.lt_irrefl _)

theorem prepend {start skipped : Nat} (reaches : Reaches length first days period place)
    (before : start ≤ first) (passed : ∑ past ∈ Ico start first, length past = skipped) :
    Reaches length start (skipped + days) period place where
  onward := Nat.le_trans before reaches.onward
  passed := by
    rw [← Finset.sum_Ico_consecutive _ before reaches.onward, passed, Nat.add_assoc,
      reaches.passed]
  within := reaches.within

end Reaches

end Calendar

namespace Moment

open Calendar

/-- Periods are taken off until less than one is left, if that many days are no more than all of
them. -/
theorem pass_months_reaches {length : Nat → Nat} {count first days : Nat}
    (fits : days < ∑ period ∈ Ico first (first + count), length period) :
    let result := passMonths ((List.range' first count).map length) first days
    result.1 < first + count ∧ Reaches length first days result.1 result.2 := by
  induction count generalizing first days with
  | zero => simp at fits
  | succ count induction =>
      rw [Finset.sum_eq_sum_Ico_succ_bot (by omega),
        show first + (count + 1) = first + 1 + count by omega] at fits
      simp only [List.range'_succ, List.map_cons, passMonths]
      split
      · rename_i short
        exact ⟨by omega, Nat.le_refl _, by simp, short⟩
      · rename_i long
        have rest : days - length first <
            ∑ period ∈ Ico (first + 1) (first + 1 + count), length period := by omega
        obtain ⟨bound, reaches⟩ := induction rest
        have whole := reaches.prepend (Nat.le_succ first) (Nat.Ico_succ_singleton first ▸
          Finset.sum_singleton length first)
        rw [Nat.add_sub_of_le (Nat.le_of_not_lt long)] at whole
        exact ⟨by omega, whole⟩

theorem pass_years_eq (limit year days : Nat) :
    passYears limit year days =
      passMonths ((List.range' year limit).map daysInYear) year days := by
  induction limit generalizing year days with
  | zero => rfl
  | succ limit induction =>
      simp only [passYears, List.range'_succ, List.map_cons, passMonths, induction]

theorem year_of_day_reaches (days : Nat) :
    Reaches daysInYear 1970 days (yearOfDay days).1 (yearOfDay days).2 := by
  have short : days % cycleDays < cycleDays := Nat.mod_lt _ (by decide)
  have fits := short.trans_eq (days_of_cycle (1970 + 400 * (days / cycleDays))).symm
  have whole := (pass_months_reaches fits).2.prepend (Nat.le_add_right _ _)
    (days_of_cycles (days / cycleDays))
  rwa [Nat.div_add_mod, ← pass_years_eq] at whole

theorem year_of_day_eq_pass_years {days limit : Nat} (enough : days < limit) :
    yearOfDay days = passYears limit 1970 days := by
  have fits : days < ∑ year ∈ Ico 1970 (1970 + limit), daysInYear year := by
    have each : ∑ _year ∈ Ico 1970 (1970 + limit), 1 ≤
        ∑ year ∈ Ico 1970 (1970 + limit), daysInYear year :=
      Finset.sum_le_sum fun year _ => by unfold daysInYear; split <;> decide
    rw [← Finset.card_eq_sum_ones, Nat.card_Ico] at each
    omega
  have reaches := (pass_months_reaches fits).2
  rw [← pass_years_eq] at reaches
  obtain ⟨year, day⟩ := (year_of_day_reaches days).unique reaches
  exact Prod.ext year day

theorem month_of_day_reaches {year day : Nat} (within : day < daysInYear year) :
    let result := passMonths (monthLengths year) 1 day
    result.1 ≤ 12 ∧ Reaches (monthLength year) 1 day result.1 result.2 := by
  rw [days_in_year_eq] at within
  rw [month_lengths_eq]
  have months : day < ∑ month ∈ Ico 1 (1 + 12), monthLength year month := within
  obtain ⟨bound, reaches⟩ := pass_months_reaches months
  exact ⟨by omega, reaches⟩

/-- A day that the calendar has, from 1970 on, and a time of day. -/
structure Valid (moment : Moment) : Prop where
  year : 1970 ≤ moment.year
  month : 1 ≤ moment.month ∧ moment.month ≤ 12
  day : 1 ≤ moment.day ∧ moment.day ≤ monthLength moment.year moment.month
  hour : moment.hour < 24
  minute : moment.minute < 60
  second : moment.second < 60

/-- The days in front of the first day of the month, in the year. -/
def daysBeforeMonth (moment : Moment) : Nat :=
  ∑ month ∈ Ico 1 moment.month, monthLength moment.year month

/-- The days from the first of January 1970 to the date. -/
def daysSince1970 (moment : Moment) : Nat :=
  (∑ year ∈ Ico 1970 moment.year, yearLength year) + moment.daysBeforeMonth + (moment.day - 1)

def secondOfDay (moment : Moment) : Nat :=
  3600 * moment.hour + 60 * moment.minute + moment.second

def secondsSince1970 (moment : Moment) : Nat :=
  moment.daysSince1970 * 86400 + moment.secondOfDay

/-- From the year down to the second, as moments are compared. -/
def fields (moment : Moment) : List Nat :=
  [moment.year, moment.month, moment.day, moment.hour, moment.minute, moment.second]

theorem of_seconds_valid (seconds : Nat) : (ofSeconds seconds).Valid ∧
    (ofSeconds seconds).secondsSince1970 = seconds := by
  have year := year_of_day_reaches (seconds / 86400)
  obtain ⟨bound, month⟩ := month_of_day_reaches year.within
  have passed := year.passed
  simp only [days_in_year_eq] at passed
  have days : (ofSeconds seconds).daysSince1970 = seconds / 86400 := by
    have inside := month.passed
    simp only [ofSeconds, daysSince1970, daysBeforeMonth]
    omega
  refine ⟨⟨year.onward, ⟨month.onward, bound⟩, ⟨Nat.succ_pos _, month.within⟩, ?_, ?_, ?_⟩, ?_⟩
  · simp only [ofSeconds]
    omega
  · simp only [ofSeconds]
    omega
  · simp only [ofSeconds]
    omega
  · rw [secondsSince1970, days]
    simp only [secondOfDay, ofSeconds]
    omega

namespace Valid

variable {first second : Moment} (valid : first.Valid)

include valid

theorem month_reaches :
    Reaches (monthLength first.year) 1 (first.daysBeforeMonth + (first.day - 1)) first.month
      (first.day - 1) :=
  ⟨valid.month.1, rfl, by have day := valid.day; omega⟩

theorem year_reaches :
    Reaches yearLength 1970 first.daysSince1970 first.year
      (first.daysBeforeMonth + (first.day - 1)) := by
  refine ⟨valid.year, (Nat.add_assoc _ _ _).symm, ?_⟩
  have months := sum_before_le (monthLength first.year) valid.month.1
    (Nat.lt_succ_of_le valid.month.2)
  have day := valid.day
  change first.daysBeforeMonth + _ ≤ yearLength first.year at months
  omega

theorem second_of_day_lt : first.secondOfDay < 86400 := by
  have hour := valid.hour
  have minute := valid.minute
  have second := valid.second
  rw [secondOfDay]
  omega

theorem days_lt_of_year_lt (also : second.Valid) (before : first.year < second.year) :
    first.daysSince1970 < second.daysSince1970 :=
  valid.year_reaches.lt_of_period_lt also.year_reaches before

theorem days_lt_of_month_lt (also : second.Valid) (same : first.year = second.year)
    (before : first.month < second.month) : first.daysSince1970 < second.daysSince1970 := by
  have reaches := also.month_reaches
  rw [← same] at reaches
  have earlier := valid.month_reaches.lt_of_period_lt reaches before
  simp only [daysSince1970, same]
  omega

theorem seconds_lt_of_fields_lt (also : second.Valid) (before : first.fields < second.fields) :
    first.secondsSince1970 < second.secondsSince1970 := by
  have ofDays (days : first.daysSince1970 < second.daysSince1970) :
      first.secondsSince1970 < second.secondsSince1970 := by
    have time := valid.second_of_day_lt
    rw [secondsSince1970, secondsSince1970]
    omega
  simp only [fields, List.cons_lt_cons_iff, List.not_lt_nil, and_false, or_false] at before
  rcases before with year | ⟨sameYear, before⟩
  · exact ofDays (valid.days_lt_of_year_lt also year)
  rcases before with month | ⟨sameMonth, before⟩
  · exact ofDays (valid.days_lt_of_month_lt also sameYear month)
  have months : first.daysBeforeMonth = second.daysBeforeMonth := by
    rw [daysBeforeMonth, daysBeforeMonth, sameYear, sameMonth]
  rcases before with day | ⟨sameDay, before⟩
  · have positive := valid.day.1
    refine ofDays ?_
    simp only [daysSince1970, sameYear, months]
    omega
  have days : first.daysSince1970 = second.daysSince1970 := by
    simp only [daysSince1970, sameYear, months, sameDay]
  have minutes := valid.minute
  have seconds := valid.second
  rw [secondsSince1970, secondsSince1970, days, secondOfDay, secondOfDay]
  omega

end Valid

theorem eq_of_fields {first second : Moment} (same : first.fields = second.fields) :
    first = second := by
  cases first
  cases second
  simpa [fields] using same

theorem Valid.fields_lt_of_seconds_lt {first second : Moment} (valid : first.Valid)
    (also : second.Valid) (before : first.secondsSince1970 < second.secondsSince1970) :
    first.fields < second.fields := by
  rcases lt_trichotomy first.fields second.fields with less | same | greater
  · exact less
  · rw [eq_of_fields same] at before
    exact absurd before (Nat.lt_irrefl _)
  · have behind := also.seconds_lt_of_fields_lt valid greater
    exact absurd before (Nat.lt_asymm behind)

end Moment

/-- The digits of a number, with as many zeros in front as are missing to a width. -/
structure PaddedNumeral (width : Nat) (digits : List Char) (value : Nat) : Prop where
  numeral : Numeral 10 digits value
  wide : width ≤ digits.length
  exact : width < digits.length → digits.head? ≠ some '0'

theorem Numeral.single {value : Nat} (small : value < 10) :
    Numeral 10 [Nat.digitChar value] value := by
  rw [← natural_eq_some_iff]
  revert value
  decide

theorem Numeral.to_digits (value : Nat) : Numeral 10 (Nat.toDigits 10 value) value := by
  induction value using Nat.strongRecOn with
  | ind value induction =>
      by_cases small : value < 10
      · rw [Nat.toDigits_of_lt_base small]
        exact .single small
      · have front := induction (value / 10) (by omega)
        have whole := front.append (.single (Nat.mod_lt value (by decide)))
        rw [Nat.toDigits_of_base_le (by decide) (by omega)]
        simpa [Nat.div_add_mod'] using whole

theorem to_digits_head {value : Nat} (positive : 0 < value) :
    (Nat.toDigits 10 value).head? ≠ some '0' := by
  induction value using Nat.strongRecOn with
  | ind value induction =>
      by_cases small : value < 10
      · have cases : ∀ digit < 10, 0 < digit → [Nat.digitChar digit].head? ≠ some '0' := by decide
        rw [Nat.toDigits_of_lt_base small]
        exact cases value small positive
      · have front := induction (value / 10) (by omega) (by omega)
        rw [Nat.toDigits_of_base_le (by decide) (by omega), List.head?_append_of_ne_nil]
        · exact front
        · exact (Numeral.to_digits (value / 10)).nonempty

theorem Numeral.zeros {digits : List Char} {value : Nat} (numeral : Numeral 10 digits value)
    (count : Nat) : Numeral 10 (List.replicate count '0' ++ digits) value := by
  induction count with
  | zero => exact numeral
  | succ count induction =>
      have zero : Numeral 10 [Nat.digitChar 0] 0 := .single (by decide)
      have whole := zero.append induction
      rw [Nat.zero_mul, Nat.zero_add] at whole
      exact whole

namespace Moment

theorem padded_numeral {width : Nat} (positive : 0 < width) (number : Nat) :
    PaddedNumeral width (padded width number).toList number := by
  have digits : (padded width number).toList =
      List.replicate (width - (Nat.toDigits 10 number).length) '0' ++ Nat.toDigits 10 number := by
    simp [padded, Nat.toString_eq_repr, Nat.toList_repr, ← String.length_toList]
  rw [digits]
  refine ⟨(Numeral.to_digits number).zeros _, ?_, fun wider => ?_⟩
  · simp only [List.length_append, List.length_replicate]
    omega
  · simp only [List.length_append, List.length_replicate] at wider
    have none : width - (Nat.toDigits 10 number).length = 0 := by omega
    rw [none, List.replicate_zero, List.nil_append]
    refine to_digits_head (Nat.pos_of_ne_zero ?_)
    rintro rfl
    rw [Nat.toDigits_of_lt_base (by decide)] at none wider
    simp only [List.length_singleton] at none wider
    omega

/-- The text writes a moment as a date and a time of day. -/
def Shows (text : String) (moment : Moment) : Prop :=
  ∃ year month day hour minute second : List Char,
    text.toList = year ++ '-' :: (month ++ '-' :: (day ++ ' ' ::
      (hour ++ ':' :: (minute ++ ':' :: second)))) ∧
    PaddedNumeral 4 year moment.year ∧ PaddedNumeral 2 month moment.month ∧
    PaddedNumeral 2 day moment.day ∧ PaddedNumeral 2 hour moment.hour ∧
    PaddedNumeral 2 minute moment.minute ∧ PaddedNumeral 2 second moment.second

theorem shows_text (moment : Moment) : Shows moment.text moment := by
  refine ⟨_, _, _, _, _, _, ?_, padded_numeral (by decide) _, padded_numeral (by decide) _,
    padded_numeral (by decide) _, padded_numeral (by decide) _, padded_numeral (by decide) _,
    padded_numeral (by decide) _⟩
  simp [text, String.toList_append]

theorem number_split {first second rest others : List Char} {mark : Char} {value other : Nat}
    (digits : Numeral 10 first value) (also : Numeral 10 second other)
    (apart : mark.isDigit = false) (same : first ++ mark :: rest = second ++ mark :: others) :
    value = other ∧ rest = others := by
  have stops (back : List Char) : ∀ char ∈ (mark :: back).head?, char.isDigit = false := by
    simpa using apart
  have left := Text.take_word digits.digits (stops rest)
  have right := Text.take_word also.digits (stops others)
  rw [same] at left
  obtain rfl : first = second := left.1.symm.trans right.1
  have behind := left.2.symm.trans right.2
  exact ⟨digits.unique also, (List.cons.inj behind).2⟩

theorem shows_unique {text : String} {first second : Moment} (shows : Shows text first)
    (also : Shows text second) : first = second := by
  obtain ⟨_, _, _, _, _, _, written, year, month, day, hour, minute, last⟩ := shows
  obtain ⟨_, _, _, _, _, _, again, year', month', day', hour', minute', last'⟩ := also
  obtain ⟨sameYear, rest⟩ := number_split year.numeral year'.numeral rfl (written.symm.trans again)
  obtain ⟨sameMonth, rest⟩ := number_split month.numeral month'.numeral rfl rest
  obtain ⟨sameDay, rest⟩ := number_split day.numeral day'.numeral rfl rest
  obtain ⟨sameHour, rest⟩ := number_split hour.numeral hour'.numeral rfl rest
  obtain ⟨sameMinute, rest⟩ := number_split minute.numeral minute'.numeral rfl rest
  subst rest
  have sameSecond := last.numeral.unique last'.numeral
  refine eq_of_fields ?_
  rw [fields, fields, sameYear, sameMonth, sameDay, sameHour, sameMinute, sameSecond]

/-- The text of a number of seconds shows one moment. It is a day that the calendar has and a time of
that day, and as many seconds lie between the start of 1970 and it; so a later moment is shown with
a later date or time. -/
theorem seconds_shown_on_calendar (seconds : Nat) :
    ∃ shown : Moment, (∀ moment, Shows (ofSeconds seconds).text moment ↔ moment = shown) ∧
      shown.Valid ∧ shown.daysSince1970 * 86400 + shown.secondOfDay = seconds ∧
      ∀ later, seconds < later → ∀ moment, Shows (ofSeconds later).text moment →
        shown.fields < moment.fields := by
  have own := shows_text (ofSeconds seconds)
  obtain ⟨valid, counted⟩ := of_seconds_valid seconds
  refine ⟨ofSeconds seconds, fun moment => ⟨fun shows => shows_unique shows own, ?_⟩, valid, counted,
    ?_⟩
  · rintro rfl
    exact own
  · intro later before moment shows
    obtain ⟨also, recounted⟩ := of_seconds_valid later
    obtain rfl := shows_unique shows (shows_text (ofSeconds later))
    exact valid.fields_lt_of_seconds_lt also (by rwa [counted, recounted])

/-- The twenty-ninth of February of a century that four hundred divides, up to its last second. -/
theorem leap_day_shown :
    (ofSeconds 951868799).text = "2000-02-29 23:59:59" ∧
      (ofSeconds 951868800).text = "2000-03-01 00:00:00" ∧
      (ofSeconds 951868799).fields < (ofSeconds 951868800).fields := by
  obtain ⟨shown, unique, _, _, grows⟩ := seconds_shown_on_calendar 951868799
  obtain rfl := (unique _).mp (shows_text _)
  exact ⟨by decide +kernel, by decide +kernel, grows _ (by decide) _ (shows_text _)⟩

end Moment

end Lsl
