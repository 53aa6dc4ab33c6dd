import AutomataCi.CronSearch

/-!
# Cron expressions in UTC

An expression which matches some date matches one in each eight years: a day of
a month which exists at all exists in every leap year, and a month has every
weekday.  The search is longer than that, so it fails to find an occurrence
only for an expression which no date matches.  The times of an expression are
five minutes apart on a day and across midnight, so all its occurrences are.
-/

namespace AutomataCi

open GuardedResult TextOperations CivilCalendar

namespace CronExpression

variable {self : CronExpression}

/-- A date matches by its month, and by its weekday or its day where these are
restricted. -/
theorem matchesDate_iff (date : Date) :
    self.matchesDate date = true ↔ self.months.contains date.month = true ∧
        ((self.daysOfMonth.isUnrestricted = true ∧ self.daysOfWeek.isUnrestricted = true) ∨
          (self.daysOfWeek.isUnrestricted = false ∧ self.daysOfWeek.contains date.weekday = true) ∨
          (self.daysOfMonth.isUnrestricted = false ∧
            self.daysOfMonth.contains date.day = true)) := by
  rw [matchesDate, matchesDateComponents, Bool.and_eq_true]
  cases self.daysOfMonth.isUnrestricted <;> cases self.daysOfWeek.isUnrestricted <;> simp [or_comm]

theorem exists_matchesDate_after {date : Date} (hdate : self.matchesDate date = true) (year : Int) :
    ∃ later : Date, year < later.year ∧ later.year ≤ year + 8 ∧ self.matchesDate later = true := by
  obtain ⟨hmonth, hday⟩ := (matchesDate_iff date).mp hdate
  obtain ⟨byWeekday, hnext, hsameMonth, hweekday⟩ := exists_date_with_weekday (year + 1)
    ⟨date.one_le_month, date.month_le⟩ date.weekday_lt
  rcases hday with hall | ⟨hrestricted, hcontains⟩ | ⟨hrestricted, hcontains⟩
  · refine ⟨byWeekday, by omega, by omega, (matchesDate_iff _).mpr ?_⟩
    rw [hsameMonth]
    exact ⟨hmonth, .inl hall⟩
  · refine ⟨byWeekday, by omega, by omega, (matchesDate_iff _).mpr ?_⟩
    rw [hsameMonth, hweekday]
    exact ⟨hmonth, .inr (.inl ⟨hrestricted, hcontains⟩)⟩
  · obtain ⟨later, hlt, hle, hexists⟩ := exists_year_with_day date.day_le year
    exact ⟨⟨later, date.month, date.day, date.one_le_month, date.month_le,
      date.one_le_day, hexists⟩, hlt, hle,
      (matchesDate_iff _).mpr ⟨hmonth, .inr (.inr ⟨hrestricted, hcontains⟩)⟩⟩

theorem exists_matchesDate_of_restricted (haccepted : self.Accepted)
    (hrestricted : self.daysOfWeek.isUnrestricted = false) :
    ∃ date : Date, self.matchesDate date = true := by
  obtain ⟨month, hmonth⟩ := Field.exists_contains haccepted.months
  obtain ⟨weekday, hweekday⟩ := Field.exists_contains haccepted.daysOfWeek
  obtain ⟨hfirst, hlast, -⟩ := Field.contains_iff.mp hmonth
  obtain ⟨-, hsaturday, -⟩ := Field.contains_iff.mp hweekday
  obtain ⟨date, -, hdateMonth, hdateWeekday⟩ := exists_date_with_weekday 1970 ⟨hfirst, hlast⟩
      (show weekday < 7 from Nat.lt_succ_of_le hsaturday)
  refine ⟨date, (matchesDate_iff date).mpr ?_⟩
  rw [hdateMonth, hdateWeekday]
  exact ⟨hmonth, .inr (.inl ⟨hrestricted, hweekday⟩)⟩

section Search

variable {after : Int}

def Fits (date : Date) : Prop :=
  minimumTimestamp ≤ 86400000 * date.dayNumber ∧ 86400000 * (date.dayNumber + 1) ≤ maximumTimestamp

theorem timestampFromMillisecond_cases (instant : Int) :
    timestampFromMillisecond instant = .ok instant ∨
      timestampFromMillisecond instant = .error .timestampOutOfRange ∧
        ¬ (minimumTimestamp ≤ instant ∧ instant ≤ maximumTimestamp) := by
  by_cases hrange : minimumTimestamp ≤ instant ∧ instant ≤ maximumTimestamp
  · exact .inl (timestampFromMillisecond_eq_ok.mpr ⟨hrange.1, hrange.2, rfl⟩)
  · refine .inr ⟨?_, hrange⟩
    unfold timestampFromMillisecond
    rw [rejectIf, if_pos (by omega)]
    rfl

theorem foldlM_retainLocal_cases (date : Date) {times : List Nat}
    (htimes : ∀ time ∈ times, time < 24 * 60) (best : Option Int) :
    (∃ last, times.foldlM (fun best time =>
        retainLocal TimeZone.utc after best (civilAt date time)) best =
      .ok last) ∨
    times.foldlM (fun best time =>
        retainLocal TimeZone.utc after best (civilAt date time)) best =
      .error .timestampOutOfRange ∧ ¬ Fits date := by
  induction times generalizing best with
  | nil => exact .inl ⟨best, rfl⟩
  | cons time rest ih =>
    rw [List.forall_mem_cons] at htimes
    have hlocal : retainLocal TimeZone.utc after best (civilAt date time) = (do
          let candidate ← timestampFromMillisecond (1000 * (civilAt date time - 0))
          return retainCandidate best candidate after) := rfl
    rw [List.foldlM_cons, hlocal]
    rcases timestampFromMillisecond_cases (1000 * (civilAt date time - 0)) with hok | ⟨herror,
      hrange⟩
    · rw [hok, ok_bind, pure_bind]
      exact ih htimes.2 _
    · right
      rw [herror]
      refine ⟨rfl, fun hfits => hrange ?_⟩
      have htime := htimes.1
      unfold Fits at hfits
      unfold civilAt
      omega

theorem candidateOn_cases (date : Date) :
    (∃ best, self.candidateOn date TimeZone.utc after = .ok best) ∨
      self.candidateOn date TimeZone.utc after = .error .timestampOutOfRange ∧ ¬ Fits date := by
  unfold candidateOn
  split_ifs
  · exact foldlM_retainLocal_cases date (fun time htime => (mem_dailyTimes.mp htime).1) none
  · exact .inl ⟨none, rfl⟩

theorem dateTomorrow_cases (date : Date) :
    dateTomorrow date = .ok date.tomorrow ∨
      dateTomorrow date = .error .timestampOutOfRange ∧ ¬ Fits date := by
  by_cases hlast : date.year = 9999 ∧ date.month = 12 ∧ date.day = 31
  · refine .inr ⟨?_, ?_⟩
    · rw [dateTomorrow, rejectIf, if_pos hlast]
      rfl
    · have hnumber : date.dayNumber = 2932896 := by
        unfold Date.dayNumber
        rw [hlast.1, hlast.2.1, hlast.2.2]
        decide
      unfold Fits
      rw [hnumber]
      decide
  · left
    rw [dateTomorrow, rejectIf_of_not _ hlast]
    rfl

theorem exists_mem_candidatesOn (haccepted : self.Accepted) (date : Date) :
    ∃ instant ∈ self.candidatesOn TimeZone.utc date, 86400000 * date.dayNumber ≤ instant := by
  obtain ⟨hour, hhour⟩ := Field.exists_contains haccepted.hours
  obtain ⟨minute, hminute⟩ := Field.exists_contains haccepted.minutes
  obtain ⟨-, hhours, -⟩ := Field.contains_iff.mp hhour
  obtain ⟨-, hminutes, -⟩ := Field.contains_iff.mp hminute
  simp only [FieldKind.maximum] at hhours hminutes
  have htime : hour * 60 + minute ∈ self.dailyTimes := by
    rw [mem_dailyTimes]
    rw [show (hour * 60 + minute) / 60 = hour by omega,
      show (hour * 60 + minute) % 60 = minute by omega]
    exact ⟨by omega, hhour, hminute⟩
  refine ⟨1000 * civilAt date (hour * 60 + minute), ⟨_, htime, _, rfl, Int.add_zero _⟩, ?_⟩
  unfold civilAt
  omega

/-- A search which reaches a date that matches finds an occurrence, unless a
time stamp is wanting before. -/
theorem searchFrom_cases (haccepted : self.Accepted) {target : Date}
    (htarget : self.matchesDate target = true)
    (hafter : after < 86400000 * target.dayNumber)
    {days : Nat} {date : Date}
    (hfrom : date.dayNumber ≤ target.dayNumber)
    (hto : target.dayNumber < date.dayNumber + days) :
    (∃ result, self.searchFrom TimeZone.utc after days date = .ok result) ∨
      self.searchFrom TimeZone.utc after days date = .error .timestampOutOfRange ∧
        ∃ other : Date, date.dayNumber ≤ other.dayNumber ∧
          other.dayNumber ≤ target.dayNumber ∧ ¬ Fits other := by
  induction days generalizing date with
  | zero => omega
  | succ days ih =>
    unfold searchFrom
    have hcases : (∃ best, self.candidateOn date TimeZone.utc after = .ok best) ∨ _ :=
      candidateOn_cases date
    rcases hcases with ⟨best, hbest⟩ | ⟨herror, hfits⟩
    · rw [hbest, ok_bind]
      cases best with
      | some candidate => exact .inl ⟨candidate, rfl⟩
      | none =>
        have hbefore : date.dayNumber < target.dayNumber := by
          rcases hfrom.eq_or_lt with hsame | hlt
          · obtain ⟨instant, hmem, hle⟩ := exists_mem_candidatesOn haccepted date
            rw [Date.dayNumber_injective hsame] at hbest hmem hle
            have hnone := (scanned_candidateOn hbest htarget).least instant hmem
            omega
          · exact hlt
        simp only
        rcases dateTomorrow_cases date with hnext | ⟨herror, hfits⟩
        · rw [hnext, ok_bind]
          have hnumber := date.dayNumber_tomorrow
          have hreach : date.tomorrow.dayNumber ≤ target.dayNumber := by omega
          have hwithin : target.dayNumber < date.tomorrow.dayNumber + days := by
            push_cast at hto
            omega
          rcases ih hreach hwithin with hfound | ⟨herror, other, hlow, hhigh, hfits⟩
          · exact .inl hfound
          · exact .inr ⟨herror, other, by omega, hhigh, hfits⟩
        · rw [herror]
          exact .inr ⟨rfl, date, le_rfl, hfrom, hfits⟩
    · rw [herror]
      exact .inr ⟨rfl, date, le_rfl, hfrom, hfits⟩

end Search

section Utc

variable {database : TimeZoneDatabase} {timezone : Text}

theorem localMillis_utc (instant : Int) : TimeZone.utc.localMillis instant = instant := by
  simp [TimeZone.localMillis, TimeZone.utc]

theorem dayNumber_localDate_utc (instant : Int) :
    (TimeZone.utc.localDate instant).dayNumber = instant / 86400000 := by
  rw [TimeZone.localDate, Date.dayNumber_ofDayNumber, localMillis_utc]

/-- The search from an instant ends with an occurrence if a date matches,
unless a time stamp is wanting within nine years. -/
theorem nextAfter_cases (haccepted : self.Accepted)
    (hzone : parseTimezone database timezone = .ok TimeZone.utc)
    {date : Date} (hdate : self.matchesDate date = true) {instant : Int}
    (hlow : minimumTimestamp ≤ instant) (hhigh : instant ≤ maximumTimestamp) :
    (∃ result, self.nextAfter database instant timezone = .ok result) ∨
      self.nextAfter database instant timezone = .error .timestampOutOfRange ∧
        ∃ other : Date, instant / 86400000 ≤ other.dayNumber ∧
          other.dayNumber ≤ instant / 86400000 + 366 * 9 ∧ ¬ Fits other := by
  have hrange : timestampFromMillisecond instant = .ok instant :=
    timestampFromMillisecond_eq_ok.mpr ⟨hlow, hhigh, rfl⟩
  have hstart := dayNumber_localDate_utc instant
  obtain ⟨target, hlater, hnear, htarget⟩ :=
    exists_matchesDate_after hdate (TimeZone.utc.localDate instant).year
  have hafter := Date.dayNumber_lt_of_year_lt hlater
  have hwithin : target.dayNumber < (TimeZone.utc.localDate instant).dayNumber + 366 * 9 := by
    have hfirst := (TimeZone.utc.localDate instant).dayNumber_bounds.1
    have hlast := target.dayNumber_bounds.2
    have hyears := daysBeforeYear_mono
      (show target.year + 1 ≤ (TimeZone.utc.localDate instant).year + (9 : Nat) by push_cast; omega)
    have hlength := daysBeforeYear_add_le (TimeZone.utc.localDate instant).year 9
    push_cast at hlength hyears
    omega
  simp only [nextAfter, hzone, hrange, ok_bind]
  have hsearch :
      (∃ result, self.searchFrom TimeZone.utc instant
        maximumCalendarSearchDays (TimeZone.utc.localDate instant) = .ok result) ∨ _ :=
    searchFrom_cases haccepted htarget (by omega) hafter.le
      (by unfold maximumCalendarSearchDays; push_cast; omega)
  rcases hsearch with hfound | ⟨herror, other, hfrom, hto, hfits⟩
  · exact .inl hfound
  · exact .inr ⟨herror, other, by omega, by omega, hfits⟩

theorem dailyTime_of_matchesAt (hzone : parseTimezone database timezone = .ok TimeZone.utc)
    {instant : Int}
    (hmatches : self.matchesAt database instant timezone = .ok true) :
    ∃ time ∈ self.dailyTimes, time < 24 * 60 ∧
      instant = 86400000 * (instant / 86400000) + 60000 * time := by
  obtain ⟨-, hlocal⟩ := (matchesAt_eq_ok hzone).mp hmatches
  obtain ⟨-, hcandidate⟩ := (matchesLocal_iff instant).mp hlocal
  obtain ⟨time, htime, hday, hmillis⟩ := localMillis_of_mem_candidatesOn hcandidate
  rw [localMillis_utc, dayNumber_localDate_utc] at hmillis
  exact ⟨time, htime, hday, hmillis⟩

theorem matches_apart (haccepted : self.Accepted)
    (hzone : parseTimezone database timezone = .ok TimeZone.utc)
    {first second : Int}
    (hfirst : self.matchesAt database first timezone = .ok true)
    (hsecond : self.matchesAt database second timezone = .ok true)
    (hlt : first < second) :
    first + 5 * 60000 ≤ second := by
  obtain ⟨early, hearly, hearlyDay, hfirstTime⟩ := dailyTime_of_matchesAt hzone hfirst
  obtain ⟨late, hlate, hlateDay, hsecondTime⟩ := dailyTime_of_matchesAt hzone hsecond
  obtain ⟨hsameDay, hlaterDay⟩ := dailyTimes_apart haccepted.interval hearly hlate
  rcases lt_trichotomy (first / 86400000) (second / 86400000) with hearlier | hsame | hlater
  · omega
  · have hapart := hsameDay (by omega)
    omega
  · omega

/-- In UTC the search gives up only for an expression which no date matches:
one with days of months that never exist and unrestricted weekdays.  From an
instant more than ten years before the end of the calendar, and after its
first day, it finds an occurrence of every other expression.  Different
occurrences are at least five minutes apart. -/
theorem utc_search_complete {source : Text} (hparse : parse source = .ok self)
    (hzone : parseTimezone database timezone = .ok TimeZone.utc) :
    (∀ instant, self.nextAfter database instant timezone = .error .noFutureMatch →
      (∀ date, self.matchesDate date = false) ∧ self.daysOfWeek.isUnrestricted = true ∧
        ∀ date : Date, self.months.contains date.month = true →
          self.daysOfMonth.contains date.day = false) ∧
    (∀ instant, minimumTimestamp + 86400000 ≤ instant →
      instant + 3652 * 86400000 < maximumTimestamp →
      (∃ date, self.matchesDate date = true) →
      ∃ result, self.nextAfter database instant timezone = .ok result ∧ instant < result ∧
        self.matchesAt database result timezone = .ok true) ∧
    ∀ first second, first ≠ second → self.matchesAt database first timezone = .ok true →
      self.matchesAt database second timezone = .ok true →
      5 * 60000 ≤ |first - second| := by
  have haccepted := accepted_of_parse hparse
  refine ⟨?_, ?_, ?_⟩
  · intro instant hnone
    have hnever : ∀ date, ¬ self.matchesDate date = true := by
      intro date hdate
      rcases timestampFromMillisecond_cases instant with hok | ⟨herror, -⟩
      · obtain ⟨hlow, hhigh, -⟩ := timestampFromMillisecond_eq_ok.mp hok
        rcases nextAfter_cases haccepted hzone hdate hlow hhigh with ⟨result, hresult⟩ | ⟨herror, -⟩
        · rw [hnone] at hresult
          cases hresult
        · rw [hnone] at herror
          cases herror
      · simp only [nextAfter, hzone, ok_bind, herror] at hnone
        cases hnone
    have hweekdays : self.daysOfWeek.isUnrestricted = true := by
      rw [← Bool.not_eq_false]
      intro hrestricted
      obtain ⟨date, hdate⟩ := exists_matchesDate_of_restricted haccepted hrestricted
      exact hnever date hdate
    refine ⟨fun date => Bool.eq_false_iff.mpr (hnever date), hweekdays, ?_⟩
    intro date hmonth
    rw [← Bool.not_eq_true]
    intro hday
    refine hnever date ((matchesDate_iff date).mpr ⟨hmonth, ?_⟩)
    cases hunrestricted : self.daysOfMonth.isUnrestricted with
    | true => exact .inl ⟨rfl, hweekdays⟩
    | false => exact .inr (.inr ⟨rfl, hday⟩)
  · rintro instant hlow hhigh ⟨date, hdate⟩
    have hend : maximumTimestamp = 253402207200999 := rfl
    have hbegin : minimumTimestamp = -377705023201000 := rfl
    have hstarted : minimumTimestamp ≤ instant := by omega
    have hunfinished : instant ≤ maximumTimestamp := by omega
    rcases nextAfter_cases haccepted hzone hdate hstarted hunfinished with
      hfound | ⟨-, other, hfrom, hto, hfits⟩
    · obtain ⟨result, hresult⟩ := hfound
      obtain ⟨-, hafter, hbounded, hmatches, -⟩ := nextAfter_spec hzone hresult
      exact ⟨result, hresult, hafter, (matchesAt_eq_ok hzone).mpr ⟨⟨by omega, hbounded⟩, hmatches⟩⟩
    · refine absurd ?_ hfits
      unfold Fits
      omega
  · intro first second hne hfirst hsecond
    rcases lt_or_gt_of_ne hne with hlt | hgt
    · have hapart := matches_apart haccepted hzone hfirst hsecond hlt
      rw [abs_of_neg (by omega)]
      omega
    · have hapart := matches_apart haccepted hzone hsecond hfirst hgt
      rw [abs_of_pos (by omega)]
      omega

def leapDays : CronExpression where
  exact := "0 12 29 2 *".toList
  minutes := ⟨2 ^ 0, by decide⟩
  hours := ⟨2 ^ 12, by decide⟩
  daysOfMonth := ⟨2 ^ 28, by decide⟩
  months := ⟨2 ^ 1, by decide⟩
  daysOfWeek := halfHours.daysOfWeek

/-- After the leap day of 2096 there is a next one, eight years later. -/
theorem utc_search_complete_leapDays :
    parse "0 12 29 2 *".toList = .ok leapDays ∧
      ∃ result, leapDays.nextAfter zones 3981355200000 "UTC".toList = .ok result ∧
        3981355200000 < result ∧ leapDays.matchesAt zones result "UTC".toList = .ok true := by
  have hparse : parse "0 12 29 2 *".toList = .ok leapDays := by decide +kernel
  refine ⟨hparse, (utc_search_complete hparse parseTimezone_utc).2.1 _
    (by decide) (by decide) ⟨Date.ofDayNumber 46080, ?_⟩⟩
  decide +kernel

end Utc

end CronExpression

end AutomataCi
