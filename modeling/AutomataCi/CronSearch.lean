import AutomataCi.CronExpressions

/-!
# The next occurrence of a cron expression

An expression matches an instant by the local time of a time zone.  The search
for the next occurrence walks the local dates from that of the instant, takes
the earliest candidate of the first date which has one, and stops after some
3660 dates.

The instants which match are the candidates of their own local date.  The
search is therefore exact as long as the first occurrence is also the first by
local date.  A fold which repeats the minutes around midnight has an earlier
occurrence with a later date.
-/

namespace AutomataCi

open GuardedResult TextOperations CivilCalendar

inductive AmbiguousOffset where
  | gap (before after : Int)
  | unambiguous (offset : Int)
  | fold (before after : Int)
  deriving DecidableEq, Repr

def AmbiguousOffset.instants (civil : Int) : AmbiguousOffset → List Int
  | .gap _ _ => []
  | .unambiguous offset => [civil - offset]
  | .fold before after => [civil - before, civil - after]

/-- A time zone: the offset at every instant, in seconds, and the offsets of
every local time.  The two agree. -/
structure TimeZone where
  offset : Int → Int
  toAmbiguous : Int → AmbiguousOffset
  mem_instants : ∀ civil instant, instant ∈ (toAmbiguous civil).instants civil ↔
      instant + offset instant = civil

namespace TimeZone

def utc : TimeZone where
  offset := fun _ => 0
  toAmbiguous := fun _ => .unambiguous 0
  mem_instants := by
    intro civil instant
    simp [AmbiguousOffset.instants]

def withTransition (transition before after : Int) : TimeZone where
  offset := fun instant => if instant < transition then before else after
  toAmbiguous := fun civil =>
    if civil - before < transition then
      if transition ≤ civil - after then .fold before after
      else .unambiguous before
    else if transition ≤ civil - after then .unambiguous after
    else .gap before after
  mem_instants := by
    intro civil instant
    split_ifs <;> simp only [AmbiguousOffset.instants, List.mem_cons,
      List.not_mem_nil, or_false, false_iff] <;> omega

section LocalTime

variable (zone : TimeZone) (instant : Int)

def localMillis : Int :=
  instant + 1000 * zone.offset (instant / 1000)

def localDate : Date :=
  Date.ofDayNumber (zone.localMillis instant / 86400000)

def localHour : Nat :=
  (zone.localMillis instant / 3600000 % 24).toNat

def localMinute : Nat :=
  (zone.localMillis instant / 60000 % 60).toNat

def onWholeMinute : Bool :=
  decide (zone.localMillis instant / 1000 % 60 = 0) && decide (zone.localMillis instant % 1000 = 0)

/-- The local dates of a zone never go back. -/
def DatesAscend : Prop :=
  Monotone fun instant => (zone.localDate instant).dayNumber

end LocalTime

end TimeZone

abbrev TimeZoneDatabase :=
  Text → Option TimeZone

def isAsciiControl (character : Char) : Bool :=
  decide (character.toNat < 0x20) || decide (character.toNat = 0x7f)

def parseTimezone (database : TimeZoneDatabase) (source : Text) :
    Except ScheduleError TimeZone := do
  rejectIf (source = [] ∨ maxIanaTimezoneBytes < (utf8Bytes source).length ∨ trim source ≠ source ∨
      (source.all fun character => character.toNat < 128) = false ∨
      source.any isAsciiControl = true)
    .invalidTimezone
  okOr (database source) .invalidTimezone

def minimumTimestamp : Int :=
  -377705023201000

def maximumTimestamp : Int :=
  253402207200999

def timestampFromMillisecond (instant : Int) : Except ScheduleError Int := do
  rejectIf (instant < minimumTimestamp ∨ maximumTimestamp < instant) .timestampOutOfRange
  return instant

def civilAt (date : Date) (time : Nat) : Int :=
  86400 * date.dayNumber + 60 * time

def dateTomorrow (date : Date) : Except ScheduleError Date := do
  rejectIf (date.year = 9999 ∧ date.month = 12 ∧ date.day = 31) .timestampOutOfRange
  return date.tomorrow

def retainCandidate (best : Option Int) (candidate after : Int) : Option Int :=
  if after < candidate ∧ (best.all fun current => candidate < current) = true
  then some candidate
  else best

def maximumCalendarSearchDays : Nat :=
  3660

namespace CronExpression

variable (self : CronExpression) (database : TimeZoneDatabase)

def matchesLocal (zone : TimeZone) (instant : Int) : Bool :=
  zone.onWholeMinute instant &&
    self.matchesComponents (zone.localMinute instant) (zone.localHour instant)
      (zone.localDate instant).day (zone.localDate instant).month
      (zone.localDate instant).weekday

def matchesAt (instant : Int) (timezone : Text) : Except ScheduleError Bool := do
  let zone ← parseTimezone database timezone
  let timestamp ← timestampFromMillisecond instant
  return self.matchesLocal zone timestamp

/-- The instants of one local time, among the candidates. -/
def retainLocal (zone : TimeZone) (after : Int) (best : Option Int)
    (civil : Int) : Except ScheduleError (Option Int) :=
  match zone.toAmbiguous civil with
  | .gap _ _ => .ok best
  | .unambiguous offset => do
      let candidate ← timestampFromMillisecond (1000 * (civil - offset))
      return retainCandidate best candidate after
  | .fold before afterOffset => do
      let earlier ← timestampFromMillisecond (1000 * (civil - before))
      let later ← timestampFromMillisecond (1000 * (civil - afterOffset))
      return retainCandidate (retainCandidate best earlier after) later after

def firstCandidateOn (date : Date) (zone : TimeZone) (after : Int) :
    Except ScheduleError (Option Int) :=
  self.dailyTimes.foldlM (fun best time => retainLocal zone after best (civilAt date time)) none

def candidateOn (date : Date) (zone : TimeZone) (after : Int) : Except ScheduleError (Option Int) :=
  if self.matchesDate date then self.firstCandidateOn date zone after
  else .ok none

def searchFrom (zone : TimeZone) (after : Int) : Nat → Date → Except ScheduleError Int
  | 0, _ => .error .noFutureMatch
  | days + 1, date => do
      let candidate ← self.candidateOn date zone after
      match candidate with
      | some candidate => return candidate
      | none =>
        let next ← dateTomorrow date
        searchFrom zone after days next

def nextAfter (instant : Int) (timezone : Text) : Except ScheduleError Int := do
  let zone ← parseTimezone database timezone
  let timestamp ← timestampFromMillisecond instant
  self.searchFrom zone timestamp maximumCalendarSearchDays (zone.localDate timestamp)

end CronExpression

def LeastAbove (after : Int) (candidates : Set Int) : Option Int → Prop
  | none => ∀ candidate ∈ candidates, candidate ≤ after
  | some best => best ∈ candidates ∧ after < best ∧
      ∀ candidate ∈ candidates, after < candidate → best ≤ candidate

variable {candidates : Set Int} {best : Option Int}

theorem leastAbove_retainCandidate {after : Int} (hbest : LeastAbove after candidates best)
    (candidate : Int) :
    LeastAbove after (insert candidate candidates) (retainCandidate best candidate after) := by
  unfold retainCandidate
  cases best with
  | none =>
    by_cases hafter : after < candidate
    · rw [if_pos ⟨hafter, rfl⟩]
      refine ⟨Set.mem_insert _ _, hafter, ?_⟩
      rintro other (rfl | hother) habove
      · exact le_rfl
      · have hold := hbest other hother
        omega
    · rw [if_neg fun hboth => hafter hboth.1]
      rintro other (rfl | hother)
      · exact Int.not_lt.mp hafter
      · exact hbest other hother
  | some current =>
    obtain ⟨hmem, habove, hleast⟩ := hbest
    by_cases hbetter : after < candidate ∧ candidate < current
    · rw [if_pos ⟨hbetter.1, by simp [hbetter.2]⟩]
      refine ⟨Set.mem_insert _ _, hbetter.1, ?_⟩
      rintro other (rfl | hother) hother'
      · exact le_rfl
      · have hold := hleast other hother hother'
        omega
    · rw [if_neg (by simpa using hbetter)]
      refine ⟨Set.mem_insert_of_mem _ hmem, habove, ?_⟩
      rintro other (rfl | hother) hother'
      · omega
      · exact hleast other hother hother'

/-- The candidates so far, which all have a time stamp, and the least one after
an instant. -/
structure Scanned (after : Int) (candidates : Set Int) (best : Option Int) :
    Prop where
  inRange : ∀ candidate ∈ candidates, minimumTimestamp ≤ candidate ∧ candidate ≤ maximumTimestamp
  least : LeastAbove after candidates best

theorem scanned_empty (after : Int) : Scanned after ∅ none := by
  constructor
  · intro candidate hcandidate
    exact absurd hcandidate (Set.notMem_empty candidate)
  · intro candidate hcandidate
    exact absurd hcandidate (Set.notMem_empty candidate)

theorem Scanned.retainCandidate {after candidate : Int} (hscanned : Scanned after candidates best)
    (hlow : minimumTimestamp ≤ candidate) (hhigh : candidate ≤ maximumTimestamp) :
    Scanned after (insert candidate candidates) (retainCandidate best candidate after) := by
  constructor
  · rintro other (rfl | hother)
    · exact ⟨hlow, hhigh⟩
    · exact hscanned.inRange other hother
  · exact leastAbove_retainCandidate hscanned.least candidate

def instantsAt (zone : TimeZone) (civil : Int) : Set Int :=
  { instant | ∃ second, instant = 1000 * second ∧ second + zone.offset second = civil }

theorem timestampFromMillisecond_eq_ok {instant timestamp : Int} :
    timestampFromMillisecond instant = .ok timestamp ↔
      minimumTimestamp ≤ instant ∧ instant ≤ maximumTimestamp ∧ timestamp = instant := by
  simp only [timestampFromMillisecond, bind_eq_ok, rejectIf_eq_ok, pure_eq_ok, not_or, Int.not_lt]
  constructor
  · rintro ⟨_, ⟨hlow, hhigh⟩, hsame⟩
    exact ⟨hlow, hhigh, hsame.symm⟩
  · rintro ⟨hlow, hhigh, hsame⟩
    exact ⟨(), ⟨hlow, hhigh⟩, hsame.symm⟩

namespace CronExpression

variable {self : CronExpression} {zone : TimeZone} {after : Int}

theorem instantsAt_of_toAmbiguous (zone : TimeZone) (civil : Int) :
    instantsAt zone civil = { instant | ∃ second ∈ (zone.toAmbiguous civil).instants civil,
          instant = 1000 * second } := by
  ext instant
  simp only [instantsAt, Set.mem_ofPred_eq, zone.mem_instants]
  constructor
  · rintro ⟨second, hinstant, hcivil⟩
    exact ⟨second, hcivil, hinstant⟩
  · rintro ⟨second, hcivil, hinstant⟩
    exact ⟨second, hinstant, hcivil⟩

variable {candidates : Set Int} {best : Option Int} {date : Date}

theorem scanned_retainLocal {next : Option Int} {civil : Int}
    (hbest : Scanned after candidates best)
    (hretain : retainLocal zone after best civil = .ok next) :
    Scanned after (candidates ∪ instantsAt zone civil) next := by
  rw [instantsAt_of_toAmbiguous]
  unfold retainLocal at hretain
  cases hambiguous : zone.toAmbiguous civil with
  | gap before afterOffset =>
    rw [hambiguous] at hretain
    cases hretain
    have hnone : { instant : Int | ∃ second ∈
        (AmbiguousOffset.gap before afterOffset).instants civil,
          instant = 1000 * second } = ∅ := by
      ext instant
      simp [AmbiguousOffset.instants]
    rw [hnone, Set.union_empty]
    exact hbest
  | unambiguous offset =>
    rw [hambiguous] at hretain
    simp only [bind_eq_ok, timestampFromMillisecond_eq_ok, pure_eq_ok] at hretain
    obtain ⟨_, ⟨hlow, hhigh, rfl⟩, rfl⟩ := hretain
    have hone : { instant : Int | ∃ second ∈
        (AmbiguousOffset.unambiguous offset).instants civil,
          instant = 1000 * second } = {1000 * (civil - offset)} := by
      ext instant
      simp [AmbiguousOffset.instants]
    rw [hone, Set.union_singleton]
    exact hbest.retainCandidate hlow hhigh
  | fold before afterOffset =>
    rw [hambiguous] at hretain
    simp only [bind_eq_ok, timestampFromMillisecond_eq_ok, pure_eq_ok] at hretain
    obtain ⟨_, ⟨hlow, hhigh, rfl⟩, _, ⟨hlow', hhigh', rfl⟩, rfl⟩ := hretain
    have htwo : candidates ∪ { instant : Int | ∃ second ∈
        (AmbiguousOffset.fold before afterOffset).instants civil,
          instant = 1000 * second } =
        insert (1000 * (civil - afterOffset)) (insert (1000 * (civil - before)) candidates) := by
      ext instant
      simp only [AmbiguousOffset.instants, List.mem_cons, List.not_mem_nil, or_false,
        exists_eq_or_imp, exists_eq_left, Set.mem_union, Set.mem_ofPred_eq, Set.mem_insert_iff]
      tauto
    rw [htwo]
    exact (hbest.retainCandidate hlow hhigh).retainCandidate hlow' hhigh'

def candidatesOn (self : CronExpression) (zone : TimeZone) (date : Date) : Set Int :=
  { instant | ∃ time ∈ self.dailyTimes,
      instant ∈ instantsAt zone (civilAt date time) }

theorem scanned_foldlM {last : Option Int} {times : List Nat}
    (hbest : Scanned after candidates best)
    (hfold : times.foldlM (fun best time => retainLocal zone after best (civilAt date time))
      best = .ok last) :
    Scanned after (candidates ∪ { instant | ∃ time ∈ times,
      instant ∈ instantsAt zone (civilAt date time) }) last := by
  induction times generalizing candidates best with
  | nil =>
    cases hfold
    simpa using hbest
  | cons time rest ih =>
    rw [List.foldlM_cons, bind_eq_ok] at hfold
    obtain ⟨next, hnext, hrest⟩ := hfold
    have hall := ih (scanned_retainLocal hbest hnext) hrest
    have hset : candidates ∪ { instant | ∃ other ∈ time :: rest,
          instant ∈ instantsAt zone (civilAt date other) } =
        candidates ∪ instantsAt zone (civilAt date time) ∪
          { instant | ∃ other ∈ rest,
            instant ∈ instantsAt zone (civilAt date other) } := by
      ext instant
      simp only [List.mem_cons, exists_eq_or_imp, Set.mem_union, Set.mem_ofPred_eq, or_assoc]
    rw [hset]
    exact hall

theorem scanned_firstCandidateOn (hfirst : self.firstCandidateOn date zone after = .ok best) :
    Scanned after (self.candidatesOn zone date) best := by
  have hall := scanned_foldlM (scanned_empty after) hfirst
  rw [Set.empty_union] at hall
  exact hall

theorem localMillis_of_mem_candidatesOn {instant : Int}
    (hinstant : instant ∈ self.candidatesOn zone date) :
    ∃ time ∈ self.dailyTimes, time < 24 * 60 ∧
      zone.localMillis instant = 86400000 * date.dayNumber + 60000 * time := by
  obtain ⟨time, htime, second, hsecond, hcivil⟩ := hinstant
  refine ⟨time, htime, (mem_dailyTimes.mp htime).1, ?_⟩
  have hdiv : instant / 1000 = second := by omega
  unfold civilAt at hcivil
  unfold TimeZone.localMillis
  rw [hdiv]
  omega

theorem localDate_of_mem_candidatesOn {instant : Int}
    (hinstant : instant ∈ self.candidatesOn zone date) : zone.localDate instant = date := by
  obtain ⟨time, -, htime, hlocal⟩ := localMillis_of_mem_candidatesOn hinstant
  have hday : zone.localMillis instant / 86400000 = date.dayNumber := by omega
  rw [TimeZone.localDate, hday, Date.ofDayNumber_dayNumber]

theorem matchesLocal_iff (instant : Int) :
    self.matchesLocal zone instant = true ↔ self.matchesDate (zone.localDate instant) = true ∧
        instant ∈ self.candidatesOn zone (zone.localDate instant) := by
  simp only [matchesLocal, matchesComponents, TimeZone.onWholeMinute,
    Bool.and_eq_true, decide_eq_true_eq]
  constructor
  · rintro ⟨⟨hsecond, hmillis⟩, ⟨hminute, hhour⟩, hdate⟩
    refine ⟨hdate, zone.localHour instant * 60 + zone.localMinute instant, ?_,
      instant / 1000, ?_, ?_⟩
    · have hminutes : zone.localMinute instant < 60 := by
        unfold TimeZone.localMinute
        omega
      have hhours : zone.localHour instant < 24 := by
        unfold TimeZone.localHour
        omega
      rw [mem_dailyTimes]
      rw [show (zone.localHour instant * 60 + zone.localMinute instant) / 60 =
          zone.localHour instant by omega,
        show (zone.localHour instant * 60 + zone.localMinute instant) % 60 =
          zone.localMinute instant by omega]
      exact ⟨by omega, hhour, hminute⟩
    · unfold TimeZone.localMillis at hmillis
      omega
    · rw [civilAt, TimeZone.localDate, Date.dayNumber_ofDayNumber]
      have hlocal : zone.localMillis instant = instant + 1000 * zone.offset (instant / 1000) := rfl
      unfold TimeZone.localHour TimeZone.localMinute
      push_cast
      omega
  · rintro ⟨hdate, hcandidate⟩
    obtain ⟨time, htime, hday, hlocal⟩ := localMillis_of_mem_candidatesOn hcandidate
    obtain ⟨-, hhour, hminute⟩ := mem_dailyTimes.mp htime
    have hhours : zone.localHour instant = time / 60 := by
      unfold TimeZone.localHour
      omega
    have hminutes : zone.localMinute instant = time % 60 := by
      unfold TimeZone.localMinute
      omega
    rw [hhours, hminutes]
    exact ⟨⟨by omega, by omega⟩, ⟨hminute, hhour⟩, hdate⟩

theorem scanned_candidateOn (hcandidate : self.candidateOn date zone after = .ok best)
    (hdate : self.matchesDate date = true) : Scanned after (self.candidatesOn zone date) best := by
  rw [candidateOn, if_pos hdate] at hcandidate
  exact scanned_firstCandidateOn hcandidate

/-- The search ends at the least candidate of a date which the expression
matches, and no date before it has a candidate. -/
theorem searchFrom_eq_ok {days : Nat} {result : Int}
    (hsearch : self.searchFrom zone after days date = .ok result) :
    ∃ last : Date, date.dayNumber ≤ last.dayNumber ∧ self.matchesDate last = true ∧
      Scanned after (self.candidatesOn zone last) (some result) ∧
      ∀ other : Date, date.dayNumber ≤ other.dayNumber → other.dayNumber < last.dayNumber →
        self.matchesDate other = true →
        Scanned after (self.candidatesOn zone other) none := by
  induction days generalizing date with
  | zero => cases hsearch
  | succ days ih =>
    rw [searchFrom, bind_eq_ok] at hsearch
    obtain ⟨candidate, hcandidate, hrest⟩ := hsearch
    cases candidate with
    | some =>
      cases hrest
      have hdate : self.matchesDate date = true := by
        by_contra hnot
        rw [candidateOn, if_neg hnot] at hcandidate
        cases hcandidate
      exact ⟨date, le_rfl, hdate, scanned_candidateOn hcandidate hdate,
        fun other hfrom hbefore => by omega⟩
    | none =>
      simp only [bind_eq_ok, dateTomorrow, rejectIf_eq_ok, pure_eq_ok] at hrest
      obtain ⟨_, ⟨_, -, rfl⟩, hsearch⟩ := hrest
      obtain ⟨last, hlast, hdate, hleast, hbefore⟩ := ih hsearch
      rw [Date.dayNumber_tomorrow] at hlast hbefore
      refine ⟨last, by omega, hdate, hleast, ?_⟩
      intro other hfrom hto hother
      rcases hfrom.eq_or_lt with hsame | hlater
      · have hdate : date = other := Date.dayNumber_injective hsame
        subst hdate
        exact scanned_candidateOn hcandidate hother
      · exact hbefore other (by omega) hto hother

section NextAfter

variable {database : TimeZoneDatabase} {timezone : Text}
  {instant result : Int}

theorem matchesAt_eq_ok (hzone : parseTimezone database timezone = .ok zone) {matching : Bool} :
    self.matchesAt database instant timezone = .ok matching ↔
      (minimumTimestamp ≤ instant ∧ instant ≤ maximumTimestamp) ∧
        self.matchesLocal zone instant = matching := by
  simp only [matchesAt, hzone, ok_bind, bind_eq_ok, timestampFromMillisecond_eq_ok, pure_eq_ok]
  constructor
  · rintro ⟨_, ⟨hlow, hhigh, rfl⟩, hmatching⟩
    exact ⟨⟨hlow, hhigh⟩, hmatching⟩
  · rintro ⟨⟨hlow, hhigh⟩, hmatching⟩
    exact ⟨instant, ⟨hlow, hhigh, rfl⟩, hmatching⟩

/-- What the search finds: a match after the instant, on the first date from that
of the instant on which has one, and the least of this date. -/
theorem nextAfter_spec (hzone : parseTimezone database timezone = .ok zone)
    (hnext : self.nextAfter database instant timezone = .ok result) :
    minimumTimestamp ≤ instant ∧ instant < result ∧ result ≤ maximumTimestamp ∧
      self.matchesLocal zone result = true ∧
      (zone.localDate instant).dayNumber ≤ (zone.localDate result).dayNumber ∧
      ∀ other, instant < other → self.matchesLocal zone other = true →
        (zone.localDate instant).dayNumber ≤ (zone.localDate other).dayNumber →
        (zone.localDate result).dayNumber ≤ (zone.localDate other).dayNumber ∧
          ((zone.localDate other).dayNumber ≤ (zone.localDate result).dayNumber →
            result ≤ other) := by
  simp only [nextAfter, hzone, ok_bind, bind_eq_ok, timestampFromMillisecond_eq_ok] at hnext
  obtain ⟨_, ⟨hlow, -, rfl⟩, hsearch⟩ := hnext
  obtain ⟨last, hlast, hdate, hscanned, hbefore⟩ := searchFrom_eq_ok hsearch
  obtain ⟨hmem, hafter, hleast⟩ := hscanned.least
  have hlocal := localDate_of_mem_candidatesOn hmem
  rw [matchesLocal_iff, hlocal]
  refine ⟨hlow, hafter, (hscanned.inRange _ hmem).2, ⟨hdate, hmem⟩, hlast, ?_⟩
  intro other hother hmatches hfrom
  obtain ⟨hotherDate, hcandidate⟩ := (matchesLocal_iff other).mp hmatches
  have hdates : last.dayNumber ≤ (zone.localDate other).dayNumber := by
    by_contra hearlier
    have hnone := (hbefore _ hfrom (not_le.mp hearlier) hotherDate).least other hcandidate
    omega
  refine ⟨hdates, ?_⟩
  intro hto
  rw [Date.dayNumber_injective (le_antisymm hto hdates)] at hcandidate
  exact hleast other hcandidate hother

/-- The first occurrence after an instant. -/
structure FirstAfter (cron : CronExpression) (database : TimeZoneDatabase) (timezone : Text)
    (instant first : Int) : Prop where
  after : instant < first
  matching : cron.matchesAt database first timezone = .ok true
  least : ∀ other, instant < other → cron.matchesAt database other timezone = .ok true →
    first ≤ other

/-- The first occurrence does not have a local date before that of the instant, and no later
occurrence without such a date has a local date before that of the first one. -/
def FirstByDate (self : CronExpression) (database : TimeZoneDatabase) (timezone : Text)
    (zone : TimeZone) (instant first : Int) : Prop :=
  (zone.localDate instant).dayNumber ≤ (zone.localDate first).dayNumber ∧
    ∀ other, instant < other → self.matchesAt database other timezone = .ok true →
      (zone.localDate instant).dayNumber ≤ (zone.localDate other).dayNumber →
      (zone.localDate first).dayNumber ≤ (zone.localDate other).dayNumber

/-- The next occurrence is after the instant and matches.  It is the first one
exactly if the first one is also the first by local date; in particular in a zone
whose local dates never go back. -/
theorem nextAfter_exact_iff (hzone : parseTimezone database timezone = .ok zone)
    (hnext : self.nextAfter database instant timezone = .ok result) :
    instant < result ∧
    self.matchesAt database result timezone = .ok true ∧
    ((∀ other, instant < other → other < result →
        self.matchesAt database other timezone = .ok false) ↔
      ∃ first, self.FirstAfter database timezone instant first ∧
        self.FirstByDate database timezone zone instant first) ∧
    (zone.DatesAscend → ∀ other, instant < other → other < result →
      self.matchesAt database other timezone = .ok false) := by
  obtain ⟨hlow, hafter, hhigh, hmatches, hdate, hfirst⟩ := nextAfter_spec hzone hnext
  have hresult : self.matchesAt database result timezone = .ok true :=
    (matchesAt_eq_ok hzone).mpr ⟨⟨by omega, hhigh⟩, hmatches⟩
  have hbetween : (∀ other, instant < other → other < result →
      self.matchesLocal zone other ≠ true) →
      ∀ other, instant < other → other < result →
        self.matchesAt database other timezone = .ok false := by
    intro hnone other hfrom hto
    rw [matchesAt_eq_ok hzone]
    exact ⟨by omega, Bool.eq_false_iff.mpr (hnone other hfrom hto)⟩
  refine ⟨hafter, hresult, ⟨?_, ?_⟩, ?_⟩
  · intro hnone
    refine ⟨result, ⟨hafter, hresult, ?_⟩, hdate, ?_⟩
    · intro other hfrom hother
      by_contra hto
      rw [hnone other hfrom (not_le.mp hto)] at hother
      cases hother
    · intro other hfrom hother hdates
      exact (hfirst other hfrom ((matchesAt_eq_ok hzone).mp hother).2 hdates).1
  · rintro ⟨first, hleast, hdates, hearliest⟩
    -- The first occurrence has the date of the result, which is the least of its date.
    have hsame := hfirst first hleast.after ((matchesAt_eq_ok hzone).mp hleast.matching).2 hdates
    have hle : result ≤ first := hsame.2 (hearliest result hafter hresult hdate)
    refine hbetween ?_
    intro other hfrom hto hmatching
    have hother := hleast.least other hfrom
      ((matchesAt_eq_ok hzone).mpr ⟨⟨by omega, by omega⟩, hmatching⟩)
    omega
  · intro hascend
    refine hbetween ?_
    intro other hfrom hto hmatching
    have hle := (hfirst other hfrom hmatching (hascend hfrom.le)).2 (hascend hto.le)
    omega

end NextAfter

def halfHours : CronExpression where
  exact := "0,30 0,23 * * *".toList
  minutes := ⟨2 ^ 0 + 2 ^ 30, by decide⟩
  hours := ⟨2 ^ 0 + 2 ^ 23, by decide⟩
  daysOfMonth := ⟨2 ^ 31 - 1, by decide⟩
  months := ⟨2 ^ 12 - 1, by decide⟩
  daysOfWeek := ⟨2 ^ 7 - 1, by decide⟩

/-- In November 2010 the clocks of Newfoundland went back from 00:01 to 23:01
of the day before. -/
def zones : TimeZoneDatabase := fun name =>
  if name = "UTC".toList then some TimeZone.utc
  else if name = "America/St_Johns".toList then
    some (TimeZone.withTransition 1289097060 (-9000) (-12600))
  else none

theorem parseTimezone_utc : parseTimezone zones "UTC".toList = .ok TimeZone.utc := by
  unfold parseTimezone
  rw [rejectIf_of_not _ (by decide +kernel)]
  rfl

theorem datesAscend_utc : TimeZone.utc.DatesAscend := by
  intro first second hle
  have hmillis : ∀ instant, TimeZone.utc.localMillis instant = instant := by
    intro instant
    simp [TimeZone.localMillis, TimeZone.utc]
  simp only [TimeZone.localDate, hmillis, Date.dayNumber_ofDayNumber]
  omega

theorem nextAfter_exact_iff_halfHours :
    halfHours.nextAfter zones 1289096100000 "UTC".toList = .ok 1289170800000 ∧
      ∀ other, 1289096100000 < other → other < 1289170800000 →
        halfHours.matchesAt zones other "UTC".toList = .ok false := by
  have hnext : halfHours.nextAfter zones 1289096100000 "UTC".toList = .ok 1289170800000 := by
    decide +kernel
  exact ⟨hnext, (nextAfter_exact_iff parseTimezone_utc hnext).2.2.2 datesAscend_utc⟩

/-- From 23:45 the search finds the second 23:30 of the date, after the first
midnight. -/
theorem nextAfter_skips_midnight :
    parse "0,30 0,23 * * *".toList = .ok halfHours ∧
    halfHours.nextAfter zones 1289096100000 "America/St_Johns".toList = .ok 1289098800000 ∧
    1289096100000 < (1289097000000 : Int) ∧
    1289097000000 < (1289098800000 : Int) ∧
    halfHours.matchesAt zones 1289097000000 "America/St_Johns".toList = .ok true := by
  decide +kernel

end CronExpression

end AutomataCi
