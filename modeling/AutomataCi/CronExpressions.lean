import Mathlib.Data.Nat.Bitwise
import AutomataCi.CivilCalendar
import AutomataCi.GuardedResult
import AutomataCi.SubstringSearch
import AutomataCi.TextOperations

/-!
# Cron expressions

Expressions of five fields, each a set of the values of its kind.  A field
keeps its set as the bits of a number.  An expression is accepted only if the
minutes which it selects on a day are at least five minutes apart, also across
midnight.
-/

namespace AutomataCi

open GuardedResult SubstringSearch TextOperations CivilCalendar

inductive ScheduleError where
  | invalidExpression | intervalTooShort | invalidTimezone | timestampOutOfRange | noFutureMatch
  deriving DecidableEq, Repr

def maxCronExpressionBytes : Nat :=
  256

def maxIanaTimezoneBytes : Nat :=
  255

def minimumCronIntervalMinutes : Nat :=
  5

inductive FieldKind where
  | minute | hour | dayOfMonth | month | dayOfWeek
  deriving DecidableEq, Repr

namespace FieldKind

def minimum : FieldKind → Nat
  | .minute | .hour | .dayOfWeek => 0
  | .dayOfMonth | .month => 1

def maximum : FieldKind → Nat
  | .minute => 59
  | .hour => 23
  | .dayOfMonth => 31
  | .month => 12
  | .dayOfWeek => 6

def width (kind : FieldKind) : Nat :=
  kind.maximum - kind.minimum + 1

end FieldKind

structure FieldValue (kind : FieldKind) where
  value : Nat
  minimum_le : kind.minimum ≤ value
  le_maximum : value ≤ kind.maximum
  deriving DecidableEq, Repr

structure Field (kind : FieldKind) where
  bits : Nat
  bits_lt : bits < 2 ^ kind.width
  deriving DecidableEq, Repr

namespace Field

variable {kind : FieldKind}

def empty (kind : FieldKind) : Field kind :=
  ⟨0, Nat.two_pow_pos _⟩

variable (self : Field kind)

def insert (value : FieldValue kind) : Field kind where
  bits := self.bits ||| 1 <<< (value.value - kind.minimum)
  bits_lt := by
    have hlow := value.minimum_le
    have hhigh := value.le_maximum
    refine Nat.or_lt_two_pow self.bits_lt ?_
    rw [Nat.one_shiftLeft]
    exact Nat.pow_lt_pow_right (by decide) (by unfold FieldKind.width; omega)

def contains (value : Nat) : Bool :=
  decide (kind.minimum ≤ value) && decide (value ≤ kind.maximum) &&
    decide (self.bits &&& 1 <<< (value - kind.minimum) ≠ 0)

def isUnrestricted : Bool :=
  decide (self.bits = 2 ^ kind.width - 1)

end Field

def monthNames : List String :=
  ["JAN", "FEB", "MAR", "APR", "MAY", "JUN", "JUL", "AUG", "SEP", "OCT", "NOV", "DEC"]

def weekdayNames : List String :=
  ["SUN", "MON", "TUE", "WED", "THU", "FRI", "SAT"]

variable (source : Text)

/-- A decimal number of sixteen bits, with an optional plus sign. -/
def parseU16 : Option Nat :=
  let digits := if source.head? = some '+' then source.tail else source
  if digits = [] ∨ digits.all Char.isDigit = false ∨ 65535 < decimalValue digits then none
  else some (decimalValue digits)

def namedValue (names : List String) : Option Nat :=
  names.findIdx? fun name => sameIgnoringCase source name.toList

def parseValue (kind : FieldKind) : Except ScheduleError Nat :=
  match parseU16 source with
  | some value => .ok value
  | none =>
    match kind with
    | .month => okOr ((namedValue source monthNames).map (· + 1)) .invalidExpression
    | .dayOfWeek => okOr (namedValue source weekdayNames) .invalidExpression
    | _ => .error .invalidExpression

/-- The value of a number.  Sunday is also the seventh day. -/
def normalizeValue (value : Nat) (kind : FieldKind) : Except ScheduleError (FieldValue kind) :=
  if hsunday : kind = .dayOfWeek ∧ value = 7 then
    .ok ⟨0, by rw [hsunday.1]; decide, Nat.zero_le _⟩
  else if hrange : kind.minimum ≤ value ∧ value ≤ kind.maximum then
    .ok ⟨value, hrange.1, hrange.2⟩
  else .error .invalidExpression

structure SteppedItem where
  base : Text
  step : Nat
  stepped : Bool
  deriving DecidableEq, Repr

def splitStep (source : Text) (maximum : Nat) : Except ScheduleError SteppedItem :=
  match splitAtFirst '/' source with
  | none => .ok ⟨source, 1, false⟩
  | some (base, step) => do
      rejectIf (base = [] ∨ step = [] ∨ '/' ∈ step) .invalidExpression
      let step ← okOr (parseU16 step) .invalidExpression
      rejectIf (step = 0 ∨ maximum < step) .invalidExpression
      return ⟨base, step, true⟩

def parseBase (source : Text) (kind : FieldKind) (stepped : Bool) :
    Except ScheduleError (Nat × Nat) :=
  if source = ['*'] then .ok (kind.minimum, kind.maximum)
  else
    match splitAtFirst '-' source with
    | some (start, last) => do
        rejectIf (start = [] ∨ last = [] ∨ '-' ∈ last) .invalidExpression
        let start ← parseValue start kind
        let last ← parseValue last kind
        let syntaxMaximum := if kind = .dayOfWeek then 7 else kind.maximum
        rejectIf (last < start ∨ start < kind.minimum ∨ syntaxMaximum < last) .invalidExpression
        return (start, last)
    | none => do
        let value ← parseValue source kind
        let start ← normalizeValue value kind
        return (start.value, if stepped then kind.maximum else start.value)

def steppedValues (start last step : Nat) : List Nat :=
  if start ≤ last then
    (List.range ((last - start) / step + 1)).map fun count =>
      start + count * step
  else []

def insertValue {kind : FieldKind} (field : Field kind) (value : Nat) :
    Except ScheduleError (Field kind) := do
  let value ← normalizeValue value kind
  return field.insert value

def parseItem {kind : FieldKind} (field : Field kind) (item : Text) :
    Except ScheduleError (Field kind) := do
  rejectIf (item = []) .invalidExpression
  let item ← splitStep item kind.width
  let (start, last) ← parseBase item.base kind item.stepped
  (steppedValues start last item.step).foldlM insertValue field

def parseField (source : Text) (kind : FieldKind) : Except ScheduleError (Field kind) := do
  rejectIf (source = []) .invalidExpression
  let field ← (splitWhere (· = ',') source).foldlM parseItem (Field.empty kind)
  rejectIf (field.bits = 0) .invalidExpression
  return field

structure CronExpression where
  exact : Text
  minutes : Field .minute
  hours : Field .hour
  daysOfMonth : Field .dayOfMonth
  months : Field .month
  daysOfWeek : Field .dayOfWeek
  deriving DecidableEq, Repr

def isExpressionCharacter (character : Char) : Bool :=
  character.isAlphanum || character = '*' || character = ',' ||
    character = '-' || character = '/' || character = ' '

def validateExpressionText (expression : Text) : Except ScheduleError Unit :=
  rejectIf (expression = [] ∨ maxCronExpressionBytes < (utf8Bytes expression).length ∨
      trim expression ≠ expression ∨
      (expression.all fun character => character.toNat < 128) = false ∨
      expression.head? = some '@' ∨
      expression.all isExpressionCharacter = false)
    .invalidExpression

def isAsciiWhitespace (character : Char) : Bool :=
  character = ' ' || character = '\t' || character = '\n' ||
    character = '\r' || character.toNat = 0xC

def splitAsciiWhitespace (source : Text) : List Text :=
  (splitWhere isAsciiWhitespace source).filter fun word => word ≠ []

namespace CronExpression

variable (self : CronExpression)

def dailyTimes : List Nat :=
  ((List.range 24).filter self.hours.contains).flatMap fun hour =>
    ((List.range 60).filter self.minutes.contains).map fun minute =>
      hour * 60 + minute

def minimumStep (times : List Nat) : Nat :=
  (times.zip times.tail).foldl (fun minimum pair => min minimum (pair.2 - pair.1)) (24 * 60)

def minimumInterval (times : List Nat) : Nat :=
  match times.head?, times.getLast? with
  | some first, some last => min (minimumStep times) (24 * 60 - last + first)
  | _, _ => minimumStep times

def minimumDailyInterval : Nat :=
  minimumInterval self.dailyTimes

def parse (exact : Text) : Except ScheduleError CronExpression := do
  validateExpressionText exact
  match splitAsciiWhitespace exact with
  | [minute, hour, calendarDay, month, weekday] =>
    let minutes ← parseField minute .minute
    let hours ← parseField hour .hour
    let daysOfMonth ← parseField calendarDay .dayOfMonth
    let months ← parseField month .month
    let daysOfWeek ← parseField weekday .dayOfWeek
    let expression : CronExpression :=
      { exact, minutes, hours, daysOfMonth, months, daysOfWeek }
    rejectIf (expression.minimumDailyInterval < minimumCronIntervalMinutes) .intervalTooShort
    return expression
  | _ => .error .invalidExpression

def matchesDateComponents (day month weekday : Nat) : Bool :=
  self.months.contains month &&
    match self.daysOfMonth.isUnrestricted, self.daysOfWeek.isUnrestricted with
    | true, true => true
    | true, false => self.daysOfWeek.contains weekday
    | false, true => self.daysOfMonth.contains day
    | false, false => self.daysOfMonth.contains day || self.daysOfWeek.contains weekday

def matchesDate (date : Date) : Bool :=
  self.matchesDateComponents date.day date.month date.weekday

def matchesComponents (minute hour day month weekday : Nat) : Bool :=
  self.minutes.contains minute && self.hours.contains hour &&
    self.matchesDateComponents day month weekday

end CronExpression

namespace Field

variable {kind : FieldKind} {field : Field kind}

theorem contains_iff {value : Nat} :
    field.contains value = true ↔ kind.minimum ≤ value ∧ value ≤ kind.maximum ∧
        field.bits.testBit (value - kind.minimum) = true := by
  have hbit : field.bits &&& 1 <<< (value - kind.minimum) ≠ 0 ↔
      field.bits.testBit (value - kind.minimum) = true := by
    rw [Nat.one_shiftLeft, Nat.and_two_pow]
    cases field.bits.testBit (value - kind.minimum) <;> simp
  simp only [contains, Bool.and_eq_true, decide_eq_true_eq, hbit, and_assoc]

theorem exists_contains (hbits : field.bits ≠ 0) : ∃ value, field.contains value = true := by
  obtain ⟨place, hplace⟩ := Nat.exists_testBit_of_ne_zero hbits
  have hbound : place < kind.width := by
    by_contra hle
    have hlarge : 2 ^ kind.width ≤ 2 ^ place := Nat.pow_le_pow_right (by decide) (Nat.not_lt.mp hle)
    have hpower := Nat.ge_two_pow_of_testBit hplace
    have hlt := field.bits_lt
    omega
  refine ⟨kind.minimum + place, contains_iff.mpr ⟨by omega, ?_, ?_⟩⟩
  · have hrange : kind.minimum ≤ kind.maximum := by cases kind <;> decide
    unfold FieldKind.width at hbound
    omega
  · rw [Nat.add_sub_cancel_left]
    exact hplace

end Field

theorem bits_ne_zero_of_parseField {source : Text} {kind : FieldKind}
    {field : Field kind} (hparse : parseField source kind = .ok field) :
    field.bits ≠ 0 := by
  simp only [parseField, bind_eq_ok, rejectIf_eq_ok, pure_eq_ok] at hparse
  obtain ⟨_, _, _, _, _, hbits, rfl⟩ := hparse
  exact hbits

namespace CronExpression

structure Accepted (expression : CronExpression) : Prop where
  minutes : expression.minutes.bits ≠ 0
  hours : expression.hours.bits ≠ 0
  daysOfMonth : expression.daysOfMonth.bits ≠ 0
  months : expression.months.bits ≠ 0
  daysOfWeek : expression.daysOfWeek.bits ≠ 0
  interval : 5 ≤ expression.minimumDailyInterval

theorem accepted_of_parse {source : Text} {expression : CronExpression}
    (hparse : parse source = .ok expression) : expression.Accepted := by
  simp only [parse, bind_eq_ok] at hparse
  obtain ⟨_, -, hfields⟩ := hparse
  split at hfields
  · simp only [bind_eq_ok, rejectIf_eq_ok, pure_eq_ok] at hfields
    obtain ⟨minutes, hminutes, hours, hhours, daysOfMonth, hdaysOfMonth,
      months, hmonths, daysOfWeek, hdaysOfWeek, _, hinterval, rfl⟩ := hfields
    exact ⟨bits_ne_zero_of_parseField hminutes, bits_ne_zero_of_parseField hhours,
      bits_ne_zero_of_parseField hdaysOfMonth,
      bits_ne_zero_of_parseField hmonths,
      bits_ne_zero_of_parseField hdaysOfWeek, Nat.not_lt.mp hinterval⟩
  · cases hfields

variable {self : CronExpression} {time bound first : Nat} {times : List Nat}

theorem mem_dailyTimes :
    time ∈ self.dailyTimes ↔ time < 24 * 60 ∧ self.hours.contains (time / 60) = true ∧
        self.minutes.contains (time % 60) = true := by
  simp only [dailyTimes, List.mem_flatMap, List.mem_filter, List.mem_range, List.mem_map]
  constructor
  · rintro ⟨hour, ⟨hhour, hhours⟩, minute, ⟨hminute, hminutes⟩, rfl⟩
    have hdiv : (hour * 60 + minute) / 60 = hour := by omega
    have hmod : (hour * 60 + minute) % 60 = minute := by omega
    rw [hdiv, hmod]
    exact ⟨by omega, hhours, hminutes⟩
  · rintro ⟨htime, hhours, hminutes⟩
    exact ⟨time / 60, ⟨by omega, hhours⟩, time % 60, ⟨by omega, hminutes⟩, by omega⟩

theorem le_foldl_min {pairs : List (Nat × Nat)} {start : Nat} :
    bound ≤ pairs.foldl (fun minimum pair => min minimum (pair.2 - pair.1)) start ↔
      bound ≤ start ∧ ∀ pair ∈ pairs, bound ≤ pair.2 - pair.1 := by
  induction pairs generalizing start with
  | nil => simp
  | cons pair rest ih => rw [List.foldl_cons, ih, List.forall_mem_cons, Nat.le_min, and_assoc]

theorem isChain_of_zip_tail (hpairs : ∀ pair ∈ times.zip times.tail, bound ≤ pair.2 - pair.1)
    (hbound : 0 < bound) : times.IsChain fun first second => first + bound ≤ second := by
  induction times with
  | nil => exact .nil
  | cons first rest ih =>
    cases rest with
    | nil => exact .singleton _
    | cons =>
      rw [List.tail_cons, List.zip_cons_cons, List.forall_mem_cons] at hpairs
      have hfirst := hpairs.1
      simp only at hfirst
      exact .cons_cons (by omega) (ih hpairs.2)

theorem pairwise_of_minimumStep (hstep : 5 ≤ minimumStep times) :
    times.Pairwise fun first second => first + 5 ≤ second := by
  have hchain := isChain_of_zip_tail (le_foldl_min.mp hstep).2 (by decide)
  have htrans : IsTrans Nat fun first second => first + 5 ≤ second :=
    ⟨fun _ _ _ hfirst hsecond => by omega⟩
  exact List.isChain_iff_pairwise.mp hchain

theorem apart_of_pairwise {early late : Nat}
    (hpairwise : times.Pairwise fun first second => first + 5 ≤ second) (hearly : early ∈ times)
    (hlate : late ∈ times) (hlt : early < late) : early + 5 ≤ late := by
  induction hpairwise with
  | nil => cases hearly
  | cons hfirst hrest ih =>
    rcases List.mem_cons.mp hearly with hhead | hearlyRest
    · rcases List.mem_cons.mp hlate with hsame | hlateRest
      · omega
      · have hafter := hfirst late hlateRest
        omega
    · rcases List.mem_cons.mp hlate with hhead | hlateRest
      · have hbefore := hfirst early hearlyRest
        omega
      · exact ih hearlyRest hlateRest

theorem bounds_of_pairwise {last : Nat}
    (hpairwise : times.Pairwise fun first second => first + 5 ≤ second)
    (hfirst : times.head? = some first) (hlast : times.getLast? = some last)
    (htime : time ∈ times) : first ≤ time ∧ time ≤ last := by
  constructor
  · obtain ⟨rest, rfl⟩ := List.head?_eq_some_iff.mp hfirst
    rcases List.mem_cons.mp htime with rfl | hrest
    · exact le_rfl
    · have hbefore := List.rel_of_pairwise_cons hpairwise hrest
      omega
  · obtain ⟨before, rfl⟩ := List.getLast?_eq_some_iff.mp hlast
    rcases List.mem_append.mp htime with hbefore | hlast
    · have hafter := (List.pairwise_append.mp hpairwise).2.2 time hbefore last
        (List.mem_singleton.mpr rfl)
      omega
    · exact (List.mem_singleton.mp hlast).le

theorem dailyTimes_apart (hinterval : 5 ≤ self.minimumDailyInterval) {second : Nat}
    (hfirst : first ∈ self.dailyTimes) (hsecond : second ∈ self.dailyTimes) :
    (first < second → first + 5 ≤ second) ∧ first + 5 ≤ second + 24 * 60 := by
  unfold minimumDailyInterval minimumInterval at hinterval
  split at hinterval
  · rename_i least greatest hleast hgreatest
    have hpairwise := pairwise_of_minimumStep (hinterval.trans (min_le_left _ _))
    have hwrap := hinterval.trans (min_le_right _ _)
    have hupper := (bounds_of_pairwise hpairwise hleast hgreatest hfirst).2
    have hlower := (bounds_of_pairwise hpairwise hleast hgreatest hsecond).1
    have hday := (mem_dailyTimes.mp hfirst).1
    exact ⟨apart_of_pairwise hpairwise hfirst hsecond, by omega⟩
  · rename_i hnone
    exfalso
    cases htimes : self.dailyTimes with
    | nil =>
      rw [htimes] at hfirst
      cases hfirst
    | cons => exact hnone _ _ (by rw [htimes]; rfl) (by rw [htimes]; exact List.getLast?_cons)

end CronExpression

end AutomataCi
