import AutomataCi.SlotHistories

/-!
# Local lease deadlines

The runner turns the expiry of a lease, a time of the database, into a
deadline of its own monotonic clock.  A session holds one reading of the
database clock and a monotonic reading taken before it, from which the
database time is estimated.  The watchdog keeps the latest deadline which the
offer and the accepted renewals gave.

Times of the database are integers, kept in the signed 64-bit range by the
saturating operations; monotonic times are unsigned 64-bit numbers.
-/

namespace AutomataCi

open GuardedResult

def saturateI64 (value : Int) : Int :=
  max (-2 ^ 63) (min value (2 ^ 63 - 1))

def saturateU64 (value : Nat) : Nat :=
  min value (2 ^ 64 - 1)

structure RuntimeSession where
  leaseDurationMillis : Nat
  leaseClockDatabaseAnchor : UnixMillis
  leaseClockMonotonicAnchor : Nat
  deriving DecidableEq, Repr

namespace RuntimeSession

/-- A clock before its anchor counts as one at the end of time. -/
def estimatedLeaseDatabaseNow (self : RuntimeSession) (localMonotonic : Nat) : UnixMillis :=
  let elapsed : Int :=
    if self.leaseClockMonotonicAnchor ≤ localMonotonic ∧
        localMonotonic - self.leaseClockMonotonicAnchor < 2 ^ 63 then
      localMonotonic - self.leaseClockMonotonicAnchor
    else 2 ^ 63 - 1
  ⟨saturateI64 (self.leaseClockDatabaseAnchor.get + elapsed)⟩

def localLeaseDeadline (self : RuntimeSession) (durableLease : Lease)
    (remoteExpiry : UnixMillis) (localMonotonic : Nat) : Nat :=
  let databaseNow := self.estimatedLeaseDatabaseNow localMonotonic
  let remainingMillis := saturateI64 (remoteExpiry.get - databaseNow.get)
  let durableIntervalMillis := saturateI64 (durableLease.expiresAt.get - durableLease.issuedAt.get)
  saturateU64 (localMonotonic + min (min remainingMillis.toNat durableIntervalMillis.toNat)
      self.leaseDurationMillis)

end RuntimeSession

structure HeartbeatSchedule where
  (interval dueAt : Nat)
  deriving DecidableEq, Repr

namespace HeartbeatSchedule

def capToLease (self : HeartbeatSchedule) (now leaseDeadline : Nat) : HeartbeatSchedule :=
  let latestSafe := max (leaseDeadline - saturateU64 self.interval) now
  if latestSafe < self.dueAt then { self with dueAt := latestSafe } else self

def renewed (self : HeartbeatSchedule) (now leaseDeadline : Nat) : HeartbeatSchedule :=
  capToLease { self with dueAt := saturateU64 (now + saturateU64 self.interval) } now leaseDeadline

def new (now interval leaseDeadline : Nat) : HeartbeatSchedule :=
  capToLease ⟨interval, saturateU64 (now + saturateU64 interval)⟩ now leaseDeadline

end HeartbeatSchedule

namespace LeaseWatchdog

def extendTo (deadline candidate : Nat) : Nat :=
  if deadline < candidate then candidate else deadline

def isExpiredAt (deadline now : Nat) : Bool :=
  deadline ≤ now

end LeaseWatchdog

/-- The watchdog of a slot after its start and the renewals which the journal
accepted, with the monotonic readings at which deadlines were computed. -/
inductive WatchdogRun (session : RuntimeSession) :
    SlotSnapshot → Nat → List Nat → Prop
  | start (slot : SlotSnapshot) (reading : Nat) :
      WatchdogRun session slot
        (session.localLeaseDeadline slot.offer.lease slot.expiresAt reading)
        [reading]
  | renew {slot next : SlotSnapshot} {deadline : Nat} {readings : List Nat}
      {changed : Bool} {expiresAt : UnixMillis} (reading : Nat)
      (run : WatchdogRun session slot deadline readings)
      (accepted : slot.renewLease expiresAt = .ok (changed, next)) :
      WatchdogRun session next
        (LeaseWatchdog.extendTo deadline
          (session.localLeaseDeadline slot.offer.lease expiresAt reading))
        (reading :: readings)

/-- The database clock runs with the monotonic one, and the database anchor
was read at the monotonic instant `sampledAt`. -/
def RuntimeSession.databaseTime (session : RuntimeSession) (sampledAt now : Nat) : Int :=
  session.leaseClockDatabaseAnchor.get + (now - sampledAt)

def RuntimeSession.instantOf (session : RuntimeSession) (sampledAt : Nat)
    (time : UnixMillis) : Int :=
  sampledAt + (time.get - session.leaseClockDatabaseAnchor.get)

namespace RuntimeSession

variable {session : RuntimeSession} {expiry : UnixMillis}

theorem estimatedLeaseDatabaseNow_cases
    (hepoch : 0 ≤ session.leaseClockDatabaseAnchor.get) (reading : Nat) :
    (session.estimatedLeaseDatabaseNow reading).get = 2 ^ 63 - 1 ∨
      session.leaseClockMonotonicAnchor ≤ reading ∧
        (session.estimatedLeaseDatabaseNow reading).get = session.leaseClockDatabaseAnchor.get +
            (reading - session.leaseClockMonotonicAnchor) := by
  unfold estimatedLeaseDatabaseNow saturateI64
  split <;> grind

theorem localLeaseDeadline_le {sampledAt : Nat} (hepoch : 0 ≤ session.leaseClockDatabaseAnchor.get)
    (hanchor : session.leaseClockMonotonicAnchor ≤ sampledAt)
    (hexpiry : expiry.get < 2 ^ 63) (lease : Lease) (reading : Nat) :
    (session.localLeaseDeadline lease expiry reading : Int) ≤
      max (reading : Int) (session.instantOf sampledAt expiry) := by
  have hestimate := estimatedLeaseDatabaseNow_cases hepoch reading
  simp only [localLeaseDeadline, instantOf, saturateI64, saturateU64]
  omega

theorem localLeaseDeadline_le_reading {reading : Nat}
    (hepoch : 0 ≤ session.leaseClockDatabaseAnchor.get)
    (hexpiry : expiry.get < 2 ^ 63)
    (hbelow : reading < session.leaseClockMonotonicAnchor) (lease : Lease) :
    session.localLeaseDeadline lease expiry reading ≤ reading := by
  have hestimate := estimatedLeaseDatabaseNow_cases hepoch reading
  simp only [localLeaseDeadline, saturateI64, saturateU64]
  omega

theorem localLeaseDeadline_le_interval (session : RuntimeSession)
    (lease : Lease) (expiry : UnixMillis) (reading : Nat) :
    session.localLeaseDeadline lease expiry reading ≤
      reading + min (lease.expiresAt.get - lease.issuedAt.get).toNat
        session.leaseDurationMillis := by
  simp only [localLeaseDeadline, saturateI64, saturateU64]
  omega

end RuntimeSession

theorem HeartbeatSchedule.dueAt_capToLease (schedule : HeartbeatSchedule)
    (now leaseDeadline : Nat) :
    (schedule.capToLease now leaseDeadline).dueAt ≤
      max now (leaseDeadline - saturateU64 schedule.interval) := by
  unfold capToLease
  grind

theorem SlotSnapshot.renewLease_keeps {slot next : SlotSnapshot}
    {expiresAt : UnixMillis} {changed : Bool}
    (haccepted : slot.renewLease expiresAt = .ok (changed, next)) :
    next.offer = slot.offer ∧ next.expiresAt = expiresAt ∧ slot.expiresAt.get ≤ expiresAt.get := by
  simp only [renewLease, bind_eq_ok, rejectIf_eq_ok, exists_const, not_lt] at haccepted
  obtain ⟨-, -, hle, hnext⟩ := haccepted
  split at hnext
  · obtain ⟨-, rfl⟩ := Prod.mk.inj (pure_eq_ok.mp hnext)
    simp_all
  · obtain ⟨-, rfl⟩ := Prod.mk.inj (pure_eq_ok.mp hnext)
    exact ⟨rfl, rfl, hle⟩

namespace WatchdogRun

variable {session : RuntimeSession} {slot : SlotSnapshot} {deadline : Nat}
  {readings : List Nat}

theorem deadline_le {bound : Int} (hrun : WatchdogRun session slot deadline readings)
    (hbound : ∀ reading ∈ readings, ∀ expiry : UnixMillis, expiry.get ≤ slot.expiresAt.get →
        (session.localLeaseDeadline slot.offer.lease expiry reading : Int) ≤ bound) :
    deadline ≤ bound := by
  induction hrun with
  | start slot reading => exact hbound reading (by simp) slot.expiresAt le_rfl
  | @renew slot next deadline readings changed expiresAt reading run accepted ih =>
      obtain ⟨hoffer, hexpires, hle⟩ := SlotSnapshot.renewLease_keeps accepted
      rw [hoffer, hexpires] at hbound
      have hcandidate := hbound reading (by simp) expiresAt le_rfl
      have hearlier : (deadline : Int) ≤ bound := by
        apply ih
        intro earlier hearlier expiry hexpiry
        exact hbound earlier (List.mem_cons_of_mem _ hearlier) expiry (hexpiry.trans hle)
      unfold LeaseWatchdog.extendTo
      split
      · exact hcandidate
      · exact hearlier

end WatchdogRun

/-- An unexpired watchdog is within the lease: after a run its deadline is
not after the latest reading or the instant at which the database clock
reaches the accepted expiry. -/
theorem watchdog_within_lease {session : RuntimeSession}
    {slot : SlotSnapshot} {deadline sampledAt latest : Nat} {readings : List Nat}
    (hanchor : session.leaseClockMonotonicAnchor ≤ sampledAt)
    (hrun : WatchdogRun session slot deadline readings)
    (hexpiry : slot.expiresAt.get < 2 ^ 63)
    (hlatest : ∀ reading ∈ readings, reading ≤ latest) :
    deadline ≤ latest + min (slot.offer.lease.expiresAt.get -
          slot.offer.lease.issuedAt.get).toNat session.leaseDurationMillis ∧
      (0 ≤ session.leaseClockDatabaseAnchor.get →
        (deadline : Int) ≤ max (latest : Int) (session.instantOf sampledAt slot.expiresAt) ∧
        (∀ now : Nat, latest ≤ now → LeaseWatchdog.isExpiredAt deadline now = false →
          session.databaseTime sampledAt now < slot.expiresAt.get) ∧
        ∀ (lease : Lease) (expiry : UnixMillis) (reading : Nat),
          expiry.get < 2 ^ 63 → reading < session.leaseClockMonotonicAnchor →
            LeaseWatchdog.isExpiredAt (session.localLeaseDeadline lease expiry reading) reading) ∧
      ∀ (schedule : HeartbeatSchedule) (now leaseDeadline : Nat),
        let latestSafe :=
          max now (leaseDeadline - saturateU64 schedule.interval)
        (schedule.capToLease now leaseDeadline).dueAt ≤ latestSafe ∧
          (schedule.renewed now leaseDeadline).dueAt ≤ latestSafe ∧
          (HeartbeatSchedule.new now schedule.interval leaseDeadline).dueAt ≤ latestSafe := by
  refine ⟨?_, fun hepoch => ?_, ?_⟩
  · rw [← Nat.cast_le (α := Int)]
    apply hrun.deadline_le
    intro reading hreading expiry _
    have hcomputed := session.localLeaseDeadline_le_interval slot.offer.lease expiry reading
    have hearlier := hlatest reading hreading
    omega
  · have hdeadline : (deadline : Int) ≤
        max (latest : Int) (session.instantOf sampledAt slot.expiresAt) := by
      apply hrun.deadline_le
      intro reading hreading expiry hle
      have hcomputed := RuntimeSession.localLeaseDeadline_le hepoch hanchor
        (hle.trans_lt hexpiry) slot.offer.lease reading
      have hearlier := hlatest reading hreading
      unfold RuntimeSession.instantOf at hcomputed ⊢
      omega
    refine ⟨hdeadline, ?_, ?_⟩
    · intro now hnow hunexpired
      simp only [LeaseWatchdog.isExpiredAt, decide_eq_false_iff_not, not_le] at hunexpired
      unfold RuntimeSession.instantOf at hdeadline
      unfold RuntimeSession.databaseTime
      omega
    · intro lease expiry reading hrange hbelow
      simp only [LeaseWatchdog.isExpiredAt, decide_eq_true_eq]
      exact RuntimeSession.localLeaseDeadline_le_reading hepoch hrange hbelow lease
  · intro schedule now leaseDeadline
    exact ⟨schedule.dueAt_capToLease now leaseDeadline,
      HeartbeatSchedule.dueAt_capToLease _ now leaseDeadline,
      HeartbeatSchedule.dueAt_capToLease _ now leaseDeadline⟩

namespace Sample

def leaseSession : RuntimeSession :=
  ⟨60000, ⟨2000⟩, 500⟩

def minuteSlot : SlotSnapshot :=
  .fromOffer { offer with lease := { offer.lease with issuedAt := ⟨1000⟩, expiresAt := ⟨61000⟩ } }

/-- Started at 600 and renewed at 30000. -/
def renewedDeadline : Nat :=
  LeaseWatchdog.extendTo (leaseSession.localLeaseDeadline minuteSlot.offer.lease ⟨61000⟩ 600)
    (leaseSession.localLeaseDeadline minuteSlot.offer.lease ⟨100000⟩ 30000)

end Sample

open Sample

theorem watchdog_within_sample_lease :
    LeaseWatchdog.isExpiredAt renewedDeadline 80000 = false ∧
      leaseSession.databaseTime 510 80000 < 100000 := by
  have hrun : WatchdogRun leaseSession { minuteSlot with expiresAt := ⟨100000⟩ } renewedDeadline
      [30000, 600] :=
    .renew 30000 (.start minuteSlot 600) rfl
  have hanchor : leaseSession.leaseClockMonotonicAnchor ≤ 510 := by decide
  have hlatest : ∀ reading ∈ [30000, 600], reading ≤ 30000 := by decide
  have hwithin := (watchdog_within_lease hanchor hrun (by decide) hlatest).2.1 (by decide)
  have hunexpired : LeaseWatchdog.isExpiredAt renewedDeadline 80000 = false := by decide +kernel
  exact ⟨hunexpired, hwithin.2.1 80000 (by decide) hunexpired⟩

/-- A deadline computed after the end of the lease is the reading itself, and
before the epoch a clock below its anchor is not at the end of time. -/
theorem watchdog_outlives_ended_lease :
    (¬∀ (session : RuntimeSession) (slot : SlotSnapshot)
      (deadline sampledAt : Nat) (readings : List Nat),
      session.leaseClockMonotonicAnchor ≤ sampledAt → WatchdogRun session slot deadline readings →
          (deadline : Int) ≤ session.instantOf sampledAt slot.expiresAt) ∧
      LeaseWatchdog.isExpiredAt (RuntimeSession.localLeaseDeadline ⟨60000, ⟨-1⟩, 5⟩
          Sample.offer.lease ⟨2 ^ 63 - 1⟩ 0) 0 = false := by
  refine ⟨?_, by decide +kernel⟩
  intro hwithin
  have hdeadline := hwithin Sample.leaseSession (.fromOffer Sample.offer) _ 500 [505] le_rfl
    (.start _ 505)
  revert hdeadline
  decide +kernel

end AutomataCi
