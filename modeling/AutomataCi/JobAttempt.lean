import AutomataCi.CoreValues
import AutomataCi.FallibleState

/-!
# Job attempts

The attempt state of `automata-ci-core/src/execution`: the lifecycle graph,
the exclusive lease with its fencing token, and the three fenced mutations
`acquire_lease`, `apply_transition` and `renew_lease`.
-/

namespace AutomataCi

open GuardedResult FallibleState

inductive JobLifecycle where
  | queued
  | leased
  | preparing
  | running
  | cancelling
  | finalizing
  | succeeded
  | failed
  | cancelled
  | timedOut
  | skipped
  | lost
  deriving DecidableEq, Repr

structure TransitionError where
  (source target : JobLifecycle)
  deriving DecidableEq, Repr

namespace JobLifecycle

def isTerminal : JobLifecycle → Bool
  | succeeded | failed | cancelled | timedOut | skipped | lost => true
  | _ => false

/-- The edges which `validate_transition` accepts. -/
def hasEdge : JobLifecycle → JobLifecycle → Bool
  | queued, leased | queued, cancelled | queued, skipped => true
  | leased, preparing | leased, queued | leased, cancelling
  | leased, failed | leased, lost => true
  | preparing, queued | preparing, running | preparing, cancelling
  | preparing, failed | preparing, timedOut | preparing, skipped
  | preparing, lost => true
  | running, queued | running, cancelling | running, finalizing
  | running, timedOut | running, lost => true
  | cancelling, finalizing | cancelling, cancelled | cancelling, failed
  | cancelling, timedOut | cancelling, lost => true
  | finalizing, succeeded | finalizing, failed | finalizing, cancelled
  | finalizing, timedOut | finalizing, lost => true
  | _, _ => false

def validateTransition (current next : JobLifecycle) : Except TransitionError Unit :=
  if current.hasEdge next then .ok () else .error ⟨current, next⟩

def needsLease : JobLifecycle → Bool
  | leased | preparing | running | cancelling | finalizing => true
  | _ => false

variable {current next : JobLifecycle}

theorem validateTransition_eq_ok {result : Unit} :
    current.validateTransition next = .ok result ↔ current.hasEdge next = true := by
  unfold validateTransition
  split <;> simp_all

theorem not_hasEdge_of_isTerminal (hterminal : current.isTerminal = true) (next : JobLifecycle) :
    current.hasEdge next = false := by
  cases current <;> simp_all [isTerminal, hasEdge]

theorem not_needsLease_of_isTerminal (hterminal : current.isTerminal = true) :
    current.needsLease = false := by
  cases current <;> simp_all [isTerminal, needsLease]

/-- An edge out of a leased state ends either in a leased state or in one
whose entry revokes the lease. -/
theorem needsLease_of_hasEdge (hedge : current.hasEdge next = true) :
    next.needsLease = true ↔ ¬(next = queued ∨ next.isTerminal = true) := by
  cases current <;> cases next <;> simp_all [hasEdge, needsLease, isTerminal]

end JobLifecycle

structure LeaseGuard where
  leaseId : LeaseId
  fencingToken : FencingToken
  deriving DecidableEq, Repr

inductive LeaseError where
  | unsupportedSchema (supported received : Nat)
  | invalidInterval (issuedAt expiresAt : UnixMillis)
  | renewalDoesNotExtend (current received : UnixMillis)
  deriving DecidableEq, Repr

structure Lease where
  schemaVersion : Nat
  id : LeaseId
  attemptId : AttemptId
  runnerId : RunnerId
  fencingToken : FencingToken
  (issuedAt expiresAt : UnixMillis)
  deriving DecidableEq, Repr

namespace Lease

def new (leaseId : LeaseId) (attemptId : AttemptId) (runnerId : RunnerId)
    (fencingToken : FencingToken) (issuedAt expiresAt : UnixMillis) :
    Except LeaseError Lease := do
  rejectIf (expiresAt.get ≤ issuedAt.get) (.invalidInterval issuedAt expiresAt)
  return {
    schemaVersion := coreSchemaVersion
    id := leaseId
    attemptId
    runnerId
    fencingToken
    issuedAt
    expiresAt }

variable (lease : Lease)

def validate : Except LeaseError Unit := do
  rejectIf (lease.schemaVersion ≠ coreSchemaVersion)
    (.unsupportedSchema coreSchemaVersion lease.schemaVersion)
  rejectIf (lease.expiresAt.get ≤ lease.issuedAt.get)
    (.invalidInterval lease.issuedAt lease.expiresAt)

def guard : LeaseGuard :=
  ⟨lease.id, lease.fencingToken⟩

def renew (expiresAt : UnixMillis) : Except LeaseError Lease := do
  rejectIf (expiresAt.get ≤ lease.expiresAt.get) (.renewalDoesNotExtend lease.expiresAt expiresAt)
  return { lease with expiresAt }

variable {lease : Lease}

theorem validate_eq_ok :
    lease.validate = .ok () ↔ lease.schemaVersion = coreSchemaVersion ∧
        lease.issuedAt.get < lease.expiresAt.get := by
  simp [validate]

theorem new_eq_ok {leaseId : LeaseId} {attemptId : AttemptId} {runnerId : RunnerId}
    {fencingToken : FencingToken} {issuedAt expiresAt : UnixMillis} :
    new leaseId attemptId runnerId fencingToken issuedAt expiresAt = .ok lease ↔
      issuedAt.get < expiresAt.get ∧ lease = ⟨coreSchemaVersion, leaseId, attemptId, runnerId,
          fencingToken, issuedAt, expiresAt⟩ := by
  simp [new, eq_comm (a := lease)]

theorem renew_eq_ok {renewed : Lease} {expiresAt : UnixMillis} :
    lease.renew expiresAt = .ok renewed ↔ lease.expiresAt.get < expiresAt.get ∧
        renewed = { lease with expiresAt } := by
  simp [renew, eq_comm (a := renewed)]

end Lease

inductive FenceError where
  | noActiveLease
  | leaseMismatch (expected received : LeaseId)
  | staleFencingToken (expected received : FencingToken)
  | futureFencingToken (expected received : FencingToken)
  deriving DecidableEq, Repr

inductive AttemptStateError where
  | transition (error : TransitionError)
  | fence (error : FenceError)
  | lease (error : LeaseError)
  | identifier (error : IdentifierError)
  | unsupportedSchema (supported received : Nat)
  | leaseStateInvariant (lifecycle : JobLifecycle)
  | leaseAttemptMismatch
  | leaseTokenMismatch
  deriving DecidableEq, Repr

structure JobAttemptState where
  schemaVersion : Nat
  attemptId : AttemptId
  jobId : JobId
  attemptNumber : AttemptNumber
  lifecycle : JobLifecycle
  currentFencingToken : Option FencingToken
  activeLease : Option Lease
  deriving DecidableEq, Repr

namespace JobAttemptState

abbrev AttemptM : Type → Type :=
  FallibleM JobAttemptState AttemptStateError

def new (attemptId : AttemptId) (jobId : JobId)
    (attemptNumber : AttemptNumber) : JobAttemptState where
  schemaVersion := coreSchemaVersion
  attemptId
  jobId
  attemptNumber
  lifecycle := .queued
  currentFencingToken := none
  activeLease := none

def nextFencingToken : Option FencingToken → Except IdentifierError FencingToken
  | some current => current.checkedNext
  | none => FencingToken.new 1

def acquireLease (leaseId : LeaseId) (runnerId : RunnerId)
    (issuedAt expiresAt : UnixMillis) : AttemptM Lease := do
  let self ← get
  check ((self.lifecycle.validateTransition .leased).mapError .transition)
  let fencingToken ← check ((nextFencingToken self.currentFencingToken).mapError .identifier)
  let lease ← check ((Lease.new leaseId self.attemptId runnerId fencingToken issuedAt
      expiresAt).mapError .lease)
  modify fun self => { self with lifecycle := .leased }
  modify fun self => { self with currentFencingToken := some fencingToken }
  modify fun self => { self with activeLease := some lease }
  return lease

def verifyFence (self : JobAttemptState) (guard : LeaseGuard) : Except FenceError Unit := do
  let active ← okOr self.activeLease .noActiveLease
  let expected := active.fencingToken
  rejectIf (guard.fencingToken.get < expected.get) (.staleFencingToken expected guard.fencingToken)
  rejectIf (expected.get < guard.fencingToken.get) (.futureFencingToken expected guard.fencingToken)
  rejectIf (guard.leaseId ≠ active.id) (.leaseMismatch active.id guard.leaseId)

def applyTransition (guard : LeaseGuard) (next : JobLifecycle) : AttemptM Unit := do
  let self ← get
  check ((self.verifyFence guard).mapError .fence)
  check ((self.lifecycle.validateTransition next).mapError .transition)
  modify fun self => { self with lifecycle := next }
  if next = .queued ∨ next.isTerminal = true then
    modify fun self => { self with activeLease := none }

def renewLease (guard : LeaseGuard) (expiresAt : UnixMillis) : AttemptM Lease := do
  let self ← get
  check ((self.verifyFence guard).mapError .fence)
  let active ← check (okOr self.activeLease (.fence .noActiveLease))
  let renewed ← check ((active.renew expiresAt).mapError .lease)
  modify fun self => { self with activeLease := some renewed }
  return renewed

def validate (self : JobAttemptState) : Except AttemptStateError Unit := do
  rejectIf (self.schemaVersion ≠ coreSchemaVersion)
    (.unsupportedSchema coreSchemaVersion self.schemaVersion)
  rejectIf (self.lifecycle.needsLease ≠ self.activeLease.isSome)
    (.leaseStateInvariant self.lifecycle)
  ifPresent self.activeLease fun lease => do
    lease.validate.mapError .lease
    rejectIf (lease.attemptId ≠ self.attemptId) .leaseAttemptMismatch
    rejectIf (self.currentFencingToken ≠ some lease.fencingToken) .leaseTokenMismatch

theorem verifyFence_eq_ok {self : JobAttemptState} {guard : LeaseGuard} :
    self.verifyFence guard = .ok () ↔
      ∃ active, self.activeLease = some active ∧ guard = active.guard := by
  constructor
  · intro hverify
    simp only [verifyFence, bind_eq_ok, okOr_eq_ok, rejectIf_eq_ok] at hverify
    obtain ⟨active, hactive, _, hstale, _, hfuture, hlease⟩ := hverify
    refine ⟨active, hactive, ?_⟩
    have htoken : guard.fencingToken = active.fencingToken := by
      ext
      omega
    cases guard
    simp_all [Lease.guard]
  · rintro ⟨active, hactive, rfl⟩
    simp [verifyFence, hactive, Lease.guard]

end JobAttemptState

end AutomataCi
