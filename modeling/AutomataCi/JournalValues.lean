import AutomataCi.JobAttempt

/-!
# Values of the runner journal

The limits of `automata-ci-runner-journal`, the protocol values its records
are built from, and the errors its operations return.
-/

namespace AutomataCi

open GuardedResult

def runnerJournalSchemaVersion : Nat :=
  6

def maxDeliveryEnqueuedAtMillis : Int :=
  253402300799999

def maxJournaledSlots : Nat :=
  256

def maxProviderOperationsPerSlot : Nat :=
  32

def maxCommandTombstones : Nat :=
  256

def maxLeaseAuthorityPollContributions : Nat :=
  16

/-! ## Names

A name is kept as the bytes of its UTF-8 text; its constructor admits only a
subset of ASCII. -/

def isAsciiLowercase (byte : UInt8) : Bool :=
  97 ≤ byte && byte ≤ 122

def isAsciiUppercase (byte : UInt8) : Bool :=
  65 ≤ byte && byte ≤ 90

def isAsciiDigit (byte : UInt8) : Bool :=
  48 ≤ byte && byte ≤ 57

def isNamePunctuation (byte : UInt8) : Bool :=
  byte == 46 || byte == 95 || byte == 45

structure ProviderName where
  bytes : List UInt8
  length_le : bytes.length ≤ 64
  first :
    ∃ head ∈ bytes.head?, isAsciiLowercase head || isAsciiDigit head
  portable :
    ∀ byte ∈ bytes, isAsciiLowercase byte || isAsciiDigit byte || isNamePunctuation byte
  deriving DecidableEq

structure SandboxHandle where
  bytes : List UInt8
  nonempty : bytes ≠ []
  length_le : bytes.length ≤ 192
  portable :
    ∀ byte ∈ bytes, isAsciiLowercase byte || isAsciiUppercase byte || isAsciiDigit byte ||
        isNamePunctuation byte || byte == 58
  deriving DecidableEq

structure ProtectionId where
  bytes : List UInt8
  nonempty : bytes ≠ []
  length_le : bytes.length ≤ 64
  portable :
    ∀ byte ∈ bytes, isAsciiLowercase byte || isAsciiUppercase byte || isAsciiDigit byte ||
        isNamePunctuation byte
  deriving DecidableEq

structure LeaseAuthorityName where
  bytes : List UInt8
  length_le : bytes.length ≤ 128
  first : ∃ head ∈ bytes.head?, isAsciiLowercase head
  portable :
    ∀ byte ∈ bytes.tail, isAsciiLowercase byte || isAsciiDigit byte || isNamePunctuation byte
  deriving DecidableEq

@[ext]
structure RunnerSlotOrdinal where
  get : Nat
  positive : 0 < get
  bounded : get < 2 ^ 16
  deriving Repr

instance : DecidableEq RunnerSlotOrdinal := fun left right =>
  decidable_of_iff (left.get = right.get) RunnerSlotOrdinal.ext_iff.symm

theorem RunnerSlotOrdinal.one_bounded : 1 < 2 ^ 16 := by
  decide

namespace CommandSequence

def max : Nat :=
  2 ^ 63 - 1

end CommandSequence

@[ext]
structure CommandSequence where
  get : Nat
  positive : 0 < get
  bounded : get ≤ CommandSequence.max
  deriving Repr

instance : DecidableEq CommandSequence := fun left right =>
  decidable_of_iff (left.get = right.get) CommandSequence.ext_iff.symm

namespace CommandSequence

def first : CommandSequence :=
  ⟨1, by decide, by decide⟩

def checkedNext (sequence : CommandSequence) : Option CommandSequence :=
  if hbound : sequence.get + 1 ≤ max then
    some ⟨sequence.get + 1, Nat.succ_pos _, hbound⟩
  else
    none

theorem checkedNext_eq_some {sequence next : CommandSequence} :
    sequence.checkedNext = some next ↔ next.get = sequence.get + 1 := by
  unfold checkedNext
  split
  · constructor
    · intro hnext
      cases hnext
      rfl
    · intro hget
      rw [Option.some_inj]
      ext
      exact hget.symm
  · have hbounded := next.bounded
    constructor
    · simp
    · omega

end CommandSequence

structure CommandCursor where
  acknowledgedThrough : Option CommandSequence
  deriving DecidableEq, Repr

namespace CommandCursor

def initial : CommandCursor :=
  ⟨none⟩

def through (sequence : CommandSequence) : CommandCursor :=
  ⟨some sequence⟩

def next (cursor : CommandCursor) : Option CommandSequence :=
  match cursor.acknowledgedThrough with
  | some current => current.checkedNext
  | none => some .first

def advance (cursor : CommandCursor) (sequence : CommandSequence) : Option CommandCursor :=
  match cursor.next with
  | some expected => if sequence = expected then some (through sequence) else none
  | none => none

end CommandCursor

structure ProtocolVersion where
  get : Nat
  deriving DecidableEq, Repr

/-- The inclusive range of protocol versions of this build is `3..=3`. -/
def supportedProtocolRangeContains (version : ProtocolVersion) : Bool :=
  3 ≤ version.get && version.get ≤ 3

@[ext]
structure JobIrVersion where
  get : Nat
  positive : 0 < get
  deriving Repr

instance : DecidableEq JobIrVersion := fun left right =>
  decidable_of_iff (left.get = right.get) JobIrVersion.ext_iff.symm

/-- The single job schema which `JobIrVersionRange::current` supports. -/
def currentJobIrRangeSupports (version : JobIrVersion) : Bool :=
  version.get == 1

structure RuntimeAuthorityGeneration where
  get : Nat
  deriving DecidableEq, Repr

structure RuntimeAuthorityDeliveryBinding where
  attemptId : AttemptId
  slot : RunnerSlotOrdinal
  guard : LeaseGuard
  offerOperationId : OperationId
  offerSequence : CommandSequence
  jobIrDigest : Sha256Digest
  generation : RuntimeAuthorityGeneration
  deriving DecidableEq, Repr

structure LeaseAuthorityPollReceipt where
  name : LeaseAuthorityName
  payloadSchemaVersion : Nat
  payloadSha256 : Sha256Digest
  deriving DecidableEq

inductive LeaseRejectionReason where
  | capacityChanged | capabilityChanged | shuttingDown | invalidJob
  deriving DecidableEq, Repr

/-- One value-free secret binding: its environment name, and the grant and
version identities as text. -/
structure ManagedSecretBindingOverlayEntry where
  (canonicalName grantId versionId : List UInt8)
  deriving DecidableEq, Repr

/-- A canonical overlay.  Every constructor of the source checks canonical
form and digest, so the lease coordinates are all that is left to check. -/
structure ManagedSecretBindingOverlay where
  attemptId : AttemptId
  leaseId : LeaseId
  fencingToken : FencingToken
  bindings : List ManagedSecretBindingOverlayEntry
  digest : Sha256Digest
  deriving DecidableEq, Repr

namespace ManagedSecretBindingOverlay

def isFor (overlay : ManagedSecretBindingOverlay) (lease : Lease) : Bool :=
  overlay.attemptId = lease.attemptId && overlay.leaseId = lease.id &&
    overlay.fencingToken = lease.fencingToken

end ManagedSecretBindingOverlay

inductive ProviderOperationKind where
  | createSandbox | startSandbox | stopSandbox | destroySandbox
  deriving DecidableEq, Repr

@[ext]
structure OutboundOperationSequence where
  get : Nat
  positive : 0 < get
  bounded : get ≤ 2 ^ 63 - 1
  deriving Repr

instance : DecidableEq OutboundOperationSequence := fun left right =>
  decidable_of_iff (left.get = right.get) OutboundOperationSequence.ext_iff.symm

namespace OutboundOperationSequence

def first : OutboundOperationSequence :=
  ⟨1, by decide, by decide⟩

def checkedNext (sequence : OutboundOperationSequence) : Option OutboundOperationSequence :=
  if hbound : sequence.get + 1 ≤ 2 ^ 63 - 1 then
    some ⟨sequence.get + 1, Nat.succ_pos _, hbound⟩
  else
    none

end OutboundOperationSequence

inductive JournalInvariantError where
  | noSession
  | sessionMismatch (expected received : RunnerSessionId)
  | sessionHasActiveSlots
  | sessionNegotiationMismatch
  | leasePollCheckpointMissing (slot : RunnerSlotOrdinal)
  | leasePollCheckpointMismatch (expected received : OperationId)
  | leasePollOperationConflict
  | leaseAuthorityReceiptMismatch
  | slotNotFound (slot : RunnerSlotOrdinal)
  | slotOccupied (slot : RunnerSlotOrdinal)
  | slotLimitReached
  | leaseGuardMismatch (expected received : LeaseGuard)
  | leaseRunnerMismatch
  | invalidLease
  | jobIrVersionMismatch
  | invalidJobIrContent
  | invalidRuntimeAuthorityContent
  | invalidRuntimeAuthorityDelivery
  | runtimeAuthorityDeliveryReplayConflict
  | invalidManagedSecretBindings
  | invalidTerminalResultContent
  | invalidDeliveryEnqueuedAt
  | leaseExpiryRegression
  | commandSequenceMismatch (expected received : CommandSequence)
  | commandReplayConflict
  | commandReplayOutsideWindow
  | offerNotAccepted
  | offerAlreadyAccepted
  | offerAlreadyRejected
  | offerNotRejected
  | leaseRejectionReplayConflict
  | leaseRejectionOperationMismatch
  | leaseRejectionNotAcknowledged
  | leaseTerminal
  | invalidProviderOperation (kind : ProviderOperationKind)
  | providerOperationPending
  | providerOperationReplayConflict
  | invalidEndpointRequestContent
  | invalidEndpointResultContent
  | invalidEndpointResultReservation
  | endpointOperationLimit
  | endpointContentRefLimit
  | endpointContentBytesLimit
  | endpointOperationPending
  | endpointOperationNotAccepted
  | endpointOperationReplayConflict
  | endpointOperationMissing
  | endpointOperationCancelled
  | endpointOperationResolved
  | endpointCancellationNotRequested
  | endpointOperationNotAbandonable
  | endpointSandboxStillPresent
  | endpointRecoveryPending
  | endpointOperationsClosed
  | endpointInvocationNotCommitted
  | endpointResultExceedsReservation
  | endpointResultReplayConflict
  | sandboxWithoutCreateIntent
  | sandboxIdentityConflict
  | terminalResultRequired
  | terminalResultReplayConflict
  | terminalResultAlreadyAcknowledgedInput
  | terminalResultOperationMismatch
  | terminalResultNotAcknowledged
  | outboundOperationSequenceMismatch
      (expected received : OutboundOperationSequence)
  | logStreamMismatch
  | logSegmentReplayConflict
  | logStreamClosed
  | invalidLogSpoolContent
  | invalidLogSegment
  | logSegmentMutationConflict
  | logSegmentLimit
  | logBacklogLimit
  | invalidLogAcknowledgement
  | logAcknowledgementConflict
  | slotNotTerminal
  | logDeliveryIncomplete
  | orphanAuthorityMismatch
  | orphanAbandonmentConflict
  | orphanNotAuthorized
  | counterExhausted
  | decodedCollectionLimit
  | decodedStateInvalid
  | invalidLifecycleTransition
  deriving DecidableEq, Repr

structure OutboundOperationCursor where
  contiguousThrough : Option OutboundOperationSequence
  deriving DecidableEq, Repr

namespace OutboundOperationCursor

def initial : OutboundOperationCursor :=
  ⟨none⟩

def advance (cursor : OutboundOperationCursor) (received : OutboundOperationSequence) :
    Except JournalInvariantError OutboundOperationCursor := do
  let expected ←
    match cursor.contiguousThrough with
    | some current => okOr current.checkedNext .counterExhausted
    | none => .ok .first
  rejectIf (received ≠ expected) (.outboundOperationSequenceMismatch expected received)
  return ⟨some received⟩

end OutboundOperationCursor

/-- Enqueue times lie between the epoch and the end of the year 9999. -/
def validateDeliveryEnqueuedAt (value : UnixMillis) : Except JournalInvariantError Unit :=
  rejectIf (¬(0 ≤ value.get ∧ value.get ≤ maxDeliveryEnqueuedAtMillis)) .invalidDeliveryEnqueuedAt

end AutomataCi
