import AutomataCi.EndpointOperations
import AutomataCi.JournalCommands
import AutomataCi.LogDelivery
import AutomataCi.OrphanRecords
import AutomataCi.ProviderOperations

/-!
# The journal state

The durable state of a runner: the negotiated session with its command cursor
and lease-poll checkpoints, one snapshot per occupied slot, and the validation
which every decoded or newly committed state has to pass.
-/

namespace AutomataCi

open GuardedResult

inductive LeaseOfferStatus where
  | recorded | accepted | rejected
  deriving DecidableEq, Repr

structure SessionBinding where
  sessionId : RunnerSessionId
  selectedProtocol : ProtocolVersion
  selectedJobIr : JobIrVersion
  deriving DecidableEq, Repr

structure LeasePollCheckpoint where
  slot : RunnerSlotOrdinal
  currentOperationId : OperationId
  acknowledgesOperationId : Option OperationId
  pendingAuthorityReceipts : List LeaseAuthorityPollReceipt
  deriving DecidableEq

namespace LeasePollCheckpoint

def first (slot : RunnerSlotOrdinal) (currentOperationId : OperationId) : LeasePollCheckpoint where
  slot
  currentOperationId
  acknowledgesOperationId := none
  pendingAuthorityReceipts := []

def operations (checkpoint : LeasePollCheckpoint) : List OperationId :=
  checkpoint.currentOperationId :: checkpoint.acknowledgesOperationId.toList

def ordinal (checkpoint : LeasePollCheckpoint) : Nat :=
  checkpoint.slot.get

end LeasePollCheckpoint

structure SessionSnapshot where
  sessionId : RunnerSessionId
  selectedProtocol : ProtocolVersion
  selectedJobIr : JobIrVersion
  commandCursor : CommandCursor
  commandTombstones : List CommandTombstone
  leasePollCheckpoints : List LeasePollCheckpoint
  deriving DecidableEq

namespace SessionSnapshot

def new (binding : SessionBinding) : SessionSnapshot where
  sessionId := binding.sessionId
  selectedProtocol := binding.selectedProtocol
  selectedJobIr := binding.selectedJobIr
  commandCursor := .initial
  commandTombstones := []
  leasePollCheckpoints := []

def binding (session : SessionSnapshot) : SessionBinding :=
  ⟨session.sessionId, session.selectedProtocol, session.selectedJobIr⟩

end SessionSnapshot

structure LeasePollCompletion where
  pollSlot : RunnerSlotOrdinal
  (expectedCurrent successorOperationId : OperationId)
  pendingAuthorityReceipts : List LeaseAuthorityPollReceipt
  command : LeasePollCommandRecord
  deriving DecidableEq

/-- Receipts are few, strictly ordered by name and of a nonzero schema. -/
def validateAuthorityReceipts (receipts : List LeaseAuthorityPollReceipt) :
    Except JournalInvariantError Unit :=
  rejectIf (maxLeaseAuthorityPollContributions < receipts.length ∨
      ¬receipts.IsChain (fun left right =>
        left.name.bytes < right.name.bytes) ∨
      ∃ receipt ∈ receipts, receipt.payloadSchemaVersion = 0)
    .decodedStateInvalid

def validateTombstones (previous : Option CommandSequence) (operations : List OperationId) :
    List CommandTombstone → Except JournalInvariantError Unit
  | [] => .ok ()
  | tombstone :: rest => do
      rejectIf ((∃ sequence ∈ previous, tombstone.command.sequence.get ≤ sequence.get) ∨
          tombstone.command.operationId ∈ operations) .decodedStateInvalid
      validateTombstones (some tombstone.command.sequence)
        (tombstone.command.operationId :: operations) rest

def validateCheckpoints (previous : Option RunnerSlotOrdinal) (operations : List OperationId) :
    List LeasePollCheckpoint → Except JournalInvariantError Unit
  | [] => .ok ()
  | checkpoint :: rest => do
      rejectIf (maxJournaledSlots < checkpoint.slot.get ∨
          (∃ slot ∈ previous, checkpoint.slot.get ≤ slot.get) ∨
          checkpoint.currentOperationId ∈ operations ∨
          (∃ operation ∈ checkpoint.acknowledgesOperationId,
            operation ∈ checkpoint.currentOperationId :: operations))
        .decodedStateInvalid
      validateAuthorityReceipts checkpoint.pendingAuthorityReceipts
      validateCheckpoints (some checkpoint.slot) (checkpoint.operations ++ operations) rest

def validateSession (session : SessionSnapshot) : Except JournalInvariantError Unit := do
  rejectIf (supportedProtocolRangeContains session.selectedProtocol = false ∨
      currentJobIrRangeSupports session.selectedJobIr = false ∨
      maxCommandTombstones < session.commandTombstones.length ∨
      maxJournaledSlots < session.leasePollCheckpoints.length)
    .decodedStateInvalid
  validateTombstones none [] session.commandTombstones
  rejectIf (session.commandCursor.acknowledgedThrough ≠ session.commandTombstones.getLast?.map
        fun tombstone => tombstone.command.sequence) .decodedStateInvalid
  validateCheckpoints none [] session.leasePollCheckpoints

structure SlotSnapshot where
  offer : LeaseOfferRecord
  offerStatus : LeaseOfferStatus
  runtimeAuthorityDelivery : Option RuntimeAuthorityDeliveryRecord
  rejection : Option LeaseRejectionRecord
  rejectionEnqueuedAt : Option UnixMillis
  expiresAt : UnixMillis
  lifecycle : JobLifecycle
  cancellation : Option CancellationRecord
  terminalResult : Option TerminalResultRecord
  terminalResultEnqueuedAt : Option UnixMillis
  providerCheckpoint : ProviderRecoveryState
  providerOperations : List ProviderOperation
  endpointOperations : List EndpointOperation
  sandbox : Option SandboxIdentity
  outboundOperations : OutboundOperationCursor
  logDelivery : Option LogDeliveryCursor
  orphan : Option OrphanRecord
  deriving DecidableEq

namespace SlotSnapshot

def fromOffer (offer : LeaseOfferRecord) : SlotSnapshot where
  offer
  offerStatus := .recorded
  runtimeAuthorityDelivery := none
  rejection := none
  rejectionEnqueuedAt := none
  expiresAt := offer.lease.expiresAt
  lifecycle := .leased
  cancellation := none
  terminalResult := none
  terminalResultEnqueuedAt := none
  providerCheckpoint := .initial
  providerOperations := []
  endpointOperations := []
  sandbox := none
  outboundOperations := .initial
  logDelivery := none
  orphan := none

variable (self : SlotSnapshot)

def slot : RunnerSlotOrdinal :=
  self.offer.slot

def ordinal : Nat :=
  self.slot.get

def guard : LeaseGuard :=
  self.offer.lease.guard

def requireGuard (received : LeaseGuard) : Except JournalInvariantError Unit :=
  rejectIf (self.guard ≠ received) (.leaseGuardMismatch self.guard received)

def endpointRecoveryPending : Option EndpointOperation :=
  self.endpointOperations.getLast?.filter EndpointOperation.isRecoveryPending

/-- Whether the coordinates of a delivery are those of the offer. -/
def bindingMatches (binding : RuntimeAuthorityDeliveryBinding) : Bool :=
  binding.attemptId = self.offer.lease.attemptId && binding.slot = self.offer.slot &&
    binding.guard = self.offer.lease.guard &&
    binding.offerOperationId = self.offer.command.operationId &&
    binding.offerSequence = self.offer.command.sequence &&
    self.offer.jobIr.content.publicPlaintextSha256 = some binding.jobIrDigest

def validateRuntimeAuthorityDelivery : Except JournalInvariantError Unit :=
  ifPresent self.runtimeAuthorityDelivery fun delivery => do
    delivery.validate
    rejectIf (self.offerStatus ≠ .accepted ∨ self.bindingMatches delivery.binding = false)
      .invalidRuntimeAuthorityDelivery

/-- The loop over the endpoint operations, with the identifiers, references
and bytes so far; the result is the totals. -/
def validateEndpointLoop (seen : List OperationId) (refs bytes : Nat) :
    List EndpointOperation → Except JournalInvariantError (Nat × Nat)
  | [] => .ok (refs, bytes)
  | operation :: rest => do
      operation.validate
      rejectIf (2 ^ 64 ≤ refs + operation.accountedContentRefs) .decodedStateInvalid
      let operationBytes ← operation.accountedContentBytes
      rejectIf (2 ^ 64 ≤ bytes + operationBytes) .decodedStateInvalid
      rejectIf (operation.operationId ∈ seen ∨ (operation.isRecoveryPending = true ∧ rest ≠ []))
        .decodedStateInvalid
      validateEndpointLoop (operation.operationId :: seen)
        (refs + operation.accountedContentRefs) (bytes + operationBytes) rest

def validateEndpointOperations : Except JournalInvariantError Unit := do
  rejectIf (maxEndpointOperationsPerJob < self.endpointOperations.length) .decodedCollectionLimit
  rejectIf (self.endpointOperations ≠ [] ∧ self.offerStatus ≠ .accepted) .decodedStateInvalid
  let totals ← validateEndpointLoop [] 0 0 self.endpointOperations
  rejectIf (maxEndpointContentRefsPerSlot < totals.1 ∨ maxEndpointContentBytesPerSlot < totals.2 ∨
      ((self.lifecycle = .finalizing ∨ self.lifecycle.isTerminal = true) ∧
        self.endpointRecoveryPending.isSome = true))
    .decodedCollectionLimit

/-- Close an orphaned job as lost once its endpoint operations are
resolved. -/
def terminalizeOrphanAfterEndpointResolution : SlotSnapshot :=
  if self.orphan.isSome = true ∧ self.lifecycle.isTerminal = false ∧
      self.endpointRecoveryPending = none then
    { self with lifecycle := .lost }
  else
    self

def validateDeliveryTimestamps : Except JournalInvariantError Unit := do
  rejectIf (self.rejection.isSome ≠ self.rejectionEnqueuedAt.isSome ∨
      self.terminalResult.isSome ≠ self.terminalResultEnqueuedAt.isSome)
    .decodedStateInvalid
  ifPresent self.rejectionEnqueuedAt validateDeliveryEnqueuedAt
  ifPresent self.terminalResultEnqueuedAt validateDeliveryEnqueuedAt

def validateLogState : Except JournalInvariantError Unit :=
  ifPresent self.logDelivery fun log => do
    rejectIf ((log.acknowledgedThrough.isSome = true ∧ log.producedThrough = none) ∨
        (∃ acknowledged ∈ log.acknowledgedThrough, ∃ produced ∈ log.producedThrough,
            produced.get < acknowledged.get) ∨
        (∃ finalSequence ∈ log.endOfStream, log.producedThrough ≠ some finalSequence))
      .decodedStateInvalid
    log.validate

def authorityAcknowledged : Bool :=
  match self.runtimeAuthorityDelivery with
  | some delivery => delivery.acknowledged
  | none => false

def validateProviderState : Except JournalInvariantError Unit := do
  rejectIf (self.providerOperations ≠ [] ∧ self.offerStatus ≠ .accepted) .decodedStateInvalid
  rejectIf ((self.providerOperations ≠ [] ∨ self.sandbox.isSome = true) ∧
      self.authorityAcknowledged = false) .decodedStateInvalid
  rejectIf (self.providerCheckpoint.isCoherent = false) .decodedStateInvalid
  let recovery ← replayProviderOperations self.providerCheckpoint self.providerOperations
  rejectIf (self.sandbox.isSome ≠ recovery.sandboxLive) .decodedStateInvalid

def rejectionConsistent : Bool :=
  match self.offerStatus, self.rejection with
  | .recorded, none | .accepted, none | .rejected, some _ => true
  | _, _ => false

def isUnstarted : JobLifecycle → Bool
  | .leased | .cancelling => true
  | _ => false

def isBeforeCancellation : JobLifecycle → Bool
  | .queued | .leased | .preparing | .running | .skipped => true
  | _ => false

def validateOrphan (session : SessionSnapshot) : Except JournalInvariantError Unit :=
  ifPresent self.orphan fun orphan =>
    rejectIf (orphan.sessionId ≠ session.sessionId ∨ orphan.guard ≠ self.guard ∨
        (self.lifecycle.isTerminal = false ∧ self.endpointRecoveryPending = none) ∨
        (orphan.isAbandoned .terminalResult = true ∧ self.terminalResult = none) ∨
        (orphan.isAbandoned .logStream = true ∧ self.logDelivery = none) ∨
        (orphan.isAbandoned .leaseRejection = true ∧ self.rejection = none))
      .decodedStateInvalid

def validate (runnerId : RunnerId)
    (session : SessionSnapshot) : Except JournalInvariantError Unit := do
  self.offer.validate
  self.validateRuntimeAuthorityDelivery
  rejectIf (self.offer.lease.runnerId ≠ runnerId) .leaseRunnerMismatch
  rejectIf (self.offer.jobIr.version ≠ session.selectedJobIr) .jobIrVersionMismatch
  rejectIf (self.expiresAt.get < self.offer.lease.expiresAt.get) .decodedStateInvalid
  rejectIf (maxProviderOperationsPerSlot < self.providerOperations.length) .decodedCollectionLimit
  self.validateEndpointOperations
  self.validateProviderState
  rejectIf (self.rejectionConsistent = false) .decodedStateInvalid
  self.validateDeliveryTimestamps
  rejectIf (self.orphan = none ∧ self.offerStatus = .recorded ∧
      isUnstarted self.lifecycle = false) .decodedStateInvalid
  rejectIf (self.orphan = none ∧ self.offerStatus = .rejected ∧
      isUnstarted self.lifecycle = false) .decodedStateInvalid
  rejectIf (self.offerStatus = .rejected ∧ self.logDelivery.isSome = true) .decodedStateInvalid
  ifPresent self.terminalResult fun result => do
    result.validate
    rejectIf (self.offerStatus ≠ .accepted ∨ self.lifecycle.isTerminal = false) .decodedStateInvalid
  rejectIf (self.offerStatus = .accepted ∧ self.lifecycle.isTerminal = true ∧
      self.terminalResult = none ∧ self.orphan = none) .decodedStateInvalid
  self.validateOrphan session
  ifPresent self.cancellation fun cancellation =>
    rejectIf (cancellation.command.sequence.get ≤
      self.offer.command.sequence.get) .decodedStateInvalid
  rejectIf (self.cancellation.isSome = true ∧
      isBeforeCancellation self.lifecycle = true) .decodedStateInvalid
  self.validateLogState

def commands : List DurableCommand :=
  self.offer.command :: (self.cancellation.map CancellationRecord.command).toList

end SlotSnapshot

structure StoredJournal where
  (schemaVersion revision : Nat)
  runnerId : RunnerId
  session : Option SessionSnapshot
  slots : List SlotSnapshot
  deriving DecidableEq

/-- A command is older than the replay window, or was applied inside it. -/
def commandHasAppliedTombstoneOrIsOlder (session : SessionSnapshot)
    (command : DurableCommand) : Bool :=
  match session.commandTombstones.head? with
  | none => false
  | some first =>
    command.sequence.get < first.command.sequence.get ||
      session.commandTombstones.any fun tombstone =>
        tombstone.command = command && tombstone.disposition = .applied

namespace StoredJournal

def new (runnerId : RunnerId) : StoredJournal where
  schemaVersion := runnerJournalSchemaVersion
  revision := 0
  runnerId
  session := none
  slots := []

def incrementRevision (self : StoredJournal) : Except JournalInvariantError StoredJournal := do
  rejectIf (2 ^ 64 ≤ self.revision + 1) .counterExhausted
  return { self with revision := self.revision + 1 }

def validateCommand (session : SessionSnapshot)
    (sequences : List CommandSequence) (operations : List OperationId)
    (command : DurableCommand) : Except JournalInvariantError Unit :=
  rejectIf (command.sequence ∈ sequences ∨ command.operationId ∈ operations ∨
      commandHasAppliedTombstoneOrIsOlder session command = false)
    .decodedStateInvalid

def isBeyondCursor (session : SessionSnapshot) (command : DurableCommand) : Bool :=
  match session.commandCursor.acknowledgedThrough with
  | none => true
  | some cursor => cursor.get < command.sequence.get

/-- The loop over the slots, with the last ordinal and the command sequences
and operations seen so far. -/
def validateSlots (runnerId : RunnerId) (session : Option SessionSnapshot)
    (previous : Option RunnerSlotOrdinal) (sequences : List CommandSequence)
    (operations : List OperationId) :
    List SlotSnapshot → Except JournalInvariantError Unit
  | [] => .ok ()
  | slot :: rest => do
      rejectIf (maxJournaledSlots < slot.slot.get ∨
          ∃ ordinal ∈ previous, slot.slot.get ≤ ordinal.get)
        .decodedStateInvalid
      let session' ← okOr session .decodedStateInvalid
      slot.validate runnerId session'
      validateCommand session' sequences operations slot.offer.command
      ifPresent slot.cancellation fun cancellation =>
        validateCommand session' (slot.offer.command.sequence :: sequences)
          (slot.offer.command.operationId :: operations)
          cancellation.command
      rejectIf (isBeyondCursor session' slot.offer.command = true ∨
          ∃ cancellation ∈ slot.cancellation, isBeyondCursor session' cancellation.command = true)
        .decodedStateInvalid
      validateSlots runnerId session (some slot.slot)
        (slot.commands.map DurableCommand.sequence ++ sequences)
        (slot.commands.map DurableCommand.operationId ++ operations) rest

def validate (self : StoredJournal) : Except JournalInvariantError Unit := do
  rejectIf (self.schemaVersion ≠ runnerJournalSchemaVersion) .decodedStateInvalid
  rejectIf (maxJournaledSlots < self.slots.length) .decodedCollectionLimit
  rejectIf (self.slots ≠ [] ∧ self.session = none) .decodedStateInvalid
  rejectIf (self.session.isSome = true ∧ self.revision = 0) .decodedStateInvalid
  ifPresent self.session validateSession
  validateSlots self.runnerId self.session none [] [] self.slots

end StoredJournal

end AutomataCi
