import AutomataCi.JournalState

/-!
# Slot mutations

The journal operations which change one occupied slot.  Each returns whether
it changed the slot, and the slot; an error drops the candidate.
-/

namespace AutomataCi

open GuardedResult FallibleState KeyedList

abbrev SlotResult : Type :=
  Except JournalInvariantError (Bool × SlotSnapshot)

namespace SlotSnapshot

variable (self : SlotSnapshot)

def acceptOffer : SlotResult := do
  rejectIf (self.orphan.isSome = true) .orphanNotAuthorized
  match self.offerStatus with
  | .recorded => .ok (true, { self with offerStatus := .accepted })
  | .accepted => .ok (false, self)
  | .rejected => .error .offerAlreadyRejected

def recordRuntimeAuthorityDelivery (delivery : RuntimeAuthorityDeliveryRecord) : SlotResult := do
  rejectIf (self.offerStatus ≠ .accepted) .offerNotAccepted
  delivery.validate
  rejectIf (self.bindingMatches delivery.binding = false) .invalidRuntimeAuthorityDelivery
  match self.runtimeAuthorityDelivery with
  | some existing =>
    if existing = delivery then .ok (false, self)
    else .error .runtimeAuthorityDeliveryReplayConflict
  | none => .ok (true, { self with runtimeAuthorityDelivery := some delivery })

def acknowledgeRuntimeAuthorityDelivery
    (generation : RuntimeAuthorityGeneration) (bundleDigest : Sha256Digest)
    (operationId : OperationId) : SlotResult := do
  let delivery ← okOr self.runtimeAuthorityDelivery .invalidRuntimeAuthorityDelivery
  let (changed, next) ← delivery.acknowledge generation bundleDigest operationId
  return (changed, { self with runtimeAuthorityDelivery := some next })

def rejectOffer (reason : LeaseRejectionReason)
    (responseOperationId : OperationId) (enqueuedAt : UnixMillis) :
    SlotResult := do
  rejectIf (self.orphan.isSome = true) .orphanNotAuthorized
  match self.offerStatus with
  | .recorded => do
      validateDeliveryEnqueuedAt enqueuedAt
      return (true, { self with
        offerStatus := .rejected
        rejection := some (.new reason responseOperationId)
        rejectionEnqueuedAt := some enqueuedAt })
  | .accepted => .error .offerAlreadyAccepted
  | .rejected =>
    if ∃ rejection ∈ self.rejection, rejection.reason = reason ∧
        rejection.responseOperationId = responseOperationId then
      .ok (false, self)
    else
      .error .leaseRejectionReplayConflict

def acknowledgeOfferRejection (responseOperationId : OperationId) : SlotResult := do
  rejectIf (self.offerStatus ≠ .rejected) .offerNotRejected
  let rejection ← okOr self.rejection .decodedStateInvalid
  rejectIf (rejection.responseOperationId ≠ responseOperationId) .leaseRejectionOperationMismatch
  if rejection.responseAcknowledged then
    return (false, self)
  else
    return (true, { self with rejection := some rejection.acknowledgeResponse })

def renewLease (expiresAt : UnixMillis) :
    SlotResult := do
  rejectIf (self.orphan.isSome = true) .orphanNotAuthorized
  rejectIf (self.offerStatus = .rejected) .offerAlreadyRejected
  rejectIf (expiresAt.get < self.expiresAt.get) .leaseExpiryRegression
  if expiresAt = self.expiresAt then
    return (false, self)
  else
    return (true, { self with expiresAt })

def transitionLifecycle (next : JobLifecycle) :
    SlotResult := do
  rejectIf (self.offerStatus ≠ .accepted) .offerNotAccepted
  rejectIf (self.orphan.isSome = true) .orphanNotAuthorized
  if self.lifecycle = next then
    return (false, self)
  else
    rejectIf (next.isTerminal = true) .terminalResultRequired
    rejectIf (next = .finalizing ∧
      self.endpointRecoveryPending.isSome = true) .endpointRecoveryPending
    (self.lifecycle.validateTransition next).mapError fun _ => .invalidLifecycleTransition
    return (true, { self with lifecycle := next })

def recordTerminalResult (terminal : JobLifecycle)
    (result : TerminalResultRecord) (enqueuedAt : UnixMillis) :
    SlotResult := do
  rejectIf (self.offerStatus ≠ .accepted) .offerNotAccepted
  rejectIf (self.orphan.isSome = true) .orphanNotAuthorized
  result.validate
  rejectIf (result.acknowledged = true) .terminalResultAlreadyAcknowledgedInput
  rejectIf (terminal.isTerminal = false) .invalidLifecycleTransition
  rejectIf (self.endpointRecoveryPending.isSome = true) .endpointRecoveryPending
  match self.terminalResult with
  | some existing =>
    if existing.matchesUnacknowledged result = true ∧ self.lifecycle = terminal then
      .ok (false, self)
    else
      .error .terminalResultReplayConflict
  | none => do
      validateDeliveryEnqueuedAt enqueuedAt
      (self.lifecycle.validateTransition terminal).mapError fun _ => .invalidLifecycleTransition
      return (true, { self with
        lifecycle := terminal
        terminalResult := some result
        terminalResultEnqueuedAt := some enqueuedAt })

def acknowledgeTerminalResult (operationId : OperationId) : SlotResult := do
  let result ← okOr self.terminalResult .terminalResultRequired
  rejectIf (result.operationId ≠ operationId) .terminalResultOperationMismatch
  if result.acknowledged then
    return (false, self)
  else
    return (true, { self with terminalResult := some result.acknowledge })

def sumContentRefs (total : Nat) : List EndpointOperation → Except JournalInvariantError Nat
  | [] => .ok total
  | operation :: rest => do
      rejectIf (2 ^ 64 ≤ total + operation.accountedContentRefs) .endpointContentRefLimit
      sumContentRefs (total + operation.accountedContentRefs) rest

def sumContentBytes (total : Nat) : List EndpointOperation → Except JournalInvariantError Nat
  | [] => .ok total
  | operation :: rest => do
      let bytes ← operation.accountedContentBytes
      rejectIf (2 ^ 64 ≤ total + bytes) .endpointContentBytesLimit
      sumContentBytes (total + bytes) rest

def checkEndpointLimits (operation : EndpointOperation) : Except JournalInvariantError Unit := do
  rejectIf (maxEndpointOperationsPerJob ≤ self.endpointOperations.length) .endpointOperationLimit
  let refs ← sumContentRefs operation.accountedContentRefs self.endpointOperations
  rejectIf (maxEndpointContentRefsPerSlot < refs) .endpointContentRefLimit
  let ownBytes ← operation.accountedContentBytes
  let bytes ← sumContentBytes ownBytes self.endpointOperations
  rejectIf (maxEndpointContentBytesPerSlot < bytes) .endpointContentBytesLimit

def acceptEndpointOperation (operation : EndpointOperation) : SlotResult := do
  rejectIf (self.offerStatus ≠ .accepted) .offerNotAccepted
  rejectIf (self.lifecycle.isTerminal = true) .leaseTerminal
  rejectIf (self.orphan.isSome = true) .orphanNotAuthorized
  operation.validate
  rejectIf (operation.state ≠ .accepted) .endpointOperationNotAccepted
  match lookup EndpointOperation.operationId operation.operationId self.endpointOperations with
  | some existing =>
    if existing.matchesAcceptance operation = true then .ok (false, self)
    else .error .endpointOperationReplayConflict
  | none => do
      rejectIf (self.cancellation.isSome = true) .endpointOperationsClosed
      rejectIf (self.endpointRecoveryPending.isSome = true) .endpointOperationPending
      self.checkEndpointLimits operation
      return (true, { self with
        endpointOperations := self.endpointOperations ++ [operation] })

variable (operationId : OperationId)

def updateEndpointOperation
    (update : EndpointOperation → Except JournalInvariantError (Bool × EndpointOperation)) :
    SlotResult := do
  let operation ← okOr (lookup EndpointOperation.operationId operationId
      self.endpointOperations) .endpointOperationMissing
  let (changed, next) ← update operation
  return (changed, { self with
    endpointOperations := replace EndpointOperation.operationId next self.endpointOperations })

def commitEndpointInvocation : SlotResult :=
  self.updateEndpointOperation operationId EndpointOperation.commitInvocation

def recordEndpointCancellation : SlotResult := do
  let (changed, next) ← self.updateEndpointOperation operationId
    fun operation => .ok operation.requestCancellation
  return (changed, next.terminalizeOrphanAfterEndpointResolution)

def completeEndpointCancellation : SlotResult := do
  rejectIf (self.sandbox.isSome = true) .endpointSandboxStillPresent
  let (changed, next) ← self.updateEndpointOperation operationId
    EndpointOperation.completeCancellation
  return (changed, next.terminalizeOrphanAfterEndpointResolution)

def abandonEndpointOperation : SlotResult := do
  rejectIf (self.sandbox.isSome = true) .endpointSandboxStillPresent
  let (changed, next) ← self.updateEndpointOperation operationId EndpointOperation.abandon
  return (changed, next.terminalizeOrphanAfterEndpointResolution)

def recordEndpointResult (result : EndpointResultContentRef) : SlotResult :=
  self.updateEndpointOperation operationId fun operation => operation.recordResult result

/-- Make room for one more operation: a full window gives its oldest entry to
the checkpoint. -/
def compactWindow (checkpoint : ProviderRecoveryState) (operations : List ProviderOperation) :
    Except JournalInvariantError (ProviderRecoveryState × List ProviderOperation) :=
  if maxProviderOperationsPerSlot ≤ operations.length then
    match operations with
    | [] => .ok (checkpoint, [])
    | oldest :: rest => do
        let compacted ← checkpoint.compact oldest
        return (compacted, rest)
  else
    .ok (checkpoint, operations)

def lifecycleAllows (kind : ProviderOperationKind) : Bool :=
  self.orphan.isSome ||
    match kind with
    | .createSandbox => self.lifecycle = .leased || self.lifecycle = .preparing
    | .startSandbox => self.lifecycle = .preparing
    | .stopSandbox => self.lifecycle = .running || self.lifecycle = .cancelling
    | .destroySandbox => true

def recordProviderIntent (intent : ProviderOperation) :
    SlotResult := do
  rejectIf (self.offerStatus ≠ .accepted) .offerNotAccepted
  rejectIf (self.lifecycle.isTerminal = true ∧ self.orphan = none ∧
    intent.kind ≠ .destroySandbox) .leaseTerminal
  rejectIf (self.orphan.isSome = true ∧ intent.kind ≠ .stopSandbox ∧
    intent.kind ≠ .destroySandbox) (.invalidProviderOperation intent.kind)
  rejectIf (intent.outcome ≠ .pending) (.invalidProviderOperation intent.kind)
  match lookup ProviderOperation.operationId intent.operationId self.providerOperations with
  | some existing =>
    if existing.kind = intent.kind then .ok (false, self)
    else .error .providerOperationReplayConflict
  | none => do
      rejectIf (∃ operation ∈ self.providerOperations.getLast?,
        operation.isPending = true) .providerOperationPending
      let (checkpoint, window) ← compactWindow self.providerCheckpoint self.providerOperations
      let recovery ← replayProviderOperations checkpoint window
      rejectIf (¬(self.lifecycleAllows intent.kind = true ∧ recovery.canBegin intent.kind = true))
        (.invalidProviderOperation intent.kind)
      return (true, { self with
        providerCheckpoint := checkpoint
        providerOperations := window ++ [intent] })

def withLastProviderOperation (operation : ProviderOperation) : SlotSnapshot :=
  { self with
    providerOperations := self.providerOperations.dropLast ++ [operation] }

def recordSandboxCreated (sandbox : SandboxIdentity) : SlotResult := do
  let operation ← okOr self.providerOperations.getLast? .sandboxWithoutCreateIntent
  rejectIf (operation.operationId ≠ operationId ∨
    operation.kind ≠ .createSandbox) .sandboxWithoutCreateIntent
  if operation.outcome = .applied then
    if self.sandbox = some sandbox then .ok (false, self)
    else .error .sandboxIdentityConflict
  else
    rejectIf (self.sandbox.isSome = true) .sandboxIdentityConflict
    let (changed, next) ← operation.markApplied
    return (changed, { self.withLastProviderOperation next with
      sandbox := some sandbox })

def completeProviderOperation : SlotResult := do
  let operation ← okOr self.providerOperations.getLast? .providerOperationReplayConflict
  rejectIf (operation.operationId ≠ operationId) .providerOperationReplayConflict
  rejectIf (operation.kind = .createSandbox) .sandboxWithoutCreateIntent
  let (changed, next) ← operation.markApplied
  return (changed, { self.withLastProviderOperation next with
    sandbox :=
      if changed = true ∧ operation.kind = .destroySandbox then none
      else self.sandbox })

def failProviderOperation (failure : ProviderFailureOutcome) : SlotResult := do
  let operation ← okOr self.providerOperations.getLast? .providerOperationReplayConflict
  rejectIf (operation.operationId ≠ operationId) .providerOperationReplayConflict
  let (changed, next) ← operation.resolveFailure failure
  return (changed, self.withLastProviderOperation next)

def advanceOutboundOperation (sequence : OutboundOperationSequence) : SlotResult := do
  if self.outboundOperations.contiguousThrough = some sequence then
    return (false, self)
  else
    let next ← self.outboundOperations.advance sequence
    return (true, { self with outboundOperations := next })

def openLogStream (streamId : LogStreamId) :
    SlotResult := do
  rejectIf (self.offerStatus ≠ .accepted) .offerNotAccepted
  rejectIf (self.orphan.isSome = true) .orphanNotAuthorized
  match self.logDelivery with
  | some log =>
    if log.streamId = streamId then .ok (false, self)
    else .error .logStreamMismatch
  | none => .ok (true, { self with logDelivery := some (.new streamId) })

def requireLogStream (streamId : LogStreamId) : Except JournalInvariantError LogDeliveryCursor := do
  let log ← okOr self.logDelivery .logStreamMismatch
  rejectIf (log.streamId ≠ streamId) .logStreamMismatch
  return log

def recordLogSegment (publication : LogSegmentPublication) (enqueuedAt : UnixMillis) :
    SlotResult := do
  rejectIf (self.orphan.isSome = true) .orphanNotAuthorized
  let log ← self.requireLogStream publication.streamId
  if log.producedThrough = some publication.segment.lastSequence then
    if log.segments.getLast? = some publication.segment then
      .ok (false, self)
    else
      .error .logSegmentReplayConflict
  else
    let (_, next) ← onCandidate (LogDeliveryCursor.recordSegment publication enqueuedAt) log
    return (true, { self with logDelivery := some next })

def sealLogSegment (streamId : LogStreamId) (expectedContent : DurableContentRef) : SlotResult := do
  let log ← self.requireLogStream streamId
  let (changed, next) ← onCandidate (LogDeliveryCursor.sealSegment expectedContent) log
  return (changed, { self with logDelivery := some next })

def acknowledgeLogSegment (acknowledgement : LogSegmentAcknowledgement) : SlotResult := do
  let log ← self.requireLogStream acknowledgement.streamId
  let (changed, next) ← onCandidate (LogDeliveryCursor.acknowledgeSegment acknowledgement) log
  return (changed, { self with logDelivery := some next })

def hasDelivery : OrphanDelivery → Bool
  | .terminalResult => self.terminalResult.isSome
  | .logStream => self.logDelivery.isSome
  | .leaseRejection => self.rejection.isSome

def abandonOrphanDelivery (authorityOperationId : OperationId) (delivery : OrphanDelivery)
    (reason : OrphanAbandonmentReason) : SlotResult := do
  rejectIf (self.hasDelivery delivery = false) .orphanAbandonmentConflict
  let orphan ← okOr self.orphan .orphanNotAuthorized
  let (changed, next) ← orphan.abandon authorityOperationId delivery reason
  return (changed, { self with orphan := some next })

def authorizeOrphan (grant : OrphanAuthorityGrant) : SlotResult :=
  match self.orphan with
  | some orphan =>
    if orphan.matchesGrant grant = true then .ok (false, self)
    else .error .orphanAuthorityMismatch
  | none =>
    .ok (true, { self with
      orphan := some (.fromGrant grant)
      lifecycle :=
        if self.lifecycle.isTerminal = false ∧ self.endpointRecoveryPending = none then .lost
        else self.lifecycle })

def cancelPendingEndpointOperation : List EndpointOperation :=
  match self.endpointRecoveryPending with
  | some operation => self.endpointOperations.dropLast ++ [operation.requestCancellation.2]
  | none => self.endpointOperations

def validateCancelling : Except JournalInvariantError Unit :=
  if self.lifecycle = .cancelling then .ok ()
  else
    (self.lifecycle.validateTransition .cancelling).mapError fun _ => .invalidLifecycleTransition

def applyCancellation (cancellation : CancellationRecord) :
    Except JournalInvariantError SlotSnapshot := do
  self.validateCancelling
  return { self with
    cancellation := some cancellation
    lifecycle := .cancelling
    endpointOperations := self.cancelPendingEndpointOperation }

end SlotSnapshot

end AutomataCi
