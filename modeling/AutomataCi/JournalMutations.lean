import AutomataCi.SlotMutations

/-!
# Journal mutations

The operations of the stored journal: sessions, lease polls, server commands,
the mutations of one slot, orphan authority and the release of a slot.  Each
returns whether it changed the journal, and the journal; an error drops the
candidate.
-/

namespace AutomataCi

open GuardedResult KeyedList

abbrev JournalResult : Type :=
  Except JournalInvariantError (Bool × StoredJournal)

namespace StoredJournal

variable (self : StoredJournal)

def beginSession (binding : SessionBinding) : JournalResult :=
  match self.session with
  | some current =>
    if current.binding = binding then .ok (false, self)
    else if current.sessionId = binding.sessionId then
      .error .sessionNegotiationMismatch
    else if self.slots ≠ [] then .error .sessionHasActiveSlots
    else .ok (true, { self with session := some (.new binding) })
  | none => .ok (true, { self with session := some (.new binding) })

def requireSession (received : RunnerSessionId) : Except JournalInvariantError SessionSnapshot := do
  let expected ← okOr self.session .noSession
  rejectIf (expected.sessionId ≠ received) (.sessionMismatch expected.sessionId received)
  return expected

def withSession (session : SessionSnapshot) : StoredJournal :=
  { self with session := some session }

end StoredJournal

namespace SessionSnapshot

variable (session : SessionSnapshot)

def leasePollOperationIsUsed (operationId : OperationId) : Bool :=
  session.leasePollCheckpoints.any fun checkpoint =>
    checkpoint.currentOperationId = operationId ||
      checkpoint.acknowledgesOperationId = some operationId

def checkpointAt (slot : RunnerSlotOrdinal) : Option LeasePollCheckpoint :=
  lookup LeasePollCheckpoint.ordinal slot.get session.leasePollCheckpoints

def withCheckpoint (checkpoint : LeasePollCheckpoint) : SessionSnapshot :=
  { session with
    leasePollCheckpoints :=
      replace LeasePollCheckpoint.ordinal checkpoint session.leasePollCheckpoints }

end SessionSnapshot

namespace StoredJournal

variable (self : StoredJournal) (sessionId : RunnerSessionId)

def prepareLeasePoll (slot : RunnerSlotOrdinal) (operationId : OperationId) :
    JournalResult := do
  let session ← self.requireSession sessionId
  match session.checkpointAt slot with
  | some _ => .ok (false, self)
  | none => do
      rejectIf (maxJournaledSlots < slot.get) .slotLimitReached
      rejectIf (session.leasePollOperationIsUsed operationId = true) .leasePollOperationConflict
      return (true, self.withSession { session with
        leasePollCheckpoints :=
          insert LeasePollCheckpoint.ordinal (.first slot operationId)
            session.leasePollCheckpoints })

def advanceLeasePoll (slot : RunnerSlotOrdinal) (expectedCurrent successorOperationId : OperationId)
    (pendingAuthorityReceipts : List LeaseAuthorityPollReceipt) :
    JournalResult := do
  validateAuthorityReceipts pendingAuthorityReceipts
  let session ← self.requireSession sessionId
  let checkpoint ← okOr (session.checkpointAt slot) (.leasePollCheckpointMissing slot)
  if checkpoint.currentOperationId ≠ expectedCurrent then
    if checkpoint.acknowledgesOperationId = some expectedCurrent then
      if checkpoint.pendingAuthorityReceipts = [] ∨
          checkpoint.pendingAuthorityReceipts = pendingAuthorityReceipts then
        .ok (false, self)
      else
        .error .leaseAuthorityReceiptMismatch
    else
      .error (.leasePollCheckpointMismatch expectedCurrent checkpoint.currentOperationId)
  else
    rejectIf (session.leasePollOperationIsUsed successorOperationId = true)
      .leasePollOperationConflict
    return (true, self.withSession (session.withCheckpoint
      { slot
        currentOperationId := successorOperationId
        acknowledgesOperationId := some expectedCurrent
        pendingAuthorityReceipts }))

def acknowledgeLeaseAuthorityReceipts (slot : RunnerSlotOrdinal)
    (expected : List LeaseAuthorityPollReceipt) : JournalResult := do
  let session ← self.requireSession sessionId
  validateAuthorityReceipts expected
  let checkpoint ← okOr (session.checkpointAt slot) (.leasePollCheckpointMissing slot)
  if checkpoint.pendingAuthorityReceipts = [] then
    .ok (false, self)
  else
    rejectIf (checkpoint.pendingAuthorityReceipts ≠ expected) .leaseAuthorityReceiptMismatch
    return (true, self.withSession (session.withCheckpoint
      { checkpoint with pendingAuthorityReceipts := [] }))

def commandIsUsed (command : DurableCommand) : Bool :=
  (self.session.any fun session =>
      session.commandTombstones.any fun tombstone =>
        tombstone.command.operationId = command.operationId) ||
    self.slots.any fun slot =>
      slot.offer.command.operationId = command.operationId ||
        slot.cancellation.any fun cancellation =>
          cancellation.command.operationId = command.operationId

/-- The tombstone of the committed command with this sequence, if it is still
in the replay window. -/
def tombstoneOf (session : SessionSnapshot) (command : DurableCommand) : Option CommandTombstone :=
  session.commandTombstones.find? fun tombstone =>
    tombstone.command.sequence = command.sequence

/-- Append a tombstone, dropping the oldest one of a full window. -/
def pushTombstone (tombstones : List CommandTombstone)
    (tombstone : CommandTombstone) : List CommandTombstone :=
  if maxCommandTombstones < (tombstones ++ [tombstone]).length then
    (tombstones ++ [tombstone]).tail
  else
    tombstones ++ [tombstone]

def commitCommand (command : DurableCommand) (disposition : CommandDisposition) :
    JournalResult := do
  let session ← self.requireSession sessionId
  if isBeyondCursor session command = false then
    let replay ← okOr (tombstoneOf session command) .commandReplayOutsideWindow
    if replay.command = command ∧ replay.disposition = disposition then
      .ok (false, self)
    else
      .error .commandReplayConflict
  else
    rejectIf (self.commandIsUsed command = true) .commandReplayConflict
    let expected ← okOr session.commandCursor.next .counterExhausted
    rejectIf (command.sequence ≠ expected) (.commandSequenceMismatch expected command.sequence)
    let cursor ← okOr (session.commandCursor.advance command.sequence)
      (.commandSequenceMismatch expected command.sequence)
    return (true, self.withSession { session with
      commandCursor := cursor
      commandTombstones := pushTombstone session.commandTombstones ⟨command, disposition⟩ })

def recordCommandDisposition (command : DurableCommand)
    (disposition : CommandDisposition) : JournalResult :=
  self.commitCommand sessionId command disposition

def verifyRecordedCommand (command : DurableCommand) (disposition : CommandDisposition) :
    Except JournalInvariantError Unit := do
  let session ← self.requireSession sessionId
  rejectIf (isBeyondCursor session command = true) .commandReplayConflict
  let tombstone ← okOr (tombstoneOf session command) .commandReplayOutsideWindow
  rejectIf (tombstone.command ≠ command ∨
    tombstone.disposition ≠ disposition) .commandReplayConflict

def slotAt (slot : RunnerSlotOrdinal) : Option SlotSnapshot :=
  lookup SlotSnapshot.ordinal slot.get self.slots

def withSlot (snapshot : SlotSnapshot) : StoredJournal :=
  { self with slots := replace SlotSnapshot.ordinal snapshot self.slots }

def requireSlot (slot : RunnerSlotOrdinal) (guard : LeaseGuard) :
    Except JournalInvariantError SlotSnapshot := do
  let _ ← self.requireSession sessionId
  let snapshot ← okOr (self.slotAt slot) (.slotNotFound slot)
  snapshot.requireGuard guard
  return snapshot

def slotMut (slot : RunnerSlotOrdinal) (guard : LeaseGuard)
    (mutation : SlotSnapshot → SlotResult) : JournalResult := do
  let snapshot ← self.requireSlot sessionId slot guard
  let (changed, next) ← mutation snapshot
  return (changed, self.withSlot next)

def recordOffer (offer : LeaseOfferRecord) : JournalResult := do
  let session ← self.requireSession sessionId
  offer.validate
  rejectIf (offer.lease.runnerId ≠ self.runnerId) .leaseRunnerMismatch
  rejectIf (offer.jobIr.version ≠ session.selectedJobIr) .jobIrVersionMismatch
  rejectIf (maxJournaledSlots < offer.slot.get) .slotLimitReached
  match self.slotAt offer.slot with
  | some existing =>
    if existing.offer = offer then .ok (false, self)
    else .error (.slotOccupied offer.slot)
  | none => do
      rejectIf (maxJournaledSlots ≤ self.slots.length) .slotLimitReached
      let (fresh, next) ← self.commitCommand sessionId offer.command .applied
      if fresh = true then
        return (true, { next with
          slots := insert SlotSnapshot.ordinal (.fromOffer offer)
            next.slots })
      else
        return (false, next)

def recordCancellation (slot : RunnerSlotOrdinal) (guard : LeaseGuard)
    (cancellation : CancellationRecord) : JournalResult := do
  let snapshot ← self.requireSlot sessionId slot guard
  rejectIf (snapshot.orphan.isSome = true) .orphanNotAuthorized
  rejectIf (snapshot.offerStatus = .rejected) .offerAlreadyRejected
  if snapshot.cancellation = some cancellation then
    .ok (false, self)
  else
    rejectIf (snapshot.cancellation.isSome = true) .commandReplayConflict
    let (fresh, next) ← self.commitCommand sessionId cancellation.command .applied
    if fresh = true then
      let cancelled ← snapshot.applyCancellation cancellation
      return (true, next.withSlot cancelled)
    else
      return (false, next)

def applyPollCommand : LeasePollCommandRecord → JournalResult
  | .noCommand => .ok (false, self)
  | .recorded command disposition => do
      self.verifyRecordedCommand sessionId command disposition
      return (false, self)
  | .ignored command reason => self.recordCommandDisposition sessionId command (.ignored reason)
  | .leaseOffer offer => self.recordOffer sessionId offer
  | .cancellation slot guard cancellation =>
    self.recordCancellation sessionId slot guard cancellation

def completeLeasePoll (completion : LeasePollCompletion) : JournalResult := do
  validateAuthorityReceipts completion.pendingAuthorityReceipts
  let (checkpointChanged, advanced) ← self.advanceLeasePoll sessionId
    completion.pollSlot completion.expectedCurrent
    completion.successorOperationId completion.pendingAuthorityReceipts
  let (commandChanged, next) ← advanced.applyPollCommand sessionId completion.command
  rejectIf (checkpointChanged = false ∧ commandChanged = true) .commandReplayConflict
  return (commandChanged || checkpointChanged, next)

def orphanClaim (slot : RunnerSlotOrdinal) (guard : LeaseGuard) :
    Except JournalInvariantError OrphanClaim := do
  let snapshot ← self.requireSlot sessionId slot guard
  return ⟨self.runnerId, sessionId, snapshot.slot, guard⟩

def authorizeOrphan (grant : OrphanAuthorityGrant) :
    JournalResult := do
  let expected ← self.orphanClaim grant.claim.sessionId grant.claim.slot grant.claim.guard
  rejectIf (grant.claim ≠ expected) .orphanAuthorityMismatch
  let snapshot ← okOr (self.slotAt grant.claim.slot) (.slotNotFound grant.claim.slot)
  let (changed, next) ← snapshot.authorizeOrphan grant
  return (changed, self.withSlot next)

def withoutSlot (slot : RunnerSlotOrdinal) : StoredJournal :=
  { self with slots := remove SlotSnapshot.ordinal slot.get self.slots }

end StoredJournal

namespace SlotSnapshot

variable (self : SlotSnapshot)

/-- Whether the authority over an orphaned slot gave up a delivery. -/
def hasAbandoned (delivery : OrphanDelivery) : Bool :=
  self.orphan.any fun record => record.isAbandoned delivery

def logComplete : Bool :=
  self.logDelivery.all LogDeliveryCursor.isFullyDelivered || self.hasAbandoned .logStream

def resultComplete : Bool :=
  (self.terminalResult.any fun result => result.acknowledged) || self.orphan.any fun record =>
      record.isAbandoned .terminalResult || self.terminalResult.isNone

def rejectionComplete : Bool :=
  self.rejection.all fun rejection =>
    rejection.responseAcknowledged || self.hasAbandoned .leaseRejection

/-- What `release_slot` asks of the slot. -/
def checkRelease : Except JournalInvariantError Unit := do
  rejectIf (self.offerStatus ≠ .accepted ∧ self.orphan = none) .offerNotAccepted
  rejectIf (self.lifecycle.isTerminal = false ∨ (∃ operation ∈ self.providerOperations.getLast?,
        operation.isPending = true) ∨
      self.sandbox.isSome = true ∨
      ∃ operation ∈ self.endpointOperations, operation.isRecoveryPending = true) .slotNotTerminal
  rejectIf (self.logComplete = false) .logDeliveryIncomplete
  rejectIf (self.offerStatus = .accepted ∧ self.resultComplete = false)
    .terminalResultNotAcknowledged
  rejectIf (self.rejectionComplete = false) .leaseRejectionNotAcknowledged

/-- What `release_rejected_offer` asks of the slot. -/
def checkRejectedRelease (responseOperationId : OperationId) :
    Except JournalInvariantError Unit := do
  rejectIf (self.offerStatus ≠ .rejected) .offerNotRejected
  let rejection ← okOr self.rejection .decodedStateInvalid
  rejectIf (rejection.responseOperationId ≠ responseOperationId) .leaseRejectionOperationMismatch
  rejectIf (rejection.responseAcknowledged = false) .leaseRejectionNotAcknowledged

end SlotSnapshot

namespace StoredJournal

def releaseSlot (self : StoredJournal) (sessionId : RunnerSessionId)
    (slot : RunnerSlotOrdinal) (guard : LeaseGuard) : JournalResult := do
  let snapshot ← self.requireSlot sessionId slot guard
  snapshot.checkRelease
  return (true, self.withoutSlot slot)

def releaseRejectedOffer (self : StoredJournal)
    (sessionId : RunnerSessionId) (slot : RunnerSlotOrdinal)
    (guard : LeaseGuard) (responseOperationId : OperationId) :
    JournalResult := do
  let snapshot ← self.requireSlot sessionId slot guard
  snapshot.checkRejectedRelease responseOperationId
  return (true, self.withoutSlot slot)

end StoredJournal

end AutomataCi
