import AutomataCi.JournalPreservation

/-!
# Processing of server commands

The supervisor classifies a server command on a snapshot of the journal and
then asks the journal to record it.  A command arrives as the reply of an
exchange or inside the response to a lease poll; in the second case the
recording also completes the poll.  Other tasks may use the journal between
any two of its calls.
-/

namespace AutomataCi

open GuardedResult KeyedList

structure CancelJob where
  sessionId : RunnerSessionId
  command : DurableCommand
  attemptId : AttemptId
  guard : LeaseGuard
  requestedAt : UnixMillis
  deriving DecidableEq

/-- An offer, with the record which `LeaseOfferRecord::new` makes of it. -/
structure LeaseOffer where
  sessionId : RunnerSessionId
  record : LeaseOfferRecord
  deriving DecidableEq

inductive ServerCommand where
  | leaseOffer (offer : LeaseOffer)
  | cancelJob (cancel : CancelJob)
  deriving DecidableEq

namespace ServerCommand

def sessionId : ServerCommand → RunnerSessionId
  | leaseOffer offer => offer.sessionId
  | cancelJob cancel => cancel.sessionId

def command : ServerCommand → DurableCommand
  | leaseOffer offer => offer.record.command
  | cancelJob cancel => cancel.command

end ServerCommand

inductive CommandError where
  | staleSession
  | commandReplayConflict
  | journal (error : JournalInvariantError)
  deriving DecidableEq

inductive RuntimeCommandOutcome where
  | applied | replayed | ignoredInvalid | ignoredSlotUnavailable | ignoredStaleLease
  deriving DecidableEq, Repr

structure PendingLeasePollCompletion where
  slot : RunnerSlotOrdinal
  (expectedCurrent successorOperationId : OperationId)
  pendingAuthorityReceipts : List LeaseAuthorityPollReceipt
  deriving DecidableEq

def PendingLeasePollCompletion.record (completion : PendingLeasePollCompletion)
    (command : LeasePollCommandRecord) : LeasePollCompletion where
  pollSlot := completion.slot
  expectedCurrent := completion.expectedCurrent
  successorOperationId := completion.successorOperationId
  pendingAuthorityReceipts := completion.pendingAuthorityReceipts
  command

/-- What carried a command: the reply of an exchange, or a lease poll. -/
inductive CommandCarrier where
  | reply
  | leasePoll (completion : PendingLeasePollCompletion)
  deriving DecidableEq

inductive CommandEffect where
  | ignored (command : DurableCommand) (reason : CommandIgnoredReason)
  | leaseOffer (offer : LeaseOfferRecord)
  | cancellation (slot : RunnerSlotOrdinal) (guard : LeaseGuard)
      (cancellation : CancellationRecord)
  deriving DecidableEq

namespace CommandEffect

def command : CommandEffect → DurableCommand
  | ignored command _ => command
  | leaseOffer offer => offer.command
  | cancellation _ _ request => request.command

def pollRecord : CommandEffect → LeasePollCommandRecord
  | ignored command reason => .ignored command reason
  | leaseOffer offer => .leaseOffer offer
  | cancellation slot guard request => .cancellation slot guard request

def mutation (sessionId : RunnerSessionId) : CommandEffect → JournalMutation
  | ignored command reason => .recordCommandDisposition sessionId command (.ignored reason)
  | leaseOffer offer => .recordOffer sessionId offer
  | cancellation slot guard request => .recordCancellation sessionId slot guard request

end CommandEffect

def CommandCarrier.mutation (sessionId : RunnerSessionId)
    (effect : CommandEffect) : CommandCarrier → JournalMutation
  | reply => effect.mutation sessionId
  | leasePoll completion => .completeLeasePoll sessionId (completion.record effect.pollRecord)

namespace StoredJournal

variable (self : StoredJournal)

def record (mutation : JournalMutation) : Except CommandError StoredJournal :=
  match self.commit mutation with
  | .ok (_, next) => .ok next
  | .error error => .error (.journal error)

def replayedCommandDisposition (sessionId : RunnerSessionId) (command : DurableCommand) :
    Except CommandError (Option CommandDisposition) := do
  let session ← okOr self.session .staleSession
  rejectIf (session.sessionId ≠ sessionId) .staleSession
  match session.commandCursor.acknowledgedThrough with
  | none => return none
  | some cursor =>
    if cursor.get < command.sequence.get then
      return none
    else
      let tombstone ← okOr (tombstoneOf session command) (.journal .commandReplayOutsideWindow)
      rejectIf (tombstone.command ≠ command) .commandReplayConflict
      return some tombstone.disposition

/-- The slot whose job a cancellation names, unless the job has ended or its
offer was rejected. -/
def cancellationTarget (cancel : CancelJob) : Option SlotSnapshot :=
  self.slots.find? fun slot =>
    slot.offer.lease.attemptId = cancel.attemptId &&
      slot.guard = cancel.guard && slot.lifecycle.isTerminal = false &&
      slot.offerStatus ≠ .rejected

end StoredJournal

/-- The mutations of other tasks before the snapshot on which a command is
classified, and between it and the recording. -/
structure Interleaving where
  (beforeSnapshot beforeRecord : List JournalMutation)

namespace StoredJournal

variable (self : StoredJournal) (others : Interleaving)

def classified : StoredJournal :=
  self.run others.beforeSnapshot

def recording : StoredJournal :=
  (self.classified others).run others.beforeRecord

/-- A command which was recorded before; only a lease poll still has to be
completed. -/
def recordReplay (sessionId : RunnerSessionId) (command : DurableCommand)
    (disposition : CommandDisposition) :
    CommandCarrier → Except CommandError (RuntimeCommandOutcome × StoredJournal)
  | .reply => .ok (.replayed, self)
  | .leasePoll completion => do
      let next ← (self.recording others).record (.completeLeasePoll sessionId
        (completion.record (.recorded command disposition)))
      return (.replayed, next)

/-- `record_cancellation` and `record_lease_poll_cancellation`. -/
def recordCancelJob (carrier : CommandCarrier) (cancel : CancelJob) :
    Except CommandError (RuntimeCommandOutcome × StoredJournal) := do
  match ← self.replayedCommandDisposition cancel.sessionId cancel.command with
  | some disposition =>
    self.recordReplay others cancel.sessionId cancel.command disposition carrier
  | none =>
    match (self.classified others).cancellationTarget cancel with
    | none => do
        let next ← (self.recording others).record (carrier.mutation
          cancel.sessionId (.ignored cancel.command .staleLease))
        return (.ignoredStaleLease, next)
    | some target => do
        let next ← (self.recording others).record (carrier.mutation
          cancel.sessionId (.cancellation target.slot cancel.guard
            ⟨cancel.command, cancel.requestedAt⟩))
        return (.applied, next)

def slotUnavailable (offer : LeaseOffer) : Bool :=
  (self.slotAt offer.record.slot).any fun existing =>
    existing.offer.command ≠ offer.record.command

def verifyOffer (offer : LeaseOffer) (verifying : Bool) : Except CommandError Unit :=
  match self.slotAt offer.record.slot with
  | some placed =>
    rejectIf (placed.offer.jobIr ≠ offer.record.jobIr ∨ placed.offer.managedSecretBindings ≠
          offer.record.managedSecretBindings) .commandReplayConflict
  | none => rejectIf (verifying = false) .commandReplayConflict

variable (maxParallelJobs : Nat) (carrier : CommandCarrier)

/-- An offer which is new, or whose replay still has to be verified. -/
def placeOffer (offer : LeaseOffer) (verifying : Bool) :
    Except CommandError (RuntimeCommandOutcome × StoredJournal) :=
  if maxParallelJobs < offer.record.slot.get then do
    let next ← (self.recording others).record (carrier.mutation
      offer.sessionId (.ignored offer.record.command .invalidCommand))
    return (.ignoredInvalid, next)
  else if (self.classified others).slotUnavailable offer = true then do
    let next ← (self.recording others).record (carrier.mutation
      offer.sessionId (.ignored offer.record.command .slotUnavailable))
    return (.ignoredSlotUnavailable, next)
  else do
    let next ← (self.recording others).record (carrier.mutation
      offer.sessionId (.leaseOffer offer.record))
    next.verifyOffer offer verifying
    return (if verifying = true then .replayed else .applied, next)

/-- `record_lease_offer` and `record_lease_poll_offer`. -/
def recordLeaseOffer (offer : LeaseOffer) :
    Except CommandError (RuntimeCommandOutcome × StoredJournal) := do
  match ← self.replayedCommandDisposition offer.sessionId offer.record.command, carrier with
  | none, carrier => self.placeOffer others maxParallelJobs carrier offer false
  | some .applied, .reply =>
    -- An applied offer is verified as long as its slot still holds it.
    if (self.slotAt offer.record.slot).any (fun durable =>
        durable.offer.command = offer.record.command) = true then
      self.placeOffer others maxParallelJobs .reply offer true
    else
      .ok (.replayed, self)
  | some disposition, carrier =>
    self.recordReplay others offer.sessionId offer.record.command disposition carrier

/-- `process_command` and `process_lease_poll_command`, once the command has
its turn and the calls hold the lock on recording. -/
def processCommand : ServerCommand → Except CommandError (RuntimeCommandOutcome × StoredJournal)
  | .leaseOffer offer => self.recordLeaseOffer others maxParallelJobs carrier offer
  | .cancelJob cancel => self.recordCancelJob others carrier cancel

end StoredJournal

end AutomataCi
