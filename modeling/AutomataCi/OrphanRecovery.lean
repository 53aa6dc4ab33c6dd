import AutomataCi.JournalPreservation

/-!
# Orphan recovery

The coordinator which completes the orphaned slots of a journal.  For the
first of them it abandons the deliveries which were never acknowledged, has
the executor clean up the sandbox, resolves the endpoint operation which is
still pending and releases the slot; then it starts over.  A phase is one
journal call, so that a crash may fall between any two of them, and a restart
begins again with the journal which the crash left.
-/

namespace AutomataCi

/-- Whether something was recorded for the control plane and not acknowledged
by it. -/
def SlotSnapshot.deliveryPending (self : SlotSnapshot) : OrphanDelivery → Bool
  | .terminalResult => self.terminalResult.any fun result => !result.acknowledged
  | .logStream => self.logDelivery.any fun log => !log.isFullyDelivered
  | .leaseRejection => self.rejection.any fun rejection => !rejection.responseAcknowledged

structure RecoveryTarget where
  sessionId : RunnerSessionId
  slot : RunnerSlotOrdinal
  guard : LeaseGuard
  authorityOperationId : OperationId

inductive RecoveryError where
  | orphanRecoveryAuthorityInvalid
  | orphanRecoveryPermissionMissing
  | executorContract
  | journal (error : JournalInvariantError)
  deriving DecidableEq

inductive RecoveryPhase where
  | scanning
  | abandoning (target : RecoveryTarget) (deliveries : List OrphanDelivery)
  | awaiting (target : RecoveryTarget)
  | cleaning (target : RecoveryTarget) (mutations : List SlotMutation)
  | resolving (target : RecoveryTarget)
  | releasing (target : RecoveryTarget)
  | reconciled
  | failed (error : RecoveryError)

structure RecoveryState where
  journal : StoredJournal
  phase : RecoveryPhase

namespace RecoveryTarget

def request (target : RecoveryTarget) (mutation : SlotMutation) : JournalMutation :=
  .onSlot target.sessionId target.slot target.guard mutation

end RecoveryTarget

namespace RecoveryState

def start (journal : StoredJournal) : RecoveryState where
  journal
  phase := .scanning

def fail (state : RecoveryState) (error : RecoveryError) : RecoveryState :=
  { state with phase := .failed error }

def call (state : RecoveryState) (mutation : JournalMutation)
    (phase : RecoveryPhase) : RecoveryState :=
  match state.journal.commit mutation with
  | .ok (_, next) => ⟨next, phase⟩
  | .error error => state.fail (.journal error)

/-- The deliveries in the order in which they are abandoned. -/
def pendingDeliveries (slot : SlotSnapshot) : List OrphanDelivery :=
  [.terminalResult, .logStream, .leaseRejection].filter slot.deliveryPending

variable (state : RecoveryState)

/-- The beginning of `reconcile_slot`. -/
def reconcileSlot (session : SessionSnapshot) (slot : SlotSnapshot) : RecoveryState :=
  match slot.orphan with
  | none => state.fail .orphanRecoveryAuthorityInvalid
  | some orphan =>
    if ∃ delivery ∈ pendingDeliveries slot, orphan.permissions.allows delivery = false then
      state.fail .orphanRecoveryPermissionMissing
    else
      { state with
        phase := .abandoning ⟨session.sessionId, slot.slot, slot.guard,
            orphan.authorityOperationId⟩ (pendingDeliveries slot) }

/-- One round of `reconcile_authorized`. -/
def reconcileAuthorized : RecoveryState :=
  match state.journal.slots.find? fun slot => slot.orphan.isSome with
  | none => { state with phase := .reconciled }
  | some slot =>
    match state.journal.session with
    | none => state.fail .orphanRecoveryAuthorityInvalid
    | some session => state.reconcileSlot session slot

def abandonOrphanDelivery (target : RecoveryTarget)
    (delivery : OrphanDelivery) (rest : List OrphanDelivery) :
    RecoveryState :=
  state.call (target.request (.abandonOrphanDelivery target.authorityOperationId
      delivery .sessionInvalidated))
    (.abandoning target rest)

variable (target : RecoveryTarget)

def refresh : RecoveryState :=
  match state.journal.slotAt target.slot with
  | none => state.fail .executorContract
  | some refreshed =>
    { state with
      phase :=
        if refreshed.sandbox.isSome = true then .awaiting target
        else .resolving target }

def checkCleanup : RecoveryState :=
  if (state.journal.slotAt target.slot).any fun current =>
      current.sandbox.isSome then
    state.fail .executorContract
  else
    { state with phase := .resolving target }

def resolveEndpointRecoveryAfterSandboxAbsence : RecoveryState :=
  match state.journal.slotAt target.slot with
  | none => state.fail .executorContract
  | some durable =>
    if durable.guard ≠ target.guard ∨ durable.sandbox.isSome = true then
      state.fail .executorContract
    else
      match durable.endpointRecoveryPending with
      | none => { state with phase := .releasing target }
      | some operation =>
        match operation.state with
        | .accepted =>
          state.call (target.request (.recordEndpointCancellation operation.operationId))
            (.resolving target)
        | .invocationCommitted =>
          state.call (target.request (.abandonEndpointOperation operation.operationId))
            (.resolving target)
        | .cancellationRequested =>
          state.call (target.request (.completeEndpointCancellation operation.operationId))
            (.resolving target)
        | _ => state.fail .executorContract

/-- The next journal call of the coordinator, or of the executor which cleans
up for it. -/
def advance : Option RecoveryState :=
  match state.phase with
  | .scanning => some state.reconcileAuthorized
  | .abandoning target [] => some (state.refresh target)
  | .abandoning target (delivery :: rest) => some (state.abandonOrphanDelivery target delivery rest)
  | .awaiting _ => none
  | .cleaning target [] => some (state.checkCleanup target)
  | .cleaning target (mutation :: rest) =>
    some ⟨state.journal.step (target.request mutation), .cleaning target rest⟩
  | .resolving target => some (state.resolveEndpointRecoveryAfterSandboxAbsence target)
  | .releasing target =>
    some (state.call (.releaseSlot target.sessionId target.slot target.guard) .scanning)
  | .reconciled => none
  | .failed _ => none

/-- A cleanup journals provider operations of its slot, and ends with the
sandbox recorded destroyed and no provider operation pending. -/
structure Cleans (journal : StoredJournal) (target : RecoveryTarget)
    (mutations : List SlotMutation) : Prop where
  provider :
    ∀ mutation ∈ mutations, (SlotEvent.mutated mutation).touches = [.provider]
  destroyed :
    ∀ slot ∈ (journal.run (mutations.map target.request)).slotAt target.slot, slot.sandbox = none ∧
        ∀ operation ∈ slot.providerOperations.getLast?, operation.isPending = false

inductive Move : RecoveryState → RecoveryState → Prop where
  | coordinator {state next : RecoveryState}
      (advanced : state.advance = some next) : Move state next
  | executor {journal : StoredJournal} {target : RecoveryTarget}
      {mutations : List SlotMutation}
      (cleans : Cleans journal target mutations) :
      Move ⟨journal, .awaiting target⟩ ⟨journal, .cleaning target mutations⟩

/-- The process runs on, or crashes and is started again. -/
inductive RestartMove : RecoveryState → RecoveryState → Prop where
  | move {state next : RecoveryState} (moved : Move state next) :
      RestartMove state next
  | crash (state : RecoveryState) : RestartMove state (start state.journal)

end RecoveryState

end AutomataCi
