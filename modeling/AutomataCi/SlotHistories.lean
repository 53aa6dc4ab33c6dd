import AutomataCi.JournalOutcomes
import AutomataCi.JournalValidity
import AutomataCi.LogDeliveryRuns

/-!
# Histories of a slot

The committed events of a slot since its offer was recorded, the snapshots
they lead to, and the parts of a snapshot which each event leaves alone.
-/

namespace AutomataCi

open GuardedResult KeyedList

inductive SlotEvent where
  | mutated (mutation : SlotMutation)
  | cancelled (cancellation : CancellationRecord)
  | orphaned (grant : OrphanAuthorityGrant)

def SlotSnapshot.receive (self : SlotSnapshot) : SlotEvent → SlotResult
  | .mutated mutation => self.perform mutation
  | .cancelled cancellation => do
      let next ← self.applyCancellation cancellation
      return (true, next)
  | .orphaned grant => self.authorizeOrphan grant

/-- An authority decision names the runner, session, slot and lease. -/
def SlotEvent.Addressed (runnerId : RunnerId) (sessionId : RunnerSessionId)
    (offer : LeaseOfferRecord) : SlotEvent → Prop
  | .orphaned grant => grant.claim = ⟨runnerId, sessionId, offer.slot, offer.lease.guard⟩
  | _ => True

instance (runnerId : RunnerId) (sessionId : RunnerSessionId)
    (offer : LeaseOfferRecord) (event : SlotEvent) :
    Decidable (event.Addressed runnerId sessionId offer) := by
  cases event <;> unfold SlotEvent.Addressed <;> infer_instance

/-- A log segment stays below the end of the 64-bit range. -/
def SlotEvent.Bounded : SlotEvent → Prop
  | .mutated (.recordLogSegment publication _) => publication.segment.lastSequence.get + 1 < 2 ^ 64
  | _ => True

instance (event : SlotEvent) : Decidable event.Bounded := by
  unfold SlotEvent.Bounded
  split <;> infer_instance

inductive SlotRun (runnerId : RunnerId) (sessionId : RunnerSessionId)
    (offer : LeaseOfferRecord) : List SlotEvent → SlotSnapshot → Prop where
  | offered : SlotRun runnerId sessionId offer [] (.fromOffer offer)
  | step {events : List SlotEvent} {slot next : SlotSnapshot}
      {event : SlotEvent}
      (before : SlotRun runnerId sessionId offer events slot)
      (addressed : event.Addressed runnerId sessionId offer)
      (bounded : event.Bounded)
      (received : slot.receive event = .ok (true, next)) :
      SlotRun runnerId sessionId offer (events ++ [event]) next

/-- The parts of a snapshot which events change independently. -/
inductive SlotComponent where
  | offer
  | offerStatus
  | authority
  | rejection
  | lifecycle
  | cancellation
  | terminalResult
  | provider
  | endpoints
  | log
  | orphan
  deriving DecidableEq

def SlotSnapshot.Agrees (slot next : SlotSnapshot) : SlotComponent → Prop
  | .offer => next.offer = slot.offer
  | .offerStatus => next.offerStatus = slot.offerStatus
  | .authority => next.runtimeAuthorityDelivery = slot.runtimeAuthorityDelivery
  | .rejection => next.rejection = slot.rejection
  | .lifecycle => next.lifecycle = slot.lifecycle
  | .cancellation => next.cancellation = slot.cancellation
  | .terminalResult => next.terminalResult = slot.terminalResult
  | .provider =>
    next.providerCheckpoint = slot.providerCheckpoint ∧
      next.providerOperations = slot.providerOperations ∧
      next.sandbox = slot.sandbox
  | .endpoints => next.endpointOperations = slot.endpointOperations
  | .log => next.logDelivery = slot.logDelivery
  | .orphan => next.orphan = slot.orphan

def SlotEvent.touches : SlotEvent → List SlotComponent
  | .cancelled _ => [.cancellation, .lifecycle, .endpoints]
  | .orphaned _ => [.orphan, .lifecycle]
  | .mutated mutation =>
    match mutation with
    | .acceptOffer => [.offerStatus]
    | .recordRuntimeAuthorityDelivery _
    | .acknowledgeRuntimeAuthorityDelivery _ _ _ => [.authority]
    | .rejectOffer _ _ _ => [.offerStatus, .rejection]
    | .acknowledgeOfferRejection _ => [.rejection]
    | .renewLease _ | .advanceOutboundOperation _ => []
    | .transitionLifecycle _ => [.lifecycle]
    | .recordTerminalResult _ _ _ => [.lifecycle, .terminalResult]
    | .acknowledgeTerminalResult _ => [.terminalResult]
    | .acceptEndpointOperation _ | .commitEndpointInvocation _
    | .recordEndpointResult _ _ => [.endpoints]
    | .recordEndpointCancellation _ | .completeEndpointCancellation _
    | .abandonEndpointOperation _ => [.endpoints, .lifecycle]
    | .recordProviderIntent _ | .recordSandboxCreated _ _
    | .completeProviderOperation _ | .failProviderOperation _ _ => [.provider]
    | .openLogStream _ | .recordLogSegment _ _ | .sealLogSegment _ _
    | .acknowledgeLogSegment _ => [.log]
    | .abandonOrphanDelivery _ _ _ => [.orphan]

namespace SlotSnapshot

variable {self next : SlotSnapshot} {operationId : OperationId}
  {update : EndpointOperation → Except JournalInvariantError (Bool × EndpointOperation)}
  {component : SlotComponent} {event : SlotEvent}

theorem EndpointUpdate.agrees (hupdate : self.EndpointUpdate operationId update next)
    (hother : component ≠ .endpoints) : self.Agrees next component := by
  obtain ⟨-, after, -, -, rfl⟩ := hupdate
  cases component <;> simp_all [Agrees]

theorem EndpointUpdate.terminalized_agrees {updated : SlotSnapshot}
    (hupdate : self.EndpointUpdate operationId update updated)
    (hother : component ∉ [SlotComponent.endpoints, .lifecycle]) :
    self.Agrees updated.terminalizeOrphanAfterEndpointResolution component := by
  simp only [List.mem_cons, List.not_mem_nil, or_false, not_or] at hother
  have hagrees := hupdate.agrees hother.1
  obtain ⟨lifecycle, hclosed⟩ := terminalize_eq updated
  rw [hclosed]
  cases component <;> simp_all [Agrees]

theorem receive_cancelled {cancellation : CancellationRecord}
    (hreceive : self.receive (.cancelled cancellation) = .ok (true, next)) :
    next = { self with
      cancellation := some cancellation
      lifecycle := .cancelling
      endpointOperations := self.cancelPendingEndpointOperation } := by
  simp only [receive, bind_eq_ok, pure_eq_ok, Prod.mk.injEq, true_and] at hreceive
  obtain ⟨after, hafter, rfl⟩ := hreceive
  exact (applyCancellation_eq_ok.mp hafter).2

theorem receive_agrees (hreceive : self.receive event = .ok (true, next))
    (hother : component ∉ event.touches) : self.Agrees next component := by
  cases event with
  | cancelled =>
    obtain rfl := receive_cancelled hreceive
    cases component <;> simp_all [Agrees, SlotEvent.touches]
  | orphaned =>
    obtain ⟨-, rfl⟩ := authorizeOrphan_eq_true.mp hreceive
    cases component <;> simp_all [Agrees, SlotEvent.touches]
  | mutated mutation =>
    cases mutation
    case commitEndpointInvocation =>
      exact (commitEndpointInvocation_eq_true.mp hreceive).agrees
        (by simpa [SlotEvent.touches] using hother)
    case recordEndpointResult =>
      exact (recordEndpointResult_eq_true.mp hreceive).agrees
        (by simpa [SlotEvent.touches] using hother)
    case recordEndpointCancellation =>
      obtain ⟨updated, hupdate, rfl⟩ := recordEndpointCancellation_eq_true.mp hreceive
      exact hupdate.terminalized_agrees hother
    case completeEndpointCancellation =>
      obtain ⟨-, updated, hupdate, rfl⟩ := completeEndpointCancellation_eq_true.mp hreceive
      exact hupdate.terminalized_agrees hother
    case abandonEndpointOperation =>
      obtain ⟨-, updated, hupdate, rfl⟩ := abandonEndpointOperation_eq_true.mp hreceive
      exact hupdate.terminalized_agrees hother
    -- The other mutations write their components, which the slot shows.
    case' acceptOffer => obtain ⟨-, -, rfl⟩ := acceptOffer_eq_true.mp hreceive
    case' recordRuntimeAuthorityDelivery =>
      obtain ⟨-, -, -, -, rfl⟩ := recordRuntimeAuthorityDelivery_eq_true.mp hreceive
    case' acknowledgeRuntimeAuthorityDelivery =>
      obtain ⟨-, -, -, -, -, -, rfl⟩ := acknowledgeRuntimeAuthorityDelivery_eq_true.mp hreceive
    case' rejectOffer => obtain ⟨-, -, -, rfl⟩ := rejectOffer_eq_true.mp hreceive
    case' acknowledgeOfferRejection =>
      obtain ⟨-, -, -, -, -, rfl⟩ := acknowledgeOfferRejection_eq_true.mp hreceive
    case' renewLease => obtain ⟨-, -, -, -, rfl⟩ := renewLease_eq_true.mp hreceive
    case' transitionLifecycle =>
      obtain ⟨-, -, -, -, -, -, rfl⟩ := transitionLifecycle_eq_true.mp hreceive
    case' recordTerminalResult =>
      obtain ⟨-, -, -, -, -, -, -, -, -, rfl⟩ := recordTerminalResult_eq_true.mp hreceive
    case' acknowledgeTerminalResult =>
      obtain ⟨-, -, -, -, rfl⟩ := acknowledgeTerminalResult_eq_true.mp hreceive
    case' acceptEndpointOperation =>
      obtain ⟨-, -, -, -, -, -, -, -, -, rfl⟩ := acceptEndpointOperation_eq_true.mp hreceive
    case' recordProviderIntent =>
      obtain ⟨-, -, -, -, -, -, -, -, -, -, -, -, -, -, rfl⟩ :=
        recordProviderIntent_eq_true.mp hreceive
    case' recordSandboxCreated =>
      obtain ⟨-, -, -, -, -, -, rfl⟩ := recordSandboxCreated_eq_true.mp hreceive
    case' completeProviderOperation =>
      obtain ⟨-, -, -, -, -, rfl⟩ := completeProviderOperation_eq_true.mp hreceive
    case' failProviderOperation =>
      obtain ⟨-, -, -, -, -, -, rfl⟩ := failProviderOperation_eq_true.mp hreceive
    case' advanceOutboundOperation =>
      obtain ⟨-, -, -, rfl⟩ := advanceOutboundOperation_eq_true.mp hreceive
    case' openLogStream => obtain ⟨-, -, -, rfl⟩ := openLogStream_eq_true.mp hreceive
    case' recordLogSegment =>
      obtain ⟨-, -, -, -, -, -, -, -, rfl⟩ := recordLogSegment_eq_true.mp hreceive
    case' sealLogSegment => obtain ⟨-, -, -, -, -, rfl⟩ := sealLogSegment_eq_true.mp hreceive
    case' acknowledgeLogSegment =>
      obtain ⟨-, -, -, -, -, rfl⟩ := acknowledgeLogSegment_eq_true.mp hreceive
    case' abandonOrphanDelivery =>
      obtain ⟨-, -, -, -, -, rfl⟩ := abandonOrphanDelivery_eq_true.mp hreceive
    all_goals cases component <;> simp_all [Agrees, SlotEvent.touches, withLastProviderOperation]

theorem receive_offer (hreceive : self.receive event = .ok (true, next)) :
    next.offer = self.offer := by
  have hother : SlotComponent.offer ∉ event.touches := by
    cases event with
    | cancelled | orphaned => simp [SlotEvent.touches]
    | mutated mutation => cases mutation <;> simp [SlotEvent.touches]
  exact receive_agrees hreceive hother

end SlotSnapshot

variable {runnerId : RunnerId} {sessionId : RunnerSessionId}

theorem SlotRun.offer_eq {offer : LeaseOfferRecord} {events : List SlotEvent} {slot : SlotSnapshot}
    (hrun : SlotRun runnerId sessionId offer events slot) : slot.offer = offer := by
  induction hrun with
  | offered => rfl
  | step before addressed bounded received ih => rw [SlotSnapshot.receive_offer received, ih]

/-- Receive a list of events, each of which has to report a change. -/
def SlotSnapshot.receiveAll (self : SlotSnapshot) : List SlotEvent → Option SlotSnapshot
  | [] => some self
  | event :: rest =>
    match self.receive event with
    | .ok (true, next) => next.receiveAll rest
    | _ => none

theorem SlotRun.receiveAll {offer : LeaseOfferRecord} {earlier events : List SlotEvent}
    {slot final : SlotSnapshot} (hrun : SlotRun runnerId sessionId offer earlier slot)
    (hadmitted : ∀ event ∈ events, event.Addressed runnerId sessionId offer ∧ event.Bounded)
    (hreceive : slot.receiveAll events = some final) :
    SlotRun runnerId sessionId offer (earlier ++ events) final := by
  induction events generalizing earlier slot with
  | nil =>
    cases hreceive
    simpa using hrun
  | cons event rest ih =>
    rw [List.forall_mem_cons] at hadmitted
    obtain ⟨⟨haddressed, hbounded⟩, hrest⟩ := hadmitted
    rw [SlotSnapshot.receiveAll] at hreceive
    split at hreceive
    · rename_i next hnext
      have hlater := ih (hrun.step haddressed hbounded hnext) hrest hreceive
      simpa using hlater
    · simp at hreceive

namespace Sample

def operation (number : Nat) : OperationId :=
  ⟨⟨BitVec.ofNat 128 number⟩⟩

def runner : RunnerId :=
  ⟨⟨1⟩⟩

def session : RunnerSessionId :=
  ⟨⟨2⟩⟩

def content (kind : ContentKind) (hkind : kind ≠ .endpointResult) : DurableContentRef where
  kind
  identity := .publicContent 1 ⟨0⟩
  protectionId := LogDeliveryRun.sampleContent.protectionId
  coherent := by
    cases kind <;> first | contradiction | decide

def offer : LeaseOfferRecord where
  slot := ⟨1, Nat.one_pos, RunnerSlotOrdinal.one_bounded⟩
  lease :=
    { schemaVersion := 1
      id := ⟨⟨3⟩⟩
      attemptId := ⟨⟨4⟩⟩
      runnerId := runner
      fencingToken := ⟨1, Nat.one_pos, by decide⟩
      issuedAt := ⟨0⟩
      expiresAt := ⟨1⟩ }
  jobIr := ⟨⟨1, Nat.one_pos⟩, content .jobIr (by decide)⟩
  managedSecretBindings := none
  command := ⟨.first, operation 1, ⟨0⟩⟩

def secondSequence : CommandSequence :=
  ⟨2, by decide, by decide⟩

def authority : RuntimeAuthorityDeliveryRecord where
  binding :=
    { attemptId := ⟨⟨4⟩⟩
      slot := offer.slot
      guard := offer.lease.guard
      offerOperationId := operation 1
      offerSequence := .first
      jobIrDigest := ⟨0⟩
      generation := ⟨1⟩ }
  requestOperationId := operation 2
  acknowledgementOperationId := operation 3
  bundleDigest := ⟨0⟩
  content := ⟨content .runtimeAuthority (by decide)⟩
  acknowledged := false

def sessionSnapshot : SessionSnapshot where
  sessionId := session
  selectedProtocol := ⟨3⟩
  selectedJobIr := ⟨1, Nat.one_pos⟩
  commandCursor := .through .first
  commandTombstones := [⟨offer.command, .applied⟩]
  leasePollCheckpoints := []

def adoption : List SlotEvent :=
  [.mutated .acceptOffer, .mutated (.recordRuntimeAuthorityDelivery authority),
    .mutated (.acknowledgeRuntimeAuthorityDelivery ⟨1⟩ ⟨0⟩ (operation 3))]

def binding : SessionBinding :=
  ⟨session, ⟨3⟩, ⟨1, Nat.one_pos⟩⟩

def onSlot (mutation : SlotMutation) : JournalMutation :=
  .onSlot session offer.slot offer.lease.guard mutation

def acceptedJob : List JournalMutation :=
  [.beginSession binding, .recordOffer session offer, onSlot .acceptOffer]

def adoptedJob : List JournalMutation :=
  acceptedJob ++ [onSlot (.recordRuntimeAuthorityDelivery authority),
    onSlot (.acknowledgeRuntimeAuthorityDelivery ⟨1⟩ ⟨0⟩ (operation 3))]

end Sample

end AutomataCi
