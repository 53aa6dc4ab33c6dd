import AutomataCi.JournalMutations

/-!
# Runs of the journal

A mutation is performed on a copy of the state.  The copy replaces the state
only if the operation reports a change, its revision can be incremented and
the result passes the validation of the encoder.  A mutation whose write to
storage fails leaves the state as it was, as if it had not been requested.
-/

namespace AutomataCi

open GuardedResult KeyedList

inductive SlotMutation where
  | acceptOffer
  | recordRuntimeAuthorityDelivery
      (delivery : RuntimeAuthorityDeliveryRecord)
  | acknowledgeRuntimeAuthorityDelivery
      (generation : RuntimeAuthorityGeneration) (bundleDigest : Sha256Digest)
      (operationId : OperationId)
  | rejectOffer (reason : LeaseRejectionReason)
      (responseOperationId : OperationId) (enqueuedAt : UnixMillis)
  | acknowledgeOfferRejection (responseOperationId : OperationId)
  | renewLease (expiresAt : UnixMillis)
  | transitionLifecycle (next : JobLifecycle)
  | recordTerminalResult (terminal : JobLifecycle)
      (result : TerminalResultRecord) (enqueuedAt : UnixMillis)
  | acknowledgeTerminalResult (operationId : OperationId)
  | acceptEndpointOperation (operation : EndpointOperation)
  | commitEndpointInvocation (operationId : OperationId)
  | recordEndpointCancellation (operationId : OperationId)
  | completeEndpointCancellation (operationId : OperationId)
  | abandonEndpointOperation (operationId : OperationId)
  | recordEndpointResult (operationId : OperationId)
      (result : EndpointResultContentRef)
  | recordProviderIntent (intent : ProviderOperation)
  | recordSandboxCreated (operationId : OperationId)
      (sandbox : SandboxIdentity)
  | completeProviderOperation (operationId : OperationId)
  | failProviderOperation (operationId : OperationId)
      (failure : ProviderFailureOutcome)
  | advanceOutboundOperation (sequence : OutboundOperationSequence)
  | openLogStream (streamId : LogStreamId)
  | recordLogSegment (publication : LogSegmentPublication)
      (enqueuedAt : UnixMillis)
  | sealLogSegment (streamId : LogStreamId)
      (expectedContent : DurableContentRef)
  | acknowledgeLogSegment (acknowledgement : LogSegmentAcknowledgement)
  | abandonOrphanDelivery (authorityOperationId : OperationId)
      (delivery : OrphanDelivery) (reason : OrphanAbandonmentReason)

def SlotSnapshot.perform (self : SlotSnapshot) : SlotMutation → SlotResult
  | .acceptOffer => self.acceptOffer
  | .recordRuntimeAuthorityDelivery delivery => self.recordRuntimeAuthorityDelivery delivery
  | .acknowledgeRuntimeAuthorityDelivery generation bundleDigest operationId =>
      self.acknowledgeRuntimeAuthorityDelivery generation bundleDigest operationId
  | .rejectOffer reason responseOperationId enqueuedAt =>
    self.rejectOffer reason responseOperationId enqueuedAt
  | .acknowledgeOfferRejection responseOperationId =>
    self.acknowledgeOfferRejection responseOperationId
  | .renewLease expiresAt => self.renewLease expiresAt
  | .transitionLifecycle next => self.transitionLifecycle next
  | .recordTerminalResult terminal result enqueuedAt =>
    self.recordTerminalResult terminal result enqueuedAt
  | .acknowledgeTerminalResult operationId => self.acknowledgeTerminalResult operationId
  | .acceptEndpointOperation operation => self.acceptEndpointOperation operation
  | .commitEndpointInvocation operationId => self.commitEndpointInvocation operationId
  | .recordEndpointCancellation operationId => self.recordEndpointCancellation operationId
  | .completeEndpointCancellation operationId => self.completeEndpointCancellation operationId
  | .abandonEndpointOperation operationId => self.abandonEndpointOperation operationId
  | .recordEndpointResult operationId result => self.recordEndpointResult operationId result
  | .recordProviderIntent intent => self.recordProviderIntent intent
  | .recordSandboxCreated operationId sandbox => self.recordSandboxCreated operationId sandbox
  | .completeProviderOperation operationId => self.completeProviderOperation operationId
  | .failProviderOperation operationId failure => self.failProviderOperation operationId failure
  | .advanceOutboundOperation sequence => self.advanceOutboundOperation sequence
  | .openLogStream streamId => self.openLogStream streamId
  | .recordLogSegment publication enqueuedAt => self.recordLogSegment publication enqueuedAt
  | .sealLogSegment streamId expectedContent => self.sealLogSegment streamId expectedContent
  | .acknowledgeLogSegment acknowledgement => self.acknowledgeLogSegment acknowledgement
  | .abandonOrphanDelivery authorityOperationId delivery reason =>
    self.abandonOrphanDelivery authorityOperationId delivery reason

inductive JournalMutation where
  | beginSession (binding : SessionBinding)
  | prepareLeasePoll (sessionId : RunnerSessionId)
      (slot : RunnerSlotOrdinal) (operationId : OperationId)
  | completeLeasePoll (sessionId : RunnerSessionId)
      (completion : LeasePollCompletion)
  | acknowledgeLeaseAuthorityReceipts (sessionId : RunnerSessionId)
      (slot : RunnerSlotOrdinal) (expected : List LeaseAuthorityPollReceipt)
  | recordCommandDisposition (sessionId : RunnerSessionId)
      (command : DurableCommand) (disposition : CommandDisposition)
  | recordOffer (sessionId : RunnerSessionId) (offer : LeaseOfferRecord)
  | recordCancellation (sessionId : RunnerSessionId)
      (slot : RunnerSlotOrdinal) (guard : LeaseGuard)
      (cancellation : CancellationRecord)
  | authorizeOrphan (grant : OrphanAuthorityGrant)
  | releaseSlot (sessionId : RunnerSessionId) (slot : RunnerSlotOrdinal)
      (guard : LeaseGuard)
  | releaseRejectedOffer (sessionId : RunnerSessionId)
      (slot : RunnerSlotOrdinal) (guard : LeaseGuard)
      (responseOperationId : OperationId)
  | onSlot (sessionId : RunnerSessionId) (slot : RunnerSlotOrdinal)
      (guard : LeaseGuard) (mutation : SlotMutation)

namespace StoredJournal

variable (self : StoredJournal)

def perform : JournalMutation → JournalResult
  | .beginSession binding => self.beginSession binding
  | .prepareLeasePoll sessionId slot operationId => self.prepareLeasePoll sessionId slot operationId
  | .completeLeasePoll sessionId completion => self.completeLeasePoll sessionId completion
  | .acknowledgeLeaseAuthorityReceipts sessionId slot expected =>
    self.acknowledgeLeaseAuthorityReceipts sessionId slot expected
  | .recordCommandDisposition sessionId command disposition =>
    self.recordCommandDisposition sessionId command disposition
  | .recordOffer sessionId offer => self.recordOffer sessionId offer
  | .recordCancellation sessionId slot guard cancellation =>
    self.recordCancellation sessionId slot guard cancellation
  | .authorizeOrphan grant => self.authorizeOrphan grant
  | .releaseSlot sessionId slot guard => self.releaseSlot sessionId slot guard
  | .releaseRejectedOffer sessionId slot guard responseOperationId =>
    self.releaseRejectedOffer sessionId slot guard responseOperationId
  | .onSlot sessionId slot guard mutation =>
    self.slotMut sessionId slot guard fun snapshot =>
      snapshot.perform mutation

/-- What `mutate` does around an operation. -/
def commit (mutation : JournalMutation) :
    JournalResult := do
  let (changed, candidate) ← self.perform mutation
  if changed = true then
    let next ← candidate.incrementRevision
    next.validate
    return (true, next)
  else
    return (false, self)

def step (mutation : JournalMutation) : StoredJournal :=
  match self.commit mutation with
  | .ok (_, next) => next
  | .error _ => self

def run (mutations : List JournalMutation) : StoredJournal :=
  mutations.foldl step self

variable {self next : StoredJournal}

theorem requireSession_eq_ok {received : RunnerSessionId} {session : SessionSnapshot} :
    self.requireSession received = .ok session ↔
      self.session = some session ∧ session.sessionId = received := by
  simp only [requireSession, bind_eq_ok, okOr_eq_ok, rejectIf_eq_ok,
    exists_const, pure_eq_ok, not_not]
  constructor
  · rintro ⟨expected, hsession, hid, rfl⟩
    exact ⟨hsession, hid⟩
  · rintro ⟨hsession, hid⟩
    exact ⟨session, hsession, hid, rfl⟩

variable {sessionId : RunnerSessionId} {slot : RunnerSlotOrdinal} {guard : LeaseGuard}

theorem requireSlot_eq_ok {snapshot : SlotSnapshot} :
    self.requireSlot sessionId slot guard = .ok snapshot ↔ (∃ session, self.session = some session ∧
        session.sessionId = sessionId) ∧
      self.slotAt slot = some snapshot ∧ snapshot.guard = guard := by
  simp only [requireSlot, SlotSnapshot.requireGuard, bind_eq_ok, okOr_eq_ok,
    rejectIf_eq_ok, requireSession_eq_ok, exists_const, pure_eq_ok, not_not]
  constructor
  · rintro ⟨session, hsession, found, hfound, hguard, rfl⟩
    exact ⟨⟨session, hsession⟩, hfound, hguard⟩
  · rintro ⟨⟨session, hsession⟩, hfound, hguard⟩
    exact ⟨session, hsession, snapshot, hfound, hguard, rfl⟩

theorem slotMut_eq_ok {mutation : SlotSnapshot → SlotResult} {changed : Bool} :
    self.slotMut sessionId slot guard mutation = .ok (changed, next) ↔ ∃ snapshot after,
        self.requireSlot sessionId slot guard = .ok snapshot ∧
        mutation snapshot = .ok (changed, after) ∧
        next = self.withSlot after := by
  simp only [slotMut, bind_eq_ok, pure_eq_ok, Prod.exists, Prod.mk.injEq]
  constructor
  · rintro ⟨snapshot, hslot, result, after, hmutation, rfl, rfl⟩
    exact ⟨snapshot, after, hslot, hmutation, rfl⟩
  · rintro ⟨snapshot, after, hslot, hmutation, rfl⟩
    exact ⟨snapshot, hslot, changed, after, hmutation, rfl, rfl⟩

theorem incrementRevision_eq_ok :
    self.incrementRevision = .ok next ↔ self.revision + 1 < 2 ^ 64 ∧
        next = { self with revision := self.revision + 1 } := by
  simp only [incrementRevision, bind_eq_ok, rejectIf_eq_ok, exists_const,
    pure_eq_ok, not_le, eq_comm (a := next)]

/-- A requested mutation leaves the state alone, or installs its valid
candidate under the next revision. -/
theorem step_cases (self : StoredJournal) (mutation : JournalMutation) :
    self.step mutation = self ∨ ∃ candidate, self.perform mutation = .ok (true, candidate) ∧
        self.step mutation = { candidate with revision := candidate.revision + 1 } ∧
        (self.step mutation).validate = .ok () ∧
        self.commit mutation = .ok (true, self.step mutation) := by
  unfold step
  cases hcommit : self.commit mutation with
  | error => exact .inl rfl
  | ok result =>
    obtain ⟨changed, next⟩ := result
    simp only [commit, bind_eq_ok, Prod.exists] at hcommit
    obtain ⟨reported, candidate, hperform, hrest⟩ := hcommit
    cases reported with
    | false =>
      simp only [Bool.false_eq_true, if_false, pure_eq_ok, Prod.mk.injEq] at hrest
      exact .inl hrest.2.symm
    | true =>
      simp only [if_true, bind_eq_ok, incrementRevision_eq_ok, pure_eq_ok, Prod.mk.injEq] at hrest
      obtain ⟨incremented, ⟨-, rfl⟩, result, hvalid, rfl, rfl⟩ := hrest
      exact .inr ⟨candidate, hperform, rfl, hvalid, rfl⟩

theorem commit_eq_true {mutation : JournalMutation}
    (hcommit : self.commit mutation = .ok (true, next)) :
    ∃ candidate, self.perform mutation = .ok (true, candidate) ∧
      (self.step mutation).slots = candidate.slots := by
  have hstep : self.step mutation = next := by
    rw [step, hcommit]
  simp only [commit, bind_eq_ok, Prod.exists] at hcommit
  obtain ⟨reported, candidate, hperform, hrest⟩ := hcommit
  cases reported with
  | false => simp at hrest
  | true =>
    simp only [if_true, bind_eq_ok, incrementRevision_eq_ok, pure_eq_ok, Prod.mk.injEq] at hrest
    obtain ⟨incremented, ⟨-, rfl⟩, result, -, -, rfl⟩ := hrest
    exact ⟨candidate, hperform, by rw [hstep]⟩

theorem validate_new (runnerId : RunnerId) :
    (new runnerId).validate = .ok () := rfl

theorem validate_step (hvalid : self.validate = .ok ()) (mutation : JournalMutation) :
    (self.step mutation).validate = .ok () := by
  rcases self.step_cases mutation with hsame | ⟨-, -, -, hnext, -⟩
  · rw [hsame]
    exact hvalid
  · exact hnext

theorem validate_run (hvalid : self.validate = .ok ()) (mutations : List JournalMutation) :
    (self.run mutations).validate = .ok () := by
  induction mutations generalizing self with
  | nil => exact hvalid
  | cons mutation rest ih => exact ih (validate_step hvalid mutation)

end StoredJournal

end AutomataCi
