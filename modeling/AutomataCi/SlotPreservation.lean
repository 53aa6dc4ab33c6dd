import AutomataCi.EndpointPhases
import AutomataCi.ProviderSaga

/-!
# Slot mutations and the validity of a slot

A mutation which reports a change leaves a valid slot valid, with four
exceptions whose own checks are weaker than the validation: a rejected offer
with a log, an endpoint operation accepted while the job is finalizing, an
endpoint result of an orphaned slot, and a provider intent before the runtime
authority was adopted.
-/

namespace AutomataCi

open GuardedResult FallibleState KeyedList SerialLog

/-! ## Endpoint operations -/

namespace EndpointOperation

def Fits (operation : EndpointOperation) (result : EndpointResultContentRef) : Prop :=
  result.validate = .ok () ∧ result.content.accountedBytes ≤
      endpointResultAllocationOrZero operation.reservedResultBytes

variable {operation next : EndpointOperation}

theorem Valid.advances (hvalid : operation.Valid) (hadvances : operation.Advances next)
    (hresult : ∀ result, next.state = .completed result → operation.Fits result) :
    next.Valid := by
  obtain ⟨hnext, -⟩ := hadvances
  generalize next.state = after at hnext hresult
  subst hnext
  exact { hvalid with result := hresult }

theorem Advances.accountedContentRefs_le (hadvances : operation.Advances next) :
    next.accountedContentRefs ≤ operation.accountedContentRefs := by
  obtain ⟨hnext, hstep⟩ := hadvances
  generalize next.state = after at hnext hstep
  subst hnext
  obtain ⟨operationId, kind, request, reserved, before⟩ := operation
  cases hstep <;> simp [accountedContentRefs]

theorem Advances.contentBytes_le (hadvances : operation.Advances next)
    (hresult : ∀ result, next.state = .completed result → operation.Fits result) :
    next.contentBytes ≤ operation.contentBytes := by
  obtain ⟨hnext, hstep⟩ := hadvances
  generalize next.state = after at hnext hstep hresult
  subst hnext
  obtain ⟨operationId, kind, request, reserved, before⟩ := operation
  cases hstep with
  | complete result =>
    have hfits := (hresult result rfl).2
    simpa [contentBytes, resultCharge] using hfits
  | _ => simp [contentBytes, resultCharge]

theorem Fits.of_recordResult {result : EndpointResultContentRef} (hvalid : operation.Valid)
    (hrecord : operation.recordResult result = .ok (true, next)) :
    ∀ completed, next.state = .completed completed → operation.Fits completed := by
  obtain ⟨hcheck, hcases⟩ := recordResult_eq_ok.mp hrecord
  obtain ⟨-, rfl⟩ := of_changed hcases
  intro completed hcompleted
  cases hcompleted
  have hallocation := endpointResultAllocation_of_le hvalid.reservation.2
  simp only [checkResult, bind_eq_ok, okOr_eq_ok, rejectIf_eq_ok, exists_and_right,
    exists_eq_ok_unit, not_lt, hallocation, Option.some.injEq, exists_eq_left'] at hcheck
  exact hcheck

end EndpointOperation

namespace SlotSnapshot

variable {self next : SlotSnapshot} {runnerId : RunnerId}
  {session : SessionSnapshot}

theorem validateDeliveryTimestamps_eq_ok {result : Unit} :
    self.validateDeliveryTimestamps = .ok result ↔
      self.rejection.isSome = self.rejectionEnqueuedAt.isSome ∧
        self.terminalResult.isSome = self.terminalResultEnqueuedAt.isSome ∧
        (∀ enqueuedAt ∈ self.rejectionEnqueuedAt, validateDeliveryEnqueuedAt enqueuedAt = .ok ()) ∧
        ∀ enqueuedAt ∈ self.terminalResultEnqueuedAt,
          validateDeliveryEnqueuedAt enqueuedAt = .ok () := by
  simp only [validateDeliveryTimestamps, bind_eq_ok, rejectIf_eq_ok,
    ifPresent_eq_ok, exists_const, not_or, not_not, and_assoc]

/-! ## Offer, authority and lease -/

theorem Valid.acceptOffer (hvalid : self.Valid runnerId session)
    (haccept : self.acceptOffer = .ok (true, next)) :
    next.Valid runnerId session := by
  obtain ⟨horphan, hrecorded, rfl⟩ := acceptOffer_eq_true.mp haccept
  have hunaccepted : self.offerStatus ≠ .accepted := by
    rw [hrecorded]
    decide
  obtain ⟨hprovider, hendpoints, hdelivery, hsandbox, hresult⟩ := hvalid.unstarted hunaccepted
  have hlifecycle := hvalid.recorded horphan hrecorded
  have hopen : self.lifecycle.isTerminal = false := by
    cases hcase : self.lifecycle <;> simp_all [isUnstarted, JobLifecycle.isTerminal]
  have hrejection : self.rejection = none := by
    have hconsistent := hvalid.rejection
    rw [rejectionConsistent, hrecorded] at hconsistent
    cases hcase : self.rejection with
    | none => rfl
    | some => simp [hcase] at hconsistent
  exact { hvalid with
    authority := by simp [hdelivery]
    endpoints := { hvalid.endpoints with accepted := fun _ => rfl }
    provider := { hvalid.provider with accepted := fun _ => rfl }
    rejection := by simp [rejectionConsistent, hrejection]
    recorded := fun _ hstatus => by contradiction
    rejected := fun _ hstatus => by contradiction
    rejectedLog := fun hstatus => by contradiction
    terminalResult := by simp [hresult]
    resultPresent := fun _ hterminal => by simp [hopen] at hterminal
    orphan := by simp [horphan] }

theorem Valid.recordRuntimeAuthorityDelivery {delivery : RuntimeAuthorityDeliveryRecord}
    (hvalid : self.Valid runnerId session)
    (hrecord : self.recordRuntimeAuthorityDelivery delivery = .ok (true, next)) :
    next.Valid runnerId session := by
  obtain ⟨haccepted, hdelivery, hbinding, hnone, rfl⟩ :=
    recordRuntimeAuthorityDelivery_eq_true.mp hrecord
  exact { hvalid with
    authority := by
      intro recorded hrecorded
      rw [← Option.some.inj hrecorded]
      exact ⟨hdelivery, haccepted, hbinding⟩
    endpoints := { hvalid.endpoints with }
    provider :=
      { hvalid.provider with
        authority := by
          intro hstarted
          have hauthority := hvalid.provider.authority hstarted
          simp [authorityAcknowledged, hnone] at hauthority }
    orphan := fun orphan horphan =>
      { hvalid.orphan orphan horphan with } }

variable {operationId : OperationId}

theorem Valid.acknowledgeRuntimeAuthorityDelivery
    {generation : RuntimeAuthorityGeneration} {bundleDigest : Sha256Digest}
    (hvalid : self.Valid runnerId session)
    (hack : self.acknowledgeRuntimeAuthorityDelivery generation bundleDigest
        operationId = .ok (true, next)) :
    next.Valid runnerId session := by
  obtain ⟨delivery, hdelivery, -, -, -, -, rfl⟩ :=
    acknowledgeRuntimeAuthorityDelivery_eq_true.mp hack
  have hold := hvalid.authority delivery hdelivery
  exact { hvalid with
    authority := by
      intro recorded hrecorded
      rw [← Option.some.inj hrecorded]
      exact hold
    endpoints := { hvalid.endpoints with }
    provider := { hvalid.provider with authority := fun _ => rfl }
    orphan := fun orphan horphan =>
      { hvalid.orphan orphan horphan with } }

variable {enqueuedAt : UnixMillis}

section

variable (hvalid : self.Valid runnerId session)

include hvalid

/-- A rejected offer has no log, which `rejectOffer` does not check. -/
theorem Valid.rejectOffer_iff {reason : LeaseRejectionReason}
    (hreject : self.rejectOffer reason operationId enqueuedAt = .ok (true, next)) :
    next.Valid runnerId session ↔ self.logDelivery = none := by
  obtain ⟨horphan, hrecorded, henqueued, rfl⟩ := rejectOffer_eq_true.mp hreject
  have hunaccepted : self.offerStatus ≠ .accepted := by
    rw [hrecorded]
    decide
  obtain ⟨hprovider, hendpoints, hdelivery, hsandbox, hresult⟩ := hvalid.unstarted hunaccepted
  constructor
  · intro hlater
    exact hlater.rejectedLog rfl
  · intro hlog
    obtain ⟨-, hresultTime, -, hresultAt⟩ := validateDeliveryTimestamps_eq_ok.mp hvalid.timestamps
    exact { hvalid with
      authority := by simp [hdelivery]
      endpoints := { hvalid.endpoints with accepted := by simp [hendpoints] }
      provider := { hvalid.provider with accepted := by simp [hprovider] }
      rejection := rfl
      timestamps :=
        validateDeliveryTimestamps_eq_ok.mpr ⟨rfl, hresultTime, by simpa using henqueued, hresultAt⟩
      recorded := fun _ hstatus => by contradiction
      rejected := fun _ _ => hvalid.recorded horphan hrecorded
      rejectedLog := fun _ => hlog
      terminalResult := by simp [hresult]
      resultPresent := fun hstatus => by contradiction
      orphan := by simp [horphan] }

theorem Valid.acknowledgeOfferRejection
    (hack : self.acknowledgeOfferRejection operationId = .ok (true, next)) :
    next.Valid runnerId session := by
  obtain ⟨hrejected, rejection, hrejection, -, -, rfl⟩ := acknowledgeOfferRejection_eq_true.mp hack
  exact { hvalid with
    endpoints := { hvalid.endpoints with }
    provider := { hvalid.provider with }
    rejection := by simp [rejectionConsistent, hrejected]
    timestamps := by
      have htimestamps := hvalid.timestamps
      rw [validateDeliveryTimestamps, hrejection] at htimestamps
      exact htimestamps
    orphan := fun orphan horphan =>
      { hvalid.orphan orphan horphan with
        leaseRejection := fun _ => Option.some_ne_none _ } }

theorem Valid.renewLease {expiresAt : UnixMillis}
    (hrenew : self.renewLease expiresAt = .ok (true, next)) :
    next.Valid runnerId session := by
  obtain ⟨-, -, hlater, -, rfl⟩ := renewLease_eq_true.mp hrenew
  exact { hvalid with
    expires := hvalid.expires.trans hlater
    endpoints := { hvalid.endpoints with }
    provider := { hvalid.provider with }
    orphan := fun orphan horphan =>
      { hvalid.orphan orphan horphan with } }

theorem Valid.advanceOutboundOperation {sequence : OutboundOperationSequence}
    (hadvance : self.advanceOutboundOperation sequence = .ok (true, next)) :
    next.Valid runnerId session := by
  obtain ⟨-, cursor, -, rfl⟩ := advanceOutboundOperation_eq_true.mp hadvance
  exact { hvalid with
    endpoints := { hvalid.endpoints with }
    provider := { hvalid.provider with }
    orphan := fun orphan horphan =>
      { hvalid.orphan orphan horphan with } }

/-! ## Log delivery -/

theorem Valid.withLog {log : LogDeliveryCursor}
    (haccepted : self.offerStatus ≠ .rejected) (hlog : log.Valid) :
    { self with logDelivery := some log }.Valid runnerId session :=
  { hvalid with
    endpoints := { hvalid.endpoints with }
    provider := { hvalid.provider with }
    rejectedLog := fun hrejected => absurd hrejected haccepted
    orphan := fun orphan horphan =>
      { hvalid.orphan orphan horphan with
        logStream := fun _ => Option.some_ne_none _ }
    log := by
      intro written hwritten
      rw [← Option.some.inj hwritten]
      exact hlog }

variable {streamId : LogStreamId}

theorem Valid.openLogStream (hopen : self.openLogStream streamId = .ok (true, next)) :
    next.Valid runnerId session := by
  obtain ⟨haccepted, -, -, rfl⟩ := openLogStream_eq_true.mp hopen
  apply hvalid.withLog
  · rw [haccepted]
    decide
  · exact .new streamId

theorem Valid.logCall {log after : LogDeliveryCursor} {call : CursorCall}
    (hlog : self.logDelivery = some log)
    (hperform : log.perform call = (.ok true, after))
    (hcall : call.Admissible log.streamId) :
    { self with logDelivery := some after }.Valid runnerId session := by
  have houtcome := log.perform_outcome call
  rw [hperform] at houtcome
  apply hvalid.withLog
  · intro hrejected
    rw [hvalid.rejectedLog hrejected] at hlog
    contradiction
  · exact (hvalid.log log hlog).outcome hcall houtcome

theorem Valid.recordLogSegment {publication : LogSegmentPublication}
    (hbelow : publication.segment.lastSequence.get + 1 < 2 ^ 64)
    (hrecord : self.recordLogSegment publication enqueuedAt = .ok (true, next)) :
    next.Valid runnerId session := by
  obtain ⟨-, log, after, accepted, hlog, hstream, -, hexec, rfl⟩ :=
    recordLogSegment_eq_true.mp hrecord
  exact hvalid.logCall hlog (LogDeliveryCursor.perform_recordSegment_of_exec hexec)
    ⟨hstream.symm, hbelow⟩

theorem Valid.sealLogSegment {expectedContent : DurableContentRef}
    (hseal : self.sealLogSegment streamId expectedContent = .ok (true, next)) :
    next.Valid runnerId session := by
  obtain ⟨log, after, hlog, -, hexec, rfl⟩ := sealLogSegment_eq_true.mp hseal
  have hperform : log.perform (.sealSegment expectedContent) = (.ok true, after) :=
    hexec
  exact hvalid.logCall hlog hperform trivial

theorem Valid.acknowledgeLogSegment {acknowledgement : LogSegmentAcknowledgement}
    (hack : self.acknowledgeLogSegment acknowledgement = .ok (true, next)) :
    next.Valid runnerId session := by
  obtain ⟨log, after, hlog, hstream, hexec, rfl⟩ := acknowledgeLogSegment_eq_true.mp hack
  have hperform : log.perform (.acknowledgeSegment acknowledgement) = (.ok true, after) := hexec
  exact hvalid.logCall hlog hperform hstream.symm

end

/-! ## Lifecycle and endpoint operations -/

variable {operations : List EndpointOperation}

theorem Valid.withLifecycle {lifecycle : JobLifecycle} (hvalid : self.Valid runnerId session)
    (hendpoints : { self with
        lifecycle
        endpointOperations := operations }.EndpointsValid)
    (hunstarted : self.orphan = none → self.offerStatus ≠ .accepted → isUnstarted lifecycle = true)
    (hresult : self.terminalResult ≠ none → lifecycle.isTerminal = true)
    (hpresent : lifecycle.isTerminal = true → self.terminalResult = none → self.orphan ≠ none)
    (hsettled : self.orphan ≠ none → lifecycle.isTerminal = true ∨ { self with
            lifecycle
            endpointOperations := operations }.endpointRecoveryPending ≠ none)
    (hcancelled : self.cancellation ≠ none → isBeforeCancellation lifecycle = false) :
    { self with
      lifecycle
      endpointOperations := operations }.Valid runnerId session :=
  { hvalid with
    endpoints := hendpoints
    provider := { hvalid.provider with }
    recorded := fun horphan hrecorded =>
      hunstarted horphan (by rw [hrecorded]; decide)
    rejected := fun horphan hrejected =>
      hunstarted horphan (by rw [hrejected]; decide)
    terminalResult := by
      intro result hpresent
      obtain ⟨hcontent, haccepted, -⟩ := hvalid.terminalResult result hpresent
      refine ⟨hcontent, haccepted, hresult ?_⟩
      rw [Option.mem_def.mp hpresent]
      exact Option.some_ne_none result
    resultPresent := fun _ => hpresent
    orphan := by
      intro orphan horphan
      have hsome : self.orphan ≠ none := by
        rw [Option.mem_def.mp horphan]
        exact Option.some_ne_none orphan
      exact { hvalid.orphan orphan horphan with settled := hsettled hsome }
    cancelled := by
      intro hpresent
      exact hcancelled (Option.isSome_iff_ne_none.mp hpresent) }

/-- A job does not go back behind its cancellation. -/
theorem isBeforeCancellation_of_hasEdge {before after : JobLifecycle}
    (hedge : before.hasEdge after = true)
    (hpast : isBeforeCancellation before = false) :
    isBeforeCancellation after = false := by
  cases before <;> cases after <;> simp_all [JobLifecycle.hasEdge, isBeforeCancellation]

theorem Valid.terminalResult_eq_none (hvalid : self.Valid runnerId session)
    (hopen : self.lifecycle.isTerminal = false) :
    self.terminalResult = none := by
  by_contra hsome
  obtain ⟨result, hresult⟩ := Option.ne_none_iff_exists'.mp hsome
  have hterminal := (hvalid.terminalResult result hresult).2.2
  rw [hopen] at hterminal
  contradiction

theorem isTerminal_of_hasEdge {before after : JobLifecycle} (hedge : before.hasEdge after = true) :
    before.isTerminal = false := by
  by_contra hterminal
  rw [Bool.not_eq_false] at hterminal
  rw [JobLifecycle.not_hasEdge_of_isTerminal hterminal] at hedge
  contradiction

section

variable (hvalid : self.Valid runnerId session)

include hvalid

theorem Valid.past_cancellation (hcancelled : self.cancellation ≠ none) :
    isBeforeCancellation self.lifecycle = false :=
  hvalid.cancelled (Option.isSome_iff_ne_none.mpr hcancelled)

theorem Valid.transitionLifecycle {target : JobLifecycle}
    (htransition : self.transitionLifecycle target = .ok (true, next)) :
    next.Valid runnerId session := by
  obtain ⟨haccepted, horphan, -, hopen, hfinalizing, hedge, rfl⟩ :=
    transitionLifecycle_eq_true.mp htransition
  have hnone := hvalid.terminalResult_eq_none (isTerminal_of_hasEdge hedge)
  apply hvalid.withLifecycle
  · exact { hvalid.endpoints with
      settled := by
        intro hclosed
        rcases hclosed with htarget | hterminal
        · exact hfinalizing htarget
        · rw [hopen] at hterminal
          contradiction }
  · intro _ hunaccepted
    exact absurd haccepted hunaccepted
  · intro hsome
    exact absurd hnone hsome
  · intro hterminal
    rw [hopen] at hterminal
    contradiction
  · intro hsome
    exact absurd horphan hsome
  · intro hcancelled
    exact isBeforeCancellation_of_hasEdge hedge (hvalid.past_cancellation hcancelled)

theorem Valid.recordTerminalResult {terminal : JobLifecycle} {result : TerminalResultRecord}
    (hrecord : self.recordTerminalResult terminal result enqueuedAt = .ok (true, next)) :
    next.Valid runnerId session := by
  obtain ⟨haccepted, horphan, hcontent, -, hterminal, hidle, -, henqueued,
    hedge, rfl⟩ := recordTerminalResult_eq_true.mp hrecord
  obtain ⟨hrejection, -, hrejectionAt, -⟩ := validateDeliveryTimestamps_eq_ok.mp hvalid.timestamps
  exact { hvalid with
    endpoints := { hvalid.endpoints with settled := fun _ => hidle }
    provider := { hvalid.provider with }
    timestamps :=
      validateDeliveryTimestamps_eq_ok.mpr ⟨hrejection, rfl, hrejectionAt, by simpa using henqueued⟩
    recorded := fun _ hrecorded => by
      rw [haccepted] at hrecorded
      contradiction
    rejected := fun _ hrejected => by
      rw [haccepted] at hrejected
      contradiction
    terminalResult := by
      intro recorded hrecorded
      rw [← Option.some.inj hrecorded]
      exact ⟨hcontent, haccepted, hterminal⟩
    resultPresent := fun _ _ hnone =>
      absurd hnone (Option.some_ne_none result)
    orphan := by simp [horphan]
    cancelled := fun hcancelled =>
      isBeforeCancellation_of_hasEdge hedge (hvalid.cancelled hcancelled) }

theorem Valid.acknowledgeTerminalResult
    (hack : self.acknowledgeTerminalResult operationId = .ok (true, next)) :
    next.Valid runnerId session := by
  obtain ⟨result, hresult, -, -, rfl⟩ := acknowledgeTerminalResult_eq_true.mp hack
  have hold := hvalid.terminalResult result hresult
  exact { hvalid with
    endpoints := { hvalid.endpoints with }
    provider := { hvalid.provider with }
    timestamps := by
      have htimestamps := hvalid.timestamps
      rw [validateDeliveryTimestamps, hresult] at htimestamps
      exact htimestamps
    terminalResult := by
      intro recorded hrecorded
      rw [← Option.some.inj hrecorded]
      exact hold
    resultPresent := fun _ _ hnone =>
      absurd hnone (Option.some_ne_none _)
    orphan := fun orphan horphan =>
      { hvalid.orphan orphan horphan with
        terminalResult := fun _ => Option.some_ne_none _ } }

end

/-! ## Endpoint operations of a slot -/

variable {after operation : EndpointOperation}

theorem endpointRecoveryPending_of_mem (hwindow : EndpointWindow self.endpointOperations)
    (hmem : operation ∈ self.endpointOperations) (hpending : operation.isRecoveryPending = true) :
    self.endpointRecoveryPending = some operation := by
  have hlast := hwindow.getLast_of_pending hmem hpending
  simp [endpointRecoveryPending, hlast, hpending]

theorem EndpointsValid.open_of_pending (hvalid : self.EndpointsValid)
    (hmem : operation ∈ self.endpointOperations) (hpending : operation.isRecoveryPending = true) :
    self.lifecycle ≠ .finalizing ∧ self.lifecycle.isTerminal = false := by
  have hsome := endpointRecoveryPending_of_mem hvalid.window hmem hpending
  have hopen : ¬(self.lifecycle = .finalizing ∨ self.lifecycle.isTerminal = true) := by
    intro hclosed
    rw [hvalid.settled hclosed] at hsome
    contradiction
  rw [not_or, Bool.not_eq_true] at hopen
  exact hopen

theorem EndpointsValid.advance (hvalid : self.EndpointsValid)
    (hmem : operation ∈ self.endpointOperations) (hadvances : operation.Advances after)
    (hresult : ∀ result, after.state = .completed result → operation.Fits result) :
    { self with
      endpointOperations := replace EndpointOperation.operationId after
        self.endpointOperations }.EndpointsValid := by
  have hpending : operation.isRecoveryPending = true := hadvances.2.isPending
  obtain ⟨hfinalizing, hopen⟩ := hvalid.open_of_pending hmem hpending
  have hsame : ∀ other ∈ self.endpointOperations,
      other.operationId = after.operationId → other = operation := by
    intro other hother hid
    exact eq_of_mem_of_key_eq hvalid.window.distinct hother hmem
      (hid.trans hadvances.operationId_eq)
  constructor
  · simpa only [length_replace] using hvalid.count
  · intro _
    exact hvalid.accepted (List.ne_nil_of_mem hmem)
  · intro other hother
    rcases mem_replace.mp hother with ⟨hold, -⟩ | ⟨rfl, -⟩
    · exact hvalid.operations other hold
    · exact (hvalid.operations operation hmem).advances hadvances hresult
  · apply hvalid.window.replace hmem hadvances.operationId_eq
    intro _
    exact hpending
  · apply le_trans _ hvalid.refs
    apply sum_map_replace_le
    intro other hother hid
    rw [hsame other hother hid]
    exact hadvances.accountedContentRefs_le
  · apply le_trans _ hvalid.bytes
    apply sum_map_replace_le
    intro other hother hid
    rw [hsame other hother hid]
    exact hadvances.contentBytes_le hresult
  · intro hclosed
    rcases hclosed with hclosed | hclosed
    · exact absurd hclosed hfinalizing
    · rw [hopen] at hclosed
      contradiction

theorem Valid.withEndpoints (hvalid : self.Valid runnerId session)
    (hopen : self.lifecycle.isTerminal = false)
    (hendpoints : { self with endpointOperations := operations }.EndpointsValid)
    (hsettled : self.orphan ≠ none → { self with
          endpointOperations := operations }.endpointRecoveryPending ≠ none) :
    { self with endpointOperations := operations }.Valid runnerId session := by
  have hlater : { self with
      lifecycle := self.lifecycle
      endpointOperations := operations }.Valid runnerId session := by
    apply hvalid.withLifecycle hendpoints
    · intro horphan hunaccepted
      cases hstatus : self.offerStatus with
      | recorded => exact hvalid.recorded horphan hstatus
      | rejected => exact hvalid.rejected horphan hstatus
      | accepted => exact absurd hstatus hunaccepted
    · intro hsome
      exact absurd (hvalid.terminalResult_eq_none hopen) hsome
    · intro hterminal
      rw [hopen] at hterminal
      contradiction
    · intro hsome
      exact .inr (hsettled hsome)
    · exact hvalid.past_cancellation
  exact hlater

theorem Valid.terminalize (hvalid : self.Valid runnerId session)
    (haccepted : self.offerStatus = .accepted)
    (hopen : self.lifecycle.isTerminal = false)
    (hendpoints : { self with endpointOperations := operations }.EndpointsValid) :
    { self with
      endpointOperations :=
        operations }.terminalizeOrphanAfterEndpointResolution.Valid runnerId session := by
  unfold terminalizeOrphanAfterEndpointResolution
  split
  · rename_i hclosing
    obtain ⟨horphan, -, hidle⟩ := hclosing
    have hsome : self.orphan ≠ none := Option.isSome_iff_ne_none.mp horphan
    apply hvalid.withLifecycle
    · exact { hendpoints with settled := fun _ => hidle }
    · intro _ hunaccepted
      exact absurd haccepted hunaccepted
    · intro _
      rfl
    · intro _ _
      exact hsome
    · intro _
      exact .inl rfl
    · intro _
      rfl
  · rename_i hkept
    apply hvalid.withEndpoints hopen hendpoints
    intro hsome hidle
    exact hkept ⟨Option.isSome_iff_ne_none.mpr hsome, hopen, hidle⟩

/-- What a rewritten operation leaves of the slot. -/
structure EndpointAdvance (slot next : SlotSnapshot)
    (operation after : EndpointOperation) : Prop where
  present : operation ∈ slot.endpointOperations
  pending : operation.isRecoveryPending = true
  accepted : slot.offerStatus = .accepted
  opened : slot.lifecycle.isTerminal = false
  written :
    next = { slot with
      endpointOperations := replace EndpointOperation.operationId after
        slot.endpointOperations }
  endpoints : next.EndpointsValid

theorem Valid.endpointAdvance
    {update : EndpointOperation → Except JournalInvariantError (Bool × EndpointOperation)}
    (hvalid : self.Valid runnerId session)
    (hupdate : self.EndpointUpdate operationId update next)
    (hadvances : ∀ operation after, operation.Valid → update operation = .ok (true, after) →
          operation.Advances after ∧ ∀ result, after.state = .completed result →
              operation.Fits result) :
    ∃ operation after, update operation = .ok (true, after) ∧
      EndpointAdvance self next operation after := by
  obtain ⟨operation, after, hfound, hafter, rfl⟩ := hupdate
  have hmem := (lookup_mem hfound).1
  obtain ⟨hstep, hresult⟩ := hadvances operation after
    (hvalid.endpoints.operations operation hmem) hafter
  have hpending : operation.isRecoveryPending = true := hstep.2.isPending
  exact ⟨operation, after, hafter, hmem, hpending,
    hvalid.endpoints.accepted (List.ne_nil_of_mem hmem),
    (hvalid.endpoints.open_of_pending hmem hpending).2, rfl,
    hvalid.endpoints.advance hmem hstep hresult⟩

theorem EndpointAdvance.mem (hadvance : EndpointAdvance self next operation after)
    (hid : after.operationId = operation.operationId) : after ∈ next.endpointOperations := by
  rw [hadvance.written]
  exact mem_replace.mpr (.inr ⟨rfl, operation, hadvance.present, hid.symm⟩)

theorem EndpointAdvance.resolved (hadvance : EndpointAdvance self next operation after)
    (hwindow : EndpointWindow self.endpointOperations)
    (hid : after.operationId = operation.operationId) (hdone : after.isRecoveryPending = false) :
    next.endpointRecoveryPending = none := by
  have hlast := hwindow.getLast_of_pending hadvance.present hadvance.pending
  obtain ⟨front, hfront⟩ := List.getLast?_eq_some_iff.mp hlast
  have hoperations : next.endpointOperations = front ++ [after] := by
    rw [hfront] at hwindow
    rw [hadvance.written, ← hwindow.replace_concat hid, ← hfront]
  simp [endpointRecoveryPending, hoperations, hdone]

section

variable (hvalid : self.Valid runnerId session)

include hvalid

theorem Valid.commitEndpointInvocation
    (hcommit : self.commitEndpointInvocation operationId = .ok (true, next)) :
    next.Valid runnerId session := by
  obtain ⟨operation, after, hafter, hadvance⟩ := hvalid.endpointAdvance
    (commitEndpointInvocation_eq_true.mp hcommit) (by
      intro operation after _ hafter
      refine ⟨.of_commitInvocation hafter, ?_⟩
      have hcases := of_changed (EndpointOperation.commitInvocation_eq_ok.mp hafter)
      simp [hcases.2])
  obtain ⟨-, rfl⟩ := of_changed (EndpointOperation.commitInvocation_eq_ok.mp hafter)
  have hmem := hadvance.mem rfl
  have hpending := endpointRecoveryPending_of_mem hadvance.endpoints.window hmem rfl
  obtain ⟨hpresent, -, -, hopen, rfl, hendpoints⟩ := hadvance
  apply hvalid.withEndpoints hopen hendpoints
  intro _
  rw [hpending]
  exact Option.some_ne_none _

/-- A completed operation leaves nothing pending, so that an orphaned slot
would have to close, which `recordEndpointResult` does not do. -/
theorem Valid.recordEndpointResult_iff {result : EndpointResultContentRef}
    (hrecord : self.recordEndpointResult operationId result = .ok (true, next)) :
    next.Valid runnerId session ↔ self.orphan = none := by
  obtain ⟨operation, after, hafter, hadvance⟩ := hvalid.endpointAdvance
    (recordEndpointResult_eq_true.mp hrecord) (by
      intro operation after hoperation hafter
      exact ⟨(EndpointOperation.Advances.of_recordResult hafter).1,
        .of_recordResult hoperation hafter⟩)
  obtain ⟨-, rfl⟩ := of_changed ((EndpointOperation.recordResult_eq_ok.mp hafter).2)
  have hidle := hadvance.resolved hvalid.endpoints.window rfl rfl
  obtain ⟨-, -, -, hopen, rfl, hendpoints⟩ := hadvance
  constructor
  · intro hlater
    by_contra horphan
    obtain ⟨orphan, horphan⟩ := Option.ne_none_iff_exists'.mp horphan
    rcases (hlater.orphan orphan horphan).settled with hterminal | hpending
    · have hclosed : self.lifecycle.isTerminal = true := hterminal
      rw [hopen] at hclosed
      contradiction
    · exact hpending hidle
  · intro horphan
    apply hvalid.withEndpoints hopen hendpoints
    intro hsome
    exact absurd horphan hsome

theorem Valid.terminalized
    {update : EndpointOperation → Except JournalInvariantError (Bool × EndpointOperation)}
    {updated : SlotSnapshot}
    (hupdate : self.EndpointUpdate operationId update updated)
    (hadvances :
      ∀ operation after, update operation = .ok (true, after) → operation.Advances after ∧
          ∀ result, after.state ≠ .completed result) :
    updated.terminalizeOrphanAfterEndpointResolution.Valid runnerId session := by
  obtain ⟨operation, after, -, hadvance⟩ := hvalid.endpointAdvance hupdate (by
      intro operation after _ hafter
      obtain ⟨hstep, hother⟩ := hadvances operation after hafter
      exact ⟨hstep, fun result hresult => absurd hresult (hother result)⟩)
  obtain ⟨-, -, haccepted, hopen, rfl, hendpoints⟩ := hadvance
  exact hvalid.terminalize haccepted hopen hendpoints

theorem Valid.recordEndpointCancellation
    (hcancel : self.recordEndpointCancellation operationId = .ok (true, next)) :
    next.Valid runnerId session := by
  obtain ⟨updated, hupdate, rfl⟩ := recordEndpointCancellation_eq_true.mp hcancel
  apply hvalid.terminalized hupdate
  intro operation after hafter
  have hrequest := Except.ok.inj hafter
  refine ⟨(EndpointOperation.Advances.of_requestCancellation hrequest).1, ?_⟩
  have hcases := EndpointOperation.requestCancellation_eq.mp hrequest
  simp only [true_and, Bool.true_eq_false, false_and, or_false] at hcases
  rcases hcases with ⟨-, rfl⟩ | ⟨-, rfl⟩ <;> simp

theorem Valid.completeEndpointCancellation
    (hcomplete : self.completeEndpointCancellation operationId = .ok (true, next)) :
    next.Valid runnerId session := by
  obtain ⟨-, updated, hupdate, rfl⟩ := completeEndpointCancellation_eq_true.mp hcomplete
  apply hvalid.terminalized hupdate
  intro operation after hafter
  refine ⟨(EndpointOperation.Advances.of_completeCancellation hafter).1, ?_⟩
  have hcases := of_changed (EndpointOperation.completeCancellation_eq_ok.mp hafter)
  simp [hcases.2]

theorem Valid.abandonEndpointOperation
    (habandon : self.abandonEndpointOperation operationId = .ok (true, next)) :
    next.Valid runnerId session := by
  obtain ⟨-, updated, hupdate, rfl⟩ := abandonEndpointOperation_eq_true.mp habandon
  apply hvalid.terminalized hupdate
  intro operation after hafter
  refine ⟨(EndpointOperation.Advances.of_abandon hafter).1, ?_⟩
  have hcases := of_changed (EndpointOperation.abandon_eq_ok.mp hafter)
  simp [hcases.2]

end

theorem checkEndpointLimits_eq_ok {result : Unit} (hvalid : self.EndpointsValid)
    (hoperation : operation.Valid) (hlimits : self.checkEndpointLimits operation = .ok result) :
    self.endpointOperations.length < maxEndpointOperationsPerJob ∧
      contentRefs (self.endpointOperations ++ [operation]) ≤ maxEndpointContentRefsPerSlot ∧
      contentBytes (self.endpointOperations ++ [operation]) ≤ maxEndpointContentBytesPerSlot := by
  simp only [checkEndpointLimits, hoperation.accountedContentBytes_eq, ok_bind, bind_eq_ok,
    rejectIf_eq_ok, exists_const, sumContentRefs_eq_ok, sumContentBytes_eq_ok hvalid.operations,
    not_le, not_lt] at hlimits
  obtain ⟨hcount, refs, ⟨rfl, -⟩, hrefs, bytes, ⟨rfl, -⟩, hbytes⟩ := hlimits
  refine ⟨hcount, ?_, ?_⟩
  · rw [contentRefs, List.map_append, List.sum_append]
    simpa [Nat.add_comm] using hrefs
  · rw [contentBytes, List.map_append, List.sum_append]
    simpa [Nat.add_comm] using hbytes

/-- A finalizing job has no pending operation, which
`acceptEndpointOperation` does not check. -/
theorem Valid.acceptEndpointOperation_iff (hvalid : self.Valid runnerId session)
    (haccept : self.acceptEndpointOperation operation = .ok (true, next)) :
    next.Valid runnerId session ↔ self.lifecycle ≠ .finalizing := by
  obtain ⟨haccepted, hopen, horphan, hoperation, hstate, hfresh, -, hidle,
    hlimits, rfl⟩ := acceptEndpointOperation_eq_true.mp haccept
  obtain ⟨hcount, hrefs, hbytes⟩ := checkEndpointLimits_eq_ok hvalid.endpoints hoperation hlimits
  constructor
  · intro hlater hfinalizing
    have hnone := hlater.endpoints.settled (.inl hfinalizing)
    rw [endpointRecoveryPending, List.getLast?_concat, Option.filter_eq_none_iff] at hnone
    have hpending := hnone operation rfl
    rw [EndpointOperation.isRecoveryPending, hstate] at hpending
    exact hpending rfl
  · intro hfinalizing
    apply hvalid.withEndpoints hopen
    · constructor
      · simpa using hcount
      · intro _
        exact haccepted
      · intro other hother
        rw [List.mem_append, List.mem_singleton] at hother
        rcases hother with hold | rfl
        · exact hvalid.endpoints.operations other hold
        · exact hoperation
      · apply hvalid.endpoints.window.concat
        · exact lookup_eq_none_iff.mp hfresh
        · intro other hother
          rw [endpointRecoveryPending, Option.filter_eq_none_iff] at hidle
          simpa using hidle other hother
      · exact hrefs
      · exact hbytes
      · intro hclosed
        rcases hclosed with hclosed | hclosed
        · exact absurd hclosed hfinalizing
        · rw [hopen] at hclosed
          contradiction
    · intro hsome
      exact absurd horphan hsome

/-! ## Provider operations of a slot -/

theorem isCoherent_compact {recovery compacted : ProviderRecoveryState}
    {operation : ProviderOperation}
    (hcoherent : recovery.isCoherent = true)
    (hcompact : recovery.compact operation = .ok compacted) :
    compacted.isCoherent = true := by
  obtain ⟨-, hbegin, -, rfl⟩ := ProviderRecoveryState.compact_eq_ok.mp hcompact
  obtain ⟨count, created, live, running⟩ := recovery
  obtain ⟨operationId, kind, outcome⟩ := operation
  by_cases happlied : outcome = .applied
  · cases kind <;> cases created <;> cases live <;> cases running <;>
      simp_all [ProviderRecoveryState.isCoherent, ProviderRecoveryState.canBegin,
        ProviderRecoveryState.after, ProviderRecoveryState.applyKind]
  · cases created <;> cases live <;> cases running <;> simp_all [ProviderRecoveryState.isCoherent,
        ProviderRecoveryState.after]

section

variable (hvalid : self.Valid runnerId session)

include hvalid

theorem Valid.windowReplay : ∃ recovery, WindowReplay self recovery := by
  obtain ⟨recovery, heffect, hsandbox⟩ := hvalid.provider.recovery
  exact ⟨recovery, hvalid.provider.window, hvalid.providerCount, heffect, hsandbox⟩

theorem Valid.withProvider {checkpoint recovery : ProviderRecoveryState}
    {operations : List ProviderOperation} {sandbox : Option SandboxIdentity}
    (haccepted : self.offerStatus = .accepted)
    (hauthority : self.authorityAcknowledged = true)
    (hcoherent : checkpoint.isCoherent = true)
    (hreplay : WindowReplay { self with
        providerCheckpoint := checkpoint
        providerOperations := operations
        sandbox } recovery) :
    { self with
      providerCheckpoint := checkpoint
      providerOperations := operations
      sandbox }.Valid runnerId session :=
  { hvalid with
    providerCount := hreplay.bounded
    endpoints := { hvalid.endpoints with }
    provider :=
      { accepted := fun _ => haccepted
        authority := fun _ => hauthority
        coherent := hcoherent
        window := hreplay.window
        recovery := ⟨recovery, hreplay.effect, hreplay.sandbox⟩ }
    orphan := fun orphan horphan =>
      { hvalid.orphan orphan horphan with } }

/-- Provider operations need the adopted runtime authority, which
`recordProviderIntent` does not check. -/
theorem Valid.recordProviderIntent_iff {intent : ProviderOperation}
    (hintent : self.recordProviderIntent intent = .ok (true, next)) :
    next.Valid runnerId session ↔ self.authorityAcknowledged = true := by
  obtain ⟨recovery, hold⟩ := hvalid.windowReplay
  obtain ⟨final, hreplay⟩ := hold.recordProviderIntent hintent
  obtain ⟨haccepted, -, -, -, -, -, checkpoint, window, -, hcompact, -, -,
    -, -, rfl⟩ := recordProviderIntent_eq_true.mp hintent
  constructor
  · intro hlater
    exact hlater.provider.authority (.inl (by simp))
  · intro hauthority
    apply hvalid.withProvider haccepted hauthority _ hreplay
    rcases compactWindow_eq_ok.mp hcompact with ⟨-, rfl, -⟩ | ⟨-, oldest, -, hoperation⟩
    · exact hvalid.provider.coherent
    · exact isCoherent_compact hvalid.provider.coherent hoperation

theorem Valid.resolve {operation : ProviderOperation} {outcome : ProviderOperationOutcome}
    (hresolves : Resolves self next operation outcome) :
    next.Valid runnerId session := by
  obtain ⟨recovery, hreplay⟩ := hvalid.windowReplay
  have hstarted : self.providerOperations ≠ [] := by
    intro hempty
    have hlast := hresolves.last
    simp [hempty] at hlast
  have hlater := hreplay.resolve hresolves
  rw [hresolves.written] at hlater ⊢
  exact hvalid.withProvider (hvalid.provider.accepted hstarted)
    (hvalid.provider.authority (.inl hstarted)) hvalid.provider.coherent
    hlater

theorem Valid.recordSandboxCreated {sandbox : SandboxIdentity}
    (hcreated : self.recordSandboxCreated operationId sandbox = .ok (true, next)) :
    next.Valid runnerId session := by
  obtain ⟨operation, hresolves⟩ := Resolves.of_recordSandboxCreated hcreated
  exact hvalid.resolve hresolves

theorem Valid.completeProviderOperation
    (hcomplete : self.completeProviderOperation operationId = .ok (true, next)) :
    next.Valid runnerId session := by
  obtain ⟨operation, hresolves⟩ := Resolves.of_completeProviderOperation hcomplete
  exact hvalid.resolve hresolves

theorem Valid.failProviderOperation {failure : ProviderFailureOutcome}
    (hfail : self.failProviderOperation operationId failure = .ok (true, next)) :
    next.Valid runnerId session := by
  obtain ⟨operation, hresolves⟩ := Resolves.of_failProviderOperation hfail
  exact hvalid.resolve hresolves

/-! ## Orphan authority and cancellation -/

theorem Valid.abandonOrphanDelivery {authorityOperationId : OperationId}
    {delivery : OrphanDelivery} {reason : OrphanAbandonmentReason}
    (habandon :
      self.abandonOrphanDelivery authorityOperationId delivery reason = .ok (true, next)) :
    next.Valid runnerId session := by
  obtain ⟨hpresent, orphan, after, horphan, habandoned, rfl⟩ :=
    abandonOrphanDelivery_eq_true.mp habandon
  have hother : ∀ other, after.isAbandoned other = true →
      other = delivery ∨ orphan.isAbandoned other = true := fun _ =>
    OrphanRecord.isAbandoned_of_abandon habandoned
  obtain ⟨-, rfl⟩ := of_changed ((OrphanRecord.abandon_eq_ok.mp habandoned).2)
  have hold := hvalid.orphan orphan horphan
  exact { hvalid with
    endpoints := { hvalid.endpoints with }
    provider := { hvalid.provider with }
    recorded := fun hnone => by contradiction
    rejected := fun hnone => by contradiction
    resultPresent := fun _ _ _ => Option.some_ne_none _
    orphan := by
      intro written hwritten
      rw [← Option.some.inj hwritten]
      exact { hold with
        terminalResult := by
          intro habandoned
          rcases hother _ habandoned with rfl | hearlier
          · simpa [hasDelivery, Option.isSome_iff_ne_none] using hpresent
          · exact hold.terminalResult hearlier
        logStream := by
          intro habandoned
          rcases hother _ habandoned with rfl | hearlier
          · simpa [hasDelivery, Option.isSome_iff_ne_none] using hpresent
          · exact hold.logStream hearlier
        leaseRejection := by
          intro habandoned
          rcases hother _ habandoned with rfl | hearlier
          · simpa [hasDelivery, Option.isSome_iff_ne_none] using hpresent
          · exact hold.leaseRejection hearlier } }

theorem Valid.authorizeOrphan {grant : OrphanAuthorityGrant}
    (haddressed :
      grant.claim = ⟨runnerId, session.sessionId, self.offer.slot, self.offer.lease.guard⟩)
    (hauthorize : self.authorizeOrphan grant = .ok (true, next)) :
    next.Valid runnerId session := by
  obtain ⟨-, rfl⟩ := authorizeOrphan_eq_true.mp hauthorize
  have hterminal : ∀ result ∈ self.terminalResult, (if self.lifecycle.isTerminal = false ∧
          self.endpointRecoveryPending = none then JobLifecycle.lost
        else self.lifecycle).isTerminal = true := by
    intro result hresult
    have hclosed := (hvalid.terminalResult result hresult).2.2
    rw [if_neg (by simp [hclosed])]
    exact hclosed
  exact { hvalid with
    endpoints :=
      { hvalid.endpoints with
        settled := by
          intro hclosed
          by_cases hlost : self.lifecycle.isTerminal = false ∧ self.endpointRecoveryPending = none
          · exact hlost.2
          · simp only [if_neg hlost] at hclosed
            exact hvalid.endpoints.settled hclosed }
    provider := { hvalid.provider with }
    recorded := fun hnone => by contradiction
    rejected := fun hnone => by contradiction
    terminalResult := by
      intro result hresult
      obtain ⟨hcontent, haccepted, -⟩ := hvalid.terminalResult result hresult
      exact ⟨hcontent, haccepted, hterminal result hresult⟩
    resultPresent := fun _ _ _ => Option.some_ne_none _
    orphan := by
      intro orphan horphan
      rw [← Option.some.inj horphan]
      constructor
      · rw [OrphanRecord.fromGrant, haddressed]
      · rw [OrphanRecord.fromGrant, haddressed]
        rfl
      · by_cases hlost : self.lifecycle.isTerminal = false ∧ self.endpointRecoveryPending = none
        · simp only [if_pos hlost]
          exact .inl rfl
        · simp only [if_neg hlost]
          rw [not_and] at hlost
          cases hclosed : self.lifecycle.isTerminal with
          | true => exact .inl rfl
          | false => exact .inr (hlost hclosed)
      · intro habandoned
        contradiction
      · intro habandoned
        contradiction
      · intro habandoned
        contradiction
    cancelled := by
      intro hcancelled
      have hpast := hvalid.cancelled hcancelled
      by_cases hlost : self.lifecycle.isTerminal = false ∧ self.endpointRecoveryPending = none
      · simp only [if_pos hlost]
        rfl
      · simp only [if_neg hlost]
        exact hpast }

end

/-- A cancelling job may still have a pending operation. -/
theorem EndpointsValid.cancelPending (hvalid : self.EndpointsValid) :
    { self with
      lifecycle := .cancelling
      endpointOperations := self.cancelPendingEndpointOperation }.EndpointsValid := by
  rcases cancelPendingEndpointOperation_eq hvalid.window with
    hsame | ⟨operation, after, hmem, hcancel, hwritten⟩
  · rw [hsame]
    exact { hvalid with
      settled := fun hclosed => by simp [JobLifecycle.isTerminal] at hclosed }
  · obtain ⟨hstep, -⟩ := EndpointOperation.Advances.of_requestCancellation hcancel
    have hopen : ∀ result, after.state ≠ .completed result := by
      have hcases := EndpointOperation.requestCancellation_eq.mp hcancel
      simp only [true_and, Bool.true_eq_false, false_and, or_false] at hcases
      rcases hcases with ⟨-, rfl⟩ | ⟨-, rfl⟩ <;> simp
    have hadvanced := hvalid.advance hmem hstep
      (fun result hresult => absurd hresult (hopen result))
    rw [hwritten]
    exact { hadvanced with
      settled := fun hclosed => by simp [JobLifecycle.isTerminal] at hclosed }

theorem Valid.applyCancellation {cancellation : CancellationRecord}
    (hvalid : self.Valid runnerId session) (horphan : self.orphan = none)
    (horder : self.offer.command.sequence.get < cancellation.command.sequence.get)
    (hcancel : self.applyCancellation cancellation = .ok next) :
    next.Valid runnerId session := by
  obtain ⟨hallowed, rfl⟩ := applyCancellation_eq_ok.mp hcancel
  have hopen : self.lifecycle.isTerminal = false := by
    rcases hallowed with hcancelling | hedge
    · rw [hcancelling]
      rfl
    · exact isTerminal_of_hasEdge hedge
  have hcancelling : { self with
      lifecycle := .cancelling
      endpointOperations := self.cancelPendingEndpointOperation }.Valid runnerId session := by
    apply hvalid.withLifecycle hvalid.endpoints.cancelPending
    · intro _ _
      rfl
    · intro hsome
      exact absurd (hvalid.terminalResult_eq_none hopen) hsome
    · intro hterminal
      contradiction
    · intro hsome
      exact absurd horphan hsome
    · intro _
      rfl
  exact { hcancelling with
    endpoints := { hcancelling.endpoints with }
    provider := { hcancelling.provider with }
    orphan := fun orphan hsome =>
      { hcancelling.orphan orphan hsome with }
    cancellationOrder := by
      intro recorded hrecorded
      rw [← Option.some.inj hrecorded]
      exact horder
    cancelled := fun _ => rfl }

/-! ## Every mutation -/

/-- What a valid slot needs beyond the checks of a mutation. -/
def Admits (slot : SlotSnapshot) : SlotMutation → Prop
  | .rejectOffer _ _ _ => slot.logDelivery = none
  | .acceptEndpointOperation _ => slot.lifecycle ≠ .finalizing
  | .recordEndpointResult _ _ => slot.orphan = none
  | .recordProviderIntent _ => slot.authorityAcknowledged = true
  | _ => True

theorem Valid.perform_iff {mutation : SlotMutation} (hvalid : self.Valid runnerId session)
    (hbounded : (SlotEvent.mutated mutation).Bounded)
    (hperform : self.perform mutation = .ok (true, next)) :
    next.Valid runnerId session ↔ self.Admits mutation := by
  cases mutation
  case rejectOffer => exact hvalid.rejectOffer_iff hperform
  case acceptEndpointOperation => exact hvalid.acceptEndpointOperation_iff hperform
  case recordEndpointResult => exact hvalid.recordEndpointResult_iff hperform
  case recordProviderIntent => exact hvalid.recordProviderIntent_iff hperform
  -- The checks of the others are enough.
  all_goals refine iff_of_true ?_ trivial
  case acceptOffer => exact hvalid.acceptOffer hperform
  case recordRuntimeAuthorityDelivery => exact hvalid.recordRuntimeAuthorityDelivery hperform
  case acknowledgeRuntimeAuthorityDelivery =>
    exact hvalid.acknowledgeRuntimeAuthorityDelivery hperform
  case acknowledgeOfferRejection => exact hvalid.acknowledgeOfferRejection hperform
  case renewLease => exact hvalid.renewLease hperform
  case transitionLifecycle => exact hvalid.transitionLifecycle hperform
  case recordTerminalResult => exact hvalid.recordTerminalResult hperform
  case acknowledgeTerminalResult => exact hvalid.acknowledgeTerminalResult hperform
  case commitEndpointInvocation => exact hvalid.commitEndpointInvocation hperform
  case recordEndpointCancellation => exact hvalid.recordEndpointCancellation hperform
  case completeEndpointCancellation => exact hvalid.completeEndpointCancellation hperform
  case abandonEndpointOperation => exact hvalid.abandonEndpointOperation hperform
  case recordSandboxCreated => exact hvalid.recordSandboxCreated hperform
  case completeProviderOperation => exact hvalid.completeProviderOperation hperform
  case failProviderOperation => exact hvalid.failProviderOperation hperform
  case advanceOutboundOperation => exact hvalid.advanceOutboundOperation hperform
  case openLogStream => exact hvalid.openLogStream hperform
  case recordLogSegment => exact hvalid.recordLogSegment hbounded hperform
  case sealLogSegment => exact hvalid.sealLogSegment hperform
  case acknowledgeLogSegment => exact hvalid.acknowledgeLogSegment hperform
  case abandonOrphanDelivery => exact hvalid.abandonOrphanDelivery hperform

end SlotSnapshot

end AutomataCi
