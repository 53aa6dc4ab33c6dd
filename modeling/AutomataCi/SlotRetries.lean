import AutomataCi.EndpointPhases

/-!
# Retries of slot mutations

A slot operation which reported a change recognises its own repetition: on
the snapshot it left it reports no change and leaves that snapshot.  Each
operation has its own test for this, placed after its other checks, so that
the checks have to pass again as well.
-/

namespace AutomataCi

open GuardedResult FallibleState KeyedList SerialLog

namespace SlotSnapshot

abbrev Retryable
    (call : SlotSnapshot → Except JournalInvariantError (Bool × SlotSnapshot)) : Prop :=
  Settles call

theorem acceptOffer_retry : Retryable (·.acceptOffer) := by
  intro self next haccept
  obtain ⟨horphan, -, rfl⟩ := acceptOffer_eq_true.mp haccept
  simp [acceptOffer, horphan]

theorem recordRuntimeAuthorityDelivery_retry {delivery : RuntimeAuthorityDeliveryRecord} :
    Retryable (·.recordRuntimeAuthorityDelivery delivery) := by
  intro self next hrecord
  obtain ⟨haccepted, hvalid, hbinding, -, rfl⟩ := recordRuntimeAuthorityDelivery_eq_true.mp hrecord
  unfold bindingMatches at hbinding
  simp [recordRuntimeAuthorityDelivery, bindingMatches, haccepted, hvalid, hbinding]

variable {operationId responseOperationId : OperationId} {enqueuedAt : UnixMillis}

theorem acknowledgeRuntimeAuthorityDelivery_retry {generation : RuntimeAuthorityGeneration}
    {bundleDigest : Sha256Digest} :
    Retryable (·.acknowledgeRuntimeAuthorityDelivery generation bundleDigest operationId) := by
  intro self next hacknowledge
  obtain ⟨delivery, -, hgeneration, hdigest, hoperation, -, rfl⟩ :=
    acknowledgeRuntimeAuthorityDelivery_eq_true.mp hacknowledge
  simp [acknowledgeRuntimeAuthorityDelivery, RuntimeAuthorityDeliveryRecord.acknowledge,
    hgeneration, hdigest, hoperation]

theorem rejectOffer_retry {reason : LeaseRejectionReason} :
    Retryable (·.rejectOffer reason responseOperationId enqueuedAt) := by
  intro self next hreject
  obtain ⟨horphan, -, -, rfl⟩ := rejectOffer_eq_true.mp hreject
  simp [rejectOffer, horphan, LeaseRejectionRecord.new]

theorem acknowledgeOfferRejection_retry :
    Retryable (·.acknowledgeOfferRejection responseOperationId) := by
  intro self next hacknowledge
  obtain ⟨hrejected, rejection, -, hoperation, -, rfl⟩ :=
    acknowledgeOfferRejection_eq_true.mp hacknowledge
  simp [acknowledgeOfferRejection, hrejected, hoperation, LeaseRejectionRecord.acknowledgeResponse]

theorem renewLease_retry {expiresAt : UnixMillis} : Retryable (·.renewLease expiresAt) := by
  intro self next hrenew
  obtain ⟨horphan, hstatus, -, -, rfl⟩ := renewLease_eq_true.mp hrenew
  simp [renewLease, horphan, hstatus]

theorem transitionLifecycle_retry {target : JobLifecycle} :
    Retryable (·.transitionLifecycle target) := by
  intro self next htransition
  obtain ⟨haccepted, horphan, -, -, -, -, rfl⟩ := transitionLifecycle_eq_true.mp htransition
  simp [transitionLifecycle, haccepted, horphan]

theorem recordTerminalResult_retry {terminal : JobLifecycle} {result : TerminalResultRecord} :
    Retryable (·.recordTerminalResult terminal result enqueuedAt) := by
  intro self next hrecord
  obtain ⟨haccepted, horphan, hvalid, hunacknowledged, hterminal, hidle, -,
    -, -, rfl⟩ := recordTerminalResult_eq_true.mp hrecord
  unfold endpointRecoveryPending at hidle
  simp [recordTerminalResult, endpointRecoveryPending, haccepted, horphan, hvalid, hunacknowledged,
    hterminal, hidle, TerminalResultRecord.matchesUnacknowledged]

theorem acknowledgeTerminalResult_retry : Retryable (·.acknowledgeTerminalResult operationId) := by
  intro self next hacknowledge
  obtain ⟨result, -, hoperation, -, rfl⟩ := acknowledgeTerminalResult_eq_true.mp hacknowledge
  simp [acknowledgeTerminalResult, hoperation, TerminalResultRecord.acknowledge]

end SlotSnapshot

namespace EndpointOperation

variable {operation next : EndpointOperation}

theorem commitInvocation_retry : Settles commitInvocation := by
  intro operation next hcommit
  obtain ⟨-, rfl⟩ := of_changed (commitInvocation_eq_ok.mp hcommit)
  rfl

theorem requestCancellation_retry (hcancel : operation.requestCancellation = (true, next)) :
    next.requestCancellation = (false, next) := by
  have hcases := requestCancellation_eq.mp hcancel
  simp only [true_and, Bool.true_eq_false, false_and, or_false] at hcases
  rcases hcases with ⟨-, rfl⟩ | ⟨-, rfl⟩
  · rfl
  · rfl

theorem completeCancellation_retry : Settles completeCancellation := by
  intro operation next hcomplete
  obtain ⟨-, rfl⟩ := of_changed (completeCancellation_eq_ok.mp hcomplete)
  rfl

theorem abandon_retry : Settles abandon := by
  intro operation next habandon
  obtain ⟨-, rfl⟩ := of_changed (abandon_eq_ok.mp habandon)
  rfl

theorem recordResult_retry {result : EndpointResultContentRef} :
    Settles (recordResult · result) := by
  intro operation next hrecord
  obtain ⟨hcheck, hcases⟩ := recordResult_eq_ok.mp hrecord
  obtain ⟨-, rfl⟩ := of_changed hcases
  apply recordResult_eq_ok.mpr
  exact ⟨hcheck, Or.inr ⟨rfl, rfl, rfl⟩⟩

end EndpointOperation

namespace SlotSnapshot

variable {self next : SlotSnapshot}

theorem acceptEndpointOperation_retry {operation : EndpointOperation} :
    Retryable (·.acceptEndpointOperation operation) := by
  intro self next haccept
  obtain ⟨haccepted, hactive, horphan, hvalid, hstate, hfresh, -, -, -,
    rfl⟩ := acceptEndpointOperation_eq_true.mp haccept
  have hfound : lookup EndpointOperation.operationId operation.operationId
      (self.endpointOperations ++ [operation]) = some operation := by
    unfold lookup at hfresh ⊢
    rw [List.find?_append, hfresh]
    simp
  have hchecked : operation.validate = .ok () := EndpointOperation.validate_eq_ok.mpr hvalid
  simp [acceptEndpointOperation, haccepted, hactive, horphan, hchecked,
    hstate, hfound, EndpointOperation.matchesAcceptance]

variable {operationId : OperationId}

variable {update : EndpointOperation → Except JournalInvariantError (Bool × EndpointOperation)}
  {sequence : OutboundOperationSequence} {publication : LogSegmentPublication}
  {enqueuedAt : UnixMillis} {authorityOperationId : OperationId} {delivery : OrphanDelivery}
  {reason : OrphanAbandonmentReason}

theorem EndpointUpdate.retry {final : SlotSnapshot}
    (hdistinct : (self.endpointOperations.map EndpointOperation.operationId).Nodup)
    (hupdate : self.EndpointUpdate operationId update next)
    (hfinal : final.endpointOperations = next.endpointOperations)
    (hretry : ∀ operation after, update operation = .ok (true, after) →
        after.operationId = operation.operationId ∧ update after = .ok (false, after)) :
    final.updateEndpointOperation operationId update = .ok (false, final) := by
  obtain ⟨operation, after, hlookup, hafter, rfl⟩ := hupdate
  obtain ⟨hid, hagain⟩ := hretry operation after hafter
  have hwanted : operationId = after.operationId := by
    rw [hid]
    exact (lookup_mem hlookup).2.symm
  have hfound : lookup EndpointOperation.operationId operationId
      final.endpointOperations = some after := by
    rw [hfinal, lookup_replace hdistinct, if_pos hwanted, hlookup, Option.map_some]
  have hsame : replace EndpointOperation.operationId after
      final.endpointOperations = final.endpointOperations := by
    apply replace_self
    · rw [hfinal, map_key_replace]
      exact hdistinct
    · exact (lookup_mem hfound).1
  apply updateEndpointOperation_eq_ok.mpr
  refine ⟨after, after, hfound, hagain, ?_⟩
  rw [hsame]

theorem endpointOperations_terminalize (slot : SlotSnapshot) :
    slot.terminalizeOrphanAfterEndpointResolution.endpointOperations = slot.endpointOperations := by
  obtain ⟨lifecycle, hclosed⟩ := terminalize_eq slot
  rw [hclosed]

theorem EndpointUpdate.sandbox_terminalize (hupdate : self.EndpointUpdate operationId update next) :
    next.terminalizeOrphanAfterEndpointResolution.sandbox = self.sandbox := by
  have hprovider : self.Agrees
      next.terminalizeOrphanAfterEndpointResolution .provider :=
    hupdate.terminalized_agrees (by simp)
  exact hprovider.2.2

theorem terminalize_terminalize (slot : SlotSnapshot) :
    (slot.terminalizeOrphanAfterEndpointResolution ).terminalizeOrphanAfterEndpointResolution =
      slot.terminalizeOrphanAfterEndpointResolution := by
  by_cases hclosing : slot.orphan.isSome = true ∧ slot.lifecycle.isTerminal = false ∧
      slot.endpointRecoveryPending = none
  · have hclosed : slot.terminalizeOrphanAfterEndpointResolution =
        { slot with lifecycle := .lost } := by
      rw [terminalizeOrphanAfterEndpointResolution, if_pos hclosing]
    rw [hclosed]
    simp [terminalizeOrphanAfterEndpointResolution, JobLifecycle.isTerminal]
  · have hopen : slot.terminalizeOrphanAfterEndpointResolution = slot := by
      rw [terminalizeOrphanAfterEndpointResolution, if_neg hclosing]
    rw [hopen, hopen]

section

variable (hdistinct : (self.endpointOperations.map EndpointOperation.operationId).Nodup)

include hdistinct

theorem commitEndpointInvocation_retry :
    SettlesAt (·.commitEndpointInvocation operationId) self := by
  intro next hcommit
  have hupdate := commitEndpointInvocation_eq_true.mp hcommit
  apply hupdate.retry hdistinct rfl
  intro operation after hafter
  have hstep := EndpointOperation.Advances.of_commitInvocation hafter
  exact ⟨hstep.operationId_eq, EndpointOperation.commitInvocation_retry hafter⟩

theorem recordEndpointResult_retry {result : EndpointResultContentRef} :
    SettlesAt (·.recordEndpointResult operationId result) self := by
  intro next hrecord
  have hupdate := recordEndpointResult_eq_true.mp hrecord
  apply hupdate.retry hdistinct rfl
  intro operation after hafter
  have hstep := EndpointOperation.Advances.of_recordResult hafter
  exact ⟨hstep.1.operationId_eq, EndpointOperation.recordResult_retry hafter⟩

theorem recordEndpointCancellation_retry :
    SettlesAt (·.recordEndpointCancellation operationId) self := by
  intro next hrecord
  obtain ⟨updated, hupdate, rfl⟩ := recordEndpointCancellation_eq_true.mp hrecord
  have hagain := hupdate.retry hdistinct (endpointOperations_terminalize updated) (by
      intro operation after hafter
      have hcancel := Except.ok.inj hafter
      have hstep := EndpointOperation.Advances.of_requestCancellation hcancel
      exact ⟨hstep.1.operationId_eq, congrArg Except.ok
        (EndpointOperation.requestCancellation_retry hcancel)⟩)
  simp [recordEndpointCancellation, hagain, terminalize_terminalize]

theorem completeEndpointCancellation_retry :
    SettlesAt (·.completeEndpointCancellation operationId) self := by
  intro next hcomplete
  obtain ⟨hsandbox, updated, hupdate, rfl⟩ := completeEndpointCancellation_eq_true.mp hcomplete
  have hagain := hupdate.retry hdistinct (endpointOperations_terminalize updated) (by
      intro operation after hafter
      have hstep := EndpointOperation.Advances.of_completeCancellation hafter
      exact ⟨hstep.1.operationId_eq, EndpointOperation.completeCancellation_retry hafter⟩)
  have habsent := hupdate.sandbox_terminalize.trans hsandbox
  simp [completeEndpointCancellation, habsent, hagain, terminalize_terminalize]

theorem abandonEndpointOperation_retry :
    SettlesAt (·.abandonEndpointOperation operationId) self := by
  intro next habandon
  obtain ⟨hsandbox, updated, hupdate, rfl⟩ := abandonEndpointOperation_eq_true.mp habandon
  have hagain := hupdate.retry hdistinct (endpointOperations_terminalize updated) (by
      intro operation after hafter
      have hstep := EndpointOperation.Advances.of_abandon hafter
      exact ⟨hstep.1.operationId_eq, EndpointOperation.abandon_retry hafter⟩)
  have habsent := hupdate.sandbox_terminalize.trans hsandbox
  simp [abandonEndpointOperation, habsent, hagain, terminalize_terminalize]

end

theorem recordProviderIntent_retry {intent : ProviderOperation} :
    Retryable (·.recordProviderIntent intent) := by
  intro self next hrecord
  obtain ⟨haccepted, hterminal, horphan, hpending, hfresh, -, checkpoint, window, recovery,
    hcompact, -, -, -, -, rfl⟩ := recordProviderIntent_eq_true.mp hrecord
  have hsubset : ∀ operation ∈ window, operation ∈ self.providerOperations := by
    rcases compactWindow_eq_ok.mp hcompact with ⟨-, -, rfl⟩ | ⟨-, oldest, hoperations, -⟩
    · exact fun _ hmem => hmem
    · intro operation hmem
      rw [hoperations]
      exact List.mem_cons_of_mem _ hmem
  have hwindow : lookup ProviderOperation.operationId intent.operationId window = none := by
    rw [lookup_eq_none_iff] at hfresh ⊢
    intro operation hmem
    exact hfresh operation (hsubset operation hmem)
  have hfound : lookup ProviderOperation.operationId intent.operationId
      (window ++ [intent]) = some intent := by
    unfold lookup at hwindow ⊢
    rw [List.find?_append, hwindow]
    simp
  have hactive : ¬(self.lifecycle.isTerminal = true ∧ self.orphan = none ∧
      intent.kind ≠ .destroySandbox) := by
    rintro ⟨hclosed, hnone, hkind⟩
    exact hkind (hterminal hclosed hnone)
  have hallowed : ¬(self.orphan.isSome = true ∧
      intent.kind ≠ .stopSandbox ∧ intent.kind ≠ .destroySandbox) := by
    rintro ⟨hsome, hstop, hdestroy⟩
    exact hdestroy (horphan hsome hstop)
  simp only [recordProviderIntent, haccepted, ne_eq, not_true_eq_false, rejectIf_of_not _ hactive,
    rejectIf_of_not _ hallowed, rejectIf_of_not _ not_false, hpending, ok_bind, hfound, if_true]

theorem withLastProviderOperation_self {operation : ProviderOperation}
    (hlast : self.providerOperations.getLast? = some operation) :
    self.withLastProviderOperation operation = self := by
  obtain ⟨front, hfront⟩ := List.getLast?_eq_some_iff.mp hlast
  rw [withLastProviderOperation, hfront, List.dropLast_concat, ← hfront]

theorem recordSandboxCreated_retry {sandbox : SandboxIdentity} :
    Retryable (·.recordSandboxCreated operationId sandbox) := by
  intro self next hrecord
  obtain ⟨operation, -, hoperation, hkind, -, -, rfl⟩ := recordSandboxCreated_eq_true.mp hrecord
  simp [recordSandboxCreated, getLast_withLastProviderOperation, hoperation, hkind]

theorem completeProviderOperation_retry : Retryable (·.completeProviderOperation operationId) := by
  intro self next hcomplete
  obtain ⟨operation, -, rfl, hkind, -, hnext⟩ := completeProviderOperation_eq_true.mp hcomplete
  have hlast : next.providerOperations.getLast? = some { operation with outcome := .applied } := by
    rw [hnext]
    exact getLast_withLastProviderOperation self _
  have happlied : ProviderOperation.markApplied { operation with outcome := .applied } =
        .ok (false, { operation with outcome := .applied }) :=
    ProviderOperation.markApplied_eq_ok.mpr (Or.inr ⟨rfl, rfl, rfl⟩)
  simp [completeProviderOperation, hlast, hkind, happlied, withLastProviderOperation_self hlast]

theorem failProviderOperation_retry {failure : ProviderFailureOutcome} :
    Retryable (·.failProviderOperation operationId failure) := by
  intro self next hfail
  obtain ⟨operation, -, rfl, -, -, -, hnext⟩ := failProviderOperation_eq_true.mp hfail
  have hlast : next.providerOperations.getLast? =
      some { operation with outcome := .failed failure } := by
    rw [hnext]
    exact getLast_withLastProviderOperation self _
  have hfailed : ProviderOperation.resolveFailure
      { operation with outcome := .failed failure } failure =
        .ok (false, { operation with outcome := .failed failure }) :=
    ProviderOperation.resolveFailure_eq_ok.mpr (Or.inr ⟨rfl, rfl, rfl⟩)
  simp [failProviderOperation, hlast, hfailed, withLastProviderOperation_self hlast]

theorem contiguousThrough_of_advance {cursor advanced : OutboundOperationCursor}
    (hadvance : cursor.advance sequence = .ok advanced) :
    advanced.contiguousThrough = some sequence := by
  unfold OutboundOperationCursor.advance at hadvance
  cases hcurrent : cursor.contiguousThrough with
  | none | some =>
    simp only [hcurrent, bind_eq_ok, rejectIf_eq_ok, exists_const, pure_eq_ok] at hadvance
    obtain ⟨expected, -, -, rfl⟩ := hadvance
    rfl

theorem advanceOutboundOperation_retry : Retryable (·.advanceOutboundOperation sequence) := by
  intro self next hadvance
  obtain ⟨-, cursor, hcursor, rfl⟩ := advanceOutboundOperation_eq_true.mp hadvance
  simp [advanceOutboundOperation, contiguousThrough_of_advance hcursor]

variable {streamId : LogStreamId}

theorem openLogStream_retry : Retryable (·.openLogStream streamId) := by
  intro self next hopen
  obtain ⟨haccepted, horphan, -, rfl⟩ := openLogStream_eq_true.mp hopen
  simp [openLogStream, haccepted, horphan, LogDeliveryCursor.new]

theorem requireLogStream_of_eq_some {log : LogDeliveryCursor} (hlog : self.logDelivery = some log)
    (hstream : log.streamId = streamId) :
    self.requireLogStream streamId = .ok log :=
  requireLogStream_eq_ok.mpr ⟨hlog, hstream⟩

theorem recordSegment_tail {log after : LogDeliveryCursor} {accepted : Unit}
    (hrecord :
      exec (LogDeliveryCursor.recordSegment publication enqueuedAt) log = (.ok accepted, after)) :
    after.streamId = log.streamId ∧ after.producedThrough = some publication.segment.lastSequence ∧
      after.segments.getLast? = some publication.segment := by
  have houtcome := LogDeliveryCursor.perform_recordSegment_outcome log publication enqueuedAt
  have hperform : log.perform (.recordSegment publication enqueuedAt) = (.ok true, after) := by
    simp only [LogDeliveryCursor.perform, exec_bind, hrecord, andThen_ok, exec_pure]
  rw [hperform] at houtcome
  cases houtcome with
  | replaced => exact ⟨rfl, rfl, List.getLast?_concat⟩
  | appended => exact ⟨rfl, rfl, List.getLast?_concat⟩

theorem recordLogSegment_retry : Retryable (·.recordLogSegment publication enqueuedAt) := by
  intro self next hrecord
  obtain ⟨horphan, log, after, accepted, -, hstream, -, hexec, rfl⟩ :=
    recordLogSegment_eq_true.mp hrecord
  obtain ⟨hid, hproduced, htail⟩ := recordSegment_tail hexec
  have hlog : requireLogStream { self with logDelivery := some after }
      publication.streamId = .ok after :=
    requireLogStream_of_eq_some rfl (hid.trans hstream)
  beta_reduce
  rw [recordLogSegment, hlog]
  simp [horphan, hproduced, htail]

theorem sealLogSegment_retry {expectedContent : DurableContentRef} :
    Retryable (·.sealLogSegment streamId expectedContent) := by
  intro self next hseal
  obtain ⟨log, after, -, hstream, hexec, rfl⟩ := sealLogSegment_eq_true.mp hseal
  have houtcome := LogDeliveryCursor.perform_sealSegment_outcome log expectedContent
  have hperform : log.perform (.sealSegment expectedContent) = (.ok true, after) := hexec
  rw [hperform] at houtcome
  cases houtcome with
  | tailSealed front tail =>
    have hlog : requireLogStream { self with
          logDelivery := some { log with
            segments := front ++ [tail.markSealed] } } streamId =
          .ok { log with segments := front ++ [tail.markSealed] } :=
      requireLogStream_of_eq_some rfl hstream
    have hagain : onCandidate (LogDeliveryCursor.sealSegment tail.content)
        { log with segments := front ++ [tail.markSealed] } = .ok (false,
            { log with segments := front ++ [tail.markSealed] }) := by
      have hcontent : tail.markSealed.content = tail.content := rfl
      have hsealed : tail.markSealed.isSealed = true := rfl
      rw [onCandidate_eq_ok]
      simp only [LogDeliveryCursor.sealSegment, exec_bind, exec_get, andThen_ok, exec_check,
        List.getLast?_concat, okOr, hcontent, ne_eq, not_true_eq_false, rejectIf_of_not _ not_false,
        hsealed, if_true, exec_pure]
    beta_reduce
    rw [sealLogSegment, hlog, ok_bind, hagain]
    rfl

theorem acknowledgeLogSegment_retry {acknowledgement : LogSegmentAcknowledgement} :
    Retryable (·.acknowledgeLogSegment acknowledgement) := by
  intro self next hacknowledge
  obtain ⟨log, after, -, hstream, hexec, rfl⟩ := acknowledgeLogSegment_eq_true.mp hacknowledge
  have houtcome := LogDeliveryCursor.perform_acknowledgeSegment_outcome log acknowledgement
  have hperform : log.perform (.acknowledgeSegment acknowledgement) = (.ok true, after) := hexec
  rw [hperform] at houtcome
  have hlast : after.lastAcknowledgement = some acknowledgement ∧
      after.streamId = log.streamId := by
    cases houtcome with
    | acknowledged => exact ⟨rfl, rfl⟩
  have hlog : requireLogStream { self with logDelivery := some after }
      acknowledgement.streamId = .ok after :=
    requireLogStream_of_eq_some rfl (hlast.2.trans hstream)
  have hagain : onCandidate (LogDeliveryCursor.acknowledgeSegment acknowledgement) after =
        .ok (false, after) := by
    rw [onCandidate_eq_ok]
    simp [LogDeliveryCursor.acknowledgeSegment,
      LogDeliveryCursor.isReplayedAcknowledgement, hlast.1]
  beta_reduce
  rw [acknowledgeLogSegment, hlog, ok_bind, hagain]
  rfl

theorem abandon_retry : Settles (OrphanRecord.abandon · authorityOperationId delivery reason) := by
  intro record after habandon
  obtain ⟨hauthority, hcases⟩ := OrphanRecord.abandon_eq_ok.mp habandon
  obtain ⟨-, rfl⟩ := of_changed hcases
  apply OrphanRecord.abandon_eq_ok.mpr
  refine ⟨hauthority, Or.inr ⟨rfl, ?_, rfl⟩⟩
  rw [OrphanAbandonments.get_set, if_pos rfl]

theorem abandonOrphanDelivery_retry :
    Retryable (·.abandonOrphanDelivery authorityOperationId delivery reason) := by
  intro self next habandon
  obtain ⟨hdelivery, orphan, after, -, hafter, rfl⟩ := abandonOrphanDelivery_eq_true.mp habandon
  have hsame : hasDelivery { self with orphan := some after } delivery = true := by
    cases delivery <;> exact hdelivery
  beta_reduce
  rw [abandonOrphanDelivery, hsame]
  simp [abandon_retry hafter]

theorem authorizeOrphan_retry {grant : OrphanAuthorityGrant} :
    Retryable (·.authorizeOrphan grant) := by
  intro self next hauthorize
  obtain ⟨-, rfl⟩ := authorizeOrphan_eq_true.mp hauthorize
  simp [authorizeOrphan, OrphanRecord.fromGrant_matchesGrant]

theorem perform_retry {mutation : SlotMutation}
    (hdistinct : (self.endpointOperations.map EndpointOperation.operationId).Nodup)
    (hperform : self.perform mutation = .ok (true, next)) :
    next.perform mutation = .ok (false, next) := by
  cases mutation with
  | acceptOffer => exact acceptOffer_retry hperform
  | recordRuntimeAuthorityDelivery => exact recordRuntimeAuthorityDelivery_retry hperform
  | acknowledgeRuntimeAuthorityDelivery => exact acknowledgeRuntimeAuthorityDelivery_retry hperform
  | rejectOffer => exact rejectOffer_retry hperform
  | acknowledgeOfferRejection => exact acknowledgeOfferRejection_retry hperform
  | renewLease => exact renewLease_retry hperform
  | transitionLifecycle => exact transitionLifecycle_retry hperform
  | recordTerminalResult => exact recordTerminalResult_retry hperform
  | acknowledgeTerminalResult => exact acknowledgeTerminalResult_retry hperform
  | acceptEndpointOperation => exact acceptEndpointOperation_retry hperform
  | commitEndpointInvocation => exact commitEndpointInvocation_retry hdistinct hperform
  | recordEndpointCancellation => exact recordEndpointCancellation_retry hdistinct hperform
  | completeEndpointCancellation => exact completeEndpointCancellation_retry hdistinct hperform
  | abandonEndpointOperation => exact abandonEndpointOperation_retry hdistinct hperform
  | recordEndpointResult => exact recordEndpointResult_retry hdistinct hperform
  | recordProviderIntent => exact recordProviderIntent_retry hperform
  | recordSandboxCreated => exact recordSandboxCreated_retry hperform
  | completeProviderOperation => exact completeProviderOperation_retry hperform
  | failProviderOperation => exact failProviderOperation_retry hperform
  | advanceOutboundOperation => exact advanceOutboundOperation_retry hperform
  | openLogStream => exact openLogStream_retry hperform
  | recordLogSegment => exact recordLogSegment_retry hperform
  | sealLogSegment => exact sealLogSegment_retry hperform
  | acknowledgeLogSegment => exact acknowledgeLogSegment_retry hperform
  | abandonOrphanDelivery => exact abandonOrphanDelivery_retry hperform

end SlotSnapshot

end AutomataCi
