import AutomataCi.JournalState
import AutomataCi.LogDeliveryValidity

/-!
# Valid slots

What the validation of a slot snapshot accepts, as a property of the snapshot.
The endpoint operations and the provider operations of a slot are serial logs:
their identifiers are distinct and only the last entry may be unresolved.
-/

namespace AutomataCi

open GuardedResult SerialLog

namespace SlotSnapshot

/-- Endpoint operations run one after the other. -/
abbrev EndpointWindow : List EndpointOperation → Prop :=
  WellOrdered EndpointOperation.operationId EndpointOperation.isRecoveryPending

def contentRefs (operations : List EndpointOperation) : Nat :=
  (operations.map EndpointOperation.accountedContentRefs).sum

def contentBytes (operations : List EndpointOperation) : Nat :=
  (operations.map EndpointOperation.contentBytes).sum

structure EndpointsValid (state : SlotSnapshot) : Prop where
  count : state.endpointOperations.length ≤ maxEndpointOperationsPerJob
  accepted : state.endpointOperations ≠ [] → state.offerStatus = .accepted
  operations : ∀ operation ∈ state.endpointOperations, operation.Valid
  window : EndpointWindow state.endpointOperations
  refs :
    contentRefs state.endpointOperations ≤ maxEndpointContentRefsPerSlot
  bytes :
    contentBytes state.endpointOperations ≤ maxEndpointContentBytesPerSlot
  settled :
    state.lifecycle = .finalizing ∨ state.lifecycle.isTerminal = true →
      state.endpointRecoveryPending = none

theorem validateEndpointLoop_eq_ok {operations : List EndpointOperation}
    {seen : List OperationId} {refs bytes : Nat} {totals : Nat × Nat} :
    validateEndpointLoop seen refs bytes operations = .ok totals ↔
      (∀ operation ∈ operations, operation.Valid) ∧ EndpointWindow operations ∧
        (∀ operation ∈ operations, operation.operationId ∉ seen) ∧
        totals = (refs + contentRefs operations, bytes + contentBytes operations) ∧
        (operations ≠ [] → totals.1 < 2 ^ 64 ∧ totals.2 < 2 ^ 64) := by
  induction operations generalizing seen refs bytes with
  | nil => simp [validateEndpointLoop, contentRefs, contentBytes, WellOrdered.nil, eq_comm]
  | cons operation rest ih =>
    simp only [validateEndpointLoop, bind_eq_ok, rejectIf_eq_ok, EndpointOperation.validate_eq_ok,
      exists_const, not_or, not_and, not_not, not_le, ih, wellOrdered_cons, forall_eq_or_imp,
      List.mem_cons, contentRefs, contentBytes, List.map_cons, List.sum_cons]
    constructor
    · rintro ⟨hvalid, hrefs, charged, hcharge, hbytes, ⟨hunseen, hlast⟩,
        hvalids, hwindow, hfresh, rfl, hbounds⟩
      rw [hvalid.accountedContentBytes_eq, Except.ok.injEq] at hcharge
      subst hcharge
      refine ⟨⟨hvalid, hvalids⟩, ⟨fun other hother => (hfresh other hother).1, hlast, hwindow⟩,
        ⟨hunseen, fun other hother => (hfresh other hother).2⟩,
        by simp only [Nat.add_assoc], ?_⟩
      intro _
      by_cases hrest : rest = []
      · subst hrest
        simpa using ⟨hrefs, hbytes⟩
      · exact hbounds hrest
    · rintro ⟨⟨hvalid, hvalids⟩, ⟨hfresh, hlast, hwindow⟩, ⟨hunseen, hseen⟩, rfl, hbounds⟩
      obtain ⟨hrefs, hbytes⟩ := hbounds (by simp)
      refine ⟨hvalid, by omega, operation.contentBytes,
        hvalid.accountedContentBytes_eq, by omega, ⟨hunseen, hlast⟩,
        hvalids, hwindow,
        fun other hother => ⟨hfresh other hother, hseen other hother⟩,
        by simp only [Nat.add_assoc], ?_⟩
      exact fun _ => ⟨hrefs, hbytes⟩

variable {self : SlotSnapshot} {result : Unit}

theorem validateEndpointOperations_eq_ok :
    self.validateEndpointOperations = .ok result ↔ self.EndpointsValid := by
  have hrefsFit : maxEndpointContentRefsPerSlot < 2 ^ 64 := by decide
  have hbytesFit : maxEndpointContentBytesPerSlot < 2 ^ 64 := by decide
  simp only [validateEndpointOperations, bind_eq_ok, rejectIf_eq_ok, validateEndpointLoop_eq_ok,
    exists_const, not_or, not_and, not_lt, not_not, Bool.not_eq_true, Option.isSome_eq_false_iff,
    Option.isNone_iff_eq_none, List.not_mem_nil, not_false_eq_true, implies_true, true_and,
    Nat.zero_add]
  constructor
  · rintro ⟨hcount, haccepted, totals, ⟨hvalid, hwindow, rfl, -⟩, hrefs, hbytes, hsettled⟩
    exact ⟨hcount, haccepted, hvalid, hwindow, hrefs, hbytes, hsettled⟩
  · intro hvalid
    refine ⟨hvalid.count, hvalid.accepted, _,
      ⟨hvalid.operations, hvalid.window, rfl, ?_⟩, hvalid.refs,
      hvalid.bytes, hvalid.settled⟩
    exact fun _ => ⟨hvalid.refs.trans_lt hrefsFit, hvalid.bytes.trans_lt hbytesFit⟩

structure ProviderValid (state : SlotSnapshot) : Prop where
  accepted : state.providerOperations ≠ [] → state.offerStatus = .accepted
  authority :
    state.providerOperations ≠ [] ∨ state.sandbox.isSome = true → state.authorityAcknowledged = true
  coherent : state.providerCheckpoint.isCoherent = true
  window : ProviderWindow state.providerOperations
  recovery :
    ∃ recovery, state.providerCheckpoint.applyAll state.providerOperations = .ok recovery ∧
        state.sandbox.isSome = recovery.sandboxLive

theorem validateProviderState_eq_ok :
    self.validateProviderState = .ok result ↔ self.ProviderValid := by
  simp only [validateProviderState, bind_eq_ok, rejectIf_eq_ok, replayProviderOperations_eq_ok,
    exists_const, not_and, not_not, Bool.not_eq_false]
  constructor
  · rintro ⟨haccepted, hauthority, hcoherent, recovery, ⟨hwindow, hreplay⟩, hlive⟩
    exact ⟨haccepted, hauthority, hcoherent, hwindow, recovery, hreplay, hlive⟩
  · intro hvalid
    obtain ⟨recovery, hreplay, hlive⟩ := hvalid.recovery
    exact ⟨hvalid.accepted, hvalid.authority, hvalid.coherent, recovery,
      ⟨hvalid.window, hreplay⟩, hlive⟩

theorem validateLogState_eq_ok :
    self.validateLogState = .ok result ↔ ∀ log ∈ self.logDelivery, log.Valid := by
  simp only [validateLogState, ifPresent_eq_ok, bind_eq_ok, rejectIf_eq_ok,
    LogDeliveryCursor.validate_eq_ok, exists_const]
  refine forall₂_congr fun log _ => and_iff_right_of_imp fun hvalid => ?_
  have hle := hvalid.tiling.le
  rintro (⟨hacknowledged, hproduced⟩ | ⟨acknowledged, hacknowledged,
    produced, hproduced, hlt⟩ | ⟨final, hfinal, hproduced⟩)
  · obtain ⟨acknowledged, hacknowledged⟩ := Option.isSome_iff_exists.mp hacknowledged
    simp [hacknowledged, hproduced] at hle
  · rw [Option.mem_def] at hacknowledged hproduced
    simp only [hacknowledged, hproduced, LogDeliveryCursor.framesThrough_some] at hle
    omega
  · exact hproduced (hvalid.finished final hfinal).1

structure OrphanValid (state : SlotSnapshot) (session : SessionSnapshot)
    (orphan : OrphanRecord) : Prop where
  session : orphan.sessionId = session.sessionId
  guard : orphan.guard = state.guard
  settled :
    state.lifecycle.isTerminal = true ∨ state.endpointRecoveryPending ≠ none
  terminalResult :
    orphan.isAbandoned .terminalResult = true → state.terminalResult ≠ none
  logStream :
    orphan.isAbandoned .logStream = true → state.logDelivery ≠ none
  leaseRejection :
    orphan.isAbandoned .leaseRejection = true → state.rejection ≠ none

variable {session : SessionSnapshot}

theorem validateOrphan_eq_ok :
    self.validateOrphan session = .ok result ↔
      ∀ orphan ∈ self.orphan, self.OrphanValid session orphan := by
  simp only [validateOrphan, ifPresent_eq_ok, rejectIf_eq_ok, not_or, not_and, not_not]
  refine forall₂_congr fun orphan _ => ?_
  constructor
  · rintro ⟨hsession, hguard, hsettled, hresult, hlog, hrejection⟩
    refine ⟨hsession, hguard, ?_, hresult, hlog, hrejection⟩
    cases hterminal : self.lifecycle.isTerminal with
    | true => exact .inl rfl
    | false => exact .inr (hsettled hterminal)
  · intro hvalid
    refine ⟨hvalid.session, hvalid.guard, ?_, hvalid.terminalResult,
      hvalid.logStream, hvalid.leaseRejection⟩
    intro hterminal
    simpa [hterminal] using hvalid.settled

/-- What `validate` checks. -/
structure Valid (state : SlotSnapshot) (runnerId : RunnerId)
    (session : SessionSnapshot) : Prop where
  offer : state.offer.validate = .ok ()
  authority :
    ∀ delivery ∈ state.runtimeAuthorityDelivery,
      delivery.validate = .ok () ∧ state.offerStatus = .accepted ∧
        state.bindingMatches delivery.binding = true
  runner : state.offer.lease.runnerId = runnerId
  jobIr : state.offer.jobIr.version = session.selectedJobIr
  expires : state.offer.lease.expiresAt.get ≤ state.expiresAt.get
  providerCount :
    state.providerOperations.length ≤ maxProviderOperationsPerSlot
  endpoints : state.EndpointsValid
  provider : state.ProviderValid
  rejection : state.rejectionConsistent = true
  timestamps : state.validateDeliveryTimestamps = .ok ()
  recorded :
    state.orphan = none → state.offerStatus = .recorded → isUnstarted state.lifecycle = true
  rejected :
    state.orphan = none → state.offerStatus = .rejected → isUnstarted state.lifecycle = true
  rejectedLog : state.offerStatus = .rejected → state.logDelivery = none
  terminalResult :
    ∀ result ∈ state.terminalResult, result.validate = .ok () ∧ state.offerStatus = .accepted ∧
        state.lifecycle.isTerminal = true
  resultPresent :
    state.offerStatus = .accepted → state.lifecycle.isTerminal = true →
      state.terminalResult = none → state.orphan ≠ none
  orphan : ∀ orphan ∈ state.orphan, state.OrphanValid session orphan
  cancellationOrder :
    ∀ cancellation ∈ state.cancellation,
      state.offer.command.sequence.get < cancellation.command.sequence.get
  cancelled :
    state.cancellation.isSome = true → isBeforeCancellation state.lifecycle = false
  log : ∀ log ∈ state.logDelivery, log.Valid

variable {runnerId : RunnerId}

theorem validate_eq_ok :
    self.validate runnerId session = .ok result ↔ self.Valid runnerId session := by
  simp only [validate, validateRuntimeAuthorityDelivery, bind_eq_ok, rejectIf_eq_ok,
    ifPresent_eq_ok, validateEndpointOperations_eq_ok, validateProviderState_eq_ok,
    validateLogState_eq_ok, validateOrphan_eq_ok, exists_const, exists_and_right, exists_eq_ok_unit,
    not_or, not_and, not_not, not_lt, not_le, Bool.not_eq_true, Bool.not_eq_false,
    Option.isSome_eq_false_iff, Option.isNone_iff_eq_none]
  constructor
  · rintro ⟨hoffer, hauthority, hrunner, hjobIr, hexpires, hcount,
      hendpoints, hprovider, hrejection, htimestamps, hrecorded, hrejected,
      hrejectedLog, hresult, hpresent, horphan, horder, hcancelled, hlog⟩
    exact ⟨hoffer, hauthority, hrunner, hjobIr, hexpires, hcount,
      hendpoints, hprovider, hrejection, htimestamps, hrecorded, hrejected,
      hrejectedLog, hresult, hpresent, horphan, horder, hcancelled, hlog⟩
  · intro hvalid
    exact ⟨hvalid.offer, hvalid.authority, hvalid.runner, hvalid.jobIr,
      hvalid.expires, hvalid.providerCount, hvalid.endpoints,
      hvalid.provider, hvalid.rejection, hvalid.timestamps,
      hvalid.recorded, hvalid.rejected, hvalid.rejectedLog,
      hvalid.terminalResult, hvalid.resultPresent, hvalid.orphan,
      hvalid.cancellationOrder, hvalid.cancelled, hvalid.log⟩

theorem Valid.unstarted (hvalid : self.Valid runnerId session)
    (hunaccepted : self.offerStatus ≠ .accepted) :
    self.providerOperations = [] ∧ self.endpointOperations = [] ∧
      self.runtimeAuthorityDelivery = none ∧ self.sandbox = none ∧
      self.terminalResult = none := by
  have hprovider : self.providerOperations = [] := by
    by_contra hstarted
    exact hunaccepted (hvalid.provider.accepted hstarted)
  have hendpoints : self.endpointOperations = [] := by
    by_contra hstarted
    exact hunaccepted (hvalid.endpoints.accepted hstarted)
  have hdelivery : self.runtimeAuthorityDelivery = none := by
    by_contra hsome
    obtain ⟨delivery, hdelivery⟩ := Option.ne_none_iff_exists'.mp hsome
    exact hunaccepted (hvalid.authority delivery hdelivery).2.1
  have hsandbox : self.sandbox = none := by
    by_contra hsome
    have hauthority := hvalid.provider.authority (.inr (Option.isSome_iff_ne_none.mpr hsome))
    simp [authorityAcknowledged, hdelivery] at hauthority
  have hresult : self.terminalResult = none := by
    by_contra hsome
    obtain ⟨result, hresult⟩ := Option.ne_none_iff_exists'.mp hsome
    exact hunaccepted (hvalid.terminalResult result hresult).2.1
  exact ⟨hprovider, hendpoints, hdelivery, hsandbox, hresult⟩

end SlotSnapshot

end AutomataCi
