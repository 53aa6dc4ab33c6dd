import AutomataCi.SlotMutations

/-!
# What a slot mutation changes

For each slot operation, the states in which it reports a change and the
snapshot it then leaves.  Every property of histories is derived from these
lemmas, so that a change to one operation touches one of them.
-/

namespace AutomataCi

open GuardedResult FallibleState KeyedList

namespace SlotSnapshot

variable {self next : SlotSnapshot}

theorem acceptOffer_eq_true :
    self.acceptOffer = .ok (true, next) ↔ self.orphan = none ∧ self.offerStatus = .recorded ∧
        next = { self with offerStatus := .accepted } := by
  simp only [acceptOffer, bind_eq_ok, rejectIf_eq_ok, exists_const, Option.not_isSome_iff_eq_none]
  refine and_congr_right fun _ => ?_
  cases self.offerStatus <;> simp [eq_comm (a := next)]

theorem recordRuntimeAuthorityDelivery_eq_true {delivery : RuntimeAuthorityDeliveryRecord} :
    self.recordRuntimeAuthorityDelivery delivery = .ok (true, next) ↔
      self.offerStatus = .accepted ∧ delivery.validate = .ok () ∧
        self.bindingMatches delivery.binding = true ∧
        self.runtimeAuthorityDelivery = none ∧
        next = { self with runtimeAuthorityDelivery := some delivery } := by
  simp only [recordRuntimeAuthorityDelivery, bind_eq_ok, rejectIf_eq_ok, exists_const,
    exists_and_right, exists_eq_ok_unit, not_not, Bool.not_eq_false]
  refine and_congr_right fun _ => and_congr_right fun _ => and_congr_right fun _ => ?_
  cases self.runtimeAuthorityDelivery with
  | none => simp [eq_comm (a := next)]
  | some =>
    simp only [reduceCtorEq, false_and, iff_false]
    split <;> simp

variable {operationId : OperationId}

theorem acknowledgeRuntimeAuthorityDelivery_eq_true
    {generation : RuntimeAuthorityGeneration} {bundleDigest : Sha256Digest} :
    self.acknowledgeRuntimeAuthorityDelivery generation bundleDigest
        operationId = .ok (true, next) ↔
      ∃ delivery, self.runtimeAuthorityDelivery = some delivery ∧
        delivery.binding.generation = generation ∧
        delivery.bundleDigest = bundleDigest ∧
        delivery.acknowledgementOperationId = operationId ∧
        delivery.acknowledged = false ∧
        next = { self with
          runtimeAuthorityDelivery := some { delivery with acknowledged := true } } := by
  simp only [acknowledgeRuntimeAuthorityDelivery, RuntimeAuthorityDeliveryRecord.acknowledge,
    bind_eq_ok, okOr_eq_ok, rejectIf_eq_ok, exists_const, Prod.exists, pure_eq_ok, Prod.mk.injEq,
    not_or, not_not, and_assoc]
  refine exists_congr fun delivery => and_congr_right fun _ => ?_
  cases delivery.acknowledged <;> simp [eq_comm (a := next)]

variable {enqueuedAt : UnixMillis}

variable {responseOperationId : OperationId} {operation : EndpointOperation} {start total : Nat}
  {operations : List EndpointOperation}

theorem rejectOffer_eq_true {reason : LeaseRejectionReason} :
    self.rejectOffer reason responseOperationId enqueuedAt = .ok (true, next) ↔
      self.orphan = none ∧ self.offerStatus = .recorded ∧
        validateDeliveryEnqueuedAt enqueuedAt = .ok () ∧
        next = { self with
          offerStatus := .rejected
          rejection := some (.new reason responseOperationId)
          rejectionEnqueuedAt := some enqueuedAt } := by
  simp only [rejectOffer, bind_eq_ok, rejectIf_eq_ok, exists_const, Option.not_isSome_iff_eq_none]
  refine and_congr_right fun _ => ?_
  cases self.offerStatus with
  | recorded => simp [eq_comm (a := next)]
  | accepted => simp
  | rejected =>
    simp only [reduceCtorEq, false_and, iff_false]
    split <;> simp

theorem acknowledgeOfferRejection_eq_true :
    self.acknowledgeOfferRejection responseOperationId = .ok (true, next) ↔
      self.offerStatus = .rejected ∧ ∃ rejection, self.rejection = some rejection ∧
          rejection.responseOperationId = responseOperationId ∧
          rejection.responseAcknowledged = false ∧
          next = { self with
            rejection := some rejection.acknowledgeResponse } := by
  simp only [acknowledgeOfferRejection, bind_eq_ok, okOr_eq_ok,
    rejectIf_eq_ok, exists_const, not_not]
  refine and_congr_right fun _ => exists_congr fun rejection =>
    and_congr_right fun _ => and_congr_right fun _ => ?_
  cases rejection.responseAcknowledged <;> simp [eq_comm (a := next)]

theorem renewLease_eq_true {expiresAt : UnixMillis} :
    self.renewLease expiresAt = .ok (true, next) ↔
      self.orphan = none ∧ self.offerStatus ≠ .rejected ∧
        self.expiresAt.get ≤ expiresAt.get ∧ expiresAt ≠ self.expiresAt ∧
        next = { self with expiresAt } := by
  simp only [renewLease, bind_eq_ok, rejectIf_eq_ok, exists_const, not_lt,
    Option.not_isSome_iff_eq_none]
  refine and_congr_right fun _ => and_congr_right fun _ => and_congr_right fun _ => ?_
  split <;> simp_all [eq_comm (a := next)]

theorem transitionLifecycle_eq_true {target : JobLifecycle} :
    self.transitionLifecycle target = .ok (true, next) ↔
      self.offerStatus = .accepted ∧ self.orphan = none ∧
        self.lifecycle ≠ target ∧ target.isTerminal = false ∧
        (target = .finalizing → self.endpointRecoveryPending = none) ∧
        self.lifecycle.hasEdge target = true ∧
        next = { self with lifecycle := target } := by
  simp only [transitionLifecycle, bind_eq_ok, rejectIf_eq_ok, exists_const, not_not,
    Option.not_isSome_iff_eq_none]
  refine and_congr_right fun _ => and_congr_right fun _ => ?_
  by_cases hsame : self.lifecycle = target
  · simp [hsame]
  · simp [hsame, JobLifecycle.validateTransition_eq_ok, eq_comm (a := next)]

theorem recordTerminalResult_eq_true {terminal : JobLifecycle} {result : TerminalResultRecord} :
    self.recordTerminalResult terminal result enqueuedAt = .ok (true, next) ↔
      self.offerStatus = .accepted ∧ self.orphan = none ∧
        result.validate = .ok () ∧ result.acknowledged = false ∧
        terminal.isTerminal = true ∧ self.endpointRecoveryPending = none ∧
        self.terminalResult = none ∧
        validateDeliveryEnqueuedAt enqueuedAt = .ok () ∧
        self.lifecycle.hasEdge terminal = true ∧
        next = { self with
          lifecycle := terminal
          terminalResult := some result
          terminalResultEnqueuedAt := some enqueuedAt } := by
  simp only [recordTerminalResult, bind_eq_ok, rejectIf_eq_ok, exists_const,
    exists_and_right, exists_eq_ok_unit, not_not, Bool.not_eq_true, Bool.not_eq_false,
    Option.isSome_eq_false_iff, Option.isNone_iff_eq_none]
  refine and_congr_right fun _ => and_congr_right fun _ =>
    and_congr_right fun _ => and_congr_right fun _ =>
    and_congr_right fun _ => and_congr_right fun _ => ?_
  cases self.terminalResult with
  | none => simp [JobLifecycle.validateTransition_eq_ok, eq_comm (a := next)]
  | some =>
    simp only [reduceCtorEq, false_and, iff_false]
    split <;> simp

theorem acknowledgeTerminalResult_eq_true :
    self.acknowledgeTerminalResult operationId = .ok (true, next) ↔
      ∃ result, self.terminalResult = some result ∧
        result.operationId = operationId ∧ result.acknowledged = false ∧
        next = { self with terminalResult := some result.acknowledge } := by
  simp only [acknowledgeTerminalResult, bind_eq_ok, okOr_eq_ok,
    rejectIf_eq_ok, exists_const, not_not]
  refine exists_congr fun result => and_congr_right fun _ => and_congr_right fun _ => ?_
  cases result.acknowledged <;> simp [eq_comm (a := next)]

theorem updateEndpointOperation_eq_ok
    {update : EndpointOperation → Except JournalInvariantError (Bool × EndpointOperation)}
    {changed : Bool} :
    self.updateEndpointOperation operationId update = .ok (changed, next) ↔ ∃ operation after,
        lookup EndpointOperation.operationId operationId self.endpointOperations = some operation ∧
          update operation = .ok (changed, after) ∧
          next = { self with
            endpointOperations :=
              replace EndpointOperation.operationId after self.endpointOperations } := by
  simp only [updateEndpointOperation, bind_eq_ok, okOr_eq_ok, pure_eq_ok,
    Prod.exists, Prod.mk.injEq]
  constructor
  · rintro ⟨operation, hfound, reported, after, hupdate, rfl, rfl⟩
    exact ⟨operation, after, hfound, hupdate, rfl⟩
  · rintro ⟨operation, after, hfound, hupdate, rfl⟩
    exact ⟨operation, hfound, changed, after, hupdate, rfl, rfl⟩

theorem terminalize_eq (self : SlotSnapshot) :
    ∃ lifecycle, self.terminalizeOrphanAfterEndpointResolution = { self with lifecycle } := by
  unfold terminalizeOrphanAfterEndpointResolution
  split
  · exact ⟨.lost, rfl⟩
  · exact ⟨self.lifecycle, rfl⟩

/-- An endpoint operation is rewritten, and an orphaned job may close. -/
def EndpointUpdate (self : SlotSnapshot) (operationId : OperationId)
    (update : EndpointOperation → Except JournalInvariantError (Bool × EndpointOperation))
    (next : SlotSnapshot) : Prop :=
  ∃ operation after, lookup EndpointOperation.operationId operationId
        self.endpointOperations = some operation ∧
      update operation = .ok (true, after) ∧
      next = { self with
        endpointOperations := replace EndpointOperation.operationId after self.endpointOperations }

theorem commitEndpointInvocation_eq_true :
    self.commitEndpointInvocation operationId = .ok (true, next) ↔
      self.EndpointUpdate operationId EndpointOperation.commitInvocation
        next :=
  updateEndpointOperation_eq_ok

theorem recordEndpointResult_eq_true {result : EndpointResultContentRef} :
    self.recordEndpointResult operationId result = .ok (true, next) ↔
      self.EndpointUpdate operationId (fun operation => operation.recordResult result) next :=
  updateEndpointOperation_eq_ok

theorem recordEndpointCancellation_eq_true :
    self.recordEndpointCancellation operationId = .ok (true, next) ↔ ∃ updated,
        self.EndpointUpdate operationId
            (fun operation => .ok operation.requestCancellation) updated ∧
          next = updated.terminalizeOrphanAfterEndpointResolution := by
  simp only [recordEndpointCancellation, bind_eq_ok, Prod.exists, pure_eq_ok, Prod.mk.injEq,
    EndpointUpdate, ← updateEndpointOperation_eq_ok]
  exact exists_changed

theorem completeEndpointCancellation_eq_true :
    self.completeEndpointCancellation operationId = .ok (true, next) ↔ self.sandbox = none ∧
        ∃ updated, self.EndpointUpdate operationId EndpointOperation.completeCancellation updated ∧
            next = updated.terminalizeOrphanAfterEndpointResolution := by
  simp only [completeEndpointCancellation, bind_eq_ok, rejectIf_eq_ok, exists_const, Prod.exists,
    pure_eq_ok, Prod.mk.injEq, EndpointUpdate, ← updateEndpointOperation_eq_ok,
    Option.not_isSome_iff_eq_none]
  exact and_congr_right fun _ => exists_changed

theorem abandonEndpointOperation_eq_true :
    self.abandonEndpointOperation operationId = .ok (true, next) ↔ self.sandbox = none ∧ ∃ updated,
          self.EndpointUpdate operationId EndpointOperation.abandon updated ∧
            next = updated.terminalizeOrphanAfterEndpointResolution := by
  simp only [abandonEndpointOperation, bind_eq_ok, rejectIf_eq_ok, exists_const, Prod.exists,
    pure_eq_ok, Prod.mk.injEq, EndpointUpdate, ← updateEndpointOperation_eq_ok,
    Option.not_isSome_iff_eq_none]
  exact and_congr_right fun _ => exists_changed

/-- One more weight of a sum which is bounded at every step. -/
theorem bounded_sum_cons {rest : List EndpointOperation} {weight : EndpointOperation → Nat} :
    (start + weight operation < 2 ^ 64 ∧ total = start + weight operation + (rest.map weight).sum ∧
          (rest ≠ [] → total < 2 ^ 64)) ↔
      total = start + (weight operation + (rest.map weight).sum) ∧
        (operation :: rest ≠ [] → total < 2 ^ 64) := by
  constructor
  · rintro ⟨hstart, rfl, hrest⟩
    refine ⟨by omega, fun _ => ?_⟩
    by_cases hempty : rest = []
    · simpa [hempty] using hstart
    · exact hrest hempty
  · rintro ⟨rfl, hbound⟩
    have htotal := hbound (by simp)
    exact ⟨by omega, by omega, fun _ => htotal⟩

theorem sumContentRefs_eq_ok :
    sumContentRefs start operations = .ok total ↔ total = start +
          (operations.map EndpointOperation.accountedContentRefs).sum ∧
        (operations ≠ [] → total < 2 ^ 64) := by
  induction operations generalizing start with
  | nil => simp [sumContentRefs, eq_comm]
  | cons operation rest ih =>
    simp only [sumContentRefs, bind_eq_ok, rejectIf_eq_ok, exists_const,
      not_le, ih, List.map_cons, List.sum_cons]
    exact bounded_sum_cons

theorem sumContentBytes_eq_ok (hvalid : ∀ operation ∈ operations, operation.Valid) :
    sumContentBytes start operations = .ok total ↔
      total = start + (operations.map EndpointOperation.contentBytes).sum ∧
        (operations ≠ [] → total < 2 ^ 64) := by
  induction operations generalizing start with
  | nil => simp [sumContentBytes, eq_comm]
  | cons operation rest ih =>
    rw [List.forall_mem_cons] at hvalid
    simp only [sumContentBytes, hvalid.1.accountedContentBytes_eq, ok_bind, bind_eq_ok,
      rejectIf_eq_ok, exists_const, not_le, ih hvalid.2, List.map_cons, List.sum_cons]
    exact bounded_sum_cons

theorem acceptEndpointOperation_eq_true :
    self.acceptEndpointOperation operation = .ok (true, next) ↔
      self.offerStatus = .accepted ∧ self.lifecycle.isTerminal = false ∧
        self.orphan = none ∧ operation.Valid ∧
        operation.state = .accepted ∧
        lookup EndpointOperation.operationId operation.operationId self.endpointOperations = none ∧
        self.cancellation = none ∧ self.endpointRecoveryPending = none ∧
        self.checkEndpointLimits operation = .ok () ∧
        next = { self with
          endpointOperations := self.endpointOperations ++ [operation] } := by
  simp only [acceptEndpointOperation, bind_eq_ok, rejectIf_eq_ok, EndpointOperation.validate_eq_ok,
    exists_const, not_not, Bool.not_eq_true, Option.isSome_eq_false_iff, Option.isNone_iff_eq_none]
  refine and_congr_right fun _ => and_congr_right fun _ =>
    and_congr_right fun _ => and_congr_right fun _ =>
    and_congr_right fun _ => ?_
  cases lookup EndpointOperation.operationId operation.operationId self.endpointOperations with
  | none =>
    simp only [bind_eq_ok, rejectIf_eq_ok, exists_const, exists_and_right, exists_eq_ok_unit,
      pure_eq_ok, Prod.mk.injEq, true_and, Option.not_isSome_iff_eq_none, eq_comm (a := next)]
  | some existing =>
    simp only [reduceCtorEq, false_and, iff_false]
    split <;> simp

theorem compactWindow_eq_ok {checkpoint compacted : ProviderRecoveryState}
    {operations window : List ProviderOperation} :
    compactWindow checkpoint operations = .ok (compacted, window) ↔
      (operations.length < maxProviderOperationsPerSlot ∧
          compacted = checkpoint ∧ window = operations) ∨
        (maxProviderOperationsPerSlot ≤ operations.length ∧
          ∃ oldest, operations = oldest :: window ∧ checkpoint.compact oldest = .ok compacted) := by
  have hpositive : 0 < maxProviderOperationsPerSlot := by decide
  unfold compactWindow
  split
  · rename_i hfull
    cases operations with
    | nil => simp at hfull; omega
    | cons oldest =>
      simp only [bind_eq_ok, pure_eq_ok, Prod.mk.injEq]
      constructor
      · rintro ⟨state, hcompact, rfl, rfl⟩
        exact .inr ⟨hfull, oldest, rfl, hcompact⟩
      · rintro (⟨hroom, -, -⟩ | ⟨-, first, hfirst, hcompact⟩)
        · omega
        · cases hfirst
          exact ⟨compacted, hcompact, rfl, rfl⟩
  · rename_i hroom
    simp only [Except.ok.injEq, Prod.mk.injEq]
    constructor
    · rintro ⟨rfl, rfl⟩
      exact .inl ⟨not_le.mp hroom, rfl, rfl⟩
    · rintro (⟨-, rfl, rfl⟩ | ⟨hfull, -⟩)
      · exact ⟨rfl, rfl⟩
      · exact absurd hfull hroom

theorem recordProviderIntent_eq_true {intent : ProviderOperation} :
    self.recordProviderIntent intent = .ok (true, next) ↔ self.offerStatus = .accepted ∧
        (self.lifecycle.isTerminal = true → self.orphan = none → intent.kind = .destroySandbox) ∧
        (self.orphan.isSome = true → intent.kind ≠ .stopSandbox → intent.kind = .destroySandbox) ∧
        intent.outcome = .pending ∧
        lookup ProviderOperation.operationId intent.operationId self.providerOperations = none ∧
        (∀ operation ∈ self.providerOperations.getLast?, operation.isPending = false) ∧
        ∃ checkpoint window recovery,
          compactWindow self.providerCheckpoint self.providerOperations = .ok (checkpoint, window) ∧
            ProviderWindow window ∧
            checkpoint.applyAll window = .ok recovery ∧
            self.lifecycleAllows intent.kind = true ∧
            recovery.canBegin intent.kind = true ∧
            next = { self with
              providerCheckpoint := checkpoint
              providerOperations := window ++ [intent] } := by
  simp only [recordProviderIntent, bind_eq_ok, rejectIf_eq_ok, exists_const, not_and, not_not]
  refine and_congr_right fun _ => and_congr_right fun _ =>
    and_congr_right fun _ => and_congr_right fun _ => ?_
  cases lookup ProviderOperation.operationId intent.operationId self.providerOperations with
  | some existing =>
    simp only [reduceCtorEq, false_and, iff_false]
    split <;> simp
  | none =>
    simp only [bind_eq_ok, rejectIf_eq_ok, exists_const, true_and, not_exists, not_and,
      Bool.not_eq_true, Prod.exists, pure_eq_ok, replayProviderOperations_eq_ok, Prod.mk.injEq,
      Decidable.not_imp_iff_and_not, Bool.not_eq_false, eq_comm (a := next), and_assoc]
    refine and_congr_right fun _ => exists_congr fun checkpoint => exists_congr fun window => ?_
    constructor
    · rintro ⟨hcompact, recovery, hrest⟩
      exact ⟨recovery, hcompact, hrest⟩
    · rintro ⟨recovery, hcompact, hrest⟩
      exact ⟨hcompact, recovery, hrest⟩

theorem getLast_withLastProviderOperation (slot : SlotSnapshot) (operation : ProviderOperation) :
    (slot.withLastProviderOperation operation ).providerOperations.getLast? = some operation := by
  rw [withLastProviderOperation, List.getLast?_concat]

theorem recordSandboxCreated_eq_true {sandbox : SandboxIdentity} :
    self.recordSandboxCreated operationId sandbox = .ok (true, next) ↔
      ∃ operation, self.providerOperations.getLast? = some operation ∧
        operation.operationId = operationId ∧
        operation.kind = .createSandbox ∧ operation.isPending = true ∧
        self.sandbox = none ∧
        next = { self.withLastProviderOperation { operation with outcome := .applied } with
          sandbox := some sandbox } := by
  simp only [recordSandboxCreated, bind_eq_ok, okOr_eq_ok, rejectIf_eq_ok,
    exists_const, not_or, not_not, and_assoc]
  refine exists_congr fun operation => and_congr_right fun _ =>
    and_congr_right fun _ => and_congr_right fun _ => ?_
  by_cases happlied : operation.outcome = .applied
  · have hresolved : operation.isPending = false := by
      simp [ProviderOperation.isPending, happlied, ProviderOperationOutcome.isPending]
    simp only [happlied, if_true, hresolved, Bool.false_eq_true, false_and, iff_false]
    split <;> simp
  · simp only [if_neg happlied, bind_eq_ok, rejectIf_eq_ok, exists_const, Prod.exists,
      ProviderOperation.markApplied_eq_ok, pure_eq_ok, Prod.mk.injEq, Option.not_isSome_iff_eq_none]
    constructor
    · rintro ⟨hsandbox, changed, after, hmark, rfl, rfl⟩
      rcases hmark with ⟨-, hpending, rfl⟩ | ⟨hfalse, -⟩
      · exact ⟨hpending, hsandbox, rfl⟩
      · simp at hfalse
    · rintro ⟨hpending, hsandbox, rfl⟩
      exact ⟨hsandbox, true, _, .inl ⟨rfl, hpending, rfl⟩, rfl, rfl⟩

theorem completeProviderOperation_eq_true :
    self.completeProviderOperation operationId = .ok (true, next) ↔
      ∃ operation, self.providerOperations.getLast? = some operation ∧
        operation.operationId = operationId ∧
        operation.kind ≠ .createSandbox ∧ operation.isPending = true ∧
        next = { self.withLastProviderOperation { operation with outcome := .applied } with
          sandbox :=
            if operation.kind = .destroySandbox then none
            else self.sandbox } := by
  simp only [completeProviderOperation, bind_eq_ok, okOr_eq_ok, rejectIf_eq_ok, exists_const,
    not_not, Prod.exists, ProviderOperation.markApplied_eq_ok, pure_eq_ok, Prod.mk.injEq]
  refine exists_congr fun operation => and_congr_right fun _ =>
    and_congr_right fun _ => and_congr_right fun _ => ?_
  constructor
  · rintro ⟨changed, after, hmark, rfl, rfl⟩
    rcases hmark with ⟨-, hpending, rfl⟩ | ⟨hfalse, -⟩
    · exact ⟨hpending, by simp⟩
    · simp at hfalse
  · rintro ⟨hpending, rfl⟩
    exact ⟨true, _, .inl ⟨rfl, hpending, rfl⟩, rfl, by simp⟩

theorem failProviderOperation_eq_true {failure : ProviderFailureOutcome} :
    self.failProviderOperation operationId failure = .ok (true, next) ↔
      ∃ operation, self.providerOperations.getLast? = some operation ∧
        operation.operationId = operationId ∧
        operation.isPending = true ∧
        operation.outcome ≠ .failed failure ∧
        (operation.outcome = .pending ∨ failure.isUncertain = false) ∧
        next = self.withLastProviderOperation { operation with outcome := .failed failure } := by
  simp only [failProviderOperation, bind_eq_ok, okOr_eq_ok, rejectIf_eq_ok, exists_const, not_not,
    Prod.exists, ProviderOperation.resolveFailure_eq_ok, pure_eq_ok, Prod.mk.injEq]
  refine exists_congr fun operation => and_congr_right fun _ => and_congr_right fun _ => ?_
  constructor
  · rintro ⟨changed, after, hresolve, rfl, rfl⟩
    rcases hresolve with ⟨-, hpending, hnew, hallowed, rfl⟩ | ⟨hfalse, -⟩
    · exact ⟨hpending, hnew, hallowed, rfl⟩
    · simp at hfalse
  · rintro ⟨hpending, hnew, hallowed, rfl⟩
    exact ⟨true, _, .inl ⟨rfl, hpending, hnew, hallowed, rfl⟩, rfl, rfl⟩

theorem advanceOutboundOperation_eq_true {sequence : OutboundOperationSequence} :
    self.advanceOutboundOperation sequence = .ok (true, next) ↔
      self.outboundOperations.contiguousThrough ≠ some sequence ∧
        ∃ cursor, self.outboundOperations.advance sequence = .ok cursor ∧
          next = { self with outboundOperations := cursor } := by
  unfold advanceOutboundOperation
  split
  · rename_i hsame
    simp [hsame]
  · rename_i hnew
    simp only [bind_eq_ok, pure_eq_ok, Prod.mk.injEq, true_and, ne_eq, hnew,
      not_false_eq_true, eq_comm (a := next)]

variable {streamId : LogStreamId}

theorem openLogStream_eq_true :
    self.openLogStream streamId = .ok (true, next) ↔
      self.offerStatus = .accepted ∧ self.orphan = none ∧ self.logDelivery = none ∧
        next = { self with logDelivery := some (.new streamId) } := by
  simp only [openLogStream, bind_eq_ok, rejectIf_eq_ok, exists_const, not_not,
    Option.not_isSome_iff_eq_none]
  refine and_congr_right fun _ => and_congr_right fun _ => ?_
  cases self.logDelivery with
  | none => simp [eq_comm (a := next)]
  | some =>
    simp only [reduceCtorEq, false_and, iff_false]
    split <;> simp

theorem requireLogStream_eq_ok {log : LogDeliveryCursor} :
    self.requireLogStream streamId = .ok log ↔
      self.logDelivery = some log ∧ log.streamId = streamId := by
  simp only [requireLogStream, bind_eq_ok, okOr_eq_ok, rejectIf_eq_ok,
    exists_const, pure_eq_ok, not_not]
  constructor
  · rintro ⟨found, hfound, hstream, rfl⟩
    exact ⟨hfound, hstream⟩
  · rintro ⟨hfound, hstream⟩
    exact ⟨log, hfound, hstream, rfl⟩

theorem recordLogSegment_eq_true {publication : LogSegmentPublication} :
    self.recordLogSegment publication enqueuedAt = .ok (true, next) ↔ self.orphan = none ∧
        ∃ log after accepted, self.logDelivery = some log ∧ log.streamId = publication.streamId ∧
          log.producedThrough ≠ some publication.segment.lastSequence ∧
          exec (LogDeliveryCursor.recordSegment publication enqueuedAt) log =
            (.ok accepted, after) ∧
          next = { self with logDelivery := some after } := by
  simp only [recordLogSegment, bind_eq_ok, rejectIf_eq_ok, exists_const, requireLogStream_eq_ok,
    Option.not_isSome_iff_eq_none]
  refine and_congr_right fun _ => exists_congr fun log => ?_
  by_cases hproduced :
      log.producedThrough = some publication.segment.lastSequence
  · simp only [hproduced, if_true, ne_eq, not_true_eq_false, false_and,
      and_false, exists_false, iff_false, not_and]
    intro _
    split <;> simp
  · simp only [if_neg hproduced, bind_eq_ok, Prod.exists,
      onCandidate_eq_ok, pure_eq_ok, Prod.mk.injEq, true_and]
    constructor
    · rintro ⟨⟨hlog, hstream⟩, accepted, after, hrecord, rfl⟩
      exact ⟨after, accepted, hlog, hstream, hproduced, hrecord, rfl⟩
    · rintro ⟨after, accepted, hlog, hstream, -, hrecord, rfl⟩
      exact ⟨⟨hlog, hstream⟩, accepted, after, hrecord, rfl⟩

theorem withLogStream_eq_true {action : FallibleM LogDeliveryCursor JournalInvariantError Bool} :
    (do
      let log ← self.requireLogStream streamId
      let (changed, next) ← onCandidate action log
      return (changed, { self with logDelivery := some next }) : SlotResult) = .ok (true, next) ↔
      ∃ log after, self.logDelivery = some log ∧ log.streamId = streamId ∧
        exec action log = (.ok true, after) ∧
        next = { self with logDelivery := some after } := by
  simp only [bind_eq_ok, requireLogStream_eq_ok,
    Prod.exists, onCandidate_eq_ok, pure_eq_ok, Prod.mk.injEq]
  constructor
  · rintro ⟨log, ⟨hlog, hstream⟩, changed, after, haction, rfl, rfl⟩
    exact ⟨log, after, hlog, hstream, haction, rfl⟩
  · rintro ⟨log, after, hlog, hstream, haction, rfl⟩
    exact ⟨log, ⟨hlog, hstream⟩, true, after, haction, rfl, rfl⟩

theorem sealLogSegment_eq_true {expectedContent : DurableContentRef} :
    self.sealLogSegment streamId expectedContent = .ok (true, next) ↔
      ∃ log after, self.logDelivery = some log ∧ log.streamId = streamId ∧
        exec (LogDeliveryCursor.sealSegment expectedContent) log = (.ok true, after) ∧
        next = { self with logDelivery := some after } :=
  withLogStream_eq_true

theorem acknowledgeLogSegment_eq_true {acknowledgement : LogSegmentAcknowledgement} :
    self.acknowledgeLogSegment acknowledgement = .ok (true, next) ↔
      ∃ log after, self.logDelivery = some log ∧ log.streamId = acknowledgement.streamId ∧
        exec (LogDeliveryCursor.acknowledgeSegment acknowledgement) log = (.ok true, after) ∧
        next = { self with logDelivery := some after } :=
  withLogStream_eq_true

theorem abandonOrphanDelivery_eq_true {authorityOperationId : OperationId}
    {delivery : OrphanDelivery} {reason : OrphanAbandonmentReason} :
    self.abandonOrphanDelivery authorityOperationId delivery reason = .ok (true, next) ↔
      self.hasDelivery delivery = true ∧ ∃ orphan after, self.orphan = some orphan ∧
          orphan.abandon authorityOperationId delivery reason = .ok (true, after) ∧
          next = { self with orphan := some after } := by
  simp only [abandonOrphanDelivery, bind_eq_ok, okOr_eq_ok, rejectIf_eq_ok, exists_const,
    Prod.exists, pure_eq_ok, Prod.mk.injEq, Bool.not_eq_false]
  refine and_congr_right fun _ => exists_congr fun orphan => ?_
  constructor
  · rintro ⟨horphan, changed, after, habandon, rfl, rfl⟩
    exact ⟨after, horphan, habandon, rfl⟩
  · rintro ⟨after, horphan, habandon, rfl⟩
    exact ⟨horphan, true, after, habandon, rfl, rfl⟩

theorem authorizeOrphan_eq_true {grant : OrphanAuthorityGrant} :
    self.authorizeOrphan grant = .ok (true, next) ↔ self.orphan = none ∧
        next = { self with
          orphan := some (.fromGrant grant)
          lifecycle :=
            if self.lifecycle.isTerminal = false ∧ self.endpointRecoveryPending = none then .lost
            else self.lifecycle } := by
  unfold authorizeOrphan
  cases self.orphan with
  | none => simp [eq_comm (a := next)]
  | some =>
    simp only [reduceCtorEq, false_and, iff_false]
    split <;> simp

theorem applyCancellation_eq_ok {cancellation : CancellationRecord} :
    self.applyCancellation cancellation = .ok next ↔ (self.lifecycle = .cancelling ∨
          self.lifecycle.hasEdge .cancelling = true) ∧
        next = { self with
          cancellation := some cancellation
          lifecycle := .cancelling
          endpointOperations := self.cancelPendingEndpointOperation } := by
  simp only [applyCancellation, validateCancelling, bind_eq_ok, pure_eq_ok,
    exists_and_right, eq_comm (a := next)]
  refine and_congr_left fun _ => ?_
  split
  · rename_i hcancelling
    simp [hcancelling]
  · rename_i hother
    simp [hother, JobLifecycle.validateTransition_eq_ok]

end SlotSnapshot

end AutomataCi
