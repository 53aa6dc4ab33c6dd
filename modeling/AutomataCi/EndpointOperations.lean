import AutomataCi.DurableContent

/-!
# Endpoint operations

The linearization record of one execution-endpoint operation and its phase
transitions, as in the journal's `model/endpoint.rs`.
-/

namespace AutomataCi

open GuardedResult

def maxLogicalSteps : Nat :=
  2048

def endpointOperationsPerRunStep : Nat :=
  15

def endpointJobSetupOperations : Nat :=
  2

def maxEndpointOperationsPerJob : Nat :=
  maxLogicalSteps * endpointOperationsPerRunStep + endpointJobSetupOperations

def maxEndpointContentRefsPerSlot : Nat :=
  maxEndpointOperationsPerJob * 2

def maxEndpointContentBytesPerSlot : Nat :=
  endpointRequestCommitmentBytes * maxEndpointOperationsPerJob +
    minEndpointResultAllocationBytes * (maxEndpointOperationsPerJob - 1) +
    maxEndpointResultAllocationBytes

inductive EndpointOperationKind where
  | exec | signal | wait | copyTo | copyFrom
  deriving DecidableEq, Repr

inductive EndpointOperationState where
  | accepted
  | invocationCommitted
  | cancellationRequested
  | cancelled
  | abandoned
  | completed (result : EndpointResultContentRef)
  deriving DecidableEq

structure EndpointOperation where
  operationId : OperationId
  kind : EndpointOperationKind
  request : EndpointRequestContentRef
  reservedResultBytes : Nat
  state : EndpointOperationState
  deriving DecidableEq

namespace EndpointOperationState

def isPending : EndpointOperationState → Bool
  | accepted | invocationCommitted | cancellationRequested => true
  | cancelled | abandoned | completed _ => false

end EndpointOperationState

namespace EndpointOperation

variable (operation : EndpointOperation)

def isRecoveryPending : Bool :=
  operation.state.isPending

/-- The bytes charged for the result of an operation: its reservation while
it is pending, its exact allocation once it completed. -/
def resultBytes : Except JournalInvariantError Nat :=
  match operation.state with
  | .accepted | .invocationCommitted | .cancellationRequested =>
    okOr (endpointResultAllocation operation.reservedResultBytes) .invalidEndpointResultReservation
  | .completed result =>
    okOr result.content.endpointResultAllocationBytes .invalidEndpointResultContent
  | .cancelled | .abandoned => .ok 0

def accountedContentBytes : Except JournalInvariantError Nat := do
  let resultBytes ← operation.resultBytes
  rejectIf (2 ^ 64 ≤ endpointRequestCommitmentBytes + resultBytes) .decodedStateInvalid
  return endpointRequestCommitmentBytes + resultBytes

def accountedContentRefs : Nat :=
  match operation.state with
  | .accepted | .invocationCommitted | .cancellationRequested
  | .completed _ => 2
  | .cancelled | .abandoned => 1

def matchesAcceptance (operation candidate : EndpointOperation) : Bool :=
  operation.operationId = candidate.operationId && operation.kind = candidate.kind &&
    operation.request = candidate.request &&
    operation.reservedResultBytes = candidate.reservedResultBytes

def commitInvocation : Except JournalInvariantError (Bool × EndpointOperation) :=
  match operation.state with
  | .accepted => .ok (true, { operation with state := .invocationCommitted })
  | .invocationCommitted => .ok (false, operation)
  | .cancellationRequested | .cancelled => .error .endpointOperationCancelled
  | .abandoned | .completed _ => .error .endpointOperationResolved

def requestCancellation : Bool × EndpointOperation :=
  match operation.state with
  | .accepted => (true, { operation with state := .cancelled })
  | .invocationCommitted => (true, { operation with state := .cancellationRequested })
  | .cancellationRequested | .cancelled | .abandoned | .completed _ => (false, operation)

def completeCancellation : Except JournalInvariantError (Bool × EndpointOperation) :=
  match operation.state with
  | .cancellationRequested => .ok (true, { operation with state := .cancelled })
  | .cancelled => .ok (false, operation)
  | _ => .error .endpointCancellationNotRequested

def abandon : Except JournalInvariantError (Bool × EndpointOperation) :=
  match operation.state with
  | .invocationCommitted | .cancellationRequested =>
    .ok (true, { operation with state := .abandoned })
  | .abandoned => .ok (false, operation)
  | _ => .error .endpointOperationNotAbandonable

def checkResult (result : EndpointResultContentRef) : Except JournalInvariantError Unit := do
  result.validate
  let reservedAllocation ← okOr (endpointResultAllocation operation.reservedResultBytes)
      .invalidEndpointResultReservation
  rejectIf (reservedAllocation < result.content.accountedBytes) .endpointResultExceedsReservation

def recordResult (result : EndpointResultContentRef) :
    Except JournalInvariantError (Bool × EndpointOperation) := do
  operation.checkResult result
  match operation.state with
  | .invocationCommitted => .ok (true, { operation with state := .completed result })
  | .completed existing =>
    if existing = result then .ok (false, operation)
    else .error .endpointResultReplayConflict
  | .cancellationRequested | .cancelled | .abandoned => .error .endpointOperationCancelled
  | .accepted => .error .endpointInvocationNotCommitted

def validateState : Except JournalInvariantError Unit :=
  match operation.state with
  | .completed result => do
      result.validate
      let reservedAllocation ← okOr (endpointResultAllocation operation.reservedResultBytes)
          .decodedStateInvalid
      rejectIf (reservedAllocation < result.content.accountedBytes) .decodedStateInvalid
  | _ => .ok ()

def validate : Except JournalInvariantError Unit := do
  operation.request.validate
  rejectIf (operation.reservedResultBytes = 0 ∨
      maxEndpointResultContentBytes < operation.reservedResultBytes)
    .decodedStateInvalid
  operation.validateState
  let bytes ← operation.accountedContentBytes
  rejectIf (bytes < endpointRequestCommitmentBytes) .decodedStateInvalid

/-- What `validate` checks. -/
structure Valid (operation : EndpointOperation) : Prop where
  request : operation.request.validate = .ok ()
  reservation :
    0 < operation.reservedResultBytes ∧
      operation.reservedResultBytes ≤ maxEndpointResultContentBytes
  result :
    ∀ result, operation.state = .completed result → result.validate = .ok () ∧
        result.content.accountedBytes ≤ endpointResultAllocationOrZero operation.reservedResultBytes

def resultCharge : Nat :=
  match operation.state with
  | .accepted | .invocationCommitted | .cancellationRequested =>
    endpointResultAllocationOrZero operation.reservedResultBytes
  | .completed result => result.content.accountedBytes
  | .cancelled | .abandoned => 0

def contentBytes : Nat :=
  endpointRequestCommitmentBytes + operation.resultCharge

end EndpointOperation

theorem endpointResultAllocation_of_le {plaintextBytes : Nat}
    (hbound : plaintextBytes ≤ maxEndpointResultContentBytes) :
    endpointResultAllocation plaintextBytes =
      some (endpointResultAllocationOrZero plaintextBytes) := by
  have hobject : ¬maxContentObjectBytes < plaintextBytes :=
    Nat.not_lt.mpr (hbound.trans (by decide))
  rw [endpointResultAllocationOrZero, endpointResultAllocation, if_neg hobject, Option.getD_some]

theorem endpointResultAllocationOrZero_mono {small large : Nat}
    (hle : small ≤ large) (hbound : large ≤ maxContentObjectBytes) :
    endpointResultAllocationOrZero small ≤ endpointResultAllocationOrZero large := by
  have hsmall : ¬maxContentObjectBytes < small := Nat.not_lt.mpr (hle.trans hbound)
  have hlarge : ¬maxContentObjectBytes < large := Nat.not_lt.mpr hbound
  rw [endpointResultAllocationOrZero, endpointResultAllocationOrZero, endpointResultAllocation,
    endpointResultAllocation, if_neg hsmall, if_neg hlarge, Option.getD_some, Option.getD_some]
  exact Nat.mul_le_mul_right _ (Nat.div_le_div_right
    (Nat.add_le_add_right (Nat.add_le_add_right hle _) _))

theorem EndpointResultContentRef.validate_eq_ok {value : EndpointResultContentRef} {result : Unit} :
    value.validate = .ok result ↔ value.content.kind = .endpointResult ∧
        value.content.endpointResultAllocationBytes = some value.content.accountedBytes ∧
        minEndpointResultAllocationBytes ≤ value.content.accountedBytes ∧
        value.content.accountedBytes ≤ maxEndpointResultAllocationBytes := by
  simp only [EndpointResultContentRef.validate, rejectIf_eq_ok, not_or, not_not]
  constructor
  · rintro ⟨hkind, bytes, hbytes, hmin, hmax⟩
    have heq := DurableContentRef.accountedBytes_of_endpointResultAllocationBytes hbytes
    subst heq
    exact ⟨hkind, hbytes, hmin, hmax⟩
  · rintro ⟨hkind, hbytes, hmin, hmax⟩
    exact ⟨hkind, _, hbytes, hmin, hmax⟩

namespace EndpointOperation

variable {operation next : EndpointOperation}

theorem validateState_eq_ok {result : Unit}
    (hbound : operation.reservedResultBytes ≤ maxEndpointResultContentBytes) :
    operation.validateState = .ok result ↔ ∀ content, operation.state = .completed content →
        content.validate = .ok () ∧ content.content.accountedBytes ≤
            endpointResultAllocationOrZero operation.reservedResultBytes := by
  unfold validateState
  cases operation.state <;> simp [endpointResultAllocation_of_le hbound, okOr]

theorem Valid.resultCharge_le (hvalid : operation.Valid) :
    operation.resultCharge ≤ endpointResultAllocationOrZero operation.reservedResultBytes := by
  have hresult := hvalid.result
  unfold resultCharge
  cases hstate : operation.state with
  | completed content => exact (hresult content hstate).2
  | accepted => exact le_rfl
  | invocationCommitted => exact le_rfl
  | cancellationRequested => exact le_rfl
  | cancelled => exact Nat.zero_le _
  | abandoned => exact Nat.zero_le _

theorem Valid.resultBytes_eq (hvalid : operation.Valid) :
    operation.resultBytes = .ok operation.resultCharge := by
  have hallocation := endpointResultAllocation_of_le hvalid.reservation.2
  have hresult := hvalid.result
  unfold resultBytes resultCharge
  cases hstate : operation.state with
  | completed content =>
    have hcontent := EndpointResultContentRef.validate_eq_ok.mp (hresult content hstate).1
    simp [hcontent.2.1]
  | accepted => simp [hallocation]
  | invocationCommitted => simp [hallocation]
  | cancellationRequested => simp [hallocation]
  | cancelled => rfl
  | abandoned => rfl

theorem Valid.accountedContentBytes_eq (hvalid : operation.Valid) :
    operation.accountedContentBytes = .ok operation.contentBytes := by
  have hmax : operation.resultCharge ≤ maxEndpointResultAllocationBytes :=
    hvalid.resultCharge_le.trans
      (endpointResultAllocationOrZero_mono hvalid.reservation.2 (by decide))
  have hfits : endpointRequestCommitmentBytes +
      maxEndpointResultAllocationBytes < 2 ^ 64 := by decide
  have hbound : ¬2 ^ 64 ≤ endpointRequestCommitmentBytes + operation.resultCharge := by omega
  simp only [accountedContentBytes, hvalid.resultBytes_eq, ok_bind,
    rejectIf_of_not _ hbound, contentBytes]
  rfl

theorem validate_eq_ok {result : Unit} : operation.validate = .ok result ↔ operation.Valid := by
  simp only [validate, bind_eq_ok, rejectIf_eq_ok, exists_const,
    exists_and_right, exists_eq_ok_unit, not_or, not_lt]
  constructor
  · rintro ⟨hrequest, ⟨hpositive, hbound⟩, hstate, _⟩
    exact ⟨hrequest, ⟨Nat.pos_of_ne_zero hpositive, hbound⟩, (validateState_eq_ok hbound).mp hstate⟩
  · intro hvalid
    refine ⟨hvalid.request, ⟨hvalid.reservation.1.ne', hvalid.reservation.2⟩,
      (validateState_eq_ok hvalid.reservation.2).mpr hvalid.result,
      operation.contentBytes, hvalid.accountedContentBytes_eq, ?_⟩
    exact Nat.le_add_right _ _

inductive PhaseStep :
    EndpointOperationState → EndpointOperationState → Prop where
  | commit : PhaseStep .accepted .invocationCommitted
  | complete (result : EndpointResultContentRef) :
      PhaseStep .invocationCommitted (.completed result)
  | cancelAccepted : PhaseStep .accepted .cancelled
  | requestCancel : PhaseStep .invocationCommitted .cancellationRequested
  | finishCancel : PhaseStep .cancellationRequested .cancelled
  | abandonCommitted : PhaseStep .invocationCommitted .abandoned
  | abandonRequested : PhaseStep .cancellationRequested .abandoned

/-- A later version of the same operation, one phase further. -/
def Advances (operation next : EndpointOperation) : Prop :=
  next = { operation with state := next.state } ∧ PhaseStep operation.state next.state

variable {changed : Bool}

theorem commitInvocation_eq_ok :
    operation.commitInvocation = .ok (changed, next) ↔
      changed = true ∧ operation.state = .accepted ∧
          next = { operation with state := .invocationCommitted } ∨
        changed = false ∧ operation.state = .invocationCommitted ∧
          next = operation := by
  unfold commitInvocation
  cases operation.state <;> simp [eq_comm]

theorem requestCancellation_eq :
    operation.requestCancellation = (changed, next) ↔ changed = true ∧ operation.state = .accepted ∧
          next = { operation with state := .cancelled } ∨
        changed = true ∧ operation.state = .invocationCommitted ∧
          next = { operation with state := .cancellationRequested } ∨
        changed = false ∧ operation.state ≠ .accepted ∧
          operation.state ≠ .invocationCommitted ∧ next = operation := by
  unfold requestCancellation
  cases operation.state <;> simp [eq_comm]

theorem completeCancellation_eq_ok :
    operation.completeCancellation = .ok (changed, next) ↔
      changed = true ∧ operation.state = .cancellationRequested ∧
          next = { operation with state := .cancelled } ∨
        changed = false ∧ operation.state = .cancelled ∧
          next = operation := by
  unfold completeCancellation
  cases operation.state <;> simp [eq_comm]

theorem abandon_eq_ok :
    operation.abandon = .ok (changed, next) ↔ changed = true ∧
          (operation.state = .invocationCommitted ∨ operation.state = .cancellationRequested) ∧
          next = { operation with state := .abandoned } ∨
        changed = false ∧ operation.state = .abandoned ∧
          next = operation := by
  unfold abandon
  cases operation.state <;> simp [eq_comm]

theorem recordResult_eq_ok {result : EndpointResultContentRef} :
    operation.recordResult result = .ok (changed, next) ↔ operation.checkResult result = .ok () ∧
        (changed = true ∧ operation.state = .invocationCommitted ∧
            next = { operation with state := .completed result } ∨
          changed = false ∧ operation.state = .completed result ∧
            next = operation) := by
  unfold recordResult
  simp only [bind_eq_ok, exists_and_right, exists_eq_ok_unit]
  refine and_congr_right fun _ => ?_
  cases hstate : operation.state with
  | completed existing =>
    by_cases hsame : existing = result
    · simp [hsame, eq_comm]
    · simp [hsame]
  | accepted => simp
  | invocationCommitted => simp [eq_comm]
  | cancellationRequested => simp
  | cancelled => simp
  | abandoned => simp

end EndpointOperation

end AutomataCi
