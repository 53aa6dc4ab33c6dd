import AutomataCi.JournalValues
import AutomataCi.SerialLog

/-!
# Provider operations

The saga of provider mutations of one slot: each intent is recorded before
its side effect and resolved afterwards.  The recovery state folds resolved
operations into what is known about the sandbox; a bounded window of
operations follows it and its oldest entries are compacted into it.
-/

namespace AutomataCi

open GuardedResult SerialLog

inductive ProviderFailureKind where
  | invalidRequest
  | unsupported
  | permissionDenied
  | resourceExhausted
  | notFound
  | conflict
  | unavailable
  | timedOut
  | internal
  deriving DecidableEq, Repr

inductive ProviderFailureOutcome where
  | knownNoEffect (kind : ProviderFailureKind)
  | uncertain (kind : ProviderFailureKind)
  deriving DecidableEq, Repr

namespace ProviderFailureOutcome

def isUncertain : ProviderFailureOutcome → Bool
  | uncertain _ => true
  | knownNoEffect _ => false

end ProviderFailureOutcome

inductive ProviderOperationOutcome where
  | pending
  | applied
  | failed (failure : ProviderFailureOutcome)
  deriving DecidableEq, Repr

namespace ProviderOperationOutcome

def isPending : ProviderOperationOutcome → Bool
  | pending => true
  | failed (.uncertain _) => true
  | applied => false
  | failed (.knownNoEffect _) => false

end ProviderOperationOutcome

structure ProviderOperation where
  operationId : OperationId
  kind : ProviderOperationKind
  outcome : ProviderOperationOutcome
  deriving DecidableEq, Repr

namespace ProviderOperation

def isPending (operation : ProviderOperation) : Bool :=
  operation.outcome.isPending

def markApplied (operation : ProviderOperation) :
    Except JournalInvariantError (Bool × ProviderOperation) :=
  match operation.outcome with
  | .applied => .ok (false, operation)
  | .pending | .failed (.uncertain _) => .ok (true, { operation with outcome := .applied })
  | .failed (.knownNoEffect _) => .error .providerOperationReplayConflict

def resolveFailure (operation : ProviderOperation) (failure : ProviderFailureOutcome) :
    Except JournalInvariantError (Bool × ProviderOperation) :=
  match operation.outcome with
  | .pending => .ok (true, { operation with outcome := .failed failure })
  | .failed existing =>
    if existing = failure then
      .ok (false, operation)
    else if existing.isUncertain && !failure.isUncertain then
      .ok (true, { operation with outcome := .failed failure })
    else
      .error .providerOperationReplayConflict
  | .applied => .error .providerOperationReplayConflict

variable {operation next : ProviderOperation}

theorem markApplied_eq_ok {changed : Bool} :
    operation.markApplied = .ok (changed, next) ↔ changed = true ∧ operation.isPending = true ∧
          next = { operation with outcome := .applied } ∨
        changed = false ∧ operation.outcome = .applied ∧
          next = operation := by
  unfold markApplied isPending
  cases operation.outcome with
  | pending => simp [ProviderOperationOutcome.isPending, eq_comm]
  | applied => simp [ProviderOperationOutcome.isPending, eq_comm]
  | failed failure =>
    cases failure <;> simp [ProviderOperationOutcome.isPending, eq_comm]

/-- A failure is recorded once, and a first uncertain failure may still be
resolved to a known one. -/
theorem resolveFailure_eq_ok {failure : ProviderFailureOutcome} {changed : Bool} :
    operation.resolveFailure failure = .ok (changed, next) ↔
      changed = true ∧ operation.isPending = true ∧ operation.outcome ≠ .failed failure ∧
          (operation.outcome = .pending ∨ failure.isUncertain = false) ∧
          next = { operation with outcome := .failed failure } ∨
        changed = false ∧ operation.outcome = .failed failure ∧
          next = operation := by
  unfold resolveFailure isPending
  cases operation.outcome with
  | pending => simp [ProviderOperationOutcome.isPending, eq_comm (a := next)]
  | applied => simp [ProviderOperationOutcome.isPending]
  | failed existing =>
    by_cases hsame : existing = failure
    · simp [hsame, eq_comm (a := next)]
    · cases existing <;> cases failure <;> simp_all [ProviderOperationOutcome.isPending,
          ProviderFailureOutcome.isUncertain, eq_comm (a := next)]

end ProviderOperation

structure SandboxIdentity where
  provider : ProviderName
  handle : SandboxHandle
  deriving DecidableEq

/-- What the compacted operations say about the sandbox. -/
structure ProviderRecoveryState where
  compactedOperations : Nat
  (sandboxWasCreated sandboxLive running : Bool)
  deriving DecidableEq, Repr

namespace ProviderRecoveryState

def initial : ProviderRecoveryState :=
  ⟨0, false, false, false⟩

variable (recovery : ProviderRecoveryState)

def canBegin : ProviderOperationKind → Bool
  | .createSandbox => !recovery.sandboxWasCreated && !recovery.sandboxLive
  | .startSandbox => recovery.sandboxLive && !recovery.running
  | .stopSandbox => recovery.sandboxLive && recovery.running
  | .destroySandbox => recovery.sandboxLive

def applyKind : ProviderOperationKind → ProviderRecoveryState
  | .createSandbox => { recovery with sandboxWasCreated := true, sandboxLive := true }
  | .startSandbox => { recovery with running := true }
  | .stopSandbox => { recovery with running := false }
  | .destroySandbox => { recovery with sandboxLive := false, running := false }

def apply (operation : ProviderOperation) : Except JournalInvariantError ProviderRecoveryState := do
  rejectIf (recovery.canBegin operation.kind = false) .decodedStateInvalid
  if operation.outcome = .applied then
    return recovery.applyKind operation.kind
  else
    return recovery

def compact (operation : ProviderOperation) :
    Except JournalInvariantError ProviderRecoveryState := do
  rejectIf (operation.isPending = true) .providerOperationPending
  let applied ← recovery.apply operation
  rejectIf (2 ^ 64 ≤ applied.compactedOperations + 1) .counterExhausted
  return { applied with
    compactedOperations := applied.compactedOperations + 1 }

def isCoherent : Bool :=
  if recovery.compactedOperations = 0 then
    !recovery.sandboxWasCreated && !recovery.sandboxLive && !recovery.running
  else
    (!recovery.running || recovery.sandboxLive) &&
      (!recovery.sandboxLive || recovery.sandboxWasCreated)

def applyAll (recovery : ProviderRecoveryState) :
    List ProviderOperation → Except JournalInvariantError ProviderRecoveryState
  | [] => .ok recovery
  | operation :: rest => do
      let next ← recovery.apply operation
      next.applyAll rest

def after (recovery : ProviderRecoveryState) (operation : ProviderOperation) :
    ProviderRecoveryState :=
  if operation.outcome = .applied then recovery.applyKind operation.kind
  else recovery

variable {recovery next final : ProviderRecoveryState} {operation : ProviderOperation}

theorem apply_eq_ok :
    recovery.apply operation = .ok next ↔ recovery.canBegin operation.kind = true ∧
        next = recovery.after operation := by
  unfold apply after
  simp only [bind_eq_ok, rejectIf_eq_ok, exists_const, Bool.not_eq_false]
  refine and_congr_right fun _ => ?_
  split <;> simp [eq_comm (a := next)]

theorem compact_eq_ok :
    recovery.compact operation = .ok next ↔ operation.isPending = false ∧
        recovery.canBegin operation.kind = true ∧
        recovery.compactedOperations + 1 < 2 ^ 64 ∧
        next = { recovery.after operation with
          compactedOperations := recovery.compactedOperations + 1 } := by
  have hcount : (recovery.after operation).compactedOperations = recovery.compactedOperations := by
    unfold after applyKind
    split
    · cases operation.kind <;> rfl
    · rfl
  simp only [compact, bind_eq_ok, rejectIf_eq_ok, apply_eq_ok, exists_const,
    Bool.not_eq_true, pure_eq_ok, not_le, and_assoc]
  constructor
  · rintro ⟨hpending, applied, hbegin, rfl, hbound, rfl⟩
    rw [hcount] at hbound ⊢
    exact ⟨hpending, hbegin, hbound, rfl⟩
  · rintro ⟨hpending, hbegin, hbound, rfl⟩
    refine ⟨hpending, _, hbegin, rfl, ?_, ?_⟩
    · rwa [hcount]
    · rw [hcount]

theorem applyAll_append {front back : List ProviderOperation} :
    recovery.applyAll (front ++ back) = .ok final ↔ ∃ middle, recovery.applyAll front = .ok middle ∧
        middle.applyAll back = .ok final := by
  induction front generalizing recovery with
  | nil => simp [applyAll]
  | cons operation rest ih =>
    simp only [List.cons_append, applyAll, bind_eq_ok, ih]
    constructor
    · rintro ⟨next, hnext, middle, hrest, hback⟩
      exact ⟨middle, ⟨next, hnext, hrest⟩, hback⟩
    · rintro ⟨middle, ⟨next, hnext, hrest⟩, hback⟩
      exact ⟨next, hnext, middle, hrest, hback⟩

theorem applyAll_concat {front : List ProviderOperation} :
    recovery.applyAll (front ++ [operation]) = .ok final ↔
      ∃ middle, recovery.applyAll front = .ok middle ∧ middle.canBegin operation.kind = true ∧
        final = middle.after operation := by
  simp [applyAll_append, applyAll, apply_eq_ok]

end ProviderRecoveryState

/-- The loop of `replay_provider_operations`, with the identifiers seen so
far. -/
def replayFrom (seen : List OperationId) (recovery : ProviderRecoveryState) :
    List ProviderOperation → Except JournalInvariantError ProviderRecoveryState
  | [] => .ok recovery
  | operation :: rest => do
      rejectIf (operation.operationId ∈ seen ∨
          (operation.isPending = true ∧ rest ≠ [])) .decodedStateInvalid
      let next ← recovery.apply operation
      replayFrom (operation.operationId :: seen) next rest

def replayProviderOperations (checkpoint : ProviderRecoveryState)
    (providerOperations : List ProviderOperation) :
    Except JournalInvariantError ProviderRecoveryState :=
  replayFrom [] checkpoint providerOperations

/-- The identifiers of a window are distinct and only its last operation may
be pending. -/
abbrev ProviderWindow : List ProviderOperation → Prop :=
  WellOrdered ProviderOperation.operationId ProviderOperation.isPending

variable {operations : List ProviderOperation}

theorem replayFrom_eq_ok {seen : List OperationId} {recovery final : ProviderRecoveryState} :
    replayFrom seen recovery operations = .ok final ↔ ProviderWindow operations ∧
        (∀ operation ∈ operations, operation.operationId ∉ seen) ∧
        recovery.applyAll operations = .ok final := by
  induction operations generalizing seen recovery with
  | nil => simp [replayFrom, ProviderRecoveryState.applyAll, WellOrdered.nil]
  | cons operation rest ih =>
    simp only [replayFrom, ProviderRecoveryState.applyAll, bind_eq_ok, rejectIf_eq_ok, exists_const,
      not_or, not_and, not_not, ih, wellOrdered_cons, forall_eq_or_imp, List.mem_cons]
    constructor
    · rintro ⟨⟨hunseen, hlast⟩, next, happly, hordered, hfresh, hrest⟩
      exact ⟨⟨fun other hother => (hfresh other hother).1, hlast, hordered⟩,
        ⟨hunseen, fun other hother => (hfresh other hother).2⟩,
        next, happly, hrest⟩
    · rintro ⟨⟨hfresh, hlast, hordered⟩, ⟨hunseen, hseen⟩, next, happly, hrest⟩
      exact ⟨⟨hunseen, hlast⟩, next, happly, hordered,
        fun other hother => ⟨hfresh other hother, hseen other hother⟩,
        hrest⟩

theorem replayProviderOperations_eq_ok {checkpoint final : ProviderRecoveryState} :
    replayProviderOperations checkpoint operations = .ok final ↔ ProviderWindow operations ∧
        checkpoint.applyAll operations = .ok final := by
  simp [replayProviderOperations, replayFrom_eq_ok]

end AutomataCi
