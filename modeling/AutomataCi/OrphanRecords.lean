import AutomataCi.JournalValues

/-!
# Orphan records

The grant by which the control plane lets a runner give up an old-session
lease, and the record of the deliveries abandoned under it.
-/

namespace AutomataCi

open GuardedResult

structure OrphanClaim where
  runnerId : RunnerId
  sessionId : RunnerSessionId
  slot : RunnerSlotOrdinal
  guard : LeaseGuard
  deriving DecidableEq, Repr

inductive OrphanDelivery where
  | terminalResult | logStream | leaseRejection
  deriving DecidableEq, Repr

inductive OrphanAbandonmentReason where
  | sessionInvalidated | controlPlaneRejected
  deriving DecidableEq, Repr

structure OrphanAbandonmentPermissions where
  (terminalResult logDelivery leaseRejection : Bool)
  deriving DecidableEq, Repr

def OrphanAbandonmentPermissions.allows
    (permissions : OrphanAbandonmentPermissions) : OrphanDelivery → Bool
  | .terminalResult => permissions.terminalResult
  | .logStream => permissions.logDelivery
  | .leaseRejection => permissions.leaseRejection

structure OrphanAuthorityGrant where
  claim : OrphanClaim
  authorityOperationId : OperationId
  evidenceDigest : Sha256Digest
  permissions : OrphanAbandonmentPermissions
  deriving DecidableEq, Repr

structure OrphanAbandonments where
  (terminalResult logDelivery leaseRejection : Option OrphanAbandonmentReason)
  deriving DecidableEq, Repr

namespace OrphanAbandonments

variable (abandonments : OrphanAbandonments)

def get : OrphanDelivery → Option OrphanAbandonmentReason
  | .terminalResult => abandonments.terminalResult
  | .logStream => abandonments.logDelivery
  | .leaseRejection => abandonments.leaseRejection

def set (delivery : OrphanDelivery) (reason : OrphanAbandonmentReason) : OrphanAbandonments :=
  match delivery with
  | .terminalResult => { abandonments with terminalResult := some reason }
  | .logStream => { abandonments with logDelivery := some reason }
  | .leaseRejection => { abandonments with leaseRejection := some reason }

theorem get_set
    (delivery other : OrphanDelivery) (reason : OrphanAbandonmentReason) :
    (abandonments.set delivery reason).get other =
      if other = delivery then some reason else abandonments.get other := by
  cases delivery <;> cases other <;> rfl

end OrphanAbandonments

structure OrphanRecord where
  sessionId : RunnerSessionId
  guard : LeaseGuard
  authorityOperationId : OperationId
  evidenceDigest : Sha256Digest
  permissions : OrphanAbandonmentPermissions
  abandonments : OrphanAbandonments
  deriving DecidableEq, Repr

namespace OrphanRecord

def fromGrant (grant : OrphanAuthorityGrant) : OrphanRecord where
  sessionId := grant.claim.sessionId
  guard := grant.claim.guard
  authorityOperationId := grant.authorityOperationId
  evidenceDigest := grant.evidenceDigest
  permissions := grant.permissions
  abandonments := ⟨none, none, none⟩

variable (record : OrphanRecord)

def abandon (authorityOperationId : OperationId)
    (delivery : OrphanDelivery) (reason : OrphanAbandonmentReason) :
    Except JournalInvariantError (Bool × OrphanRecord) := do
  rejectIf (record.authorityOperationId ≠ authorityOperationId ∨
      record.permissions.allows delivery = false) .orphanAuthorityMismatch
  match record.abandonments.get delivery with
  | some existing =>
    if existing = reason then .ok (false, record)
    else .error .orphanAbandonmentConflict
  | none =>
    .ok (true, { record with
      abandonments := record.abandonments.set delivery reason })

def matchesGrant (grant : OrphanAuthorityGrant) : Bool :=
  record.sessionId = grant.claim.sessionId && record.guard = grant.claim.guard &&
    record.authorityOperationId = grant.authorityOperationId &&
    record.evidenceDigest = grant.evidenceDigest &&
    record.permissions = grant.permissions

def isAbandoned (delivery : OrphanDelivery) : Bool :=
  (record.abandonments.get delivery).isSome

variable {record next : OrphanRecord} {authorityOperationId : OperationId}
  {reason : OrphanAbandonmentReason}

theorem abandon_eq_ok {delivery : OrphanDelivery} {changed : Bool} :
    record.abandon authorityOperationId delivery reason = .ok (changed, next) ↔
      (record.authorityOperationId = authorityOperationId ∧
        record.permissions.allows delivery = true) ∧
      (changed = true ∧ record.abandonments.get delivery = none ∧
          next = { record with
            abandonments := record.abandonments.set delivery reason } ∨
        changed = false ∧ record.abandonments.get delivery = some reason ∧
          next = record) := by
  unfold abandon
  simp only [bind_eq_ok, rejectIf_eq_ok, exists_const, not_or, not_not, Bool.not_eq_false]
  refine and_congr_right fun _ => ?_
  cases record.abandonments.get delivery with
  | none => simp [eq_comm (a := next)]
  | some existing =>
    by_cases hsame : existing = reason
    · simp [hsame, eq_comm (a := next)]
    · simp [hsame]

theorem isAbandoned_of_abandon {delivery other : OrphanDelivery}
    (habandon : record.abandon authorityOperationId delivery reason = .ok (true, next))
    (habandoned : next.isAbandoned other = true) :
    other = delivery ∨ record.isAbandoned other = true := by
  obtain ⟨-, rfl⟩ := of_changed ((abandon_eq_ok.mp habandon).2)
  rw [isAbandoned, OrphanAbandonments.get_set] at habandoned
  by_cases hsame : other = delivery
  · exact .inl hsame
  · rw [if_neg hsame] at habandoned
    exact .inr habandoned

theorem fromGrant_matchesGrant (grant : OrphanAuthorityGrant) :
    (fromGrant grant).matchesGrant grant = true := by
  simp [matchesGrant, fromGrant]

end OrphanRecord

end AutomataCi
