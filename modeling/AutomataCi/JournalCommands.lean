import AutomataCi.DurableContent

/-!
# Command records

The records which the journal keeps about server commands: their durable
identity and disposition, the lease offer, the runtime-authority delivery
adopted after acceptance, the rejected-offer response and the cancellation.
-/

namespace AutomataCi

open GuardedResult

structure DurableCommand where
  sequence : CommandSequence
  operationId : OperationId
  digest : Sha256Digest
  deriving DecidableEq, Repr

inductive CommandIgnoredReason where
  | staleLease | slotUnavailable | unsupportedCommand | invalidCommand
  deriving DecidableEq, Repr

inductive CommandDisposition where
  | applied
  | ignored (reason : CommandIgnoredReason)
  deriving DecidableEq, Repr

structure CommandTombstone where
  command : DurableCommand
  disposition : CommandDisposition
  deriving DecidableEq, Repr

structure LeaseOfferRecord where
  slot : RunnerSlotOrdinal
  lease : Lease
  jobIr : JobIrContentRef
  managedSecretBindings : Option ManagedSecretBindingOverlay
  command : DurableCommand
  deriving DecidableEq

def LeaseOfferRecord.validate (offer : LeaseOfferRecord) : Except JournalInvariantError Unit := do
  offer.lease.validate.mapError fun _ => .invalidLease
  offer.jobIr.validate
  ifPresent offer.managedSecretBindings fun overlay =>
    rejectIf (¬overlay.isFor offer.lease) .invalidManagedSecretBindings

structure RuntimeAuthorityDeliveryRecord where
  binding : RuntimeAuthorityDeliveryBinding
  (requestOperationId acknowledgementOperationId : OperationId)
  bundleDigest : Sha256Digest
  content : RuntimeAuthorityContentRef
  acknowledged : Bool
  deriving DecidableEq

namespace RuntimeAuthorityDeliveryRecord

def acknowledge (delivery : RuntimeAuthorityDeliveryRecord)
    (generation : RuntimeAuthorityGeneration) (bundleDigest : Sha256Digest)
    (operationId : OperationId) :
    Except JournalInvariantError (Bool × RuntimeAuthorityDeliveryRecord) := do
  rejectIf (delivery.binding.generation ≠ generation ∨ delivery.bundleDigest ≠ bundleDigest ∨
      delivery.acknowledgementOperationId ≠ operationId)
    .runtimeAuthorityDeliveryReplayConflict
  if delivery.acknowledged then
    return (false, delivery)
  else
    return (true, { delivery with acknowledged := true })

def validate (delivery : RuntimeAuthorityDeliveryRecord) : Except JournalInvariantError Unit := do
  delivery.content.validate
  rejectIf (delivery.binding.generation.get = 0 ∨ delivery.content.content.publicPlaintextSha256 ≠
        some delivery.bundleDigest)
    .invalidRuntimeAuthorityDelivery

end RuntimeAuthorityDeliveryRecord

structure LeaseRejectionRecord where
  reason : LeaseRejectionReason
  responseOperationId : OperationId
  responseAcknowledged : Bool
  deriving DecidableEq, Repr

namespace LeaseRejectionRecord

def new (reason : LeaseRejectionReason)
    (responseOperationId : OperationId) : LeaseRejectionRecord :=
  ⟨reason, responseOperationId, false⟩

def acknowledgeResponse (rejection : LeaseRejectionRecord) : LeaseRejectionRecord :=
  { rejection with responseAcknowledged := true }

end LeaseRejectionRecord

structure CancellationRecord where
  command : DurableCommand
  requestedAt : UnixMillis
  deriving DecidableEq, Repr

inductive LeasePollCommandRecord where
  | noCommand
  | recorded (command : DurableCommand) (disposition : CommandDisposition)
  | ignored (command : DurableCommand) (reason : CommandIgnoredReason)
  | leaseOffer (offer : LeaseOfferRecord)
  | cancellation (slot : RunnerSlotOrdinal) (guard : LeaseGuard)
      (cancellation : CancellationRecord)
  deriving DecidableEq

end AutomataCi
