import AutomataCi.JournalValues

/-!
# Durable content references

References to protected spool objects, as the journal holds them, and the
checks which each kind of reference has to pass.  The cache key of a reference
is a function of its other fields and is left out.
-/

namespace AutomataCi

open GuardedResult

def maxContentObjectBytes : Nat :=
  256 * 1024 * 1024

def endpointResultAllocationGranuleBytes : Nat :=
  64 * 1024

def endpointResultProtectedEnvelopeBytes : Nat :=
  76

/-- The padded protected allocation of an endpoint result, absent for an
oversized plaintext. -/
def endpointResultAllocation (plaintextBytes : Nat) : Option Nat :=
  if maxContentObjectBytes < plaintextBytes then
    none
  else
    some ((plaintextBytes + endpointResultProtectedEnvelopeBytes +
        (endpointResultAllocationGranuleBytes - 1)) / endpointResultAllocationGranuleBytes *
        endpointResultAllocationGranuleBytes)

def validEndpointResultAllocation (allocationBytes : Nat) : Bool :=
  endpointResultAllocationGranuleBytes ≤ allocationBytes &&
    allocationBytes % endpointResultAllocationGranuleBytes == 0 &&
    allocationBytes ≤ maxContentObjectBytes + endpointResultAllocationGranuleBytes

inductive ContentKind where
  | jobIr | runtimeAuthority | terminalResult | logSpool | endpointRequest | endpointResult
  deriving DecidableEq, Repr

inductive DurableContentIdentity where
  | publicContent (plaintextBytes : Nat) (plaintextSha256 : Sha256Digest)
  | endpointResult (protectedAllocationBytes : Nat)
      (opaqueIdentity : Sha256Digest)
  deriving DecidableEq, Repr

/-- The combinations of kind and identity for which a cache key exists. -/
def DurableContentIdentity.isCoherent (kind : ContentKind) : DurableContentIdentity → Bool
  | .publicContent plaintextBytes _ =>
    kind ≠ .endpointResult && plaintextBytes ≤ maxContentObjectBytes
  | .endpointResult protectedAllocationBytes _ =>
    kind = .endpointResult && validEndpointResultAllocation protectedAllocationBytes

structure DurableContentRef where
  kind : ContentKind
  identity : DurableContentIdentity
  protectionId : ProtectionId
  coherent : identity.isCoherent kind = true
  deriving DecidableEq

namespace DurableContentRef

variable (content : DurableContentRef)

/-- The bytes charged for this object: exact plaintext bytes for a public
kind, the padded allocation for an endpoint result. -/
def accountedBytes : Nat :=
  match content.identity with
  | .publicContent plaintextBytes _ => plaintextBytes
  | .endpointResult protectedAllocationBytes _ => protectedAllocationBytes

def publicPlaintextBytes : Option Nat :=
  match content.identity with
  | .publicContent plaintextBytes _ => some plaintextBytes
  | .endpointResult _ _ => none

def publicPlaintextSha256 : Option Sha256Digest :=
  match content.identity with
  | .publicContent _ plaintextSha256 => some plaintextSha256
  | .endpointResult _ _ => none

def endpointResultAllocationBytes : Option Nat :=
  match content.identity with
  | .endpointResult protectedAllocationBytes _ => some protectedAllocationBytes
  | .publicContent _ _ => none

theorem accountedBytes_of_endpointResultAllocationBytes
    {content : DurableContentRef} {allocation : Nat}
    (hallocation : content.endpointResultAllocationBytes = some allocation) :
    content.accountedBytes = allocation := by
  cases hidentity : content.identity with
  | publicContent => simp [endpointResultAllocationBytes, hidentity] at hallocation
  | endpointResult =>
    simp [endpointResultAllocationBytes, hidentity] at hallocation
    simp [accountedBytes, hidentity, hallocation]

end DurableContentRef

def maxJobIrContentBytes : Nat :=
  16 * 1024 * 1024

def maxRuntimeAuthorityContentBytes : Nat :=
  512 * 1024

def maxTerminalResultContentBytes : Nat :=
  4 * 1024 * 1024

def validateBoundedContent (kind : ContentKind) (maximum : Nat)
    (error : JournalInvariantError) (content : DurableContentRef) :
    Except JournalInvariantError Unit :=
  rejectIf (content.kind ≠ kind ∨ content.accountedBytes = 0 ∨
    maximum < content.accountedBytes) error

structure JobIrContentRef where
  version : JobIrVersion
  content : DurableContentRef
  deriving DecidableEq

def JobIrContentRef.validate (value : JobIrContentRef) : Except JournalInvariantError Unit :=
  validateBoundedContent .jobIr maxJobIrContentBytes .invalidJobIrContent value.content

structure RuntimeAuthorityContentRef where
  content : DurableContentRef
  deriving DecidableEq

def RuntimeAuthorityContentRef.validate (value : RuntimeAuthorityContentRef) :
    Except JournalInvariantError Unit :=
  validateBoundedContent .runtimeAuthority maxRuntimeAuthorityContentBytes
    .invalidRuntimeAuthorityContent value.content

structure TerminalResultRecord where
  operationId : OperationId
  content : DurableContentRef
  acknowledged : Bool
  deriving DecidableEq

namespace TerminalResultRecord

def validate (value : TerminalResultRecord) : Except JournalInvariantError Unit :=
  validateBoundedContent .terminalResult maxTerminalResultContentBytes
    .invalidTerminalResultContent value.content

def acknowledge (value : TerminalResultRecord) : TerminalResultRecord :=
  { value with acknowledged := true }

def matchesUnacknowledged (value other : TerminalResultRecord) : Bool :=
  value.operationId = other.operationId && value.content = other.content && !other.acknowledged

end TerminalResultRecord

def maxEndpointResultContentBytes : Nat :=
  17 * 1024 * 1024

def endpointRequestCommitmentBytes : Nat :=
  32

def endpointResultAllocationOrZero (plaintextBytes : Nat) : Nat :=
  (endpointResultAllocation plaintextBytes).getD 0

def minEndpointResultAllocationBytes : Nat :=
  endpointResultAllocationOrZero 1

def maxEndpointResultAllocationBytes : Nat :=
  endpointResultAllocationOrZero maxEndpointResultContentBytes

structure EndpointRequestContentRef where
  content : DurableContentRef
  deriving DecidableEq

def EndpointRequestContentRef.validate (value : EndpointRequestContentRef) :
    Except JournalInvariantError Unit :=
  rejectIf (value.content.kind ≠ .endpointRequest ∨
    value.content.publicPlaintextBytes ≠ some endpointRequestCommitmentBytes)
    .invalidEndpointRequestContent

structure EndpointResultContentRef where
  content : DurableContentRef
  deriving DecidableEq

def EndpointResultContentRef.validate (value : EndpointResultContentRef) :
    Except JournalInvariantError Unit :=
  rejectIf (value.content.kind ≠ .endpointResult ∨
    ¬∃ bytes ∈ value.content.endpointResultAllocationBytes,
      minEndpointResultAllocationBytes ≤ bytes ∧ bytes ≤ maxEndpointResultAllocationBytes)
    .invalidEndpointResultContent

end AutomataCi
