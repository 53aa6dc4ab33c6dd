import AutomataCi.KeyedList
import AutomataCi.WorkflowPlans

/-!
# Results of logical jobs

The constructors through which the evidence of a finished job becomes a
committed result.  Instances and prerequisites enter a descriptor, a claim
fences the descriptor, and the commit aggregates the conclusions and the
declared outputs under the plan.  The flags of the commit record whether the
job or anything in its prerequisite closure failed, was cancelled or was
skipped.

The digest of a descriptor, the digest of a blob and the encoding of plans
are parameters.
-/

namespace AutomataCi

open GuardedResult

inductive JobConclusion where
  | success | failure | cancelled | timedOut | skipped
  deriving DecidableEq, Repr

structure LogicalWorkflowJobId where
  uuid : Uuid
  deriving DecidableEq, Repr

structure AdmissionObject where
  digest : Sha256Digest
  objectKey : String
  encodedSize : Nat
  mediaType : String
  deriving DecidableEq, Repr

structure LogicalJobResultTarget where
  tenant : String
  (runId invocationId : Uuid)
  logicalJobId : LogicalWorkflowJobId
  deriving DecidableEq, Repr

inductive LogicalJobResultValueError where
  | negativeTimestamp (field : String)
  | invalidSourceOrder
  | invalidPlanObject
  | incompleteInstanceEvidence
  | invalidPrerequisiteEvidence
  | claimDescriptorMismatch
  | claimBeforeEvidence
  | planBlobMismatch
  | invalidPlan
  | planJobMismatch
  | outputDefinitionMismatch
  | invalidOutputMerge
  | outputBudgetExceeded
  | commitOutsideClaim
  deriving DecidableEq, Repr

def logicalJobResultPlanMediaType : String :=
  "application/vnd.automata.workflow-plan+json"

def maxJobResultOutputUtf16Bytes : Nat :=
  1048576

def maxSourceOrder : Nat :=
  1023

def validateTimestamp (value : UnixMillis) (field : String) :
    Except LogicalJobResultValueError Unit :=
  rejectIf (value.get < 0) (.negativeTimestamp field)

structure LogicalJobInstanceOutput where
  name : String
  sensitivity : OutputSensitivity
  publicValue : Option String
  deriving DecidableEq, Repr

structure LogicalJobInstanceResultEvidence where
  (matrixIndex terminalOrdinal : Nat)
  (rawConclusion effectiveConclusion : JobConclusion)
  outputs : List LogicalJobInstanceOutput
  finalizedAt : UnixMillis
  deriving DecidableEq, Repr

structure LogicalJobPrerequisiteEvidence where
  logicalJobId : LogicalWorkflowJobId
  logicalKey : String
  sourceOrder : Nat
  effectiveConclusion : JobConclusion
  (closureHasFailure closureHasCancelled closureHasSkipped : Bool)
  finalizedAt : UnixMillis
  deriving DecidableEq, Repr

namespace LogicalJobPrerequisiteEvidence

def new (logicalJobId : LogicalWorkflowJobId) (logicalKey : String)
    (sourceOrder : Nat) (effectiveConclusion : JobConclusion)
    (closureHasFailure closureHasCancelled closureHasSkipped : Bool)
    (finalizedAt : UnixMillis) :
    Except LogicalJobResultValueError LogicalJobPrerequisiteEvidence := do
  rejectIf (maxSourceOrder < sourceOrder) .invalidSourceOrder
  validateTimestamp finalizedAt "prerequisite finalization time"
  return {
    logicalJobId
    logicalKey
    sourceOrder
    effectiveConclusion
    closureHasFailure
    closureHasCancelled
    closureHasSkipped
    finalizedAt }

end LogicalJobPrerequisiteEvidence

structure LogicalJobResultDescriptor where
  target : LogicalJobResultTarget
  logicalKey : String
  sourceOrder : Nat
  plan : AdmissionObject
  activationOutputDigest : Sha256Digest
  conditionMatched : Bool
  instanceCount : Nat
  instances : List LogicalJobInstanceResultEvidence
  prerequisites : List LogicalJobPrerequisiteEvidence
  evidenceReadyAt : UnixMillis
  deriving DecidableEq, Repr

def UnixMillis.latest (left right : UnixMillis) : UnixMillis :=
  ⟨max left.get right.get⟩

namespace LogicalJobResultDescriptor

def new (target : LogicalJobResultTarget) (logicalKey : String)
    (sourceOrder : Nat) (plan : AdmissionObject)
    (activationOutputDigest : Sha256Digest) (conditionMatched : Bool)
    (instanceCount : Nat)
    (instances : List LogicalJobInstanceResultEvidence)
    (prerequisites : List LogicalJobPrerequisiteEvidence)
    (publicationAt : UnixMillis) :
    Except LogicalJobResultValueError LogicalJobResultDescriptor := do
  rejectIf (maxSourceOrder < sourceOrder) .invalidSourceOrder
  rejectIf (plan.mediaType ≠ logicalJobResultPlanMediaType) .invalidPlanObject
  rejectIf (256 < instanceCount ∨ instanceCount ≠ instances.length ∨
      conditionMatched = false ∧ instanceCount ≠ 0)
    .incompleteInstanceEvidence
  rejectIf (maxLogicalJobNeeds < prerequisites.length) .invalidPrerequisiteEvidence
  validateTimestamp publicationAt "activation publication time"
  let instances :=
    KeyedList.sortBy LogicalJobInstanceResultEvidence.matrixIndex instances
  rejectIf
    (instances.map LogicalJobInstanceResultEvidence.matrixIndex ≠ List.range instances.length)
    .incompleteInstanceEvidence
  let prerequisites :=
    KeyedList.sortBy LogicalJobPrerequisiteEvidence.sourceOrder prerequisites
  rejectIf (¬((prerequisites.map LogicalJobPrerequisiteEvidence.logicalJobId).Nodup ∧
      (prerequisites.map LogicalJobPrerequisiteEvidence.logicalKey).Nodup ∧
      (prerequisites.map LogicalJobPrerequisiteEvidence.sourceOrder).Nodup))
    .invalidPrerequisiteEvidence
  let evidenceReadyAt :=
    (instances.map LogicalJobInstanceResultEvidence.finalizedAt ++
      prerequisites.map LogicalJobPrerequisiteEvidence.finalizedAt).foldl
      UnixMillis.latest publicationAt
  return {
    target
    logicalKey
    sourceOrder
    plan
    activationOutputDigest
    conditionMatched
    instanceCount
    instances
    prerequisites
    evidenceReadyAt }

end LogicalJobResultDescriptor

structure LogicalJobResultClaimFence where
  target : LogicalJobResultTarget
  owner : Uuid
  generation : Nat
  descriptorDigest : Sha256Digest
  (claimedAt expiresAt : UnixMillis)
  deriving DecidableEq, Repr

structure ClaimedLogicalJobResult where
  descriptor : LogicalJobResultDescriptor
  claim : LogicalJobResultClaimFence
  replayed : Bool
  deriving DecidableEq, Repr

/-- The digests and the plan encoding which the constructors rely on. -/
structure ResultCodec where
  descriptorDigest : LogicalJobResultDescriptor → Sha256Digest
  sha256 : List UInt8 → Sha256Digest
  decodePlan : List UInt8 → Option WorkflowPlan
  encodePlan : WorkflowPlan → Option (List UInt8)

namespace ClaimedLogicalJobResult

def new (codec : ResultCodec) (descriptor : LogicalJobResultDescriptor)
    (claim : LogicalJobResultClaimFence) (replayed : Bool) :
    Except LogicalJobResultValueError ClaimedLogicalJobResult := do
  rejectIf
    (claim.target ≠ descriptor.target ∨ claim.descriptorDigest ≠ codec.descriptorDigest descriptor)
    .claimDescriptorMismatch
  rejectIf (claim.claimedAt.get < descriptor.evidenceReadyAt.get) .claimBeforeEvidence
  return { descriptor, claim, replayed }

end ClaimedLogicalJobResult

def aggregateConclusion (instances : List LogicalJobInstanceResultEvidence) : JobConclusion :=
  let concluded (conclusion : JobConclusion) : Bool :=
    instances.any fun result =>
      decide (result.effectiveConclusion = conclusion)
  if instances.isEmpty then .skipped
  else if concluded .failure then .failure
  else if concluded .timedOut then .timedOut
  else if concluded .cancelled then .cancelled
  else if concluded .success then .success
  else .skipped

def validateInstanceOutputs (definitions : List LogicalJobOutputDefinition)
    (instances : List LogicalJobInstanceResultEvidence) :
    Except LogicalJobResultValueError Unit :=
  (instances.flatMap LogicalJobInstanceResultEvidence.outputs).forM fun output => do
      let definition ← okOr (definitions.find? fun definition =>
          definition.key = output.name) .outputDefinitionMismatch
      match definition.source with
      | .invocationOutput _ => throw .outputDefinitionMismatch
      | .template _ =>
        rejectIf (definition.sensitivity = .secretDerived ∧ output.sensitivity ≠ .secretDerived)
          .outputDefinitionMismatch

structure LogicalJobResultOutput where
  name : String
  sensitivity : OutputSensitivity
  publicValue : Option String
  deriving DecidableEq, Repr

def utf16Length (text : String) : Nat :=
  (text.toList.map fun character =>
    if character.toNat < 0x10000 then 1 else 2).sum

/-- The instance with the greatest ordinal, the later one where two agree. -/
def lastCompletion (instances : List LogicalJobInstanceResultEvidence) :
    Option LogicalJobInstanceResultEvidence :=
  instances.foldl (fun latest candidate =>
      match latest with
      | none => some candidate
      | some current =>
        if current.terminalOrdinal < candidate.terminalOrdinal ∨
            current.terminalOrdinal = candidate.terminalOrdinal ∧
              current.matrixIndex ≤ candidate.matrixIndex then
          some candidate
        else some current)
    none

def selectInstance (merge : LogicalOutputMergePolicy)
    (instances : List LogicalJobInstanceResultEvidence) :
    Except LogicalJobResultValueError (Option LogicalJobInstanceResultEvidence) :=
  match merge with
  | .singleInstance =>
    match instances with
    | [] => .ok none
    | [result] => .ok (some result)
    | _ => .error .invalidOutputMerge
  | .lastSuccessfulCompletion =>
    .ok (lastCompletion (instances.filter fun result => result.rawConclusion = .success))

/-- One declared output, charged against the public budget so far. -/
def aggregateOutput (instances : List LogicalJobInstanceResultEvidence)
    (publicUtf16Bytes : Nat) (definition : LogicalJobOutputDefinition) :
    Except LogicalJobResultValueError (LogicalJobResultOutput × Nat) :=
  match definition.source with
  | .invocationOutput _ => throw .outputDefinitionMismatch
  | .template _ => do
      let selected ← selectInstance definition.merge instances
      let selectedOutput := selected.bind fun result =>
        result.outputs.find? fun output => output.name = definition.key
      if definition.sensitivity = .secretDerived ∨ selectedOutput.any (fun output =>
            decide (output.sensitivity = .secretDerived)) = true then
        return (⟨definition.key, .secretDerived, none⟩, publicUtf16Bytes)
      else
        let value :=
          (selectedOutput.bind LogicalJobInstanceOutput.publicValue).getD ""
        let total := publicUtf16Bytes + utf16Length value * 2
        rejectIf (maxJobResultOutputUtf16Bytes < total) .outputBudgetExceeded
        return (⟨definition.key, .publicOutput, some value⟩, total)

def aggregateOutputsFrom (instances : List LogicalJobInstanceResultEvidence) :
    Nat → List LogicalJobOutputDefinition →
      Except LogicalJobResultValueError (List LogicalJobResultOutput)
  | _, [] => .ok []
  | publicUtf16Bytes, definition :: rest => do
      let (output, total) ← aggregateOutput instances publicUtf16Bytes definition
      let outputs ← aggregateOutputsFrom instances total rest
      return output :: outputs

def aggregateOutputs (definitions : List LogicalJobOutputDefinition)
    (instances : List LogicalJobInstanceResultEvidence) :
    Except LogicalJobResultValueError (List LogicalJobResultOutput) := do
  let outputs ← aggregateOutputsFrom instances 0 definitions
  return KeyedList.sortBy LogicalJobResultOutput.name outputs

structure CommitLogicalJobResult where
  claim : LogicalJobResultClaimFence
  effectiveConclusion : JobConclusion
  (closureHasFailure closureHasCancelled closureHasSkipped : Bool)
  outputs : List LogicalJobResultOutput
  finalizedAt : UnixMillis
  deriving DecidableEq, Repr

def isFailure (conclusion : JobConclusion) : Bool :=
  decide (conclusion = .failure ∨ conclusion = .timedOut)

/-- The plan lists the descriptor's job as a step job with these needs. -/
def LogicalJobTemplate.Describes (job : LogicalJobTemplate)
    (descriptor : LogicalJobResultDescriptor) : Prop :=
  job.sourceOrder = descriptor.sourceOrder ∧ job.execution = .steps ∧
    job.needs.length = descriptor.prerequisites.length ∧
    ∀ need ∈ job.needs, ∃ prerequisite ∈ descriptor.prerequisites, prerequisite.logicalKey = need

instance (job : LogicalJobTemplate) (descriptor : LogicalJobResultDescriptor) :
    Decidable (job.Describes descriptor) := by
  unfold LogicalJobTemplate.Describes
  infer_instance

namespace CommitLogicalJobResult

def new (codec : ResultCodec) (claimed : ClaimedLogicalJobResult)
    (encodedPlan : List UInt8) (plan : WorkflowPlan)
    (finalizedAt : UnixMillis) :
    Except LogicalJobResultValueError CommitLogicalJobResult := do
  let descriptor := claimed.descriptor
  let claim := claimed.claim
  rejectIf (finalizedAt.get < claim.claimedAt.get ∨ claim.expiresAt.get ≤ finalizedAt.get)
    .commitOutsideClaim
  rejectIf (encodedPlan.length ≠ descriptor.plan.encodedSize ∨
      codec.sha256 encodedPlan ≠ descriptor.plan.digest)
    .planBlobMismatch
  let decoded ← okOr (codec.decodePlan encodedPlan) .invalidPlan
  rejectIf (decoded ≠ plan) .invalidPlan
  let reencoded ← okOr (codec.encodePlan decoded) .invalidPlan
  rejectIf (reencoded ≠ encodedPlan) .invalidPlan
  let job ← okOr (decoded.job descriptor.logicalKey) .planJobMismatch
  rejectIf (¬job.Describes descriptor) .planJobMismatch
  validateInstanceOutputs job.outputs descriptor.instances
  let effectiveConclusion := aggregateConclusion descriptor.instances
  let closureHasFailure :=
    isFailure effectiveConclusion || descriptor.prerequisites.any
        LogicalJobPrerequisiteEvidence.closureHasFailure
  let closureHasCancelled :=
    decide (effectiveConclusion = .cancelled) || descriptor.prerequisites.any
        LogicalJobPrerequisiteEvidence.closureHasCancelled
  let closureHasSkipped :=
    decide (effectiveConclusion = .skipped) || descriptor.prerequisites.any
        LogicalJobPrerequisiteEvidence.closureHasSkipped
  let outputs ← aggregateOutputs job.outputs descriptor.instances
  return {
    claim
    effectiveConclusion
    closureHasFailure
    closureHasCancelled
    closureHasSkipped
    outputs
    finalizedAt }

end CommitLogicalJobResult

end AutomataCi
