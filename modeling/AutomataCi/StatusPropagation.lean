import AutomataCi.LogicalJobResults
import Mathlib.Logic.Relation

/-!
# Status propagation along the needs graph

Every committed result carries three flags about its prerequisite closure,
computed from the flags of its direct needs only.  The jobs of a plan are
finalized one by one, in any order in which the needs of a job come first,
and this file shows that the local flags say exactly what a search of the
whole graph would say, and that the status under which a job is activated is
the one such a search gives.
-/

namespace AutomataCi

open GuardedResult

/-! ## Activation evidence -/

inductive LogicalActivationPreparationValueError where
  | negativeTimestamp (field : String)
  | invalidPrerequisite
  | invalidPrerequisiteOutput
  deriving DecidableEq, Repr

inductive LogicalActivationAggregateStatus where
  | success | failure | cancelled | skipped
  deriving DecidableEq, Repr

structure LogicalActivationPrerequisiteOutput where
  name : String
  sensitivity : OutputSensitivity
  publicValue : Option String
  deriving DecidableEq, Repr

namespace LogicalActivationPrerequisiteOutput

def new (name : String) (sensitivity : OutputSensitivity) (publicValue : Option String) :
    Except LogicalActivationPreparationValueError LogicalActivationPrerequisiteOutput := do
  match sensitivity, publicValue with
  | .publicOutput, some value =>
    rejectIf (maxJobResultOutputUtf16Bytes < utf16Length value * 2) .invalidPrerequisiteOutput
  | .secretDerived, none => pure ()
  | _, _ => throw .invalidPrerequisiteOutput
  return { name, sensitivity, publicValue }

end LogicalActivationPrerequisiteOutput

structure LogicalActivationPrerequisiteEvidence where
  logicalJobId : LogicalWorkflowJobId
  logicalKey : String
  sourceOrder : Nat
  effectiveConclusion : JobConclusion
  (closureHasFailure closureHasCancelled closureHasSkipped : Bool)
  outputs : List LogicalActivationPrerequisiteOutput
  finalizedAt : UnixMillis
  deriving DecidableEq, Repr

namespace LogicalActivationPrerequisiteEvidence

def new (logicalJobId : LogicalWorkflowJobId) (logicalKey : String)
    (sourceOrder : Nat) (effectiveConclusion : JobConclusion)
    (closureHasFailure closureHasCancelled closureHasSkipped : Bool)
    (outputs : List LogicalActivationPrerequisiteOutput)
    (finalizedAt : UnixMillis) :
    Except LogicalActivationPreparationValueError LogicalActivationPrerequisiteEvidence := do
  rejectIf (maxSourceOrder < sourceOrder ∨ maxLogicalJobOutputs < outputs.length)
    .invalidPrerequisite
  rejectIf (finalizedAt.get < 0) (.negativeTimestamp "prerequisite finalization time")
  rejectIf (isFailure effectiveConclusion = true ∧ closureHasFailure = false ∨
      effectiveConclusion = .cancelled ∧ closureHasCancelled = false ∨
      effectiveConclusion = .skipped ∧ closureHasSkipped = false)
    .invalidPrerequisite
  let outputs :=
    KeyedList.sortBy LogicalActivationPrerequisiteOutput.name outputs
  rejectIf (¬(outputs.map LogicalActivationPrerequisiteOutput.name).Nodup)
    .invalidPrerequisiteOutput
  return {
    logicalJobId
    logicalKey
    sourceOrder
    effectiveConclusion
    closureHasFailure
    closureHasCancelled
    closureHasSkipped
    outputs
    finalizedAt }

end LogicalActivationPrerequisiteEvidence

def aggregateStatus (prerequisites : List LogicalActivationPrerequisiteEvidence) :
    LogicalActivationAggregateStatus :=
  if prerequisites.any fun prerequisite =>
      prerequisite.closureHasFailure || isFailure prerequisite.effectiveConclusion then .failure
  else if prerequisites.any fun prerequisite =>
      prerequisite.closureHasCancelled ||
        decide (prerequisite.effectiveConclusion = .cancelled) then .cancelled
  else if prerequisites.any fun prerequisite =>
      prerequisite.closureHasSkipped ||
        decide (prerequisite.effectiveConclusion = .skipped) then .skipped
  else .success

/-! ## The three flags as one -/

inductive ClosureStatus where
  | failure | cancelled | skipped
  deriving DecidableEq, Repr

namespace ClosureStatus

def covers : ClosureStatus → JobConclusion → Bool
  | .failure, conclusion => isFailure conclusion
  | .cancelled, conclusion => decide (conclusion = .cancelled)
  | .skipped, conclusion => decide (conclusion = .skipped)

end ClosureStatus

def LogicalJobPrerequisiteEvidence.closureHas
    (self : LogicalJobPrerequisiteEvidence) : ClosureStatus → Bool
  | .failure => self.closureHasFailure
  | .cancelled => self.closureHasCancelled
  | .skipped => self.closureHasSkipped

def LogicalActivationPrerequisiteEvidence.closureHas
    (self : LogicalActivationPrerequisiteEvidence) : ClosureStatus → Bool
  | .failure => self.closureHasFailure
  | .cancelled => self.closureHasCancelled
  | .skipped => self.closureHasSkipped

def CommitLogicalJobResult.closureHas (self : CommitLogicalJobResult) : ClosureStatus → Bool
  | .failure => self.closureHasFailure
  | .cancelled => self.closureHasCancelled
  | .skipped => self.closureHasSkipped

/-- The status which a search of the graph calls for, when `holds` tells
which conclusions it met. -/
def LogicalActivationAggregateStatus.Reports (holds : ClosureStatus → Prop) :
    LogicalActivationAggregateStatus → Prop
  | .failure => holds .failure
  | .cancelled => ¬holds .failure ∧ holds .cancelled
  | .skipped => ¬holds .failure ∧ ¬holds .cancelled ∧ holds .skipped
  | .success => ∀ status, ¬holds status

theorem LogicalActivationAggregateStatus.reports_first (met : ClosureStatus → Bool) :
    LogicalActivationAggregateStatus.Reports (fun status => met status = true)
      (if met .failure then .failure
        else if met .cancelled then .cancelled
        else if met .skipped then .skipped
        else .success) := by
  split
  next hfailure => exact hfailure
  next hfailure =>
    split
    next hcancelled => exact ⟨hfailure, hcancelled⟩
    next hcancelled =>
      split
      next hskipped => exact ⟨hfailure, hcancelled, hskipped⟩
      next hskipped =>
        intro status
        cases status with
        | failure => exact hfailure
        | cancelled => exact hcancelled
        | skipped => exact hskipped

theorem aggregateStatus_reports (prerequisites : List LogicalActivationPrerequisiteEvidence) :
    (aggregateStatus prerequisites).Reports fun status =>
      ∃ prerequisite ∈ prerequisites, prerequisite.closureHas status = true ∨
          status.covers prerequisite.effectiveConclusion = true := by
  let met (status : ClosureStatus) : Bool := prerequisites.any fun prerequisite =>
      prerequisite.closureHas status ||
        status.covers prerequisite.effectiveConclusion
  have hmet :
      (fun status => ∃ prerequisite ∈ prerequisites, prerequisite.closureHas status = true ∨
          status.covers prerequisite.effectiveConclusion = true) =
        fun status => met status = true := by
    funext status
    simp [met]
  rw [hmet]
  exact LogicalActivationAggregateStatus.reports_first met

/-! ## Finalization runs -/

structure FinalizedJob where
  claimed : ClaimedLogicalJobResult
  commit : CommitLogicalJobResult
  deriving DecidableEq, Repr

namespace FinalizedJob

variable (self : FinalizedJob)

def logicalKey : String :=
  self.claimed.descriptor.logicalKey

def prerequisiteEvidence : Except LogicalJobResultValueError LogicalJobPrerequisiteEvidence :=
  LogicalJobPrerequisiteEvidence.new self.claimed.descriptor.target.logicalJobId self.logicalKey
    self.claimed.descriptor.sourceOrder
    self.commit.effectiveConclusion
    self.commit.closureHasFailure
    self.commit.closureHasCancelled
    self.commit.closureHasSkipped
    self.commit.finalizedAt

/-- The evidence which the result gives to the activations that need it. -/
def activationEvidence : Except LogicalActivationPreparationValueError
      LogicalActivationPrerequisiteEvidence := do
  let outputs ← self.commit.outputs.mapM fun output =>
    LogicalActivationPrerequisiteOutput.new output.name output.sensitivity output.publicValue
  LogicalActivationPrerequisiteEvidence.new self.claimed.descriptor.target.logicalJobId
    self.logicalKey
    self.claimed.descriptor.sourceOrder
    self.commit.effectiveConclusion
    self.commit.closureHasFailure
    self.commit.closureHasCancelled
    self.commit.closureHasSkipped
    outputs
    self.commit.finalizedAt

end FinalizedJob

def WorkflowPlan.Needs (self : WorkflowPlan) (key need : String) : Prop :=
  ∃ template, self.job key = some template ∧ need ∈ template.needs

def gatherActivationEvidence (finalized : List FinalizedJob) (template : LogicalJobTemplate) :
    Except LogicalActivationPreparationValueError (List LogicalActivationPrerequisiteEvidence) :=
  (finalized.filter fun job =>
    decide (job.logicalKey ∈ template.needs)).mapM
    FinalizedJob.activationEvidence

/-- A job is finalized from its own instances and from evidence copied from
the results committed before it. -/
structure Finalizes (codec : ResultCodec) (plan : WorkflowPlan)
    (finalized : List FinalizedJob) (job : FinalizedJob) : Prop where
  fresh : ∀ earlier ∈ finalized, earlier.logicalKey ≠ job.logicalKey
  described :
    ∃ target logicalKey sourceOrder planObject activationOutputDigest
      conditionMatched instanceCount instances prerequisites publicationAt,
      (∀ prerequisite ∈ prerequisites, ∃ earlier ∈ finalized,
          earlier.prerequisiteEvidence = .ok prerequisite) ∧
      LogicalJobResultDescriptor.new target logicalKey sourceOrder planObject
        activationOutputDigest conditionMatched instanceCount instances
        prerequisites publicationAt = .ok job.claimed.descriptor
  claimed :
    ∃ descriptor claim replayed, ClaimedLogicalJobResult.new codec descriptor claim replayed =
        .ok job.claimed
  committed :
    ∃ encodedPlan finalizedAt, CommitLogicalJobResult.new codec job.claimed encodedPlan plan
        finalizedAt = .ok job.commit

/-- The results of a plan, the latest first, finalized one after another. -/
inductive FinalizationRun (codec : ResultCodec) (plan : WorkflowPlan) :
    List FinalizedJob → Prop
  | start : FinalizationRun codec plan []
  | finalize {finalized : List FinalizedJob} {job : FinalizedJob}
      (before : FinalizationRun codec plan finalized)
      (finalizes : Finalizes codec plan finalized job) :
      FinalizationRun codec plan (job :: finalized)

/-! ## What one commit says -/

theorem UnixMillis.le_foldl_latest (start : UnixMillis) (instants : List UnixMillis) :
    start.get ≤ (instants.foldl UnixMillis.latest start).get := by
  induction instants generalizing start with
  | nil => exact le_rfl
  | cons instant rest ih => exact (le_max_left _ _).trans (ih (start.latest instant))

def LogicalJobResultOutput.Activatable (output : LogicalJobResultOutput) : Prop :=
  LogicalActivationPrerequisiteOutput.new output.name output.sensitivity output.publicValue =
    .ok ⟨output.name, output.sensitivity, output.publicValue⟩

variable {instances : List LogicalJobInstanceResultEvidence}
  {definitions : List LogicalJobOutputDefinition} {outputs : List LogicalJobResultOutput}

theorem aggregateOutput_eq_ok {publicUtf16Bytes total : Nat}
    {definition : LogicalJobOutputDefinition} {output : LogicalJobResultOutput}
    (houtput : aggregateOutput instances publicUtf16Bytes definition = .ok (output, total)) :
    output.name = definition.key ∧ output.Activatable := by
  unfold aggregateOutput at houtput
  split at houtput
  next => simp at houtput
  next =>
    simp only [bind_eq_ok] at houtput
    obtain ⟨selected, -, houtput⟩ := houtput
    split at houtput
    next =>
      simp only [pure_eq_ok, Prod.mk.injEq] at houtput
      obtain ⟨rfl, -⟩ := houtput
      exact ⟨rfl, rfl⟩
    next =>
      simp only [bind_eq_ok, rejectIf_eq_ok, not_lt, pure_eq_ok, Prod.mk.injEq] at houtput
      obtain ⟨_, hbudget, rfl, -⟩ := houtput
      refine ⟨rfl, ?_⟩
      simp only [LogicalJobResultOutput.Activatable, LogicalActivationPrerequisiteOutput.new,
        bind_eq_ok, rejectIf_eq_ok, not_lt, pure_eq_ok, and_true]
      exact ⟨(), (Nat.le_add_left _ _).trans hbudget⟩

theorem aggregateOutputsFrom_eq_ok {publicUtf16Bytes : Nat}
    (houtputs : aggregateOutputsFrom instances publicUtf16Bytes definitions = .ok outputs) :
    outputs.map LogicalJobResultOutput.name = definitions.map LogicalJobOutputDefinition.key ∧
      ∀ output ∈ outputs, output.Activatable := by
  induction definitions generalizing publicUtf16Bytes outputs with
  | nil =>
    simp only [aggregateOutputsFrom, Except.ok.injEq] at houtputs
    subst houtputs
    simp
  | cons definition rest ih =>
    simp only [aggregateOutputsFrom, bind_eq_ok, pure_eq_ok] at houtputs
    obtain ⟨⟨first, total⟩, hfirst, remaining, hrest, rfl⟩ := houtputs
    have houtput := aggregateOutput_eq_ok hfirst
    have hremaining := ih hrest
    constructor
    · rw [List.map_cons, List.map_cons, houtput.1, hremaining.1]
    · rw [List.forall_mem_cons]
      exact ⟨houtput.2, hremaining.2⟩

theorem aggregateOutputs_eq_ok (houtputs : aggregateOutputs definitions instances = .ok outputs) :
    (outputs.map LogicalJobResultOutput.name).Perm
        (definitions.map LogicalJobOutputDefinition.key) ∧
      ∀ output ∈ outputs, output.Activatable := by
  simp only [aggregateOutputs, bind_eq_ok, pure_eq_ok] at houtputs
  obtain ⟨unsorted, hunsorted, rfl⟩ := houtputs
  obtain ⟨hnames, hactivatable⟩ := aggregateOutputsFrom_eq_ok hunsorted
  constructor
  · rw [← hnames]
    exact (KeyedList.perm_sortBy unsorted).map _
  · intro output houtput
    exact hactivatable output (KeyedList.mem_sortBy.mp houtput)

namespace CommitLogicalJobResult

variable {codec : ResultCodec} {claimed : ClaimedLogicalJobResult}
variable {encodedPlan : List UInt8} {plan : WorkflowPlan}
variable {finalizedAt : UnixMillis} {commit : CommitLogicalJobResult}

/-- Everything a successful commit establishes about its evidence. -/
theorem new_eq_ok (hnew : new codec claimed encodedPlan plan finalizedAt = .ok commit) :
    ∃ template, plan.job claimed.descriptor.logicalKey = some template ∧
        template.Describes claimed.descriptor ∧
        claimed.claim.claimedAt.get ≤ finalizedAt.get ∧
        commit.finalizedAt = finalizedAt ∧
        commit.effectiveConclusion = aggregateConclusion claimed.descriptor.instances ∧
        aggregateOutputs template.outputs claimed.descriptor.instances = .ok commit.outputs ∧
        ∀ status, commit.closureHas status = (status.covers commit.effectiveConclusion ||
              claimed.descriptor.prerequisites.any fun prerequisite =>
                prerequisite.closureHas status) := by
  simp only [new, bind_eq_ok, rejectIf_eq_ok, okOr_eq_ok, pure_eq_ok,
    not_not, not_or, not_lt] at hnew
  obtain ⟨_, hwindow, _, _, decoded, _, _, hdecoded, _, _, _, _, template,
    hjob, _, hdescribes, _, _, outputs, houtputs, rfl⟩ := hnew
  subst hdecoded
  refine ⟨template, hjob, hdescribes, hwindow.1, rfl, rfl, houtputs, ?_⟩
  intro status
  cases status with
  | failure => rfl
  | cancelled => rfl
  | skipped => rfl

end CommitLogicalJobResult

namespace LogicalJobResultDescriptor

theorem new_eq_ok {target : LogicalJobResultTarget} {logicalKey : String}
    {sourceOrder : Nat} {plan : AdmissionObject}
    {activationOutputDigest : Sha256Digest} {conditionMatched : Bool} {instanceCount : Nat}
    {instances : List LogicalJobInstanceResultEvidence}
    {prerequisites : List LogicalJobPrerequisiteEvidence}
    {publicationAt : UnixMillis} {descriptor : LogicalJobResultDescriptor}
    (hnew : new target logicalKey sourceOrder plan activationOutputDigest
      conditionMatched instanceCount instances prerequisites publicationAt =
      .ok descriptor) :
    descriptor.sourceOrder ≤ maxSourceOrder ∧ (∀ prerequisite,
        prerequisite ∈ descriptor.prerequisites ↔ prerequisite ∈ prerequisites) ∧
      (descriptor.prerequisites.map LogicalJobPrerequisiteEvidence.logicalKey).Nodup ∧
      0 ≤ descriptor.evidenceReadyAt.get := by
  simp only [new, validateTimestamp, bind_eq_ok, rejectIf_eq_ok, pure_eq_ok,
    not_not, not_lt] at hnew
  obtain ⟨_, horder, _, _, _, _, _, _, _, hpublication, _, _, _, hdistinct, rfl⟩ := hnew
  exact ⟨horder, fun _ => KeyedList.mem_sortBy, hdistinct.2.1,
    hpublication.trans (UnixMillis.le_foldl_latest _ _)⟩

end LogicalJobResultDescriptor

/-! ## One finalization -/

namespace FinalizedJob

variable {job : FinalizedJob}

theorem prerequisiteEvidence_eq_ok {prerequisite : LogicalJobPrerequisiteEvidence}
    (hevidence : job.prerequisiteEvidence = .ok prerequisite) :
    prerequisite.logicalKey = job.logicalKey ∧ ∀ status,
        prerequisite.closureHas status = job.commit.closureHas status := by
  simp only [prerequisiteEvidence, LogicalJobPrerequisiteEvidence.new,
    bind_eq_ok, pure_eq_ok] at hevidence
  obtain ⟨_, _, _, _, rfl⟩ := hevidence
  refine ⟨rfl, fun status => ?_⟩
  cases status with
  | failure => rfl
  | cancelled => rfl
  | skipped => rfl

theorem activationEvidence_eq_ok {prerequisite : LogicalActivationPrerequisiteEvidence}
    (hevidence : job.activationEvidence = .ok prerequisite) :
    prerequisite.effectiveConclusion = job.commit.effectiveConclusion ∧ ∀ status,
        prerequisite.closureHas status = job.commit.closureHas status := by
  simp only [activationEvidence, LogicalActivationPrerequisiteEvidence.new,
    bind_eq_ok, pure_eq_ok] at hevidence
  obtain ⟨_, _, _, _, _, _, _, _, _, _, rfl⟩ := hevidence
  refine ⟨rfl, fun status => ?_⟩
  cases status with
  | failure => rfl
  | cancelled => rfl
  | skipped => rfl

end FinalizedJob

namespace Finalizes

variable {codec : ResultCodec} {plan : WorkflowPlan}
variable {finalized : List FinalizedJob} {job : FinalizedJob}

section

variable (hfinalizes : Finalizes codec plan finalized job)

include hfinalizes

theorem template :
    ∃ template, plan.job job.logicalKey = some template ∧ (∀ need, need ∈ template.needs ↔
            ∃ prerequisite ∈ job.claimed.descriptor.prerequisites, prerequisite.logicalKey = need) ∧
        ∀ prerequisite ∈ job.claimed.descriptor.prerequisites, ∃ earlier ∈ finalized,
            earlier.prerequisiteEvidence = .ok prerequisite := by
  obtain ⟨_, _, hnew⟩ := hfinalizes.committed
  obtain ⟨template, hjob, hdescribes, -⟩ := CommitLogicalJobResult.new_eq_ok hnew
  obtain ⟨_, _, _, _, _, _, _, _, prerequisites, _, hcopied, hdescriptor⟩ := hfinalizes.described
  obtain ⟨-, hmem, -, -⟩ := LogicalJobResultDescriptor.new_eq_ok hdescriptor
  refine ⟨template, hjob, ?_, fun prerequisite hprerequisite =>
    hcopied prerequisite ((hmem prerequisite).mp hprerequisite)⟩
  obtain ⟨-, -, hlength, hneeds⟩ := hdescribes
  let keys := job.claimed.descriptor.prerequisites.map LogicalJobPrerequisiteEvidence.logicalKey
  -- as many prerequisites as needs, and every need among them
  have hsubset : template.needs ⊆ keys := by
    intro need hneed
    exact List.mem_map.mpr (hneeds need hneed)
  have hperm : template.needs.Perm keys := by
    apply (List.subperm_of_subset template.needsDistinct hsubset).perm_of_length_le
    rw [hlength, List.length_map]
  intro need
  rw [hperm.mem_iff, List.mem_map]

theorem ready_le_claimedAt :
    job.claimed.descriptor.evidenceReadyAt.get ≤ job.claimed.claim.claimedAt.get := by
  obtain ⟨descriptor, claim, replayed, hnew⟩ := hfinalizes.claimed
  simp only [ClaimedLogicalJobResult.new, bind_eq_ok, rejectIf_eq_ok, pure_eq_ok, not_lt] at hnew
  obtain ⟨_, _, _, hready, hclaimed⟩ := hnew
  rw [← hclaimed]
  exact hready

theorem needs_finalized {need : String} (hneed : plan.Needs job.logicalKey need) :
    ∃ earlier ∈ finalized, earlier.logicalKey = need := by
  obtain ⟨template, hjob, hneeds, hcopied⟩ := hfinalizes.template
  obtain ⟨same, hsame, hmem⟩ := hneed
  obtain rfl : template = same := Option.some.inj (hjob.symm.trans hsame)
  obtain ⟨prerequisite, hprerequisite, hkey⟩ := (hneeds need).mp hmem
  obtain ⟨earlier, hearlier, hevidence⟩ := hcopied prerequisite hprerequisite
  exact ⟨earlier, hearlier, (FinalizedJob.prerequisiteEvidence_eq_ok hevidence).1.symm.trans hkey⟩

theorem closureHas_iff (hdistinct : (finalized.map FinalizedJob.logicalKey).Nodup)
    (status : ClosureStatus) :
    job.commit.closureHas status = true ↔ status.covers job.commit.effectiveConclusion = true ∨
        ∃ earlier ∈ finalized, plan.Needs job.logicalKey earlier.logicalKey ∧
            earlier.commit.closureHas status = true := by
  obtain ⟨template, hjob, hneeds, hcopied⟩ := hfinalizes.template
  obtain ⟨_, _, hnew⟩ := hfinalizes.committed
  obtain ⟨_, -, -, -, -, -, -, hflags⟩ := CommitLogicalJobResult.new_eq_ok hnew
  rw [hflags status, Bool.or_eq_true, List.any_eq_true]
  refine or_congr_right ⟨?_, ?_⟩
  · rintro ⟨prerequisite, hprerequisite, hflag⟩
    obtain ⟨earlier, hearlier, hevidence⟩ := hcopied prerequisite hprerequisite
    obtain ⟨hkey, hclosure⟩ := FinalizedJob.prerequisiteEvidence_eq_ok hevidence
    have hneed : earlier.logicalKey ∈ template.needs :=
      (hneeds _).mpr ⟨prerequisite, hprerequisite, hkey⟩
    exact ⟨earlier, hearlier, ⟨template, hjob, hneed⟩, (hclosure status).symm.trans hflag⟩
  · rintro ⟨earlier, hearlier, ⟨same, hsame, hneed⟩, hflag⟩
    obtain rfl : template = same := Option.some.inj (hjob.symm.trans hsame)
    obtain ⟨prerequisite, hprerequisite, hkey⟩ := (hneeds _).mp hneed
    obtain ⟨source, hsource, hevidence⟩ := hcopied prerequisite hprerequisite
    obtain ⟨hsourceKey, hclosure⟩ := FinalizedJob.prerequisiteEvidence_eq_ok hevidence
    have hsameJob : source = earlier := List.inj_on_of_nodup_map hdistinct hsource hearlier
        (hsourceKey.symm.trans hkey)
    exact ⟨prerequisite, hprerequisite, (hclosure status).trans (hsameJob ▸ hflag)⟩

theorem conclusion : job.commit.effectiveConclusion =
    aggregateConclusion job.claimed.descriptor.instances := by
  obtain ⟨_, _, hnew⟩ := hfinalizes.committed
  obtain ⟨_, -, -, -, -, hconclusion, -⟩ := CommitLogicalJobResult.new_eq_ok hnew
  exact hconclusion

theorem activationEvidence : ∃ evidence, job.activationEvidence = .ok evidence := by
  obtain ⟨_, finalizedAt, hnew⟩ := hfinalizes.committed
  obtain ⟨template, -, -, hwindow, hfinalizedAt, -, houtputs, hflags⟩ :=
    CommitLogicalJobResult.new_eq_ok hnew
  obtain ⟨hnames, hactivatable⟩ := aggregateOutputs_eq_ok houtputs
  obtain ⟨_, _, _, _, _, _, _, _, _, _, _, hdescriptor⟩ := hfinalizes.described
  obtain ⟨horder, -, -, hready⟩ := LogicalJobResultDescriptor.new_eq_ok hdescriptor
  have hclaimedAt := hfinalizes.ready_le_claimedAt
  let converted := job.commit.outputs.map fun output =>
    (⟨output.name, output.sensitivity, output.publicValue⟩ :
      LogicalActivationPrerequisiteOutput)
  have hconverted : job.commit.outputs.mapM (fun output =>
      LogicalActivationPrerequisiteOutput.new output.name output.sensitivity
        output.publicValue) = .ok converted := by
    rw [mapM_eq_ok, List.forall₂_map_right_iff, List.forall₂_same]
    exact hactivatable
  have hconvertedNames :
      converted.map LogicalActivationPrerequisiteOutput.name =
        job.commit.outputs.map LogicalJobResultOutput.name := by
    simp [converted]
  have hcount : converted.length ≤ maxLogicalJobOutputs := by
    have hlength := hnames.length_eq
    simp only [List.length_map] at hlength
    rw [List.length_map, hlength]
    exact template.outputsBounded
  have hdistinct : ((KeyedList.sortBy LogicalActivationPrerequisiteOutput.name converted).map
        LogicalActivationPrerequisiteOutput.name).Nodup := by
    rw [((KeyedList.perm_sortBy converted).map _).nodup_iff, hconvertedNames, hnames.nodup_iff]
    exact template.outputsDistinct
  have hown (status : ClosureStatus)
      (hcovers : status.covers job.commit.effectiveConclusion = true) :
      job.commit.closureHas status = true := by
    rw [hflags status, hcovers, Bool.true_or]
  have hmalformed :
      ¬(isFailure job.commit.effectiveConclusion = true ∧ job.commit.closureHasFailure = false ∨
        job.commit.effectiveConclusion = .cancelled ∧ job.commit.closureHasCancelled = false ∨
        job.commit.effectiveConclusion = .skipped ∧ job.commit.closureHasSkipped = false) := by
    rintro (⟨hconclusion, hflag⟩ | ⟨hconclusion, hflag⟩ | ⟨hconclusion, hflag⟩)
    · exact Bool.false_ne_true (hflag.symm.trans (hown .failure hconclusion))
    · exact Bool.false_ne_true (hflag.symm.trans (hown .cancelled (decide_eq_true hconclusion)))
    · exact Bool.false_ne_true (hflag.symm.trans (hown .skipped (decide_eq_true hconclusion)))
  have htime : 0 ≤ job.commit.finalizedAt.get := by
    rw [hfinalizedAt]
    exact (hready.trans hclaimedAt).trans hwindow
  simp only [FinalizedJob.activationEvidence, LogicalActivationPrerequisiteEvidence.new, hconverted,
    ok_bind, bind_eq_ok, rejectIf_eq_ok, pure_eq_ok, not_or, not_lt, not_not]
  rw [not_or, not_or] at hmalformed
  exact ⟨_, (), ⟨horder, hcount⟩, (), htime, (), hmalformed, (), hdistinct, rfl⟩

end

end Finalizes

/-! ## What a search of the graph finds -/

/-- Some result in the closure of `key`, itself included, is covered. -/
def InClosure (plan : WorkflowPlan) (finalized : List FinalizedJob)
    (status : ClosureStatus) (key : String) : Prop :=
  ∃ other ∈ finalized, Relation.ReflTransGen plan.Needs key other.logicalKey ∧
      status.covers other.commit.effectiveConclusion = true

/-- Some transitive prerequisite of `key` is covered. -/
def Upstream (plan : WorkflowPlan) (finalized : List FinalizedJob)
    (key : String) (status : ClosureStatus) : Prop :=
  ∃ other ∈ finalized, Relation.TransGen plan.Needs key other.logicalKey ∧
      status.covers other.commit.effectiveConclusion = true

section Search

variable {plan : WorkflowPlan} {finalized : List FinalizedJob}
variable {status : ClosureStatus} {key : String}

theorem upstream_iff :
    Upstream plan finalized key status ↔
      ∃ need, plan.Needs key need ∧ InClosure plan finalized status need := by
  constructor
  · rintro ⟨other, hother, hreach, hcovers⟩
    obtain ⟨need, hneed, hrest⟩ := Relation.TransGen.head'_iff.mp hreach
    exact ⟨need, hneed, other, hother, hrest, hcovers⟩
  · rintro ⟨need, hneed, other, hother, hrest, hcovers⟩
    exact ⟨other, hother, Relation.TransGen.head' hneed hrest, hcovers⟩

theorem inClosure_iff :
    InClosure plan finalized status key ↔ (∃ job ∈ finalized, job.logicalKey = key ∧
        status.covers job.commit.effectiveConclusion = true) ∨
      Upstream plan finalized key status := by
  constructor
  · rintro ⟨other, hother, hreach, hcovers⟩
    rcases Relation.reflTransGen_iff_eq_or_transGen.mp hreach with hkey | hreach
    · exact .inl ⟨other, hother, hkey, hcovers⟩
    · exact .inr ⟨other, hother, hreach, hcovers⟩
  · rintro (⟨job, hjob, rfl, hcovers⟩ | ⟨other, hother, hreach, hcovers⟩)
    · exact ⟨job, hjob, .refl, hcovers⟩
    · exact ⟨other, hother, hreach.to_reflTransGen, hcovers⟩

end Search

/-! ## Whole runs -/

namespace FinalizationRun

variable {codec : ResultCodec} {plan : WorkflowPlan}
variable {finalized : List FinalizedJob} {job : FinalizedJob}

section

variable (hrun : FinalizationRun codec plan finalized)

include hrun

theorem keys_nodup : (finalized.map FinalizedJob.logicalKey).Nodup := by
  induction hrun with
  | start => simp
  | finalize before hfinalizes ih =>
    rw [List.map_cons, List.nodup_cons]
    refine ⟨fun hmem => ?_, ih⟩
    obtain ⟨earlier, hearlier, hkey⟩ := List.mem_map.mp hmem
    exact hfinalizes.fresh earlier hearlier hkey

theorem conclusion (hjob : job ∈ finalized) :
    job.commit.effectiveConclusion =
      aggregateConclusion job.claimed.descriptor.instances := by
  induction hrun with
  | start => simp at hjob
  | finalize _ hfinalizes ih =>
    rcases List.mem_cons.mp hjob with rfl | hearlier
    · exact hfinalizes.conclusion
    · exact ih hearlier

theorem needs_finalized (hjob : job ∈ finalized) {need : String}
    (hneed : plan.Needs job.logicalKey need) :
    ∃ earlier ∈ finalized, earlier.logicalKey = need := by
  induction hrun with
  | start => simp at hjob
  | @finalize finalized latest before hfinalizes ih =>
    have hfound : ∃ earlier ∈ finalized, earlier.logicalKey = need := by
      rcases List.mem_cons.mp hjob with rfl | hearlier
      · exact hfinalizes.needs_finalized hneed
      · exact ih hearlier
    obtain ⟨earlier, hearlier, hkey⟩ := hfound
    exact ⟨earlier, List.mem_cons_of_mem _ hearlier, hkey⟩

theorem reachable_finalized (hjob : job ∈ finalized) {key : String}
    (hreach : Relation.ReflTransGen plan.Needs job.logicalKey key) :
    ∃ other ∈ finalized, other.logicalKey = key := by
  induction hreach with
  | refl => exact ⟨job, hjob, rfl⟩
  | tail _ hneed ih =>
    obtain ⟨other, hother, rfl⟩ := ih
    exact hrun.needs_finalized hother hneed

theorem inClosure_cons {latest : FinalizedJob} (hfinalizes : Finalizes codec plan finalized latest)
    (hjob : job ∈ finalized) (status : ClosureStatus) :
    InClosure plan (latest :: finalized) status job.logicalKey ↔
      InClosure plan finalized status job.logicalKey := by
  constructor
  · rintro ⟨other, hother, hreach, hcovers⟩
    obtain ⟨reached, hreached, hkey⟩ := hrun.reachable_finalized hjob hreach
    rcases List.mem_cons.mp hother with rfl | hearlier
    · exact absurd hkey (hfinalizes.fresh reached hreached)
    · exact ⟨other, hearlier, hreach, hcovers⟩
  · rintro ⟨other, hother, hreach, hcovers⟩
    exact ⟨other, List.mem_cons_of_mem _ hother, hreach, hcovers⟩

/-- The flags of a run say what a search of the whole graph finds. -/
theorem closureHas_iff_inClosure (hjob : job ∈ finalized) (status : ClosureStatus) :
    job.commit.closureHas status = true ↔ InClosure plan finalized status job.logicalKey := by
  induction hrun generalizing job with
  | start => simp at hjob
  | @finalize finalized latest before hfinalizes ih =>
    rcases List.mem_cons.mp hjob with rfl | hearlier
    · rw [hfinalizes.closureHas_iff before.keys_nodup, inClosure_iff, upstream_iff]
      refine or_congr ⟨?_, ?_⟩ ⟨?_, ?_⟩
      · intro hcovers
        exact ⟨job, List.mem_cons_self, rfl, hcovers⟩
      · rintro ⟨same, hsame, hkey, hcovers⟩
        rcases List.mem_cons.mp hsame with rfl | hsame
        · exact hcovers
        · exact absurd hkey (hfinalizes.fresh same hsame)
      · rintro ⟨need, hmem, hneed, hflag⟩
        exact ⟨need.logicalKey, hneed, (before.inClosure_cons hfinalizes hmem status).mpr
            ((ih hmem).mp hflag)⟩
      · rintro ⟨_, hneed, hclosure⟩
        obtain ⟨need, hmem, rfl⟩ := hfinalizes.needs_finalized hneed
        exact ⟨need, hmem, hneed, (ih hmem).mpr
          ((before.inClosure_cons hfinalizes hmem status).mp hclosure)⟩
    · rw [ih hearlier, before.inClosure_cons hfinalizes hearlier]

theorem activationEvidence (hjob : job ∈ finalized) :
    ∃ evidence, job.activationEvidence = .ok evidence := by
  induction hrun with
  | start => simp at hjob
  | finalize before hfinalizes ih =>
    rcases List.mem_cons.mp hjob with rfl | hearlier
    · exact hfinalizes.activationEvidence
    · exact ih hearlier

theorem evidence_reports (hjob : job ∈ finalized)
    {prerequisite : LogicalActivationPrerequisiteEvidence}
    (hevidence : job.activationEvidence = .ok prerequisite)
    (status : ClosureStatus) :
    (prerequisite.closureHas status = true ∨
        status.covers prerequisite.effectiveConclusion = true) ↔
      InClosure plan finalized status job.logicalKey := by
  obtain ⟨hconclusion, hflags⟩ := FinalizedJob.activationEvidence_eq_ok hevidence
  rw [hconclusion, hflags status, hrun.closureHas_iff_inClosure hjob]
  apply or_iff_left_of_imp
  intro hcovers
  exact ⟨job, hjob, .refl, hcovers⟩

/-- The status under which a job is activated is the one which a search of
its transitive prerequisites gives. -/
theorem activation_reports {key : String} {template : LogicalJobTemplate}
    (htemplate : plan.job key = some template)
    (hneeds : ∀ need ∈ template.needs, ∃ job ∈ finalized, job.logicalKey = need) :
    ∃ prerequisites, gatherActivationEvidence finalized template = .ok prerequisites ∧
        (aggregateStatus prerequisites).Reports (Upstream plan finalized key) := by
  let direct := finalized.filter fun job => decide (job.logicalKey ∈ template.needs)
  have hdirect (job : FinalizedJob) :
      job ∈ direct ↔ job ∈ finalized ∧ plan.Needs key job.logicalKey := by
    simp only [direct, List.mem_filter, decide_eq_true_eq]
    refine and_congr_right fun _ => ⟨fun hneed => ⟨_, htemplate, hneed⟩, ?_⟩
    rintro ⟨same, hsame, hneed⟩
    obtain rfl : template = same := Option.some.inj (htemplate.symm.trans hsame)
    exact hneed
  obtain ⟨prerequisites, hgathered⟩ := exists_mapM_eq_ok fun job (hjob : job ∈ direct) =>
      hrun.activationEvidence ((hdirect job).mp hjob).1
  refine ⟨prerequisites, hgathered, ?_⟩
  have hupstream (status : ClosureStatus) :
      (∃ prerequisite ∈ prerequisites, prerequisite.closureHas status = true ∨
          status.covers prerequisite.effectiveConclusion = true) ↔
      Upstream plan finalized key status := by
    simp only [mem_of_mapM_eq_ok hgathered, upstream_iff]
    constructor
    · rintro ⟨prerequisite, ⟨job, hjob, hevidence⟩, hmet⟩
      obtain ⟨hmem, hneed⟩ := (hdirect job).mp hjob
      exact ⟨job.logicalKey, hneed, (hrun.evidence_reports hmem hevidence status).mp hmet⟩
    · rintro ⟨_, hneed, hclosure⟩
      obtain ⟨same, hsame, hlisted⟩ := hneed
      obtain rfl : template = same := Option.some.inj (htemplate.symm.trans hsame)
      obtain ⟨job, hmem, rfl⟩ := hneeds _ hlisted
      obtain ⟨prerequisite, hevidence⟩ := hrun.activationEvidence hmem
      have hjob : job ∈ direct := (hdirect job).mpr ⟨hmem, template, htemplate, hlisted⟩
      exact ⟨prerequisite, ⟨job, hjob, hevidence⟩,
        (hrun.evidence_reports hmem hevidence status).mpr hclosure⟩
  have hreports := aggregateStatus_reports prerequisites
  simp only [hupstream] at hreports
  exact hreports

end

/-- Along every run a job concludes what its instances do, the closure flags
are exact, and so is the status under which any job with finalized needs is
activated. -/
theorem status_propagates (hrun : FinalizationRun codec plan finalized) :
    (∀ job ∈ finalized, job.commit.effectiveConclusion =
        aggregateConclusion job.claimed.descriptor.instances) ∧
    (∀ job ∈ finalized, ∀ status, job.commit.closureHas status = true ↔
        InClosure plan finalized status job.logicalKey) ∧
    ∀ key template, plan.job key = some template → (∀ need ∈ template.needs,
        ∃ job ∈ finalized, job.logicalKey = need) →
      ∃ prerequisites, gatherActivationEvidence finalized template = .ok prerequisites ∧
          (aggregateStatus prerequisites).Reports (Upstream plan finalized key) :=
  ⟨fun _ => hrun.conclusion, fun _ hjob status => hrun.closureHas_iff_inClosure hjob status,
    fun _ _ htemplate hneeds => hrun.activation_reports htemplate hneeds⟩

end FinalizationRun

namespace FinalizationRun.Sample

def template (key : String) (sourceOrder : Nat) (needs : List String)
    (needsDistinct : needs.Nodup) (needsBounded : needs.length ≤ 128) :
    LogicalJobTemplate :=
  { key
    sourceOrder
    needs
    hasStrategy := false
    permissions := none
    outputs := []
    execution := .steps
    needsDistinct
    needsBounded
    outputsDistinct := List.nodup_nil
    outputsBounded := Nat.zero_le _ }

def plan : WorkflowPlan :=
  { invocation := none
    permissions := none
    jobs :=
      [template "build" 0 [] List.nodup_nil (by decide),
        template "test" 1 ["build"] (List.nodup_singleton _) (by decide)]
    keysDistinct := by decide }

def codec : ResultCodec :=
  { descriptorDigest := fun _ => ⟨0⟩
    sha256 := fun _ => ⟨0⟩
    decodePlan := fun _ => some plan
    encodePlan := fun _ => some [] }

def target (job : Nat) : LogicalJobResultTarget :=
  ⟨"tenant", ⟨1⟩, ⟨2⟩, ⟨⟨BitVec.ofNat 128 job⟩⟩⟩

def planObject : AdmissionObject :=
  ⟨⟨0⟩, "plan", 0, logicalJobResultPlanMediaType⟩

def claim (job : Nat) : LogicalJobResultClaimFence :=
  ⟨target job, ⟨3⟩, 1, ⟨0⟩, ⟨10⟩, ⟨20⟩⟩

def failedInstance : LogicalJobInstanceResultEvidence :=
  ⟨0, 1, .failure, .failure, [], ⟨5⟩⟩

def build : FinalizedJob :=
  { claimed :=
      { descriptor :=
          ⟨target 1, "build", 0, planObject, ⟨0⟩, true, 1, [failedInstance],
            [], ⟨5⟩⟩
        claim := claim 1
        replayed := false }
    commit := ⟨claim 1, .failure, true, false, false, [], ⟨10⟩⟩ }

def buildEvidence : LogicalJobPrerequisiteEvidence :=
  ⟨⟨⟨1⟩⟩, "build", 0, .failure, true, false, false, ⟨10⟩⟩

def test : FinalizedJob :=
  { claimed :=
      { descriptor :=
          ⟨target 2, "test", 1, planObject, ⟨0⟩, false, 0, [],
            [buildEvidence], ⟨10⟩⟩
        claim := claim 2
        replayed := false }
    commit := ⟨claim 2, .skipped, true, false, true, [], ⟨10⟩⟩ }

theorem build_finalizes : Finalizes codec plan [] build where
  fresh := by simp
  described :=
    ⟨target 1, "build", 0, planObject, ⟨0⟩, true, 1, [failedInstance], [], ⟨5⟩, by simp, rfl⟩
  claimed := ⟨build.claimed.descriptor, claim 1, false, rfl⟩
  committed := ⟨[], ⟨10⟩, rfl⟩

theorem test_finalizes : Finalizes codec plan [build] test where
  fresh := by
    rw [List.forall_mem_singleton]
    decide
  described := ⟨target 2, "test", 1, planObject, ⟨0⟩, false, 0, [], [buildEvidence],
      ⟨5⟩, List.forall_mem_singleton.mpr ⟨build, by simp, rfl⟩, rfl⟩
  claimed := ⟨test.claimed.descriptor, claim 2, false, rfl⟩
  committed := ⟨[], ⟨10⟩, rfl⟩

theorem run : FinalizationRun codec plan [test, build] :=
  .finalize (.finalize .start build_finalizes) test_finalizes

end FinalizationRun.Sample

theorem FinalizationRun.status_propagates_test :
    Sample.test.commit.closureHas .failure = true ∧
      InClosure Sample.plan [Sample.test, Sample.build] .failure "test" := by
  have hflags := (FinalizationRun.status_propagates Sample.run).2.1 Sample.test
    List.mem_cons_self .failure
  exact ⟨rfl, hflags.mp rfl⟩

end AutomataCi
