import AutomataCi.PermissionResolution
import AutomataCi.ReusableSecrets

/-!
# Expansion of reusable workflows

A workflow plan may call other workflows, which may call others in turn.  One
traversal walks the call graph and hands every invocation and every call to a
policy.  The materialized policy lists the invocations with their identities,
permissions and secret edges.  The traversal carries the active path, which
rejects cycles, and the totals, which are checked at every entry.

The catalog, the derivation of identities and the checks of the root source
are parameters.  Cancellation is left out: the expansion never cancels.
-/

namespace AutomataCi

open GuardedResult

structure ReusableWorkflowPermissions where
  default : PermissionLevel
  grants : PermissionMap
  deriving DecidableEq

def permissionsFromRequest : WorkflowPermissions → ReusableWorkflowPermissions
  | .readAll => ⟨.read, .empty⟩
  | .writeAll => ⟨.write, .empty⟩
  | .mapping grants =>
    ⟨.none, .ofList ((grants.map fun grant => (grant.name, grant.level)).filter
      fun grant => decide (grant.2 ≠ .none))⟩

namespace ReusableWorkflowPermissions

def level (self : ReusableWorkflowPermissions) (name : String) : PermissionLevel :=
  (self.grants.get name).getD self.default

end ReusableWorkflowPermissions

def intersectPermissions (left right : ReusableWorkflowPermissions) : ReusableWorkflowPermissions :=
  let default := minimumPermission left.default right.default
  { default
    grants :=
      .tabulate (left.grants.keys.union right.grants.keys) fun name =>
        let level := minimumPermission (left.level name) (right.level name)
        if level ≠ default then some level else none }

def ReusableWorkflowPermissions.reduce (self : ReusableWorkflowPermissions) :
    Option WorkflowPermissions → ReusableWorkflowPermissions
  | none => self
  | some request => intersectPermissions self (permissionsFromRequest request)

inductive ReusableInputBindingSource where
  | caller (value : CompiledValueTemplate)
  | default (value : InvocationInputDefault)
  | implicitDefault
  deriving DecidableEq, Repr

structure ExpandedReusableInput where
  target : String
  inputType : InvocationInputType
  source : ReusableInputBindingSource
  deriving DecidableEq, Repr

structure ExpandedReusableOutput where
  key : String
  sensitivity : OutputSensitivity
  deriving DecidableEq, Repr

structure ExpandedReusableOutputMapping where
  (parentKey childKey : String)
  sensitivity : OutputSensitivity
  deriving DecidableEq, Repr

def staticallyKnownInputType : CompiledValueTemplate → Option InvocationInputType
  | .literal _ => some .string
  | .expression [.evaluation _] [program] =>
    match program.instructions with
    | [.literal (.boolean _)] => some .boolean
    | [.literal (.number _)] => some .number
    | [.literal (.string _)] => some .string
    | _ => none
  | .expression [.evaluation _] _ => none
  | .expression _ _ => some .string

def validateInputBinding (contract : WorkflowInvocationContract) (binding : ReusableInputBinding) :
    Except ReusableWorkflowExpansionError Unit := do
  let definition ← okOr (contract.inputs.find? fun definition => definition.key = binding.target)
    (.unknownInput binding.target)
  rejectIf (∃ inputType ∈ staticallyKnownInputType binding.value, inputType ≠ definition.inputType)
    (.inputTypeMismatch binding.target)

def inputSource (call : ReusableWorkflowInvocation) (definition : InvocationInputDefinition) :
    Except ReusableWorkflowExpansionError ReusableInputBindingSource :=
  match call.inputs.find? fun binding => binding.target = definition.key with
  | some binding => .ok (.caller binding.value)
  | none =>
    match definition.default with
    | some value => .ok (.default value)
    | none =>
      if definition.required then
        .error (.missingRequiredInput definition.key)
      else .ok .implicitDefault

def validateInputs (call : ReusableWorkflowInvocation) (contract : WorkflowInvocationContract) :
    Except ReusableWorkflowExpansionError (List ExpandedReusableInput) := do
  call.inputs.forM (validateInputBinding contract)
  contract.inputs.mapM fun definition => do
    let source ← inputSource call definition
    return ⟨definition.key, definition.inputType, source⟩

def validateCallOutput (contract : WorkflowInvocationContract)
    (output : LogicalJobOutputDefinition) :
    Except ReusableWorkflowExpansionError ExpandedReusableOutputMapping :=
  match output.source with
  | .template _ => .error (.unknownOutput output.key)
  | .invocationOutput key => do
      let callee ← okOr (contract.outputs.find? fun definition => definition.key = key)
        (.unknownOutput key)
      rejectIf (output.sensitivity = .publicOutput ∧ callee.sensitivity = .secretDerived)
        (.outputSensitivityReduction key)
      return ⟨output.key, key, output.sensitivity⟩

def validateCallOutputs (callOutputs : List LogicalJobOutputDefinition)
    (contract : WorkflowInvocationContract) :
    Except ReusableWorkflowExpansionError (List ExpandedReusableOutputMapping) :=
  callOutputs.mapM (validateCallOutput contract)

def contractOutputs (contract : WorkflowInvocationContract) : List ExpandedReusableOutput :=
  contract.outputs.map fun output => ⟨output.key, output.sensitivity⟩

structure ReusableWorkflowLimits where
  (maximumDepth maximumInvocations maximumJobs : Nat)
  deriving DecidableEq, Repr

structure ResolvedCatalogEntry where
  path : String
  plan : WorkflowPlan
  (sourceDigest planDigest : Sha256Digest)
  deriving DecidableEq

structure ReusableWorkflowCatalog where
  resolve : String → Except ReusableWorkflowExpansionError ResolvedCatalogEntry
  validatePlanOrigin : ResolvedCatalogEntry → Except ReusableWorkflowExpansionError Unit

structure TraversalNode where
  workflowPath : String
  plan : WorkflowPlan
  depth : Nat
  (sourceDigest planDigest : Sha256Digest)
  root : Bool
  deriving DecidableEq

def ResolvedCatalogEntry.toNode (self : ResolvedCatalogEntry) (depth : Nat) : TraversalNode :=
  { workflowPath := self.path
    plan := self.plan
    depth
    sourceDigest := self.sourceDigest
    planDigest := self.planDigest
    root := false }

structure TraversalEdge where
  job : LogicalJobTemplate
  call : ReusableWorkflowInvocation
  callee : ResolvedCatalogEntry
  contract : WorkflowInvocationContract
  inputs : List ExpandedReusableInput
  outputs : List ExpandedReusableOutputMapping
  deriving DecidableEq

/-- A policy with its own state `σ`, which the traversal threads through. -/
structure CredentialTraversalPolicy
    (σ Seed State Edge Output : Type) where
  enter : σ → TraversalNode → Seed → Except ReusableWorkflowExpansionError (State × σ)
  prepareEdge : σ → State → TraversalEdge →
    Except ReusableWorkflowExpansionError ((Seed × Edge) × σ)
  finishEdge : σ → State → Edge → Output → Except ReusableWorkflowExpansionError (State × σ)
  finish : σ → State → Except ReusableWorkflowExpansionError (Output × σ)

structure TraversalProgress (σ : Type) where
  (invocationCount jobCount : Nat)
  policy : σ
  deriving DecidableEq, Repr

section Traversal

variable {σ Seed State Edge Output : Type}
variable (policy : CredentialTraversalPolicy σ Seed State Edge Output)
variable (catalog : ReusableWorkflowCatalog)
variable (limits : ReusableWorkflowLimits)

def resolveEdge (activePaths : List String) (job : LogicalJobTemplate)
    (call : ReusableWorkflowInvocation) :
    Except ReusableWorkflowExpansionError TraversalEdge := do
  rejectIf (job.hasStrategy = true) .matrixCallUnsupported
  let callee ← catalog.resolve call.reference
  rejectIf (callee.path ∈ activePaths) (.cycle callee.path)
  catalog.validatePlanOrigin callee
  let contract ← okOr callee.plan.invocation (.missingInvocationContract callee.path)
  let inputs ← validateInputs call contract
  let outputs ← validateCallOutputs job.outputs contract
  return { job, call, callee, contract, inputs, outputs }

def traverseJob (recurse : TraversalNode → Seed → List String → TraversalProgress σ →
      Except ReusableWorkflowExpansionError (Output × TraversalProgress σ))
    (node : TraversalNode) (activePaths : List String)
    (current : State × TraversalProgress σ) (job : LogicalJobTemplate) :
    Except ReusableWorkflowExpansionError (State × TraversalProgress σ) :=
  match job.execution with
  | .steps => .ok current
  | .reusableWorkflow call => do
      let (state, progress) := current
      let edge ← resolveEdge catalog activePaths job call
      let ((seed, prepared), prepareState) ← policy.prepareEdge progress.policy state edge
      let (child, progress) ← recurse (edge.callee.toNode (node.depth + 1)) seed activePaths
          { progress with policy := prepareState }
      let (state, finished) ← policy.finishEdge progress.policy state prepared child
      return (state, { progress with policy := finished })

def traverseEntry (recurse : TraversalNode → Seed → List String → TraversalProgress σ →
      Except ReusableWorkflowExpansionError (Output × TraversalProgress σ))
    (node : TraversalNode) (seed : Seed) (activePaths : List String)
    (progress : TraversalProgress σ) :
    Except ReusableWorkflowExpansionError (Output × TraversalProgress σ) := do
  rejectIf (limits.maximumDepth < node.depth) .depthLimitExceeded
  let invocationCount := progress.invocationCount + 1
  rejectIf (limits.maximumInvocations < invocationCount) .invocationLimitExceeded
  let jobCount := progress.jobCount + node.plan.jobs.length
  rejectIf (limits.maximumJobs < jobCount) .jobLimitExceeded
  rejectIf (node.workflowPath ∈ activePaths) (.cycle node.workflowPath)
  let (state, entered) ← policy.enter progress.policy node seed
  let (state, progress) ← node.plan.jobs.foldlM (traverseJob policy catalog recurse node
        (node.workflowPath :: activePaths))
      (state, ⟨invocationCount, jobCount, entered⟩)
  let (output, finished) ← policy.finish progress.policy state
  return (output, { progress with policy := finished })

/-- The traversal with the depths that are left.  With none left the depth
exceeds the limit, which is the first thing the body checks. -/
def traverseWithin : Nat → TraversalNode → Seed → List String → TraversalProgress σ →
    Except ReusableWorkflowExpansionError (Output × TraversalProgress σ)
  | 0 => fun _ _ _ _ => .error .depthLimitExceeded
  | remaining + 1 => traverseEntry policy catalog limits (traverseWithin remaining)

def traverseReusableInvocation (node : TraversalNode) (seed : Seed)
    (activePaths : List String) (progress : TraversalProgress σ) :
    Except ReusableWorkflowExpansionError (Output × TraversalProgress σ) :=
  traverseWithin policy catalog limits
    (limits.maximumDepth + 1 - node.depth) node seed activePaths progress

end Traversal

structure ExpandedReusableJob where
  id : Uuid
  key : String
  sourceOrder : Nat
  reusable : Bool
  prerequisites : List Uuid
  deriving DecidableEq, Repr

structure ReusableWorkflowInvocationExpansion where
  id : Uuid
  (parentId callerJobId : Option Uuid)
  depth : Nat
  workflowPath : String
  (sourceDigest planDigest : Sha256Digest)
  permissions : ReusableWorkflowPermissions
  inputs : List ExpandedReusableInput
  secrets : List ExpandedReusableSecret
  outputs : List ExpandedReusableOutput
  callerOutputs : List ExpandedReusableOutputMapping
  jobs : List ExpandedReusableJob
  deriving DecidableEq

/-- The derivation of identities from the run, the caller and the callee.
A derived value which is no identity is absent. -/
structure ReusableIdentities where
  derivedRootJobId : Uuid → String → Option Uuid
  derivedJobId : Uuid → Uuid → String → Option Uuid
  derivedInvocationId : Uuid → Uuid → Uuid → String → Sha256Digest → Option Uuid

structure ExpansionContext where
  runId : Uuid
  (invocationIds jobIds : List Uuid)
  invocations : List ReusableWorkflowInvocationExpansion
  deriving DecidableEq

structure MaterializedTraversalSeed where
  id : Uuid
  (parentId callerJobId : Option Uuid)
  permissions : ReusableWorkflowPermissions
  inputs : List ExpandedReusableInput
  secrets : List ExpandedReusableSecret
  availableSecretNames : OrderedSet String
  outputs : List ExpandedReusableOutput
  callerOutputs : List ExpandedReusableOutputMapping
  deriving DecidableEq

structure MaterializedTraversalState where
  invocationIndex : Nat
  id : Uuid
  permissions : ReusableWorkflowPermissions
  availableSecretNames : OrderedSet String
  deriving DecidableEq

def maxU16 : Nat :=
  65535

def LogicalJobTemplate.isReusableCall (self : LogicalJobTemplate) : Bool :=
  match self.execution with
  | .steps => false
  | .reusableWorkflow _ => true

section Materialized

variable (identities : ReusableIdentities)

def jobIdentity (runId invocationId : Uuid) (root : Bool) (key : String) :
    Except ReusableWorkflowExpansionError Uuid :=
  okOr (if root then identities.derivedRootJobId runId key
      else identities.derivedJobId runId invocationId key)
    .invalidIdentity

def assignJobId (runId invocationId : Uuid) (root : Bool)
    (assigned : List Uuid × List (String × Uuid)) (job : LogicalJobTemplate) :
    Except ReusableWorkflowExpansionError (List Uuid × List (String × Uuid)) := do
  let id ← jobIdentity identities runId invocationId root job.key
  rejectIf (id ∈ assigned.1) .identityCollision
  return (id :: assigned.1, assigned.2 ++ [(job.key, id)])

def assignedId (ids : List (String × Uuid)) (key : String) :
    Except ReusableWorkflowExpansionError Uuid :=
  okOr ((KeyedList.lookup Prod.fst key ids).map Prod.snd) .invalidIdentity

def expandedJob (ids : List (String × Uuid)) (job : LogicalJobTemplate) :
    Except ReusableWorkflowExpansionError ExpandedReusableJob := do
  let id ← assignedId ids job.key
  let prerequisites ← job.needs.mapM (assignedId ids)
  rejectIf (maxU16 < job.sourceOrder) .sourceOrderOverflow
  return {
    id
    key := job.key
    sourceOrder := job.sourceOrder
    reusable := job.isReusableCall
    prerequisites }

def expandedJobs (context : ExpansionContext) (invocationId : Uuid)
    (plan : WorkflowPlan) (root : Bool) :
    Except ReusableWorkflowExpansionError (List ExpandedReusableJob × ExpansionContext) := do
  let (jobIds, ids) ← plan.jobs.foldlM (assignJobId identities context.runId invocationId root)
      (context.jobIds, [])
  let jobs ← plan.jobs.mapM (expandedJob ids)
  return (jobs, { context with jobIds })

namespace MaterializedCredentialPolicy

def recordedInvocation (node : TraversalNode)
    (seed : MaterializedTraversalSeed) (jobs : List ExpandedReusableJob) :
    ReusableWorkflowInvocationExpansion :=
  { id := seed.id
    parentId := seed.parentId
    callerJobId := seed.callerJobId
    depth := node.depth
    workflowPath := node.workflowPath
    sourceDigest := node.sourceDigest
    planDigest := node.planDigest
    permissions := seed.permissions
    inputs := seed.inputs
    secrets := seed.secrets
    outputs := seed.outputs
    callerOutputs := seed.callerOutputs
    jobs }

def enter (context : ExpansionContext) (node : TraversalNode) (seed : MaterializedTraversalSeed) :
    Except ReusableWorkflowExpansionError (MaterializedTraversalState × ExpansionContext) := do
  let (jobs, context) ← expandedJobs identities context seed.id node.plan node.root
  rejectIf (maxU16 < node.depth) .depthLimitExceeded
  return ({
    invocationIndex := context.invocations.length
    id := seed.id
    permissions := seed.permissions
    availableSecretNames := seed.availableSecretNames },
    { context with
      invocations := context.invocations ++ [recordedInvocation node seed jobs] })

def prepareEdge (context : ExpansionContext)
    (parent : MaterializedTraversalState) (edge : TraversalEdge) :
    Except ReusableWorkflowExpansionError
      ((MaterializedTraversalSeed × Unit) × ExpansionContext) := do
  let secrets ← validateSecrets edge.call edge.contract parent.availableSecretNames
  let invocation ← okOr context.invocations[parent.invocationIndex]? .invalidIdentity
  let callerJob ← okOr (invocation.jobs.find? fun expanded => expanded.key = edge.job.key)
    .invalidIdentity
  let invocationId ← okOr (identities.derivedInvocationId context.runId parent.id callerJob.id
      edge.callee.path edge.callee.sourceDigest)
    .invalidIdentity
  rejectIf (invocationId ∈ context.invocationIds) .identityCollision
  return (({
    id := invocationId
    parentId := some parent.id
    callerJobId := some callerJob.id
    permissions :=
      (parent.permissions.reduce edge.job.permissions).reduce edge.callee.plan.permissions
    inputs := edge.inputs
    secrets
    availableSecretNames := .ofList (secrets.map ExpandedReusableSecret.target)
    outputs := contractOutputs edge.contract
    callerOutputs := edge.outputs }, ()),
    { context with invocationIds := invocationId :: context.invocationIds })

end MaterializedCredentialPolicy

def materializedCredentialPolicy :
    CredentialTraversalPolicy ExpansionContext MaterializedTraversalSeed
      MaterializedTraversalState Unit Unit where
  enter := MaterializedCredentialPolicy.enter identities
  prepareEdge := MaterializedCredentialPolicy.prepareEdge identities
  finishEdge context parent _ _ := .ok (parent, context)
  finish context _ := .ok ((), context)

end Materialized

structure ExpandReusableWorkflowRequest where
  (runId rootInvocationId : Uuid)
  rootPath : String
  rootPlan : WorkflowPlan
  (rootSourceDigest rootPlanDigest : Sha256Digest)
  rootSecretNames : OrderedSet String
  rootPermissions : ReusableWorkflowPermissions
  deriving DecidableEq

structure ReusableWorkflowExpansion where
  (runId rootInvocationId : Uuid)
  digest : Sha256Digest
  invocations : List ReusableWorkflowInvocationExpansion
  deriving DecidableEq

/-- What the expansion relies on: the catalog, the identities, the check of
the root source against its plan, and the digest of the result. -/
structure ExpansionEnvironment where
  catalog : ReusableWorkflowCatalog
  identities : ReusableIdentities
  verifyRoot : ExpandReusableWorkflowRequest → Except ReusableWorkflowExpansionError Unit
  expansionDigest : ExpandReusableWorkflowRequest → List ReusableWorkflowInvocationExpansion →
      Except ReusableWorkflowExpansionError Sha256Digest

namespace ExpandReusableWorkflowRequest

variable (self : ExpandReusableWorkflowRequest)

def rootNode : TraversalNode :=
  { workflowPath := self.rootPath
    plan := self.rootPlan
    depth := 0
    sourceDigest := self.rootSourceDigest
    planDigest := self.rootPlanDigest
    root := true }

def rootSeed : MaterializedTraversalSeed :=
  { id := self.rootInvocationId
    parentId := none
    callerJobId := none
    permissions := self.rootPermissions.reduce self.rootPlan.permissions
    inputs := []
    secrets := []
    availableSecretNames := self.rootSecretNames
    outputs :=
      match self.rootPlan.invocation with
      | none => []
      | some contract => contractOutputs contract
    callerOutputs := [] }

def rootContext : ExpansionContext :=
  { runId := self.runId
    invocationIds := [self.rootInvocationId]
    jobIds := []
    invocations := [] }

end ExpandReusableWorkflowRequest

def expandReusableWorkflow (environment : ExpansionEnvironment)
    (request : ExpandReusableWorkflowRequest)
    (limits : ReusableWorkflowLimits) :
    Except ReusableWorkflowExpansionError ReusableWorkflowExpansion := do
  environment.verifyRoot request
  let (_, progress) ← traverseReusableInvocation
      (materializedCredentialPolicy environment.identities)
      environment.catalog limits request.rootNode request.rootSeed []
      ⟨0, 0, request.rootContext⟩
  let digest ← environment.expansionDigest request progress.policy.invocations
  return {
    runId := request.runId
    rootInvocationId := request.rootInvocationId
    digest
    invocations := progress.policy.invocations }

end AutomataCi
