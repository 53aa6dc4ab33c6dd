import AutomataCi.CoreValues
import AutomataCi.ExpressionPrograms
import AutomataCi.OrderedSet
import Mathlib.Data.String.Basic

/-!
# Logical workflow plans

The part of a logical workflow plan which admission, activation and result
finalization read: jobs with their needs, outputs, permissions and execution,
and the contract under which a workflow can be called by another.  A valid
plan has distinct job keys, lists every need of a job once and defines every
output of a job once.
-/

namespace AutomataCi

def toAsciiUppercase (text : String) : String :=
  String.ofList (text.toList.map Char.toUpper)

def eqIgnoreAsciiCase (left right : String) : Bool :=
  decide (toAsciiUppercase left = toAsciiUppercase right)

@[simp] theorem eqIgnoreAsciiCase_iff {left right : String} :
    eqIgnoreAsciiCase left right = true ↔ toAsciiUppercase left = toAsciiUppercase right := by
  simp [eqIgnoreAsciiCase]

inductive ExpressionSegment where
  | literal (source : String)
  | evaluation (source : String)
  deriving DecidableEq, Repr

inductive CompiledValueTemplate where
  | literal (value : String)
  | expression (segments : List ExpressionSegment)
      (programs : List ExpressionProgram)
  deriving DecidableEq, Repr

inductive PermissionLevel where
  | read | write | none
  deriving DecidableEq, Repr

structure PermissionGrant where
  name : String
  level : PermissionLevel
  deriving DecidableEq, Repr

inductive WorkflowPermissions where
  | readAll
  | writeAll
  | mapping (grants : List PermissionGrant)
  deriving DecidableEq, Repr

inductive OutputSensitivity where
  | publicOutput | secretDerived
  deriving DecidableEq, Repr

inductive InvocationInputType where
  | boolean | number | string
  deriving DecidableEq, Repr

inductive InvocationInputDefault where
  | boolean (value : Bool)
  | number (value : String)
  | string (value : String)
  deriving DecidableEq, Repr

structure InvocationInputDefinition where
  key : String
  inputType : InvocationInputType
  required : Bool
  default : Option InvocationInputDefault
  deriving DecidableEq, Repr

structure InvocationSecretDefinition where
  key : String
  required : Bool
  deriving DecidableEq, Repr

structure WorkflowOutputDefinition where
  key : String
  sensitivity : OutputSensitivity
  deriving DecidableEq, Repr

/-- A contract whose names are unique within each of its namespaces. -/
structure WorkflowInvocationContract where
  inputs : List InvocationInputDefinition
  secrets : List InvocationSecretDefinition
  outputs : List WorkflowOutputDefinition
  inputsDistinct : (inputs.map InvocationInputDefinition.key).Nodup
  secretsDistinct : (secrets.map InvocationSecretDefinition.key).Nodup
  outputsDistinct : (outputs.map WorkflowOutputDefinition.key).Nodup
  deriving DecidableEq

structure ReusableInputBinding where
  target : String
  value : CompiledValueTemplate
  deriving DecidableEq, Repr

structure ReusableSecretBinding where
  (target source : String)
  deriving DecidableEq, Repr

/-- Forwarding by explicit bindings, each target once, or by inheritance. -/
inductive ReusableSecretForwarding where
  | mapping (bindings : List ReusableSecretBinding)
      (distinct : (bindings.map ReusableSecretBinding.target).Nodup)
  | inherit
  deriving DecidableEq

structure ReusableWorkflowInvocation where
  reference : String
  inputs : List ReusableInputBinding
  secrets : ReusableSecretForwarding
  inputsDistinct : (inputs.map ReusableInputBinding.target).Nodup
  deriving DecidableEq

inductive LogicalJobKind where
  | steps
  | reusableWorkflow (call : ReusableWorkflowInvocation)
  deriving DecidableEq

inductive LogicalOutputMergePolicy where
  | singleInstance | lastSuccessfulCompletion
  deriving DecidableEq, Repr

inductive LogicalJobOutputSource where
  | template (value : CompiledValueTemplate)
  | invocationOutput (key : String)
  deriving DecidableEq, Repr

structure LogicalJobOutputDefinition where
  key : String
  source : LogicalJobOutputSource
  merge : LogicalOutputMergePolicy
  sensitivity : OutputSensitivity
  deriving DecidableEq, Repr

def maxLogicalJobNeeds : Nat :=
  128

def maxLogicalJobOutputs : Nat :=
  256

structure LogicalJobTemplate where
  key : String
  sourceOrder : Nat
  needs : List String
  hasStrategy : Bool
  permissions : Option WorkflowPermissions
  outputs : List LogicalJobOutputDefinition
  execution : LogicalJobKind
  needsDistinct : needs.Nodup
  needsBounded : needs.length ≤ maxLogicalJobNeeds
  outputsDistinct : (outputs.map LogicalJobOutputDefinition.key).Nodup
  outputsBounded : outputs.length ≤ maxLogicalJobOutputs
  deriving DecidableEq

structure WorkflowPlan where
  invocation : Option WorkflowInvocationContract
  permissions : Option WorkflowPermissions
  jobs : List LogicalJobTemplate
  keysDistinct : (jobs.map LogicalJobTemplate.key).Nodup
  deriving DecidableEq

namespace WorkflowPlan

def job (self : WorkflowPlan) (key : String) : Option LogicalJobTemplate :=
  self.jobs.find? fun job => job.key = key

end WorkflowPlan

end AutomataCi
