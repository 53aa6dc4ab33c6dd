import AutomataCi.CoreValues
import AutomataCi.OrderedSet
import Mathlib.Data.String.Basic
import Mathlib.Data.Prod.Lex

/-!
# Runner capabilities and requirements

The capability advertisement of a runner, the typed requirements of a job, and
`satisfies`, which compares the two and reports every mismatch.  A selector, a
feature or a profile is ordered as its text is; sets of them are ordered sets.

An advertisement meets a requirement when it passes every comparison.  The
comparison returns an empty list of mismatches in exactly that case.
-/

namespace AutomataCi

open GuardedResult

theorem Uuid.toNat_injective : Function.Injective fun uuid : Uuid => uuid.bits.toNat := by
  rintro ⟨left⟩ ⟨right⟩ heq
  exact congrArg Uuid.mk (BitVec.eq_of_toNat_eq heq)

instance : LinearOrder Uuid :=
  LinearOrder.lift' (fun uuid => uuid.bits.toNat) Uuid.toNat_injective

instance : LinearOrder AttemptId :=
  LinearOrder.lift' AttemptId.uuid (by rintro ⟨left⟩ ⟨right⟩ heq; exact congrArg AttemptId.mk heq)

instance : LinearOrder RunnerId :=
  LinearOrder.lift' RunnerId.uuid (by rintro ⟨left⟩ ⟨right⟩ heq; exact congrArg RunnerId.mk heq)

instance : LinearOrder UnixMillis :=
  LinearOrder.lift' UnixMillis.get (by rintro ⟨left⟩ ⟨right⟩ heq; exact congrArg UnixMillis.mk heq)

theorem Sha256Digest.toNat_injective :
    Function.Injective fun digest : Sha256Digest => digest.bits.toNat := by
  rintro ⟨left⟩ ⟨right⟩ heq
  exact congrArg Sha256Digest.mk (BitVec.eq_of_toNat_eq heq)

instance : LinearOrder Sha256Digest :=
  LinearOrder.lift' (fun digest => digest.bits.toNat) Sha256Digest.toNat_injective

structure RunnerLabel where
  asStr : String
  deriving DecidableEq, Repr

instance : LinearOrder RunnerLabel :=
  LinearOrder.lift' RunnerLabel.asStr
    (by rintro ⟨left⟩ ⟨right⟩ heq; exact congrArg RunnerLabel.mk heq)

structure RunnerGroup where
  asStr : String
  deriving DecidableEq, Repr

instance : LinearOrder RunnerGroup :=
  LinearOrder.lift' RunnerGroup.asStr
    (by rintro ⟨left⟩ ⟨right⟩ heq; exact congrArg RunnerGroup.mk heq)

structure SandboxFeature where
  asStr : String
  deriving DecidableEq, Repr

instance : LinearOrder SandboxFeature :=
  LinearOrder.lift' SandboxFeature.asStr
    (by rintro ⟨left⟩ ⟨right⟩ heq; exact congrArg SandboxFeature.mk heq)

structure ContainerFeature where
  asStr : String
  deriving DecidableEq, Repr

instance : LinearOrder ContainerFeature :=
  LinearOrder.lift' ContainerFeature.asStr
    (by rintro ⟨left⟩ ⟨right⟩ heq; exact congrArg ContainerFeature.mk heq)

structure RunnerFeature where
  asStr : String
  deriving DecidableEq, Repr

instance : LinearOrder RunnerFeature :=
  LinearOrder.lift' RunnerFeature.asStr
    (by rintro ⟨left⟩ ⟨right⟩ heq; exact congrArg RunnerFeature.mk heq)

structure EnvironmentProfile where
  id : String
  digest : Sha256Digest
  deriving DecidableEq, Repr

instance : LinearOrder EnvironmentProfile :=
  LinearOrder.lift' (fun profile => toLex (profile.id, profile.digest)) (by
      rintro ⟨leftId, leftDigest⟩ ⟨rightId, rightDigest⟩ heq
      obtain ⟨hid, hdigest⟩ := Prod.mk.inj (toLex.injective heq)
      exact congrArg₂ EnvironmentProfile.mk hid hdigest)

inductive OperatingSystem where
  | linux
  | windows
  | macos
  | other (name : String)
  deriving DecidableEq, Repr

inductive Architecture where
  | x86_64
  | aarch64
  | other (name : String)
  deriving DecidableEq, Repr

structure RunnerPlatform where
  operatingSystem : OperatingSystem
  architecture : Architecture
  deriving DecidableEq, Repr

inductive IsolationLevel where
  | process | sharedKernel | virtualMachine
  deriving DecidableEq, Repr

namespace IsolationLevel

def rank : IsolationLevel → Nat
  | process => 0
  | sharedKernel => 1
  | virtualMachine => 2

theorem rank_injective : Function.Injective rank := by
  intro left right heq
  cases left <;> cases right <;> first | rfl | cases heq

instance : LinearOrder IsolationLevel :=
  LinearOrder.lift' rank rank_injective

end IsolationLevel

inductive ResourceKind where
  | cpuMillis | memoryBytes | ephemeralDiskBytes | gpuCount
  deriving DecidableEq, Repr

structure ResourceCapacity where
  (cpuMillis memoryBytes ephemeralDiskBytes gpuCount : Nat)
  deriving DecidableEq, Repr

namespace ResourceCapacity

def default : ResourceCapacity :=
  ⟨0, 0, 0, 0⟩

def fitsWithin (self available : ResourceCapacity) : Bool :=
  decide (self.cpuMillis ≤ available.cpuMillis) &&
    decide (self.memoryBytes ≤ available.memoryBytes) &&
    decide (self.ephemeralDiskBytes ≤ available.ephemeralDiskBytes) &&
    decide (self.gpuCount ≤ available.gpuCount)

theorem fitsWithin_iff {self available : ResourceCapacity} :
    self.fitsWithin available = true ↔ self.cpuMillis ≤ available.cpuMillis ∧
        self.memoryBytes ≤ available.memoryBytes ∧
        self.ephemeralDiskBytes ≤ available.ephemeralDiskBytes ∧
        self.gpuCount ≤ available.gpuCount := by
  simp [fitsWithin, and_assoc]

def min (left right : ResourceCapacity) : ResourceCapacity :=
  { cpuMillis := Nat.min left.cpuMillis right.cpuMillis
    memoryBytes := Nat.min left.memoryBytes right.memoryBytes
    ephemeralDiskBytes := Nat.min left.ephemeralDiskBytes right.ephemeralDiskBytes
    gpuCount := Nat.min left.gpuCount right.gpuCount }

theorem fitsWithin_min {self left right : ResourceCapacity} :
    self.fitsWithin (left.min right) = true ↔
      self.fitsWithin left = true ∧ self.fitsWithin right = true := by
  simp only [fitsWithin_iff, min, Nat.le_min]
  tauto

end ResourceCapacity

inductive ResourceAllocationError where
  | cpuRequired | memoryRequired | requestExceedsLimit | gpuRequestLimitMismatch
  deriving DecidableEq, Repr

structure JobResourceAllocation where
  (requests limits : ResourceCapacity)
  cpuRequired : requests.cpuMillis ≠ 0 ∧ limits.cpuMillis ≠ 0
  memoryRequired : requests.memoryBytes ≠ 0 ∧ limits.memoryBytes ≠ 0
  requestFits : requests.fitsWithin limits = true
  gpuEqual : requests.gpuCount = limits.gpuCount
  deriving DecidableEq, Repr

namespace JobResourceAllocation

def new (requests limits : ResourceCapacity) :
    Except ResourceAllocationError JobResourceAllocation :=
  if hcpu : requests.cpuMillis = 0 ∨ limits.cpuMillis = 0 then
    .error .cpuRequired
  else if hmemory : requests.memoryBytes = 0 ∨ limits.memoryBytes = 0 then
    .error .memoryRequired
  else if hfits : ¬requests.fitsWithin limits = true then
    .error .requestExceedsLimit
  else if hgpu : requests.gpuCount ≠ limits.gpuCount then
    .error .gpuRequestLimitMismatch
  else
    .ok
      { requests
        limits
        cpuRequired := not_or.mp hcpu
        memoryRequired := not_or.mp hmemory
        requestFits := not_not.mp hfits
        gpuEqual := not_not.mp hgpu }

end JobResourceAllocation

structure SandboxCapabilities where
  maximumIsolation : IsolationLevel
  features : OrderedSet SandboxFeature
  deriving DecidableEq

structure ContainerCapabilities where
  features : OrderedSet ContainerFeature
  deriving DecidableEq

structure RunnerCapabilities where
  schemaVersion : Nat
  runnerId : RunnerId
  platform : RunnerPlatform
  labels : OrderedSet RunnerLabel
  groups : OrderedSet RunnerGroup
  maxParallelJobs : Nat
  resourcesPerJob : ResourceCapacity
  sandbox : SandboxCapabilities
  containers : ContainerCapabilities
  features : OrderedSet RunnerFeature
  environmentProfiles : OrderedSet EnvironmentProfile
  deriving DecidableEq

inductive CapabilityValidationError where
  | unsupportedSchema (supported received : Nat)
  | noJobSlots
  deriving DecidableEq, Repr

namespace RunnerCapabilities

def new (runnerId : RunnerId) (platform : RunnerPlatform) : RunnerCapabilities :=
  { schemaVersion := coreSchemaVersion
    runnerId
    platform
    labels := OrderedSet.empty
    groups := OrderedSet.empty
    maxParallelJobs := 1
    resourcesPerJob := ResourceCapacity.default
    sandbox := ⟨.process, OrderedSet.empty⟩
    containers := ⟨OrderedSet.empty⟩
    features := OrderedSet.empty
    environmentProfiles := OrderedSet.empty }

variable (self : RunnerCapabilities)

def withLabels (labels : OrderedSet RunnerLabel) : RunnerCapabilities :=
  { self with labels }

def withGroups (groups : OrderedSet RunnerGroup) : RunnerCapabilities :=
  { self with groups }

def withMaxParallelJobs (slots : Nat) : Except CapabilityValidationError RunnerCapabilities :=
  if slots = 0 then
    .error .noJobSlots
  else
    .ok { self with maxParallelJobs := slots }

def withResourcesPerJob (resources : ResourceCapacity) : RunnerCapabilities :=
  { self with resourcesPerJob := resources }

def withSandbox (sandbox : SandboxCapabilities) : RunnerCapabilities :=
  { self with sandbox }

def withContainers (containers : ContainerCapabilities) : RunnerCapabilities :=
  { self with containers }

def withFeatures (features : OrderedSet RunnerFeature) : RunnerCapabilities :=
  { self with features }

def withEnvironmentProfiles (profiles : OrderedSet EnvironmentProfile) : RunnerCapabilities :=
  { self with environmentProfiles := profiles }

def validate : Except CapabilityValidationError Unit :=
  if self.schemaVersion ≠ coreSchemaVersion then
    .error (.unsupportedSchema coreSchemaVersion self.schemaVersion)
  else if self.maxParallelJobs = 0 then
    .error .noJobSlots
  else
    .ok ()

theorem validate_eq_ok {self : RunnerCapabilities} :
    self.validate = .ok () ↔ self.schemaVersion = coreSchemaVersion ∧ self.maxParallelJobs ≠ 0 := by
  unfold validate
  split
  · simp_all
  · split <;> simp_all

end RunnerCapabilities

def runnerRequirementsSchemaVersion : Nat :=
  1

structure RunnerRequirements where
  schemaVersion : Nat
  labels : OrderedSet RunnerLabel
  eligibleGroups : OrderedSet RunnerGroup
  operatingSystem : Option OperatingSystem
  architecture : Option Architecture
  minimumResources : ResourceCapacity
  resourceAllocation : Option JobResourceAllocation
  minimumIsolation : IsolationLevel
  sandboxFeatures : OrderedSet SandboxFeature
  containerFeatures : OrderedSet ContainerFeature
  features : OrderedSet RunnerFeature
  environmentProfile : Option EnvironmentProfile
  deriving DecidableEq

namespace RunnerRequirements

def default : RunnerRequirements :=
  { schemaVersion := runnerRequirementsSchemaVersion
    labels := OrderedSet.empty
    eligibleGroups := OrderedSet.empty
    operatingSystem := none
    architecture := none
    minimumResources := ResourceCapacity.default
    resourceAllocation := none
    minimumIsolation := .process
    sandboxFeatures := OrderedSet.empty
    containerFeatures := OrderedSet.empty
    features := OrderedSet.empty
    environmentProfile := none }

variable (self : RunnerRequirements)

def withLabels (labels : OrderedSet RunnerLabel) : RunnerRequirements :=
  { self with labels }

def withEligibleGroups (groups : OrderedSet RunnerGroup) : RunnerRequirements :=
  { self with eligibleGroups := groups }

def unrouted : RunnerRequirements :=
  (self.withLabels OrderedSet.empty).withEligibleGroups OrderedSet.empty

/-- The resources which matching compares: the limits of the resolved
allocation, or the minimum when the workflow selected none. -/
def enforceable : ResourceCapacity :=
  match self.resourceAllocation with
  | some allocation => allocation.limits
  | none => self.minimumResources

end RunnerRequirements

inductive RequirementMismatch where
  | capabilitiesSchemaVersion (supported received : Nat)
  | requirementsSchemaVersion (supported received : Nat)
  | missingLabel (label : RunnerLabel)
  | noEligibleGroup (eligible : OrderedSet RunnerGroup)
  | operatingSystem (required available : OperatingSystem)
  | architecture (required available : Architecture)
  | noJobSlots
  | insufficientResource (resource : ResourceKind) (required available : Nat)
  | isolation (required available : IsolationLevel)
  | missingSandboxFeature (feature : SandboxFeature)
  | missingContainerFeature (feature : ContainerFeature)
  | missingRunnerFeature (feature : RunnerFeature)
  | environmentProfile (required : EnvironmentProfile)
      (available : OrderedSet EnvironmentProfile)
  deriving DecidableEq

namespace RequirementMismatch

def pushIf (condition : Prop) [Decidable condition]
    (mismatch : RequirementMismatch) : List RequirementMismatch :=
  if condition then [mismatch] else []

@[simp] theorem pushIf_eq_nil {condition : Prop} [Decidable condition]
    {mismatch : RequirementMismatch} :
    pushIf condition mismatch = [] ↔ ¬condition := by
  unfold pushIf
  split <;> simp_all

def pushFor {α : Type} (required : Option α)
    (compare : α → List RequirementMismatch) : List RequirementMismatch :=
  match required with
  | some value => compare value
  | none => []

@[simp] theorem pushFor_eq_nil {α : Type} {required : Option α}
    {compare : α → List RequirementMismatch} :
    pushFor required compare = [] ↔ ∀ value ∈ required, compare value = [] := by
  cases required <;> simp [pushFor]

def compareResource (resource : ResourceKind) (required available : Nat) :
    List RequirementMismatch :=
  pushIf (available < required) (.insufficientResource resource required available)

def compareEnvironmentProfile (capabilities : RunnerCapabilities)
    (requirements : RunnerRequirements) : List RequirementMismatch :=
  pushFor requirements.environmentProfile fun required =>
    pushIf (required ∉ capabilities.environmentProfiles)
      (.environmentProfile required capabilities.environmentProfiles)

end RequirementMismatch

namespace RunnerCapabilities

open RequirementMismatch

variable {self : RunnerCapabilities} {requirements : RunnerRequirements}

def mismatches (self : RunnerCapabilities)
    (requirements : RunnerRequirements) : List RequirementMismatch :=
  pushIf (self.schemaVersion ≠ coreSchemaVersion)
      (.capabilitiesSchemaVersion coreSchemaVersion self.schemaVersion) ++
    pushIf (requirements.schemaVersion ≠ runnerRequirementsSchemaVersion)
      (.requirementsSchemaVersion runnerRequirementsSchemaVersion requirements.schemaVersion) ++
    (requirements.labels.difference self.labels).toList.map .missingLabel ++
    pushIf (requirements.eligibleGroups.isEmpty = false ∧
        requirements.eligibleGroups.isDisjoint self.groups = true)
      (.noEligibleGroup requirements.eligibleGroups) ++
    pushFor requirements.operatingSystem (fun required =>
      pushIf (required ≠ self.platform.operatingSystem)
        (.operatingSystem required self.platform.operatingSystem)) ++
    pushFor requirements.architecture (fun required =>
      pushIf (required ≠ self.platform.architecture)
        (.architecture required self.platform.architecture)) ++
    pushIf (self.maxParallelJobs = 0) .noJobSlots ++
    compareResource .cpuMillis requirements.enforceable.cpuMillis self.resourcesPerJob.cpuMillis ++
    compareResource .memoryBytes requirements.enforceable.memoryBytes
      self.resourcesPerJob.memoryBytes ++
    compareResource .ephemeralDiskBytes requirements.enforceable.ephemeralDiskBytes
      self.resourcesPerJob.ephemeralDiskBytes ++
    compareResource .gpuCount requirements.enforceable.gpuCount self.resourcesPerJob.gpuCount ++
    pushIf (self.sandbox.maximumIsolation < requirements.minimumIsolation)
      (.isolation requirements.minimumIsolation self.sandbox.maximumIsolation) ++
    (requirements.sandboxFeatures.difference
      self.sandbox.features).toList.map .missingSandboxFeature ++
    (requirements.containerFeatures.difference
      self.containers.features).toList.map .missingContainerFeature ++
    (requirements.features.difference self.features).toList.map .missingRunnerFeature ++
    compareEnvironmentProfile self requirements

def satisfies (self : RunnerCapabilities) (requirements : RunnerRequirements) :
    Except (List RequirementMismatch) Unit :=
  if (self.mismatches requirements).isEmpty then
    .ok ()
  else
    .error (self.mismatches requirements)

/-- The requirement asks for nothing the routing of the runner lacks. -/
structure RoutesTo (labels : OrderedSet RunnerLabel)
    (groups : OrderedSet RunnerGroup) (requirements : RunnerRequirements) :
    Prop where
  labels : ∀ label ∈ requirements.labels, label ∈ labels
  groups :
    (∀ group, group ∉ requirements.eligibleGroups) ∨
      ∃ group ∈ requirements.eligibleGroups, group ∈ groups

/-- The machine provides every execution ability the requirement asks for. -/
structure Provides (capabilities : RunnerCapabilities)
    (requirements : RunnerRequirements) : Prop where
  capabilitiesSchema : capabilities.schemaVersion = coreSchemaVersion
  requirementsSchema :
    requirements.schemaVersion = runnerRequirementsSchemaVersion
  operatingSystem :
    ∀ required ∈ requirements.operatingSystem, required = capabilities.platform.operatingSystem
  architecture :
    ∀ required ∈ requirements.architecture, required = capabilities.platform.architecture
  slots : capabilities.maxParallelJobs ≠ 0
  resources :
    requirements.enforceable.fitsWithin capabilities.resourcesPerJob = true
  isolation :
    requirements.minimumIsolation ≤ capabilities.sandbox.maximumIsolation
  sandboxFeatures :
    ∀ feature ∈ requirements.sandboxFeatures, feature ∈ capabilities.sandbox.features
  containerFeatures :
    ∀ feature ∈ requirements.containerFeatures, feature ∈ capabilities.containers.features
  features :
    ∀ feature ∈ requirements.features, feature ∈ capabilities.features
  environmentProfile :
    ∀ required ∈ requirements.environmentProfile, required ∈ capabilities.environmentProfiles

theorem eligibleGroup_iff {eligible groups : OrderedSet RunnerGroup} :
    ¬(eligible.isEmpty = false ∧ eligible.isDisjoint groups = true) ↔
      (∀ group, group ∉ eligible) ∨ ∃ group ∈ eligible, group ∈ groups := by
  rw [← Bool.not_eq_true, OrderedSet.isEmpty_iff, OrderedSet.isDisjoint_iff, not_and_or, not_not]
  simp only [not_forall, not_not, exists_prop]

theorem satisfies_eq_ok_iff :
    self.satisfies requirements = .ok () ↔ RoutesTo self.labels self.groups requirements ∧
        self.Provides requirements := by
  have hempty : self.satisfies requirements = .ok () ↔ self.mismatches requirements = [] := by
    unfold satisfies
    split <;> simp_all
  rw [hempty]
  simp only [mismatches, compareResource, compareEnvironmentProfile, List.append_eq_nil_iff,
    pushIf_eq_nil, pushFor_eq_nil, List.map_eq_nil_iff, OrderedSet.difference_toList_eq_nil_iff,
    eligibleGroup_iff, not_not, not_lt, and_assoc]
  constructor
  · rintro ⟨hcapabilities, hrequirements, hlabels, hgroups, hsystem, harchitecture, hslots, hcpu,
      hmemory, hdisk, hgpu, hisolation, hsandbox, hcontainer, hfeatures, hprofile⟩
    exact ⟨⟨hlabels, hgroups⟩,
        { capabilitiesSchema := hcapabilities
          requirementsSchema := hrequirements
          operatingSystem := hsystem
          architecture := harchitecture
          slots := hslots
          resources := ResourceCapacity.fitsWithin_iff.mpr ⟨hcpu, hmemory, hdisk, hgpu⟩
          isolation := hisolation
          sandboxFeatures := hsandbox
          containerFeatures := hcontainer
          features := hfeatures
          environmentProfile := hprofile }⟩
  · rintro ⟨hroutes, hprovides⟩
    obtain ⟨hcpu, hmemory, hdisk, hgpu⟩ := ResourceCapacity.fitsWithin_iff.mp hprovides.resources
    exact ⟨hprovides.capabilitiesSchema, hprovides.requirementsSchema,
        hroutes.labels, hroutes.groups, hprovides.operatingSystem,
        hprovides.architecture, hprovides.slots, hcpu, hmemory, hdisk, hgpu,
        hprovides.isolation, hprovides.sandboxFeatures,
        hprovides.containerFeatures, hprovides.features,
        hprovides.environmentProfile⟩

theorem satisfies_unrouted_iff :
    self.satisfies requirements.unrouted = .ok () ↔ self.Provides requirements := by
  rw [satisfies_eq_ok_iff]
  constructor
  · rintro ⟨-, hprovides⟩
    exact { hprovides with }
  · intro hprovides
    refine ⟨⟨?_, Or.inl ?_⟩, { hprovides with }⟩
    · intro label hlabel
      exact absurd hlabel (OrderedSet.notMem_empty label)
    · exact OrderedSet.notMem_empty

end RunnerCapabilities

end AutomataCi
