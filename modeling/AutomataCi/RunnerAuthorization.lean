import AutomataCi.RunnerCapabilities

/-!
# Runner authorization

The control plane reduces what a runner reports to what its registration
allows.  `intersectRunnerCapabilities` keeps the execution abilities which both
have, `EffectiveRunner.authorize` checks that the result grants nothing beyond
the evidence and adds the labels and groups of the server.

The result is the meet of registration and observation: it provides exactly
what both provide, under the routing of the server alone.
-/

namespace AutomataCi

open GuardedResult OrderedSet

/-! ## Sessions, slots and evidence -/

structure SessionGuard where
  runnerId : RunnerId
  sessionId : RunnerSessionId
  deriving DecidableEq, Repr

@[ext]
structure RunnerSlot where
  runnerId : RunnerId
  ordinal : Nat
  positive : 0 < ordinal
  bounded : ordinal < 2 ^ 16
  deriving Repr

instance : DecidableEq RunnerSlot := fun left right =>
  decidable_of_iff (left.runnerId = right.runnerId ∧ left.ordinal = right.ordinal)
    RunnerSlot.ext_iff.symm

theorem RunnerSlot.key_injective : Function.Injective fun slot : RunnerSlot =>
      toLex (slot.runnerId, slot.ordinal) := by
  rintro ⟨leftRunner, leftOrdinal, _, _⟩ ⟨rightRunner, rightOrdinal, _, _⟩ heq
  obtain ⟨hrunner, hordinal⟩ := Prod.mk.inj (toLex.injective heq)
  simp only [RunnerSlot.mk.injEq]
  exact ⟨hrunner, hordinal⟩

instance : LinearOrder RunnerSlot :=
  LinearOrder.lift' (fun slot => toLex (slot.runnerId, slot.ordinal)) RunnerSlot.key_injective

inductive RunnerEvidenceError where
  | invalidCapabilities (error : CapabilityValidationError)
  | runnerIdentityMismatch (authenticated advertised : RunnerId)
  deriving DecidableEq, Repr

/-- A valid observation of the runner its session authenticated. -/
structure RunnerEvidence where
  session : SessionGuard
  observedCapabilities : RunnerCapabilities
  observedAt : UnixMillis
  valid : observedCapabilities.validate = .ok ()
  sameRunner : observedCapabilities.runnerId = session.runnerId

namespace RunnerEvidence

def new (session : SessionGuard) (observedCapabilities : RunnerCapabilities)
    (observedAt : UnixMillis) : Except RunnerEvidenceError RunnerEvidence :=
  match hvalid : observedCapabilities.validate with
  | .error error => .error (.invalidCapabilities error)
  | .ok () =>
    if hrunner : observedCapabilities.runnerId = session.runnerId then
      .ok
        { session
          observedCapabilities
          observedAt
          valid := hvalid
          sameRunner := hrunner }
    else
      .error (.runnerIdentityMismatch session.runnerId observedCapabilities.runnerId)

theorem new_eq_ok {session : SessionGuard} {observed : RunnerCapabilities}
    {observedAt : UnixMillis} {evidence : RunnerEvidence}
    (hnew : new session observed observedAt = .ok evidence) :
    evidence.session = session ∧ evidence.observedCapabilities = observed ∧
      evidence.observedAt = observedAt := by
  unfold new at hnew
  split at hnew
  · contradiction
  · split at hnew
    · cases hnew
      exact ⟨rfl, rfl, rfl⟩
    · contradiction

end RunnerEvidence

structure AuthorizedRunnerRouting where
  labels : OrderedSet RunnerLabel
  groups : OrderedSet RunnerGroup
  deriving DecidableEq

/-! ## Intersecting registration and observation -/

inductive RunnerCapabilityIntersectionError where
  | invalidRegistered (error : CapabilityValidationError)
  | invalidObserved (error : CapabilityValidationError)
  | runnerIdentityMismatch (registered observed : RunnerId)
  | platformMismatch
  deriving DecidableEq, Repr

def intersectRunnerCapabilities (registered observed : RunnerCapabilities) :
    Except RunnerCapabilityIntersectionError RunnerCapabilities := do
  registered.validate.mapError .invalidRegistered
  observed.validate.mapError .invalidObserved
  rejectIf (registered.runnerId ≠ observed.runnerId)
    (.runnerIdentityMismatch registered.runnerId observed.runnerId)
  rejectIf (registered.platform ≠ observed.platform) .platformMismatch
  let resources := registered.resourcesPerJob.min observed.resourcesPerJob
  let sandbox : SandboxCapabilities :=
    { maximumIsolation := min registered.sandbox.maximumIsolation observed.sandbox.maximumIsolation
      features := registered.sandbox.features.intersection observed.sandbox.features }
  let containers : ContainerCapabilities :=
    { features := registered.containers.features.intersection observed.containers.features }
  let capabilities ← ((RunnerCapabilities.new registered.runnerId
      registered.platform).withMaxParallelJobs
        (min registered.maxParallelJobs observed.maxParallelJobs)).mapError
      .invalidRegistered
  return ((((capabilities.withResourcesPerJob resources).withSandbox
    sandbox).withContainers containers).withFeatures
      (registered.features.intersection observed.features))
    |>.withEnvironmentProfiles
      (registered.environmentProfiles.intersection observed.environmentProfiles)

/-- The abilities which both inputs have, without labels and groups. -/
def RunnerCapabilities.meet (registered observed : RunnerCapabilities) : RunnerCapabilities :=
  { schemaVersion := coreSchemaVersion
    runnerId := registered.runnerId
    platform := registered.platform
    labels := OrderedSet.empty
    groups := OrderedSet.empty
    maxParallelJobs := min registered.maxParallelJobs observed.maxParallelJobs
    resourcesPerJob := registered.resourcesPerJob.min observed.resourcesPerJob
    sandbox :=
      { maximumIsolation :=
          min registered.sandbox.maximumIsolation observed.sandbox.maximumIsolation
        features := registered.sandbox.features.intersection observed.sandbox.features }
    containers :=
      { features := registered.containers.features.intersection observed.containers.features }
    features := registered.features.intersection observed.features
    environmentProfiles :=
      registered.environmentProfiles.intersection observed.environmentProfiles }

namespace RunnerCapabilities

variable {registered observed : RunnerCapabilities}

theorem intersectRunnerCapabilities_eq_ok (hregistered : registered.validate = .ok ())
    (hobserved : observed.validate = .ok ())
    (hrunner : registered.runnerId = observed.runnerId)
    (hplatform : registered.platform = observed.platform) :
    intersectRunnerCapabilities registered observed = .ok (registered.meet observed) := by
  have hslots : min registered.maxParallelJobs observed.maxParallelJobs ≠ 0 := by
    have hleft := (validate_eq_ok.mp hregistered).2
    have hright := (validate_eq_ok.mp hobserved).2
    omega
  have hlimit :
      (new registered.runnerId registered.platform).withMaxParallelJobs
          (min registered.maxParallelJobs observed.maxParallelJobs) =
        .ok
          { new registered.runnerId registered.platform with
            maxParallelJobs := min registered.maxParallelJobs observed.maxParallelJobs } :=
    if_neg hslots
  have hsameRunner :
      rejectIf (registered.runnerId ≠ observed.runnerId)
          (RunnerCapabilityIntersectionError.runnerIdentityMismatch
            registered.runnerId observed.runnerId) =
        .ok () :=
    rejectIf_of_not _ (not_not.mpr hrunner)
  have hsamePlatform :
      rejectIf (registered.platform ≠ observed.platform)
          RunnerCapabilityIntersectionError.platformMismatch =
        .ok () :=
    rejectIf_of_not _ (not_not.mpr hplatform)
  unfold intersectRunnerCapabilities
  rw [hregistered, hobserved, hsameRunner, hsamePlatform, hlimit]
  rfl

/-- The execution abilities of one advertisement are among those of another
which describes the same platform. -/
structure Within (weaker stronger : RunnerCapabilities) : Prop where
  platform : weaker.platform = stronger.platform
  slots : weaker.maxParallelJobs ≤ stronger.maxParallelJobs
  resources :
    weaker.resourcesPerJob.fitsWithin stronger.resourcesPerJob = true
  isolation :
    weaker.sandbox.maximumIsolation ≤ stronger.sandbox.maximumIsolation
  sandboxFeatures :
    ∀ feature ∈ weaker.sandbox.features, feature ∈ stronger.sandbox.features
  containerFeatures :
    ∀ feature ∈ weaker.containers.features, feature ∈ stronger.containers.features
  features : ∀ feature ∈ weaker.features, feature ∈ stronger.features
  environmentProfiles :
    ∀ profile ∈ weaker.environmentProfiles, profile ∈ stronger.environmentProfiles

variable {requirements : RunnerRequirements}

theorem Provides.of_within {weaker stronger : RunnerCapabilities}
    (hvalid : stronger.validate = .ok ()) (hwithin : weaker.Within stronger)
    (hprovides : weaker.Provides requirements) : stronger.Provides requirements := by
  obtain ⟨hschema, hslots⟩ := validate_eq_ok.mp hvalid
  have hcapacity := ResourceCapacity.fitsWithin_iff.mp hwithin.resources
  have hrequired := ResourceCapacity.fitsWithin_iff.mp hprovides.resources
  exact
    { capabilitiesSchema := hschema
      requirementsSchema := hprovides.requirementsSchema
      operatingSystem := hwithin.platform ▸ hprovides.operatingSystem
      architecture := hwithin.platform ▸ hprovides.architecture
      slots := hslots
      resources :=
        ResourceCapacity.fitsWithin_iff.mpr
          ⟨hrequired.1.trans hcapacity.1,
            hrequired.2.1.trans hcapacity.2.1,
            hrequired.2.2.1.trans hcapacity.2.2.1,
            hrequired.2.2.2.trans hcapacity.2.2.2⟩
      isolation := hprovides.isolation.trans hwithin.isolation
      sandboxFeatures := fun feature hfeature =>
        hwithin.sandboxFeatures feature (hprovides.sandboxFeatures feature hfeature)
      containerFeatures := fun feature hfeature =>
        hwithin.containerFeatures feature (hprovides.containerFeatures feature hfeature)
      features := fun feature hfeature =>
        hwithin.features feature (hprovides.features feature hfeature)
      environmentProfile := fun profile hprofile =>
        hwithin.environmentProfiles profile (hprovides.environmentProfile profile hprofile) }

theorem meet_within_registered : (registered.meet observed).Within registered :=
  { platform := rfl
    slots := Nat.min_le_left _ _
    resources :=
      ResourceCapacity.fitsWithin_iff.mpr
        ⟨Nat.min_le_left _ _, Nat.min_le_left _ _, Nat.min_le_left _ _,
          Nat.min_le_left _ _⟩
    isolation := min_le_left _ _
    sandboxFeatures := fun _ hmem => (OrderedSet.mem_intersection.mp hmem).1
    containerFeatures := fun _ hmem => (OrderedSet.mem_intersection.mp hmem).1
    features := fun _ hmem => (OrderedSet.mem_intersection.mp hmem).1
    environmentProfiles := fun _ hmem =>
      (OrderedSet.mem_intersection.mp hmem).1 }

theorem meet_within_observed (hplatform : registered.platform = observed.platform) :
    (registered.meet observed).Within observed :=
  { platform := hplatform
    slots := Nat.min_le_right _ _
    resources :=
      ResourceCapacity.fitsWithin_iff.mpr
        ⟨Nat.min_le_right _ _, Nat.min_le_right _ _, Nat.min_le_right _ _,
          Nat.min_le_right _ _⟩
    isolation := min_le_right _ _
    sandboxFeatures := fun _ hmem => (OrderedSet.mem_intersection.mp hmem).2
    containerFeatures := fun _ hmem => (OrderedSet.mem_intersection.mp hmem).2
    features := fun _ hmem => (OrderedSet.mem_intersection.mp hmem).2
    environmentProfiles := fun _ hmem =>
      (OrderedSet.mem_intersection.mp hmem).2 }

theorem Provides.meet (hregistered : registered.Provides requirements)
    (hobserved : observed.Provides requirements) :
    (registered.meet observed).Provides requirements := by
  have hslots : min registered.maxParallelJobs observed.maxParallelJobs ≠ 0 := by
    have hleft := hregistered.slots
    have hright := hobserved.slots
    omega
  exact
    { capabilitiesSchema := rfl
      requirementsSchema := hregistered.requirementsSchema
      operatingSystem := hregistered.operatingSystem
      architecture := hregistered.architecture
      slots := hslots
      resources :=
        ResourceCapacity.fitsWithin_min.mpr ⟨hregistered.resources, hobserved.resources⟩
      isolation := le_min hregistered.isolation hobserved.isolation
      sandboxFeatures := fun feature hfeature =>
        mem_intersection.mpr
          ⟨hregistered.sandboxFeatures feature hfeature,
            hobserved.sandboxFeatures feature hfeature⟩
      containerFeatures := fun feature hfeature =>
        mem_intersection.mpr
          ⟨hregistered.containerFeatures feature hfeature,
            hobserved.containerFeatures feature hfeature⟩
      features := fun feature hfeature =>
        mem_intersection.mpr
          ⟨hregistered.features feature hfeature,
            hobserved.features feature hfeature⟩
      environmentProfile := fun profile hprofile =>
        mem_intersection.mpr
          ⟨hregistered.environmentProfile profile hprofile,
            hobserved.environmentProfile profile hprofile⟩ }

theorem provides_meet_iff (hregistered : registered.validate = .ok ())
    (hobserved : observed.validate = .ok ()) (hplatform : registered.platform = observed.platform) :
    (registered.meet observed).Provides requirements ↔
      registered.Provides requirements ∧ observed.Provides requirements := by
  constructor
  · intro hmeet
    exact ⟨hmeet.of_within hregistered meet_within_registered,
        hmeet.of_within hobserved (meet_within_observed hplatform)⟩
  · rintro ⟨hleft, hright⟩
    exact hleft.meet hright

end RunnerCapabilities

/-! ## Authorizing a runner -/

inductive EffectiveRunnerError where
  | invalidCapabilities (error : CapabilityValidationError)
  | runnerIdentityMismatch (authenticated effective : RunnerId)
  | selectorsNotSeparated
  | platformMismatch
  | slotLimitExceedsEvidence (observed effective : Nat)
  | resourceExceedsEvidence (resource : ResourceKind)
      (observed effective : Nat)
  | isolationExceedsEvidence
  | unobservedSandboxFeature (feature : SandboxFeature)
  | unobservedContainerFeature (feature : ContainerFeature)
  | unobservedRunnerFeature (feature : RunnerFeature)
  | unobservedEnvironmentProfile (profile : EnvironmentProfile)
  | slotRunnerMismatch (expected received : RunnerId)
  | slotOutOfRange (ordinal maximum : Nat)
  | duplicateSlot (slot : RunnerSlot)
  deriving DecidableEq, Repr

/-- The first resource which exceeds its evidence is reported. -/
def validateResources (effective observed : ResourceCapacity) : Except EffectiveRunnerError Unit :=
  match [(ResourceKind.cpuMillis, effective.cpuMillis, observed.cpuMillis),
      (.memoryBytes, effective.memoryBytes, observed.memoryBytes),
      (.ephemeralDiskBytes, effective.ephemeralDiskBytes, observed.ephemeralDiskBytes),
      (.gpuCount, effective.gpuCount, observed.gpuCount)].find?
        fun (_, effective, observed) => observed < effective with
  | some (resource, effective, observed) =>
    .error (.resourceExceedsEvidence resource observed effective)
  | none => .ok ()

@[simp] theorem validateResources_eq_ok {effective observed : ResourceCapacity} {result : Unit} :
    validateResources effective observed = .ok result ↔ effective.fitsWithin observed = true := by
  rw [ResourceCapacity.fitsWithin_iff]
  unfold validateResources
  split
  · rename_i hfound
    have hexceeds := List.find?_some hfound
    have hmem := List.mem_of_find?_eq_some hfound
    simp only [decide_eq_true_eq] at hexceeds
    simp only [List.mem_cons, Prod.mk.injEq, List.not_mem_nil, or_false] at hmem
    simp only [reduceCtorEq, false_iff]
    rintro ⟨hcpu, hmemory, hdisk, hgpu⟩
    omega
  · rename_i hfound
    simpa [List.find?_eq_none] using hfound

def rejectUnobserved {α : Type} [LinearOrder α] (unobserved : OrderedSet α)
    (error : α → EffectiveRunnerError) : Except EffectiveRunnerError Unit :=
  match unobserved.first with
  | some ability => .error (error ability)
  | none => .ok ()

@[simp] theorem rejectUnobserved_eq_ok {α : Type} [LinearOrder α]
    {effective observed : OrderedSet α} {error : α → EffectiveRunnerError} {result : Unit} :
    rejectUnobserved (effective.difference observed) error = .ok result ↔
      ∀ ability ∈ effective, ability ∈ observed := by
  have hfirst :
      (effective.difference observed).first = none ↔ ∀ ability ∈ effective, ability ∈ observed := by
    rw [first, List.head?_eq_none_iff, difference_toList_eq_nil_iff]
  rw [← hfirst]
  unfold rejectUnobserved
  split <;> simp_all

structure EffectiveRunner where
  session : SessionGuard
  capabilities : RunnerCapabilities
  availableSlots : OrderedSet RunnerSlot
  evidenceObservedAt : UnixMillis
  deriving DecidableEq

namespace EffectiveRunner

def validateSlots (runnerId : RunnerId) (maximum : Nat) :
    OrderedSet RunnerSlot → List RunnerSlot → Except EffectiveRunnerError (OrderedSet RunnerSlot)
  | validated, [] => .ok validated
  | validated, slot :: rest => do
      rejectIf (slot.runnerId ≠ runnerId) (.slotRunnerMismatch runnerId slot.runnerId)
      rejectIf (maximum < slot.ordinal) (.slotOutOfRange slot.ordinal maximum)
      rejectIf (slot ∈ validated) (.duplicateSlot slot)
      validateSlots runnerId maximum (validated.insert slot) rest

def authorize (evidence : RunnerEvidence) (routing : AuthorizedRunnerRouting)
    (capabilities : RunnerCapabilities) (availableSlots : List RunnerSlot) :
    Except EffectiveRunnerError EffectiveRunner := do
  capabilities.validate.mapError .invalidCapabilities
  let observed := evidence.observedCapabilities
  let runnerId := evidence.session.runnerId
  rejectIf (capabilities.labels.isEmpty = false ∨ capabilities.groups.isEmpty = false)
    .selectorsNotSeparated
  rejectIf (capabilities.runnerId ≠ runnerId)
    (.runnerIdentityMismatch runnerId capabilities.runnerId)
  rejectIf (capabilities.platform ≠ observed.platform) .platformMismatch
  rejectIf (observed.maxParallelJobs < capabilities.maxParallelJobs)
    (.slotLimitExceedsEvidence observed.maxParallelJobs capabilities.maxParallelJobs)
  validateResources capabilities.resourcesPerJob observed.resourcesPerJob
  rejectIf (observed.sandbox.maximumIsolation < capabilities.sandbox.maximumIsolation)
    .isolationExceedsEvidence
  rejectUnobserved (capabilities.sandbox.features.difference observed.sandbox.features)
    .unobservedSandboxFeature
  rejectUnobserved (capabilities.containers.features.difference observed.containers.features)
    .unobservedContainerFeature
  rejectUnobserved (capabilities.features.difference observed.features) .unobservedRunnerFeature
  rejectUnobserved (capabilities.environmentProfiles.difference observed.environmentProfiles)
    .unobservedEnvironmentProfile
  let capabilities :=
    (capabilities.withLabels routing.labels).withGroups routing.groups
  let validatedSlots ← validateSlots runnerId capabilities.maxParallelJobs OrderedSet.empty
      availableSlots
  return {
    session := evidence.session
    capabilities
    availableSlots := validatedSlots
    evidenceObservedAt := evidence.observedAt }

variable {slots : List RunnerSlot}

theorem validateSlots_eq_ok {runnerId : RunnerId} {maximum : Nat}
    {validated : OrderedSet RunnerSlot}
    (hslots : ∀ slot ∈ slots, slot.runnerId = runnerId ∧ slot.ordinal ≤ maximum)
    (hnodup : slots.Nodup) (hfresh : ∀ slot ∈ slots, slot ∉ validated) :
    ∃ result, validateSlots runnerId maximum validated slots = .ok result ∧
        ∀ slot, slot ∈ result ↔ slot ∈ validated ∨ slot ∈ slots := by
  induction slots generalizing validated with
  | nil => exact ⟨validated, rfl, by simp⟩
  | cons slot rest ih =>
    obtain ⟨hnotMem, hrestNodup⟩ := List.nodup_cons.mp hnodup
    obtain ⟨hrunner, hrange⟩ := hslots slot List.mem_cons_self
    have hslotFresh := hfresh slot List.mem_cons_self
    have hrestFresh : ∀ other ∈ rest, other ∉ validated.insert slot := by
      intro other hother hmem
      rcases mem_insert.mp hmem with rfl | hvalidated
      · exact hnotMem hother
      · exact hfresh other (List.mem_cons_of_mem slot hother) hvalidated
    obtain ⟨result, hresult, hmem⟩ :=
      ih (fun other hother => hslots other (List.mem_cons_of_mem slot hother)) hrestNodup hrestFresh
    refine ⟨result, ?_, ?_⟩
    · rw [validateSlots, rejectIf_of_not _ (not_not.mpr hrunner),
        rejectIf_of_not _ (not_lt.mpr hrange), rejectIf_of_not _ hslotFresh]
      exact hresult
    · intro other
      rw [hmem, mem_insert, List.mem_cons]
      tauto

theorem authorize_eq_ok {evidence : RunnerEvidence} {routing : AuthorizedRunnerRouting}
    {capabilities : RunnerCapabilities} {available : OrderedSet RunnerSlot}
    (hvalid : capabilities.validate = .ok ()) (hlabels : capabilities.labels = OrderedSet.empty)
    (hgroups : capabilities.groups = OrderedSet.empty)
    (hrunner : capabilities.runnerId = evidence.session.runnerId)
    (hwithin : capabilities.Within evidence.observedCapabilities)
    (hslots : validateSlots evidence.session.runnerId capabilities.maxParallelJobs
        OrderedSet.empty slots = .ok available) :
    authorize evidence routing capabilities slots = .ok
        { session := evidence.session
          capabilities := (capabilities.withLabels routing.labels).withGroups routing.groups
          availableSlots := available
          evidenceObservedAt := evidence.observedAt } := by
  have hseparated :
      ¬(capabilities.labels.isEmpty = false ∨ capabilities.groups.isEmpty = false) := by
    rw [hlabels, hgroups]
    simp [isEmpty, empty]
  simp only [authorize, bind_eq_ok, mapError_eq_ok, rejectIf_eq_ok, validateResources_eq_ok,
    rejectUnobserved_eq_ok, pure_eq_ok, not_not, not_lt]
  exact ⟨(), hvalid, (), hseparated, (), hrunner, (), hwithin.platform, (),
      hwithin.slots, (), hwithin.resources, (), hwithin.isolation, (),
      hwithin.sandboxFeatures, (), hwithin.containerFeatures, (),
      hwithin.features, (), hwithin.environmentProfiles, available, hslots,
      rfl⟩

end EffectiveRunner

/-! ## The effective authority -/

namespace RunnerCapabilities

variable {registered observed : RunnerCapabilities}

/-- The advertised labels and groups replaced by arbitrary others. -/
def relabel (self : RunnerCapabilities) (labels : OrderedSet RunnerLabel)
    (groups : OrderedSet RunnerGroup) : RunnerCapabilities :=
  (self.withLabels labels).withGroups groups

theorem validate_meet (hregistered : registered.validate = .ok ())
    (hobserved : observed.validate = .ok ()) :
    (registered.meet observed).validate = .ok () := by
  have hleft := (validate_eq_ok.mp hregistered).2
  have hright := (validate_eq_ok.mp hobserved).2
  apply validate_eq_ok.mpr
  refine ⟨rfl, ?_⟩
  change min registered.maxParallelJobs observed.maxParallelJobs ≠ 0
  omega

end RunnerCapabilities

namespace EffectiveRunner

open RunnerCapabilities

variable {registered observed : RunnerCapabilities}
  {evidence : RunnerEvidence}

/-- The runner which registration and observation together authorize. -/
theorem authorize_meet {routing : AuthorizedRunnerRouting} {slots : List RunnerSlot}
    (hregistered : registered.validate = .ok ())
    (hrunner : registered.runnerId = evidence.observedCapabilities.runnerId)
    (hplatform : registered.platform = evidence.observedCapabilities.platform)
    (hslots : ∀ slot ∈ slots, slot.runnerId = registered.runnerId ∧ slot.ordinal ≤
            (registered.meet evidence.observedCapabilities).maxParallelJobs)
    (hnodup : slots.Nodup) :
    ∃ available, (∀ slot, slot ∈ available ↔ slot ∈ slots) ∧ authorize evidence routing
            (registered.meet evidence.observedCapabilities) slots =
          .ok
            { session := evidence.session
              capabilities :=
                (registered.meet evidence.observedCapabilities).relabel
                  routing.labels routing.groups
              availableSlots := available
              evidenceObservedAt := evidence.observedAt } := by
  have hsession : registered.runnerId = evidence.session.runnerId :=
    hrunner.trans evidence.sameRunner
  have howned :
      ∀ slot ∈ slots, slot.runnerId = evidence.session.runnerId ∧ slot.ordinal ≤
            (registered.meet evidence.observedCapabilities).maxParallelJobs := by
    intro slot hslot
    exact ⟨(hslots slot hslot).1.trans hsession, (hslots slot hslot).2⟩
  have hfresh : ∀ slot ∈ slots, slot ∉ (empty : OrderedSet RunnerSlot) :=
    fun slot _ => notMem_empty slot
  obtain ⟨available, hvalidated, hmem⟩ := validateSlots_eq_ok howned hnodup hfresh
  refine ⟨available, by simpa using hmem, ?_⟩
  exact authorize_eq_ok (validate_meet hregistered evidence.valid) rfl rfl
    hsession (meet_within_observed hplatform) hvalidated

theorem authorize_relabel {session : SessionGuard} {observedAt : UnixMillis}
    {labels : OrderedSet RunnerLabel} {groups : OrderedSet RunnerGroup}
    {relabelled : RunnerEvidence}
    (hevidence : RunnerEvidence.new session observed observedAt = .ok evidence)
    (hrelabelled :
      RunnerEvidence.new session (observed.relabel labels groups) observedAt = .ok relabelled)
    (routing : AuthorizedRunnerRouting) (capabilities : RunnerCapabilities)
    (slots : List RunnerSlot) :
    authorize relabelled routing capabilities slots =
      authorize evidence routing capabilities slots := by
  obtain ⟨hsession, hobserved, hat⟩ := RunnerEvidence.new_eq_ok hevidence
  obtain ⟨hsession', hobserved', hat'⟩ := RunnerEvidence.new_eq_ok hrelabelled
  unfold authorize
  rw [hsession, hobserved, hat, hsession', hobserved', hat']
  rfl

/-- The effective runner satisfies a requirement exactly if the server routes
it here and both registration and observation satisfy the rest of it. -/
theorem authority_eq_meet {session : SessionGuard} {observedAt : UnixMillis}
    (routing : AuthorizedRunnerRouting)
    (hregistered : registered.validate = .ok ())
    (hobserved : observed.validate = .ok ())
    (hrunner : registered.runnerId = observed.runnerId)
    (hplatform : registered.platform = observed.platform)
    (hevidence : RunnerEvidence.new session observed observedAt = .ok evidence) :
    ∃ capabilities, intersectRunnerCapabilities registered observed = .ok capabilities ∧
      (∀ slots : List RunnerSlot, slots.Nodup → (∀ slot ∈ slots,
          slot.runnerId = registered.runnerId ∧ slot.ordinal ≤ capabilities.maxParallelJobs) →
        ∃ effective, authorize evidence routing capabilities slots = .ok effective ∧
          (∀ slot, slot ∈ effective.availableSlots ↔ slot ∈ slots) ∧
          ∀ requirements, effective.capabilities.satisfies requirements = .ok () ↔
              (∀ label ∈ requirements.labels, label ∈ routing.labels) ∧
              ((∀ group, group ∉ requirements.eligibleGroups) ∨
                ∃ group ∈ requirements.eligibleGroups, group ∈ routing.groups) ∧
              registered.satisfies requirements.unrouted = .ok () ∧
              observed.satisfies requirements.unrouted = .ok ()) ∧
      ∀ labels groups labels' groups' relabelled,
        RunnerEvidence.new session (observed.relabel labels' groups') observedAt = .ok relabelled →
        intersectRunnerCapabilities (registered.relabel labels groups)
            (observed.relabel labels' groups') = .ok capabilities ∧
        ∀ slots, authorize relabelled routing capabilities slots =
            authorize evidence routing capabilities slots := by
  have hevidenceObserved := (RunnerEvidence.new_eq_ok hevidence).2.1
  refine ⟨registered.meet observed, ?_, ?_, ?_⟩
  · exact intersectRunnerCapabilities_eq_ok hregistered hobserved hrunner hplatform
  · intro slots hnodup hslots
    rw [← hevidenceObserved] at hrunner hplatform hslots ⊢
    obtain ⟨available, hmem, hauthorize⟩ :=
      authorize_meet hregistered hrunner hplatform hslots hnodup
    refine ⟨_, hauthorize, hmem, ?_⟩
    intro requirements
    have hprovides :
        (((registered.meet evidence.observedCapabilities).relabel
          routing.labels routing.groups).Provides requirements) ↔
          (registered.meet evidence.observedCapabilities).Provides requirements :=
      ⟨fun hrouted => { hrouted with }, fun hmeet => { hmeet with }⟩
    rw [satisfies_eq_ok_iff, satisfies_unrouted_iff, satisfies_unrouted_iff,
      hprovides, provides_meet_iff hregistered evidence.valid hplatform]
    constructor
    · rintro ⟨hroutes, hboth⟩
      exact ⟨hroutes.labels, hroutes.groups, hboth⟩
    · rintro ⟨hlabels, hgroups, hboth⟩
      exact ⟨⟨hlabels, hgroups⟩, hboth⟩
  · intro labels groups labels' groups' relabelled hrelabelled
    constructor
    · exact intersectRunnerCapabilities_eq_ok hregistered hobserved hrunner hplatform
    · exact authorize_relabel hevidence hrelabelled routing _

namespace Sample

def linuxRunner (cpuMillis memoryBytes : Nat) : RunnerCapabilities :=
  (RunnerCapabilities.new ⟨⟨1⟩⟩ ⟨.linux, .x86_64⟩).withResourcesPerJob
    ⟨cpuMillis, memoryBytes, 0, 0⟩

def linuxSession : SessionGuard :=
  ⟨⟨⟨1⟩⟩, ⟨⟨2⟩⟩⟩

def linuxEvidence : RunnerEvidence :=
  ⟨linuxSession, linuxRunner 2000 8000, ⟨0⟩, rfl, rfl⟩

def firstSlot : RunnerSlot :=
  ⟨⟨⟨1⟩⟩, 1, Nat.one_pos, by decide⟩

def routing : AuthorizedRunnerRouting :=
  ⟨OrderedSet.ofList [⟨"linux"⟩], OrderedSet.empty⟩

def labelled (cpuMillis memoryBytes : Nat) : RunnerRequirements :=
  { RunnerRequirements.default.withLabels (OrderedSet.ofList [⟨"linux"⟩]) with
    minimumResources := ⟨cpuMillis, memoryBytes, 0, 0⟩ }

end Sample

open Sample

theorem authority_eq_meet_linuxRunner :
    ∃ capabilities effective,
      intersectRunnerCapabilities (linuxRunner 4000 1000) (linuxRunner 2000 8000) =
          .ok capabilities ∧
        authorize linuxEvidence routing capabilities [firstSlot] = .ok effective ∧
        effective.capabilities.satisfies (labelled 2000 1000) = .ok () ∧
        effective.capabilities.satisfies (labelled 4000 1000) ≠ .ok () ∧
        effective.capabilities.satisfies (labelled 2000 8000) ≠ .ok () := by
  have hvalid (cpu memory : Nat) : (linuxRunner cpu memory).validate = .ok () := rfl
  have hevidence : RunnerEvidence.new linuxSession (linuxRunner 2000 8000) ⟨0⟩ =
      .ok linuxEvidence := rfl
  obtain ⟨capabilities, hintersect, hauthorize, -⟩ :=
    authority_eq_meet routing (hvalid 4000 1000) (hvalid 2000 8000) rfl rfl hevidence
  have hlimit : capabilities.maxParallelJobs = 1 := by
    have hmeet := hintersect.symm.trans (intersectRunnerCapabilities_eq_ok rfl rfl rfl rfl)
    cases hmeet
    rfl
  have hslots :
      ∀ slot ∈ [firstSlot], slot.runnerId = (linuxRunner 4000 1000).runnerId ∧
          slot.ordinal ≤ capabilities.maxParallelJobs := by
    intro slot hslot
    rw [List.mem_singleton.mp hslot, hlimit]
    exact ⟨rfl, le_rfl⟩
  obtain ⟨effective, heffective, -, hsatisfies⟩ :=
    hauthorize [firstSlot] (List.nodup_singleton _) hslots
  refine ⟨capabilities, effective, hintersect, heffective, ?_, ?_, ?_⟩
  · rw [hsatisfies]
    exact ⟨fun label hlabel => hlabel, Or.inl notMem_empty, by decide, by decide⟩
  · rw [Ne, hsatisfies]
    -- the observation has too little processing time, the registration too little memory
    rintro ⟨-, -, -, hsatisfied⟩
    exact absurd hsatisfied (by decide)
  · rw [Ne, hsatisfies]
    rintro ⟨-, -, hsatisfied, -⟩
    exact absurd hsatisfied (by decide)

end EffectiveRunner

end AutomataCi
