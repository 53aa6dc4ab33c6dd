import AutomataCi.ReusableTraversal

/-!
# The unfolding of the call graph

The expansion of a reusable workflow lists invocations.  The file says what
the list is: the pre-order unfolding of the call graph from the root plan,
in which every invocation stands at the end of one chain of calls.  Along a
chain no workflow repeats, and the permissions of its last invocation are the
minimum of the ceiling and of every request made on the chain.
-/

namespace AutomataCi

open GuardedResult

/-! ## Levels -/

/-- The level which a request leaves to a scope.  An absent request imposes
nothing, and a mapping leaves nothing to the scopes it does not name. -/
def requestLevel (request : Option WorkflowPermissions) (name : String) : PermissionLevel :=
  match request with
  | none => .write
  | some .readAll => .read
  | some .writeAll => .write
  | some (.mapping grants) =>
    ((grants.reverse.find? fun grant =>
      grant.name = name ∧ grant.level ≠ .none).map PermissionGrant.level).getD .none

theorem level_permissionsFromRequest (request : WorkflowPermissions) (name : String) :
    (permissionsFromRequest request).level name = requestLevel (some request) name := by
  cases request with
  | readAll => rfl
  | writeAll => rfl
  | mapping grants =>
    simp only [permissionsFromRequest, ReusableWorkflowPermissions.level,
      requestLevel, OrderedMap.get_ofList_eq_lookup, KeyedList.lookup]
    rw [← List.filter_reverse, ← List.map_reverse, List.find?_filter,
      List.find?_map, Option.map_map]
    congr 2
    refine congrArg (List.find? · grants.reverse) ?_
    funext grant
    simp [and_comm]

theorem level_intersectPermissions (left right : ReusableWorkflowPermissions) (name : String) :
    (intersectPermissions left right).level name = min (left.level name) (right.level name) := by
  simp only [intersectPermissions, minimumPermission_eq_min]
  rw [ReusableWorkflowPermissions.level, OrderedMap.get_tabulate]
  by_cases hname : name ∈ left.grants.keys.union right.grants.keys
  · rw [if_pos hname]
    split
    next => rfl
    next hdefault =>
      rw [not_not] at hdefault
      exact hdefault.symm
  · rw [if_neg hname]
    -- Neither map names the scope, so both levels are the defaults.
    have habsent : name ∉ left.grants.keys ∧ name ∉ right.grants.keys := by simpa using hname
    have hleft := OrderedMap.get_eq_none_iff.mpr habsent.1
    have hright := OrderedMap.get_eq_none_iff.mpr habsent.2
    simp [ReusableWorkflowPermissions.level, hleft, hright]

theorem level_reduce (permissions : ReusableWorkflowPermissions)
    (request : Option WorkflowPermissions) (name : String) :
    (permissions.reduce request).level name =
      min (permissions.level name) (requestLevel request name) := by
  cases request with
  | none => exact (min_eq_left (PermissionLevel.le_write _)).symm
  | some =>
    rw [ReusableWorkflowPermissions.reduce, level_intersectPermissions,
      level_permissionsFromRequest]

/-! ## Chains of calls -/

/-- An invocation, the plan it runs and what its caller job requested. -/
structure CallLink where
  invocation : ReusableWorkflowInvocationExpansion
  plan : WorkflowPlan
  callerRequest : Option WorkflowPermissions
  deriving DecidableEq

/-- An invocation and its callers up to the root, the nearest first. -/
structure CallChain where
  head : CallLink
  callers : List CallLink
  deriving DecidableEq

namespace CallChain

variable (chain : CallChain)

def links : List CallLink :=
  chain.head :: chain.callers

def invocation : ReusableWorkflowInvocationExpansion :=
  chain.head.invocation

def paths : List String :=
  chain.links.map fun link => link.invocation.workflowPath

def extend (link : CallLink) : CallChain :=
  ⟨link, chain.links⟩

def requests : List (Option WorkflowPermissions) :=
  chain.links.flatMap fun link => [link.plan.permissions, link.callerRequest]

/-- The minimum of the ceiling and of all requests of the chain. -/
def level (ceiling : ReusableWorkflowPermissions) (chain : CallChain)
    (name : String) : PermissionLevel :=
  (chain.requests.map fun request => requestLevel request name).foldr min (ceiling.level name)

theorem level_extend (ceiling : ReusableWorkflowPermissions)
    (chain : CallChain) (link : CallLink) (name : String) :
    (chain.extend link).level ceiling name = min (min (chain.level ceiling name)
        (requestLevel link.callerRequest name))
        (requestLevel link.plan.permissions name) := by
  change min (requestLevel link.plan.permissions name)
    (min (requestLevel link.callerRequest name) (chain.level ceiling name)) = _
  rw [min_comm, min_comm (requestLevel link.callerRequest name)]

theorem level_extend_le (ceiling : ReusableWorkflowPermissions)
    (chain : CallChain) (link : CallLink) (name : String) :
    (chain.extend link).level ceiling name ≤ chain.level ceiling name := by
  rw [level_extend, min_assoc]
  exact min_le_left _ _

/-- No workflow repeats, and the head holds what the chain leaves to it. -/
structure Authorized (ceiling : ReusableWorkflowPermissions)
    (chain : CallChain) : Prop where
  acyclic : chain.paths.Nodup
  level : ∀ name, chain.invocation.permissions.level name = chain.level ceiling name

end CallChain

/-! ## The unfolding -/

/-- A job as its plan has it and as an invocation lists it. -/
structure ListsJob (job : LogicalJobTemplate) (expanded : ExpandedReusableJob) :
    Prop where
  key : expanded.key = job.key
  sourceOrder : expanded.sourceOrder = job.sourceOrder
  reusable : expanded.reusable = job.isReusableCall

structure Calls (catalog : ReusableWorkflowCatalog) (caller : CallLink)
    (job : LogicalJobTemplate) (expanded : ExpandedReusableJob)
    (callee : CallLink) : Prop where
  resolves : ∃ call entry, job.execution = .reusableWorkflow call ∧
      catalog.resolve call.reference = .ok entry ∧
      callee.plan = entry.plan ∧
      callee.invocation.workflowPath = entry.path ∧
      callee.invocation.sourceDigest = entry.sourceDigest ∧
      callee.invocation.planDigest = entry.planDigest
  callerRequest : callee.callerRequest = job.permissions
  parentId : callee.invocation.parentId = some caller.invocation.id
  callerJobId : callee.invocation.callerJobId = some expanded.id
  depth : callee.invocation.depth = caller.invocation.depth + 1
  jobs : List.Forall₂ ListsJob callee.plan.jobs callee.invocation.jobs

/-- The chains below the head of a chain, for the jobs which are left of it.
A call comes first, then all that unfolds below it. -/
inductive Unfolds (catalog : ReusableWorkflowCatalog) :
    CallChain → List (LogicalJobTemplate × ExpandedReusableJob) → List CallChain → Prop
  | done (chain : CallChain) : Unfolds catalog chain [] []
  | steps {chain : CallChain} {job : LogicalJobTemplate}
      {expanded : ExpandedReusableJob}
      {jobs : List (LogicalJobTemplate × ExpandedReusableJob)}
      {below : List CallChain}
      (hsteps : job.execution = .steps)
      (hrest : Unfolds catalog chain jobs below) :
      Unfolds catalog chain ((job, expanded) :: jobs) below
  | call {chain : CallChain} {job : LogicalJobTemplate}
      {expanded : ExpandedReusableJob}
      {jobs : List (LogicalJobTemplate × ExpandedReusableJob)}
      {link : CallLink} {below rest : List CallChain}
      (hcalls : Calls catalog chain.head job expanded link)
      (hbelow : Unfolds catalog (chain.extend link)
        (link.plan.jobs.zip link.invocation.jobs) below)
      (hrest : Unfolds catalog chain jobs rest) :
      Unfolds catalog chain ((job, expanded) :: jobs)
        (chain.extend link :: (below ++ rest))

/-! ## Steps of the materialized policy -/

variable {jobs : List LogicalJobTemplate} {ids : List (String × Uuid)}
  {expanded : List ExpandedReusableJob} {context next : ExpansionContext}

theorem assignJobIds_spec {identities : ReusableIdentities} {runId invocationId : Uuid}
    {root : Bool} {start final : List Uuid} {before after : List (String × Uuid)}
    (hjobs : jobs.foldlM (assignJobId identities runId invocationId root)
      (start, before) = .ok (final, after)) :
    ∃ assigned, after = before ++ assigned ∧
        assigned.map Prod.fst = jobs.map LogicalJobTemplate.key ∧
        final = (assigned.map Prod.snd).reverse ++ start ∧
        KeyedList.Fresh start (assigned.map Prod.snd) := by
  induction jobs generalizing start before with
  | nil =>
    rw [List.foldlM_nil, pure_eq_ok, Prod.mk.injEq] at hjobs
    obtain ⟨rfl, rfl⟩ := hjobs
    exact ⟨[], by simp, rfl, rfl, KeyedList.fresh_nil⟩
  | cons job jobs ih =>
    rw [List.foldlM_cons, bind_eq_ok] at hjobs
    obtain ⟨⟨_, _⟩, hjob, hrest⟩ := hjobs
    simp only [assignJobId, bind_eq_ok, rejectIf_eq_ok, pure_eq_ok, Prod.mk.injEq] at hjob
    obtain ⟨id, _, _, hfresh, rfl, rfl⟩ := hjob
    obtain ⟨assigned, rfl, hkeys, rfl, hassigned⟩ := ih hrest
    refine ⟨(job.key, id) :: assigned, by simp, by simp [hkeys], by simp, ?_⟩
    exact KeyedList.fresh_cons.mpr ⟨hfresh, hassigned⟩

theorem expandedJob_spec {job : LogicalJobTemplate} {expanded : ExpandedReusableJob}
    (hexpanded : expandedJob ids job = .ok expanded) :
    ListsJob job expanded ∧ (KeyedList.lookup Prod.fst job.key ids).map Prod.snd =
        some expanded.id := by
  simp only [expandedJob, assignedId, bind_eq_ok, okOr_eq_ok, rejectIf_eq_ok,
    pure_eq_ok] at hexpanded
  obtain ⟨id, hid, _, _, _, _, rfl⟩ := hexpanded
  exact ⟨⟨rfl, rfl, rfl⟩, hid⟩

theorem map_id_eq_assigned (hkeys : ids.map Prod.fst = jobs.map LogicalJobTemplate.key)
    (hdistinct : (jobs.map LogicalJobTemplate.key).Nodup)
    (hids : List.Forall₂ (fun job listed =>
      (KeyedList.lookup Prod.fst job.key ids).map Prod.snd = some listed.id) jobs expanded) :
    expanded.map ExpandedReusableJob.id = ids.map Prod.snd := by
  have hlisted :
      jobs.map (fun job => (KeyedList.lookup Prod.fst job.key ids).map Prod.snd) =
        expanded.map fun listed => some listed.id := by
    rw [← List.forall₂_eq_eq_eq, List.forall₂_map_left_iff, List.forall₂_map_right_iff]
    exact hids
  have hassigned :
      (ids.map Prod.fst).map (fun key => (KeyedList.lookup Prod.fst key ids).map Prod.snd) =
        ids.map fun entry => some entry.2 := by
    rw [List.map_map]
    apply List.map_congr_left
    intro entry hentry
    have hlookup : KeyedList.lookup Prod.fst entry.1 ids = some entry :=
      (KeyedList.lookup_eq_some_iff (hkeys ▸ hdistinct)).mpr ⟨hentry, rfl⟩
    simp [hlookup]
  rw [hkeys, List.map_map] at hassigned
  have hsome : (expanded.map ExpandedReusableJob.id).map some = (ids.map Prod.snd).map some := by
    rw [List.map_map, List.map_map]
    exact hlisted.symm.trans hassigned
  exact List.map_injective_iff.mpr (Option.some_injective _) hsome

theorem expandedJobs_spec {identities : ReusableIdentities} {invocationId : Uuid}
    {plan : WorkflowPlan} {root : Bool} {jobs : List ExpandedReusableJob}
    (hexpanded : expandedJobs identities context invocationId plan root = .ok (jobs, next)) :
    List.Forall₂ ListsJob plan.jobs jobs ∧
      KeyedList.Fresh context.jobIds (jobs.map ExpandedReusableJob.id) ∧
      next = { context with
        jobIds := (jobs.map ExpandedReusableJob.id).reverse ++ context.jobIds } := by
  simp only [expandedJobs, bind_eq_ok, pure_eq_ok, Prod.exists, Prod.mk.injEq] at hexpanded
  obtain ⟨final, ids, hassigned, _, hjobs, rfl, rfl⟩ := hexpanded
  obtain ⟨assigned, hids, hkeys, rfl, hfresh⟩ := assignJobIds_spec hassigned
  rw [List.nil_append] at hids
  subst hids
  rw [mapM_eq_ok] at hjobs
  have hmap := map_id_eq_assigned hkeys plan.keysDistinct
    (hjobs.imp fun _ _ hjob => (expandedJob_spec hjob).2)
  rw [hmap]
  exact ⟨hjobs.imp fun _ _ hjob => (expandedJob_spec hjob).1, hfresh, rfl⟩

structure Records (node : TraversalNode) (seed : MaterializedTraversalSeed)
    (invocation : ReusableWorkflowInvocationExpansion) : Prop where
  id : invocation.id = seed.id
  parentId : invocation.parentId = seed.parentId
  callerJobId : invocation.callerJobId = seed.callerJobId
  depth : invocation.depth = node.depth
  workflowPath : invocation.workflowPath = node.workflowPath
  sourceDigest : invocation.sourceDigest = node.sourceDigest
  planDigest : invocation.planDigest = node.planDigest
  permissions : invocation.permissions = seed.permissions
  jobs : List.Forall₂ ListsJob node.plan.jobs invocation.jobs

namespace MaterializedCredentialPolicy

variable {context next : ExpansionContext} {seed : MaterializedTraversalSeed}

theorem enter_spec {identities : ReusableIdentities} {node : TraversalNode}
    {state : MaterializedTraversalState}
    (henter : enter identities context node seed = .ok (state, next)) :
    ∃ invocation, Records node seed invocation ∧ KeyedList.Fresh context.jobIds
          (invocation.jobs.map ExpandedReusableJob.id) ∧
        state = {
          invocationIndex := context.invocations.length
          id := seed.id
          permissions := seed.permissions
          availableSecretNames := seed.availableSecretNames } ∧
        next = { context with
          jobIds := (invocation.jobs.map ExpandedReusableJob.id).reverse ++ context.jobIds
          invocations := context.invocations ++ [invocation] } := by
  simp only [enter, bind_eq_ok, rejectIf_eq_ok, pure_eq_ok, Prod.exists, Prod.mk.injEq] at henter
  obtain ⟨jobs, _, hjobs, _, _, rfl, rfl⟩ := henter
  obtain ⟨hlisted, hfresh, rfl⟩ := expandedJobs_spec hjobs
  exact ⟨recordedInvocation node seed jobs,
    ⟨rfl, rfl, rfl, rfl, rfl, rfl, rfl, rfl, hlisted⟩, hfresh, rfl, rfl⟩

theorem prepareEdge_spec {identities : ReusableIdentities} {parent : MaterializedTraversalState}
    {edge : TraversalEdge} {prepared : Unit}
    (hprepare : prepareEdge identities context parent edge = .ok ((seed, prepared), next)) :
    ∃ invocation callerJob, context.invocations[parent.invocationIndex]? = some invocation ∧
        callerJob ∈ invocation.jobs ∧
        callerJob.key = edge.job.key ∧
        seed.parentId = some parent.id ∧
        seed.callerJobId = some callerJob.id ∧
        seed.permissions = (parent.permissions.reduce edge.job.permissions).reduce
            edge.callee.plan.permissions ∧
        seed.id ∉ context.invocationIds ∧
        next = { context with
          invocationIds := seed.id :: context.invocationIds } := by
  simp only [prepareEdge, bind_eq_ok, okOr_eq_ok, rejectIf_eq_ok, pure_eq_ok,
    Prod.mk.injEq] at hprepare
  obtain ⟨_, _, invocation, hinvocation, callerJob, hcallerJob, id, _, _,
    hfresh, ⟨rfl, _⟩, rfl⟩ := hprepare
  have hkey := List.find?_some hcallerJob
  refine ⟨invocation, callerJob, hinvocation,
    List.mem_of_find?_eq_some hcallerJob, ?_, rfl, rfl, rfl, hfresh, rfl⟩
  simpa using hkey

end MaterializedCredentialPolicy

theorem resolveEdge_spec {catalog : ReusableWorkflowCatalog}
    {activePaths : List String} {job : LogicalJobTemplate}
    {call : ReusableWorkflowInvocation} {edge : TraversalEdge}
    (hedge : resolveEdge catalog activePaths job call = .ok edge) :
    edge.job = job ∧ edge.call = call ∧ catalog.resolve call.reference = .ok edge.callee ∧
      edge.callee.path ∉ activePaths ∧
      edge.callee.plan.invocation = some edge.contract := by
  simp only [resolveEdge, bind_eq_ok, okOr_eq_ok, rejectIf_eq_ok, pure_eq_ok] at hedge
  obtain ⟨_, _, callee, hcallee, _, hpath, _, _, _, hcontract, _, _, _, _, rfl⟩ := hedge
  exact ⟨rfl, rfl, hcallee, hpath, hcontract⟩

/-! ## A run unfolds the graph -/

/-- The traversal is at the head of a chain, which the list has. -/
structure StandsAt (chain : CallChain) (node : TraversalNode)
    (activePaths : List String) (state : MaterializedTraversalState)
    (invocations : List ReusableWorkflowInvocationExpansion) : Prop where
  listed : invocations[state.invocationIndex]? = some chain.invocation
  id : state.id = chain.invocation.id
  permissions : state.permissions = chain.invocation.permissions
  depth : chain.invocation.depth = node.depth
  paths : activePaths = chain.paths
  keysDistinct :
    (chain.invocation.jobs.map ExpandedReusableJob.key).Nodup

namespace StandsAt

variable {chain : CallChain} {node : TraversalNode}
variable {activePaths : List String} {state : MaterializedTraversalState}
variable {invocations : List ReusableWorkflowInvocationExpansion}

theorem append (hstands : StandsAt chain node activePaths state invocations)
    (more : List ReusableWorkflowInvocationExpansion) :
    StandsAt chain node activePaths state (invocations ++ more) := by
  have hbound := (List.getElem?_eq_some_iff.mp hstands.listed).1
  exact { hstands with
    listed := by
      rw [List.getElem?_append_left hbound]
      exact hstands.listed }

end StandsAt

theorem map_key_of_listsJob (hlisted : List.Forall₂ ListsJob jobs expanded) :
    expanded.map ExpandedReusableJob.key = jobs.map LogicalJobTemplate.key := by
  rw [← List.forall₂_eq_eq_eq, List.forall₂_map_left_iff, List.forall₂_map_right_iff]
  exact hlisted.flip.imp fun _ _ hjob => hjob.key

theorem StandsAt.of_enter {identities : ReusableIdentities} {node : TraversalNode}
    {seed : MaterializedTraversalSeed} {state : MaterializedTraversalState}
    (henter : MaterializedCredentialPolicy.enter identities context node seed = .ok (state, next)) :
    ∃ invocation, Records node seed invocation ∧
        next.invocations = context.invocations ++ [invocation] ∧
        ∀ callerRequest callers activePaths, activePaths = callers.map
            (fun link : CallLink => link.invocation.workflowPath) →
          StandsAt ⟨⟨invocation, node.plan, callerRequest⟩, callers⟩ node
            (node.workflowPath :: activePaths) state next.invocations := by
  obtain ⟨invocation, hrecords, _, rfl, rfl⟩ := MaterializedCredentialPolicy.enter_spec henter
  refine ⟨invocation, hrecords, rfl, ?_⟩
  rintro callerRequest callers _ rfl
  refine ⟨by simp [CallChain.invocation], hrecords.id.symm,
    hrecords.permissions.symm, hrecords.depth, ?_, ?_⟩
  · simp [CallChain.paths, CallChain.links, hrecords.workflowPath]
  · change (invocation.jobs.map ExpandedReusableJob.key).Nodup
    rw [map_key_of_listsJob hrecords.jobs]
    exact node.plan.keysDistinct

/-- The callee of a call extends the chain of its caller, with the
permissions which the call leaves to it. -/
theorem CallChain.Authorized.extend {ceiling : ReusableWorkflowPermissions} {chain : CallChain}
    (hauthorized : chain.Authorized ceiling) {link : CallLink}
    (hpath : link.invocation.workflowPath ∉ chain.paths)
    (hpermissions : link.invocation.permissions =
      (chain.invocation.permissions.reduce link.callerRequest).reduce link.plan.permissions) :
    (chain.extend link).Authorized ceiling := by
  constructor
  · exact List.nodup_cons.mpr ⟨hpath, hauthorized.acyclic⟩
  · intro name
    change link.invocation.permissions.level name = _
    rw [hpermissions, level_reduce, level_reduce, hauthorized.level, CallChain.level_extend]

section Runs

variable {identities : ReusableIdentities}
variable {catalog : ReusableWorkflowCatalog}
variable {limits : ReusableWorkflowLimits}
variable {ceiling : ReusableWorkflowPermissions}

variable {node : TraversalNode} {activePaths : List String}
  {state final : MaterializedTraversalState} {progress finish : TraversalProgress ExpansionContext}
  {jobs : List LogicalJobTemplate}

theorem calls_of_entered {calleeState : MaterializedTraversalState}
    {start : TraversalProgress ExpansionContext} {chain : CallChain} {job : LogicalJobTemplate}
    {expanded : ExpandedReusableJob} {call : ReusableWorkflowInvocation} {edge : TraversalEdge}
    {seed : MaterializedTraversalSeed} {prepared : Unit} {preparedPolicy : ExpansionContext}
    (hstands : StandsAt chain node activePaths state
      progress.policy.invocations) (hauthorized : chain.Authorized ceiling)
    (hlisted : ListsJob job expanded) (hexpanded : expanded ∈ chain.invocation.jobs)
    (hcall : job.execution = .reusableWorkflow call)
    (hedge : resolveEdge catalog activePaths job call = .ok edge)
    (hprepare : MaterializedCredentialPolicy.prepareEdge identities
      progress.policy state edge = .ok ((seed, prepared), preparedPolicy))
    (hentered : Entered (materializedCredentialPolicy identities) limits
      (edge.callee.toNode (node.depth + 1)) seed activePaths
      { progress with policy := preparedPolicy } calleeState start) :
    ∃ link, Calls catalog chain.head job expanded link ∧ link.plan = edge.callee.plan ∧
        (chain.extend link).Authorized ceiling ∧
        start.policy.invocations = progress.policy.invocations ++ [link.invocation] ∧
        StandsAt (chain.extend link) (edge.callee.toNode (node.depth + 1))
          (edge.callee.path :: activePaths) calleeState
          start.policy.invocations := by
  obtain ⟨rfl, rfl, hresolve, hacyclic, -⟩ := resolveEdge_spec hedge
  obtain ⟨caller, callerJob, hcaller, hcallerJob, hkey, hparentId, hcallerJobId, hpermissions, -,
    rfl⟩ := MaterializedCredentialPolicy.prepareEdge_spec hprepare
  obtain ⟨invocation, hrecords, hinvocations, hat⟩ := StandsAt.of_enter hentered.enter
  -- The caller job is the listed job: the invocation has one of its key.
  have hsame : caller = chain.invocation := Option.some.inj (hcaller.symm.trans hstands.listed)
  have hjob : callerJob = expanded :=
    KeyedList.eq_of_mem_of_key_eq hstands.keysDistinct (hsame ▸ hcallerJob)
      hexpanded (hkey.trans hlisted.key.symm)
  refine ⟨⟨invocation, edge.callee.plan, edge.job.permissions⟩, ?_, rfl, ?_,
    hinvocations, hat _ _ _ hstands.paths⟩
  · refine ⟨⟨edge.call, edge.callee, hcall, hresolve, rfl,
      hrecords.workflowPath, hrecords.sourceDigest, hrecords.planDigest⟩, rfl,
      ?_, ?_, ?_, hrecords.jobs⟩
    · rw [hrecords.parentId, hparentId, hstands.id]
      rfl
    · rw [hrecords.callerJobId, hcallerJobId, hjob]
    · rw [hrecords.depth]
      exact congrArg (· + 1) hstands.depth.symm
  · apply hauthorized.extend
    · rw [← hstands.paths, hrecords.workflowPath]
      exact hacyclic
    · rw [hrecords.permissions, hpermissions, hstands.permissions]

theorem TraversedJobs.unfolds
    (hrun : TraversedJobs (materializedCredentialPolicy identities) catalog
      limits node activePaths state progress jobs final finish) :
    ∀ {chain : CallChain} {expanded : List ExpandedReusableJob},
      StandsAt chain node activePaths state progress.policy.invocations →
      chain.Authorized ceiling →
      List.Forall₂ ListsJob jobs expanded →
      expanded ⊆ chain.invocation.jobs →
      ∃ below, finish.policy.invocations =
          progress.policy.invocations ++ below.map CallChain.invocation ∧
        Unfolds catalog chain (jobs.zip expanded) below ∧
        ∀ lower ∈ below, lower.Authorized ceiling := by
  induction hrun with
  | done =>
    intro chain expanded _ _ _ _
    exact ⟨[], by simp, .done chain, by simp⟩
  | steps hsteps _ ih =>
    intro chain expanded hstands hauthorized hlisted hsubset
    obtain ⟨listed, rest, _, hrest, rfl⟩ := List.forall₂_cons_left_iff.mp hlisted
    obtain ⟨below, hbelow, hunfolds, hlower⟩ :=
      ih hstands hauthorized hrest (List.subset_of_cons_subset hsubset)
    exact ⟨below, hbelow, .steps hsteps hunfolds, hlower⟩
  | call hcall hedge hprepare hentered _ hfinish hfinishEdge _ _ ihCallee ihRest =>
      intro chain expanded hstands hauthorized hlisted hsubset
      obtain ⟨listed, rest, hlistedJob, hrest, rfl⟩ := List.forall₂_cons_left_iff.mp hlisted
      obtain ⟨link, hcalls, hplan, hlinkAuthorized, hstart, hlinkStands⟩ := calls_of_entered hstands
        hauthorized hlistedJob (hsubset List.mem_cons_self) hcall hedge hprepare hentered
      have hlinkJobs := hcalls.jobs
      rw [hplan] at hlinkJobs
      obtain ⟨below, hbelow, hunfoldsBelow, hlowerBelow⟩ :=
        ihCallee hlinkStands hlinkAuthorized hlinkJobs (List.Subset.refl _)
      -- The policy closes a callee and its edge without a change.
      obtain ⟨-, rfl⟩ := Prod.mk.inj (Except.ok.inj hfinish)
      obtain ⟨rfl, hafter⟩ := Prod.mk.inj (Except.ok.inj hfinishEdge)
      have hinvocations := congrArg ExpansionContext.invocations hafter
      rw [hbelow, hstart, List.append_assoc] at hinvocations
      have hstandsAfter := hstands.append ([link.invocation] ++ below.map CallChain.invocation)
      rw [hinvocations] at hstandsAfter
      obtain ⟨others, hothers, hunfoldsRest, hlowerRest⟩ := ihRest hstandsAfter hauthorized hrest
        (List.subset_of_cons_subset hsubset)
      refine ⟨chain.extend link :: (below ++ others), ?_, ?_, ?_⟩
      · rw [hothers, ← hinvocations]
        simp [CallChain.invocation, CallChain.extend]
      · refine .call hcalls ?_ hunfoldsRest
        rw [hplan]
        exact hunfoldsBelow
      · intro lower hmem
        rw [List.mem_cons, List.mem_append] at hmem
        rcases hmem with rfl | hmem | hmem
        · exact hlinkAuthorized
        · exact hlowerBelow lower hmem
        · exact hlowerRest lower hmem

/-! ## Totals and identities -/

/-- The totals and identities of a run, with the ids which were handed out
and are not listed yet. -/
structure Accounted (limits : ReusableWorkflowLimits) (pending : List Uuid)
    (progress : TraversalProgress ExpansionContext) : Prop where
  invocationIds :
    (pending ++ progress.policy.invocations.map (·.id)).Perm
      progress.policy.invocationIds
  invocationIdsDistinct : progress.policy.invocationIds.Nodup
  jobIds :
    (progress.policy.invocations.flatMap fun invocation =>
      invocation.jobs.map ExpandedReusableJob.id).Perm progress.policy.jobIds
  jobIdsDistinct : progress.policy.jobIds.Nodup
  invocationCount :
    progress.invocationCount = progress.policy.invocations.length
  jobCount :
    progress.jobCount = (progress.policy.invocations.flatMap (·.jobs)).length
  invocationsBounded : progress.invocationCount ≤ limits.maximumInvocations
  jobsBounded : progress.jobCount ≤ limits.maximumJobs
  depths : ∀ invocation ∈ progress.policy.invocations, invocation.depth ≤ limits.maximumDepth

namespace Accounted

variable {seed : MaterializedTraversalSeed}

theorem prepareEdge {progress : TraversalProgress ExpansionContext}
    (haccounted : Accounted limits [] progress) {parent : MaterializedTraversalState}
    {edge : TraversalEdge} {prepared : Unit} {context : ExpansionContext}
    (hprepare : MaterializedCredentialPolicy.prepareEdge identities
      progress.policy parent edge = .ok ((seed, prepared), context)) :
    Accounted limits [seed.id] { progress with policy := context } := by
  obtain ⟨_, _, -, -, -, -, -, -, hfresh, rfl⟩ :=
    MaterializedCredentialPolicy.prepareEdge_spec hprepare
  exact { haccounted with
    invocationIds := haccounted.invocationIds.cons seed.id
    invocationIdsDistinct := List.nodup_cons.mpr ⟨hfresh, haccounted.invocationIdsDistinct⟩ }

theorem entered {progress start : TraversalProgress ExpansionContext} {node : TraversalNode}
    {activePaths : List String} {state : MaterializedTraversalState}
    (haccounted : Accounted limits [seed.id] progress)
    (hentered : Entered (materializedCredentialPolicy identities) limits node
      seed activePaths progress state start) : Accounted limits [] start := by
  obtain ⟨invocation, hrecords, hfresh, -, hpolicy⟩ :=
    MaterializedCredentialPolicy.enter_spec hentered.enter
  have hlength := hrecords.jobs.length_eq
  constructor
  · rw [hpolicy]
    have hperm := haccounted.invocationIds
    simp only [List.nil_append, List.map_append, List.map_cons, List.map_nil, hrecords.id]
    exact (List.perm_append_comm).trans hperm
  · rw [hpolicy]
    exact haccounted.invocationIdsDistinct
  · rw [hpolicy]
    simp only [List.flatMap_append, List.flatMap_singleton]
    exact List.perm_append_comm.trans ((List.reverse_perm _).symm.append haccounted.jobIds)
  · rw [hpolicy]
    obtain ⟨hdistinct, hunseen⟩ := hfresh
    rw [List.nodup_append]
    refine ⟨List.nodup_reverse.mpr hdistinct, haccounted.jobIdsDistinct, ?_⟩
    rintro id hid _ hseen rfl
    exact hunseen id (List.mem_reverse.mp hid) hseen
  · rw [hentered.invocationCount, haccounted.invocationCount, hpolicy]
    simp
  · rw [hentered.jobCount, haccounted.jobCount, hpolicy, hlength]
    simp [List.flatMap_append]
  · exact hentered.invocationsBounded
  · exact hentered.jobsBounded
  · intro listed hlisted
    rw [hpolicy, List.mem_append, List.mem_singleton] at hlisted
    rcases hlisted with hlisted | rfl
    · exact haccounted.depths listed hlisted
    · rw [hrecords.depth]
      exact hentered.depth

end Accounted

theorem TraversedJobs.accounted
    (hrun : TraversedJobs (materializedCredentialPolicy identities) catalog
      limits node activePaths state progress jobs final finish)
    (haccounted : Accounted limits [] progress) : Accounted limits [] finish := by
  induction hrun with
  | done => exact haccounted
  | steps _ _ ih => exact ih haccounted
  | @call _ _ _ _ _ _ _ below after _ _ _ _ _ _ _ _ _ _ _ _ _ _ hprepare
      hentered _ hfinish hfinishEdge hcounts _ ihCallee ihRest =>
      have hbelow := ihCallee ((haccounted.prepareEdge hprepare).entered hentered)
      obtain ⟨-, rfl⟩ := Prod.mk.inj (Except.ok.inj hfinish)
      obtain ⟨-, hpolicy⟩ := Prod.mk.inj (Except.ok.inj hfinishEdge)
      have hafter : after = below := by
        cases after
        cases below
        simp_all
      exact ihRest (hafter ▸ hbelow)

end Runs

/-! ## Calls and their children -/

section Children

variable {catalog : ReusableWorkflowCatalog}

def callJobIds (jobs : List ExpandedReusableJob) : List (Option Uuid) :=
  (jobs.filter ExpandedReusableJob.reusable).map fun job => some job.id

theorem callJobIds_append (first second : List ExpandedReusableJob) :
    callJobIds (first ++ second) = callJobIds first ++ callJobIds second := by
  simp [callJobIds]

theorem callJobIds_cons_of_reusable {job : ExpandedReusableJob}
    (hreusable : job.reusable = true) (jobs : List ExpandedReusableJob) :
    callJobIds (job :: jobs) = some job.id :: callJobIds jobs := by
  simp [callJobIds, hreusable]

variable {chain : CallChain} {jobs : List (LogicalJobTemplate × ExpandedReusableJob)}
  {below : List CallChain}

theorem Unfolds.callerJobIds_perm (hunfolds : Unfolds catalog chain jobs below)
    (hlisted : ∀ job ∈ jobs, ListsJob job.1 job.2) :
    (below.map fun lower => lower.invocation.callerJobId).Perm
      (callJobIds (jobs.map Prod.snd ++ below.flatMap fun lower => lower.invocation.jobs)) := by
  induction hunfolds with
  | done => exact .refl _
  | @steps _ job expanded _ _ hsteps _ ih =>
    rw [List.forall_mem_cons] at hlisted
    have hreusable : expanded.reusable = false := by
      rw [hlisted.1.reusable, LogicalJobTemplate.isReusableCall, hsteps]
    simpa [callJobIds, hreusable] using ih hlisted.2
  | @call chain job expanded jobs link below rest hcalls _ _ ihBelow ihRest =>
    rw [List.forall_mem_cons] at hlisted
    have hreusable : expanded.reusable = true := by
      obtain ⟨call, _, hcall, _⟩ := hcalls.resolves
      rw [hlisted.1.reusable, LogicalJobTemplate.isReusableCall, hcall]
    have hzip : (link.plan.jobs.zip link.invocation.jobs).map Prod.snd = link.invocation.jobs :=
      List.map_snd_zip hcalls.jobs.length_eq.ge
    have hbelow := ihBelow fun pair hpair => List.forall₂_iff_zip.mp hcalls.jobs |>.2 hpair
    rw [hzip] at hbelow
    have hrest := ihRest hlisted.2
    have hcallee : (chain.extend link).invocation.callerJobId = some expanded.id :=
      hcalls.callerJobId
    have hjobs :
        callJobIds (((job, expanded) :: jobs).map Prod.snd ++
            (chain.extend link :: (below ++ rest)).flatMap fun lower => lower.invocation.jobs) =
          some expanded.id :: callJobIds (jobs.map Prod.snd ++ (link.invocation.jobs ++
              (below.flatMap fun lower => lower.invocation.jobs) ++
              rest.flatMap fun lower => lower.invocation.jobs)) := by
      rw [List.flatMap_cons, List.flatMap_append, List.map_cons, List.cons_append,
        callJobIds_cons_of_reusable hreusable, List.append_assoc]
      rfl
    rw [hjobs, List.map_cons, hcallee, List.map_append]
    refine List.Perm.cons _ ((hbelow.append hrest).trans ?_)
    rw [← callJobIds_append]
    exact ((List.perm_append_comm_assoc _ _ _).filter _).map _

theorem Unfolds.extends (hunfolds : Unfolds catalog chain jobs below)
    (hjobs : ∀ job ∈ jobs, job.2 ∈ chain.invocation.jobs) :
    ∀ lower ∈ below, ∃ upper ∈ chain :: below, ∃ job expanded link, lower = upper.extend link ∧
        expanded ∈ upper.invocation.jobs ∧
        Calls catalog upper.head job expanded link := by
  induction hunfolds with
  | done => simp
  | steps _ _ ih => exact ih fun job hjob => hjobs job (.tail _ hjob)
  | @call chain job expanded jobs link below rest hcalls _ _ ihBelow ihRest =>
    intro lower hlower
    rw [List.mem_cons, List.mem_append] at hlower
    rcases hlower with rfl | hlower | hlower
    · exact ⟨chain, List.mem_cons_self, job, expanded, link, rfl,
        hjobs _ List.mem_cons_self, hcalls⟩
    · obtain ⟨upper, hupper, hextends⟩ :=
        ihBelow (fun _ hpair => (List.of_mem_zip hpair).2) lower hlower
      refine ⟨upper, ?_, hextends⟩
      exact .tail _ (List.mem_append_left rest hupper)
    · obtain ⟨upper, hupper, hextends⟩ :=
        ihRest (fun pair hpair => hjobs pair (.tail _ hpair)) lower hlower
      refine ⟨upper, ?_, hextends⟩
      rcases List.mem_cons.mp hupper with rfl | hupper
      · exact List.mem_cons_self
      · exact .tail _ (.tail _ (List.mem_append_right below hupper))

end Children

/-! ## The expansion -/

/-- The root of the unfolding, which the request describes. -/
structure IsRoot (request : ExpandReusableWorkflowRequest) (root : CallLink) :
    Prop where
  plan : root.plan = request.rootPlan
  callerRequest : root.callerRequest = none
  id : root.invocation.id = request.rootInvocationId
  parentId : root.invocation.parentId = none
  callerJobId : root.invocation.callerJobId = none
  depth : root.invocation.depth = 0
  workflowPath : root.invocation.workflowPath = request.rootPath
  sourceDigest : root.invocation.sourceDigest = request.rootSourceDigest
  planDigest : root.invocation.planDigest = request.rootPlanDigest
  jobs : List.Forall₂ ListsJob request.rootPlan.jobs root.invocation.jobs

def UnfoldsFrom (catalog : ReusableWorkflowCatalog)
    (request : ExpandReusableWorkflowRequest) (chains : List CallChain) :
    Prop :=
  ∃ root below, IsRoot request root ∧
      Unfolds catalog ⟨root, []⟩ (root.plan.jobs.zip root.invocation.jobs) below ∧
      chains = ⟨root, []⟩ :: below

structure IsChild (parent : ReusableWorkflowInvocationExpansion)
    (job : ExpandedReusableJob)
    (child : ReusableWorkflowInvocationExpansion) : Prop where
  parentId : child.parentId = some parent.id
  callerJobId : child.callerJobId = some job.id
  depth : child.depth = parent.depth + 1

/-- The unfolding of the call graph within the limits, in which no callee
holds more than its chain of calls leaves to it. -/
structure LeastAuthorityUnfolding (catalog : ReusableWorkflowCatalog)
    (request : ExpandReusableWorkflowRequest)
    (limits : ReusableWorkflowLimits)
    (invocations : List ReusableWorkflowInvocationExpansion) : Prop where
  chains : ∃ chains, UnfoldsFrom catalog request chains ∧
      invocations = chains.map CallChain.invocation ∧
      ∀ chain ∈ chains, chain.Authorized request.rootPermissions
  child : ∀ invocation ∈ invocations, ∀ job ∈ invocation.jobs, job.reusable = true →
      ∃ child ∈ invocations, IsChild invocation job child ∧
          ∀ other ∈ invocations, other.callerJobId = some job.id → other = child
  invocationIdsDistinct : (invocations.map (·.id)).Nodup
  jobIdsDistinct : ((invocations.flatMap (·.jobs)).map (·.id)).Nodup
  depthsBounded : ∀ invocation ∈ invocations, invocation.depth ≤ limits.maximumDepth
  invocationsBounded : invocations.length ≤ limits.maximumInvocations
  jobsBounded : (invocations.flatMap (·.jobs)).length ≤ limits.maximumJobs
  attenuates : ∀ parent ∈ invocations, ∀ child ∈ invocations, child.parentId = some parent.id →
      ∀ name, child.permissions.level name ≤ parent.permissions.level name

section Expansion

variable {catalog : ReusableWorkflowCatalog}
variable {request : ExpandReusableWorkflowRequest}
variable {chains : List CallChain}

theorem UnfoldsFrom.callerJobIds_perm (hunfolds : UnfoldsFrom catalog request chains) :
    (chains.map fun chain => chain.invocation.callerJobId).Perm
      (none :: callJobIds (chains.flatMap fun chain =>
        chain.invocation.jobs)) := by
  obtain ⟨root, below, hroot, hbelow, rfl⟩ := hunfolds
  have hjobs := hroot.jobs
  rw [← hroot.plan] at hjobs
  have hzip : (root.plan.jobs.zip root.invocation.jobs).map Prod.snd = root.invocation.jobs :=
    List.map_snd_zip hjobs.length_eq.ge
  have hperm := hbelow.callerJobIds_perm fun pair hpair => (List.forall₂_iff_zip.mp hjobs).2 hpair
  rw [hzip] at hperm
  rw [List.map_cons, List.flatMap_cons]
  change (root.invocation.callerJobId :: _).Perm _
  rw [hroot.callerJobId]
  exact hperm.cons none

theorem UnfoldsFrom.extends (hunfolds : UnfoldsFrom catalog request chains)
    {lower : CallChain} (hlower : lower ∈ chains) :
    (lower.invocation.parentId = none ∧ lower.invocation.callerJobId = none) ∨
      ∃ upper ∈ chains, ∃ expanded link, lower = upper.extend link ∧
          expanded ∈ upper.invocation.jobs ∧
          IsChild upper.invocation expanded lower.invocation := by
  obtain ⟨root, below, hroot, hbelow, rfl⟩ := hunfolds
  rcases List.mem_cons.mp hlower with rfl | hlower
  · exact .inl ⟨hroot.parentId, hroot.callerJobId⟩
  · obtain ⟨upper, hupper, job, expanded, link, rfl, hexpanded, hcalls⟩ :=
      hbelow.extends (fun _ hpair => (List.of_mem_zip hpair).2) lower hlower
    exact .inr ⟨upper, hupper, expanded, link, rfl, hexpanded,
      hcalls.parentId, hcalls.callerJobId, hcalls.depth⟩

theorem eq_of_job_id_eq {invocations : List ReusableWorkflowInvocationExpansion}
    (hdistinct : ((invocations.flatMap (·.jobs)).map (·.id)).Nodup)
    {left right : ReusableWorkflowInvocationExpansion}
    (hleft : left ∈ invocations) (hright : right ∈ invocations)
    {leftJob rightJob : ExpandedReusableJob}
    (hleftJob : leftJob ∈ left.jobs) (hrightJob : rightJob ∈ right.jobs)
    (hid : leftJob.id = rightJob.id) :
    left = right := by
  by_contra hne
  rw [List.map_flatMap, List.nodup_flatMap] at hdistinct
  have hsymm : Std.Symm (Function.onFun List.Disjoint
      fun invocation : ReusableWorkflowInvocationExpansion => invocation.jobs.map (·.id)) :=
    ⟨fun _ _ hapart => List.Disjoint.symm hapart⟩
  have hapart := hdistinct.2.forall hleft hright hne
  exact hapart (List.mem_map_of_mem hleftJob) (hid ▸ List.mem_map_of_mem hrightJob)

theorem UnfoldsFrom.child (hunfolds : UnfoldsFrom catalog request chains)
    (hdistinct : (((chains.map CallChain.invocation).flatMap (·.jobs)).map (·.id)).Nodup)
    {invocation : ReusableWorkflowInvocationExpansion}
    (hinvocation : invocation ∈ chains.map CallChain.invocation)
    {job : ExpandedReusableJob} (hjob : job ∈ invocation.jobs)
    (hreusable : job.reusable = true) :
    ∃ child ∈ chains.map CallChain.invocation, IsChild invocation job child ∧
        ∀ other ∈ chains.map CallChain.invocation,
          other.callerJobId = some job.id → other = child := by
  have hperm := hunfolds.callerJobIds_perm
  have hflatMap :
      (chains.map CallChain.invocation).flatMap (·.jobs) =
        chains.flatMap fun chain => chain.invocation.jobs :=
    List.flatMap_map ..
  -- One chain has the job as its caller, since the permutation lists it.
  have hlisted : job ∈ (chains.map CallChain.invocation).flatMap (·.jobs) :=
    List.mem_flatMap.mpr ⟨invocation, hinvocation, hjob⟩
  have hcaller : some job.id ∈ chains.map fun chain => chain.invocation.callerJobId := by
    rw [hperm.mem_iff, ← hflatMap]
    exact .tail _ (List.mem_map.mpr ⟨job, List.mem_filter.mpr ⟨hlisted, hreusable⟩, rfl⟩)
  obtain ⟨lower, hlower, hlowerId⟩ := List.mem_map.mp hcaller
  -- No other chain has it, since the job ids are distinct.
  have honce : (chains.map fun chain => chain.invocation.callerJobId).Nodup := by
    rw [hperm.nodup_iff, List.nodup_cons, ← hflatMap]
    refine ⟨by simp [callJobIds], ?_⟩
    have hsome := hdistinct.map (Option.some_injective _)
    rw [List.map_map] at hsome
    exact hsome.sublist (List.filter_sublist.map _)
  refine ⟨lower.invocation, List.mem_map_of_mem hlower, ?_, ?_⟩
  · rcases hunfolds.extends hlower with ⟨-, hnone⟩ |
      ⟨upper, hupper, expanded, link, rfl, hexpanded, hchild⟩
    · rw [hnone] at hlowerId
      cases hlowerId
    · have hid : expanded.id = job.id := Option.some.inj (hchild.callerJobId.symm.trans hlowerId)
      have hparent : upper.invocation = invocation :=
        eq_of_job_id_eq hdistinct (List.mem_map_of_mem hupper) hinvocation hexpanded hjob hid
      exact ⟨hparent ▸ hchild.parentId, hlowerId, hparent ▸ hchild.depth⟩
  · intro other hother hotherId
    obtain ⟨chain, hchain, rfl⟩ := List.mem_map.mp hother
    exact congrArg CallChain.invocation (List.inj_on_of_nodup_map honce hchain hlower
        (hotherId.trans hlowerId.symm))

theorem UnfoldsFrom.attenuates (hunfolds : UnfoldsFrom catalog request chains)
    (hdistinct : ((chains.map CallChain.invocation).map (·.id)).Nodup)
    (hauthorized : ∀ chain ∈ chains, chain.Authorized request.rootPermissions)
    {parent child : ReusableWorkflowInvocationExpansion}
    (hparent : parent ∈ chains.map CallChain.invocation)
    (hchild : child ∈ chains.map CallChain.invocation)
    (hparentId : child.parentId = some parent.id) (name : String) :
    child.permissions.level name ≤ parent.permissions.level name := by
  obtain ⟨lower, hlower, rfl⟩ := List.mem_map.mp hchild
  rcases hunfolds.extends hlower with ⟨hnone, -⟩ | ⟨upper, hupper, _, link, rfl, -, hisChild⟩
  · rw [hnone] at hparentId
    cases hparentId
  · have hid : upper.invocation.id = parent.id :=
      Option.some.inj (hisChild.parentId.symm.trans hparentId)
    have hsame : upper.invocation = parent :=
      List.inj_on_of_nodup_map hdistinct (List.mem_map_of_mem hupper) hparent hid
    rw [(hauthorized _ hlower).level, ← hsame, (hauthorized _ hupper).level]
    exact CallChain.level_extend_le _ _ _ _

end Expansion

section Root

variable {environment : ExpansionEnvironment}
variable {request : ExpandReusableWorkflowRequest}
variable {limits : ReusableWorkflowLimits}

theorem accounted_rootContext :
    Accounted limits [request.rootInvocationId] ⟨0, 0, request.rootContext⟩ :=
  { invocationIds := .refl _
    invocationIdsDistinct := List.nodup_singleton _
    jobIds := .refl _
    jobIdsDistinct := List.nodup_nil
    invocationCount := rfl
    jobCount := rfl
    invocationsBounded := Nat.zero_le _
    jobsBounded := Nat.zero_le _
    depths := by simp [ExpandReusableWorkflowRequest.rootContext] }

theorem root_of_enter {context : ExpansionContext} {state : MaterializedTraversalState}
    (henter : MaterializedCredentialPolicy.enter environment.identities
      request.rootContext request.rootNode request.rootSeed = .ok (state, context)) :
    ∃ root, IsRoot request root ∧ context.invocations = [root.invocation] ∧
        CallChain.Authorized request.rootPermissions ⟨root, []⟩ ∧
        StandsAt ⟨root, []⟩ request.rootNode [request.rootPath] state context.invocations := by
  obtain ⟨invocation, hrecords, hinvocations, hstands⟩ := StandsAt.of_enter henter
  refine ⟨⟨invocation, request.rootPlan, none⟩, ?_, hinvocations, ?_, hstands none [] [] rfl⟩
  · exact ⟨rfl, rfl, hrecords.id, hrecords.parentId, hrecords.callerJobId,
      hrecords.depth, hrecords.workflowPath, hrecords.sourceDigest,
      hrecords.planDigest, hrecords.jobs⟩
  · refine ⟨List.nodup_singleton _, fun name => ?_⟩
    change invocation.permissions.level name = _
    rw [hrecords.permissions]
    change (request.rootPermissions.reduce request.rootPlan.permissions).level name =
        min (requestLevel request.rootPlan.permissions name)
          (min .write (request.rootPermissions.level name))
    rw [level_reduce, min_eq_right (PermissionLevel.le_write _), min_comm]

theorem leastAuthorityUnfolding_of_traversed
    {final : TraversalProgress ExpansionContext} {output : Unit}
    (hrun : Traversed (materializedCredentialPolicy environment.identities)
      environment.catalog limits request.rootNode request.rootSeed []
      ⟨0, 0, request.rootContext⟩ output final) :
    LeastAuthorityUnfolding environment.catalog request limits final.policy.invocations := by
  obtain ⟨state, start, finalState, finish, hentered, hjobs, hfinish, hcount, hjobCount⟩ := hrun
  obtain ⟨-, hpolicy⟩ := Prod.mk.inj (Except.ok.inj hfinish)
  have hfinal : final = finish := by
    cases final
    cases finish
    simp_all
  subst hfinal
  obtain ⟨root, hroot, hstart, hauthorized, hstands⟩ := root_of_enter hentered.enter
  obtain ⟨below, hbelow, hunfolds, hlower⟩ :=
    hjobs.unfolds hstands hauthorized hroot.jobs (List.Subset.refl _)
  have haccounted := hjobs.accounted (accounted_rootContext.entered hentered)
  have hunfoldsFrom : UnfoldsFrom environment.catalog request (⟨root, []⟩ :: below) := by
    refine ⟨root, below, hroot, ?_, rfl⟩
    rw [hroot.plan]
    exact hunfolds
  have hinvocations : final.policy.invocations =
      (⟨root, []⟩ :: below : List CallChain).map CallChain.invocation := by
    rw [hbelow, hstart]
    rfl
  have hall : ∀ chain ∈ (⟨root, []⟩ :: below : List CallChain),
      chain.Authorized request.rootPermissions :=
    List.forall_mem_cons.mpr ⟨hauthorized, hlower⟩
  have hids : (final.policy.invocations.map (·.id)).Nodup :=
    haccounted.invocationIds.nodup_iff.mpr haccounted.invocationIdsDistinct
  have hjobIds : ((final.policy.invocations.flatMap (·.jobs)).map (·.id)).Nodup := by
    rw [List.map_flatMap]
    exact haccounted.jobIds.nodup_iff.mpr haccounted.jobIdsDistinct
  exact
    { chains := ⟨_, hunfoldsFrom, hinvocations, hall⟩
      child := by
        rw [hinvocations] at hjobIds ⊢
        intro invocation hinvocation job hjob hreusable
        exact hunfoldsFrom.child hjobIds hinvocation hjob hreusable
      invocationIdsDistinct := hids
      jobIdsDistinct := hjobIds
      depthsBounded := haccounted.depths
      invocationsBounded := haccounted.invocationCount ▸ haccounted.invocationsBounded
      jobsBounded := haccounted.jobCount ▸ haccounted.jobsBounded
      attenuates := by
        rw [hinvocations] at hids ⊢
        intro parent hparent child hchild hparentId name
        exact hunfoldsFrom.attenuates hids hall hparent hchild hparentId name }

end Root

/-- The recursion of the traversal has one solution, and what the expansion
lists is the least authority unfolding of the call graph. -/
theorem expandReusableWorkflow_unfolds (environment : ExpansionEnvironment)
    (request : ExpandReusableWorkflowRequest)
    (limits : ReusableWorkflowLimits) :
    (∀ recurse, (∀ node seed activePaths progress, recurse node seed activePaths progress =
            traverseEntry (materializedCredentialPolicy environment.identities)
              environment.catalog limits recurse node seed activePaths
              progress) ↔
        recurse = traverseReusableInvocation (materializedCredentialPolicy environment.identities)
            environment.catalog limits) ∧
      ∀ expansion, expandReusableWorkflow environment request limits = .ok expansion →
          LeastAuthorityUnfolding environment.catalog request limits expansion.invocations := by
  refine ⟨traverseReusableInvocation_unique, ?_⟩
  intro expansion hexpansion
  simp only [expandReusableWorkflow, bind_eq_ok, pure_eq_ok, Prod.exists] at hexpansion
  obtain ⟨_, _, output, final, hrun, _, _, rfl⟩ := hexpansion
  exact leastAuthorityUnfolding_of_traversed (traversed_of_traverseReusableInvocation hrun)

namespace UnfoldingSample

def contract : WorkflowInvocationContract :=
  { inputs := []
    secrets := []
    outputs := []
    inputsDistinct := List.nodup_nil
    secretsDistinct := List.nodup_nil
    outputsDistinct := List.nodup_nil }

def job (key : String) (needs : List String) (needsDistinct : needs.Nodup)
    (needsBounded : needs.length ≤ maxLogicalJobNeeds)
    (permissions : Option WorkflowPermissions)
    (execution : LogicalJobKind) : LogicalJobTemplate :=
  { key
    sourceOrder := 0
    needs
    hasStrategy := false
    permissions
    outputs := []
    execution
    needsDistinct
    needsBounded
    outputsDistinct := List.nodup_nil
    outputsBounded := Nat.zero_le _ }

def call : ReusableWorkflowInvocation :=
  { reference := "./.github/workflows/deploy.yml"
    inputs := []
    secrets := .inherit
    inputsDistinct := List.nodup_nil }

def rootPlan : WorkflowPlan :=
  { invocation := none
    permissions := some .writeAll
    jobs :=
      [job "build" [] (by simp) (by decide) none .steps,
        job "release" ["build"] (by simp) (by decide)
          (some (.mapping [⟨"contents", .write⟩])) (.reusableWorkflow call)]
    keysDistinct := by decide }

def calleePlan : WorkflowPlan :=
  { invocation := some contract
    permissions := some .readAll
    jobs := [job "deploy" [] (by simp) (by decide) none .steps]
    keysDistinct := by decide }

def callee : ResolvedCatalogEntry :=
  { path := ".github/workflows/deploy.yml"
    plan := calleePlan
    sourceDigest := ⟨1⟩
    planDigest := ⟨2⟩ }

def identities : ReusableIdentities :=
  { derivedRootJobId := fun _ key => some ⟨BitVec.ofNat 128 key.length⟩
    derivedJobId := fun _ invocation key =>
      some ⟨invocation.bits + BitVec.ofNat 128 (100 + key.length)⟩
    derivedInvocationId := fun _ parent _ _ _ => some ⟨parent.bits + 1⟩ }

def environment : ExpansionEnvironment :=
  { catalog :=
      { resolve := fun _ => .ok callee
        validatePlanOrigin := fun _ => .ok () }
    identities
    verifyRoot := fun _ => .ok ()
    expansionDigest := fun _ _ => .ok ⟨3⟩ }

def request : ExpandReusableWorkflowRequest :=
  { runId := ⟨0⟩
    rootInvocationId := ⟨1⟩
    rootPath := ".github/workflows/release.yml"
    rootPlan
    rootSourceDigest := ⟨4⟩
    rootPlanDigest := ⟨5⟩
    rootSecretNames := .empty
    rootPermissions := ⟨.write, .empty⟩ }

def limits : ReusableWorkflowLimits :=
  { maximumDepth := 4
    maximumInvocations := 8
    maximumJobs := 8 }

end UnfoldingSample

open UnfoldingSample

theorem expandReusableWorkflow_unfolds_call :
    ∃ expansion, expandReusableWorkflow environment
          request limits = .ok expansion ∧
        expansion.invocations.length = 2 ∧
        LeastAuthorityUnfolding environment.catalog
          request limits
          expansion.invocations := by
  have hlength :
      (fun expansion => expansion.invocations.length) <$>
        expandReusableWorkflow environment
          request limits = .ok 2 := by
    decide +kernel
  obtain ⟨expansion, hexpansion, hinvocations⟩ := map_eq_ok.mp hlength
  exact ⟨expansion, hexpansion, hinvocations,
    (expandReusableWorkflow_unfolds environment
      request limits).2 expansion hexpansion⟩

end AutomataCi
