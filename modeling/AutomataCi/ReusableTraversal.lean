import AutomataCi.ReusableExpansion

/-!
# Runs of the reusable workflow traversal

The traversal recurses on the callees of a plan, and only the limit on the
depth bounds the recursion.  The file shows that its recursion equation has
exactly one solution, and describes the runs that succeed by rules, one for
each way a job is passed.  Properties of a traversal are then shown by
induction over its run, for any policy.
-/

namespace AutomataCi

open GuardedResult

section Runs

variable {σ Seed State Edge Output : Type}
variable {policy : CredentialTraversalPolicy σ Seed State Edge Output}
variable {catalog : ReusableWorkflowCatalog}
variable {limits : ReusableWorkflowLimits}

variable {node : TraversalNode}
  {recurse : TraversalNode → Seed → List String → TraversalProgress σ →
    Except ReusableWorkflowExpansionError (Output × TraversalProgress σ)}
  {activePaths : List String}

theorem traverseEntry_congr
    {first second : TraversalNode → Seed → List String → TraversalProgress σ →
      Except ReusableWorkflowExpansionError (Output × TraversalProgress σ)}
    (hbelow : ∀ callee : TraversalNode, callee.depth = node.depth + 1 →
      first callee = second callee) (seed : Seed) (activePaths : List String)
    (progress : TraversalProgress σ) :
    traverseEntry policy catalog limits first node seed activePaths progress =
      traverseEntry policy catalog limits second node seed activePaths progress := by
  have hjob :
      traverseJob policy catalog first node (node.workflowPath :: activePaths) =
        traverseJob policy catalog second node (node.workflowPath :: activePaths) := by
    funext current job
    unfold traverseJob
    cases job.execution with
    | steps => rfl
    | reusableWorkflow =>
      have hcallee : ∀ entry : ResolvedCatalogEntry, first (entry.toNode (node.depth + 1)) =
            second (entry.toNode (node.depth + 1)) :=
        fun entry => hbelow _ rfl
      simp only [hcallee]
  unfold traverseEntry
  rw [hjob]

theorem traverseEntry_of_depth (hdepth : limits.maximumDepth < node.depth) (seed : Seed)
    (activePaths : List String) (progress : TraversalProgress σ) :
    traverseEntry policy catalog limits recurse node seed activePaths
      progress = .error .depthLimitExceeded := by
  unfold traverseEntry rejectIf
  rw [if_pos hdepth]
  rfl

theorem traverseReusableInvocation_eq (node : TraversalNode) (seed : Seed)
    (activePaths : List String) (progress : TraversalProgress σ) :
    traverseReusableInvocation policy catalog limits node seed activePaths progress =
      traverseEntry policy catalog limits
        (traverseReusableInvocation policy catalog limits) node seed
        activePaths progress := by
  by_cases hdepth : limits.maximumDepth < node.depth
  · rw [traverseEntry_of_depth hdepth, traverseReusableInvocation]
    rw [show limits.maximumDepth + 1 - node.depth = 0 by omega]
    rfl
  · rw [traverseReusableInvocation]
    rw [show limits.maximumDepth + 1 - node.depth = (limits.maximumDepth - node.depth) + 1 by omega]
    refine traverseEntry_congr (fun callee hcallee => ?_) seed activePaths progress
    funext calleeSeed calleePaths calleeProgress
    rw [traverseReusableInvocation, hcallee]
    rw [show limits.maximumDepth + 1 - (node.depth + 1) = limits.maximumDepth - node.depth by omega]

/-- The recursion stops: whatever solves its equation is the traversal. -/
theorem traverseReusableInvocation_unique
    (recurse : TraversalNode → Seed → List String → TraversalProgress σ →
      Except ReusableWorkflowExpansionError (Output × TraversalProgress σ)) :
    (∀ node seed activePaths progress, recurse node seed activePaths progress =
          traverseEntry policy catalog limits recurse node seed activePaths progress) ↔
      recurse = traverseReusableInvocation policy catalog limits := by
  constructor
  · intro hrecurse
    -- On the depths that the limit leaves below a node.
    have hagree : ∀ remaining (node : TraversalNode),
        limits.maximumDepth + 1 - node.depth = remaining → recurse node =
            traverseReusableInvocation policy catalog limits node := by
      intro remaining
      induction remaining with
      | zero =>
        intro node hremaining
        have hdepth : limits.maximumDepth < node.depth := by omega
        funext seed activePaths progress
        rw [hrecurse, traverseReusableInvocation_eq,
          traverseEntry_of_depth hdepth, traverseEntry_of_depth hdepth]
      | succ remaining ih =>
        intro node hremaining
        funext seed activePaths progress
        rw [hrecurse, traverseReusableInvocation_eq]
        apply traverseEntry_congr
        intro callee hcallee
        exact ih callee (by omega)
    funext node
    exact hagree _ node rfl
  · rintro rfl
    exact traverseReusableInvocation_eq

structure Entered
    (policy : CredentialTraversalPolicy σ Seed State Edge Output)
    (limits : ReusableWorkflowLimits) (node : TraversalNode) (seed : Seed)
    (activePaths : List String) (progress : TraversalProgress σ)
    (state : State) (start : TraversalProgress σ) : Prop where
  depth : node.depth ≤ limits.maximumDepth
  invocationCount :
    start.invocationCount = progress.invocationCount + 1
  invocationsBounded : start.invocationCount ≤ limits.maximumInvocations
  jobCount : start.jobCount = progress.jobCount + node.plan.jobs.length
  jobsBounded : start.jobCount ≤ limits.maximumJobs
  acyclic : node.workflowPath ∉ activePaths
  enter : policy.enter progress.policy node seed = .ok (state, start.policy)

/-- The jobs of an invocation, passed one after the other. -/
inductive TraversedJobs
    (policy : CredentialTraversalPolicy σ Seed State Edge Output)
    (catalog : ReusableWorkflowCatalog) (limits : ReusableWorkflowLimits) :
    TraversalNode → List String → State → TraversalProgress σ →
      List LogicalJobTemplate → State → TraversalProgress σ → Prop
  | done (node : TraversalNode) (activePaths : List String) (state : State)
      (progress : TraversalProgress σ) :
      TraversedJobs policy catalog limits node activePaths state progress []
        state progress
  | steps {node : TraversalNode} {activePaths : List String}
      {state final : State} {progress finish : TraversalProgress σ}
      {job : LogicalJobTemplate} {jobs : List LogicalJobTemplate}
      (hsteps : job.execution = .steps)
      (hrest : TraversedJobs policy catalog limits node activePaths state
        progress jobs final finish) :
      TraversedJobs policy catalog limits node activePaths state progress
        (job :: jobs) final finish
  | call {node : TraversalNode} {activePaths : List String}
      {state next final : State} {progress start below after
        finish : TraversalProgress σ}
      {job : LogicalJobTemplate} {jobs : List LogicalJobTemplate}
      {call : ReusableWorkflowInvocation} {edge : TraversalEdge}
      {seed : Seed} {prepared : Edge} {preparedPolicy finishedPolicy : σ}
      {calleeState calleeFinal : State} {output : Output}
      (hcall : job.execution = .reusableWorkflow call)
      (hedge : resolveEdge catalog activePaths job call = .ok edge)
      (hprepare : policy.prepareEdge progress.policy state edge =
        .ok ((seed, prepared), preparedPolicy))
      (hentered : Entered policy limits (edge.callee.toNode (node.depth + 1))
        seed activePaths { progress with policy := preparedPolicy }
        calleeState start)
      (hcallee : TraversedJobs policy catalog limits
        (edge.callee.toNode (node.depth + 1))
        (edge.callee.path :: activePaths) calleeState start
        edge.callee.plan.jobs calleeFinal below)
      (hfinish : policy.finish below.policy calleeFinal = .ok (output, finishedPolicy))
      (hfinishEdge : policy.finishEdge finishedPolicy state prepared output =
        .ok (next, after.policy))
      (hcounts : after.invocationCount = below.invocationCount ∧ after.jobCount = below.jobCount)
      (hrest : TraversedJobs policy catalog limits node activePaths next
        after jobs final finish) :
      TraversedJobs policy catalog limits node activePaths state progress
        (job :: jobs) final finish

def Traversed (policy : CredentialTraversalPolicy σ Seed State Edge Output)
    (catalog : ReusableWorkflowCatalog) (limits : ReusableWorkflowLimits)
    (node : TraversalNode) (seed : Seed) (activePaths : List String)
    (progress : TraversalProgress σ) (output : Output)
    (final : TraversalProgress σ) : Prop :=
  ∃ state start finalState finish,
    Entered policy limits node seed activePaths progress state start ∧
      TraversedJobs policy catalog limits node
        (node.workflowPath :: activePaths) state start node.plan.jobs
        finalState finish ∧
      policy.finish finish.policy finalState = .ok (output, final.policy) ∧
      final.invocationCount = finish.invocationCount ∧
      final.jobCount = finish.jobCount

theorem traversedJobs_of_foldlM (hrecurse : ∀ node seed activePaths progress output final,
      recurse node seed activePaths progress = .ok (output, final) →
        Traversed policy catalog limits node seed activePaths progress output
          final) {jobs : List LogicalJobTemplate} {state final : State}
    {progress finish : TraversalProgress σ}
    (hjobs : jobs.foldlM (traverseJob policy catalog recurse node activePaths)
        (state, progress) = .ok (final, finish)) :
    TraversedJobs policy catalog limits node activePaths state progress jobs final finish := by
  induction jobs generalizing state progress with
  | nil =>
    rw [List.foldlM_nil, pure_eq_ok, Prod.mk.injEq] at hjobs
    obtain ⟨rfl, rfl⟩ := hjobs
    exact .done node activePaths state progress
  | cons job jobs ih =>
    rw [List.foldlM_cons, bind_eq_ok] at hjobs
    obtain ⟨⟨next, after⟩, hjob, hrest⟩ := hjobs
    have hafter := ih hrest
    unfold traverseJob at hjob
    cases hexecution : job.execution with
    | steps =>
      simp only [hexecution, Except.ok.injEq, Prod.mk.injEq] at hjob
      obtain ⟨rfl, rfl⟩ := hjob
      exact .steps hexecution hafter
    | reusableWorkflow =>
      simp only [hexecution, bind_eq_ok, pure_eq_ok, Prod.exists, Prod.mk.injEq] at hjob
      obtain ⟨edge, hedge, seed, prepared, preparedPolicy, hprepare, output, calleeProgress,
        hcallee, edgeState, edgePolicy, hfinishEdge, rfl, rfl⟩ := hjob
      obtain ⟨calleeState, start, calleeFinal, below, hentered, htraversed, hfinish, hinvocations,
        hcount⟩ := hrecurse _ _ _ _ _ _ hcallee
      refine .call hexecution hedge hprepare hentered htraversed hfinish ?_ ?_ hafter
      · exact hfinishEdge
      · exact ⟨hinvocations, hcount⟩

theorem traversed_of_traverseWithin (remaining : Nat) :
    ∀ (node : TraversalNode) (seed : Seed) (activePaths : List String)
      (progress : TraversalProgress σ) (output : Output)
      (final : TraversalProgress σ),
      traverseWithin policy catalog limits remaining node seed activePaths
          progress = .ok (output, final) →
        Traversed policy catalog limits node seed activePaths progress output final := by
  induction remaining with
  | zero => exact nofun
  | succ remaining ih =>
    intro node seed activePaths progress output final hrun
    simp only [traverseWithin, traverseEntry, bind_eq_ok, rejectIf_eq_ok,
      pure_eq_ok, not_lt, Prod.exists, Prod.mk.injEq] at hrun
    obtain ⟨_, hdepth, _, hinvocations, _, hjobCount, _, hpath, state, entered, henter, finalState,
      finish, hjobs, _, finished, hfinish, rfl, rfl⟩ := hrun
    refine ⟨state, ⟨progress.invocationCount + 1,
      progress.jobCount + node.plan.jobs.length, entered⟩, finalState,
      finish, ?_, traversedJobs_of_foldlM ih hjobs, hfinish, rfl, rfl⟩
    exact ⟨hdepth, rfl, hinvocations, rfl, hjobCount, hpath, henter⟩

theorem traversed_of_traverseReusableInvocation {seed : Seed} {progress final : TraversalProgress σ}
    {output : Output}
    (hrun : traverseReusableInvocation policy catalog limits node seed
      activePaths progress = .ok (output, final)) :
    Traversed policy catalog limits node seed activePaths progress output final :=
  traversed_of_traverseWithin _ node seed activePaths progress output final hrun

end Runs

end AutomataCi
