import AutomataCi.RunnerCapabilities
import AutomataCi.WorklistClosure

/-!
# The jobs of a partial rerun

A rerun executes all jobs again, or the failed ones or one of them together with all jobs which
depend on these.  A dependency is a job with its prerequisite.
-/

namespace AutomataCi.RerunSelection

open GuardedResult WorklistClosure

structure SourceJob where
  id : Uuid
  conclusion : String
  instanceCount : Int

inductive WorkflowRerunSelection where
  | entireWorkflow | failedJobsAndDependents
  | jobAndDependents (jobId : Uuid)
  deriving DecidableEq

inductive WorkflowRerunStoreError where
  | corruptData (message : String)
  | unsupportedSelection
  deriving DecidableEq

def failedJobs (jobs : List SourceJob) : List Uuid :=
  (jobs.filter fun job => job.conclusion = "failure" ∨ job.conclusion = "timed_out").map
    SourceJob.id

variable (selection : WorkflowRerunSelection) (jobs : List SourceJob)
  (dependencies : List (Uuid × Uuid))

/-- The search from the jobs with which the queue begins. -/
def selectDependents (queue : List Uuid) : Except WorkflowRerunStoreError (OrderedSet Uuid) := do
  rejectIf (queue = []) .unsupportedSelection
  return close dependencies (OrderedSet.ofList queue, queue)

def selectJobs : Except WorkflowRerunStoreError (OrderedSet Uuid) := do
  rejectIf (selection ≠ .entireWorkflow ∧ ∃ job ∈ jobs, 1 < job.instanceCount)
    .unsupportedSelection
  let known := OrderedSet.ofList (jobs.map SourceJob.id)
  rejectIf (∃ dependency ∈ dependencies, dependency.1 ∉ known ∨ dependency.2 ∉ known)
    (.corruptData "workflow rerun dependency leaves its root graph")
  match selection with
  | .entireWorkflow => return known
  | .failedJobsAndDependents => selectDependents dependencies (failedJobs jobs)
  | .jobAndDependents jobId => do
    rejectIf (jobId ∉ known) .unsupportedSelection
    selectDependents dependencies [jobId]

/-- The jobs which a selection asks for by itself. -/
def Requested : WorkflowRerunSelection → Uuid → Prop
  | .entireWorkflow, id => id ∈ jobs.map SourceJob.id
  | .failedJobsAndDependents, id => id ∈ failedJobs jobs
  | .jobAndDependents jobId, id => id = jobId ∧ id ∈ jobs.map SourceJob.id

variable {selection jobs dependencies} {selected : OrderedSet Uuid}

theorem selectDependents_eq_ok {queue : List Uuid} :
    selectDependents dependencies queue = .ok selected ↔ queue ≠ [] ∧
      ∀ id, id ∈ selected ↔ ∃ seed ∈ queue, Reaches dependencies seed id := by
  have hexplored : Explored dependencies (OrderedSet.ofList queue, queue) :=
    ⟨fun _ => OrderedSet.mem_ofList.mpr, fun _ _ _ hnode => .inl (OrderedSet.mem_ofList.mp hnode)⟩
  simp only [selectDependents, bind_eq_ok, rejectIf_eq_ok, exists_const, pure_eq_ok,
    OrderedSet.ext_iff, mem_close hexplored, OrderedSet.mem_ofList, iff_comm]

theorem exists_reaches_iff {known : List Uuid} {id : Uuid}
    (hknown : ∀ edge ∈ dependencies, edge.1 ∈ known ∧ edge.2 ∈ known) :
    (∃ seed ∈ known, Reaches dependencies seed id) ↔ id ∈ known := by
  constructor
  · rintro ⟨seed, hseed, hreaches⟩
    cases hreaches.cases_tail with
    | inl hsame => rwa [hsame]
    | inr hlast =>
      obtain ⟨_, -, hedge⟩ := hlast
      exact (hknown _ hedge).1
  · exact fun hid => ⟨id, hid, .refl⟩

/-- A rerun selects exactly the jobs it was asked for and those which depend on them, directly or
through others, whatever the dependencies are.  It is refused only if a dependency is of an unknown
job, or if a partial rerun was asked for no job or of jobs with several instances. -/
theorem selectJobs_eq_ok : selectJobs selection jobs dependencies = .ok selected ↔
      (∀ edge ∈ dependencies, edge.1 ∈ jobs.map SourceJob.id ∧ edge.2 ∈ jobs.map SourceJob.id) ∧
      (selection = .entireWorkflow ∨ (∀ job ∈ jobs, job.instanceCount ≤ 1) ∧
        ∃ id, Requested jobs selection id) ∧
      ∀ id, id ∈ selected ↔
        ∃ seed, Requested jobs selection seed ∧ Reaches dependencies seed id := by
  simp only [selectJobs, bind_eq_ok, rejectIf_eq_ok, exists_const, OrderedSet.mem_ofList,
    not_exists, not_and, not_or, not_not, not_lt]
  rw [and_left_comm]
  refine and_congr_right fun hknown => ?_
  cases selection with
  | entireWorkflow =>
    simp only [Requested, exists_reaches_iff hknown, pure_eq_ok, OrderedSet.ext_iff,
      OrderedSet.mem_ofList]
    simp [eq_comm, iff_comm]
  | failedJobsAndDependents =>
    have hfailed : failedJobs jobs ≠ [] ↔ ∃ id, id ∈ failedJobs jobs := by
      constructor
      · exact List.exists_mem_of_ne_nil _
      · rintro ⟨_, hid⟩
        exact List.ne_nil_of_mem hid
    simp [Requested, selectDependents_eq_ok, ← hfailed, and_assoc]
  | jobAndDependents jobId =>
    simp only [Requested, selectDependents_eq_ok, rejectIf_eq_ok, bind_eq_ok]
    simp +contextual [and_assoc]

end AutomataCi.RerunSelection
