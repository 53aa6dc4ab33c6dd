import AutomataCi.DepthFirstSearch

/-!
# The dependency graph of a workflow plan

`core/workflow/logical.rs` accepts the jobs of a plan when every need and
every result reference names a listed job and the needs have no cycle.  The
cycles are found by a depth-first search over the job keys.  A template which
comes from its builder is not validated: its needs may repeat or name
anything.
-/

namespace AutomataCi

open DepthFirstSearch GuardedResult

inductive LogicalResultValue where
  | result
  | output (key : String)
  deriving DecidableEq, Repr

structure LogicalResultReference where
  job : String
  value : LogicalResultValue
  deriving DecidableEq, Repr

/-- What the validation of the graph reads of a job template. -/
structure LogicalJobNode where
  key : String
  (needs outputs : List String)
  resultReferences : List LogicalResultReference
  deriving DecidableEq, Repr

inductive WorkflowPlanError where
  | selfDependency (job : String)
  | unknownDependency (job dependency : String)
  | dependencyCycle
  | unknownResultJob (job dependency : String)
  | resultNotDependency (job dependency : String)
  | unknownResultOutput (job output : String)
  deriving DecidableEq, Repr

/-- How the validation stops: with an error, or at the `expect` on a job which
is not listed, or because the model has no fuel left. -/
inductive GraphFailure where
  | rejected (error : WorkflowPlanError)
  | missingJob
  | outOfFuel
  deriving DecidableEq, Repr

namespace GraphFailure

def ofSearch : Failure → GraphFailure
  | .cycle => .rejected .dependencyCycle
  | .missing => .missingJob
  | .outOfFuel => .outOfFuel

end GraphFailure

namespace LogicalJobNode

variable (jobs : List LogicalJobNode)

def needsOf (key : String) : Option (List String) :=
  (jobs.find? fun candidate => candidate.key = key).map needs

def visit (fuel : Nat) (marks : Marks String) (key : String) : Except Failure (Marks String) :=
  DepthFirstSearch.visit (needsOf jobs) fuel marks key

def validateAcyclic (fuel : Nat) : Except GraphFailure Unit :=
  match (jobs.map key).foldlM (visit jobs fuel) ⟨∅, ∅⟩ with
  | .ok _ => .ok ()
  | .error failure => .error (.ofSearch failure)

def validateResultReference (reference : LogicalResultReference)
    (jobs : List LogicalJobNode) : Except WorkflowPlanError Unit := do
  let job ← okOr (jobs.find? fun candidate => candidate.key = reference.job)
    (.unknownResultJob "workflow output" reference.job)
  match reference.value with
  | .result => .ok ()
  | .output output =>
    rejectIf (output ∉ job.outputs) (.unknownResultOutput reference.job output)

def validateJob (keys : Finset String) (job : LogicalJobNode) : Except WorkflowPlanError Unit := do
  job.needs.forM fun dependency => do
    rejectIf (dependency = job.key) (.selfDependency job.key)
    rejectIf (dependency ∉ keys) (.unknownDependency job.key dependency)
  job.resultReferences.forM fun reference => do
    rejectIf (reference.job ∉ keys) (.unknownResultJob job.key reference.job)
    rejectIf (reference.job ∉ job.needs) (.resultNotDependency job.key reference.job)
    validateResultReference reference jobs

def validateLogicalGraph (keys : Finset String) (fuel : Nat) : Except GraphFailure Unit := do
  jobs.forM fun job => (validateJob jobs keys job).mapError .rejected
  validateAcyclic jobs fuel

def Needs (key need : String) : Prop :=
  ∃ job ∈ jobs, job.key = key ∧ need ∈ job.needs

def NeedsListed : Prop :=
  ∀ job ∈ jobs, ∀ need ∈ job.needs, need ∈ jobs.map key

def Acyclic : Prop :=
  ∀ key, ¬ Relation.TransGen (Needs jobs) key key

variable {jobs : List LogicalJobNode}

theorem needsOf_key (hkeys : (jobs.map key).Nodup) {job : LogicalJobNode} (hjob : job ∈ jobs) :
    needsOf jobs job.key = some job.needs := by
  have hfound : jobs.find? (fun candidate => candidate.key = job.key) = some job := by
    rw [List.find?_eq_some_iff_append]
    obtain ⟨before, after, rfl⟩ := List.append_of_mem hjob
    refine ⟨by simp, before, after, rfl, fun other hother => ?_⟩
    rw [List.map_append, List.nodup_append] at hkeys
    have hother := hkeys.2.2 other.key (List.mem_map_of_mem hother) job.key
      (List.mem_map_of_mem (List.mem_cons_self))
    simpa using hother
  rw [needsOf, hfound]
  rfl

theorem edge_iff (hkeys : (jobs.map key).Nodup) {key need : String} :
    Edge (needsOf jobs) key need ↔ Needs jobs key need := by
  constructor
  · rintro ⟨listed, hlisted, hneed⟩
    obtain ⟨job, hjob, rfl⟩ := Option.map_eq_some_iff.mp hlisted
    have hkey := List.find?_some hjob
    exact ⟨job, List.mem_of_find?_eq_some hjob, of_decide_eq_true hkey, hneed⟩
  · rintro ⟨job, hjob, rfl, hneed⟩
    exact ⟨job.needs, needsOf_key hkeys hjob, hneed⟩

theorem closed_needsOf (hkeys : (jobs.map key).Nodup) (hlisted : NeedsListed jobs) :
    Closed (needsOf jobs) (jobs.map key).toFinset := by
  intro key hkey
  obtain ⟨job, hjob, rfl⟩ := List.mem_map.mp (List.mem_toFinset.mp hkey)
  refine ⟨job.needs, needsOf_key hkeys hjob, fun need hneed => ?_⟩
  exact List.mem_toFinset.mpr (hlisted job hjob need hneed)

theorem acyclic_iff (hkeys : (jobs.map key).Nodup) :
    Acyclic jobs ↔ ∀ name ∈ jobs.map key, ¬ OnCycle (needsOf jobs) name := by
  have hedges : Edge (needsOf jobs) = Needs jobs := by
    funext key need
    exact propext (edge_iff hkeys)
  unfold Acyclic OnCycle
  rw [hedges]
  constructor
  · exact fun hnone name _ => hnone name
  · intro hnone name hcycle
    obtain ⟨need, ⟨job, hjob, rfl, -⟩, -⟩ := Relation.TransGen.head'_iff.mp hcycle
    exact hnone job.key (List.mem_map_of_mem hjob) hcycle

variable {fuel : Nat}

/-- More fuel than there are jobs is enough for the search. -/
theorem search_needsOf (hkeys : (jobs.map key).Nodup) (hlisted : NeedsListed jobs)
    (hfuel : jobs.length < fuel) :
    ((∃ marks, (jobs.map key).foldlM (visit jobs fuel) ⟨∅, ∅⟩ = .ok marks) ↔ Acyclic jobs) ∧
      ∀ failure, (jobs.map key).foldlM (visit jobs fuel) ⟨∅, ∅⟩ =
        .error failure → failure = .cycle := by
  have hlength : (jobs.map key).length < fuel := by rwa [List.length_map]
  rw [acyclic_iff hkeys]
  exact search_ok_iff (closed_needsOf hkeys hlisted) hlength

theorem validateAcyclic_eq_ok :
    validateAcyclic jobs fuel = .ok () ↔ ∃ marks, (jobs.map key).foldlM (visit jobs fuel) ⟨∅, ∅⟩ =
        .ok marks := by
  unfold validateAcyclic
  cases (jobs.map key).foldlM (visit jobs fuel) ⟨∅, ∅⟩ <;> simp

/-- On jobs with unique keys whose needs are all listed the search ends, and
it accepts exactly the acyclic graphs: it never misses a job. -/
theorem validateAcyclic_accepts_exactly (jobs : List LogicalJobNode) (hkeys : (jobs.map key).Nodup)
    (hlisted : NeedsListed jobs)
    (fuel : Nat) (hfuel : jobs.length < fuel) :
    (validateAcyclic jobs fuel = .ok () ↔ Acyclic jobs) ∧ (validateAcyclic jobs fuel = .ok () ∨
        validateAcyclic jobs fuel = .error (.rejected .dependencyCycle)) := by
  obtain ⟨hexact, hcycle⟩ := search_needsOf hkeys hlisted hfuel
  refine ⟨validateAcyclic_eq_ok.trans hexact, ?_⟩
  unfold validateAcyclic
  cases hresult : (jobs.map key).foldlM (visit jobs fuel) ⟨∅, ∅⟩ with
  | ok => exact .inl rfl
  | error failure =>
    rw [hcycle failure hresult]
    exact .inr rfl

namespace Sample

/-- Two jobs need the build and read its output, and the release needs both,
one of them twice, and reads their results. -/
def diamond : List LogicalJobNode :=
  [⟨"build", [], ["image"], []⟩, ⟨"test", ["build"], [], [⟨"build", .output "image"⟩]⟩,
    ⟨"lint", ["build"], [], [⟨"build", .output "image"⟩, ⟨"build", .result⟩]⟩,
    ⟨"release", ["test", "lint", "test"], [], [⟨"lint", .result⟩, ⟨"test", .result⟩]⟩]

end Sample

theorem validateAcyclic_accepts_diamond :
    validateAcyclic Sample.diamond 5 = .ok () ∧ Acyclic Sample.diamond := by
  have haccepted : validateAcyclic Sample.diamond 5 = .ok () := by decide +kernel
  have hlisted : NeedsListed Sample.diamond := by
    unfold NeedsListed
    decide
  have hexact := validateAcyclic_accepts_exactly Sample.diamond (by decide) hlisted 5 (by decide)
  exact ⟨haccepted, hexact.1.mp haccepted⟩

/-- A listed job has the result or declares the output which a reference names. -/
def Declares (jobs : List LogicalJobNode) (reference : LogicalResultReference) : Prop :=
  ∃ source ∈ jobs, source.key = reference.job ∧
    ∀ output, reference.value = .output output → output ∈ source.outputs

def ReferencesDeclared (jobs : List LogicalJobNode) : Prop :=
  ∀ job ∈ jobs, ∀ reference ∈ job.resultReferences,
    reference.job ∈ job.needs ∧ Declares jobs reference

theorem find?_key_iff (hkeys : (jobs.map key).Nodup) {name : String} {job : LogicalJobNode} :
    jobs.find? (fun candidate => candidate.key = name) = some job ↔
      job ∈ jobs ∧ job.key = name := by
  constructor
  · intro hfound
    have hkey := List.find?_some hfound
    exact ⟨List.mem_of_find?_eq_some hfound, of_decide_eq_true hkey⟩
  · rintro ⟨hjob, rfl⟩
    cases hfound : jobs.find? (fun candidate => candidate.key = job.key) with
    | none => simpa using List.find?_eq_none.mp hfound job hjob
    | some found =>
      have hkey := List.find?_some hfound
      rw [List.inj_on_of_nodup_map hkeys (List.mem_of_find?_eq_some hfound) hjob
        (of_decide_eq_true hkey)]

theorem validateResultReference_eq_ok (hkeys : (jobs.map key).Nodup)
    {reference : LogicalResultReference} :
    validateResultReference reference jobs = .ok () ↔ Declares jobs reference := by
  simp only [validateResultReference, Declares, bind_eq_ok, okOr_eq_ok, find?_key_iff hkeys,
    and_assoc]
  cases reference.value <;> simp

theorem validateJob_eq_ok (hkeys : (jobs.map key).Nodup) {job : LogicalJobNode} :
    validateJob jobs (jobs.map key).toFinset job = .ok () ↔
      (∀ need ∈ job.needs, need ≠ job.key ∧ need ∈ jobs.map key) ∧
      ∀ reference ∈ job.resultReferences,
        reference.job ∈ job.needs ∧ Declares jobs reference := by
  simp only [validateJob, bind_eq_ok, forM_eq_ok, rejectIf_eq_ok, exists_const, not_not,
    List.mem_toFinset, validateResultReference_eq_ok hkeys]
  refine and_congr_right fun _ => forall₂_congr fun reference _ => and_iff_right_of_imp ?_
  rintro ⟨-, source, hsource, hkey, -⟩
  exact hkey ▸ List.mem_map_of_mem hsource

/-- On jobs with unique keys the validation accepts exactly the acyclic graphs whose needs are
listed and whose references are declared.  It is never stopped by a job which is not listed. -/
theorem validateLogicalGraph_accepts_exactly (hkeys : (jobs.map key).Nodup)
    (hfuel : jobs.length < fuel) :
    (validateLogicalGraph jobs (jobs.map key).toFinset fuel = .ok () ↔
        NeedsListed jobs ∧ Acyclic jobs ∧ ReferencesDeclared jobs) ∧
      ∀ failure, validateLogicalGraph jobs (jobs.map key).toFinset fuel = .error failure →
        ∃ error, failure = .rejected error := by
  have hlisted (hjobs : ∀ job ∈ jobs, validateJob jobs (jobs.map key).toFinset job = .ok ()) :
      NeedsListed jobs := fun job hjob need hneed =>
    (((validateJob_eq_ok hkeys).mp (hjobs job hjob)).1 need hneed).2
  constructor
  · simp only [validateLogicalGraph, bind_eq_ok, forM_eq_ok, mapError_eq_ok, exists_const,
      validateAcyclic_eq_ok]
    constructor
    · rintro ⟨hjobs, hsearched⟩
      exact ⟨hlisted hjobs, (search_needsOf hkeys (hlisted hjobs) hfuel).1.mp hsearched,
        fun job hjob => ((validateJob_eq_ok hkeys).mp (hjobs job hjob)).2⟩
    · rintro ⟨hneeds, hacyclic, hreferences⟩
      refine ⟨fun job hjob => (validateJob_eq_ok hkeys).mpr ⟨fun need hneed => ⟨?_, ?_⟩, ?_⟩,
        (search_needsOf hkeys hneeds hfuel).1.mpr hacyclic⟩
      · rintro rfl
        exact hacyclic job.key (.single ⟨job, hjob, rfl, hneed⟩)
      · exact hneeds job hjob need hneed
      · exact hreferences job hjob
  · refine FailsOnly.bind (failsOnly_forM fun job _ => ?_) fun _ hjobs => ?_
    · cases validateJob jobs (jobs.map key).toFinset job with
      | ok => exact failsOnly_ok _
      | error error => exact failsOnly_error ⟨error, rfl⟩
    · simp only [forM_eq_ok, mapError_eq_ok] at hjobs
      have hcycle := (search_needsOf hkeys (hlisted hjobs) hfuel).2
      unfold validateAcyclic
      cases hresult : (jobs.map key).foldlM (visit jobs fuel) ⟨∅, ∅⟩ with
      | ok => exact failsOnly_ok _
      | error failure =>
        rw [hcycle failure hresult]
        exact failsOnly_error ⟨_, rfl⟩

theorem validateLogicalGraph_accepts_diamond :
    NeedsListed Sample.diamond ∧ Acyclic Sample.diamond ∧ ReferencesDeclared Sample.diamond :=
  (validateLogicalGraph_accepts_exactly (by decide) (by decide)).1.mp
    (by decide +kernel : validateLogicalGraph Sample.diamond _ 5 = .ok ())

end LogicalJobNode

end AutomataCi
