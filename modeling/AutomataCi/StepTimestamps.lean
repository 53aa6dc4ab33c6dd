import AutomataCi.LogicalJobResults
import AutomataCi.OutputMasking
import AutomataCi.RunnerCapabilities

/-!
# Times of the steps of a job

The executor reads the clock when it starts a step, when it records the step, when a post phase
changes that record, and when the job is complete.  No step is reported complete after its job.
-/

namespace AutomataCi.StepTimestamps

open GuardedResult KeyedList TextOperations

inductive CommandOutcome where
  | success | failure | timedOut | cancelled
  deriving DecidableEq

def CommandOutcome.conclusion : CommandOutcome → JobConclusion
  | .success => .success
  | .failure => .failure
  | .timedOut => .timedOut
  | .cancelled => .cancelled

def mapContinue (outcome : JobConclusion) (continueOnError : Bool) : JobConclusion :=
  if continueOnError ∧ (outcome = .failure ∨ outcome = .timedOut) then .success else outcome

inductive PostStopReason where
  | executionCancellation | cleanupDeadline

def PostStopReason.outcome : PostStopReason → CommandOutcome
  | .executionCancellation => .cancelled
  | .cleanupDeadline => .timedOut

def PostStopReason.reconcile (conclusion : JobConclusion) : PostStopReason → JobConclusion
  | .executionCancellation => .cancelled
  | .cleanupDeadline => if conclusion = .failure then .failure else .timedOut

structure MutableStepResult where
  stepId : Text
  (outcome conclusion : JobConclusion)
  (startedAt completedAt : UnixMillis)

inductive StepExecution where
  | failed (kind : ExecutorAdapterErrorKind)
  | cancelled
  | skipped
  | ran (outcome : CommandOutcome) (continueOnError : Bool)

/-- What becomes of a step: whether the job is cancelled before it, how often its timeouts read
the clock, and how it ends. -/
structure StepRun where
  stepId : Text
  cancelled : Bool
  readings : Nat
  execution : StepExecution

inductive PostRun where
  | failed (kind : ExecutorAdapterErrorKind)
  | stopped (reason : PostStopReason)
  | passedOver
  | ran (topStepId : Text) (outcome : CommandOutcome) (continued : Bool)
      (stopReason : Option PostStopReason)

/-- What the executor finds in the course of a job.  `pre` are the readings before the first step,
and `outputs` is what evaluating the outputs makes of the conclusion. -/
structure JobRun where
  deadline : Option UnixMillis
  pre : Nat
  conclusion : JobConclusion
  steps : List StepRun
  distinct : (steps.map StepRun.stepId).Nodup
  posts : List PostRun
  outputs : JobConclusion → Except ExecutorAdapterErrorKind JobConclusion

/-- `taken` is the number of readings so far. -/
structure Progress where
  records : List MutableStepResult
  conclusion : JobConclusion
  taken : Nat

/-- The readings of the clock, in their order. -/
abbrev Clock :=
  Nat → UnixMillis

variable (clock : Clock)

/-- The check of the deadline, which reads the clock if there is one. -/
def isLate (taken : Nat) : Option UnixMillis → Bool × Nat
  | none => (false, taken)
  | some deadline => (deadline ≤ clock taken, taken + 1)

def record (progress : Progress) (step : StepRun) (started : Nat)
    (outcome conclusion : JobConclusion) : Progress :=
  let completed := started + 1 + step.readings
  let result := ⟨step.stepId, outcome, conclusion, clock started, clock completed⟩
  { progress with records := progress.records ++ [result], taken := completed + 1 }

def executeSteps (deadline : Option UnixMillis) (progress : Progress) :
    List StepRun → Except ExecutorAdapterErrorKind Progress
  | [] => .ok progress
  | step :: rest =>
    if step.cancelled then .ok { progress with conclusion := .cancelled }
    else
      let (late, started) := isLate clock progress.taken deadline
      if late then .ok { progress with conclusion := .timedOut, taken := started }
      else match step.execution with
        | .failed kind => .error kind
        | .cancelled =>
          .ok { progress with conclusion := .cancelled, taken := started + 1 + step.readings }
        | .skipped =>
          executeSteps deadline (record clock progress step started .skipped .skipped) rest
        | .ran outcome continueOnError =>
          let mapped := mapContinue outcome.conclusion continueOnError
          let next := record clock progress step started outcome.conclusion mapped
          if outcome = .cancelled then .ok { next with conclusion := .cancelled }
          else if mapped = .success ∨ mapped = .skipped then executeSteps deadline next rest
          else executeSteps deadline { next with conclusion := mapped } rest

/-- What a post phase which did not succeed does to the record of its step. -/
def amend (progress : Progress) (topStepId : Text) (outcome : CommandOutcome)
    (mapped : JobConclusion) : Progress :=
  match KeyedList.lookup MutableStepResult.stepId topStepId progress.records with
  | none => progress
  | some found =>
    let amended :=
      { found with
        outcome := if found.outcome = .success then outcome.conclusion else found.outcome
        conclusion := mapped
        completedAt := clock progress.taken }
    { progress with
      records := replace MutableStepResult.stepId amended progress.records
      taken := progress.taken + 1 }

def runPosts (progress : Progress) : List PostRun → Except ExecutorAdapterErrorKind Progress
  | [] => .ok progress
  | .failed kind :: _ => .error kind
  | .stopped reason :: _ => .ok { progress with conclusion := reason.reconcile progress.conclusion }
  | .passedOver :: rest => runPosts progress rest
  | .ran topStepId outcome continued none :: rest =>
    let mapped := mapContinue outcome.conclusion continued
    if outcome = .success then runPosts progress rest
    else if mapped = .success then runPosts (amend clock progress topStepId outcome mapped) rest
    else runPosts { amend clock progress topStepId outcome mapped with conclusion := mapped } rest
  | .ran topStepId _ _ (some reason) :: _ =>
    let next := amend clock progress topStepId reason.outcome reason.outcome.conclusion
    .ok { next with conclusion := reason.reconcile next.conclusion }

def JobRun.phases (run : JobRun) : Except ExecutorAdapterErrorKind Progress := do
  let executed ← executeSteps clock run.deadline ⟨[], run.conclusion, run.pre⟩ run.steps
  let posted ← runPosts clock executed run.posts
  let conclusion ← run.outputs posted.conclusion
  return { posted with conclusion }

structure StepResult where
  stepId : Text
  (outcome conclusion : JobConclusion)
  (startedAt completedAt : UnixMillis)
  deriving DecidableEq

def MutableStepResult.intoResult (jobCompletedAt : UnixMillis) (self : MutableStepResult) :
    StepResult :=
  ⟨self.stepId, self.outcome, self.conclusion, self.startedAt, min self.completedAt jobCompletedAt⟩

structure JobResult where
  conclusion : JobConclusion
  completedAt : UnixMillis
  steps : List StepResult
  deriving DecidableEq

def Progress.result (finished : Progress) : JobResult :=
  let completedAt := clock finished.taken
  ⟨finished.conclusion, completedAt,
    finished.records.map (MutableStepResult.intoResult completedAt)⟩

inductive JobResultValidationError where
  | stepCompletedBeforeStart (stepId : Text)
  | stepCompletedAfterJob (stepId : Text)
  | duplicateStepId (stepId : Text)
  deriving DecidableEq

/-- The checks of the steps, those of their attachments apart. -/
def validateSteps (completedAt : UnixMillis) (stepIds : List Text) :
    List StepResult → Except JobResultValidationError Unit
  | [] => .ok ()
  | step :: rest => do
    rejectIf (step.completedAt < step.startedAt) (.stepCompletedBeforeStart step.stepId)
    rejectIf (completedAt < step.completedAt) (.stepCompletedAfterJob step.stepId)
    rejectIf (stepIds.contains step.stepId) (.duplicateStepId step.stepId)
    validateSteps completedAt (step.stepId :: stepIds) rest

def JobResult.validate (self : JobResult) : Except JobResultValidationError Unit :=
  validateSteps self.completedAt [] self.steps

def executeJob (run : JobRun) : Except ExecutorAdapterErrorKind JobResult := do
  let finished ← run.phases clock
  (finished.result clock).validate.mapError fun _ => .internal
  return finished.result clock

def JobResult.Timely (self : JobResult) : Prop :=
  ∀ step ∈ self.steps, step.startedAt ≤ step.completedAt ∧ step.completedAt ≤ self.completedAt

theorem validateSteps_eq_ok {completedAt : UnixMillis} {seen : List Text}
    {steps : List StepResult} {result : Unit} :
    validateSteps completedAt seen steps = .ok result ↔
      (∀ step ∈ steps, step.startedAt ≤ step.completedAt ∧ step.completedAt ≤ completedAt) ∧
        Fresh seen (steps.map StepResult.stepId) := by
  induction steps generalizing seen with
  | nil => simp [validateSteps, fresh_nil]
  | cons step rest ih =>
    simp only [validateSteps, bind_eq_ok, rejectIf_eq_ok, exists_const, not_lt, ih,
      List.contains_iff_mem, List.forall_mem_cons, List.map_cons, fresh_cons]
    tauto

/-- A record holds two readings, the one of its start first. -/
def Reads (taken : Nat) (result : MutableStepResult) (started completed : Nat) : Prop :=
  started < completed ∧ completed < taken ∧ result.startedAt = clock started ∧
    result.completedAt = clock completed

/-- What holds of the records before the steps of the given identifiers. -/
structure Recorded (progress : Progress) (later : List Text) : Prop where
  distinct : (progress.records.map MutableStepResult.stepId ++ later).Nodup
  read : ∀ result ∈ progress.records, ∃ started completed,
    Reads clock progress.taken result started completed

section Runs

variable {clock} {progress final : Progress} {later : List Text}

theorem Recorded.read_of_le (hrecorded : Recorded clock progress later) {taken : Nat}
    (htaken : progress.taken ≤ taken) {result : MutableStepResult}
    (hresult : result ∈ progress.records) :
    ∃ started completed, Reads clock taken result started completed := by
  obtain ⟨started, completed, horder, hbefore, hreads⟩ := hrecorded.read result hresult
  exact ⟨started, completed, horder, hbefore.trans_le htaken, hreads⟩

theorem Recorded.stop (hrecorded : Recorded clock progress later) {conclusion : JobConclusion}
    {taken : Nat} (htaken : progress.taken ≤ taken) :
    Recorded clock { progress with conclusion, taken } [] where
  distinct := by
    rw [List.append_nil]
    exact (List.nodup_append.mp hrecorded.distinct).1
  read := fun _ => hrecorded.read_of_le htaken

theorem Recorded.concluded (hrecorded : Recorded clock progress later)
    {conclusion : JobConclusion} : Recorded clock { progress with conclusion } later :=
  ⟨hrecorded.distinct, hrecorded.read⟩

theorem le_of_isLate {taken started : Nat} {deadline : Option UnixMillis} {late : Bool}
    (hlate : isLate clock taken deadline = (late, started)) : taken ≤ started := by
  cases deadline <;> cases hlate <;> omega

theorem Recorded.record {step : StepRun} {started : Nat} {outcome conclusion : JobConclusion}
    (hrecorded : Recorded clock progress (step.stepId :: later))
    (hstarted : progress.taken ≤ started) :
    Recorded clock (record clock progress step started outcome conclusion) later where
  distinct := by
    simpa [StepTimestamps.record] using hrecorded.distinct
  read := by
    intro result hresult
    rw [StepTimestamps.record, List.mem_append, List.mem_singleton] at hresult
    rcases hresult with hearlier | rfl
    · refine hrecorded.read_of_le ?_ hearlier
      simp only [StepTimestamps.record]
      omega
    · refine ⟨started, started + 1 + step.readings, ?_, ?_, rfl, rfl⟩
      · omega
      · simp [StepTimestamps.record]

theorem Recorded.amend {topStepId : Text} {outcome : CommandOutcome} {mapped : JobConclusion}
    (hrecorded : Recorded clock progress []) :
    Recorded clock (amend clock progress topStepId outcome mapped) [] := by
  unfold StepTimestamps.amend
  split
  next => exact hrecorded
  next found hfound =>
    obtain ⟨hmem, -⟩ := lookup_mem hfound
    constructor
    · simpa only [map_key_replace] using hrecorded.distinct
    · intro result hresult
      rcases mem_replace.mp hresult with ⟨hearlier, -⟩ | ⟨rfl, -⟩
      · exact hrecorded.read_of_le (Nat.le_succ progress.taken) hearlier
      · obtain ⟨started, completed, horder, hbefore, hstarted, -⟩ := hrecorded.read found hmem
        exact ⟨started, progress.taken, horder.trans hbefore, Nat.lt_succ_self _, hstarted, rfl⟩

theorem Recorded.executeSteps {deadline : Option UnixMillis} {steps : List StepRun}
    (hrecorded : Recorded clock progress (steps.map StepRun.stepId))
    (hrun : executeSteps clock deadline progress steps = .ok final) : Recorded clock final [] := by
  fun_induction StepTimestamps.executeSteps clock deadline progress steps with
  | case1 =>
    cases hrun
    exact hrecorded
  | case2 =>
    cases hrun
    exact hrecorded.stop le_rfl
  | case3 _ _ _ _ _ hlate =>
    cases hrun
    exact hrecorded.stop (le_of_isLate hlate)
  | case4 => contradiction
  | case5 _ _ _ _ _ _ hlate =>
    cases hrun
    have hstarted := le_of_isLate hlate
    exact hrecorded.stop (by omega)
  | case6 _ _ _ _ _ _ hlate _ _ ih => exact ih (hrecorded.record (le_of_isLate hlate)) hrun
  | case7 _ _ _ _ _ _ hlate =>
    cases hrun
    exact (hrecorded.record (le_of_isLate hlate)).stop le_rfl
  | case8 _ _ _ _ _ _ hlate _ _ _ _ _ _ _ _ ih =>
    exact ih (hrecorded.record (le_of_isLate hlate)) hrun
  | case9 _ _ _ _ _ _ hlate _ _ _ _ _ _ _ _ ih =>
    exact ih (hrecorded.record (le_of_isLate hlate)).concluded hrun

theorem Recorded.runPosts {posts : List PostRun} (hrecorded : Recorded clock progress [])
    (hrun : runPosts clock progress posts = .ok final) : Recorded clock final [] := by
  fun_induction StepTimestamps.runPosts clock progress posts with
  | case1 =>
    cases hrun
    exact hrecorded
  | case2 => contradiction
  | case3 =>
    cases hrun
    exact hrecorded.concluded
  | case4 _ _ ih => exact ih hrecorded hrun
  | case5 _ _ _ _ ih => exact ih hrecorded hrun
  | case6 _ _ _ _ _ _ _ _ ih => exact ih hrecorded.amend hrun
  | case7 _ _ _ _ _ _ _ _ ih => exact ih (hrecorded.amend.concluded) hrun
  | case8 =>
    cases hrun
    exact hrecorded.amend.concluded

theorem recorded_phases {run : JobRun} (hrun : run.phases clock = .ok final) :
    Recorded clock final [] := by
  simp only [JobRun.phases, bind_eq_ok, pure_eq_ok] at hrun
  obtain ⟨executed, hexecuted, posted, hposted, conclusion, -, rfl⟩ := hrun
  have hempty : Recorded clock ⟨[], run.conclusion, run.pre⟩ (run.steps.map StepRun.stepId) :=
    ⟨run.distinct, by simp⟩
  exact ((hempty.executeSteps hexecuted).runPosts hposted).concluded

theorem validate_result_iff (hrecorded : Recorded clock final []) :
    (final.result clock).validate = .ok () ↔ (final.result clock).Timely := by
  rw [JobResult.validate, validateSteps_eq_ok, JobResult.Timely, fresh_nil_seen]
  refine and_iff_left ?_
  have hdistinct := hrecorded.distinct
  rw [List.append_nil] at hdistinct
  simpa [Progress.result, Function.comp_def, MutableStepResult.intoResult] using hdistinct

theorem timely_result_iff :
    (final.result clock).Timely ↔ ∀ result ∈ final.records,
      result.startedAt ≤ result.completedAt ∧ result.startedAt ≤ clock final.taken := by
  simp [JobResult.Timely, Progress.result, MutableStepResult.intoResult]

end Runs

/-- A step which succeeds, with any number of readings before it and while it runs. -/
def oneStep (pre readings : Nat) : JobRun where
  deadline := none
  pre
  conclusion := .success
  steps := [⟨"build".toList, false, readings, .ran .success false⟩]
  distinct := List.nodup_singleton _
  posts := []
  outputs := .ok

/-- Every job which runs to its end has its result, with its times in order, exactly if the clock
never goes back. -/
theorem executeJob_timely_iff :
    (∀ run finished, JobRun.phases clock run = .ok finished →
      executeJob clock run = .ok (finished.result clock) ∧ (finished.result clock).Timely) ↔
      Monotone clock := by
  constructor
  · intro htimely earlier later hle
    rcases hle.eq_or_lt with rfl | hlt
    · exact le_rfl
    · -- The step starts with the earlier reading and is recorded with the later one.
      have hstep := (htimely (oneStep earlier (later - earlier - 1)) _ rfl).2
      have htimes := (timely_result_iff.mp hstep _ List.mem_cons_self).1
      have hreading : earlier + 1 + (later - earlier - 1) = later := by omega
      change clock earlier ≤ clock (earlier + 1 + (later - earlier - 1)) at htimes
      rwa [hreading] at htimes
  · intro hclock run finished hrun
    have hrecorded := recorded_phases hrun
    have htimely : (finished.result clock).Timely := by
      rw [timely_result_iff]
      intro result hresult
      obtain ⟨started, completed, horder, hbefore, hstarted, hcompleted⟩ :=
        hrecorded.read result hresult
      rw [hstarted, hcompleted]
      exact ⟨hclock horder.le, hclock (horder.trans hbefore).le⟩
    refine ⟨?_, htimely⟩
    simp [executeJob, hrun, (validate_result_iff hrecorded).mpr htimely, Except.mapError]

/-- The clock goes back while the step runs. -/
theorem executeJob_oneStep_back :
    executeJob (fun reading => if reading = 1 then ⟨100⟩ else ⟨50⟩) (oneStep 1 0) =
      .error .internal := by
  decide +kernel

end AutomataCi.StepTimestamps
