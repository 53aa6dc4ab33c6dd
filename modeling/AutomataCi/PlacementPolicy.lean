import AutomataCi.KeyedList
import AutomataCi.RunnerAuthorization

/-!
# Placement policy

The deterministic scheduler: a snapshot of runnable candidates and effective
runners, the factory which accepts a placement only for members of the
snapshot, and the first-in-first-out policy over both.

The policy is described by two searches over sorted lists.  The first candidate
with a compatible free runner is placed on its first such runner; when there is
none, every candidate is declined with the reason its runners give.
-/

namespace AutomataCi

open GuardedResult KeyedList

/-! ## Candidates and decisions -/

/-- Requirements of the planner, in the schema the scheduler understands. -/
structure RoutingRequirements where
  runner : RunnerRequirements
  supported : runner.schemaVersion = runnerRequirementsSchemaVersion
  deriving DecidableEq

structure RunnableCandidate where
  attemptId : AttemptId
  jobId : JobId
  queuedAt : UnixMillis
  routing : RoutingRequirements
  deriving DecidableEq

structure Placement where
  attemptId : AttemptId
  jobId : JobId
  session : SessionGuard
  slot : RunnerSlot
  deriving DecidableEq, Repr

structure RunnerRequirementDecline where
  runnerId : RunnerId
  mismatches : List RequirementMismatch
  deriving DecidableEq

inductive CandidateDeclineReason where
  | compatibleRunnersBusy (runners : List RunnerId)
  | noCompatibleRunner (runners : List RunnerRequirementDecline)
  deriving DecidableEq

structure CandidateDecline where
  attemptId : AttemptId
  reason : CandidateDeclineReason
  deriving DecidableEq

inductive PlacementDecline where
  | noRunnableCandidates
  | noEffectiveRunners
  | candidates (declines : List CandidateDecline)
  deriving DecidableEq

inductive PlacementDecision where
  | place (placement : Placement)
  | decline (reason : PlacementDecline)
  deriving DecidableEq

inductive CandidateCapacity where
  | available | compatibleRunnersBusy | noCompatibleRunner
  deriving DecidableEq, Repr

/-! ## The scheduling snapshot -/

inductive SchedulingInputError where
  | duplicateAttempt (attemptId : AttemptId)
  | duplicateRunner (runnerId : RunnerId)
  | duplicateSession (sessionId : RunnerSessionId)
  deriving DecidableEq, Repr

/-- A snapshot whose durable identities are unique. -/
structure SchedulingInput where
  candidates : List RunnableCandidate
  runners : List EffectiveRunner
  attemptsDistinct : (candidates.map RunnableCandidate.attemptId).Nodup
  runnersDistinct : (runners.map fun runner => runner.session.runnerId).Nodup
  sessionsDistinct :
    (runners.map fun runner => runner.session.sessionId).Nodup

namespace SchedulingInput

def checkAttempts : List AttemptId → List RunnableCandidate → Except SchedulingInputError Unit
  | _, [] => .ok ()
  | attemptIds, candidate :: rest => do
      rejectIf (candidate.attemptId ∈ attemptIds) (.duplicateAttempt candidate.attemptId)
      checkAttempts (candidate.attemptId :: attemptIds) rest

def checkRunners : List RunnerId → List RunnerSessionId → List EffectiveRunner →
      Except SchedulingInputError Unit
  | _, _, [] => .ok ()
  | runnerIds, sessionIds, runner :: rest => do
      rejectIf (runner.session.runnerId ∈ runnerIds) (.duplicateRunner runner.session.runnerId)
      rejectIf (runner.session.sessionId ∈ sessionIds) (.duplicateSession runner.session.sessionId)
      checkRunners (runner.session.runnerId :: runnerIds)
        (runner.session.sessionId :: sessionIds) rest

theorem checkAttempts_eq_ok {attemptIds : List AttemptId} {candidates : List RunnableCandidate} :
    checkAttempts attemptIds candidates = .ok () ↔
      Fresh attemptIds (candidates.map RunnableCandidate.attemptId) := by
  induction candidates generalizing attemptIds with
  | nil => simp [checkAttempts, fresh_nil]
  | cons candidate rest ih =>
    rw [List.map_cons, fresh_cons, ← ih]
    simp only [checkAttempts, bind_eq_ok, rejectIf_eq_ok, exists_const]

theorem checkRunners_eq_ok {runnerIds : List RunnerId} {sessionIds : List RunnerSessionId}
    {runners : List EffectiveRunner} :
    checkRunners runnerIds sessionIds runners = .ok () ↔
      Fresh runnerIds (runners.map fun runner => runner.session.runnerId) ∧
        Fresh sessionIds (runners.map fun runner => runner.session.sessionId) := by
  induction runners generalizing runnerIds sessionIds with
  | nil => simp [checkRunners, fresh_nil]
  | cons runner rest ih =>
    rw [List.map_cons, List.map_cons, fresh_cons, fresh_cons]
    simp only [checkRunners, bind_eq_ok, rejectIf_eq_ok, exists_const, ih]
    tauto

def new (candidates : List RunnableCandidate) (runners : List EffectiveRunner) :
    Except SchedulingInputError SchedulingInput :=
  match hattempts : checkAttempts [] candidates with
  | .error error => .error error
  | .ok () =>
    match hrunners : checkRunners [] [] runners with
    | .error error => .error error
    | .ok () =>
      .ok
        { candidates
          runners
          attemptsDistinct := (checkAttempts_eq_ok.mp hattempts).1
          runnersDistinct := (checkRunners_eq_ok.mp hrunners).1.1
          sessionsDistinct := (checkRunners_eq_ok.mp hrunners).2.1 }

/-- The constructor accepts exactly the snapshots with unique identities. -/
theorem new_eq_ok (input : SchedulingInput) : new input.candidates input.runners = .ok input := by
  have hattempts : checkAttempts [] input.candidates = .ok () :=
    checkAttempts_eq_ok.mpr (fresh_nil_seen.mpr input.attemptsDistinct)
  have hrunners : checkRunners [] [] input.runners = .ok () :=
    checkRunners_eq_ok.mpr ⟨fresh_nil_seen.mpr input.runnersDistinct,
      fresh_nil_seen.mpr input.sessionsDistinct⟩
  unfold new
  split
  · simp_all
  · split
    · simp_all
    · rfl

end SchedulingInput

/-! ## Borrowed members -/

/-- A reference to an element of a slice: its address and what it points to. -/
structure Borrowed (α : Type) where
  address : Nat
  value : α

def borrow {α : Type} (members : List α) : List (Borrowed α) :=
  members.zipIdx.map fun (value, address) => ⟨address, value⟩

@[simp] theorem map_value_borrow {α : Type} (members : List α) :
    (borrow members).map Borrowed.value = members := by
  rw [borrow, List.map_map]
  exact List.zipIdx_map_fst 0 members

inductive PlacementFactoryError where
  | foreignCandidate | foreignRunner | unavailableSlot | incompatibleRunner
  deriving DecidableEq, Repr

namespace SchedulingInput

/-- Accept a placement of two members of the snapshot, which are recognised
by their addresses. -/
def place (self : SchedulingInput) (candidate : Borrowed RunnableCandidate)
    (runner : Borrowed EffectiveRunner) (slot : RunnerSlot) :
    Except PlacementFactoryError Placement := do
  rejectIf (∀ member ∈ borrow self.candidates, member.address ≠ candidate.address) .foreignCandidate
  rejectIf (∀ member ∈ borrow self.runners, member.address ≠ runner.address) .foreignRunner
  rejectIf (slot ∉ runner.value.availableSlots) .unavailableSlot
  rejectIf (runner.value.capabilities.satisfies candidate.value.routing.runner ≠ .ok ())
    .incompatibleRunner
  return {
    attemptId := candidate.value.attemptId
    jobId := candidate.value.jobId
    session := runner.value.session
    slot }

theorem place_eq_ok {self : SchedulingInput} {candidate : Borrowed RunnableCandidate}
    {runner : Borrowed EffectiveRunner} {slot : RunnerSlot}
    (hcandidate : candidate ∈ borrow self.candidates)
    (hrunner : runner ∈ borrow self.runners)
    (hslot : slot ∈ runner.value.availableSlots)
    (hsatisfies : runner.value.capabilities.satisfies candidate.value.routing.runner = .ok ()) :
    self.place candidate runner slot = .ok
        { attemptId := candidate.value.attemptId
          jobId := candidate.value.jobId
          session := runner.value.session
          slot } := by
  have hcandidateMember : ¬∀ member ∈ borrow self.candidates, member.address ≠ candidate.address :=
    fun hforeign => hforeign candidate hcandidate rfl
  have hrunnerMember : ¬∀ member ∈ borrow self.runners, member.address ≠ runner.address :=
    fun hforeign => hforeign runner hrunner rfl
  simp only [place, bind_eq_ok, rejectIf_eq_ok, pure_eq_ok, not_not]
  exact ⟨(), hcandidateMember, (), hrunnerMember, (), hslot, (), hsatisfies, trivial⟩

end SchedulingInput

/-! ## The policy -/

inductive CandidateCapacityEvaluation where
  | available (runner : Borrowed EffectiveRunner) (slot : RunnerSlot)
  | compatibleRunnersBusy (runners : List RunnerId)
  | noCompatibleRunner (runners : List RunnerRequirementDecline)

/-- The loop of `evaluateCandidateCapacity`, with the runners it has found
busy and incompatible so far. -/
def evaluateCandidateCapacityFrom (candidate : RunnableCandidate) :
    List RunnerId → List RunnerRequirementDecline →
      List (Borrowed EffectiveRunner) → CandidateCapacityEvaluation
  | busy, incompatible, [] =>
    if busy.isEmpty then
      .noCompatibleRunner incompatible
    else
      .compatibleRunnersBusy busy
  | busy, incompatible, runner :: rest =>
    match runner.value.capabilities.satisfies candidate.routing.runner with
    | .ok () =>
      match runner.value.availableSlots.first with
      | some slot => .available runner slot
      | none =>
        evaluateCandidateCapacityFrom candidate
          (busy ++ [runner.value.session.runnerId]) incompatible rest
    | .error mismatches =>
      evaluateCandidateCapacityFrom candidate busy
        (incompatible ++ [⟨runner.value.session.runnerId, mismatches⟩])
        rest

def evaluateCandidateCapacity (candidate : RunnableCandidate)
    (runners : List (Borrowed EffectiveRunner)) :
    CandidateCapacityEvaluation :=
  evaluateCandidateCapacityFrom candidate [] [] runners

def classifyCandidateCapacity (candidate : RunnableCandidate)
    (runners : List EffectiveRunner) : CandidateCapacity :=
  match evaluateCandidateCapacity candidate (borrow runners) with
  | .available _ _ => .available
  | .compatibleRunnersBusy _ => .compatibleRunnersBusy
  | .noCompatibleRunner _ => .noCompatibleRunner

namespace DeterministicScheduler

/-- First in, first out, with the attempt identity as the tie break. -/
def queueKey (candidate : RunnableCandidate) : UnixMillis ×ₗ AttemptId :=
  toLex (candidate.queuedAt, candidate.attemptId)

def runnerKey (runner : EffectiveRunner) : RunnerId :=
  runner.session.runnerId

/-- The loop of `decide`, with the declines it has collected so far. -/
def decideFrom (input : SchedulingInput) (runners : List (Borrowed EffectiveRunner)) :
    List CandidateDecline → List (Borrowed RunnableCandidate) → PlacementDecision
  | declines, [] => .decline (.candidates declines)
  | declines, candidate :: rest =>
    match evaluateCandidateCapacity candidate.value runners with
    | .available runner slot =>
      match input.place candidate runner slot with
      | .ok placement => .place placement
      | .error _ =>
        decideFrom input runners (declines ++ [⟨candidate.value.attemptId,
              .compatibleRunnersBusy [runner.value.session.runnerId]⟩])
          rest
    | .compatibleRunnersBusy busy =>
      decideFrom input runners
        (declines ++ [⟨candidate.value.attemptId, .compatibleRunnersBusy busy⟩])
        rest
    | .noCompatibleRunner incompatible =>
      decideFrom input runners
        (declines ++ [⟨candidate.value.attemptId, .noCompatibleRunner incompatible⟩])
        rest

variable (input : SchedulingInput)

def sortedCandidates : List (Borrowed RunnableCandidate) :=
  KeyedList.sortBy (fun candidate => queueKey candidate.value) (borrow input.candidates)

def sortedRunners : List (Borrowed EffectiveRunner) :=
  KeyedList.sortBy (fun runner => runnerKey runner.value) (borrow input.runners)

def decide : PlacementDecision :=
  if input.candidates.isEmpty then
    .decline .noRunnableCandidates
  else if input.runners.isEmpty then
    .decline .noEffectiveRunners
  else
    decideFrom input (sortedRunners input) [] (sortedCandidates input)

end DeterministicScheduler

/-! ## The placements and declines of one candidate -/

section OneCandidate

variable (candidate : RunnableCandidate)

structure Placeable (runner : EffectiveRunner) : Prop where
  satisfies :
    runner.capabilities.satisfies candidate.routing.runner = .ok ()
  free : ∃ slot, slot ∈ runner.availableSlots

def placementOn (runner : EffectiveRunner) : Option Placement :=
  match runner.capabilities.satisfies candidate.routing.runner with
  | .ok () =>
    runner.availableSlots.first.map fun slot =>
      { attemptId := candidate.attemptId
        jobId := candidate.jobId
        session := runner.session
        slot }
  | .error _ => none

variable (runners : List EffectiveRunner)

def compatibleRunners : List RunnerId :=
  (runners.filter fun runner =>
    runner.capabilities.satisfies candidate.routing.runner = .ok ()).map
    fun runner => runner.session.runnerId

def requirementDeclines : List RunnerRequirementDecline :=
  runners.filterMap fun runner =>
    match runner.capabilities.satisfies candidate.routing.runner with
    | .ok () => none
    | .error mismatches => some ⟨runner.session.runnerId, mismatches⟩

def declineReason : CandidateDeclineReason :=
  if (compatibleRunners candidate runners).isEmpty then
    .noCompatibleRunner (requirementDeclines candidate runners)
  else
    .compatibleRunnersBusy (compatibleRunners candidate runners)

variable {candidate} {runner : EffectiveRunner}

theorem placementOn_eq_some_iff {placement : Placement} :
    placementOn candidate runner = some placement ↔
      runner.capabilities.satisfies candidate.routing.runner = .ok () ∧
        ∃ slot, runner.availableSlots.first = some slot ∧ placement =
            ⟨candidate.attemptId, candidate.jobId, runner.session, slot⟩ := by
  unfold placementOn
  split
  · rename_i hsatisfies
    simp only [Option.map_eq_some_iff, hsatisfies, true_and]
    constructor
    · rintro ⟨slot, hfirst, rfl⟩
      exact ⟨slot, hfirst, rfl⟩
    · rintro ⟨slot, hfirst, rfl⟩
      exact ⟨slot, hfirst, rfl⟩
  · rename_i hsatisfies
    simp [hsatisfies]

theorem placementOn_ne_none_iff :
    placementOn candidate runner ≠ none ↔ Placeable candidate runner := by
  rw [Option.ne_none_iff_exists']
  constructor
  · rintro ⟨placement, hplacement⟩
    obtain ⟨hsatisfies, slot, hfirst, -⟩ := placementOn_eq_some_iff.mp hplacement
    exact ⟨hsatisfies, slot, (OrderedSet.first_eq_some_iff.mp hfirst).1⟩
  · rintro ⟨hsatisfies, slot, hslot⟩
    have hnonempty : runner.availableSlots.first ≠ none := by
      intro hnone
      exact OrderedSet.first_eq_none_iff.mp hnone slot hslot
    obtain ⟨least, hleast⟩ := Option.ne_none_iff_exists'.mp hnonempty
    exact ⟨_, placementOn_eq_some_iff.mpr ⟨hsatisfies, least, hleast, rfl⟩⟩

def CandidateCapacityEvaluation.Describes
    (busy : List RunnerId) (incompatible : List RunnerRequirementDecline)
    (candidate : RunnableCandidate)
    (runners : List (Borrowed EffectiveRunner)) :
    CandidateCapacityEvaluation → Prop
  | .available runner slot =>
    runner ∈ runners ∧ runner.value.capabilities.satisfies candidate.routing.runner = .ok () ∧
      slot ∈ runner.value.availableSlots ∧
      (runners.map Borrowed.value).findSome? (placementOn candidate) = some
          ⟨candidate.attemptId, candidate.jobId, runner.value.session, slot⟩
  | .compatibleRunnersBusy found =>
    (runners.map Borrowed.value).findSome? (placementOn candidate) = none ∧ found =
        busy ++ compatibleRunners candidate (runners.map Borrowed.value) ∧
      found ≠ []
  | .noCompatibleRunner found =>
    (runners.map Borrowed.value).findSome? (placementOn candidate) = none ∧
      busy ++ compatibleRunners candidate (runners.map Borrowed.value) = [] ∧
      found = incompatible ++ requirementDeclines candidate (runners.map Borrowed.value)

variable (candidate) in
theorem evaluateCandidateCapacityFrom_describes (busy : List RunnerId)
    (incompatible : List RunnerRequirementDecline)
    (runners : List (Borrowed EffectiveRunner)) :
    (evaluateCandidateCapacityFrom candidate busy incompatible
      runners).Describes busy incompatible candidate runners := by
  induction runners generalizing busy incompatible with
  | nil =>
    unfold evaluateCandidateCapacityFrom
    split
    · rename_i hempty
      simpa [CandidateCapacityEvaluation.Describes, compatibleRunners,
        requirementDeclines] using hempty
    · rename_i hbusy
      simpa [CandidateCapacityEvaluation.Describes, compatibleRunners] using hbusy
  | cons runner rest ih =>
    unfold evaluateCandidateCapacityFrom
    split
    · rename_i hsatisfies
      split
      · rename_i slot hfirst
        refine ⟨List.mem_cons_self, hsatisfies, (OrderedSet.first_eq_some_iff.mp hfirst).1, ?_⟩
        have hplacement := placementOn_eq_some_iff.mpr ⟨hsatisfies, slot, hfirst, rfl⟩
        rw [List.map_cons, List.findSome?_cons, hplacement]
      · rename_i hfirst
        -- The runner joins the busy ones and the search goes on.
        have hnone : placementOn candidate runner.value = none := by
          simp [placementOn, hsatisfies, hfirst]
        have hrest := ih (busy ++ [runner.value.session.runnerId]) incompatible
        revert hrest
        cases evaluateCandidateCapacityFrom candidate
            (busy ++ [runner.value.session.runnerId]) incompatible rest <;>
          simp_all [CandidateCapacityEvaluation.Describes, compatibleRunners, requirementDeclines]
    · rename_i mismatches hmismatches
      have hnone : placementOn candidate runner.value = none := by simp [placementOn, hmismatches]
      have hrest := ih busy (incompatible ++ [⟨runner.value.session.runnerId, mismatches⟩])
      revert hrest
      cases evaluateCandidateCapacityFrom candidate busy
          (incompatible ++ [⟨runner.value.session.runnerId, mismatches⟩])
          rest <;>
        simp_all [CandidateCapacityEvaluation.Describes, compatibleRunners, requirementDeclines]

theorem mem_compatibleRunners {runners : List EffectiveRunner} {runnerId : RunnerId} :
    runnerId ∈ compatibleRunners candidate runners ↔ ∃ runner ∈ runners,
        runner.capabilities.satisfies candidate.routing.runner = .ok () ∧
          runner.session.runnerId = runnerId := by
  simp [compatibleRunners, and_assoc]

theorem compatibleRunners_perm {left right : List EffectiveRunner} (hperm : left.Perm right) :
    (compatibleRunners candidate left).Perm (compatibleRunners candidate right) :=
  (hperm.filter _).map _

theorem findSome?_placementOn_eq_none_iff {runners : List EffectiveRunner} :
    runners.findSome? (placementOn candidate) = none ↔
      ∀ runner ∈ runners, ¬Placeable candidate runner := by
  rw [List.findSome?_eq_none_iff]
  constructor
  · intro hnone runner hrunner hplaceable
    exact placementOn_ne_none_iff.mpr hplaceable (hnone runner hrunner)
  · intro hnot runner hrunner
    by_contra hsome
    exact hnot runner hrunner (placementOn_ne_none_iff.mp hsome)

theorem classifyCandidateCapacity_eq {runners : List EffectiveRunner}
    (hnone : ∀ runner ∈ runners, ¬Placeable candidate runner) :
    classifyCandidateCapacity candidate runners =
      if (compatibleRunners candidate runners).isEmpty then
        .noCompatibleRunner
      else
        .compatibleRunnersBusy := by
  have hdescribes := evaluateCandidateCapacityFrom_describes candidate [] [] (borrow runners)
  have hsearch := findSome?_placementOn_eq_none_iff.mpr hnone
  unfold classifyCandidateCapacity evaluateCandidateCapacity
  split
  · rename_i runner slot heq
    rw [heq] at hdescribes
    have hfound := hdescribes.2.2.2
    rw [map_value_borrow, hsearch] at hfound
    contradiction
  · rename_i found heq
    rw [heq] at hdescribes
    obtain ⟨-, hfound, hnonempty⟩ := hdescribes
    rw [map_value_borrow, List.nil_append] at hfound
    rw [hfound] at hnonempty
    rw [if_neg (by simpa using hnonempty)]
  · rename_i found heq
    rw [heq] at hdescribes
    have hempty := hdescribes.2.1
    rw [map_value_borrow, List.nil_append] at hempty
    rw [hempty]
    rfl

end OneCandidate

/-! ## The decision as a search -/

namespace DeterministicScheduler

variable {input : SchedulingInput}

def firstPlacement (runners : List EffectiveRunner)
    (candidate : RunnableCandidate) : Option Placement :=
  runners.findSome? (placementOn candidate)

def declineOf (runners : List EffectiveRunner) (candidate : RunnableCandidate) : CandidateDecline :=
  ⟨candidate.attemptId, declineReason candidate runners⟩

variable {runners : List (Borrowed EffectiveRunner)} {runner : Borrowed EffectiveRunner}
  {candidate : RunnableCandidate}

theorem place_of_available {candidate : Borrowed RunnableCandidate} {slot : RunnerSlot}
    (hcandidate : candidate ∈ borrow input.candidates)
    (hrunners : ∀ runner ∈ runners, runner ∈ borrow input.runners)
    (havailable : evaluateCandidateCapacity candidate.value runners = .available runner slot) :
    ∃ placement, input.place candidate runner slot = .ok placement ∧
        firstPlacement (runners.map Borrowed.value) candidate.value = some placement := by
  have hdescribes := evaluateCandidateCapacityFrom_describes candidate.value [] [] runners
  unfold evaluateCandidateCapacity at havailable
  rw [havailable] at hdescribes
  obtain ⟨hmem, hsatisfies, hslot, hsearch⟩ := hdescribes
  exact ⟨_, SchedulingInput.place_eq_ok hcandidate (hrunners runner hmem) hslot hsatisfies, hsearch⟩

theorem declineReason_of_busy {busy : List RunnerId}
    (hbusy : evaluateCandidateCapacity candidate runners = .compatibleRunnersBusy busy) :
    firstPlacement (runners.map Borrowed.value) candidate = none ∧
      declineReason candidate (runners.map Borrowed.value) = .compatibleRunnersBusy busy := by
  have hdescribes := evaluateCandidateCapacityFrom_describes candidate [] [] runners
  unfold evaluateCandidateCapacity at hbusy
  rw [hbusy] at hdescribes
  obtain ⟨hsearch, hfound, hnonempty⟩ := hdescribes
  rw [List.nil_append] at hfound
  refine ⟨hsearch, ?_⟩
  rw [declineReason, ← hfound, if_neg (by simpa using hnonempty)]

theorem declineReason_of_incompatible {incompatible : List RunnerRequirementDecline}
    (hincompatible :
      evaluateCandidateCapacity candidate runners = .noCompatibleRunner incompatible) :
    firstPlacement (runners.map Borrowed.value) candidate = none ∧
      declineReason candidate (runners.map Borrowed.value) = .noCompatibleRunner incompatible := by
  have hdescribes := evaluateCandidateCapacityFrom_describes candidate [] [] runners
  unfold evaluateCandidateCapacity at hincompatible
  rw [hincompatible] at hdescribes
  obtain ⟨hsearch, hempty, hfound⟩ := hdescribes
  rw [List.nil_append] at hempty hfound
  refine ⟨hsearch, ?_⟩
  rw [declineReason, hempty, hfound]
  rfl

theorem decideFrom_eq {candidates : List (Borrowed RunnableCandidate)}
    {declines : List CandidateDecline}
    (hrunners : ∀ runner ∈ runners, runner ∈ borrow input.runners)
    (hcandidates : ∀ candidate ∈ candidates, candidate ∈ borrow input.candidates) :
    decideFrom input runners declines candidates = match (candidates.map Borrowed.value).findSome?
          (firstPlacement (runners.map Borrowed.value)) with
      | some placement => .place placement
      | none =>
        .decline (.candidates (declines ++ (candidates.map Borrowed.value).map
            (declineOf (runners.map Borrowed.value)))) := by
  induction candidates generalizing declines with
  | nil => simp [decideFrom]
  | cons candidate rest ih =>
    have hrest : ∀ candidate ∈ rest, candidate ∈ borrow input.candidates :=
      fun other hother => hcandidates other (List.mem_cons_of_mem _ hother)
    rw [decideFrom, List.map_cons, List.findSome?_cons]
    cases heval : evaluateCandidateCapacity candidate.value runners with
    | available =>
      obtain ⟨placement, hplace, hfirst⟩ := place_of_available (hcandidates candidate
        List.mem_cons_self) hrunners heval
      simp only [hplace, hfirst]
    | compatibleRunnersBusy =>
      obtain ⟨hfirst, hreason⟩ := declineReason_of_busy heval
      simp only [hfirst, ih hrest, List.map_cons, declineOf, hreason,
        List.append_assoc, List.singleton_append]
    | noCompatibleRunner =>
      obtain ⟨hfirst, hreason⟩ := declineReason_of_incompatible heval
      simp only [hfirst, ih hrest, List.map_cons, declineOf, hreason,
        List.append_assoc, List.singleton_append]

/-! ## Fairness -/

theorem sortedCandidates_mem {candidate : Borrowed RunnableCandidate}
    (hcandidate : candidate ∈ sortedCandidates input) :
    candidate ∈ borrow input.candidates :=
  KeyedList.mem_sortBy.mp hcandidate

theorem sortedRunners_mem (hrunner : runner ∈ sortedRunners input) :
    runner ∈ borrow input.runners :=
  KeyedList.mem_sortBy.mp hrunner

theorem map_value_sortedCandidates :
    (sortedCandidates input).map Borrowed.value = KeyedList.sortBy queueKey input.candidates := by
  rw [sortedCandidates, map_sortBy, map_value_borrow]

theorem map_value_sortedRunners :
    (sortedRunners input).map Borrowed.value = KeyedList.sortBy runnerKey input.runners := by
  rw [sortedRunners, map_sortBy, map_value_borrow]

def decideSorted (candidates : List RunnableCandidate)
    (runners : List EffectiveRunner) : PlacementDecision :=
  match candidates.findSome? (firstPlacement runners) with
  | some placement => .place placement
  | none => .decline (.candidates (candidates.map (declineOf runners)))

theorem decide_eq_decideSorted
    (hcandidates : input.candidates ≠ []) (hrunners : input.runners ≠ []) :
    decide input = decideSorted (KeyedList.sortBy queueKey input.candidates)
        (KeyedList.sortBy runnerKey input.runners) := by
  unfold decide
  rw [if_neg (by simpa using hcandidates), if_neg (by simpa using hrunners),
    decideFrom_eq (fun _ hrunner => sortedRunners_mem hrunner)
      (fun _ hcandidate => sortedCandidates_mem hcandidate),
    map_value_sortedCandidates, map_value_sortedRunners, List.nil_append]
  rfl

theorem queueKey_nodup (input : SchedulingInput) : (input.candidates.map queueKey).Nodup := by
  have hattempts := input.attemptsDistinct
  apply List.Nodup.of_map fun key : UnixMillis ×ₗ AttemptId => (ofLex key).2
  rwa [List.map_map]

/-- The decision does not depend on the order of either slice. -/
theorem decide_eq_of_perm {other : SchedulingInput}
    (hcandidates : other.candidates.Perm input.candidates)
    (hrunners : other.runners.Perm input.runners) :
    decide other = decide input := by
  by_cases hnoCandidates : input.candidates = []
  · have hother : other.candidates = [] := List.perm_nil.mp (hnoCandidates ▸ hcandidates)
    simp [decide, hnoCandidates, hother]
  by_cases hnoRunners : input.runners = []
  · have hother : other.runners = [] := List.perm_nil.mp (hnoRunners ▸ hrunners)
    have hsome : other.candidates ≠ [] := by
      intro hempty
      exact hnoCandidates (List.nil_perm.mp (hempty ▸ hcandidates))
    simp [decide, hnoCandidates, hnoRunners, hother, hsome]
  have hsomeCandidates : other.candidates ≠ [] := by
    intro hempty
    exact hnoCandidates (List.nil_perm.mp (hempty ▸ hcandidates))
  have hsomeRunners : other.runners ≠ [] := by
    intro hempty
    exact hnoRunners (List.nil_perm.mp (hempty ▸ hrunners))
  have hrunnerKeys : (other.runners.map runnerKey).Nodup := other.runnersDistinct
  rw [decide_eq_decideSorted hsomeCandidates hsomeRunners, decide_eq_decideSorted hnoCandidates
    hnoRunners, sortBy_eq_of_perm (queueKey_nodup other) hcandidates, sortBy_eq_of_perm hrunnerKeys
    hrunners]

theorem firstPlacement_eq_none_iff {runners : List EffectiveRunner} :
    firstPlacement (KeyedList.sortBy runnerKey runners) candidate = none ↔
      ∀ runner ∈ runners, ¬Placeable candidate runner := by
  rw [firstPlacement, findSome?_placementOn_eq_none_iff]
  simp only [mem_sortBy]

theorem firstPlacement_ne_none_iff {runners : List EffectiveRunner} :
    firstPlacement (KeyedList.sortBy runnerKey runners) candidate ≠ none ↔
      ∃ runner ∈ runners, Placeable candidate runner := by
  rw [Ne, firstPlacement_eq_none_iff]
  simp only [not_forall, not_not, exists_prop]

/-- The candidate, runner and slot of a placement are the least ones which
could have been chosen. -/
structure LeastPlacement (input : SchedulingInput) (placement : Placement)
    (candidate : RunnableCandidate) (runner : EffectiveRunner) : Prop where
  candidateMember : candidate ∈ input.candidates
  runnerMember : runner ∈ input.runners
  attempt : placement.attemptId = candidate.attemptId
  job : placement.jobId = candidate.jobId
  session : placement.session = runner.session
  placeable : Placeable candidate runner
  leastCandidate :
    ∀ other ∈ input.candidates, (∃ runner ∈ input.runners, Placeable other runner) →
        queueKey candidate ≤ queueKey other
  leastRunner :
    ∀ other ∈ input.runners, Placeable candidate other →
        runner.session.runnerId ≤ other.session.runnerId
  slot : placement.slot ∈ runner.availableSlots
  leastSlot : ∀ other ∈ runner.availableSlots, placement.slot ≤ other

theorem leastPlacement_of_search {placement : Placement}
    (hsearch : (KeyedList.sortBy queueKey input.candidates).findSome?
        (firstPlacement (KeyedList.sortBy runnerKey input.runners)) =
        some placement) :
    ∃ candidate runner, LeastPlacement input placement candidate runner := by
  obtain ⟨candidate, hcandidate, hfirst, hleastCandidate⟩ :=
    findSome?_ordered (sortBy_ordered _) hsearch
  obtain ⟨runner, hrunner, hplacement, hleastRunner⟩ := findSome?_ordered (sortBy_ordered _) hfirst
  obtain ⟨hsatisfies, slot, hslot, rfl⟩ := placementOn_eq_some_iff.mp hplacement
  obtain ⟨hslotMem, hleastSlot⟩ := OrderedSet.first_eq_some_iff.mp hslot
  refine ⟨candidate, runner, ?_⟩
  exact
    { candidateMember := mem_sortBy.mp hcandidate
      runnerMember := mem_sortBy.mp hrunner
      attempt := rfl
      job := rfl
      session := rfl
      placeable := ⟨hsatisfies, slot, hslotMem⟩
      leastCandidate := fun other hother hplaceable =>
        hleastCandidate other (mem_sortBy.mpr hother) (firstPlacement_ne_none_iff.mpr hplaceable)
      leastRunner := fun other hother hplaceable =>
        hleastRunner other (mem_sortBy.mpr hother) (placementOn_ne_none_iff.mpr hplaceable)
      slot := hslotMem
      leastSlot := hleastSlot }

/-- A decline says of a candidate what its classification says, and names
exactly the runners which satisfy it. -/
structure DeclineExplains (input : SchedulingInput)
    (candidate : RunnableCandidate) (reason : CandidateDeclineReason) :
    Prop where
  busy_iff :
    (∃ runners, reason = .compatibleRunnersBusy runners) ↔
      classifyCandidateCapacity candidate input.runners = .compatibleRunnersBusy
  busyRunners :
    ∀ runners, reason = .compatibleRunnersBusy runners → runners.Nodup ∧
        ∀ runnerId, runnerId ∈ runners ↔ ∃ runner ∈ input.runners,
            runner.capabilities.satisfies candidate.routing.runner = .ok () ∧
              runner.session.runnerId = runnerId
  incompatible_iff :
    (∃ runners, reason = .noCompatibleRunner runners) ↔
      classifyCandidateCapacity candidate input.runners ≠ .compatibleRunnersBusy

theorem declineExplains (hnone : ∀ runner ∈ input.runners, ¬Placeable candidate runner) :
    DeclineExplains input candidate (declineReason candidate
        (KeyedList.sortBy runnerKey input.runners)) := by
  have hperm :
      (compatibleRunners candidate (sortBy runnerKey input.runners)).Perm
        (compatibleRunners candidate input.runners) :=
    compatibleRunners_perm (perm_sortBy _)
  have hnodup : (compatibleRunners candidate input.runners).Nodup :=
    input.runnersDistinct.sublist (List.filter_sublist.map _)
  have hclass := classifyCandidateCapacity_eq hnone
  by_cases hempty : compatibleRunners candidate input.runners = []
  · have hsorted : compatibleRunners candidate (sortBy runnerKey input.runners) = [] :=
      List.perm_nil.mp (hempty ▸ hperm)
    rw [hempty] at hclass
    constructor <;> simp [declineReason, hsorted, hclass]
  · have hsorted : compatibleRunners candidate (KeyedList.sortBy runnerKey input.runners) ≠ [] := by
      intro hnil
      exact hempty (List.nil_perm.mp (hnil ▸ hperm))
    rw [if_neg (by simpa using hempty)] at hclass
    constructor
    · simp [declineReason, hsorted, hclass]
    · intro runners hreason
      rw [declineReason, if_neg (by simpa using hsorted)] at hreason
      cases hreason
      refine ⟨hperm.nodup_iff.mpr hnodup, ?_⟩
      intro runnerId
      rw [hperm.mem_iff, mem_compatibleRunners]
    · simp [declineReason, hsorted, hclass]

structure FairDecision (input : SchedulingInput) : Prop where
  orderIndependent :
    ∀ other : SchedulingInput, other.candidates.Perm input.candidates →
      other.runners.Perm input.runners →
      decide other = decide input
  places_iff :
    (∃ placement, decide input = .place placement) ↔
      ∃ candidate ∈ input.candidates, ∃ runner ∈ input.runners, Placeable candidate runner
  optimal :
    ∀ placement, decide input = .place placement →
      ∃ candidate runner, LeastPlacement input placement candidate runner
  neverRejected :
    ∀ candidate ∈ sortedCandidates input, ∀ runner slot,
      evaluateCandidateCapacity candidate.value (sortedRunners input) = .available runner slot →
      ∃ placement, input.place candidate runner slot = .ok placement
  declinesAll :
    input.candidates ≠ [] → input.runners ≠ [] →
    (∀ candidate ∈ input.candidates, ∀ runner ∈ input.runners, ¬Placeable candidate runner) →
    ∃ declines, decide input = .decline (.candidates declines) ∧
      (declines.map CandidateDecline.attemptId).Perm
        (input.candidates.map RunnableCandidate.attemptId) ∧
      ∀ decline ∈ declines, ∃ candidate ∈ input.candidates,
        candidate.attemptId = decline.attemptId ∧ DeclineExplains input candidate decline.reason
  declinesEmptyQueue :
    input.candidates = [] → decide input = .decline .noRunnableCandidates
  declinesWithoutRunners :
    input.candidates ≠ [] → input.runners = [] → decide input = .decline .noEffectiveRunners

theorem places_iff :
    (∃ placement, decide input = .place placement) ↔
      ∃ candidate ∈ input.candidates, ∃ runner ∈ input.runners, Placeable candidate runner := by
  by_cases hcandidates : input.candidates = []
  · simp [decide, hcandidates]
  by_cases hrunners : input.runners = []
  · simp [decide, hcandidates, hrunners]
  rw [decide_eq_decideSorted hcandidates hrunners, decideSorted]
  constructor
  · rintro ⟨placement, hplace⟩
    split at hplace
    · rename_i hsearch
      obtain ⟨candidate, runner, hleast⟩ := leastPlacement_of_search hsearch
      exact ⟨candidate, hleast.candidateMember, runner, hleast.runnerMember, hleast.placeable⟩
    · contradiction
  · rintro ⟨candidate, hcandidate, hplaceable⟩
    split
    · exact ⟨_, rfl⟩
    · rename_i hsearch
      have hnone := List.findSome?_eq_none_iff.mp hsearch candidate (mem_sortBy.mpr hcandidate)
      exact absurd hnone (firstPlacement_ne_none_iff.mpr hplaceable)

theorem declines_of_none_placeable
    (hcandidates : input.candidates ≠ []) (hrunners : input.runners ≠ [])
    (hnone :
      ∀ candidate ∈ input.candidates, ∀ runner ∈ input.runners, ¬Placeable candidate runner) :
    decide input = .decline (.candidates ((KeyedList.sortBy queueKey input.candidates).map
          (declineOf (KeyedList.sortBy runnerKey input.runners)))) := by
  have hsearch :
      (sortBy queueKey input.candidates).findSome?
        (firstPlacement (sortBy runnerKey input.runners)) =
        none := by
    apply List.findSome?_eq_none_iff.mpr
    intro candidate hcandidate
    exact firstPlacement_eq_none_iff.mpr (hnone candidate (mem_sortBy.mp hcandidate))
  rw [decide_eq_decideSorted hcandidates hrunners, decideSorted, hsearch]

/-- The scheduler is fair, optimal and independent of the input order. -/
theorem decide_fair (input : SchedulingInput) : FairDecision input := by
  constructor
  · intro other hcandidates hrunners
    exact decide_eq_of_perm hcandidates hrunners
  · exact places_iff
  · intro placement hplace
    obtain ⟨candidate, hcandidate, runner, hrunner, -⟩ := places_iff.mp ⟨placement, hplace⟩
    rw [decide_eq_decideSorted (List.ne_nil_of_mem hcandidate)
      (List.ne_nil_of_mem hrunner), decideSorted] at hplace
    split at hplace
    · rename_i hsearch
      cases hplace
      exact leastPlacement_of_search hsearch
    · contradiction
  · intro candidate hcandidate runner slot havailable
    obtain ⟨placement, hplace, -⟩ := place_of_available (sortedCandidates_mem hcandidate)
        (fun _ hrunner => sortedRunners_mem hrunner) havailable
    exact ⟨placement, hplace⟩
  · intro hcandidates hrunners hnone
    refine ⟨_, declines_of_none_placeable hcandidates hrunners hnone, ?_, ?_⟩
    · rw [List.map_map]
      exact (perm_sortBy _).map _
    · intro decline hdecline
      obtain ⟨candidate, hcandidate, rfl⟩ := List.mem_map.mp hdecline
      have hmember := mem_sortBy.mp hcandidate
      exact ⟨candidate, hmember, rfl, declineExplains (hnone candidate hmember)⟩
  · intro hcandidates
    simp [decide, hcandidates]
  · intro hcandidates hrunners
    simp [decide, hcandidates, hrunners]

namespace Sample

def waiting : RunnableCandidate :=
  ⟨⟨⟨1⟩⟩, ⟨⟨2⟩⟩, ⟨0⟩, ⟨RunnerRequirements.default, rfl⟩⟩

def unserved : SchedulingInput :=
  ⟨[waiting], [], List.nodup_singleton _, List.nodup_nil, List.nodup_nil⟩

end Sample

/-- Without runners the decline names no candidate. -/
theorem unserved_decline_names_none :
    (∀ candidate ∈ Sample.unserved.candidates,
      ∀ runner ∈ Sample.unserved.runners, ¬Placeable candidate runner) ∧
    Sample.waiting ∈ Sample.unserved.candidates ∧
    decide Sample.unserved = .decline .noEffectiveRunners := by
  refine ⟨?_, List.mem_singleton.mpr rfl, rfl⟩
  intro candidate _ runner hrunner
  exact absurd hrunner List.not_mem_nil

end DeterministicScheduler

end AutomataCi
