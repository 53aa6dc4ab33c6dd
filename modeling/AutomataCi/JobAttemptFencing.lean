import AutomataCi.JobAttempt

/-!
# Fencing of job attempts

Every history of calls on one attempt, failed calls included, keeps the
attempt valid, and a credential which a later lease or a revocation has
outdated is never accepted again.  The high-water token carries the argument:
only `acquire_lease` moves it, always by one, and an active lease always holds
exactly the high-water token.
-/

namespace AutomataCi

open GuardedResult FallibleState

inductive AttemptCall where
  | acquireLease (leaseId : LeaseId) (runnerId : RunnerId)
      (issuedAt expiresAt : UnixMillis)
  | applyTransition (guard : LeaseGuard) (next : JobLifecycle)
  | renewLease (guard : LeaseGuard) (expiresAt : UnixMillis)
  deriving DecidableEq, Repr

inductive AttemptReply where
  | leaseAcquired (lease : Lease)
  | transitionApplied
  | leaseRenewed (lease : Lease)
  deriving DecidableEq, Repr

namespace JobAttemptState

def perform (self : JobAttemptState) :
    AttemptCall → Except AttemptStateError AttemptReply × JobAttemptState
  | .acquireLease leaseId runnerId issuedAt expiresAt =>
    exec (do
      let lease ← acquireLease leaseId runnerId issuedAt expiresAt
      return .leaseAcquired lease) self
  | .applyTransition guard next =>
    exec (do
      applyTransition guard next
      return .transitionApplied) self
  | .renewLease guard expiresAt =>
    exec (do
      let lease ← renewLease guard expiresAt
      return .leaseRenewed lease) self

def runCalls (self : JobAttemptState) (calls : List AttemptCall) : JobAttemptState :=
  calls.foldl (fun state call => (state.perform call).2) self

def issuedBy : Except AttemptStateError AttemptReply → List Lease
  | .ok (.leaseAcquired lease) => [lease]
  | _ => []

def issuedLeases (self : JobAttemptState) : List AttemptCall → List Lease
  | [] => []
  | call :: rest => issuedBy (self.perform call).1 ++ (self.perform call).2.issuedLeases rest

/-- The outcomes of one call: a failure, which changes nothing, or one of the
three fenced mutations under its guards. -/
inductive CallOutcome (self : JobAttemptState) :
    AttemptCall → Except AttemptStateError AttemptReply → JobAttemptState → Prop where
  | failed (call : AttemptCall) (error : AttemptStateError) :
      CallOutcome self call (.error error) self
  | acquired (lease : Lease)
      (hqueued : self.lifecycle = .queued)
      (htoken :
        nextFencingToken self.currentFencingToken = .ok lease.fencingToken)
      (hattempt : lease.attemptId = self.attemptId)
      (hlease : lease.validate = .ok ()) :
      CallOutcome self
        (.acquireLease lease.id lease.runnerId lease.issuedAt lease.expiresAt)
        (.ok (.leaseAcquired lease))
        { self with
          lifecycle := .leased
          currentFencingToken := some lease.fencingToken
          activeLease := some lease }
  | transitioned (active : Lease) (next : JobLifecycle)
      (hactive : self.activeLease = some active)
      (hedge : self.lifecycle.hasEdge next = true) :
      CallOutcome self (.applyTransition active.guard next)
        (.ok .transitionApplied)
        { self with
          lifecycle := next
          activeLease :=
            if next = .queued ∨ next.isTerminal = true then none
            else some active }
  | renewed (active : Lease) (expiresAt : UnixMillis)
      (hactive : self.activeLease = some active)
      (hextends : active.expiresAt.get < expiresAt.get) :
      CallOutcome self (.renewLease active.guard expiresAt)
        (.ok (.leaseRenewed { active with expiresAt }))
        { self with activeLease := some { active with expiresAt } }

theorem hasEdge_leased {current : JobLifecycle} :
    current.hasEdge .leased = true ↔ current = .queued := by
  cases current <;> simp [JobLifecycle.hasEdge]

variable (self : JobAttemptState)

theorem perform_acquireLease_outcome
    (leaseId : LeaseId) (runnerId : RunnerId)
    (issuedAt expiresAt : UnixMillis) :
    CallOutcome self (.acquireLease leaseId runnerId issuedAt expiresAt)
      (self.perform (.acquireLease leaseId runnerId issuedAt expiresAt)).1
      (self.perform (.acquireLease leaseId runnerId issuedAt expiresAt)).2 := by
  simp only [perform, acquireLease, exec_bind, exec_get, andThen_ok, exec_check]
  cases hedge : (self.lifecycle.validateTransition .leased).mapError
      AttemptStateError.transition with
  | error error => exact .failed _ error
  | ok accepted =>
    simp only [andThen_ok, exec_bind, exec_check]
    cases htoken : (nextFencingToken self.currentFencingToken).mapError
        AttemptStateError.identifier with
    | error error => exact .failed _ error
    | ok token =>
      simp only [andThen_ok, exec_bind, exec_check]
      cases hlease : (Lease.new leaseId self.attemptId runnerId token
          issuedAt expiresAt).mapError AttemptStateError.lease with
      | error error => exact .failed _ error
      | ok lease =>
        simp only [mapError_eq_ok, Lease.new_eq_ok] at hlease
        obtain ⟨hinterval, rfl⟩ := hlease
        rw [mapError_eq_ok, JobLifecycle.validateTransition_eq_ok, hasEdge_leased] at hedge
        exact .acquired ⟨coreSchemaVersion, leaseId, self.attemptId,
          runnerId, token, issuedAt, expiresAt⟩ hedge
          (mapError_eq_ok.mp htoken) rfl
          (Lease.validate_eq_ok.mpr ⟨rfl, hinterval⟩)

theorem perform_applyTransition_outcome
    (guard : LeaseGuard) (next : JobLifecycle) :
    CallOutcome self (.applyTransition guard next) (self.perform (.applyTransition guard next)).1
      (self.perform (.applyTransition guard next)).2 := by
  simp only [perform, applyTransition, exec_bind, exec_get, andThen_ok, exec_check]
  cases hfence : (self.verifyFence guard).mapError AttemptStateError.fence with
  | error error => exact .failed _ error
  | ok accepted =>
    rw [mapError_eq_ok, verifyFence_eq_ok] at hfence
    obtain ⟨active, hactive, rfl⟩ := hfence
    simp only [andThen_ok, exec_bind, exec_check]
    cases hedge : (self.lifecycle.validateTransition next).mapError
        AttemptStateError.transition with
    | error error => exact .failed _ error
    | ok accepted =>
      rw [mapError_eq_ok, JobLifecycle.validateTransition_eq_ok] at hedge
      have houtcome := CallOutcome.transitioned active next hactive hedge
      simp only [andThen_ok, exec_bind, exec_modify]
      split <;> simp_all

theorem perform_renewLease_outcome
    (guard : LeaseGuard) (expiresAt : UnixMillis) :
    CallOutcome self (.renewLease guard expiresAt) (self.perform (.renewLease guard expiresAt)).1
      (self.perform (.renewLease guard expiresAt)).2 := by
  simp only [perform, renewLease, exec_bind, exec_get, andThen_ok, exec_check]
  cases hfence : (self.verifyFence guard).mapError AttemptStateError.fence with
  | error error => exact .failed _ error
  | ok accepted =>
    rw [mapError_eq_ok, verifyFence_eq_ok] at hfence
    obtain ⟨active, hactive, rfl⟩ := hfence
    simp only [andThen_ok, exec_bind, exec_check, hactive, okOr]
    cases hrenew : (active.renew expiresAt).mapError AttemptStateError.lease with
    | error error => exact .failed _ error
    | ok renewed =>
      rw [mapError_eq_ok, Lease.renew_eq_ok] at hrenew
      obtain ⟨hextends, rfl⟩ := hrenew
      exact .renewed active expiresAt hactive hextends

theorem perform_outcome (call : AttemptCall) :
    CallOutcome self call (self.perform call).1 (self.perform call).2 := by
  cases call with
  | acquireLease leaseId runnerId issuedAt expiresAt =>
    exact perform_acquireLease_outcome self leaseId runnerId issuedAt expiresAt
  | applyTransition guard next => exact perform_applyTransition_outcome self guard next
  | renewLease guard expiresAt => exact perform_renewLease_outcome self guard expiresAt

/-- What `validate` checks. -/
structure Consistent (state : JobAttemptState) : Prop where
  schema : state.schemaVersion = coreSchemaVersion
  leasePresence : state.lifecycle.needsLease = state.activeLease.isSome
  leaseValid :
    ∀ lease, state.activeLease = some lease → lease.validate = .ok ()
  leaseAttempt :
    ∀ lease, state.activeLease = some lease → lease.attemptId = state.attemptId
  leaseToken :
    ∀ lease, state.activeLease = some lease → state.currentFencingToken = some lease.fencingToken

variable {self next : JobAttemptState}

theorem validate_eq_ok : self.validate = .ok () ↔ self.Consistent := by
  simp only [validate, bind_eq_ok, rejectIf_eq_ok, ifPresent_eq_ok, mapError_eq_ok, exists_const,
    exists_and_right, exists_eq_ok_unit, not_not]
  constructor
  · rintro ⟨hschema, hpresence, hlease⟩
    exact ⟨hschema, hpresence, fun lease hactive => (hlease lease hactive).1,
      fun lease hactive => (hlease lease hactive).2.1,
      fun lease hactive => (hlease lease hactive).2.2⟩
  · intro hconsistent
    exact ⟨hconsistent.schema, hconsistent.leasePresence,
      fun lease hactive => ⟨hconsistent.leaseValid lease hactive,
        hconsistent.leaseAttempt lease hactive,
        hconsistent.leaseToken lease hactive⟩⟩

theorem new_consistent (attemptId : AttemptId) (jobId : JobId) (attemptNumber : AttemptNumber) :
    (new attemptId jobId attemptNumber).Consistent := by
  constructor <;> simp [new, JobLifecycle.needsLease]

variable {call : AttemptCall} {reply : Except AttemptStateError AttemptReply}

theorem Consistent.outcome (hconsistent : self.Consistent)
    (houtcome : CallOutcome self call reply next) :
    next.Consistent := by
  cases houtcome with
  | failed => exact hconsistent
  | acquired lease hqueued htoken hattempt hlease =>
    refine ⟨hconsistent.schema, rfl, ?_, ?_, ?_⟩ <;> (intro active hactive; cases hactive)
    · exact hlease
    · exact hattempt
    · rfl
  | transitioned active target hactive hedge =>
    have hpresence := JobLifecycle.needsLease_of_hasEdge hedge
    by_cases hrevokes : target = .queued ∨ target.isTerminal = true
    · refine ⟨hconsistent.schema, ?_, ?_, ?_, ?_⟩ <;> simp_all
    · refine ⟨hconsistent.schema, ?_, ?_, ?_, ?_⟩ <;> simp only [hrevokes, if_false]
      · simpa using hpresence.mpr hrevokes
      · exact fun lease hlease => hconsistent.leaseValid lease (hactive.trans hlease)
      · exact fun lease hlease => hconsistent.leaseAttempt lease (hactive.trans hlease)
      · exact fun lease hlease => hconsistent.leaseToken lease (hactive.trans hlease)
  | renewed active expiresAt hactive hextends =>
    have hvalid := Lease.validate_eq_ok.mp (hconsistent.leaseValid active hactive)
    refine ⟨hconsistent.schema, ?_, ?_, ?_, ?_⟩
    · simpa [hactive] using hconsistent.leasePresence
    · intro lease hlease
      cases hlease
      exact Lease.validate_eq_ok.mpr ⟨hvalid.1, hvalid.2.trans hextends⟩
    · intro lease hlease
      cases hlease
      exact hconsistent.leaseAttempt active hactive
    · intro lease hlease
      cases hlease
      exact hconsistent.leaseToken active hactive

theorem Consistent.perform (hconsistent : self.Consistent) (call : AttemptCall) :
    (self.perform call).2.Consistent :=
  hconsistent.outcome (self.perform_outcome call)

theorem Consistent.runCalls (hconsistent : self.Consistent) (calls : List AttemptCall) :
    (self.runCalls calls).Consistent := by
  induction calls generalizing self with
  | nil => exact hconsistent
  | cons call rest ih => exact ih (hconsistent.perform call)

theorem runCalls_append (self : JobAttemptState) (earlier later : List AttemptCall) :
    self.runCalls (earlier ++ later) = (self.runCalls earlier).runCalls later := by
  simp [runCalls]

def highWater (self : JobAttemptState) : Nat :=
  self.currentFencingToken.elim 0 FencingToken.get

theorem get_of_nextFencingToken {current : Option FencingToken}
    {token : FencingToken} (hnext : nextFencingToken current = .ok token) :
    token.get = current.elim 0 FencingToken.get + 1 := by
  cases current with
  | none => exact FencingToken.get_of_new_eq_ok hnext
  | some => exact FencingToken.get_of_checkedNext_eq_ok hnext

variable {active lease before : Lease} {guard : LeaseGuard} {calls : List AttemptCall}

theorem Consistent.highWater_eq (hconsistent : self.Consistent)
    (hactive : self.activeLease = some active) : self.highWater = active.fencingToken.get := by
  simp [highWater, hconsistent.leaseToken active hactive]

theorem CallOutcome.issued (houtcome : CallOutcome self call reply next) :
    (issuedBy reply).map (fun lease => lease.fencingToken.get) =
        List.range' (self.highWater + 1) (issuedBy reply).length ∧
      next.highWater = self.highWater + (issuedBy reply).length := by
  cases houtcome with
  | failed => simp [issuedBy]
  | acquired lease hqueued htoken =>
    have hget := get_of_nextFencingToken htoken
    simp [issuedBy, highWater, hget]
  | transitioned => simp [issuedBy, highWater]
  | renewed => simp [issuedBy, highWater]

theorem issuedLeases_tokens (self : JobAttemptState) (calls : List AttemptCall) :
    (self.issuedLeases calls).map (fun lease => lease.fencingToken.get) =
        List.range' (self.highWater + 1) (self.issuedLeases calls).length ∧
      (self.runCalls calls).highWater = self.highWater + (self.issuedLeases calls).length := by
  induction calls generalizing self with
  | nil => simp [issuedLeases, runCalls]
  | cons call rest ih =>
    obtain ⟨htokens, hwater⟩ := (self.perform_outcome call).issued
    obtain ⟨hrest, hlast⟩ := ih (self.perform call).2
    constructor
    · rw [issuedLeases, List.map_append, htokens, hrest, hwater,
        List.length_append, ← List.range'_append]
      congr 2
      omega
    · have hrun : self.runCalls (call :: rest) = (self.perform call).2.runCalls rest := rfl
      rw [hrun, hlast, hwater, issuedLeases, List.length_append]
      omega

/-- A token which no present or future lease of the attempt holds. -/
def Outdated (self : JobAttemptState) (token : Nat) : Prop :=
  token < self.highWater ∨ token ≤ self.highWater ∧ self.activeLease = none

theorem Outdated.outcome {token : Nat} (houtdated : self.Outdated token)
    (houtcome : CallOutcome self call reply next) :
    next.Outdated token := by
  have hwater := houtcome.issued.2
  rcases houtdated with hbelow | ⟨hle, hnone⟩
  · exact Or.inl (by omega)
  · cases houtcome with
    | failed => exact Or.inr ⟨hle, hnone⟩
    | acquired =>
      simp only [issuedBy, List.length_singleton] at hwater
      exact Or.inl (by omega)
    | transitioned => simp_all
    | renewed => simp_all

theorem Outdated.runCalls {token : Nat}
    (houtdated : self.Outdated token) (calls : List AttemptCall) :
    (self.runCalls calls).Outdated token := by
  induction calls generalizing self with
  | nil => exact houtdated
  | cons call rest ih => exact ih (houtdated.outcome (self.perform_outcome call))

theorem Outdated.verifyFence_error (hconsistent : self.Consistent)
    (houtdated : self.Outdated guard.fencingToken.get) :
    ∃ error, self.verifyFence guard = .error error := by
  cases hverify : self.verifyFence guard with
  | error error => exact ⟨error, rfl⟩
  | ok =>
    obtain ⟨active, hactive, rfl⟩ := verifyFence_eq_ok.mp hverify
    have hwater := hconsistent.highWater_eq hactive
    rcases houtdated with hbelow | ⟨_, hnone⟩
    · simp only [Lease.guard] at hbelow
      omega
    · simp_all

/-- The state does not accept the credential: both fenced calls fail at the fence and change
nothing. -/
def Refuses (state : JobAttemptState) (guard : LeaseGuard) : Prop :=
  ∃ error, state.verifyFence guard = .error error ∧
    (∀ next, state.perform (.applyTransition guard next) = (.error (.fence error), state)) ∧
    ∀ expiresAt, state.perform (.renewLease guard expiresAt) = (.error (.fence error), state)

theorem Outdated.refuses (houtdated : self.Outdated guard.fencingToken.get)
    (hconsistent : self.Consistent) : self.Refuses guard := by
  obtain ⟨error, hverify⟩ := houtdated.verifyFence_error hconsistent
  refine ⟨error, hverify, ?_, ?_⟩ <;> intro argument <;>
    simp [perform, applyTransition, renewLease, hverify, Except.mapError]

theorem CallOutcome.transition {target : JobLifecycle} (hconsistent : self.Consistent)
    (houtcome : CallOutcome self (.applyTransition guard target) (.ok .transitionApplied) next) :
    next.lifecycle = target ∧
      next.activeLease = (if target = .queued ∨ target.isTerminal = true then none
        else self.activeLease) ∧
      guard.fencingToken.get ≤ next.highWater := by
  cases houtcome with
  | transitioned active _ hactive =>
    rw [hactive]
    exact ⟨rfl, rfl, (hconsistent.highWater_eq hactive).ge⟩

theorem outdated_of_mem_issuedLeases_dropLast
    (hlease : lease ∈ (self.issuedLeases calls).dropLast) :
    (self.runCalls calls).Outdated lease.fencingToken.get := by
  obtain ⟨htokens, hwater⟩ := self.issuedLeases_tokens calls
  have hmem : lease.fencingToken.get ∈ (List.range' (self.highWater + 1)
        (self.issuedLeases calls).length).dropLast := by
    rw [← htokens, ← List.map_dropLast]
    exact List.mem_map_of_mem hlease
  have hpositive : 0 < (self.issuedLeases calls).length := by
    cases hissued : self.issuedLeases calls with
    | nil => simp [hissued] at hlease
    | cons => simp
  obtain ⟨count, hcount⟩ := Nat.exists_eq_succ_of_ne_zero hpositive.ne'
  rw [hcount, List.range'_concat, List.dropLast_concat, List.mem_range'_1] at hmem
  exact Or.inl (by omega)

theorem outdated_of_mem_issuedLeases (hlease : lease ∈ self.issuedLeases calls)
    (hrevoked : (self.runCalls calls).activeLease = none) :
    (self.runCalls calls).Outdated lease.fencingToken.get := by
  obtain ⟨htokens, hwater⟩ := self.issuedLeases_tokens calls
  have hmem : lease.fencingToken.get ∈
      List.range' (self.highWater + 1) (self.issuedLeases calls).length := by
    rw [← htokens]
    exact List.mem_map_of_mem hlease
  rw [List.mem_range'_1] at hmem
  exact Or.inr ⟨by omega, hrevoked⟩

/-- Whenever the lease with the token of `before` is active, it is `before`
with an expiry which is no earlier. -/
structure Extends (before : Lease) (state : JobAttemptState) : Prop where
  issued : before.fencingToken.get ≤ state.highWater
  extended :
    ∀ after, state.activeLease = some after → after.fencingToken = before.fencingToken →
        after = { before with expiresAt := after.expiresAt } ∧
          before.expiresAt.get ≤ after.expiresAt.get

theorem Extends.outcome (hextends : Extends before self)
    (houtcome : CallOutcome self call reply next) : Extends before next := by
  have hissued : before.fencingToken.get ≤ next.highWater := by
    rw [houtcome.issued.2]
    exact hextends.issued.trans (Nat.le_add_right _ _)
  refine ⟨hissued, ?_⟩
  cases houtcome with
  | failed => exact hextends.extended
  | acquired lease hqueued htoken =>
    intro after hafter hsame
    cases hafter
    have hget := get_of_nextFencingToken htoken
    have hbound := hextends.issued
    simp only [highWater] at hbound
    rw [hsame] at hget
    omega
  | transitioned active target hactive =>
    intro after hafter hsame
    split at hafter
    · contradiction
    · exact hextends.extended after (hactive.trans hafter) hsame
  | renewed active expiresAt hactive =>
    intro after hafter hsame
    cases hafter
    obtain ⟨hsameLease, hle⟩ := hextends.extended active hactive hsame
    exact ⟨by rw [hsameLease], by simp only; omega⟩

theorem Extends.runCalls (hextends : Extends before self) (calls : List AttemptCall) :
    Extends before (self.runCalls calls) := by
  induction calls generalizing self with
  | nil => exact hextends
  | cons call rest ih => exact ih (hextends.outcome (self.perform_outcome call))

theorem Consistent.extends_active (hconsistent : self.Consistent)
    (hactive : self.activeLease = some active) : Extends active self := by
  refine ⟨(hconsistent.highWater_eq hactive).ge, ?_⟩
  intro after hafter _
  rw [hactive, Option.some_inj] at hafter
  subst hafter
  exact ⟨rfl, le_rfl⟩

theorem perform_error_unchanged {error : AttemptStateError}
    (herror : (self.perform call).1 = .error error) :
    (self.perform call).2 = self := by
  have houtcome := self.perform_outcome call
  rw [herror] at houtcome
  generalize (self.perform call).2 = next at houtcome
  cases houtcome
  rfl

theorem Consistent.perform_of_isTerminal (hconsistent : self.Consistent)
    (hterminal : self.lifecycle.isTerminal = true) (call : AttemptCall) :
    (self.perform call).2 = self := by
  have hnone : self.activeLease = none := by
    have hpresence := hconsistent.leasePresence
    rw [JobLifecycle.not_needsLease_of_isTerminal hterminal] at hpresence
    simpa using hpresence.symm
  have houtcome := self.perform_outcome call
  generalize (self.perform call).1 = reply at houtcome
  generalize (self.perform call).2 = next at houtcome
  cases houtcome with
  | failed => rfl
  | acquired lease hqueued => simp [hqueued, JobLifecycle.isTerminal] at hterminal
  | transitioned active target hactive => simp [hnone] at hactive
  | renewed active expiresAt hactive => simp [hnone] at hactive

/-- The guarantees of the fencing protocol over every history of calls on one
attempt. -/
structure FencingGuarantee (initial : JobAttemptState) : Prop where
  valid : ∀ calls, (initial.runCalls calls).validate = .ok ()
  consecutive :
    ∀ calls, (initial.issuedLeases calls).map (fun lease => lease.fencingToken.get) =
        List.range' 1 (initial.issuedLeases calls).length
  outdatedRejected :
    ∀ earlier later lease, (lease ∈ (initial.issuedLeases earlier).dropLast ∨
        lease ∈ initial.issuedLeases earlier ∧ (initial.runCalls earlier).activeLease = none) →
      (initial.runCalls (earlier ++ later)).Refuses lease.guard
  transitions :
    ∀ calls guard next,
      ((initial.runCalls calls).perform (.applyTransition guard next)).1 = .ok .transitionApplied →
      (initial.runCalls (calls ++ [.applyTransition guard next])).lifecycle = next ∧
        (initial.runCalls (calls ++ [.applyTransition guard next])).activeLease =
          if next = .queued ∨ next.isTerminal = true then none
          else (initial.runCalls calls).activeLease
  revokedRejected :
    ∀ earlier later guard next,
      ((initial.runCalls earlier).perform (.applyTransition guard next)).1 =
        .ok .transitionApplied →
      next = .queued ∨ next.isTerminal = true →
      (initial.runCalls (earlier ++ .applyTransition guard next :: later)).Refuses guard
  expiryIncreases :
    ∀ earlier later before after, (initial.runCalls earlier).activeLease = some before →
      (initial.runCalls (earlier ++ later)).activeLease = some after →
      after.fencingToken = before.fencingToken →
        after = { before with expiresAt := after.expiresAt } ∧
          before.expiresAt.get ≤ after.expiresAt.get
  terminalUnchanged :
    ∀ calls call, (initial.runCalls calls).lifecycle.isTerminal = true →
        ((initial.runCalls calls).perform call).2 = initial.runCalls calls
  errorUnchanged :
    ∀ calls call error, ((initial.runCalls calls).perform call).1 = .error error →
        ((initial.runCalls calls).perform call).2 = initial.runCalls calls

theorem new_fencingGuarantee (attemptId : AttemptId) (jobId : JobId)
    (attemptNumber : AttemptNumber) :
    FencingGuarantee (new attemptId jobId attemptNumber) := by
  have hnew := new_consistent attemptId jobId attemptNumber
  constructor
  · intro calls
    exact validate_eq_ok.mpr (hnew.runCalls calls)
  · intro calls
    exact (issuedLeases_tokens _ calls).1
  · intro earlier later lease houtdated
    have hstart : (runCalls (.new attemptId jobId attemptNumber) earlier).Outdated
          lease.guard.fencingToken.get := by
      rcases houtdated with hearlier | ⟨hissued, hrevoked⟩
      · exact outdated_of_mem_issuedLeases_dropLast hearlier
      · exact outdated_of_mem_issuedLeases hissued hrevoked
    have hlater := hstart.runCalls later
    rw [← runCalls_append] at hlater
    exact hlater.refuses (hnew.runCalls (earlier ++ later))
  · intro calls guard next happlied
    have houtcome := perform_outcome (runCalls (.new attemptId jobId attemptNumber) calls)
      (.applyTransition guard next)
    rw [happlied] at houtcome
    obtain ⟨hlifecycle, hactive, -⟩ := houtcome.transition (hnew.runCalls calls)
    rw [runCalls_append]
    exact ⟨hlifecycle, hactive⟩
  · intro earlier later guard next happlied hrevokes
    have houtcome := perform_outcome (runCalls (.new attemptId jobId attemptNumber) earlier)
      (.applyTransition guard next)
    rw [happlied] at houtcome
    obtain ⟨-, hactive, hissued⟩ := houtcome.transition (hnew.runCalls earlier)
    rw [if_pos hrevokes] at hactive
    have hlater := Outdated.runCalls (.inr ⟨hissued, hactive⟩) later
    refine Outdated.refuses ?_ (hnew.runCalls _)
    rw [runCalls_append]
    exact hlater
  · intro earlier later before after hbefore hafter hsame
    have hextends := ((hnew.runCalls earlier).extends_active hbefore).runCalls later
    rw [← runCalls_append] at hextends
    exact hextends.extended after hafter hsame
  · intro calls call hterminal
    exact (hnew.runCalls calls).perform_of_isTerminal hterminal call
  · intro calls call error herror
    exact perform_error_unchanged herror

end JobAttemptState

end AutomataCi
