import AutomataCi.ReplayCache
import Mathlib.Logic.Relation

/-!
# Concurrent guest requests

The calls of one replay cache in any interleaving.  A call which executes
holds the entry of its operation among the operations in flight, and a call
which waits is signalled when the call it waits for ends, whether it commits
a response or is dropped.
-/

namespace AutomataCi

open KeyedList

variable {Id Fingerprint Response : Type*}

/-- Where a call stands.  A call which committed its response, or dropped its
reservation, still has to send the signal. -/
inductive CallPhase (Response : Type*) where
  | deciding
  | waiting (owner : Nat)
  | executing
  | committing (response : Response)
  | dropping
  | returned (response : Response)
  | dropped

def CallPhase.holdsSender {Response : Type*} : CallPhase Response → Prop
  | .executing | .committing _ | .dropping => True
  | _ => False

structure ReplayCall (Id Fingerprint Response : Type*) where
  operationId : Id
  fingerprint : Fingerprint
  phase : CallPhase Response

/-- The cache, the calls by their numbers, and which calls sent the signal. -/
structure ReplayState (Id Fingerprint Response : Type*) where
  cache : ReplayCache Id Fingerprint Response
  calls : Nat → Option (ReplayCall Id Fingerprint Response)
  signalled : Nat → Bool

namespace ReplayState

def initial : ReplayState Id Fingerprint Response :=
  ⟨.empty, fun _ => none, fun _ => false⟩

def withPhase (self : ReplayState Id Fingerprint Response) (caller : Nat)
    (call : ReplayCall Id Fingerprint Response) (phase : CallPhase Response) :
    ReplayState Id Fingerprint Response :=
  { self with
    calls := Function.update self.calls caller (some { call with phase }) }

def signal (self : ReplayState Id Fingerprint Response) (caller : Nat) :
    ReplayState Id Fingerprint Response :=
  { self with signalled := Function.update self.signalled caller true }

variable (responses : GuestResponses Response) [DecidableEq Id]

def decide [DecidableEq Fingerprint] (self : ReplayState Id Fingerprint Response) (caller : Nat)
    (call : ReplayCall Id Fingerprint Response) :
    ReplayState Id Fingerprint Response :=
  match self.cache.replayDecision responses caller call.operationId call.fingerprint with
  | .answer response => self.withPhase caller call (.returned response)
  | .wait owner => self.withPhase caller call (.waiting owner)
  | .execute cache => { self with cache }.withPhase caller call .executing

def commit (self : ReplayState Id Fingerprint Response) (caller : Nat)
    (call : ReplayCall Id Fingerprint Response) (response : Response) :
    ReplayState Id Fingerprint Response :=
  { self with
    cache := self.cache.commit responses call.operationId call.fingerprint
      response }.withPhase caller call (.committing response)

def abandon (self : ReplayState Id Fingerprint Response) (caller : Nat)
    (call : ReplayCall Id Fingerprint Response) :
    ReplayState Id Fingerprint Response :=
  { self with cache := self.cache.release call.operationId }.withPhase caller call .dropping

end ReplayState

open ReplayState in
/-- One step of one call.  A response is whatever the execution returns, and
a call is dropped where it waits or executes. -/
inductive ReplayStep [DecidableEq Id] [DecidableEq Fingerprint]
    (responses : GuestResponses Response) :
    ReplayState Id Fingerprint Response → ReplayState Id Fingerprint Response → Prop
  | arrive {state} (caller : Nat) (operationId : Id)
      (fingerprint : Fingerprint) (hnew : state.calls caller = none) :
      ReplayStep responses state (state.withPhase caller
        ⟨operationId, fingerprint, .deciding⟩ .deciding)
  | decide {state} (caller : Nat) {call}
      (hcall : state.calls caller = some call)
      (hphase : call.phase = .deciding) :
      ReplayStep responses state (state.decide responses caller call)
  | wake {state} (caller : Nat) {call} {owner : Nat}
      (hcall : state.calls caller = some call)
      (hphase : call.phase = .waiting owner)
      (hsignalled : state.signalled owner = true) :
      ReplayStep responses state (state.withPhase caller call .deciding)
  | commit {state} (caller : Nat) {call} (response : Response)
      (hcall : state.calls caller = some call)
      (hphase : call.phase = .executing) :
      ReplayStep responses state (state.commit responses caller call response)
  | abandon {state} (caller : Nat) {call}
      (hcall : state.calls caller = some call)
      (hphase : call.phase = .executing) :
      ReplayStep responses state (state.abandon caller call)
  | announce {state} (caller : Nat) {call} {response : Response}
      (hcall : state.calls caller = some call)
      (hphase : call.phase = .committing response) :
      ReplayStep responses state
        ((state.signal caller).withPhase caller call (.returned response))
  | announceDrop {state} (caller : Nat) {call}
      (hcall : state.calls caller = some call)
      (hphase : call.phase = .dropping) :
      ReplayStep responses state
        ((state.signal caller).withPhase caller call .dropped)
  | disconnect {state} (caller : Nat) {call}
      (hcall : state.calls caller = some call)
      (hphase : call.phase = .deciding ∨ ∃ owner, call.phase = .waiting owner) :
      ReplayStep responses state (state.withPhase caller call .dropped)

namespace ReplayState

/-- A call which waits was signalled, or waits for a call which will signal. -/
def Released (state : ReplayState Id Fingerprint Response) : Prop :=
  ∀ caller call owner, state.calls caller = some call →
    call.phase = .waiting owner → state.signalled owner = true ∨
      ∃ running, state.calls owner = some running ∧ running.phase.holdsSender

structure Sound (state : ReplayState Id Fingerprint Response) : Prop where
  accounted : state.cache.Accounted
  running : ∀ running ∈ state.cache.inFlight, state.calls running.owner =
      some ⟨running.operationId, running.fingerprint, .executing⟩
  inFlight : ∀ caller call, state.calls caller = some call → call.phase = .executing →
      ⟨call.operationId, call.fingerprint, caller⟩ ∈ state.cache.inFlight
  released : state.Released

variable {state next : ReplayState Id Fingerprint Response} {caller : Nat}
variable {call : ReplayCall Id Fingerprint Response}
variable {phase : CallPhase Response}

theorem sound_initial : (initial : ReplayState Id Fingerprint Response).Sound :=
  ⟨ReplayCache.accounted_empty, by simp [initial, ReplayCache.empty],
    by simp [initial], by simp [Released, initial]⟩

variable {other : Nat} {operationId : Id} {response : Response}
  {entry : ReplayEntry Id Fingerprint Response}

theorem calls_withPhase :
    (state.withPhase caller call phase).calls other =
      if other = caller then some { call with phase }
      else state.calls other := by
  simp [withPhase, Function.update_apply]

theorem Released.withPhase (hreleased : state.Released) (hcalls : next.calls = state.calls)
    (hsignalled : ∀ other, state.signalled other = true →
      next.signalled other = true)
    (hwaits : ∀ owner, phase = .waiting owner → owner ≠ caller ∧
      ∃ running, state.calls owner = some running ∧ running.phase.holdsSender)
    (hholder : ∀ held, state.calls caller = some held → held.phase.holdsSender →
        phase.holdsSender ∨ next.signalled caller = true) :
    (next.withPhase caller call phase).Released := by
  intro waiter waiting owner hwaiter hphase
  rw [calls_withPhase] at hwaiter
  rw [calls_withPhase]
  by_cases hself : waiter = caller
  · rw [if_pos hself, Option.some.injEq] at hwaiter
    subst hwaiter
    obtain ⟨hother, running, hrunning, hholds⟩ := hwaits owner hphase
    rw [if_neg hother, hcalls]
    exact .inr ⟨running, hrunning, hholds⟩
  · rw [if_neg hself, hcalls] at hwaiter
    rcases hreleased waiter waiting owner hwaiter hphase with hsent | ⟨running, hrunning, hholds⟩
    · exact .inl (hsignalled owner hsent)
    · by_cases howner : owner = caller
      · rw [if_pos howner]
        rw [howner] at hrunning ⊢
        rcases hholder running hrunning hholds with hnext | hsent
        · exact .inr ⟨_, rfl, hnext⟩
        · exact .inl hsent
      · rw [if_neg howner, hcalls]
        exact .inr ⟨running, hrunning, hholds⟩

theorem Sound.owner_ne (hsound : state.Sound)
    (hidle : ∀ held, state.calls caller = some held → held.phase ≠ .executing)
    {running : InFlightReplay Id Fingerprint}
    (hrunning : running ∈ state.cache.inFlight) : running.owner ≠ caller := by
  rintro rfl
  exact hidle _ (hsound.running running hrunning) rfl

theorem Sound.withPhase (hsound : state.Sound)
    (hcache : next.cache = state.cache) (hcalls : next.calls = state.calls)
    (hidle : ∀ held, state.calls caller = some held → held.phase ≠ .executing)
    (hphase : phase ≠ .executing)
    (hreleased : (next.withPhase caller call phase).Released) :
    (next.withPhase caller call phase).Sound := by
  refine ⟨?_, ?_, ?_, hreleased⟩
  · change next.cache.Accounted
    rw [hcache]
    exact hsound.accounted
  · change ∀ running ∈ next.cache.inFlight, _
    rw [hcache]
    intro running hrunning
    rw [calls_withPhase, if_neg (hsound.owner_ne hidle hrunning), hcalls]
    exact hsound.running running hrunning
  · intro other held hother hexecuting
    change _ ∈ next.cache.inFlight
    rw [hcache]
    rw [calls_withPhase] at hother
    by_cases hself : other = caller
    · rw [if_pos hself, Option.some.injEq] at hother
      exact absurd hexecuting (hother ▸ hphase)
    · rw [if_neg hself, hcalls] at hother
      exact hsound.inFlight other held hother hexecuting

theorem Sound.moveOn (hsound : state.Sound)
    (hcache : next.cache = state.cache) (hcalls : next.calls = state.calls)
    (hsignalled : ∀ other, state.signalled other = true →
      next.signalled other = true)
    (hheld : ∀ held, state.calls caller = some held → held.phase ≠ .executing ∧
        (held.phase.holdsSender → next.signalled caller = true))
    (hphase : phase ≠ .executing) (hwaits : ∀ owner, phase ≠ .waiting owner) :
    (next.withPhase caller call phase).Sound := by
  refine hsound.withPhase hcache hcalls (fun held hcall => (hheld held hcall).1) hphase ?_
  exact hsound.released.withPhase hcalls hsignalled
    (fun owner hwaiting => absurd hwaiting (hwaits owner))
    fun held hcall hholds => .inr ((hheld held hcall).2 hholds)

theorem forall_held {property : ReplayCall Id Fingerprint Response → Prop}
    (hcall : state.calls caller = some call) (hproperty : property call) :
    ∀ held, state.calls caller = some held → property held := by
  intro held hheld
  rw [hcall, Option.some.injEq] at hheld
  rwa [← hheld]

theorem Sound.fresh (hsound : state.Sound) (hcall : state.calls caller = some call)
    (hphase : call.phase = .executing) :
    ∀ entry ∈ state.cache.entries, entry.operationId ≠ call.operationId :=
  hsound.accounted.disjoint _ (hsound.inFlight caller call hcall hphase)

theorem signalled_signal (hsent : state.signalled other = true) :
    (state.signal caller).signalled other = true := by
  change Function.update state.signalled caller true other = true
  rw [Function.update_apply, hsent, ite_self]

theorem Sound.execute (hsound : state.Sound)
    (hidle : ∀ held, state.calls caller = some held → held.phase ≠ .executing)
    (hentry : ∀ entry ∈ state.cache.entries, entry.operationId ≠ call.operationId)
    (habsent : ∀ running ∈ state.cache.inFlight, running.operationId ≠ call.operationId) :
    ({ state with
        cache :=
          { state.cache with
            inFlight := ⟨call.operationId, call.fingerprint, caller⟩ ::
              state.cache.inFlight } }.withPhase caller call
      .executing).Sound := by
  refine ⟨?_, ?_, ?_, ?_⟩
  · refine { hsound.accounted with
        inFlight_distinct := ?_
        disjoint := ?_ }
    · refine List.nodup_cons.mpr ⟨?_, hsound.accounted.inFlight_distinct⟩
      intro hmem
      obtain ⟨running, hmem, hid⟩ := List.mem_map.mp hmem
      exact habsent running hmem hid
    · intro running hmem
      rcases List.mem_cons.mp hmem with rfl | hmem
      · exact hentry
      · exact hsound.accounted.disjoint running hmem
  · intro running hmem
    rw [calls_withPhase]
    rcases List.mem_cons.mp hmem with rfl | hmem
    · exact if_pos rfl
    · rw [if_neg (hsound.owner_ne hidle hmem)]
      exact hsound.running running hmem
  · intro other held hother hexecuting
    rw [calls_withPhase] at hother
    by_cases hself : other = caller
    · rw [if_pos hself, Option.some.injEq] at hother
      rw [← hother, hself]
      exact List.mem_cons_self
    · rw [if_neg hself] at hother
      exact List.mem_cons_of_mem _ (hsound.inFlight other held hother hexecuting)
  · exact hsound.released.withPhase rfl (fun _ => id) (by simp) fun _ _ _ => .inl trivial

variable [DecidableEq Id]

theorem Sound.exclusive (hsound : state.Sound) {held : ReplayCall Id Fingerprint Response}
    (hcall : state.calls caller = some call) (hother : state.calls other = some held)
    (hphase : call.phase = .executing) (hexecuting : held.phase = .executing)
    (hsame : call.operationId = held.operationId) : caller = other := by
  have hrow := hsound.inFlight caller call hcall hphase
  have hotherRow := hsound.inFlight other held hother hexecuting
  have hrows := eq_of_mem_of_key_eq hsound.accounted.inFlight_distinct hrow hotherRow hsame
  exact congrArg InFlightReplay.owner hrows

theorem Sound.endExecution (hsound : state.Sound) (hcall : state.calls caller = some call)
    (hexecuting : call.phase = .executing)
    (haccounted : next.cache.Accounted)
    (hinFlight : next.cache.inFlight =
      remove InFlightReplay.operationId call.operationId state.cache.inFlight)
    (hcalls : next.calls = state.calls)
    (hsignalled : next.signalled = state.signalled)
    (hholds : phase.holdsSender) (hphase : phase ≠ .executing)
    (hwaits : ∀ owner, phase ≠ .waiting owner) :
    (next.withPhase caller call phase).Sound := by
  refine ⟨haccounted, ?_, ?_, ?_⟩
  · change ∀ running ∈ next.cache.inFlight, _
    rw [hinFlight]
    intro running hrunning
    obtain ⟨hmem, hother⟩ := mem_remove.mp hrunning
    have howner : running.owner ≠ caller := by
      intro hsame
      have hheld := hsound.running running hmem
      rw [hsame, hcall, Option.some.injEq] at hheld
      exact hother (congrArg ReplayCall.operationId hheld).symm
    rw [calls_withPhase, if_neg howner, hcalls]
    exact hsound.running running hmem
  · intro other held hother hheld
    change _ ∈ next.cache.inFlight
    rw [hinFlight]
    rw [calls_withPhase] at hother
    by_cases hself : other = caller
    · rw [if_pos hself, Option.some.injEq] at hother
      exact absurd hheld (hother ▸ hphase)
    · rw [if_neg hself, hcalls] at hother
      refine mem_remove.mpr ⟨hsound.inFlight other held hother hheld, fun hsame => hself ?_⟩
      exact hsound.exclusive hother hcall hheld hexecuting hsame
  · refine hsound.released.withPhase hcalls (fun other hsent => ?_)
      (fun owner hwaiting => absurd hwaiting (hwaits owner))
      fun _ _ _ => .inl hholds
    rwa [hsignalled]

variable (responses : GuestResponses Response)

theorem inFlight_insert {cache : ReplayCache Id Fingerprint Response} {fingerprint : Fingerprint} :
    (cache.insert responses operationId fingerprint response).inFlight = cache.inFlight := by
  unfold ReplayCache.insert
  dsimp only
  split <;> rfl

theorem entries_commit (hsound : state.Sound) (hcall : state.calls caller = some call)
    (hphase : call.phase = .executing)
    (hfits : ReplayCache.responseBytes responses response ≤ maxReplayBytes) :
    ∃ kept, kept <:+ state.cache.entries ∧
      (state.commit responses caller call response).cache.entries =
        kept ++ [⟨call.operationId, call.fingerprint, response,
          ReplayCache.responseBytes responses response⟩] := by
  obtain ⟨kept, hsuffix, -, -, hinsert⟩ := ReplayCache.insert_spec responses
    (hsound.accounted.release call.operationId) (hsound.fresh hcall hphase) hfits
  exact ⟨kept, hsuffix, congrArg ReplayCache.entries hinsert⟩

variable [DecidableEq Fingerprint]

theorem Sound.decide (hsound : state.Sound) (hcall : state.calls caller = some call)
    (hphase : call.phase = .deciding) :
    (state.decide responses caller call).Sound := by
  have hheld : ∀ held, state.calls caller = some held → held.phase ≠ .executing ∧
        (held.phase.holdsSender → state.signalled caller = true) := by
    refine forall_held hcall ?_
    rw [hphase]
    exact ⟨by simp, False.elim⟩
  have hidle := fun held hcall => (hheld held hcall).1
  unfold ReplayState.decide ReplayCache.replayDecision
  cases hget : state.cache.get responses call.operationId call.fingerprint with
  | some => exact hsound.moveOn rfl rfl (fun _ => id) hheld (by simp) (by simp)
  | none =>
    rw [ReplayCache.get, Option.map_eq_none_iff] at hget
    cases hrunning : state.cache.inFlightOf call.operationId with
    | none =>
      exact hsound.execute hidle (lookup_eq_none_iff.mp hget) (lookup_eq_none_iff.mp hrunning)
    | some running =>
      have hmem := (lookup_mem hrunning).1
      by_cases hsame : running.fingerprint = call.fingerprint
      · simp only [if_pos hsame]
        refine hsound.withPhase rfl rfl hidle (by simp) ?_
        refine hsound.released.withPhase rfl (fun _ => id) ?_
          fun held hcall hholds => .inr ((hheld held hcall).2 hholds)
        intro owner howner
        rw [CallPhase.waiting.injEq] at howner
        rw [← howner]
        exact ⟨hsound.owner_ne hidle hmem, _, hsound.running running hmem, trivial⟩
      · simp only [if_neg hsame]
        exact hsound.moveOn rfl rfl (fun _ => id) hheld (by simp) (by simp)

theorem Sound.step (hsound : state.Sound)
    (hstep : ReplayStep responses state next) : next.Sound := by
  cases hstep with
  | arrive caller operationId fingerprint hnew =>
    refine hsound.moveOn rfl rfl (fun _ => id) ?_ (by simp) (by simp)
    simp [hnew]
  | decide caller hcall hphase => exact hsound.decide responses hcall hphase
  | wake caller hcall hphase =>
    refine hsound.moveOn rfl rfl (fun _ => id) (forall_held hcall ?_) (by simp) (by simp)
    rw [hphase]
    exact ⟨by simp, False.elim⟩
  | commit caller response hcall hphase =>
    exact hsound.endExecution hcall hphase
      (hsound.accounted.commit responses (hsound.fresh hcall hphase) _ _)
      (inFlight_insert responses) rfl rfl trivial (by simp) (by simp)
  | abandon caller hcall hphase =>
    exact hsound.endExecution hcall hphase (hsound.accounted.release _)
      rfl rfl rfl trivial (by simp) (by simp)
  | announce caller hcall hphase | announceDrop caller hcall hphase =>
    refine hsound.moveOn rfl rfl (fun _ => signalled_signal)
      (forall_held hcall ?_) (by simp) (by simp)
    rw [hphase]
    exact ⟨by simp, fun _ => Function.update_self _ _ _⟩
  | disconnect caller hcall hphase =>
    refine hsound.moveOn rfl rfl (fun _ => id) (forall_held hcall ?_) (by simp) (by simp)
    rcases hphase with hdeciding | ⟨owner, hwaiting⟩
    · rw [hdeciding]
      exact ⟨by simp, False.elim⟩
    · rw [hwaiting]
      exact ⟨by simp, False.elim⟩

theorem sound_of_reachable (hreach : Relation.ReflTransGen (ReplayStep responses) initial state) :
    state.Sound := by
  induction hreach with
  | refl => exact sound_initial
  | tail _ hstep ih => exact ih.step responses hstep

theorem calls_of_step (hstep : ReplayStep responses state next) :
    ∃ mover, (∀ other, other ≠ mover → next.calls other = state.calls other) ∧
      ∀ held, state.calls mover = some held → ∀ response, held.phase ≠ .returned response := by
  have hother {mover : Nat} {held : ReplayCall Id Fingerprint Response} {phase : CallPhase Response}
      {moved : ReplayState Id Fingerprint Response}
      (hmoved : moved.calls = state.calls) (other : Nat)
      (hne : other ≠ mover) :
      (moved.withPhase mover held phase).calls other = state.calls other := by
    rw [calls_withPhase, if_neg hne, hmoved]
  cases hstep with
  | arrive caller operationId fingerprint hnew => exact ⟨caller, hother rfl, by simp [hnew]⟩
  | decide caller hcall hphase =>
    refine ⟨caller, ?_, forall_held hcall (by simp [hphase])⟩
    unfold ReplayState.decide
    split <;> exact hother rfl
  | wake caller hcall hphase | commit caller _ hcall hphase | abandon caller hcall hphase
  | announce caller hcall hphase | announceDrop caller hcall hphase =>
    exact ⟨caller, hother rfl, forall_held hcall (by simp [hphase])⟩
  | disconnect caller hcall hphase =>
    refine ⟨caller, hother rfl, forall_held hcall ?_⟩
    rcases hphase with hdeciding | ⟨owner, hwaiting⟩
    · simp [hdeciding]
    · simp [hwaiting]

theorem returned_of_run (hrun : Relation.ReflTransGen (ReplayStep responses) state next)
    (hcall : state.calls caller = some { call with phase := .returned response }) :
    next.calls caller = some { call with phase := .returned response } := by
  induction hrun with
  | refl => exact hcall
  | tail _ hstep ih =>
    obtain ⟨mover, hothers, hmover⟩ := calls_of_step responses hstep
    rw [hothers caller, ih]
    rintro rfl
    exact hmover _ ih response rfl

theorem entries_of_step (hstep : ReplayStep responses state next) :
    next.cache.entries = state.cache.entries ∨
      ∃ caller call response, state.calls caller = some call ∧ call.phase = .executing ∧
        next = state.commit responses caller call response := by
  cases hstep with
  | commit caller response hcall hphase => exact .inr ⟨caller, _, response, hcall, hphase, rfl⟩
  | decide =>
    left
    unfold ReplayState.decide ReplayCache.replayDecision
    cases state.cache.get responses _ _ with
    | some => rfl
    | none =>
      cases state.cache.inFlightOf _ with
      | none => rfl
      | some =>
        dsimp only
        split_ifs <;> rfl
  | _ => exact .inl rfl

theorem entryOf_of_step (hsound : state.Sound) (hstep : ReplayStep responses state next)
    (hentry : state.cache.entryOf operationId = some entry)
    (hkept : next.cache.entryOf operationId ≠ none) :
    next.cache.entryOf operationId = some entry := by
  have hnext := hsound.step responses hstep
  obtain ⟨hmem, hid⟩ := lookup_mem hentry
  rcases entries_of_step responses hstep with hsame | ⟨caller, call, response, hcall, hphase, rfl⟩
  · rwa [ReplayCache.entryOf, hsame]
  obtain ⟨found, hfound⟩ := Option.ne_none_iff_exists'.mp hkept
  obtain ⟨hfoundMem, hfoundId⟩ := lookup_mem hfound
  have hfoundOld : found ∈ state.cache.entries := by
    by_cases hfits :
        ReplayCache.responseBytes responses response ≤ maxReplayBytes
    · obtain ⟨kept, hsuffix, hentries⟩ := entries_commit responses hsound hcall hphase hfits
      rw [hentries, List.mem_append, List.mem_singleton] at hfoundMem
      rcases hfoundMem with hold | hnew
      · exact hsuffix.subset hold
      · refine absurd ?_ (hsound.fresh hcall hphase entry hmem)
        rw [hid, ← hfoundId, hnew]
    · have hcommit : (state.commit responses caller call response).cache =
          state.cache.release call.operationId :=
        ReplayCache.insert_of_too_large responses (not_le.mp hfits)
      rwa [hcommit] at hfoundMem
  have hequal := eq_of_mem_of_key_eq hsound.accounted.distinct hfoundOld hmem
    (hfoundId.trans hid.symm)
  rw [hfound, hequal]

/-- Steps along which the entry of an operation stays in the cache. -/
def RetainingStep (operationId : Id) (before after : ReplayState Id Fingerprint Response) : Prop :=
  ReplayStep responses before after ∧ after.cache.entryOf operationId ≠ none

theorem entryOf_of_run (hsound : state.Sound)
    (hentry : state.cache.entryOf operationId = some entry)
    (hrun : Relation.ReflTransGen (RetainingStep responses operationId)
      state next) : next.Sound ∧ next.cache.entryOf operationId = some entry := by
  induction hrun with
  | refl => exact ⟨hsound, hentry⟩
  | tail _ hstep ih =>
    exact ⟨ih.1.step responses hstep.1, entryOf_of_step responses ih.1 hstep.1 ih.2 hstep.2⟩

structure Guarantee (state : ReplayState Id Fingerprint Response) : Prop where
  /-- Two executions of one operation do not overlap. -/
  exclusive : ∀ first second left right,
    state.calls first = some left → state.calls second = some right →
    left.phase = .executing → right.phase = .executing →
    left.operationId = right.operationId → first = second
  /-- A request with another fingerprint than the one in flight or cached is
  rejected for good. -/
  conflict : ∀ caller call, state.calls caller = some call → call.phase = .deciding →
    ((∃ running ∈ state.cache.inFlight, running.operationId = call.operationId ∧
          running.fingerprint ≠ call.fingerprint) ∨
      ∃ entry ∈ state.cache.entries, entry.operationId = call.operationId ∧
          entry.fingerprint ≠ call.fingerprint) →
    ∀ later, Relation.ReflTransGen (ReplayStep responses)
        (state.decide responses caller call) later →
      later.calls caller = some { call with phase := .returned responses.operationConflict }
  /-- A committed response is the answer until its entry is evicted. -/
  replayed : ∀ caller call response, state.calls caller = some call → call.phase = .executing →
    ReplayCache.responseBytes responses response ≤ maxReplayBytes →
    ∀ later, Relation.ReflTransGen (RetainingStep responses call.operationId)
        (state.commit responses caller call response) later →
      ∀ other, later.cache.replayDecision responses other call.operationId
        call.fingerprint = .answer response
  /-- A waiting call waits for a call which will signal, or can go on. -/
  released : ∀ caller call owner, state.calls caller = some call → call.phase = .waiting owner →
    (∃ running, state.calls owner = some running ∧ running.phase.holdsSender) ∨
      ReplayStep responses state (state.withPhase caller call .deciding)
  accounted : state.cache.Accounted

theorem decide_conflict (hsound : state.Sound)
    (hconflict : (∃ running ∈ state.cache.inFlight, running.operationId = call.operationId ∧
          running.fingerprint ≠ call.fingerprint) ∨
      ∃ entry ∈ state.cache.entries, entry.operationId = call.operationId ∧
          entry.fingerprint ≠ call.fingerprint) :
    state.decide responses caller call =
      state.withPhase caller call (.returned responses.operationConflict) := by
  unfold ReplayState.decide ReplayCache.replayDecision ReplayCache.get
  rcases hconflict with ⟨running, hmem, hid, hother⟩ | ⟨entry, hmem, hid, hother⟩
  · have habsent : state.cache.entryOf call.operationId = none := by
      refine lookup_eq_none_iff.mpr fun entry hentry => ?_
      rw [← hid]
      exact hsound.accounted.disjoint running hmem entry hentry
    have hrunning : state.cache.inFlightOf call.operationId = some running :=
      (lookup_eq_some_iff hsound.accounted.inFlight_distinct).mpr ⟨hmem, hid⟩
    simp only [habsent, hrunning, Option.map_none, if_neg hother]
  · have hentry : state.cache.entryOf call.operationId = some entry :=
      (lookup_eq_some_iff hsound.accounted.distinct).mpr ⟨hmem, hid⟩
    simp only [hentry, Option.map_some, if_neg hother]

/-- Every state which concurrent calls reach gives these guarantees. -/
theorem replay_guarantee (hreach : Relation.ReflTransGen (ReplayStep responses) initial state) :
    Guarantee responses state := by
  have hsound := sound_of_reachable responses hreach
  refine ⟨?_, ?_, ?_, ?_, hsound.accounted⟩
  · intro first second left right hleft hright hleftRuns hrightRuns hsame
    exact hsound.exclusive hleft hright hleftRuns hrightRuns hsame
  · intro caller call hcall hphase hconflict later hlater
    rw [decide_conflict responses hsound hconflict] at hlater
    refine returned_of_run responses hlater ?_
    rw [calls_withPhase, if_pos rfl]
  · intro caller call response hcall hphase hfits later hlater other
    have hstep : ReplayStep responses state _ := .commit caller response hcall hphase
    have hcommitted := hsound.step responses hstep
    obtain ⟨kept, -, hentries⟩ := entries_commit responses hsound hcall hphase hfits
    have hentry : (state.commit responses caller call response).cache.entryOf
        call.operationId = some ⟨call.operationId, call.fingerprint, response,
          ReplayCache.responseBytes responses response⟩ := by
      refine (lookup_eq_some_iff hcommitted.accounted.distinct).mpr ⟨?_, rfl⟩
      rw [hentries]
      exact List.mem_append_right _ (List.mem_singleton.mpr rfl)
    have hkept := (entryOf_of_run responses hcommitted hentry hlater).2
    simp only [ReplayCache.replayDecision, ReplayCache.get, hkept, Option.map_some, if_pos]
  · intro caller call owner hcall hphase
    rcases hsound.released caller call owner hcall hphase with hsent | hholds
    · exact .inr (.wake caller hcall hphase hsent)
    · exact .inl hholds

section Sample

open Relation

/-- The frame of a response has as many bytes as its number. -/
def numbered : GuestResponses Nat :=
  ⟨some, 0⟩

variable {sample : ReplayState Nat Nat Nat} {asking asked : Nat}

/-- A call arrives and learns what to do. -/
def ask (sample : ReplayState Nat Nat Nat) (asking asked fingerprint : Nat) :
    ReplayState Nat Nat Nat :=
  (sample.withPhase asking ⟨asked, fingerprint, .deciding⟩ .deciding).decide numbered asking
    ⟨asked, fingerprint, .deciding⟩

def answer (sample : ReplayState Nat Nat Nat) (asking asked response : Nat) :
    ReplayState Nat Nat Nat :=
  (sample.ask asking asked 1).commit numbered asking ⟨asked, 1, .executing⟩ response

theorem steps_ask (hnew : sample.calls asking = none) (fingerprint : Nat) :
    ReflTransGen (ReplayStep numbered) sample (sample.ask asking asked fingerprint) := by
  refine .tail (.single (.arrive asking asked fingerprint hnew)) (.decide asking ?_ rfl)
  rw [calls_withPhase, if_pos rfl]

theorem steps_answer (hnew : sample.calls asking = none) (response : Nat)
    (hexecutes : (sample.ask asking asked 1).calls asking = some ⟨asked, 1, .executing⟩) :
    ReflTransGen (ReplayStep numbered) sample (sample.answer asking asked response) :=
  (steps_ask hnew 1).tail (.commit asking response hexecutes rfl)

/-- One call executes, one waits for it, and one is about to conflict with it. -/
theorem replay_guarantee_executing :
    let state := ((initial.ask 0 7 1).ask 1 7 1).withPhase 2 ⟨7, 2, .deciding⟩ .deciding
    state.calls 0 = some ⟨7, 1, .executing⟩ ∧ state.calls 1 = some ⟨7, 1, .waiting 0⟩ ∧
      (state.decide numbered 2 ⟨7, 2, .deciding⟩).calls 2 = some ⟨7, 2, .returned 0⟩ ∧
      Guarantee numbered state := by
  intro state
  refine ⟨rfl, rfl, rfl, replay_guarantee numbered ?_⟩
  exact ((steps_ask rfl 1).trans (steps_ask rfl 1)).tail (.arrive 2 7 2 rfl)

end Sample

variable {older newer : List (ReplayEntry Id Fingerprint Response)}

theorem entries_of_retainingStep (hsound : state.Sound)
    (hstep : RetainingStep responses entry.operationId state next)
    (hentries : state.cache.entries = older ++ entry :: newer) :
    ∃ rest added, rest <:+ older ∧ next.cache.entries = rest ++ entry :: (newer ++ added) := by
  have hold : entry ∈ state.cache.entries := by simp [hentries]
  have hdistinct := hsound.accounted.distinct
  have hcached := (lookup_eq_some_iff hdistinct).mpr ⟨hold, rfl⟩
  have hmem := (lookup_mem (entryOf_of_step responses hsound hstep.1 hcached hstep.2)).1
  have hsame : ∃ rest added, rest <:+ older ∧
      state.cache.entries = rest ++ entry :: (newer ++ added) :=
    ⟨older, [], List.suffix_refl _, by rw [hentries, List.append_nil]⟩
  rcases entries_of_step responses hstep.1 with hnext | ⟨caller, call, response, hcall, hphase, rfl⟩
  · rwa [hnext]
  by_cases hfits : ReplayCache.responseBytes responses response ≤ maxReplayBytes
  · obtain ⟨kept, ⟨evicted, hevicted⟩, hcommit⟩ :=
      entries_commit responses hsound hcall hphase hfits
    rw [hcommit, List.mem_append, List.mem_singleton] at hmem
    have hkept := hmem.resolve_right fun hnew =>
      hsound.fresh hcall hphase entry hold (congrArg ReplayEntry.operationId hnew)
    obtain ⟨rest, behind, rfl⟩ := List.append_of_mem hkept
    -- The entry stands in one place of the cache only.
    rw [hentries] at hdistinct hevicted
    have hnotMem := List.nodup_middle.mp (List.Nodup.of_map _ hdistinct)
    rw [List.nodup_cons, List.mem_append, not_or] at hnotMem
    rw [← List.append_assoc, eq_comm,
      List.append_cons_inj_of_notMem hnotMem.1.1 hnotMem.1.2] at hevicted
    obtain ⟨rfl, -, rfl⟩ := hevicted
    exact ⟨rest, _, List.suffix_append _ _, by rw [hcommit, List.append_assoc]; rfl⟩
  · have hcommit : (state.commit responses caller call response).cache =
        state.cache.release call.operationId :=
      ReplayCache.insert_of_too_large responses (not_le.mp hfits)
    rwa [hcommit]

/-- While an answer is cached no later one is evicted: the oldest answers go first. -/
theorem replay_evicts_oldest (hreach : Relation.ReflTransGen (ReplayStep responses) initial state)
    (hentries : state.cache.entries = older ++ entry :: newer)
    (hrun : Relation.ReflTransGen (RetainingStep responses entry.operationId) state next) :
    ∃ rest added, rest <:+ older ∧ next.cache.entries = rest ++ entry :: (newer ++ added) := by
  have hsound := sound_of_reachable responses hreach
  induction hrun using Relation.ReflTransGen.head_induction_on generalizing older newer with
  | refl => exact ⟨older, [], List.suffix_refl _, by rw [hentries, List.append_nil]⟩
  | head hstep _ ih =>
    obtain ⟨rest, added, hrest, hnext⟩ := entries_of_retainingStep responses hsound hstep hentries
    obtain ⟨fewer, more, hfewer, hlater⟩ :=
      ih (hreach.tail hstep.1) hnext (hsound.step responses hstep.1)
    exact ⟨fewer, added ++ more, hfewer.trans hrest, by rw [hlater, List.append_assoc]⟩

/-- The fourth answer leaves room for two of the first three. -/
theorem replay_evicts_oldest_answered :
    let state := ((initial.answer 0 7 5).answer 1 8 6).answer 2 9 2
    let next := state.answer 3 10 (maxReplayBytes - 9)
    next.cache.entries =
        [⟨8, 1, 6, 6⟩, ⟨9, 1, 2, 2⟩, ⟨10, 1, maxReplayBytes - 9, maxReplayBytes - 9⟩] ∧
      ∃ rest added, rest <:+ [⟨7, 1, 5, 5⟩] ∧
        next.cache.entries = rest ++ ⟨8, 1, 6, 6⟩ :: ([⟨9, 1, 2, 2⟩] ++ added) := by
  intro state next
  have hrun : Relation.ReflTransGen (RetainingStep numbered 8) state next :=
    ((Relation.ReflTransGen.single ⟨.arrive 3 10 1 rfl, by decide +kernel⟩).tail
      ⟨.decide 3 rfl rfl, by decide +kernel⟩).tail
        ⟨.commit 3 (maxReplayBytes - 9) rfl rfl, by decide +kernel⟩
  refine ⟨by decide +kernel, replay_evicts_oldest numbered ?_ (by rfl) hrun⟩
  exact ((steps_answer rfl 5 rfl).trans (steps_answer rfl 6 rfl)).trans (steps_answer rfl 2 rfl)

end ReplayState

end AutomataCi
