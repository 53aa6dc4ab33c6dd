import AutomataCi.GuardedResult

/-!
# Fallible mutations which keep their partial effects

A method which takes its receiver by mutable reference and returns a result
may leave a partial change behind when it stops with an error.  The monad
below keeps the state on both outcomes, so that "an error changes nothing" is
something to prove of a method and not something its type says.
-/

namespace FallibleState

open GuardedResult

universe u

variable {σ ε α β : Type u}

/-- A computation over a state `σ` which keeps the state when it fails. -/
abbrev FallibleM (σ ε : Type u) : Type u → Type u :=
  ExceptT ε (StateM σ)

def exec (action : FallibleM σ ε α) (state : σ) : Except ε α × σ :=
  action.run.run state

def check (result : Except ε α) : FallibleM σ ε α :=
  ExceptT.mk (pure result)

def andThen (next : α → FallibleM σ ε β) : Except ε α × σ → Except ε β × σ
  | (.ok value, state) => exec (next value) state
  | (.error error, state) => (.error error, state)

/-- Run a computation on a copy of the state, which is dropped when the
computation fails. -/
def onCandidate (action : FallibleM σ ε α) (state : σ) : Except ε (α × σ) :=
  match exec action state with
  | (.ok value, next) => .ok (value, next)
  | (.error error, _) => .error error

theorem onCandidate_eq_ok {action : FallibleM σ ε α} {state next : σ} {value : α} :
    onCandidate action state = .ok (value, next) ↔ exec action state = (.ok value, next) := by
  unfold onCandidate
  split
  · rename_i result after hexec
    simp [hexec]
  · rename_i error after hexec
    simp [hexec]

@[simp] theorem exec_bind (action : FallibleM σ ε α) (next : α → FallibleM σ ε β) (state : σ) :
    exec (action >>= next) state = andThen next (exec action state) := by
  simp only [exec, ExceptT.run_bind, StateT.run_bind, andThen]
  cases haction : StateT.run (ExceptT.run action) state with
  | mk result =>
    cases result <;> rfl

@[simp] theorem andThen_ok (next : α → FallibleM σ ε β) (value : α) (state : σ) :
    andThen next (.ok value, state) = exec (next value) state := rfl

@[simp] theorem andThen_error (next : α → FallibleM σ ε β) (error : ε) (state : σ) :
    andThen next (.error error, state) = (.error error, state) := rfl

@[simp] theorem exec_pure (value : α) (state : σ) :
    exec (pure value : FallibleM σ ε α) state = (.ok value, state) := rfl

@[simp] theorem exec_get (state : σ) :
    exec (get : FallibleM σ ε σ) state = (.ok state, state) := rfl

@[simp] theorem exec_modify (update : σ → σ) (state : σ) :
    exec (modify update : FallibleM σ ε PUnit) state = (.ok ⟨⟩, update state) := rfl

@[simp] theorem exec_check (result : Except ε α) (state : σ) :
    exec (check result : FallibleM σ ε α) state = (result, state) := rfl

def focus {τ : Type u} (view : σ → τ) (update : σ → τ → σ)
    (action : FallibleM τ ε α) : FallibleM σ ε α :=
  ExceptT.mk fun state =>
    ((exec action (view state)).1, update state (exec action (view state)).2)

@[simp] theorem exec_focus {τ : Type u} (view : σ → τ) (update : σ → τ → σ)
    (action : FallibleM τ ε α) (state : σ) :
    exec (focus view update action) state = ((exec action (view state)).1,
        update state (exec action (view state)).2) := rfl

/-- From a state which meets `pre` the computation returns with `post`, or
stops in a state which meets `stopped`. -/
def Triple (pre : σ → Prop) (action : FallibleM σ ε α)
    (post : α → σ → Prop) (stopped : σ → Prop) : Prop :=
  ∀ state, pre state →
    match exec action state with
    | (.ok value, next) => post value next
    | (.error _, next) => stopped next

section Triple

variable {pre : σ → Prop} {stopped : σ → Prop} {post : α → σ → Prop} {action : FallibleM σ ε α}

theorem triple_pure {value : α} (hpost : ∀ state, pre state → post value state) :
    Triple pre (pure value : FallibleM σ ε α) post stopped :=
  hpost

theorem triple_bind {next : α → FallibleM σ ε β} {middle : α → σ → Prop} {post : β → σ → Prop}
    (haction : Triple pre action middle stopped)
    (hnext : ∀ value, Triple (middle value) (next value) post stopped) :
    Triple pre (action >>= next) post stopped := by
  intro state hstate
  have hmiddle := haction state hstate
  rw [exec_bind]
  cases hexec : exec action state with
  | mk result after =>
    rw [hexec] at hmiddle
    cases result with
    | error => exact hmiddle
    | ok value => exact hnext value after hmiddle

theorem triple_get {post : σ → σ → Prop} (hpost : ∀ state, pre state → post state state) :
    Triple pre (get : FallibleM σ ε σ) post stopped :=
  hpost

theorem triple_modify {update : σ → σ} {post : PUnit → σ → Prop}
    (hpost : ∀ state, pre state → post ⟨⟩ (update state)) :
    Triple pre (modify update : FallibleM σ ε PUnit) post stopped :=
  hpost

theorem triple_modify_keeps {update : σ → σ} (hkeeps : ∀ state, pre state → pre (update state)) :
    Triple pre (modify update : FallibleM σ ε PUnit) (fun _ => pre) stopped :=
  hkeeps

theorem triple_check {result : Except ε α}
    (hpost : ∀ state value, pre state → result = .ok value → post value state)
    (hstopped : ∀ state, pre state → stopped state) : Triple pre (check result) post stopped := by
  intro state hstate
  rw [exec_check]
  cases result with
  | error => exact hstopped state hstate
  | ok value => exact hpost state value hstate rfl

theorem Triple.consequence {pre' : σ → Prop} {post' : α → σ → Prop} {stopped' : σ → Prop}
    (htriple : Triple pre action post stopped) (hpre : ∀ state, pre' state → pre state)
    (hpost : ∀ value state, post value state → post' value state)
    (hstopped : ∀ state, stopped state → stopped' state) : Triple pre' action post' stopped' := by
  intro state hstate
  have hrun := htriple state (hpre state hstate)
  cases hexec : exec action state with
  | mk result after =>
    rw [hexec] at hrun
    cases result with
    | error => exact hstopped after hrun
    | ok value => exact hpost value after hrun

theorem triple_focus {τ : Type u} {view : σ → τ} {update : σ → τ → σ} {action : FallibleM τ ε α}
    (haction : ∀ state, pre state → Triple (· = view state) action
        (fun value part => post value (update state part))
        (fun part => stopped (update state part))) :
    Triple pre (focus view update action) post stopped := by
  intro state hstate
  have hpart := haction state hstate (view state) rfl
  rw [exec_focus]
  cases hexec : exec action (view state) with
  | mk result =>
    rw [hexec] at hpart
    cases result with
    | error => exact hpart
    | ok => exact hpart

theorem triple_forM {γ : Type u} {values : List γ} {step : γ → FallibleM σ ε PUnit}
    (hstep : ∀ value ∈ values, Triple pre (step value) (fun _ => pre) stopped)
    : Triple pre (values.forM step) (fun _ => pre) stopped := by
  induction values with
  | nil => exact triple_pure fun _ hstate => hstate
  | cons value rest ih =>
    rw [List.forall_mem_cons] at hstep
    change Triple pre (step value >>= fun _ => rest.forM step) _ _
    exact triple_bind hstep.1 fun _ => ih hstep.2

end Triple

end FallibleState
