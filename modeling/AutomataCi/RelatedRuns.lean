import AutomataCi.FallibleState

/-!
# Related runs of fallible mutations

Two computations, each over a state of its own, which have the same outcome
and leave related states behind, also when they stop with an error.
-/

namespace FallibleState

open GuardedResult

universe u

variable {σ τ ε α β : Type u}

/-- Two outcomes with the same result and related states. -/
def SameOutcome (post : α → σ → τ → Prop) (stopped : σ → τ → Prop) :
    Except ε α × σ → Except ε α × τ → Prop
  | (.ok first, left), (.ok second, right) => first = second ∧ post first left right
  | (.error first, left), (.error second, right) => first = second ∧ stopped left right
  | _, _ => False

def Related (pre : σ → τ → Prop) (left : FallibleM σ ε α)
    (right : FallibleM τ ε α) (post : α → σ → τ → Prop)
    (stopped : σ → τ → Prop) : Prop :=
  ∀ first second, pre first second → SameOutcome post stopped (exec left first) (exec right second)

theorem SameOutcome.imp {post post' : α → σ → τ → Prop}
    {stopped stopped' : σ → τ → Prop} {first : Except ε α × σ}
    {second : Except ε α × τ} (hsame : SameOutcome post stopped first second)
    (hpost : ∀ value left right, post value left right → post' value left right)
    (hstopped : ∀ left right, stopped left right → stopped' left right) :
    SameOutcome post' stopped' first second := by
  obtain ⟨result, left⟩ := first
  obtain ⟨result', right⟩ := second
  cases result with
  | error error =>
    cases result' with
    | error => exact ⟨hsame.1, hstopped left right hsame.2⟩
    | ok => exact hsame.elim
  | ok value =>
    cases result' with
    | error => exact hsame.elim
    | ok => exact ⟨hsame.1, hpost value left right hsame.2⟩

variable {pre : σ → τ → Prop} {stopped : σ → τ → Prop}
  {post : α → σ → τ → Prop}

theorem related_pure {value : α}
    (hpost : ∀ first second, pre first second → post value first second) :
    Related pre (pure value : FallibleM σ ε α) (pure value) post stopped :=
  fun first second hpre => ⟨rfl, hpost first second hpre⟩

theorem related_bind {left : FallibleM σ ε α} {right : FallibleM τ ε α}
    {next : α → FallibleM σ ε β} {next' : α → FallibleM τ ε β}
    {middle : α → σ → τ → Prop} {post : β → σ → τ → Prop}
    (hfirst : Related pre left right middle stopped)
    (hnext : ∀ value, Related (middle value) (next value) (next' value) post stopped) :
    Related pre (left >>= next) (right >>= next') post stopped := by
  intro first second hpre
  have hmiddle := hfirst first second hpre
  rw [exec_bind, exec_bind]
  cases hleft : exec left first with
  | mk result after =>
    cases hright : exec right second with
    | mk result' after' =>
      rw [hleft, hright] at hmiddle
      cases result with
      | error error =>
        cases result' with
        | error => exact hmiddle
        | ok => exact hmiddle.elim
      | ok value =>
        cases result' with
        | error => exact hmiddle.elim
        | ok =>
          obtain ⟨rfl, hstates⟩ := hmiddle
          exact hnext value after after' hstates

theorem related_get {next : σ → FallibleM σ ε α} {next' : τ → FallibleM τ ε α}
    (hnext : ∀ first second, pre first second → SameOutcome post stopped (exec (next first) first)
        (exec (next' second) second)) :
    Related pre (get >>= next) (get >>= next') post stopped := by
  intro first second hpre
  rw [exec_bind, exec_bind]
  exact hnext first second hpre

theorem related_modify {update : σ → σ} {update' : τ → τ} {post : PUnit → σ → τ → Prop}
    (hpost : ∀ first second, pre first second → post ⟨⟩ (update first) (update' second)) :
    Related pre (modify update : FallibleM σ ε PUnit) (modify update') post stopped :=
  fun first second hpre => ⟨rfl, hpost first second hpre⟩

theorem related_check {result : Except ε α}
    (hpost : ∀ value first second, pre first second → post value first second)
    (hstopped : ∀ first second, pre first second → stopped first second) :
    Related pre (check result) (check result) post stopped := by
  intro first second hpre
  rw [exec_check, exec_check]
  cases result with
  | error => exact ⟨rfl, hstopped first second hpre⟩
  | ok value => exact ⟨rfl, hpost value first second hpre⟩

theorem related_focus {ρ : Type u} {view : σ → ρ} {update : σ → ρ → σ}
    {view' : τ → ρ} {update' : τ → ρ → τ} {action : FallibleM ρ ε α}
    (hview : ∀ first second, pre first second → view first = view' second)
    (hpost : ∀ value part first second, pre first second →
      post value (update first part) (update' second part))
    (hstopped : ∀ part first second, pre first second →
      stopped (update first part) (update' second part)) :
    Related pre (focus view update action) (focus view' update' action) post stopped := by
  intro first second hpre
  rw [exec_focus, exec_focus, ← hview first second hpre]
  cases exec action (view first) with
  | mk result part =>
    cases result with
    | error => exact ⟨rfl, hstopped part first second hpre⟩
    | ok value => exact ⟨rfl, hpost value part first second hpre⟩

theorem related_forM {γ : Type u} {values : List γ}
    {step : γ → FallibleM σ ε PUnit} {step' : γ → FallibleM τ ε PUnit}
    (hstep : ∀ value, Related pre (step value) (step' value) (fun _ => pre) stopped) :
    Related pre (values.forM step) (values.forM step') (fun _ => pre) stopped := by
  induction values with
  | nil => exact related_pure fun _ _ hpre => hpre
  | cons value rest ih =>
    change Related pre (step value >>= fun _ => rest.forM step)
      (step' value >>= fun _ => rest.forM step') _ _
    exact related_bind (hstep value) fun _ => ih

end FallibleState
