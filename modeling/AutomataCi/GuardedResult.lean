import Mathlib.Tactic

/-!
# Guarded results

A fallible operation is a sequence of guards, each of which may stop it with
an error, followed by the value it returns.  This file gives the guards a
name and inverts them: a computation which returned a value passed every
guard on its way.  Nothing here depends on a particular program.
-/

namespace GuardedResult

universe u v

variable {ε : Type u} {α β : Type v}

def rejectIf (condition : Prop) [Decidable condition] (error : ε) : Except ε Unit :=
  if condition then .error error else .ok ()

def okOr (value : Option α) (error : ε) : Except ε α :=
  match value with
  | some result => .ok result
  | none => .error error

def ifPresent (value : Option α) (check : α → Except ε Unit) : Except ε Unit :=
  match value with
  | some result => check result
  | none => .ok ()

variable {error : ε} {check : α → Except ε Unit}

@[simp] theorem rejectIf_eq_ok {condition : Prop} [Decidable condition] {result : Unit} :
    rejectIf condition error = .ok result ↔ ¬condition := by
  unfold rejectIf
  split <;> simp_all

theorem rejectIf_of_not {condition : Prop} [Decidable condition] (error : ε)
    (hcondition : ¬condition) :
    rejectIf condition error = .ok () := by
  simp [hcondition]

variable {result : α}

@[simp] theorem okOr_eq_ok {value : Option α} :
    okOr value error = .ok result ↔ value = some result := by
  cases value <;> simp [okOr]

@[simp] theorem ifPresent_eq_ok {value : Option α} {result : Unit} :
    ifPresent value check = .ok result ↔ ∀ present ∈ value, check present = .ok () := by
  cases value <;> simp [ifPresent]

variable {value : Except ε α}

@[simp] theorem bind_eq_ok {next : α → Except ε β} {result : β} :
    (value >>= next) = .ok result ↔ ∃ input, value = .ok input ∧ next input = .ok result := by
  cases value <;> simp [bind, Except.bind]

@[simp] theorem map_eq_ok {next : α → β} {result : β} :
    (next <$> value) = .ok result ↔ ∃ input, value = .ok input ∧ next input = result := by
  cases value <;> simp [Functor.map, Except.map]

@[simp] theorem pure_eq_ok {value : α} :
    (pure value : Except ε α) = .ok result ↔ value = result := by
  simp [pure, Except.pure]

@[simp] theorem throw_ne_ok : (throw error : Except ε α) = .ok result ↔ False := by
  simp [throw, throwThe, MonadExceptOf.throw]

@[simp] theorem ok_bind (value : α) (next : α → Except ε β) :
    ((.ok value : Except ε α) >>= next) = next value := rfl

@[simp] theorem mapError_eq_ok {φ : Type u} {convert : ε → φ} :
    value.mapError convert = .ok result ↔ value = .ok result := by
  cases value <;> simp [Except.mapError]

@[simp] theorem exists_eq_ok_unit {value : Except ε Unit} :
    (∃ result, value = .ok result) ↔ value = .ok () :=
  ⟨fun ⟨_, hvalue⟩ => hvalue, fun hvalue => ⟨(), hvalue⟩⟩

/-- The outcomes of an operation which reports a change, given a change. -/
theorem of_changed {changed unchanged : Prop}
    (hcases : true = true ∧ changed ∨ true = false ∧ unchanged) :
    changed := by
  simpa using hcases

theorem exists_changed {computation : Except ε (Bool × α)} {result : α → β} {next : β} :
    (∃ changed value, computation = .ok (changed, value) ∧ changed = true ∧ result value = next) ↔
      ∃ value, computation = .ok (true, value) ∧ next = result value := by
  constructor
  · rintro ⟨changed, value, hvalue, rfl, rfl⟩
    exact ⟨value, hvalue, rfl⟩
  · rintro ⟨value, hvalue, rfl⟩
    exact ⟨true, value, hvalue, rfl, rfl⟩

/-- A call which reported a change reports none when it is repeated. -/
def SettlesAt (call : α → Except ε (Bool × α)) (state : α) : Prop :=
  ∀ ⦃next⦄, call state = .ok (true, next) → call next = .ok (false, next)

def Settles (call : α → Except ε (Bool × α)) : Prop :=
  ∀ ⦃state⦄, SettlesAt call state

variable {values : List α}

theorem forM_eq_ok {result : Unit} :
    values.forM check = .ok result ↔ ∀ value ∈ values, check value = .ok () := by
  induction values with
  | nil => simp [List.forM]
  | cons value rest ih =>
    change (check value >>= fun _ => rest.forM check) = _ ↔ _
    simp only [bind_eq_ok, ih, List.mem_cons, forall_eq_or_imp]
    constructor
    · rintro ⟨_, hvalue, hrest⟩
      exact ⟨hvalue, hrest⟩
    · rintro ⟨hvalue, hrest⟩
      exact ⟨(), hvalue, hrest⟩

variable {step : α → Except ε β} {results : List β}

theorem mapM_eq_ok :
    values.mapM step = .ok results ↔ List.Forall₂ (fun value result => step value = .ok result)
        values results := by
  induction values generalizing results with
  | nil => rw [List.mapM_nil, pure_eq_ok, List.forall₂_nil_left_iff, eq_comm]
  | cons value rest ih =>
    simp only [List.mapM_cons, bind_eq_ok, pure_eq_ok, ih, List.forall₂_cons_left_iff]
    constructor
    · rintro ⟨result, hvalue, remaining, hrest, rfl⟩
      exact ⟨result, remaining, hvalue, hrest, rfl⟩
    · rintro ⟨result, remaining, hvalue, hrest, rfl⟩
      exact ⟨result, hvalue, remaining, hrest, rfl⟩

theorem mem_of_mapM_eq_ok (hvalues : values.mapM step = .ok results) {result : β} :
    result ∈ results ↔ ∃ value ∈ values, step value = .ok result := by
  rw [mapM_eq_ok] at hvalues
  induction hvalues with
  | nil => simp
  | cons hvalue _ ih =>
    simp only [List.mem_cons, exists_eq_or_imp, hvalue, Except.ok.injEq, ih]
    rw [eq_comm]

theorem exists_mapM_eq_ok (hstep : ∀ value ∈ values, ∃ result, step value = .ok result) :
    ∃ results, values.mapM step = .ok results := by
  induction values with
  | nil => exact ⟨[], rfl⟩
  | cons value rest ih =>
    rw [List.forall_mem_cons] at hstep
    obtain ⟨result, hvalue⟩ := hstep.1
    obtain ⟨remaining, hrest⟩ := ih hstep.2
    refine ⟨result :: remaining, ?_⟩
    simp [List.mapM_cons, hvalue, hrest]

/-- A step which may fail, run over a list, relates its results to whatever
the list was related to. -/
theorem mapM_relates {γ : Type*} {before : α → γ → Prop} {after : β → γ → Prop}
    (hstep : ∀ value model result, before value model →
      step value = .ok result → after result model)
    {models : List γ}
    (hvalues : List.Forall₂ before values models)
    (hresults : values.mapM step = .ok results) :
    List.Forall₂ after results models := by
  induction hvalues generalizing results with
  | nil =>
    rw [List.mapM_nil, pure_eq_ok] at hresults
    rw [← hresults]
    exact .nil
  | cons hvalue _ ih =>
    simp only [List.mapM_cons, bind_eq_ok, pure_eq_ok] at hresults
    obtain ⟨result, hresult, remaining, hremaining, rfl⟩ := hresults
    exact .cons (hstep _ _ _ hvalue hresult) (ih hremaining)

/-- A loop which may fail keeps a relation with a loop which does not, when
every round keeps it. -/
theorem foldlM_relates {γ : Type*} (relation : α → γ → Prop)
    (model : γ → β → γ) {step : α → β → Except ε α}
    (hstep : ∀ state abstracted value next, relation state abstracted →
      step state value = .ok next → relation next (model abstracted value))
    {state final : α} {abstracted : γ} {values : List β}
    (hstart : relation state abstracted)
    (hfinal : values.foldlM step state = .ok final) :
    relation final (values.foldl model abstracted) := by
  induction values generalizing state abstracted with
  | nil =>
    rw [List.foldlM_nil, pure_eq_ok] at hfinal
    rw [List.foldl_nil, ← hfinal]
    exact hstart
  | cons value rest ih =>
    rw [List.foldlM_cons, bind_eq_ok] at hfinal
    obtain ⟨next, hnext, hrest⟩ := hfinal
    rw [List.foldl_cons]
    exact ih (hstep state abstracted value next hstart hnext) hrest

/-- Every error of a computation is an allowed one. -/
def FailsOnly (allowed : ε → Prop) (value : Except ε α) : Prop :=
  ∀ error, value = .error error → allowed error

section FailsOnly

variable {allowed : ε → Prop}

theorem failsOnly_ok (value : α) : FailsOnly allowed (.ok value) :=
  nofun

theorem failsOnly_error {error : ε} (herror : allowed error) :
    FailsOnly allowed (.error error : Except ε α) := by
  intro found hfound
  exact Except.error.inj hfound ▸ herror

theorem FailsOnly.bind {value : Except ε α} {next : α → Except ε β}
    (hvalue : FailsOnly allowed value)
    (hnext : ∀ input, value = .ok input → FailsOnly allowed (next input)) :
    FailsOnly allowed (value >>= next) := by
  cases value with
  | error error => exact failsOnly_error (hvalue error rfl)
  | ok input => exact hnext input rfl

theorem failsOnly_forM {values : List α} {check : α → Except ε Unit}
    (hcheck : ∀ value ∈ values, FailsOnly allowed (check value)) :
    FailsOnly allowed (values.forM check) := by
  induction values with
  | nil => exact failsOnly_ok ()
  | cons value rest ih =>
    rw [List.forall_mem_cons] at hcheck
    exact hcheck.1.bind fun _ _ => ih hcheck.2

end FailsOnly

end GuardedResult
