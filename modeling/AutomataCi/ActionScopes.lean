import AutomataCi.TextOperations
import Mathlib.Tactic

/-!
# Scopes of action calls

An action call has a path: the index of its job step, then the index within
each composite action below.  From the path come the identifier under which
the phases of an action share their state, and the one under which the outputs
are kept.  A job step may have been given such a text.
-/

namespace AutomataCi

open TextOperations

def maxActionNestingDepth : Nat :=
  10

def maxCompositeSteps : Nat :=
  1024

def stepIdIsValid (id : Text) : Bool :=
  !id.isEmpty && id.length ≤ 128 && id.all fun character =>
    character.isAlphanum || character = '_' || character = '-'

structure JobSteps where
  ids : List Text
  distinct : ids.Nodup
  valid : ∀ id ∈ ids, stepIdIsValid id
  bounded : ids.length ≤ 2 ^ 32

@[ext]
structure ActionCallPath (job : JobSteps) where
  topIndex : Fin job.ids.length
  below : List Nat
  nested : below.length < maxActionNestingDepth
  bounded : ∀ index ∈ below, index < maxCompositeSteps

def joined (separator : Char) (indices : List Nat) : Text :=
  [separator].intercalate (indices.map (Nat.toDigits 10))

namespace ActionCallPath

variable {job : JobSteps}

def top (index : Fin job.ids.length) : ActionCallPath job :=
  ⟨index, [], by decide, by simp⟩

def indices (self : ActionCallPath job) : List Nat :=
  self.topIndex :: self.below

def scopeId (topText : Fin job.ids.length → Text) (stem : Text)
    (separator : Char) (self : ActionCallPath job) : Text :=
  if self.below = [] then topText self.topIndex
  else stem ++ joined separator self.indices

def topInvocationId (index : Fin job.ids.length) : Text :=
  job.ids[index] ++ '-' :: Nat.toDigits 10 index

def invocationId : ActionCallPath job → Text :=
  scopeId topInvocationId "composite-action-".toList '-'

/-- The identifier of a job step, or `composite_runtime_step_id`. -/
def runtimeStepId : ActionCallPath job → Text :=
  scopeId (job.ids[·]) "__automata_composite_".toList '_'

end ActionCallPath

abbrev NameValues :=
  List (Text × Text)

def replaceNameValue : NameValues → Text × Text → NameValues
  | [], replacement => [replacement]
  | existing :: rest, replacement =>
    if sameIgnoringCase existing.1 replacement.1 then
      (existing.1, replacement.2) :: rest
    else existing :: replaceNameValue rest replacement

inductive StepPhase where
  | run | actionPre | actionMain | actionPost
  deriving DecidableEq, Repr

structure CompletedStep (job : JobSteps) where
  path : ActionCallPath job
  phase : StepPhase
  (output state : NameValues)

structure JobCommandState where
  (outputs actionStates : List (Text × NameValues))

def valuesOf (entries : List (Text × NameValues)) (id : Text) : NameValues :=
  ((entries.find? fun entry => entry.1 = id).map Prod.snd).getD []

def withValues (kept : List (Text × NameValues)) (id : Text)
    (values : NameValues) : List (Text × NameValues) :=
  if values = [] then kept else kept ++ [(id, values)]

namespace JobCommandState

variable {job : JobSteps} (self : JobCommandState) (step : CompletedStep job)

def applyOutput : JobCommandState :=
  let id := step.path.runtimeStepId
  if step.phase = .actionPre then self
  else
    let before :=
      if step.phase = .actionPost then valuesOf self.outputs id else []
    { self with
      outputs := withValues (self.outputs.filter fun entry => entry.1 ≠ id)
        id (step.output.foldl replaceNameValue before) }

def applyState : JobCommandState :=
  let id := step.path.invocationId
  if step.phase = .run then self
  else
    { self with
      actionStates :=
        withValues (self.actionStates.eraseP fun entry => entry.1 = id) id
          (step.state.foldl replaceNameValue (valuesOf self.actionStates id)) }

def applyCompletedStep : JobCommandState :=
  (self.applyOutput step).applyState step

end JobCommandState

variable {separator : Char} {other id : Text} {entries : List (Text × NameValues)}

theorem notMem_toDigits (hdigit : ¬separator.isDigit) (index : Nat) :
    separator ∉ Nat.toDigits 10 index := by
  intro hmem
  exact hdigit (Nat.isDigit_of_mem_toDigits (by decide) (by decide) hmem)

theorem toDigits_injective : (Nat.toDigits 10).Injective := by
  intro left right hsame
  simpa using congrArg (fun digits => Nat.ofDigitChars 10 digits 0) hsame

theorem joined_injective (hdigit : ¬separator.isDigit) {left right : List Nat} (hleft : left ≠ [])
    (hright : right ≠ []) (hsame : joined separator left = joined separator right) :
    left = right := by
  have hsplit : ∀ indices : List Nat, indices ≠ [] → (joined separator indices).splitOn separator =
        indices.map (Nat.toDigits 10) := by
    intro indices hindices
    apply List.splitOn_intercalate
    · intro digits hdigits
      obtain ⟨index, -, rfl⟩ := List.mem_map.mp hdigits
      exact notMem_toDigits hdigit index
    · simpa using hindices
  apply toDigits_injective.list_map
  rw [← hsplit left hleft, hsame, hsplit right hright]

theorem concat_inj (hdigit : ¬separator.isDigit) {left right : Text} {last other : Nat}
    (hsame : left ++ separator :: Nat.toDigits 10 last =
      right ++ separator :: Nat.toDigits 10 other) : left = right ∧ last = other := by
  have hsplit : ∀ (before : Text) (index : Nat), splitAtFirst separator
          (before ++ separator :: Nat.toDigits 10 index).reverse =
        some ((Nat.toDigits 10 index).reverse, before.reverse) := by
    intro before index
    rw [List.reverse_append, List.reverse_cons, List.append_assoc,
      List.singleton_append, splitAtFirst_append]
    simpa using notMem_toDigits hdigit index
  have hparts := (hsplit left last).symm.trans
    ((congrArg _ (congrArg List.reverse hsame)).trans (hsplit right other))
  simp only [Option.some.injEq, Prod.mk.injEq, List.reverse_inj] at hparts
  exact ⟨hparts.2, toDigits_injective hparts.1⟩

theorem valuesOf_withValues {kept : List (Text × NameValues)} {values : NameValues}
    (hne : other ≠ id) : valuesOf (withValues kept id values) other = valuesOf kept other := by
  unfold withValues
  split
  · rfl
  · simp [valuesOf, List.find?_append, hne.symm]

theorem valuesOf_eraseP (hne : other ≠ id) :
    valuesOf (entries.eraseP fun entry => entry.1 = id) other = valuesOf entries other := by
  induction entries with
  | nil => rfl
  | cons entry rest ih =>
    by_cases hid : entry.1 = id
    · simp [hid, valuesOf, hne.symm]
    · simp only [List.eraseP_cons, hid, decide_false, cond_false, valuesOf, List.find?_cons] at ih ⊢
      split
      · rfl
      · exact ih

theorem valuesOf_filter (hne : other ≠ id) :
    valuesOf (entries.filter fun entry => entry.1 ≠ id) other = valuesOf entries other := by
  unfold valuesOf
  rw [List.find?_filter]
  congr 3
  grind

namespace JobCommandState

variable {job : JobSteps} {step : CompletedStep job}

theorem valuesOf_outputs (self : JobCommandState) {id : Text} (hne : id ≠ step.path.runtimeStepId) :
    valuesOf (self.applyCompletedStep step).outputs id = valuesOf self.outputs id := by
  have hstate : (self.applyCompletedStep step).outputs = (self.applyOutput step).outputs := by
    unfold applyCompletedStep applyState
    split <;> rfl
  rw [hstate]
  unfold applyOutput
  split
  · rfl
  · exact (valuesOf_withValues hne).trans (valuesOf_filter hne)

theorem valuesOf_actionStates (self : JobCommandState) {id : Text}
    (hne : id ≠ step.path.invocationId) :
    valuesOf (self.applyCompletedStep step).actionStates id = valuesOf self.actionStates id := by
  have houtput : (self.applyOutput step).actionStates = self.actionStates := by
    unfold applyOutput
    split <;> rfl
  rw [applyCompletedStep, applyState, ← houtput]
  split
  · rfl
  · exact (valuesOf_withValues hne).trans (valuesOf_eraseP hne)

end JobCommandState

namespace JobSteps

/-- The identifier of a step, or that of its action, is also the text which is
made from the indices of a nested call. -/
def Reserved (job : JobSteps) (index : Fin job.ids.length) : Prop :=
  ∃ (top : Fin job.ids.length) (below : List Nat), below ≠ [] ∧
    below.length < maxActionNestingDepth ∧ (∀ child ∈ below, child < maxCompositeSteps) ∧
    (job.ids[index] ++ '-' :: Nat.toDigits 10 index =
        "composite-action-".toList ++ joined '-' (top :: below) ∨
      job.ids[index] = "__automata_composite_".toList ++ joined '_' (top :: below))

/-- No scope is that of another path, and what other paths complete does not
show in the outputs and the state of a path. -/
structure ScopesApart (job : JobSteps) : Prop where
  invocations :
    ∀ left right : ActionCallPath job, left.invocationId = right.invocationId → left = right
  steps :
    ∀ left right : ActionCallPath job, left.runtimeStepId = right.runtimeStepId → left = right
  isolated :
    ∀ (path : ActionCallPath job) (completed : List (CompletedStep job))
      (state : JobCommandState), (∀ step ∈ completed, step.path ≠ path) →
        let final := completed.foldl .applyCompletedStep state
        valuesOf final.outputs path.runtimeStepId = valuesOf state.outputs path.runtimeStepId ∧
          valuesOf final.actionStates path.invocationId =
            valuesOf state.actionStates path.invocationId

end JobSteps

theorem ActionCallPath.scopeId_injective {job : JobSteps} {topText : Fin job.ids.length → Text}
    {stem : Text} (hdigit : ¬separator.isDigit) (htop : topText.Injective)
    (hfree : ∀ (index : Fin job.ids.length) (path : ActionCallPath job),
      path.below ≠ [] → topText index ≠ scopeId topText stem separator path) :
    (scopeId topText stem separator).Injective := by
  intro left right hsame
  by_cases hleft : left.below = []
  · by_cases hright : right.below = []
    · simp only [scopeId, hleft, hright, if_true] at hsame
      exact ActionCallPath.ext (htop hsame) (hleft.trans hright.symm)
    · rw [scopeId, if_pos hleft] at hsame
      exact absurd hsame (hfree left.topIndex right hright)
  · by_cases hright : right.below = []
    · rw [eq_comm, scopeId, if_pos hright] at hsame
      exact absurd hsame (hfree right.topIndex left hleft)
    · simp only [scopeId, hleft, hright, if_false] at hsame
      have hindices : left.indices = right.indices := joined_injective hdigit (List.cons_ne_nil _ _)
          (List.cons_ne_nil _ _) (List.append_cancel_left hsame)
      obtain ⟨hindex, hbelow⟩ := List.cons.inj hindices
      exact ActionCallPath.ext (Fin.ext hindex) hbelow

namespace JobSteps

/-- The scopes of a job are apart exactly if no step has an identifier which
is made for a path. -/
theorem scopesApart_iff (job : JobSteps) : job.ScopesApart ↔ ∀ index, ¬job.Reserved index := by
  constructor
  · rintro hapart index ⟨top, below, hbelow, hnested, hbounded, hsame⟩
    let path : ActionCallPath job := ⟨top, below, hnested, hbounded⟩
    have hinvocation : path.invocationId =
        "composite-action-".toList ++ joined '-' (top :: below) := if_neg hbelow
    have hstep : path.runtimeStepId =
        "__automata_composite_".toList ++ joined '_' (top :: below) := if_neg hbelow
    rcases hsame with hsame | hsame
    · have htop := hapart.invocations (.top index) path (hsame.trans hinvocation.symm)
      exact hbelow (congrArg ActionCallPath.below htop).symm
    · have htop := hapart.steps (.top index) path (hsame.trans hstep.symm)
      exact hbelow (congrArg ActionCallPath.below htop).symm
  · intro hfree
    have hinvocations : (@ActionCallPath.invocationId job).Injective := by
      apply ActionCallPath.scopeId_injective (by decide)
      · intro left right hsame
        exact Fin.ext (concat_inj (by decide) hsame).2
      · intro index path hbelow hsame
        rw [ActionCallPath.scopeId, if_neg hbelow] at hsame
        exact hfree index ⟨_, _, hbelow, path.nested, path.bounded, .inl hsame⟩
    have hsteps : (@ActionCallPath.runtimeStepId job).Injective := by
      apply ActionCallPath.scopeId_injective (by decide)
      · intro left right hsame
        exact Fin.ext ((List.Nodup.getElem_inj_iff job.distinct).mp hsame)
      · intro index path hbelow hsame
        rw [ActionCallPath.scopeId, if_neg hbelow] at hsame
        exact hfree index ⟨_, _, hbelow, path.nested, path.bounded, .inr hsame⟩
    refine
      { invocations := fun _ _ hsame => hinvocations hsame
        steps := fun _ _ hsame => hsteps hsame
        isolated := ?_ }
    intro path completed
    induction completed with
    | nil => simp
    | cons step rest ih =>
      intro state hothers
      obtain ⟨hother, hrest⟩ := List.forall_mem_cons.mp hothers
      obtain ⟨houtputs, hstates⟩ := ih (state.applyCompletedStep step) hrest
      refine ⟨houtputs.trans (state.valuesOf_outputs ?_),
        hstates.trans (state.valuesOf_actionStates ?_)⟩
      · intro hsame
        exact hother (hsteps hsame.symm)
      · intro hsame
        exact hother (hinvocations hsame.symm)

end JobSteps

namespace ScopeSample

def job : JobSteps :=
  ⟨["use".toList, "composite-action-0".toList,
    "__automata_composite_0_0".toList], by decide, by decide, by decide⟩

def step (index : Fin 3) : ActionCallPath job :=
  .top index

def child (index : Fin 2) : ActionCallPath job :=
  ⟨⟨0, by decide⟩, [index], Nat.succ_lt_succ (Nat.succ_pos 8), by
    simpa using index.2.trans (by decide)⟩

def completed : JobCommandState :=
  .applyCompletedStep (.applyCompletedStep ⟨[], []⟩ ⟨child 0, .run, [(['a'], ['b'])], []⟩)
    ⟨child 1, .actionMain, [], [(['c'], ['d'])]⟩

theorem scopes_alias :
    (child 1).invocationId = (step 1).invocationId ∧
      valuesOf completed.actionStates (step 1).invocationId = [(['c'], ['d'])] ∧
      valuesOf completed.outputs (step 2).runtimeStepId = [(['a'], ['b'])] := by
  decide +kernel

end ScopeSample

end AutomataCi
