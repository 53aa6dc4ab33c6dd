import AutomataCi.ActionScopes
import AutomataCi.GuardedResult
import AutomataCi.TextSlices

/-!
# Identifiers of the steps of a job

A step keeps the identifier which its author gave it; the others are given one which is made of
their position, with a suffix if it is in use.  The steps are taken in order, so that what is in
use are the identifiers of the steps before.
-/

namespace AutomataCi.StepAllocation

open GuardedResult TextOperations TextSlices

inductive JobValidationError where
  | emptyStepId
  | stepIdTooLong (maximum : Nat)
  | invalidStepId (value : Text)
  deriving DecidableEq

/-- The errors which `step_ids` returns. -/
inductive LogicalJobProjectionError where
  | invalidJobIr (error : JobValidationError)
  | duplicateStepId
  | invalidAnonymousStepKey
  deriving DecidableEq

def maxSemanticIdLength : Nat :=
  128

/-- `StepId::new`. -/
def stepId (value : Text) : Except JobValidationError Text := do
  rejectIf (value = []) .emptyStepId
  rejectIf (maxSemanticIdLength < byteLength value) (.stepIdTooLong maxSemanticIdLength)
  rejectIf (¬ value.all fun character =>
    character.isAlphanum || character = '_' || character = '-') (.invalidStepId value)
  return value

/-- The fields of a step which `step_ids` reads. -/
structure LogicalStepTemplate where
  key : Text
  id : Option Text

def candidate (base : Text) (suffix : Nat) : Text :=
  if suffix = 0 then base else base ++ '_' :: Nat.toDigits 10 suffix

variable (allocated : List Text)

def isFree (id : Text) : Bool :=
  stepId id = .ok id && id ∉ allocated

def inventedId (base : Text) : Option Text :=
  ((List.range' 0 (2 ^ 32)).find? fun suffix => isFree allocated (candidate base suffix)).map
    (candidate base)

/-- One round of the loop; `allocated` has what `projected` has. -/
def allocate (step : LogicalStepTemplate) : Except LogicalJobProjectionError (List Text) :=
  match step.id with
  | some explicit => do
    let id ← (stepId explicit).mapError .invalidJobIr
    rejectIf (id ∈ allocated) .duplicateStepId
    return allocated ++ [id]
  | none => do
    let position ← okOr (step.key.dropPrefix? "position/".toList) .invalidAnonymousStepKey
    let id ← okOr (inventedId allocated ("github_p_".toList ++ position)) .invalidAnonymousStepKey
    return allocated ++ [id]

def stepIds (steps : List LogicalStepTemplate) : Except LogicalJobProjectionError (List Text) :=
  steps.foldlM allocate []

/-- What `compile_step` writes for the index of a step. -/
def position (index : Nat) : Text :=
  (Nat.toDigits 10 index).leftpad 8 '0'

def explicitIds (steps : List LogicalStepTemplate) : List Text :=
  steps.filterMap LogicalStepTemplate.id

structure Compiled (steps : List LogicalStepTemplate) : Prop where
  valid : ∀ id ∈ explicitIds steps, stepId id = .ok id
  distinct : (explicitIds steps).Nodup
  anonymous : ∀ index (hindex : index < steps.length), steps[index].id = none →
    steps[index].key = "position/".toList ++ position index
  bounded : steps.length ≤ 2 ^ 32

def anonymousId (index : Nat) : Nat → Text :=
  candidate ("github_p_".toList ++ position index)

/-- The identifier of an anonymous step: the first one of its position which no step before has
been given by its author. -/
def Invented (before : List LogicalStepTemplate) (id : Text) : Prop :=
  ∃ suffix, id = anonymousId before.length suffix ∧ id ∉ explicitIds before ∧
    ∀ smaller < suffix, anonymousId before.length smaller ∈ explicitIds before

def InventedIn (steps : List LogicalStepTemplate) (id : Text) : Prop :=
  ∃ before step after, steps = before ++ step :: after ∧ step.id = none ∧ Invented before id

theorem position_injective : position.Injective := by
  intro left right hsame
  have hvalue : ∀ index, Nat.ofDigitChars 10 (position index) 0 = index := by
    intro index
    simp [position, List.leftpad, Nat.ofDigitChars_append]
  rw [← hvalue left, hsame, hvalue]

theorem isDigit_of_mem_position {index : Nat} {character : Char}
    (hmem : character ∈ position index) : character.isDigit = true := by
  rw [position, List.leftpad, List.mem_append] at hmem
  rcases hmem with hzero | hdigit
  · rw [List.eq_of_mem_replicate hzero]
    decide
  · exact Nat.isDigit_of_mem_toDigits (by decide) (by decide) hdigit

theorem anonymousId_eq_append (index suffix : Nat) :
    anonymousId index suffix = "github_p_".toList ++
      (position index ++ if suffix = 0 then [] else '_' :: Nat.toDigits 10 suffix) := by
  unfold anonymousId candidate
  split <;> simp

theorem takeWhile_anonymousId (index suffix : Nat) :
    ((anonymousId index suffix).drop 9).takeWhile Char.isDigit = position index := by
  rw [anonymousId_eq_append]
  change (position index ++ _).takeWhile Char.isDigit = position index
  rw [List.takeWhile_append_of_pos fun _ => isDigit_of_mem_position]
  split <;> simp

theorem candidate_injective (base : Text) : (candidate base).Injective := by
  intro left right hsame
  unfold candidate at hsame
  split at hsame <;> split at hsame
  · omega
  · simp at hsame
  · simp at hsame
  · exact (concat_inj (by decide) hsame).2

theorem length_toDigits {value : Nat} (hvalue : value < 2 ^ 32) :
    (Nat.toDigits 10 value).length ≤ 10 :=
  Nat.toDigits_length 10 value 10 (by decide) (hvalue.trans (by decide))

theorem byteLength_le (text : Text) : byteLength text ≤ 4 * text.length := by
  induction text with
  | nil => simp
  | cons first rest ih =>
    have hfirst := first.utf8Size_le_four
    rw [byteLength_cons, List.length_cons]
    omega

theorem stepId_anonymousId {index suffix : Nat} (hindex : index < 2 ^ 32)
    (hsuffix : suffix < 2 ^ 32) :
    stepId (anonymousId index suffix) = .ok (anonymousId index suffix) := by
  have hlength : (anonymousId index suffix).length ≤ 30 := by
    have hposition : (position index).length ≤ 10 := by
      rw [position, List.length_leftpad]
      exact Nat.max_le.mpr ⟨by decide, length_toDigits hindex⟩
    have hdigits := length_toDigits hsuffix
    rw [anonymousId_eq_append]
    split <;> simp <;> omega
  have hbytes : ¬maxSemanticIdLength < byteLength (anonymousId index suffix) := by
    have hfour := byteLength_le (anonymousId index suffix)
    simp only [maxSemanticIdLength]
    omega
  have hdigits : ∀ text : Text, (∀ character ∈ text, character.isDigit = true) →
      text.all (fun character => character.isAlphanum || character = '_' || character = '-') =
        true := by
    intro text htext
    rw [List.all_eq_true]
    intro character hmem
    simp [Char.isAlphanum, htext character hmem]
  have hletters : (anonymousId index suffix).all (fun character =>
      character.isAlphanum || character = '_' || character = '-') = true := by
    rw [anonymousId_eq_append, List.all_append, List.all_append,
      hdigits _ fun _ => isDigit_of_mem_position]
    split
    next => rfl
    next =>
      rw [List.all_cons, hdigits _ fun _ => Nat.isDigit_of_mem_toDigits (by decide) (by decide)]
      rfl
  have hne : anonymousId index suffix ≠ [] := by
    rw [anonymousId_eq_append]
    exact List.cons_ne_nil _ _
  simp [stepId, hne, hbytes, hletters]

theorem explicitIds_concat (before : List LogicalStepTemplate) (step : LogicalStepTemplate) :
    explicitIds (before ++ [step]) = explicitIds before ++ step.id.toList := by
  cases hid : step.id <;> simp [explicitIds, hid]

theorem inventedIn_concat {before : List LogicalStepTemplate} {step : LogicalStepTemplate}
    {id : Text} :
    InventedIn (before ++ [step]) id ↔
      InventedIn before id ∨ step.id = none ∧ Invented before id := by
  constructor
  · rintro ⟨front, anonymous, after, hsteps, hnone, hinvented⟩
    cases after using List.reverseRecOn with
    | nil =>
      obtain ⟨rfl, hsame⟩ := List.append_inj' hsteps rfl
      cases hsame
      exact .inr ⟨hnone, hinvented⟩
    | append_singleton after last =>
      rw [← List.cons_append, ← List.append_assoc] at hsteps
      obtain ⟨rfl, -⟩ := List.append_inj' hsteps rfl
      exact .inl ⟨front, anonymous, after, rfl, hnone, hinvented⟩
  · rintro (⟨front, anonymous, after, rfl, hnone, hinvented⟩ | ⟨hnone, hinvented⟩)
    · exact ⟨front, anonymous, after ++ [step], by simp, hnone, hinvented⟩
    · exact ⟨before, step, [], rfl, hnone, hinvented⟩

def Kept : List LogicalStepTemplate → List Text → Prop :=
  List.Forall₂ fun step id => ∀ explicit ∈ step.id, id = explicit

/-- What the loop has allocated after some of the steps. -/
structure Allocated (before : List LogicalStepTemplate) (ids : List Text) : Prop where
  kept : Kept before ids
  distinct : ids.Nodup
  mem_iff : ∀ id, id ∈ ids ↔ id ∈ explicitIds before ∨ InventedIn before id

theorem allocated_nil : Allocated [] [] where
  kept := .nil
  distinct := .nil
  mem_iff := by simp [explicitIds, InventedIn]

section Loop

variable {before : List LogicalStepTemplate} {step : LogicalStepTemplate} {ids : List Text}

theorem Invented.unique {id other : Text} (hid : Invented before id)
    (hother : Invented before other) : id = other := by
  obtain ⟨first, rfl, hfirst, hbelow⟩ := hid
  obtain ⟨second, rfl, hsecond, hunder⟩ := hother
  rcases Nat.lt_trichotomy first second with hlt | rfl | hgt
  · exact absurd (hunder first hlt) hfirst
  · rfl
  · exact absurd (hbelow second hgt) hsecond

theorem Allocated.concat {id : Text} (hallocated : Allocated before ids) (hfresh : id ∉ ids)
    (hid : step.id = some id ∨ step.id = none ∧ Invented before id) :
    Allocated (before ++ [step]) (ids ++ [id]) where
  kept := by
    refine List.rel_append hallocated.kept (.cons ?_ .nil)
    intro explicit hexplicit
    rcases hid with hsome | ⟨hnone, -⟩
    · exact Option.some.inj (hsome.symm.trans hexplicit)
    · rw [hnone] at hexplicit
      contradiction
  distinct := by
    rw [List.nodup_append]
    refine ⟨hallocated.distinct, List.nodup_singleton id, ?_⟩
    intro other hother last hlast
    rw [List.mem_singleton.mp hlast]
    exact ne_of_mem_of_not_mem hother hfresh
  mem_iff := by
    intro other
    rw [List.mem_append, List.mem_singleton, hallocated.mem_iff, explicitIds_concat,
      inventedIn_concat, List.mem_append]
    rcases hid with hsome | ⟨hnone, hinvented⟩
    · simp only [hsome, Option.toList_some, List.mem_singleton, reduceCtorEq, false_and, or_false]
      tauto
    · have hsame : Invented before other ↔ other = id :=
        ⟨fun hother => hother.unique hinvented, fun heq => heq ▸ hinvented⟩
      simp only [hnone, Option.toList_none, List.not_mem_nil, or_false, true_and, hsame]
      tauto

theorem Allocated.anonymousId_mem_iff (hallocated : Allocated before ids) (suffix : Nat) :
    anonymousId before.length suffix ∈ ids ↔
      anonymousId before.length suffix ∈ explicitIds before := by
  rw [hallocated.mem_iff, or_iff_left]
  rintro ⟨front, anonymous, after, rfl, -, other, hsame, -⟩
  have hlength := position_injective ((takeWhile_anonymousId _ suffix).symm.trans
    ((congrArg _ (congrArg _ hsame)).trans (takeWhile_anonymousId _ other)))
  simp at hlength

theorem Allocated.inventedId_eq (hallocated : Allocated before ids)
    (hbounded : before.length < 2 ^ 32) :
    ∃ id, inventedId ids ("github_p_".toList ++ position before.length) = some id ∧ id ∉ ids ∧
      Invented before id := by
  have hfree : ∀ suffix < 2 ^ 32, isFree ids (anonymousId before.length suffix) = true ↔
      anonymousId before.length suffix ∉ ids := by
    intro suffix hsuffix
    simp [isFree, stepId_anonymousId hbounded hsuffix]
  cases hfound : (List.range' 0 (2 ^ 32)).find? fun suffix =>
      isFree ids (anonymousId before.length suffix) with
  | none =>
    rw [List.find?_range'_eq_none] at hfound
    have hmany : ((List.range (ids.length + 1)).map (anonymousId before.length)).Subperm ids := by
      apply (List.nodup_range.map (candidate_injective _)).subperm
      intro id hid
      obtain ⟨suffix, hsuffix, rfl⟩ := List.mem_map.mp hid
      have hlast : suffix < 2 ^ 32 := by
        rw [List.mem_range, ← hallocated.kept.length_eq] at hsuffix
        omega
      by_contra hnew
      have htaken := hfound suffix (Nat.zero_le _) (by omega)
      rw [(hfree suffix hlast).mpr hnew] at htaken
      contradiction
    have hlength := hmany.length_le
    simp at hlength
  | some suffix =>
    obtain ⟨hsuffix, hbound, hbelow⟩ := List.find?_range'_eq_some.mp hfound
    have hlast : suffix < 2 ^ 32 := by
      rw [List.mem_range'_1] at hbound
      omega
    have hnew := (hfree suffix hlast).mp hsuffix
    refine ⟨anonymousId before.length suffix, ?_, hnew, suffix, rfl, ?_, ?_⟩
    · exact congrArg (Option.map _) hfound
    · exact mt (hallocated.anonymousId_mem_iff suffix).mpr hnew
    · intro smaller hsmaller
      rw [← hallocated.anonymousId_mem_iff]
      by_contra hfirst
      have htaken := hbelow smaller (Nat.zero_le _) hsmaller
      rw [(hfree smaller (hsmaller.trans hlast)).mpr hfirst] at htaken
      contradiction

variable {rest : List LogicalStepTemplate}

theorem Compiled.allocate_eq_ok (hsteps : Compiled (before ++ step :: rest))
    (hallocated : Allocated before ids) :
    ∃ id, (step.id = some id ∨ step.id = none ∧ Invented before id ∧ id ∉ ids) ∧
      ∀ next, allocate ids step = .ok next ↔ id ∉ ids ∧ ids ++ [id] = next := by
  cases hid : step.id with
  | some explicit =>
    have hvalid := hsteps.valid explicit (by simp [explicitIds, hid])
    refine ⟨explicit, .inl rfl, ?_⟩
    simp [allocate, hid, hvalid, Except.mapError]
  | none =>
    have hbounded : before.length < 2 ^ 32 := by
      have hlength := hsteps.bounded
      simp only [List.length_append, List.length_cons] at hlength
      omega
    obtain ⟨id, hinvents, hfresh, hinvented⟩ := hallocated.inventedId_eq hbounded
    have hposition : step.key.dropPrefix? "position/".toList = some (position before.length) := by
      rw [List.dropPrefix?_eq_some_iff]
      have hkey := hsteps.anonymous before.length (by simp) (by simpa using hid)
      rw [List.getElem_append_right le_rfl] at hkey
      simp only [Nat.sub_self, List.getElem_cons_zero] at hkey
      exact ⟨"position/".toList, hkey, by decide⟩
    refine ⟨id, .inr ⟨rfl, hinvented, hfresh⟩, fun next => ?_⟩
    simp only [allocate, hid, hposition, okOr, ok_bind, hinvents, pure_eq_ok, hfresh,
      not_false_eq_true, true_and]

/-- No identifier given by an author was made for a step before. -/
def Apart : List LogicalStepTemplate → List LogicalStepTemplate → Prop
  | _, [] => True
  | before, step :: rest =>
    (∀ explicit ∈ step.id, ¬InventedIn before explicit) ∧ Apart (before ++ [step]) rest

theorem Compiled.foldlM_spec (hsteps : Compiled (before ++ rest))
    (hallocated : Allocated before ids) :
    (∀ final, rest.foldlM allocate ids = .ok final → Allocated (before ++ rest) final) ∧
      ((∃ final, rest.foldlM allocate ids = .ok final) ↔ Apart before rest) := by
  induction rest generalizing before ids with
  | nil =>
    refine ⟨fun final hrun => ?_, iff_of_true ⟨ids, rfl⟩ trivial⟩
    cases hrun
    rwa [List.append_nil]
  | cons step rest ih =>
    obtain ⟨id, hid, hallocate⟩ := hsteps.allocate_eq_ok hallocated
    have hfree : id ∉ ids ↔ ∀ explicit ∈ step.id, ¬InventedIn before explicit := by
      rcases hid with hsome | ⟨hnone, -, hfresh⟩
      · have hdistinct : id ∉ explicitIds before := by
          have hnodup := hsteps.distinct
          simp only [explicitIds, List.filterMap_append, List.filterMap_cons, hsome] at hnodup
          exact fun hmem => (List.nodup_append.mp hnodup).2.2 id hmem id List.mem_cons_self rfl
        simp [hsome, hallocated.mem_iff, hdistinct]
      · simp [hnone, hfresh]
    by_cases hmem : id ∈ ids
    · have hfails : ∀ final, (step :: rest).foldlM allocate ids ≠ .ok final := by
        intro final hrun
        rw [List.foldlM_cons, bind_eq_ok] at hrun
        obtain ⟨next, hnext, -⟩ := hrun
        exact ((hallocate next).mp hnext).1 hmem
      exact ⟨fun final hrun => absurd hrun (hfails final),
        iff_of_false (fun ⟨final, hrun⟩ => hfails final hrun) fun hapart => hfree.mpr hapart.1 hmem⟩
    · have hlater : Allocated (before ++ [step]) (ids ++ [id]) :=
        hallocated.concat hmem (hid.imp_right fun hnone => ⟨hnone.1, hnone.2.1⟩)
      rw [List.append_cons] at hsteps ⊢
      rw [List.foldlM_cons, (hallocate _).mpr ⟨hmem, rfl⟩, ok_bind, Apart,
        and_iff_right (hfree.mp hmem)]
      exact ih hsteps hlater

end Loop

/-- Every step gets an identifier, an author's own kept and no two equal, exactly if no author's
identifier is the one an earlier anonymous step was given. -/
theorem stepIds_iff {steps : List LogicalStepTemplate} (hsteps : Compiled steps) :
    (∃ ids, stepIds steps = .ok ids ∧ ids.Nodup ∧ Kept steps ids) ↔ Apart [] steps := by
  obtain ⟨hlast, hiff⟩ := (show Compiled ([] ++ steps) from hsteps).foldlM_spec allocated_nil
  rw [← hiff]
  constructor
  · rintro ⟨ids, hids, -⟩
    exact ⟨ids, hids⟩
  · rintro ⟨ids, hids⟩
    have hallocated := hlast ids hids
    exact ⟨ids, hids, hallocated.distinct, hallocated.kept⟩

theorem stepIds_named_first :
    ∃ ids, stepIds [⟨"id/a".toList, some ['a']⟩, ⟨"position/00000001".toList, none⟩] = .ok ids ∧
      ids.Nodup ∧ Kept [⟨"id/a".toList, some ['a']⟩, ⟨"position/00000001".toList, none⟩] ids :=
  (stepIds_iff ⟨by decide, by decide, by decide, by decide⟩).mpr
    ⟨by simp [InventedIn], by simp, trivial⟩

def namedAsInvented : List LogicalStepTemplate :=
  [⟨"position/00000000".toList, none⟩,
    ⟨"id/github_p_00000000".toList, some "github_p_00000000".toList⟩]

/-- The name of the first step is made before that of the second is seen. -/
theorem stepIds_namedAsInvented :
    Compiled namedAsInvented ∧ stepIds namedAsInvented = .error .duplicateStepId :=
  ⟨⟨by decide, by decide, by decide, by decide⟩, by decide +kernel⟩

end AutomataCi.StepAllocation
