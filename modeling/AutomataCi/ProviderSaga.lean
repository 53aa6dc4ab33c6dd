import AutomataCi.SlotHistories

/-!
# The provider saga and its compaction

A slot keeps at most 32 provider operations and folds older ones into a
checkpoint.  The complete history, which the slot does not keep, is a list of
evicted operations followed by the retained window; the checkpoint is what the
evicted operations leave.
-/

namespace AutomataCi

open GuardedResult KeyedList SerialLog ProviderRecoveryState

def resolveLast (outcome : ProviderOperationOutcome)
    (history : List ProviderOperation) : List ProviderOperation :=
  match history.getLast? with
  | some operation => history.dropLast ++ [{ operation with outcome }]
  | none => []

@[simp] theorem resolveLast_concat (outcome : ProviderOperationOutcome)
    (front : List ProviderOperation) (operation : ProviderOperation) :
    resolveLast outcome (front ++ [operation]) = front ++ [{ operation with outcome }] := by
  simp [resolveLast]

def SlotEvent.extendProviderHistory (history : List ProviderOperation) :
    SlotEvent → List ProviderOperation
  | .mutated (.recordProviderIntent intent) => history ++ [intent]
  | .mutated (.recordSandboxCreated _ _) => resolveLast .applied history
  | .mutated (.completeProviderOperation _) => resolveLast .applied history
  | .mutated (.failProviderOperation _ failure) => resolveLast (.failed failure) history
  | _ => history

def providerHistory (events : List SlotEvent) : List ProviderOperation :=
  events.foldl SlotEvent.extendProviderHistory []

@[simp] theorem providerHistory_concat (events : List SlotEvent) (event : SlotEvent) :
    providerHistory (events ++ [event]) = event.extendProviderHistory (providerHistory events) := by
  simp [providerHistory]

namespace ProviderRecoveryState

variable (recovery : ProviderRecoveryState)

def withCount (count : Nat) : ProviderRecoveryState :=
  { recovery with compactedOperations := count }

@[simp] theorem canBegin_withCount
    (count : Nat) (kind : ProviderOperationKind) :
    (recovery.withCount count).canBegin kind = recovery.canBegin kind := by
  cases kind <;> rfl

@[simp] theorem after_withCount
    (count : Nat) (operation : ProviderOperation) :
    (recovery.withCount count).after operation = (recovery.after operation).withCount count := by
  unfold after
  split
  · cases operation.kind <;> rfl
  · rfl

variable {recovery final : ProviderRecoveryState}
  {operations : List ProviderOperation}

theorem applyAll_withCount (count : Nat) (happly : recovery.applyAll operations = .ok final) :
    (recovery.withCount count).applyAll operations = .ok (final.withCount count) := by
  induction operations generalizing recovery with
  | nil =>
    cases happly
    rfl
  | cons operation rest ih =>
    simp only [applyAll, bind_eq_ok, apply_eq_ok, canBegin_withCount, after_withCount] at happly ⊢
    obtain ⟨next, ⟨hbegin, rfl⟩, hrest⟩ := happly
    exact ⟨_, ⟨hbegin, rfl⟩, ih hrest⟩

theorem applyAll_of_withCount {count : Nat}
    (happly : (recovery.withCount count).applyAll operations = .ok final) :
    recovery.applyAll operations = .ok (final.withCount recovery.compactedOperations) := by
  have hsame := applyAll_withCount recovery.compactedOperations happly
  exact hsame

theorem compactedOperations_applyAll (happly : recovery.applyAll operations = .ok final) :
    final.compactedOperations = recovery.compactedOperations := by
  have hsame := applyAll_withCount recovery.compactedOperations happly
  rw [show recovery.withCount recovery.compactedOperations = recovery
    from rfl, happly, Except.ok.injEq] at hsame
  rw [hsame]
  rfl

end ProviderRecoveryState

structure WindowReplay (slot : SlotSnapshot)
    (recovery : ProviderRecoveryState) : Prop where
  window : ProviderWindow slot.providerOperations
  bounded :
    slot.providerOperations.length ≤ maxProviderOperationsPerSlot
  effect :
    slot.providerCheckpoint.applyAll slot.providerOperations = .ok recovery
  sandbox : slot.sandbox.isSome = recovery.sandboxLive

variable {recovery base : ProviderRecoveryState}

/-- Folding the oldest operation into the checkpoint leaves the sandbox as
the window leaves it. -/
theorem sandboxLive_compact {checkpoint compacted replayed : ProviderRecoveryState}
    {operations window : List ProviderOperation}
    (hcompact : SlotSnapshot.compactWindow checkpoint operations = .ok (compacted, window))
    (heffect : checkpoint.applyAll operations = .ok recovery)
    (hreplay : compacted.applyAll window = .ok replayed) :
    replayed.sandboxLive = recovery.sandboxLive := by
  rcases SlotSnapshot.compactWindow_eq_ok.mp hcompact with
    ⟨-, rfl, rfl⟩ | ⟨-, oldest, rfl, hoperation⟩
  · have hboth := hreplay.symm.trans heffect
    rw [Except.ok.inj hboth]
  · obtain ⟨-, -, -, rfl⟩ := compact_eq_ok.mp hoperation
    simp only [applyAll, bind_eq_ok, apply_eq_ok] at heffect
    obtain ⟨first, ⟨-, rfl⟩, hrest⟩ := heffect
    have hcounted := applyAll_withCount (checkpoint.compactedOperations + 1) hrest
    have hboth := hreplay.symm.trans hcounted
    rw [Except.ok.inj hboth]
    rfl

variable {slot next : SlotSnapshot} {intent : ProviderOperation} {mutation : SlotMutation}

theorem WindowReplay.recordProviderIntent (hreplay : WindowReplay slot recovery)
    (hintent : slot.recordProviderIntent intent = .ok (true, next)) :
    ∃ recovery, WindowReplay next recovery := by
  obtain ⟨-, -, -, hpending, hfresh, hresolved, checkpoint, window, replayed, hcompact, -, hwindow,
    -, hbegin, rfl⟩ := SlotSnapshot.recordProviderIntent_eq_true.mp hintent
  have hafter : replayed.after intent = replayed := by simp [after, hpending]
  have hserial : ProviderWindow (slot.providerOperations ++ [intent]) :=
    hreplay.window.concat (lookup_eq_none_iff.mp hfresh) hresolved
  have hbounded := hreplay.bounded
  refine ⟨replayed, ?_, ?_, ?_, ?_⟩
  · rcases SlotSnapshot.compactWindow_eq_ok.mp hcompact with ⟨-, -, rfl⟩ | ⟨-, oldest, holdest, -⟩
    · exact hserial
    · rw [holdest, List.cons_append] at hserial
      exact hserial.tail
  · rcases SlotSnapshot.compactWindow_eq_ok.mp hcompact with
      ⟨hroom, -, rfl⟩ | ⟨-, oldest, holdest, -⟩
    · simpa using hroom
    · rw [holdest, List.length_cons] at hbounded
      simpa using hbounded
  · exact applyAll_concat.mpr ⟨replayed, hwindow, hbegin, hafter.symm⟩
  · rw [sandboxLive_compact hcompact hreplay.effect hwindow]
    exact hreplay.sandbox

/-- The pending operation at the end of the window is resolved. -/
structure Resolves (slot next : SlotSnapshot)
    (operation : ProviderOperation) (outcome : ProviderOperationOutcome) :
    Prop where
  last : slot.providerOperations.getLast? = some operation
  pending : operation.isPending = true
  written :
    next = { slot with
      providerOperations := next.providerOperations
      sandbox := next.sandbox }
  operations :
    next.providerOperations = slot.providerOperations.dropLast ++ [{ operation with outcome }]
  sandbox :
    ∀ recovery : ProviderRecoveryState, slot.sandbox.isSome = recovery.sandboxLive →
        next.sandbox.isSome = (recovery.after { operation with outcome }).sandboxLive

variable {operationId : OperationId}

theorem Resolves.of_recordSandboxCreated {sandbox : SandboxIdentity}
    (hcreated : slot.recordSandboxCreated operationId sandbox = .ok (true, next)) :
    ∃ operation, Resolves slot next operation .applied := by
  obtain ⟨operation, hlast, -, hkind, hpending, -, rfl⟩ :=
    SlotSnapshot.recordSandboxCreated_eq_true.mp hcreated
  refine ⟨operation, hlast, hpending, rfl, rfl, ?_⟩
  intro recovery _
  simp [after, applyKind, hkind]

theorem Resolves.of_completeProviderOperation
    (hcomplete : slot.completeProviderOperation operationId = .ok (true, next)) :
    ∃ operation, Resolves slot next operation .applied := by
  obtain ⟨operation, hlast, -, hkind, hpending, rfl⟩ :=
    SlotSnapshot.completeProviderOperation_eq_true.mp hcomplete
  refine ⟨operation, hlast, hpending, rfl, rfl, ?_⟩
  intro recovery hlive
  cases hcase : operation.kind with
  | createSandbox => exact absurd hcase hkind
  | startSandbox | stopSandbox => simpa [after, applyKind, hcase] using hlive
  | destroySandbox => simp [after, applyKind]

theorem Resolves.of_failProviderOperation {failure : ProviderFailureOutcome}
    (hfail : slot.failProviderOperation operationId failure = .ok (true, next)) :
    ∃ operation, Resolves slot next operation (.failed failure) := by
  obtain ⟨operation, hlast, -, hpending, -, -, rfl⟩ :=
    SlotSnapshot.failProviderOperation_eq_true.mp hfail
  refine ⟨operation, hlast, hpending, rfl, rfl, ?_⟩
  intro recovery hlive
  simpa [after, SlotSnapshot.withLastProviderOperation] using hlive

variable {outcome : ProviderOperationOutcome}

theorem Resolves.checkpoint {operation : ProviderOperation}
    (hresolves : Resolves slot next operation outcome) :
    next.providerCheckpoint = slot.providerCheckpoint := by
  rw [hresolves.written]

theorem WindowReplay.resolve {operation : ProviderOperation} (hreplay : WindowReplay slot recovery)
    (hresolves : Resolves slot next operation outcome) :
    WindowReplay next (recovery.after { operation with outcome }) := by
  have hcheckpoint := hresolves.checkpoint
  obtain ⟨hlast, hpending, -, hoperations, hsandbox⟩ := hresolves
  obtain ⟨front, hfront⟩ := List.getLast?_eq_some_iff.mp hlast
  have hunapplied : operation.outcome ≠ .applied := by
    intro happlied
    simp [ProviderOperation.isPending, happlied, ProviderOperationOutcome.isPending] at hpending
  have heffect := hreplay.effect
  rw [hfront, applyAll_concat] at heffect
  obtain ⟨middle, hmiddle, hbegin, hrecovery⟩ := heffect
  have hsame : recovery = middle := by simpa [after, hunapplied] using hrecovery
  subst hsame
  rw [hfront, List.dropLast_concat] at hoperations
  refine ⟨?_, ?_, ?_, hsandbox recovery hreplay.sandbox⟩
  · rw [hoperations]
    have hwindow := hreplay.window
    rw [hfront] at hwindow
    exact hwindow.replaceLast rfl
  · have hbound := hreplay.bounded
    rw [hfront] at hbound
    rw [hoperations]
    simpa using hbound
  · rw [hcheckpoint, hoperations, applyAll_concat]
    exact ⟨recovery, hmiddle, hbegin, rfl⟩

structure SagaInvariant (history evicted : List ProviderOperation)
    (base recovery : ProviderRecoveryState) (slot : SlotSnapshot) :
    Prop where
  split : history = evicted ++ slot.providerOperations
  evictedResolved : ∀ operation ∈ evicted, operation.isPending = false
  evictedEffect :
    ProviderRecoveryState.initial.applyAll evicted = .ok base
  checkpoint : slot.providerCheckpoint = base.withCount evicted.length
  window : ProviderWindow slot.providerOperations
  bounded :
    slot.providerOperations.length ≤ maxProviderOperationsPerSlot
  windowEffect :
    slot.providerCheckpoint.applyAll slot.providerOperations = .ok recovery
  sandbox : slot.sandbox.isSome = recovery.sandboxLive

structure SameProvider (slot next : SlotSnapshot) : Prop where
  checkpoint : next.providerCheckpoint = slot.providerCheckpoint
  operations : next.providerOperations = slot.providerOperations
  sandbox : next.sandbox = slot.sandbox

variable {history evicted : List ProviderOperation}

theorem SagaInvariant.of_sameProvider (hsaga : SagaInvariant history evicted base recovery slot)
    (hsame : SameProvider slot next) :
    SagaInvariant history evicted base recovery next := by
  obtain ⟨hcheckpoint, hoperations, hsandbox⟩ := hsame
  constructor
  · rw [hoperations]
    exact hsaga.split
  · exact hsaga.evictedResolved
  · exact hsaga.evictedEffect
  · rw [hcheckpoint]
    exact hsaga.checkpoint
  · rw [hoperations]
    exact hsaga.window
  · rw [hoperations]
    exact hsaga.bounded
  · rw [hcheckpoint, hoperations]
    exact hsaga.windowEffect
  · rw [hsandbox]
    exact hsaga.sandbox

theorem sagaInvariant_fromOffer (offer : LeaseOfferRecord) :
    SagaInvariant [] [] .initial .initial (.fromOffer offer) where
  split := rfl
  evictedResolved := by simp
  evictedEffect := rfl
  checkpoint := rfl
  window := WellOrdered.nil
  bounded := Nat.zero_le _
  windowEffect := rfl
  sandbox := rfl

theorem SagaInvariant.replay (hsaga : SagaInvariant history evicted base recovery slot) :
    WindowReplay slot recovery :=
  ⟨hsaga.window, hsaga.bounded, hsaga.windowEffect, hsaga.sandbox⟩

theorem SagaInvariant.recordProviderIntent
    (hsaga : SagaInvariant history evicted base recovery slot)
    (hintent : slot.recordProviderIntent intent = .ok (true, next)) :
    ∃ evicted base recovery, SagaInvariant (history ++ [intent]) evicted base recovery next := by
  obtain ⟨final, hreplay⟩ := hsaga.replay.recordProviderIntent hintent
  obtain ⟨-, -, -, -, -, -, checkpoint, window, replayed, hcompact, -, -, -,
    -, rfl⟩ := SlotSnapshot.recordProviderIntent_eq_true.mp hintent
  rcases SlotSnapshot.compactWindow_eq_ok.mp hcompact with
    ⟨-, rfl, rfl⟩ | ⟨-, oldest, holdest, hoperation⟩
  · refine ⟨evicted, base, final, ?_, hsaga.evictedResolved,
      hsaga.evictedEffect, hsaga.checkpoint, hreplay.window,
      hreplay.bounded, hreplay.effect, hreplay.sandbox⟩
    rw [hsaga.split, List.append_assoc]
  · obtain ⟨hdone, hcan, -, rfl⟩ := compact_eq_ok.mp hoperation
    have hbase : base.canBegin oldest.kind = true := by
      rwa [hsaga.checkpoint, canBegin_withCount] at hcan
    refine ⟨evicted ++ [oldest], base.after oldest, final, ?_, ?_, ?_, ?_,
      hreplay.window, hreplay.bounded, hreplay.effect, hreplay.sandbox⟩
    · simp [hsaga.split, holdest]
    · intro operation hmem
      rw [List.mem_append, List.mem_singleton] at hmem
      rcases hmem with hearlier | rfl
      · exact hsaga.evictedResolved operation hearlier
      · exact hdone
    · exact applyAll_concat.mpr ⟨base, hsaga.evictedEffect, hbase, rfl⟩
    · rw [hsaga.checkpoint, after_withCount]
      simp [withCount]

theorem SagaInvariant.resolve {operation : ProviderOperation}
    (hsaga : SagaInvariant history evicted base recovery slot)
    (hresolves : Resolves slot next operation outcome) :
    ∃ recovery, SagaInvariant (resolveLast outcome history) evicted base recovery
        next := by
  have hreplay := hsaga.replay.resolve hresolves
  obtain ⟨front, hfront⟩ := List.getLast?_eq_some_iff.mp hresolves.last
  have hoperations := hresolves.operations
  refine ⟨recovery.after { operation with outcome }, ?_,
    hsaga.evictedResolved, hsaga.evictedEffect, ?_, hreplay.window,
    hreplay.bounded, hreplay.effect, hreplay.sandbox⟩
  · rw [hfront, List.dropLast_concat] at hoperations
    rw [hsaga.split, hfront, hoperations, ← List.append_assoc,
      resolveLast_concat, List.append_assoc]
  · rw [hresolves.checkpoint]
    exact hsaga.checkpoint

def isProviderMutation : SlotMutation → Bool
  | .recordProviderIntent _ | .recordSandboxCreated _ _
  | .completeProviderOperation _ | .failProviderOperation _ _ => true
  | _ => false

theorem SameProvider.perform (hother : isProviderMutation mutation = false)
    (hperform : slot.perform mutation = .ok (true, next)) : SameProvider slot next := by
  have huntouched : SlotComponent.provider ∉ (SlotEvent.mutated mutation).touches := by
    cases mutation <;> simp_all [isProviderMutation, SlotEvent.touches]
  have hreceive : slot.receive (.mutated mutation) = .ok (true, next) := hperform
  obtain ⟨hcheckpoint, hoperations, hsandbox⟩ := SlotSnapshot.receive_agrees hreceive huntouched
  exact ⟨hcheckpoint, hoperations, hsandbox⟩

theorem extendProviderHistory_of_other (hother : isProviderMutation mutation = false)
    (history : List ProviderOperation) :
    (SlotEvent.mutated mutation).extendProviderHistory history = history := by
  cases mutation <;> simp_all [isProviderMutation, SlotEvent.extendProviderHistory]

theorem SagaInvariant.receive {event : SlotEvent}
    (hsaga : SagaInvariant history evicted base recovery slot)
    (hreceive : slot.receive event = .ok (true, next)) :
    ∃ evicted base recovery, SagaInvariant (event.extendProviderHistory history) evicted base
        recovery next := by
  cases event with
  | cancelled =>
    obtain rfl := SlotSnapshot.receive_cancelled hreceive
    exact ⟨evicted, base, recovery, hsaga.of_sameProvider ⟨rfl, rfl, rfl⟩⟩
  | orphaned =>
    obtain ⟨-, rfl⟩ := SlotSnapshot.authorizeOrphan_eq_true.mp hreceive
    exact ⟨evicted, base, recovery, hsaga.of_sameProvider ⟨rfl, rfl, rfl⟩⟩
  | mutated mutation =>
    by_cases hother : isProviderMutation mutation = false
    · rw [extendProviderHistory_of_other hother]
      exact ⟨evicted, base, recovery, hsaga.of_sameProvider (.perform hother hreceive)⟩
    · cases mutation with
      | recordProviderIntent => exact hsaga.recordProviderIntent hreceive
      | recordSandboxCreated =>
        obtain ⟨operation, hresolves⟩ := Resolves.of_recordSandboxCreated hreceive
        exact ⟨evicted, base, hsaga.resolve hresolves⟩
      | completeProviderOperation =>
        obtain ⟨operation, hresolves⟩ := Resolves.of_completeProviderOperation hreceive
        exact ⟨evicted, base, hsaga.resolve hresolves⟩
      | failProviderOperation =>
        obtain ⟨operation, hresolves⟩ := Resolves.of_failProviderOperation hreceive
        exact ⟨evicted, base, hsaga.resolve hresolves⟩
      | _ => simp [isProviderMutation] at hother

theorem SlotRun.sagaInvariant {runnerId : RunnerId}
    {sessionId : RunnerSessionId} {offer : LeaseOfferRecord} {events : List SlotEvent}
    (hrun : SlotRun runnerId sessionId offer events slot) :
    ∃ evicted base recovery, SagaInvariant (providerHistory events) evicted base recovery slot := by
  induction hrun with
  | offered => exact ⟨[], .initial, .initial, sagaInvariant_fromOffer offer⟩
  | step before addressed bounded received ih =>
    obtain ⟨evicted, base, recovery, hsaga⟩ := ih
    rw [providerHistory_concat]
    exact hsaga.receive received

namespace ProviderOperation

def isAppliedCreate (operation : ProviderOperation) : Bool :=
  operation.kind = .createSandbox && operation.outcome = .applied

end ProviderOperation

namespace ProviderRecoveryState

theorem sandboxWasCreated_after {recovery : ProviderRecoveryState} {operation : ProviderOperation} :
    (recovery.after operation).sandboxWasCreated =
      (recovery.sandboxWasCreated || operation.isAppliedCreate) := by
  unfold after ProviderOperation.isAppliedCreate
  by_cases happlied : operation.outcome = .applied
  · cases operation.kind <;> simp [happlied, applyKind]
  · simp [happlied]

theorem count_isAppliedCreate_le {recovery final : ProviderRecoveryState}
    {operations : List ProviderOperation}
    (happly : recovery.applyAll operations = .ok final) :
    operations.countP ProviderOperation.isAppliedCreate ≤
      if recovery.sandboxWasCreated = true then 0 else 1 := by
  induction operations generalizing recovery with
  | nil => simp
  | cons operation rest ih =>
    simp only [applyAll, bind_eq_ok, apply_eq_ok] at happly
    obtain ⟨next, ⟨hbegin, rfl⟩, hrest⟩ := happly
    have hlater := ih hrest
    rw [sandboxWasCreated_after] at hlater
    rw [List.countP_cons]
    cases hcreate : operation.isAppliedCreate with
    | false => simpa [hcreate] using hlater
    | true =>
      have hkind : operation.kind = .createSandbox := by
        simp only [ProviderOperation.isAppliedCreate, Bool.and_eq_true,
          decide_eq_true_eq] at hcreate
        exact hcreate.1
      rw [hkind] at hbegin
      simp only [canBegin, Bool.and_eq_true, Bool.not_eq_true'] at hbegin
      simp only [hcreate, Bool.or_true, if_true] at hlater
      simp [hbegin.1, Nat.le_zero.mp hlater]

end ProviderRecoveryState

theorem compactWindow_isOk {checkpoint : ProviderRecoveryState}
    {operations : List ProviderOperation}
    (hwindow : ProviderWindow operations)
    (happly : checkpoint.applyAll operations = .ok recovery)
    (hcount : checkpoint.compactedOperations + 1 < 2 ^ 64) :
    ∃ result, SlotSnapshot.compactWindow checkpoint operations = .ok result := by
  have htwo : 1 < maxProviderOperationsPerSlot := by decide
  by_cases hfull : maxProviderOperationsPerSlot ≤ operations.length
  · cases operations with
    | nil => simp at hfull; omega
    | cons oldest =>
      obtain ⟨-, hlast, -⟩ := wellOrdered_cons.mp hwindow
      have hresolved : oldest.isPending = false := by
        by_contra hpending
        have hempty := hlast (by simpa using hpending)
        simp only [hempty, List.length_singleton] at hfull
        omega
      simp only [applyAll, bind_eq_ok, apply_eq_ok] at happly
      obtain ⟨next, ⟨hbegin, -⟩, -⟩ := happly
      exact ⟨_, SlotSnapshot.compactWindow_eq_ok.mpr (.inr ⟨hfull, oldest, rfl, compact_eq_ok.mpr
          ⟨hresolved, hbegin, hcount, rfl⟩⟩)⟩
  · exact ⟨_, SlotSnapshot.compactWindow_eq_ok.mpr (.inl ⟨not_le.mp hfull, rfl, rfl⟩)⟩

/-- The window and its checkpoint stand for the complete history. -/
structure SagaRefinement (history : List ProviderOperation)
    (slot : SlotSnapshot) : Prop where
  refines :
    ∃ evicted full recovery, history = evicted ++ slot.providerOperations ∧
        ProviderRecoveryState.initial.applyAll history = .ok full ∧
        full.compactedOperations = 0 ∧
        slot.providerCheckpoint.applyAll slot.providerOperations = .ok recovery ∧
        recovery = full.withCount evicted.length ∧
        slot.sandbox.isSome = full.sandboxLive
  bounded :
    slot.providerOperations.length ≤ maxProviderOperationsPerSlot
  compacts :
    slot.providerCheckpoint.compactedOperations + 1 < 2 ^ 64 →
      ∃ result, SlotSnapshot.compactWindow slot.providerCheckpoint
        slot.providerOperations = .ok result
  created : history.countP ProviderOperation.isAppliedCreate ≤ 1
  pendingLast :
    ∀ operation ∈ history.dropLast, operation.isPending = false

theorem SagaInvariant.refinement (hsaga : SagaInvariant history evicted base recovery slot) :
    SagaRefinement history slot := by
  have heffect := hsaga.windowEffect
  rw [hsaga.checkpoint] at heffect
  have hwindow := applyAll_of_withCount heffect
  have hcount := compactedOperations_applyAll heffect
  have hfull : initial.applyAll history = .ok (recovery.withCount base.compactedOperations) := by
    rw [hsaga.split, applyAll_append]
    exact ⟨base, hsaga.evictedEffect, hwindow⟩
  refine ⟨⟨evicted, _, recovery, hsaga.split, hfull,
    compactedOperations_applyAll hfull, hsaga.windowEffect, ?_, hsaga.sandbox⟩, hsaga.bounded,
    compactWindow_isOk hsaga.window hsaga.windowEffect, ?_, ?_⟩
  · rw [show evicted.length = recovery.compactedOperations from hcount.symm]
    rfl
  · exact count_isAppliedCreate_le hfull
  · intro operation hmem
    rw [hsaga.split] at hmem
    by_cases hempty : slot.providerOperations = []
    · rw [hempty, List.append_nil] at hmem
      exact hsaga.evictedResolved operation (List.mem_of_mem_dropLast hmem)
    · rw [List.dropLast_append_of_ne_nil hempty, List.mem_append] at hmem
      rcases hmem with hearlier | hlater
      · exact hsaga.evictedResolved operation hearlier
      · exact hsaga.window.resolved operation hlater

/-- Every history of a slot is refined by its compacted snapshot, and the
window of a validated slot can be compacted. -/
theorem SlotRun.compaction_refines_history {runnerId : RunnerId}
    {sessionId : RunnerSessionId} {offer : LeaseOfferRecord}
    {events : List SlotEvent} {slot : SlotSnapshot}
    (hrun : SlotRun runnerId sessionId offer events slot) :
    SagaRefinement (providerHistory events) slot ∧
      ∀ (other : SlotSnapshot) (session : SessionSnapshot),
        other.validate runnerId session = .ok () →
          other.providerCheckpoint.compactedOperations + 1 < 2 ^ 64 →
            ∃ result, SlotSnapshot.compactWindow other.providerCheckpoint
              other.providerOperations = .ok result := by
  obtain ⟨evicted, base, recovery, hsaga⟩ := hrun.sagaInvariant
  refine ⟨hsaga.refinement, ?_⟩
  intro other session hvalidate hcount
  have hvalid := (SlotSnapshot.validate_eq_ok.mp hvalidate).provider
  obtain ⟨recovered, hreplay, -⟩ := hvalid.recovery
  exact compactWindow_isOk hvalid.window hreplay hcount

namespace Sample

def failedCreation (number : Nat) : List SlotEvent :=
  [.mutated (.recordProviderIntent ⟨operation number, .createSandbox, .pending⟩),
    .mutated (.failProviderOperation (operation number) (.knownNoEffect .unavailable))]

def failedCreations : List SlotEvent :=
  adoption ++ (List.range 33).flatMap fun index =>
    failedCreation (10 + index)

theorem failedCreations_admitted :
    ∀ event ∈ failedCreations, event.Addressed runner session offer ∧ event.Bounded := by
  decide +kernel

theorem failedCreations_received :
    ((SlotSnapshot.fromOffer offer).receiveAll failedCreations).isSome = true := by
  decide +kernel

end Sample

theorem SlotRun.compaction_refines_failedCreations :
    ∃ slot, SlotRun Sample.runner Sample.session Sample.offer Sample.failedCreations slot ∧
        SagaRefinement (providerHistory Sample.failedCreations) slot := by
  obtain ⟨slot, hslot⟩ := Option.isSome_iff_exists.mp Sample.failedCreations_received
  have hrun := SlotRun.offered.receiveAll Sample.failedCreations_admitted hslot
  exact ⟨slot, hrun, (SlotRun.compaction_refines_history hrun).1⟩

/-- The compacted recovery state counts the evicted operations, which the
fold over the complete history does not. -/
theorem SlotRun.compaction_counts_evicted :
    ∃ slot window full, SlotRun Sample.runner Sample.session Sample.offer
          Sample.failedCreations slot ∧
        slot.validate Sample.runner Sample.sessionSnapshot = .ok () ∧
        slot.providerCheckpoint.applyAll slot.providerOperations = .ok window ∧
        ProviderRecoveryState.initial.applyAll (providerHistory Sample.failedCreations) = .ok full ∧
        window ≠ full := by
  obtain ⟨slot, hslot⟩ := Option.isSome_iff_exists.mp Sample.failedCreations_received
  have hrun := SlotRun.offered.receiveAll Sample.failedCreations_admitted hslot
  have hfacts :
      ((SlotSnapshot.fromOffer Sample.offer).receiveAll Sample.failedCreations).map (fun slot =>
        (slot.validate Sample.runner Sample.sessionSnapshot,
          slot.providerCheckpoint.applyAll slot.providerOperations)) =
        some (.ok (), .ok ⟨1, false, false, false⟩) := by
    decide +kernel
  rw [hslot, Option.map_some, Option.some.injEq, Prod.mk.injEq] at hfacts
  exact ⟨slot, _, ⟨0, false, false, false⟩, hrun, hfacts.1, hfacts.2, by decide +kernel, by decide⟩

end AutomataCi
