import AutomataCi.JournalHistories

/-!
# Phases of endpoint operations

The endpoint operations of a slot along every run of the journal.  They form
a serial log: an operation starts as accepted behind resolved ones, moves
along its phases and stays in the log until the slot is released.  A
cancelled slot has no accepted operation left, so that nothing is invoked
after a cancellation.  An orphaned slot keeps its accepted operation, and
`commitEndpointInvocation` does not look at the orphan record.
-/

namespace AutomataCi

open GuardedResult KeyedList SerialLog

/-! ## Phase changes of one operation -/

namespace EndpointOperation

variable {operation next : EndpointOperation}

/-- A later version of the same operation, at most one phase further. -/
def Follows (operation next : EndpointOperation) : Prop :=
  next = operation ∨ operation.Advances next

theorem Advances.operationId_eq (hadvances : operation.Advances next) :
    next.operationId = operation.operationId := by
  rw [hadvances.1]

variable {before after : EndpointOperationState}

theorem PhaseStep.isPending (hstep : PhaseStep before after) : before.isPending = true := by
  cases hstep <;> rfl

theorem PhaseStep.ne_accepted (hstep : PhaseStep before after) : after ≠ .accepted := by
  cases hstep <;> simp

theorem PhaseStep.accepted_of_committed (hstep : PhaseStep before .invocationCommitted) :
    before = .accepted := by
  cases hstep
  rfl

theorem Advances.of_commitInvocation (hcommit : operation.commitInvocation = .ok (true, next)) :
    operation.Advances next := by
  obtain ⟨hstate, rfl⟩ := of_changed (commitInvocation_eq_ok.mp hcommit)
  refine ⟨rfl, ?_⟩
  rw [hstate]
  exact .commit

theorem Advances.of_requestCancellation (hcancel : operation.requestCancellation = (true, next)) :
    operation.Advances next ∧ next.state ≠ .invocationCommitted := by
  have hcases := requestCancellation_eq.mp hcancel
  simp only [true_and, Bool.true_eq_false, false_and, or_false] at hcases
  rcases hcases with ⟨hstate, rfl⟩ | ⟨hstate, rfl⟩
  · refine ⟨⟨rfl, ?_⟩, by simp⟩
    rw [hstate]
    exact .cancelAccepted
  · refine ⟨⟨rfl, ?_⟩, by simp⟩
    rw [hstate]
    exact .requestCancel

theorem Advances.of_completeCancellation
    (hcomplete : operation.completeCancellation = .ok (true, next)) :
    operation.Advances next ∧ next.state ≠ .invocationCommitted := by
  obtain ⟨hstate, rfl⟩ := of_changed (completeCancellation_eq_ok.mp hcomplete)
  refine ⟨⟨rfl, ?_⟩, by simp⟩
  rw [hstate]
  exact .finishCancel

theorem Advances.of_abandon (habandon : operation.abandon = .ok (true, next)) :
    operation.Advances next ∧ next.state ≠ .invocationCommitted := by
  obtain ⟨hstate, rfl⟩ := of_changed (abandon_eq_ok.mp habandon)
  refine ⟨⟨rfl, ?_⟩, by simp⟩
  rcases hstate with hstate | hstate
  · rw [hstate]
    exact .abandonCommitted
  · rw [hstate]
    exact .abandonRequested

theorem Advances.of_recordResult {result : EndpointResultContentRef}
    (hrecord : operation.recordResult result = .ok (true, next)) :
    operation.Advances next ∧ next.state ≠ .invocationCommitted := by
  obtain ⟨hstate, rfl⟩ := of_changed ((recordResult_eq_ok.mp hrecord).2)
  refine ⟨⟨rfl, ?_⟩, by simp⟩
  rw [hstate]
  exact .complete result

end EndpointOperation

/-! ## What an event does to the operations of a slot -/

namespace SlotSnapshot

/-- The operations stay as they are, a new one is accepted, or one of them
moves to its next phase. -/
inductive EndpointChange (slot : SlotSnapshot) (event : SlotEvent)
    (operations : List EndpointOperation) : Prop where
  | kept (same : operations = slot.endpointOperations)
  | accepted (operation : EndpointOperation)
      (starts : operation.state = .accepted)
      (fresh :
        lookup EndpointOperation.operationId operation.operationId
          slot.endpointOperations = none)
      (notCancelled : slot.cancellation = none)
      (notOrphaned : slot.orphan = none)
      (idle : slot.endpointRecoveryPending = none)
      (appended : operations = slot.endpointOperations ++ [operation])
  | advanced (operation after : EndpointOperation)
      (present : operation ∈ slot.endpointOperations)
      (advances : operation.Advances after)
      (committed :
        after.state = .invocationCommitted →
          event = .mutated (.commitEndpointInvocation operation.operationId))
      (written :
        operations = replace EndpointOperation.operationId after
          slot.endpointOperations)

variable {slot : SlotSnapshot} {event : SlotEvent} {next : SlotSnapshot}

theorem EndpointChange.of_update {operationId : OperationId}
    {update : EndpointOperation → Except JournalInvariantError (Bool × EndpointOperation)}
    (hupdate : slot.EndpointUpdate operationId update next)
    (hadvances :
      ∀ operation after, update operation = .ok (true, after) → operation.Advances after ∧
          (after.state = .invocationCommitted →
            event = .mutated (.commitEndpointInvocation operationId))) :
    EndpointChange slot event next.endpointOperations := by
  obtain ⟨operation, after, hfound, hafter, rfl⟩ := hupdate
  obtain ⟨hmem, hid⟩ := lookup_mem hfound
  obtain ⟨hstep, hcommitted⟩ := hadvances operation after hafter
  rw [← hid] at hcommitted
  exact .advanced operation after hmem hstep hcommitted rfl

theorem EndpointChange.of_terminalized {updated : SlotSnapshot}
    (hchange : EndpointChange slot event updated.endpointOperations) :
    EndpointChange slot event
      updated.terminalizeOrphanAfterEndpointResolution.endpointOperations := by
  obtain ⟨lifecycle, hclosed⟩ := terminalize_eq updated
  rw [hclosed]
  exact hchange

theorem endpointRecoveryPending_eq_some {operation : EndpointOperation}
    (hpending : slot.endpointRecoveryPending = some operation) :
    ∃ front, slot.endpointOperations = front ++ [operation] ∧
      operation.isRecoveryPending = true := by
  rw [endpointRecoveryPending, Option.filter_eq_some_iff] at hpending
  obtain ⟨hlast, hstate⟩ := hpending
  obtain ⟨front, hfront⟩ := List.getLast?_eq_some_iff.mp hlast
  exact ⟨front, hfront, hstate⟩

theorem cancelPendingEndpointOperation_eq (hwindow : EndpointWindow slot.endpointOperations) :
    slot.cancelPendingEndpointOperation = slot.endpointOperations ∨
      ∃ operation after, operation ∈ slot.endpointOperations ∧
        operation.requestCancellation = (true, after) ∧
        slot.cancelPendingEndpointOperation = replace EndpointOperation.operationId after
            slot.endpointOperations := by
  unfold cancelPendingEndpointOperation
  cases hpending : slot.endpointRecoveryPending with
  | none => exact .inl rfl
  | some operation =>
    obtain ⟨front, hfront, -⟩ := endpointRecoveryPending_eq_some hpending
    cases hcancel : operation.requestCancellation with
    | mk changed after =>
      rw [hfront] at hwindow
      have hmem : operation ∈ slot.endpointOperations := by
        rw [hfront]
        simp
      cases changed with
      | true =>
        have hstep := (EndpointOperation.Advances.of_requestCancellation hcancel).1
        refine .inr ⟨operation, after, hmem, hcancel, ?_⟩
        simp only [hcancel, hfront, List.dropLast_concat,
          hwindow.replace_concat hstep.operationId_eq]
      | false =>
        have hsame : after = operation := by
          have hcases := EndpointOperation.requestCancellation_eq.mp hcancel
          simp only [Bool.false_eq_true, false_and, true_and, false_or] at hcases
          exact hcases.2.2
        left
        simp only [hcancel, hsame, hfront, List.dropLast_concat]

theorem EndpointChange.of_cancelled (hwindow : EndpointWindow slot.endpointOperations) :
    EndpointChange slot event slot.cancelPendingEndpointOperation := by
  rcases cancelPendingEndpointOperation_eq hwindow with
    hsame | ⟨operation, after, hmem, hcancel, hwritten⟩
  · exact .kept hsame
  · obtain ⟨hstep, hother⟩ := EndpointOperation.Advances.of_requestCancellation hcancel
    exact .advanced operation after hmem hstep (fun hcommitted => absurd hcommitted hother) hwritten

theorem receive_endpointChange (hwindow : EndpointWindow slot.endpointOperations)
    (hreceive : slot.receive event = .ok (true, next)) :
    EndpointChange slot event next.endpointOperations := by
  by_cases htouched : SlotComponent.endpoints ∈ event.touches
  · cases event with
    | orphaned => simp [SlotEvent.touches] at htouched
    | cancelled =>
      obtain rfl := receive_cancelled hreceive
      exact .of_cancelled hwindow
    | mutated mutation =>
      cases mutation with
      | acceptEndpointOperation operation =>
        obtain ⟨-, -, horphan, -, hstate, hfresh, hcancellation, hidle,
          -, rfl⟩ := acceptEndpointOperation_eq_true.mp hreceive
        exact .accepted operation hstate hfresh hcancellation horphan hidle rfl
      | commitEndpointInvocation =>
        apply EndpointChange.of_update (commitEndpointInvocation_eq_true.mp hreceive)
        intro operation after hcommit
        exact ⟨.of_commitInvocation hcommit, fun _ => rfl⟩
      | recordEndpointResult =>
        apply EndpointChange.of_update (recordEndpointResult_eq_true.mp hreceive)
        intro operation after hrecord
        have hstep := EndpointOperation.Advances.of_recordResult hrecord
        exact ⟨hstep.1, fun hcommitted => absurd hcommitted hstep.2⟩
      | recordEndpointCancellation =>
        obtain ⟨updated, hupdate, rfl⟩ := recordEndpointCancellation_eq_true.mp hreceive
        apply EndpointChange.of_terminalized
        apply EndpointChange.of_update hupdate
        intro operation after hcancel
        have hstep := EndpointOperation.Advances.of_requestCancellation (Except.ok.inj hcancel)
        exact ⟨hstep.1, fun hcommitted => absurd hcommitted hstep.2⟩
      | completeEndpointCancellation =>
        obtain ⟨-, updated, hupdate, rfl⟩ := completeEndpointCancellation_eq_true.mp hreceive
        apply EndpointChange.of_terminalized
        apply EndpointChange.of_update hupdate
        intro operation after hcomplete
        have hstep := EndpointOperation.Advances.of_completeCancellation hcomplete
        exact ⟨hstep.1, fun hcommitted => absurd hcommitted hstep.2⟩
      | abandonEndpointOperation =>
        obtain ⟨-, updated, hupdate, rfl⟩ := abandonEndpointOperation_eq_true.mp hreceive
        apply EndpointChange.of_terminalized
        apply EndpointChange.of_update hupdate
        intro operation after habandon
        have hstep := EndpointOperation.Advances.of_abandon habandon
        exact ⟨hstep.1, fun hcommitted => absurd hcommitted hstep.2⟩
      | _ => simp [SlotEvent.touches] at htouched
  · exact .kept (receive_agrees hreceive htouched)

end SlotSnapshot

/-! ## The invariant of the operations of a slot -/

namespace SlotSnapshot

/-- The operations form a serial log, and none of a cancelled slot is left
in its first phase. -/
structure EndpointInvariant (slot : SlotSnapshot) : Prop where
  window : EndpointWindow slot.endpointOperations
  quiet :
    slot.cancellation ≠ none → ∀ operation ∈ slot.endpointOperations, operation.state ≠ .accepted

variable {slot : SlotSnapshot} {event : SlotEvent}

theorem EndpointChange.window {operations : List EndpointOperation}
    (hwindow : EndpointWindow slot.endpointOperations)
    (hchange : EndpointChange slot event operations) : EndpointWindow operations := by
  cases hchange with
  | kept same => rwa [same]
  | accepted operation starts fresh notCancelled notOrphaned idle appended =>
    rw [appended]
    apply hwindow.concat
    · intro other hother
      exact lookup_eq_none_iff.mp fresh other hother
    · intro other hother
      rw [endpointRecoveryPending, Option.filter_eq_none_iff] at idle
      simpa using idle other hother
  | advanced operation after present advances committed written =>
    rw [written]
    apply hwindow.replace present advances.operationId_eq
    intro _
    exact advances.2.isPending

theorem cancelPendingEndpointOperation_ne_accepted {operation : EndpointOperation}
    (hwindow : EndpointWindow slot.endpointOperations)
    (hmem : operation ∈ slot.cancelPendingEndpointOperation) : operation.state ≠ .accepted := by
  intro haccepted
  have hstate : operation.isRecoveryPending = true := by
    rw [EndpointOperation.isRecoveryPending, haccepted]
    rfl
  unfold cancelPendingEndpointOperation at hmem
  cases hpending : slot.endpointRecoveryPending with
  | none =>
    simp only [hpending] at hmem
    have hlast := hwindow.getLast_of_pending hmem hstate
    simp [endpointRecoveryPending, hlast, hstate] at hpending
  | some pending =>
    simp only [hpending, List.mem_append, List.mem_singleton] at hmem
    rcases hmem with hearlier | rfl
    · simp [hwindow.resolved operation hearlier] at hstate
    · revert haccepted
      unfold EndpointOperation.requestCancellation
      cases hphase : pending.state <;> simp [hphase]

theorem EndpointInvariant.receive {next : SlotSnapshot} (hinvariant : slot.EndpointInvariant)
    (hreceive : slot.receive event = .ok (true, next)) : next.EndpointInvariant := by
  have hchange := receive_endpointChange hinvariant.window hreceive
  refine ⟨hchange.window hinvariant.window, ?_⟩
  intro hcancelled operation hmem
  by_cases htouched : SlotComponent.cancellation ∈ event.touches
  · cases event with
    | orphaned => simp [SlotEvent.touches] at htouched
    | cancelled =>
      obtain rfl := receive_cancelled hreceive
      exact cancelPendingEndpointOperation_ne_accepted hinvariant.window hmem
    | mutated mutation => cases mutation <;> simp [SlotEvent.touches] at htouched
  · have hsame : next.cancellation = slot.cancellation := receive_agrees hreceive htouched
    rw [hsame] at hcancelled
    have hquiet := hinvariant.quiet hcancelled
    cases hchange with
    | kept same => exact hquiet operation (same ▸ hmem)
    | accepted fresh starts absent notCancelled => exact absurd notCancelled hcancelled
    | advanced moved after present advances committed written =>
      rw [written] at hmem
      rcases mem_replace.mp hmem with ⟨hold, -⟩ | ⟨rfl, -⟩
      · exact hquiet operation hold
      · exact advances.2.ne_accepted

end SlotSnapshot

theorem SlotRun.endpointInvariant {runnerId : RunnerId}
    {sessionId : RunnerSessionId} {offer : LeaseOfferRecord}
    {events : List SlotEvent} {slot : SlotSnapshot}
    (hrun : SlotRun runnerId sessionId offer events slot) :
    slot.EndpointInvariant := by
  induction hrun with
  | offered => exact ⟨WellOrdered.nil, by simp [SlotSnapshot.fromOffer]⟩
  | step before addressed bounded received ih => exact ih.receive received

/-! ## One event -/

namespace SlotSnapshot

/-- What an event may do to the endpoint operations of a slot. -/
structure EndpointStep (before after : SlotSnapshot) : Prop where
  phases :
    ∃ continued accepted, after.endpointOperations = continued ++ accepted ∧
        List.Forall₂ EndpointOperation.Follows before.endpointOperations
          continued ∧
        accepted.length ≤ 1 ∧
        ∀ operation ∈ accepted, operation.state = .accepted
  completed :
    ∀ operation ∈ before.endpointOperations, ∀ result, operation.state = .completed result →
        operation ∈ after.endpointOperations
  closed :
    before.cancellation ≠ none ∨ before.orphan ≠ none → ∀ operation ∈ after.endpointOperations,
        operation.state = .accepted ∨ operation.state = .invocationCommitted →
          operation ∈ before.endpointOperations
  cancelled : before.cancellation ≠ none → after.cancellation ≠ none
  orphaned : before.orphan ≠ none → after.orphan ≠ none
  serial :
    ∀ operation ∈ after.endpointOperations, operation.isRecoveryPending = true →
        after.endpointOperations.getLast? = some operation
  distinct :
    (after.endpointOperations.map EndpointOperation.operationId).Nodup

variable {slot : SlotSnapshot}

theorem EndpointStep.refl (hinvariant : slot.EndpointInvariant) : EndpointStep slot slot where
  phases :=
    ⟨slot.endpointOperations, [], by simp,
      List.forall₂_same.mpr fun _ _ => Or.inl rfl, by simp, by simp⟩
  completed := fun _ hmem _ _ => hmem
  closed := fun _ _ hmem _ => hmem
  cancelled := id
  orphaned := id
  serial := fun _ hmem => hinvariant.window.getLast_of_pending hmem
  distinct := hinvariant.window.distinct

variable {event : SlotEvent} {next : SlotSnapshot} {operation : EndpointOperation}

theorem receive_cancellation_ne_none (hreceive : slot.receive event = .ok (true, next))
    (hcancelled : slot.cancellation ≠ none) : next.cancellation ≠ none := by
  by_cases htouched : SlotComponent.cancellation ∈ event.touches
  · cases event with
    | orphaned => simp [SlotEvent.touches] at htouched
    | cancelled =>
      obtain rfl := receive_cancelled hreceive
      simp
    | mutated mutation =>
      cases mutation <;> simp [SlotEvent.touches] at htouched
  · have hsame : next.cancellation = slot.cancellation := receive_agrees hreceive htouched
    rwa [hsame]

theorem receive_orphan_ne_none (hreceive : slot.receive event = .ok (true, next))
    (horphan : slot.orphan ≠ none) : next.orphan ≠ none := by
  by_cases htouched : SlotComponent.orphan ∈ event.touches
  · cases event with
    | cancelled => simp [SlotEvent.touches] at htouched
    | orphaned =>
      obtain ⟨-, rfl⟩ := authorizeOrphan_eq_true.mp hreceive
      simp
    | mutated mutation =>
      cases mutation with
      | abandonOrphanDelivery =>
        obtain ⟨-, -, -, -, -, rfl⟩ := abandonOrphanDelivery_eq_true.mp hreceive
        simp
      | _ => simp [SlotEvent.touches] at htouched
  · have hsame : next.orphan = slot.orphan := receive_agrees hreceive htouched
    rwa [hsame]

variable {operations : List EndpointOperation}

theorem EndpointChange.phases (hwindow : EndpointWindow slot.endpointOperations)
    (hchange : EndpointChange slot event operations) :
    ∃ continued accepted, operations = continued ++ accepted ∧
        List.Forall₂ EndpointOperation.Follows slot.endpointOperations continued ∧
        accepted.length ≤ 1 ∧
        ∀ operation ∈ accepted, operation.state = .accepted := by
  cases hchange with
  | kept same =>
    exact ⟨slot.endpointOperations, [], by simp [same],
      List.forall₂_same.mpr fun _ _ => Or.inl rfl, by simp, by simp⟩
  | accepted operation starts fresh notCancelled notOrphaned idle appended =>
    exact ⟨slot.endpointOperations, [operation], appended,
      List.forall₂_same.mpr fun _ _ => Or.inl rfl, by simp,
      by simpa using starts⟩
  | advanced operation after present advances committed written =>
    refine ⟨operations, [], by simp, ?_, by simp, by simp⟩
    rw [written]
    refine forall₂_replace (fun _ => Or.inl rfl) ?_
    intro other hother hid
    have hsame : other = operation := eq_of_mem_of_key_eq hwindow.distinct hother present
        (hid.trans advances.operationId_eq)
    rw [hsame]
    exact Or.inr advances

theorem EndpointChange.completed {result : EndpointResultContentRef}
    (hwindow : EndpointWindow slot.endpointOperations)
    (hchange : EndpointChange slot event operations) (hmem : operation ∈ slot.endpointOperations)
    (hcompleted : operation.state = .completed result) : operation ∈ operations := by
  cases hchange with
  | kept same => rwa [same]
  | accepted fresh starts absent notCancelled notOrphaned idle appended =>
    rw [appended]
    exact List.mem_append_left _ hmem
  | advanced moved after present advances committed written =>
    rw [written]
    refine mem_replace.mpr (Or.inl ⟨hmem, ?_⟩)
    intro hid
    have hsame : operation = moved := eq_of_mem_of_key_eq hwindow.distinct hmem present
        (hid.trans advances.operationId_eq)
    have hpending := advances.2.isPending
    rw [← hsame, hcompleted] at hpending
    simp [EndpointOperationState.isPending] at hpending

/-- Nothing is accepted or invoked in a closed slot, unless an invocation is
committed after the slot was orphaned. -/
theorem EndpointChange.closed (hinvariant : slot.EndpointInvariant)
    (hchange : EndpointChange slot event operations)
    (hguarded :
      ∀ operationId, event = .mutated (.commitEndpointInvocation operationId) → slot.orphan = none)
    (hclosed : slot.cancellation ≠ none ∨ slot.orphan ≠ none) (hmem : operation ∈ operations)
    (hentered : operation.state = .accepted ∨ operation.state = .invocationCommitted) :
    operation ∈ slot.endpointOperations := by
  cases hchange with
  | kept same => rwa [same] at hmem
  | accepted fresh starts absent notCancelled notOrphaned =>
    rcases hclosed with hcancelled | horphaned
    · exact absurd notCancelled hcancelled
    · exact absurd notOrphaned horphaned
  | advanced moved after present advances committed written =>
    rw [written] at hmem
    rcases mem_replace.mp hmem with ⟨hold, -⟩ | ⟨rfl, -⟩
    · exact hold
    rcases hentered with haccepted | hcommitted
    · exact absurd haccepted advances.2.ne_accepted
    · have hstep := advances.2
      rw [hcommitted] at hstep
      rcases hclosed with hcancelled | horphaned
      · exact absurd hstep.accepted_of_committed (hinvariant.quiet hcancelled moved present)
      · exact absurd (hguarded _ (committed hcommitted)) horphaned

theorem EndpointStep.of_receive (hinvariant : slot.EndpointInvariant)
    (hreceive : slot.receive event = .ok (true, next))
    (hguarded : ∀ operationId, event = .mutated (.commitEndpointInvocation operationId) →
          slot.orphan = none) : EndpointStep slot next := by
  have hchange := receive_endpointChange hinvariant.window hreceive
  have hwindow := (hinvariant.receive hreceive).window
  exact {
    phases := hchange.phases hinvariant.window
    completed := fun _ hmem _ => hchange.completed hinvariant.window hmem
    closed := fun hclosed _ hmem =>
      hchange.closed hinvariant hguarded hclosed hmem
    cancelled := receive_cancellation_ne_none hreceive
    orphaned := receive_orphan_ne_none hreceive
    serial := fun _ hmem => hwindow.getLast_of_pending hmem
    distinct := hwindow.distinct }

end SlotSnapshot

namespace StoredJournal

variable {self : StoredJournal} {before after : SlotSnapshot}

theorem slotAt_withSlot {slot : RunnerSlotOrdinal}
    (hsorted : SortedBy SlotSnapshot.ordinal self.slots) (hat : self.slotAt slot = some before)
    (hoffer : after.offer = before.offer) : (self.withSlot after).slotAt slot = some after := by
  have hslot : slot.get = after.ordinal := by
    have hbefore := (lookup_mem hat).2
    simp only [SlotSnapshot.ordinal, SlotSnapshot.slot, hoffer] at *
    exact hbefore.symm
  unfold slotAt at hat ⊢
  rw [withSlot, lookup_replace hsorted.nodup, if_pos hslot, hat, Option.map_some]

end StoredJournal

end AutomataCi
