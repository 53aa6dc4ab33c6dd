import AutomataCi.SlotValidity

/-!
# Valid journals

What the validation of a session and of a stored journal accepts.  The loops
of the source carry the last key and the set of keys seen so far; what they
accept is a sorted list with distinct keys.
-/

namespace AutomataCi

open GuardedResult KeyedList

namespace CommandTombstone

def position (tombstone : CommandTombstone) : Nat :=
  tombstone.command.sequence.get

def operationId (tombstone : CommandTombstone) : OperationId :=
  tombstone.command.operationId

end CommandTombstone

variable {operations : List OperationId}

theorem validateTombstones_eq_ok {tombstones : List CommandTombstone}
    {previous : Option CommandSequence} {result : Unit} :
    validateTombstones previous operations tombstones = .ok result ↔
      SortedAbove CommandTombstone.position (previous.map CommandSequence.get) tombstones ∧
        Fresh operations (tombstones.map CommandTombstone.operationId) := by
  induction tombstones generalizing previous operations with
  | nil => simp [validateTombstones, sortedAbove_nil, fresh_nil]
  | cons tombstone rest ih =>
    simp only [validateTombstones, bind_eq_ok, rejectIf_eq_ok, exists_const, ih, sortedAbove_cons,
      List.map_cons, fresh_cons, not_or, not_exists, not_and, not_le, Option.map_some,
      Option.mem_map, forall_exists_index, and_imp, forall_apply_eq_imp_iff₂,
      CommandTombstone.position, CommandTombstone.operationId]
    tauto

theorem validateCheckpoints_eq_ok {checkpoints : List LeasePollCheckpoint}
    {previous : Option RunnerSlotOrdinal} {result : Unit} :
    validateCheckpoints previous operations checkpoints = .ok result ↔ (∀ checkpoint ∈ checkpoints,
        checkpoint.slot.get ≤ maxJournaledSlots ∧
          validateAuthorityReceipts checkpoint.pendingAuthorityReceipts = .ok ()) ∧
        SortedAbove LeasePollCheckpoint.ordinal (previous.map RunnerSlotOrdinal.get) checkpoints ∧
        Fresh operations (checkpoints.flatMap LeasePollCheckpoint.operations) := by
  induction checkpoints generalizing previous operations with
  | nil => simp [validateCheckpoints, sortedAbove_nil, fresh_nil]
  | cons checkpoint rest ih =>
    have hoperations :
        Fresh operations checkpoint.operations ↔ checkpoint.currentOperationId ∉ operations ∧
            ∀ operation ∈ checkpoint.acknowledgesOperationId,
              operation ∉ checkpoint.currentOperationId :: operations := by
      rw [LeasePollCheckpoint.operations, fresh_cons]
      cases checkpoint.acknowledgesOperationId <;> simp [Fresh]
    simp only [validateCheckpoints, bind_eq_ok, rejectIf_eq_ok, exists_and_right, exists_eq_ok_unit,
      exists_const, ih, sortedAbove_cons, List.flatMap_cons, fresh_append, hoperations, not_or,
      not_exists, not_and, not_le, not_lt, Option.map_some, Option.mem_map, forall_exists_index,
      and_imp, forall_apply_eq_imp_iff₂, List.forall_mem_cons, LeasePollCheckpoint.ordinal]
    tauto

namespace SessionSnapshot

/-- What `validate_session` checks. -/
structure Valid (session : SessionSnapshot) : Prop where
  protocol :
    supportedProtocolRangeContains session.selectedProtocol = true
  jobIr : currentJobIrRangeSupports session.selectedJobIr = true
  tombstoneCount :
    session.commandTombstones.length ≤ maxCommandTombstones
  checkpointCount :
    session.leasePollCheckpoints.length ≤ maxJournaledSlots
  tombstonesSorted :
    SortedBy CommandTombstone.position session.commandTombstones
  tombstonesDistinct :
    (session.commandTombstones.map CommandTombstone.operationId).Nodup
  cursor :
    session.commandCursor.acknowledgedThrough = session.commandTombstones.getLast?.map
        fun tombstone => tombstone.command.sequence
  checkpoints :
    ∀ checkpoint ∈ session.leasePollCheckpoints, checkpoint.slot.get ≤ maxJournaledSlots ∧
        validateAuthorityReceipts checkpoint.pendingAuthorityReceipts = .ok ()
  checkpointsSorted :
    SortedBy LeasePollCheckpoint.ordinal session.leasePollCheckpoints
  pollOperationsDistinct :
    (session.leasePollCheckpoints.flatMap
      LeasePollCheckpoint.operations).Nodup

theorem validate_eq_ok {session : SessionSnapshot} {result : Unit} :
    validateSession session = .ok result ↔ session.Valid := by
  simp only [validateSession, bind_eq_ok, rejectIf_eq_ok, exists_const,
    validateTombstones_eq_ok, validateCheckpoints_eq_ok, Option.map_none, sortedAbove_none,
    fresh_nil_seen, not_or, not_lt, not_not, Bool.not_eq_false]
  constructor
  · rintro ⟨⟨hprotocol, hjobIr, htombstones, hcheckpoints⟩,
      ⟨hsorted, hdistinct⟩, hcursor, hvalid, hslots, hoperations⟩
    exact ⟨hprotocol, hjobIr, htombstones, hcheckpoints, hsorted, hdistinct,
      hcursor, hvalid, hslots, hoperations⟩
  · intro hvalid
    exact ⟨⟨hvalid.protocol, hvalid.jobIr, hvalid.tombstoneCount, hvalid.checkpointCount⟩,
      ⟨hvalid.tombstonesSorted, hvalid.tombstonesDistinct⟩, hvalid.cursor,
      hvalid.checkpoints, hvalid.checkpointsSorted,
      hvalid.pollOperationsDistinct⟩

end SessionSnapshot

namespace StoredJournal

/-- What the loop over the slots checks of one slot. -/
structure SlotValid (runnerId : RunnerId) (session : SessionSnapshot)
    (slot : SlotSnapshot) : Prop where
  ordinal : slot.slot.get ≤ maxJournaledSlots
  snapshot : slot.Valid runnerId session
  applied :
    ∀ command ∈ slot.commands, commandHasAppliedTombstoneOrIsOlder session command = true
  reached :
    ∀ command ∈ slot.commands, isBeyondCursor session command = false

def slotCommands (slots : List SlotSnapshot) : List DurableCommand :=
  slots.flatMap SlotSnapshot.commands

theorem validateSlots_eq_ok {runnerId : RunnerId}
    {session : SessionSnapshot} {slots : List SlotSnapshot}
    {previous : Option RunnerSlotOrdinal} {sequences : List CommandSequence}
    {operations : List OperationId} {result : Unit} :
    validateSlots runnerId (some session) previous sequences operations slots = .ok result ↔
      (∀ slot ∈ slots, SlotValid runnerId session slot) ∧ SortedAbove SlotSnapshot.ordinal
          (previous.map RunnerSlotOrdinal.get) slots ∧
        Fresh sequences ((slotCommands slots).map DurableCommand.sequence) ∧
        Fresh operations ((slotCommands slots).map DurableCommand.operationId) := by
  induction slots generalizing previous sequences operations with
  | nil => simp [validateSlots, sortedAbove_nil, slotCommands, fresh_nil]
  | cons slot rest ih =>
    have hslot :
        SlotValid runnerId session slot ↔ slot.slot.get ≤ maxJournaledSlots ∧
            slot.Valid runnerId session ∧
            (∀ command ∈ slot.commands, commandHasAppliedTombstoneOrIsOlder session command =
                true) ∧
            ∀ command ∈ slot.commands, isBeyondCursor session command = false :=
      ⟨fun h => ⟨h.ordinal, h.snapshot, h.applied, h.reached⟩,
        fun ⟨hordinal, hsnapshot, happlied, hreached⟩ =>
          ⟨hordinal, hsnapshot, happlied, hreached⟩⟩
    simp only [validateSlots, validateCommand, bind_eq_ok, okOr_eq_ok, rejectIf_eq_ok,
      ifPresent_eq_ok, SlotSnapshot.validate_eq_ok, exists_const, Option.some.injEq,
      exists_eq_left', ih, sortedAbove_cons, slotCommands, List.flatMap_cons, List.map_append,
      fresh_append, List.forall_mem_cons, hslot, Option.map_some, Option.mem_map,
      forall_exists_index, and_imp, forall_apply_eq_imp_iff₂, not_or, not_exists, not_and, not_le,
      not_lt, Bool.not_eq_true, Bool.not_eq_false, SlotSnapshot.ordinal]
    cases hcancel : slot.cancellation with
    | none =>
      simp only [SlotSnapshot.commands, hcancel, Option.map_none, Option.toList_none, List.map_cons,
        List.map_nil, fresh_cons, fresh_nil, List.forall_mem_cons, List.not_mem_nil,
        IsEmpty.forall_iff, implies_true, reduceCtorEq, Option.mem_def]
      tauto
    | some =>
      simp only [SlotSnapshot.commands, hcancel, Option.map_some, Option.toList_some, List.map_cons,
        List.map_nil, fresh_cons, fresh_nil, List.forall_mem_cons, List.not_mem_nil,
        IsEmpty.forall_iff, implies_true, Option.mem_def, Option.some.injEq, forall_eq']
      tauto

/-- What `validate` checks. -/
structure Valid (journal : StoredJournal) : Prop where
  schema : journal.schemaVersion = runnerJournalSchemaVersion
  slotCount : journal.slots.length ≤ maxJournaledSlots
  sessionPresent : journal.slots ≠ [] → journal.session ≠ none
  revision : journal.session.isSome = true → journal.revision ≠ 0
  session : ∀ session ∈ journal.session, session.Valid
  slots :
    ∀ session ∈ journal.session, ∀ slot ∈ journal.slots, SlotValid journal.runnerId session slot
  slotsSorted : SortedBy SlotSnapshot.ordinal journal.slots
  sequencesDistinct :
    ((slotCommands journal.slots).map DurableCommand.sequence).Nodup
  operationsDistinct :
    ((slotCommands journal.slots).map DurableCommand.operationId).Nodup

theorem validate_eq_ok {self : StoredJournal} {result : Unit} :
    self.validate = .ok result ↔ self.Valid := by
  simp only [validate, bind_eq_ok, rejectIf_eq_ok, ifPresent_eq_ok,
    exists_const, SessionSnapshot.validate_eq_ok, not_not, not_lt, not_and]
  cases hsession : self.session with
  | none =>
    constructor
    · rintro ⟨hschema, hcount, hpresent, hrevision, -, hslots⟩
      have hempty : self.slots = [] := by
        by_contra hne
        exact hpresent hne rfl
      exact ⟨hschema, hcount, by simp [hempty], by simp [hsession],
        by simp [hsession], by simp [hsession],
        by simp [hempty, SortedBy], by simp [hempty, slotCommands],
        by simp [hempty, slotCommands]⟩
    · intro hvalid
      have hempty : self.slots = [] := by
        by_contra hne
        exact hvalid.sessionPresent hne hsession
      refine ⟨hvalid.schema, hvalid.slotCount, by simp [hempty], by simp, by simp, ?_⟩
      rw [hempty]
      rfl
  | some session =>
    rw [validateSlots_eq_ok]
    simp only [Option.map_none, sortedAbove_none, fresh_nil_seen]
    constructor
    · rintro ⟨hschema, hcount, hpresent, hrevision, hvalid, hslots,
        hsorted, hsequences, hoperations⟩
      refine ⟨hschema, hcount, by simp [hsession],
        fun _ => hrevision rfl, ?_, ?_, hsorted, hsequences,
        hoperations⟩
      · rw [hsession]
        exact hvalid
      · rw [hsession]
        rintro found ⟨⟩
        exact hslots
    · intro hvalid
      refine ⟨hvalid.schema, hvalid.slotCount, by simp,
        fun _ => hvalid.revision (by simp [hsession]), ?_,
        hvalid.slots session hsession, hvalid.slotsSorted,
        hvalid.sequencesDistinct, hvalid.operationsDistinct⟩
      rw [← hsession]
      exact hvalid.session

end StoredJournal

end AutomataCi
