import AutomataCi.CommandStream
import AutomataCi.SlotPreservation

/-!
# Journal mutations and the validity of the journal

The validation which is repeated before a mutation becomes durable accepts
what the checks of the mutation accepted, except for a session with an
unsupported protocol and for the four slot mutations whose checks are weaker
than the validation.
-/

namespace AutomataCi

open GuardedResult KeyedList LeasePollCheckpoint

/-! ## The session of a slot -/

namespace SlotSnapshot

variable {runnerId : RunnerId}

theorem Valid.congr_session {slot : SlotSnapshot} {session later : SessionSnapshot}
    (hvalid : slot.Valid runnerId session) (hid : later.sessionId = session.sessionId)
    (hjobIr : later.selectedJobIr = session.selectedJobIr) : slot.Valid runnerId later :=
  { hvalid with
    jobIr := hvalid.jobIr.trans hjobIr.symm
    orphan := fun orphan horphan =>
      { hvalid.orphan orphan horphan with
        session := (hvalid.orphan orphan horphan).session.trans hid.symm } }

theorem valid_fromOffer {offer : LeaseOfferRecord} {session : SessionSnapshot}
    (hoffer : offer.validate = .ok ()) (hrunner : offer.lease.runnerId = runnerId)
    (hjobIr : offer.jobIr.version = session.selectedJobIr) :
    (SlotSnapshot.fromOffer offer).Valid runnerId session where
  offer := hoffer
  authority := by simp [fromOffer]
  runner := hrunner
  jobIr := hjobIr
  expires := le_rfl
  providerCount := Nat.zero_le _
  endpoints :=
    { count := Nat.zero_le _
      accepted := by simp [fromOffer]
      operations := by simp [fromOffer]
      window := SerialLog.WellOrdered.nil
      refs := Nat.zero_le _
      bytes := Nat.zero_le _
      settled := fun _ => rfl }
  provider :=
    { accepted := by simp [fromOffer]
      authority := by simp [fromOffer]
      coherent := rfl
      window := SerialLog.WellOrdered.nil
      recovery := ⟨.initial, rfl, rfl⟩ }
  rejection := rfl
  timestamps := validateDeliveryTimestamps_eq_ok.mpr (by simp [fromOffer])
  recorded := fun _ _ => rfl
  rejected := fun _ hrejected => by contradiction
  rejectedLog := fun _ => rfl
  terminalResult := by simp [fromOffer]
  resultPresent := fun haccepted => by contradiction
  orphan := by simp [fromOffer]
  cancellationOrder := by simp [fromOffer]
  cancelled := by simp [fromOffer]
  log := by simp [fromOffer]

theorem perform_keeps_commands {snapshot after : SlotSnapshot} {mutation : SlotMutation}
    (hperform : snapshot.perform mutation = .ok (true, after)) :
    after.offer = snapshot.offer ∧ after.cancellation = snapshot.cancellation := by
  have hreceive : snapshot.receive (.mutated mutation) = .ok (true, after) := hperform
  have hoffer : snapshot.Agrees after .offer := receive_agrees hreceive
      (by cases mutation <;> simp [SlotEvent.touches])
  have hcancellation : snapshot.Agrees after .cancellation := receive_agrees hreceive
      (by cases mutation <;> simp [SlotEvent.touches])
  exact ⟨hoffer, hcancellation⟩

end SlotSnapshot

namespace StoredJournal

variable {self next : StoredJournal} {session : SessionSnapshot}
  {sessionId : RunnerSessionId}

/-! ## Lease polls -/

variable {operationId : OperationId} {command held : DurableCommand}
  {disposition : CommandDisposition} {snapshot after : SlotSnapshot} {guard : LeaseGuard}

theorem leasePollOperationIsUsed_eq_false :
    session.leasePollOperationIsUsed operationId = false ↔
      operationId ∉ session.leasePollCheckpoints.flatMap LeasePollCheckpoint.operations := by
  simp only [SessionSnapshot.leasePollOperationIsUsed, operations, List.any_eq_false,
    List.mem_flatMap, List.mem_cons, Option.mem_toList, Bool.or_eq_true, decide_eq_true_eq,
    not_exists, not_and, not_or]
  refine forall₂_congr fun checkpoint _ => ?_
  rw [eq_comm (a := operationId)]

theorem Valid.withCheckpoints {checkpoints : List LeasePollCheckpoint}
    (hvalid : self.Valid) (hsession : self.session = some session)
    (hsorted : SortedBy LeasePollCheckpoint.ordinal checkpoints)
    (hcheckpoints : ∀ checkpoint ∈ checkpoints, checkpoint.slot.get ≤ maxJournaledSlots ∧
          validateAuthorityReceipts checkpoint.pendingAuthorityReceipts = .ok ())
    (hdistinct : (checkpoints.flatMap LeasePollCheckpoint.operations).Nodup) :
    (self.withSession { session with leasePollCheckpoints := checkpoints }).Valid :=
  { hvalid with
    sessionPresent := fun _ => Option.some_ne_none _
    revision := fun _ => hvalid.revision (by rw [hsession]; rfl)
    session := by
      intro current hcurrent
      rw [← Option.some.inj hcurrent]
      exact { hvalid.session session hsession with
        checkpointCount := by
          apply hsorted.length_le
          · intro checkpoint _
            exact checkpoint.slot.positive
          · intro checkpoint hmem
            exact (hcheckpoints checkpoint hmem).1
        checkpoints := hcheckpoints
        checkpointsSorted := hsorted
        pollOperationsDistinct := hdistinct }
    slots := by
      intro current hcurrent slot hslot
      rw [← Option.some.inj hcurrent]
      have hold := hvalid.slots session hsession slot hslot
      exact { hold with snapshot := hold.snapshot.congr_session rfl rfl } }

variable {slot : RunnerSlotOrdinal}

theorem Valid.prepareLeasePoll (hvalid : self.Valid)
    (hprepare : self.prepareLeasePoll sessionId slot operationId = .ok (true, next)) :
    next.Valid := by
  obtain ⟨session, hsession, -, hfree, hordinal, hunused, rfl⟩ :=
    prepareLeasePoll_eq_true.mp hprepare
  have hold := hvalid.session session hsession
  have hperm : (insert ordinal (first slot operationId) session.leasePollCheckpoints).Perm
        (.first slot operationId :: session.leasePollCheckpoints) :=
    insert_perm _ _
  apply hvalid.withCheckpoints hsession
  · apply hold.checkpointsSorted.insert
    intro checkpoint hmem
    exact lookup_eq_none_iff.mp hfree checkpoint hmem
  · intro checkpoint hmem
    rcases mem_insert.mp hmem with rfl | hmem
    · exact ⟨hordinal, rfl⟩
    · exact hold.checkpoints checkpoint hmem
  · rw [(hperm.flatMap_right _).nodup_iff, List.flatMap_cons]
    have hfirst : (first slot operationId).operations = [operationId] := rfl
    rw [hfirst, List.singleton_append, List.nodup_cons]
    exact ⟨leasePollOperationIsUsed_eq_false.mp hunused, hold.pollOperationsDistinct⟩

theorem Valid.withCheckpoint {checkpoint later : LeasePollCheckpoint} (hvalid : self.Valid)
    (hsession : self.session = some session)
    (hat : session.checkpointAt slot = some checkpoint)
    (hslot : later.slot = slot)
    (hreceipts : validateAuthorityReceipts later.pendingAuthorityReceipts = .ok ())
    (hdistinct : ((session.withCheckpoint later).leasePollCheckpoints.flatMap
        LeasePollCheckpoint.operations).Nodup) :
    (self.withSession (session.withCheckpoint later)).Valid := by
  have hold := hvalid.session session hsession
  obtain ⟨hmem, hordinal⟩ := lookup_mem hat
  have hbound := (hold.checkpoints checkpoint hmem).1
  apply hvalid.withCheckpoints hsession
  · exact hold.checkpointsSorted.of_map_key_eq (map_key_replace _ _)
  · intro other hother
    rcases mem_replace.mp hother with ⟨hkept, -⟩ | ⟨rfl, -⟩
    · exact hold.checkpoints other hkept
    · refine ⟨?_, hreceipts⟩
      rw [hslot, ← hordinal]
      exact hbound
  · exact hdistinct

theorem Valid.acknowledgeLeaseAuthorityReceipts
    {expected : List LeaseAuthorityPollReceipt} (hvalid : self.Valid)
    (hack : self.acknowledgeLeaseAuthorityReceipts sessionId slot expected = .ok (true, next)) :
    next.Valid := by
  obtain ⟨session, checkpoint, hsession, -, -, hat, -, -, rfl⟩ :=
    acknowledgeLeaseAuthorityReceipts_eq_true.mp hack
  have hold := hvalid.session session hsession
  obtain ⟨hmem, hordinal⟩ := lookup_mem hat
  apply hvalid.withCheckpoint hsession hat
  · cases hslot : checkpoint.slot
    cases slot
    simpa [ordinal, hslot] using hordinal
  · rfl
  · have hsame : (session.withCheckpoint { checkpoint with
          pendingAuthorityReceipts := [] }).leasePollCheckpoints.flatMap operations =
        session.leasePollCheckpoints.flatMap LeasePollCheckpoint.operations := by
      apply flatMap_replace
      intro other hother hkey
      rw [eq_of_mem_of_key_eq hold.checkpointsSorted.nodup hother hmem hkey]
      rfl
    rw [hsame]
    exact hold.pollOperationsDistinct

variable {changed : Bool}

theorem Valid.advanceLeasePoll {expectedCurrent successor : OperationId}
    {receipts : List LeaseAuthorityPollReceipt}
    (hvalid : self.Valid)
    (hadvance : self.advanceLeasePoll sessionId slot expectedCurrent successor
        receipts = .ok (changed, next)) :
    next.Valid := by
  obtain ⟨hreceipts, session, checkpoint, hsession, -, hat, hcase⟩ :=
    advanceLeasePoll_eq_ok.mp hadvance
  rcases hcase with ⟨-, hcurrent, hunused, rfl⟩ | ⟨-, -, -, -, rfl⟩
  · have hold := hvalid.session session hsession
    obtain ⟨hmem, hordinal⟩ := lookup_mem hat
    have hkeys := hold.checkpointsSorted.nodup
    have hfresh := leasePollOperationIsUsed_eq_false.mp hunused
    have hdistinct := hold.pollOperationsDistinct
    apply hvalid.withCheckpoint hsession hat rfl hreceipts
    obtain ⟨front, back, hsplit⟩ := List.append_of_mem hmem
    rw [hsplit] at hkeys hfresh hdistinct
    have hkey : checkpoint.ordinal = ordinal
        ⟨slot, successor, some expectedCurrent, receipts⟩ := hordinal
    have hwritten : (session.withCheckpoint ⟨slot, successor, some expectedCurrent,
          receipts⟩).leasePollCheckpoints =
        front ++ ⟨slot, successor, some expectedCurrent, receipts⟩ :: back := by
      rw [SessionSnapshot.withCheckpoint, hsplit, replace_split hkeys hkey]
    rw [hwritten]
    simp only [List.flatMap_append, List.flatMap_cons, operations, hcurrent, List.cons_append,
      Option.toList_some, List.nil_append] at hfresh hdistinct ⊢
    rw [List.perm_middle.nodup_iff, List.nodup_cons]
    constructor
    · intro hsame
      apply hfresh
      simp only [List.mem_append, List.mem_cons] at hsame ⊢
      tauto
    · have hback := (List.sublist_append_right checkpoint.acknowledgesOperationId.toList
          (back.flatMap operations)).cons_cons expectedCurrent
      exact List.Nodup.sublist (hback.append_left _) hdistinct
  · exact hvalid

/-! ## Server commands -/

theorem pushTombstone_eq {tombstones : List CommandTombstone} (tombstone : CommandTombstone)
    (hcount : tombstones.length ≤ maxCommandTombstones) :
    ∃ kept, pushTombstone tombstones tombstone = kept ++ [tombstone] ∧
      kept.length < maxCommandTombstones ∧
      (kept = tombstones ∨ ∃ oldest, tombstones = oldest :: kept) := by
  have hpositive : 0 < maxCommandTombstones := by decide
  unfold pushTombstone
  split
  · rename_i hfull
    rw [List.length_append, List.length_singleton] at hfull
    cases tombstones with
    | nil =>
      rw [List.length_nil] at hfull
      omega
    | cons oldest kept =>
      rw [List.length_cons] at hcount
      exact ⟨kept, rfl, by omega, .inr ⟨oldest, rfl⟩⟩
  · rename_i hroom
    rw [List.length_append, List.length_singleton] at hroom
    exact ⟨tombstones, rfl, by omega, .inl rfl⟩

theorem position_lt_of_next (hvalid : session.Valid)
    (hnext : session.commandCursor.next = some command.sequence) {tombstone : CommandTombstone}
    (hmem : tombstone ∈ session.commandTombstones) : tombstone.position < command.sequence.get := by
  obtain ⟨last, hlast⟩ := Option.ne_none_iff_exists'.mp (mt List.getLast?_eq_none_iff.mp
    (List.ne_nil_of_mem hmem))
  have hcursor := hvalid.cursor
  rw [hlast, Option.map_some] at hcursor
  have hget := CommandCursor.get_of_next_eq_some hnext hcursor
  have hle : tombstone.position ≤ last.command.sequence.get :=
    hvalid.tombstonesSorted.le_getLast hlast hmem
  omega

structure CommandAppended (session : SessionSnapshot)
    (command : DurableCommand) (disposition : CommandDisposition)
    (kept : List CommandTombstone) : Prop where
  tombstones :
    (withCommand session command disposition).commandTombstones = kept ++ [⟨command, disposition⟩]
  bounded : kept.length < maxCommandTombstones
  retained :
    kept = session.commandTombstones ∨ ∃ oldest, session.commandTombstones = oldest :: kept
  later :
    ∀ tombstone ∈ session.commandTombstones, tombstone.position < command.sequence.get

theorem commandAppended (hvalid : session.Valid)
    (hnext : session.commandCursor.next = some command.sequence) :
    ∃ kept, CommandAppended session command disposition kept := by
  obtain ⟨kept, hpush, hbounded, hretained⟩ :=
    pushTombstone_eq ⟨command, disposition⟩ hvalid.tombstoneCount
  refine ⟨kept, hpush, hbounded, hretained, ?_⟩
  intro tombstone hmem
  exact position_lt_of_next hvalid hnext hmem

namespace CommandAppended

variable {command : DurableCommand} {disposition : CommandDisposition}
  {kept : List CommandTombstone}

theorem sublist (happended : CommandAppended session command disposition kept) :
    kept.Sublist session.commandTombstones := by
  rcases happended.retained with rfl | ⟨oldest, hsplit⟩
  · exact .refl _
  · rw [hsplit]
    exact List.sublist_cons_self oldest kept

theorem valid (happended : CommandAppended session command disposition kept)
    (hvalid : session.Valid)
    (hunused :
      ∀ tombstone ∈ session.commandTombstones, tombstone.operationId ≠ command.operationId) :
    (withCommand session command disposition).Valid := by
  have hsublist := happended.sublist
  have hbounded := happended.bounded
  exact { hvalid with
    tombstoneCount := by
      rw [happended.tombstones, List.length_append, List.length_singleton]
      omega
    tombstonesSorted := by
      rw [happended.tombstones]
      apply SortedBy.concat
      · exact List.Pairwise.sublist hsublist hvalid.tombstonesSorted
      · intro tombstone hmem
        exact happended.later tombstone (hsublist.subset hmem)
    tombstonesDistinct := by
      rw [happended.tombstones, List.map_append, List.map_singleton, List.nodup_append]
      refine ⟨List.Nodup.sublist (hsublist.map _) hvalid.tombstonesDistinct,
        List.nodup_singleton _, ?_⟩
      intro found hfound other hother
      obtain ⟨tombstone, hmem, rfl⟩ := List.mem_map.mp hfound
      rw [List.mem_singleton] at hother
      rw [hother]
      exact hunused tombstone (hsublist.subset hmem)
    cursor := by
      rw [happended.tombstones, List.getLast?_concat]
      rfl }

theorem applied (happended : CommandAppended session command disposition kept)
    (hvalid : session.Valid) {held : DurableCommand}
    (happlied : commandHasAppliedTombstoneOrIsOlder session held = true) :
    commandHasAppliedTombstoneOrIsOlder (withCommand session command disposition) held = true := by
  have hsorted := hvalid.tombstonesSorted
  unfold commandHasAppliedTombstoneOrIsOlder at happlied ⊢
  rw [happended.tombstones]
  rcases happended.retained with hsame | ⟨oldest, hsplit⟩
  · rw [hsame]
    cases htombstones : session.commandTombstones with
    | nil => simp [htombstones] at happlied
    | cons =>
      rw [htombstones] at happlied
      simp only [List.head?_cons, Bool.or_eq_true, List.cons_append,
        List.any_cons, List.any_append] at happlied ⊢
      tauto
  · rw [hsplit] at hsorted happlied
    rw [SortedBy, List.pairwise_cons] at hsorted
    obtain ⟨head, hhead, hlater⟩ : ∃ head,
        (kept ++ [(⟨command, disposition⟩ : CommandTombstone)]).head? =
          some head ∧ oldest.position < head.position := by
      cases kept with
      | nil =>
        refine ⟨_, rfl, happended.later oldest ?_⟩
        rw [hsplit]
        exact List.mem_cons_self
      | cons first => exact ⟨first, rfl, hsorted.1 first List.mem_cons_self⟩
    rw [hhead]
    simp only [List.head?_cons, Bool.or_eq_true, decide_eq_true_eq,
      List.any_cons, List.any_append, Bool.and_eq_true] at happlied ⊢
    rcases happlied with holder | ⟨hcommand, -⟩ | hkept
    · left
      exact holder.trans hlater
    · left
      rw [← hcommand]
      exact hlater
    · exact .inr (.inl hkept)

theorem applied_new (happended : CommandAppended session command .applied kept) :
    commandHasAppliedTombstoneOrIsOlder (withCommand session command .applied) command = true := by
  unfold commandHasAppliedTombstoneOrIsOlder
  rw [happended.tombstones]
  cases kept <;> simp

end CommandAppended

theorem isBeyondCursor_withCommand :
    isBeyondCursor (withCommand session command disposition) held = false ↔
      held.sequence.get ≤ command.sequence.get := by
  simp [isBeyondCursor, withCommand, CommandCursor.through]

theorem lt_of_reached (hnext : session.commandCursor.next = some command.sequence)
    (hreached : isBeyondCursor session held = false) :
    held.sequence.get < command.sequence.get := by
  unfold isBeyondCursor at hreached
  cases hcursor : session.commandCursor.acknowledgedThrough with
  | none => simp [hcursor] at hreached
  | some =>
    have hget := CommandCursor.get_of_next_eq_some hnext hcursor
    simp only [hcursor, decide_eq_false_iff_not, not_lt] at hreached
    omega

theorem commandIsUsed_eq_false (hsession : self.session = some session)
    (hunused : self.commandIsUsed command = false) :
    (∀ tombstone ∈ session.commandTombstones, tombstone.operationId ≠ command.operationId) ∧
      ∀ slot ∈ self.slots, ∀ held ∈ slot.commands, held.operationId ≠ command.operationId := by
  simp only [commandIsUsed, hsession, Option.any_some, Bool.or_eq_false_iff, List.any_eq_false,
    decide_eq_true_eq, Bool.or_eq_true, not_or] at hunused
  refine ⟨hunused.1, ?_⟩
  intro slot hslot held hheld
  obtain ⟨hoffer, hcancellation⟩ := hunused.2 slot hslot
  rw [SlotSnapshot.commands, List.mem_cons, Option.mem_toList, Option.map_eq_some_iff] at hheld
  rcases hheld with rfl | ⟨cancellation, hmem, rfl⟩
  · exact hoffer
  · rw [hmem] at hcancellation
    simpa using hcancellation

/-- A committed command is newer than those which the slots hold. -/
structure CommandFresh (journal : StoredJournal) (command : DurableCommand) :
    Prop where
  sequence :
    ∀ held ∈ slotCommands journal.slots, held.sequence.get < command.sequence.get
  operation :
    ∀ held ∈ slotCommands journal.slots, held.operationId ≠ command.operationId

theorem Valid.commandFresh (hvalid : self.Valid) (hsession : self.session = some session)
    (hunused : self.commandIsUsed command = false)
    (hnext : session.commandCursor.next = some command.sequence) : self.CommandFresh command := by
  constructor
  · intro held hheld
    obtain ⟨slot, hslot, hheld⟩ := List.mem_flatMap.mp hheld
    exact lt_of_reached hnext ((hvalid.slots session hsession slot hslot).reached held hheld)
  · intro held hheld
    obtain ⟨slot, hslot, hheld⟩ := List.mem_flatMap.mp hheld
    exact (commandIsUsed_eq_false hsession hunused).2 slot hslot held hheld

theorem SlotValid.withCommand {slot : SlotSnapshot} {runnerId : RunnerId}
    {kept : List CommandTombstone} (hvalid : SlotValid runnerId session slot)
    (hsession : session.Valid) (happended : CommandAppended session command disposition kept)
    (hnext : session.commandCursor.next = some command.sequence) :
    SlotValid runnerId (withCommand session command disposition) slot where
  ordinal := hvalid.ordinal
  snapshot := hvalid.snapshot.congr_session rfl rfl
  applied held hheld := happended.applied hsession (hvalid.applied held hheld)
  reached held hheld :=
    isBeyondCursor_withCommand.mpr (lt_of_reached hnext (hvalid.reached held hheld)).le

theorem Valid.commitCommand (hvalid : self.Valid)
    (hcommit : self.commitCommand sessionId command disposition = .ok (true, next)) :
    next.Valid := by
  obtain ⟨session, hsession, -, -, hunused, hnext, rfl⟩ := commitCommand_eq_true.mp hcommit
  have hold := hvalid.session session hsession
  obtain ⟨kept, happended⟩ : ∃ kept, CommandAppended session command disposition kept :=
    commandAppended hold hnext
  exact { hvalid with
    sessionPresent := fun _ => Option.some_ne_none _
    revision := fun _ => hvalid.revision (by rw [hsession]; rfl)
    session := by
      intro current hcurrent
      rw [← Option.some.inj hcurrent]
      exact happended.valid hold (commandIsUsed_eq_false hsession hunused).1
    slots := by
      intro current hcurrent slot hslot
      rw [← Option.some.inj hcurrent]
      exact (hvalid.slots session hsession slot hslot).withCommand hold happended hnext }

/-! ## Slots -/

theorem Valid.withSlot {added : List DurableCommand} (hvalid : self.Valid)
    (hsession : self.session = some session) (hmem : snapshot ∈ self.slots)
    (hslot : after.slot = snapshot.slot) (hafter : SlotValid self.runnerId session after)
    (hcommands : after.commands.Perm (added ++ snapshot.commands))
    (hsequences : ((added ++ slotCommands self.slots).map DurableCommand.sequence).Nodup)
    (hoperations : ((added ++ slotCommands self.slots).map
        DurableCommand.operationId).Nodup) : (self.withSlot after).Valid := by
  have hkey : snapshot.ordinal = after.ordinal := by simp only [SlotSnapshot.ordinal, hslot]
  have hkeys : (self.withSlot after).slots.map SlotSnapshot.ordinal =
      self.slots.map SlotSnapshot.ordinal := map_key_replace after _
  have hpermuted : (slotCommands (self.withSlot after).slots).Perm
      (added ++ slotCommands self.slots) :=
    flatMap_replace_perm hvalid.slotsSorted.nodup hmem hkey hcommands
  exact { hvalid with
    slotCount := by
      rw [StoredJournal.withSlot, length_replace]
      exact hvalid.slotCount
    sessionPresent := by
      intro _
      have hpresent := hvalid.sessionPresent (List.ne_nil_of_mem hmem)
      exact hpresent
    slots := by
      intro current hcurrent slot hmember
      have hsame : session = current := Option.some.inj (hsession.symm.trans hcurrent)
      subst hsame
      rcases mem_replace.mp hmember with ⟨hold, -⟩ | ⟨rfl, -⟩
      · exact hvalid.slots session hsession slot hold
      · exact hafter
    slotsSorted := hvalid.slotsSorted.of_map_key_eq hkeys
    sequencesDistinct := (hpermuted.map _).nodup_iff.mpr hsequences
    operationsDistinct := (hpermuted.map _).nodup_iff.mpr hoperations }

theorem Valid.withSlot_iff (hvalid : self.Valid) (hsession : self.session = some session)
    (hmem : snapshot ∈ self.slots) (hoffer : after.offer = snapshot.offer)
    (hcancellation : after.cancellation = snapshot.cancellation) :
    (self.withSlot after).Valid ↔ after.Valid self.runnerId session := by
  have hold := hvalid.slots session hsession snapshot hmem
  have hcommands : after.commands = snapshot.commands := by
    simp only [SlotSnapshot.commands, hoffer, hcancellation]
  have hslot : after.slot = snapshot.slot := by simp only [SlotSnapshot.slot, hoffer]
  constructor
  · intro hnext
    have hkey : snapshot.ordinal = after.ordinal := by simp only [SlotSnapshot.ordinal, hslot]
    have hwritten : after ∈ (self.withSlot after).slots :=
      mem_replace.mpr (.inr ⟨rfl, snapshot, hmem, hkey⟩)
    exact (hnext.slots session hsession after hwritten).snapshot
  · intro hafter
    have hkept : after.commands.Perm ([] ++ snapshot.commands) := by
      rw [hcommands]
      exact .refl _
    refine hvalid.withSlot hsession hmem hslot ?_ hkept
      hvalid.sequencesDistinct hvalid.operationsDistinct
    exact
      { ordinal := by
          rw [hslot]
          exact hold.ordinal
        snapshot := hafter
        applied := by
          rw [hcommands]
          exact hold.applied
        reached := by
          rw [hcommands]
          exact hold.reached }

theorem Valid.withoutSlot (hvalid : self.Valid) : (self.withoutSlot slot).Valid := by
  have hsublist : (self.withoutSlot slot).slots.Sublist self.slots := List.filter_sublist
  have hcommands := hsublist.flatMap SlotSnapshot.commands
  exact { hvalid with
    slotCount := hsublist.length_le.trans hvalid.slotCount
    sessionPresent := by
      intro hoccupied
      apply hvalid.sessionPresent
      intro hempty
      rw [StoredJournal.withoutSlot, hempty] at hoccupied
      exact hoccupied rfl
    slots := by
      intro current hcurrent kept hkept
      exact hvalid.slots current hcurrent kept (hsublist.subset hkept)
    slotsSorted := hvalid.slotsSorted.sublist hsublist
    sequencesDistinct := hvalid.sequencesDistinct.sublist (hcommands.map _)
    operationsDistinct := hvalid.operationsDistinct.sublist (hcommands.map _) }

/-! ## Offers and cancellations -/

theorem CommandFresh.nodup (hfresh : self.CommandFresh command) (hvalid : self.Valid) :
    (([command] ++ slotCommands self.slots).map DurableCommand.sequence).Nodup ∧
      (([command] ++ slotCommands self.slots).map DurableCommand.operationId).Nodup := by
  simp only [List.singleton_append, List.map_cons, List.nodup_cons,
    List.mem_map, not_exists, not_and]
  refine ⟨⟨?_, hvalid.sequencesDistinct⟩, ?_, hvalid.operationsDistinct⟩
  · intro held hheld hsame
    have hlater := hfresh.sequence held hheld
    rw [hsame] at hlater
    exact lt_irrefl _ hlater
  · intro held hheld
    exact hfresh.operation held hheld

theorem Valid.recordOffer {offer : LeaseOfferRecord} (hvalid : self.Valid)
    (hoffer : self.recordOffer sessionId offer = .ok (true, next)) :
    next.Valid := by
  obtain ⟨session, committed, hsession, -, hchecked, hrunner, hjobIr,
    hordinal, hvacant, hroom, hcommit, rfl⟩ := recordOffer_eq_true.mp hoffer
  have hcommitted := hvalid.commitCommand hcommit
  obtain ⟨current, hcurrent, -, -, hunused, hnext, rfl⟩ := commitCommand_eq_true.mp hcommit
  have hsame : session = current := Option.some.inj (hsession.symm.trans hcurrent)
  subst hsame
  have hfresh := hvalid.commandFresh hsession hunused hnext
  obtain ⟨hsequences, hoperations⟩ := hfresh.nodup hvalid
  obtain ⟨kept, happended⟩ : ∃ kept, CommandAppended session offer.command .applied kept :=
    commandAppended (hvalid.session session hsession) hnext
  have hinserted :
      (insert SlotSnapshot.ordinal (.fromOffer offer) self.slots).Perm
        (SlotSnapshot.fromOffer offer :: self.slots) :=
    insert_perm _ _
  have hpermuted : (slotCommands (insert SlotSnapshot.ordinal (.fromOffer offer) self.slots)).Perm
        ([offer.command] ++ slotCommands self.slots) :=
    hinserted.flatMap fun slot _ => .refl slot.commands
  exact { hcommitted with
    slotCount := by
      rw [length_insert]
      exact hroom
    sessionPresent := fun _ => Option.some_ne_none _
    slots := by
      intro later hlater slot hslot
      have hlater' : later = withCommand session offer.command .applied :=
        (Option.some.inj hlater).symm
      subst hlater'
      rcases mem_insert.mp hslot with rfl | hold
      · exact
          { ordinal := hordinal
            snapshot := SlotSnapshot.valid_fromOffer hchecked hrunner hjobIr
            applied := by
              intro command hcommand
              rw [List.mem_singleton.mp hcommand]
              exact happended.applied_new
            reached := by
              intro command hcommand
              rw [List.mem_singleton.mp hcommand]
              exact isBeyondCursor_withCommand.mpr le_rfl }
      · exact hcommitted.slots _ rfl slot hold
    slotsSorted := by
      apply SortedBy.insert hvalid.slotsSorted
      exact lookup_eq_none_iff.mp hvacant
    sequencesDistinct := (hpermuted.map _).nodup_iff.mpr hsequences
    operationsDistinct := (hpermuted.map _).nodup_iff.mpr hoperations }

theorem Valid.recordCancellation {cancellation : CancellationRecord} (hvalid : self.Valid)
    (hcancel : self.recordCancellation sessionId slot guard cancellation = .ok (true, next)) :
    next.Valid := by
  obtain ⟨snapshot, committed, cancelled, hslot, horphan, -, hnone, hcommit,
    happlied, rfl⟩ := recordCancellation_eq_true.mp hcancel
  obtain ⟨-, hat, -⟩ := requireSlot_eq_ok.mp hslot
  have hmem := slotAt_mem hat
  have hcommitted := hvalid.commitCommand hcommit
  obtain ⟨session, hsession, -, -, hunused, hnext, rfl⟩ := commitCommand_eq_true.mp hcommit
  have hfresh := hvalid.commandFresh hsession hunused hnext
  obtain ⟨hsequences, hoperations⟩ := hfresh.nodup hvalid
  have hold := hcommitted.slots _ rfl snapshot hmem
  obtain ⟨kept, happended⟩ : ∃ kept, CommandAppended session cancellation.command .applied kept :=
    commandAppended (hvalid.session session hsession) hnext
  have hlater : snapshot.offer.command.sequence.get < cancellation.command.sequence.get := by
    apply hfresh.sequence
    exact List.mem_flatMap.mpr ⟨snapshot, hmem, List.mem_cons_self⟩
  have hafter := hold.snapshot.applyCancellation horphan hlater happlied
  obtain ⟨-, rfl⟩ := SlotSnapshot.applyCancellation_eq_ok.mp happlied
  refine hcommitted.withSlot rfl hmem rfl ?_ ?_ hsequences hoperations
  · exact
      { ordinal := hold.ordinal
        snapshot := hafter
        applied := by
          intro command hcommand
          rcases List.mem_cons.mp hcommand with rfl | hcommand
          · exact hold.applied _ List.mem_cons_self
          · rw [List.mem_singleton.mp hcommand]
            exact happended.applied_new
        reached := by
          intro command hcommand
          rcases List.mem_cons.mp hcommand with rfl | hcommand
          · exact hold.reached _ List.mem_cons_self
          · rw [List.mem_singleton.mp hcommand]
            exact isBeyondCursor_withCommand.mpr le_rfl }
  · simp only [SlotSnapshot.commands, hnone, Option.map_some,
      Option.map_none, Option.toList_some, Option.toList_none]
    exact .swap _ _ _

theorem Valid.applyPollCommand {command : LeasePollCommandRecord} (hvalid : self.Valid)
    (hcommand : self.applyPollCommand sessionId command = .ok (changed, next)) :
    next.Valid := by
  cases changed with
  | false =>
    rw [applyPollCommand_eq_false hcommand]
    exact hvalid
  | true =>
    cases command with
    | noCommand => simp [StoredJournal.applyPollCommand] at hcommand
    | recorded => simp [StoredJournal.applyPollCommand] at hcommand
    | ignored => exact hvalid.commitCommand hcommand
    | leaseOffer => exact hvalid.recordOffer hcommand
    | cancellation => exact hvalid.recordCancellation hcommand

theorem Valid.completeLeasePoll {completion : LeasePollCompletion} (hvalid : self.Valid)
    (hpoll : self.completeLeasePoll sessionId completion = .ok (changed, next)) :
    next.Valid := by
  obtain ⟨checkpointChanged, commandChanged, advanced, hadvance, hcommand,
    -, -⟩ := completeLeasePoll_eq_ok.mp hpoll
  exact (hvalid.advanceLeasePoll hadvance).applyPollCommand hcommand

/-! ## Every mutation -/

/-- A session which the encoder can read back. -/
def Supported (binding : SessionBinding) : Prop :=
  supportedProtocolRangeContains binding.selectedProtocol = true ∧
    currentJobIrRangeSupports binding.selectedJobIr = true

/-- What a valid journal needs beyond the checks of a mutation. -/
def Admits (journal : StoredJournal) : JournalMutation → Prop
  | .beginSession binding => Supported binding
  | .onSlot _ slot _ mutation => ∀ snapshot ∈ journal.slotAt slot, snapshot.Admits mutation
  | _ => True

def Bounded : JournalMutation → Prop
  | .onSlot _ _ _ mutation => (SlotEvent.mutated mutation).Bounded
  | _ => True

theorem Valid.nextRevision (hvalid : self.Valid) :
    { self with revision := self.revision + 1 }.Valid :=
  { hvalid with revision := fun _ => Nat.succ_ne_zero _ }

theorem Valid.of_nextRevision (hvalid : { self with revision := self.revision + 1 }.Valid)
    (hrevision : self.revision ≠ 0) :
    self.Valid :=
  { hvalid with revision := fun _ => hrevision }

theorem Valid.beginSession_iff {binding : SessionBinding} (hvalid : self.Valid)
    (hbegin : self.beginSession binding = .ok (true, next)) :
    { next with revision := next.revision + 1 }.Valid ↔ Supported binding := by
  obtain ⟨hfree, rfl⟩ := beginSession_eq_true.mp hbegin
  have hempty : self.slots = [] := by
    cases hsession : self.session with
    | none =>
      by_contra hoccupied
      exact hvalid.sessionPresent hoccupied hsession
    | some current => exact (hfree current hsession).2
  constructor
  · intro hnext
    have hbound := hnext.session _ rfl
    exact ⟨hbound.protocol, hbound.jobIr⟩
  · rintro ⟨hprotocol, hjobIr⟩
    exact { hvalid with
      sessionPresent := fun _ => Option.some_ne_none _
      revision := fun _ => Nat.succ_ne_zero _
      session := by
        intro current hcurrent
        rw [← Option.some.inj hcurrent]
        exact
          { protocol := hprotocol
            jobIr := hjobIr
            tombstoneCount := Nat.zero_le _
            checkpointCount := Nat.zero_le _
            tombstonesSorted := List.Pairwise.nil
            tombstonesDistinct := List.nodup_nil
            cursor := rfl
            checkpoints := by simp [SessionSnapshot.new]
            checkpointsSorted := List.Pairwise.nil
            pollOperationsDistinct := List.nodup_nil }
      slots := by
        intro current _ slot hslot
        rw [show ({ self with
          session := some (.new binding)
          revision := self.revision + 1 } : StoredJournal).slots = [] from hempty] at hslot
        exact absurd hslot List.not_mem_nil }

theorem Valid.onSlot_iff {mutation : SlotMutation} (hvalid : self.Valid)
    (hbounded : (SlotEvent.mutated mutation).Bounded)
    (hperform : self.perform (.onSlot sessionId slot guard mutation) = .ok (true, next)) :
    { next with revision := next.revision + 1 }.Valid ↔
      self.Admits (.onSlot sessionId slot guard mutation) := by
  obtain ⟨snapshot, after, hslot, hafter, rfl⟩ := slotMut_eq_ok.mp hperform
  obtain ⟨⟨session, hsession, -⟩, hat, -⟩ := requireSlot_eq_ok.mp hslot
  have hmem := slotAt_mem hat
  obtain ⟨hoffer, hcancellation⟩ := SlotSnapshot.perform_keeps_commands hafter
  have hrevision : self.revision ≠ 0 := hvalid.revision (by rw [hsession]; rfl)
  have hsnapshot := (hvalid.slots session hsession snapshot hmem).snapshot
  have hwritten := hvalid.withSlot_iff hsession hmem hoffer hcancellation
  have hadmits : self.Admits (.onSlot sessionId slot guard mutation) ↔
      snapshot.Admits mutation := by
    simp [Admits, hat]
  rw [hadmits, ← hsnapshot.perform_iff hbounded hafter, ← hwritten]
  exact ⟨fun hnext => hnext.of_nextRevision hrevision, Valid.nextRevision⟩

theorem Valid.authorizeOrphan {grant : OrphanAuthorityGrant} (hvalid : self.Valid)
    (hauthorize : self.authorizeOrphan grant = .ok (true, next)) :
    next.Valid := by
  obtain ⟨snapshot, after, hslot, hclaim, hafter, rfl⟩ := authorizeOrphan_eq_true.mp hauthorize
  obtain ⟨⟨session, hsession, hid⟩, hat, hguard⟩ := requireSlot_eq_ok.mp hslot
  have hmem := slotAt_mem hat
  have hsnapshot := (hvalid.slots session hsession snapshot hmem).snapshot
  have haddressed : grant.claim = ⟨self.runnerId, session.sessionId, snapshot.offer.slot,
        snapshot.offer.lease.guard⟩ := by
    rw [hclaim, hid, ← hguard]
    rfl
  have hvalidAfter := hsnapshot.authorizeOrphan haddressed hafter
  obtain ⟨-, hwritten⟩ := SlotSnapshot.authorizeOrphan_eq_true.mp hafter
  have hoffer : after.offer = snapshot.offer := by rw [hwritten]
  have hcancellation : after.cancellation = snapshot.cancellation := by
    rw [hwritten]
  exact (hvalid.withSlot_iff hsession hmem hoffer hcancellation).mpr hvalidAfter

variable {mutation : JournalMutation}

/-- A change is valid exactly if the state admits the mutation beyond the
checks of the mutation itself. -/
theorem Valid.perform_iff (hvalid : self.Valid) (hbounded : Bounded mutation)
    (hperform : self.perform mutation = .ok (true, next)) :
    { next with revision := next.revision + 1 }.Valid ↔ self.Admits mutation := by
  cases mutation
  case beginSession => exact hvalid.beginSession_iff hperform
  case onSlot => exact hvalid.onSlot_iff hbounded hperform
  -- The checks of the others are enough.
  all_goals refine iff_of_true (Valid.nextRevision ?_) trivial
  case prepareLeasePoll => exact hvalid.prepareLeasePoll hperform
  case completeLeasePoll => exact hvalid.completeLeasePoll hperform
  case acknowledgeLeaseAuthorityReceipts =>
    exact hvalid.acknowledgeLeaseAuthorityReceipts hperform
  case recordCommandDisposition => exact hvalid.commitCommand hperform
  case recordOffer => exact hvalid.recordOffer hperform
  case recordCancellation => exact hvalid.recordCancellation hperform
  case authorizeOrphan => exact hvalid.authorizeOrphan hperform
  case releaseSlot =>
    obtain ⟨-, -, -, -, rfl⟩ := releaseSlot_eq_ok.mp hperform
    exact hvalid.withoutSlot
  case releaseRejectedOffer =>
    obtain ⟨-, -, -, -, rfl⟩ := releaseRejectedOffer_eq_ok.mp hperform
    exact hvalid.withoutSlot

theorem revision_of_applyPollCommand {command : LeasePollCommandRecord}
    (hcommand : self.applyPollCommand sessionId command = .ok (changed, next)) :
    next.revision = self.revision := by
  rcases applyPollCommand_commits hcommand with rfl | ⟨_, _, committed, hcommit, hnext⟩
  · rfl
  · obtain ⟨session, -, -, -, -, -, rfl⟩ := commitCommand_eq_true.mp hcommit
    rw [hnext]
    rfl

theorem revision_of_perform (hperform : self.perform mutation = .ok (true, next)) :
    next.revision = self.revision := by
  cases mutation with
  | beginSession =>
    obtain ⟨-, rfl⟩ := beginSession_eq_true.mp hperform
    rfl
  | prepareLeasePoll =>
    obtain ⟨session, -, -, -, -, -, rfl⟩ := prepareLeasePoll_eq_true.mp hperform
    rfl
  | completeLeasePoll =>
    obtain ⟨checkpointChanged, commandChanged, advanced, hadvance,
      hcommand, -, -⟩ := completeLeasePoll_eq_ok.mp hperform
    rw [revision_of_applyPollCommand hcommand]
    obtain ⟨-, session, checkpoint, -, -, -, hcase⟩ := advanceLeasePoll_eq_ok.mp hadvance
    rcases hcase with ⟨-, -, -, rfl⟩ | ⟨-, -, -, -, rfl⟩ <;> rfl
  | acknowledgeLeaseAuthorityReceipts =>
    obtain ⟨session, checkpoint, -, -, -, -, -, -, rfl⟩ :=
      acknowledgeLeaseAuthorityReceipts_eq_true.mp hperform
    rfl
  | recordCommandDisposition =>
    obtain ⟨session, -, -, -, -, -, rfl⟩ := commitCommand_eq_true.mp hperform
    rfl
  | recordOffer sessionId offer =>
    have hcommand : self.applyPollCommand sessionId (.leaseOffer offer) =
        .ok (true, next) := hperform
    exact revision_of_applyPollCommand hcommand
  | recordCancellation sessionId slot guard cancellation =>
    have hcommand : self.applyPollCommand sessionId
        (.cancellation slot guard cancellation) = .ok (true, next) :=
      hperform
    exact revision_of_applyPollCommand hcommand
  | authorizeOrphan =>
    obtain ⟨snapshot, after, -, -, -, rfl⟩ := authorizeOrphan_eq_true.mp hperform
    rfl
  | releaseSlot =>
    obtain ⟨-, -, -, -, rfl⟩ := releaseSlot_eq_ok.mp hperform
    rfl
  | releaseRejectedOffer =>
    obtain ⟨-, -, -, -, rfl⟩ := releaseRejectedOffer_eq_ok.mp hperform
    rfl
  | onSlot =>
    obtain ⟨snapshot, after, -, -, rfl⟩ := slotMut_eq_ok.mp hperform
    rfl

theorem run_eq_or_revision_lt (self : StoredJournal) (mutations : List JournalMutation) :
    self.run mutations = self ∨ self.revision < (self.run mutations).revision := by
  induction mutations generalizing self with
  | nil => exact .inl rfl
  | cons mutation rest ih =>
    change (self.step mutation).run rest = self ∨
      self.revision < ((self.step mutation).run rest).revision
    rcases self.step_cases mutation with hsame | ⟨candidate, hperform, hstep, -, -⟩
    · rw [hsame]
      exact ih self
    · have hnext : (self.step mutation).revision = self.revision + 1 := by
        rw [hstep, revision_of_perform hperform]
      right
      rcases ih (self.step mutation) with hkept | hlater
      · rw [hkept, hnext]
        exact Nat.lt_succ_self _
      · omega

/-- The revision never falls along a run, and it tells its states apart. -/
theorem revision_identifies (self : StoredJournal) (before after : List JournalMutation) :
    (self.run before).revision ≤ (self.run (before ++ after)).revision ∧
      ((self.run (before ++ after)).revision = (self.run before).revision ↔
        self.run (before ++ after) = self.run before) := by
  have happend : self.run (before ++ after) = (self.run before).run after :=
    List.foldl_append
  rw [happend]
  rcases (self.run before).run_eq_or_revision_lt after with hsame | hlater
  · simp [hsame]
  · refine ⟨hlater.le, fun hequal => absurd hequal hlater.ne', congrArg revision⟩

theorem Valid.commit_eq (hvalid : self.Valid)
    (hbounded : Bounded mutation) (hadmits : self.Admits mutation)
    (hperform : self.perform mutation = .ok (true, next))
    (hrevision : self.revision + 1 < 2 ^ 64) :
    self.commit mutation = .ok (true, { next with revision := next.revision + 1 }) := by
  have hnext := (hvalid.perform_iff hbounded hperform).mpr hadmits
  have hincrement : next.incrementRevision = .ok { next with revision := next.revision + 1 } :=
    incrementRevision_eq_ok.mpr ⟨by rwa [revision_of_perform hperform], rfl⟩
  have hchecked : { next with revision := next.revision + 1 }.validate = .ok () :=
    validate_eq_ok.mpr hnext
  simp only [commit, hperform, ok_bind, if_true, hincrement, hchecked]
  rfl

/-- The validation repeated by the encoder accepts a change exactly if the
state admits the mutation beyond the checks of the mutation itself. -/
theorem committed_valid_iff {mutation : JournalMutation}
    (hvalid : self.validate = .ok ()) (hbounded : Bounded mutation)
    (hperform : self.perform mutation = .ok (true, next)) :
    { next with revision := next.revision + 1 }.validate = .ok () ↔ self.Admits mutation := by
  rw [validate_eq_ok]
  exact (validate_eq_ok.mp hvalid).perform_iff hbounded hperform

end StoredJournal

namespace Sample

def acceptedOffer : StoredJournal :=
  (StoredJournal.new runner).run acceptedJob

def earlyIntent : JournalMutation :=
  onSlot (.recordProviderIntent ⟨operation 31, .createSandbox, .pending⟩)

def authorityDelivery : JournalMutation :=
  onSlot (.recordRuntimeAuthorityDelivery authority)

end Sample

/-- The delivery of the runtime authority passes the repeated validation. -/
theorem StoredJournal.committed_valid_iff_delivery :
    ∃ next, Sample.acceptedOffer.perform Sample.authorityDelivery = .ok (true, next) ∧
        { next with revision := next.revision + 1 }.validate = .ok () := by
  have hvalid : Sample.acceptedOffer.validate = .ok () := by decide +kernel
  have hperformed :
      (Sample.acceptedOffer.perform Sample.authorityDelivery).map Prod.fst = .ok true := by
    decide +kernel
  cases hperform :
      Sample.acceptedOffer.perform Sample.authorityDelivery with
  | error error => simp [hperform, Except.map] at hperformed
  | ok result =>
    obtain ⟨changed, next⟩ := result
    have hchanged : changed = true := by simpa [hperform, Except.map] using hperformed
    subst hchanged
    refine ⟨next, rfl, ?_⟩
    have hbounded : StoredJournal.Bounded Sample.authorityDelivery := trivial
    refine (StoredJournal.committed_valid_iff hvalid hbounded hperform).mpr ?_
    intro snapshot _
    trivial

/-- A provider intent before the runtime authority is adopted passes the
checks of its operation and then fails the validation of the encoder. -/
theorem StoredJournal.early_intent_rejected :
    Sample.acceptedOffer.validate = .ok () ∧
      ((Sample.acceptedOffer.perform Sample.earlyIntent).map fun result =>
        (result.1, { result.2 with
          revision := result.2.revision + 1 }.validate)) =
        .ok (true, .error .decodedStateInvalid) := by
  decide +kernel

end AutomataCi
