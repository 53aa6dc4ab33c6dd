import AutomataCi.JournalRuns
import AutomataCi.SlotOutcomes

/-!
# What a journal mutation changes

For each operation of the stored journal, the states in which it reports a
change and the journal it then leaves.  A server command takes effect through
`commitCommand` alone, which either appends the next command of the stream or
recognises a replay.
-/

namespace AutomataCi

open GuardedResult KeyedList

namespace StoredJournal

variable {self next : StoredJournal} {sessionId : RunnerSessionId}

theorem beginSession_eq_true {binding : SessionBinding} :
    self.beginSession binding = .ok (true, next) ↔
      (∀ current ∈ self.session, current.sessionId ≠ binding.sessionId ∧ self.slots = []) ∧
        next = { self with session := some (.new binding) } := by
  unfold beginSession
  cases self.session with
  | none => simp [eq_comm (a := next)]
  | some current =>
    by_cases hbinding : current.binding = binding
    · have hid : current.sessionId = binding.sessionId := by
        rw [← hbinding]
        rfl
      simp [hbinding, hid]
    · by_cases hid : current.sessionId = binding.sessionId
      · simp [hbinding, hid]
      · by_cases hslots : self.slots = []
        · simp [hbinding, hid, hslots, eq_comm (a := next)]
        · simp [hbinding, hid, hslots]

variable {slot : RunnerSlotOrdinal}

theorem prepareLeasePoll_eq_true {operationId : OperationId} :
    self.prepareLeasePoll sessionId slot operationId = .ok (true, next) ↔
      ∃ session, self.session = some session ∧ session.sessionId = sessionId ∧
        session.checkpointAt slot = none ∧ slot.get ≤ maxJournaledSlots ∧
        session.leasePollOperationIsUsed operationId = false ∧
        next = self.withSession { session with
          leasePollCheckpoints :=
            insert LeasePollCheckpoint.ordinal (.first slot operationId)
              session.leasePollCheckpoints } := by
  simp only [prepareLeasePoll, bind_eq_ok, requireSession_eq_ok, and_assoc]
  refine exists_congr fun session => and_congr_right fun _ => and_congr_right fun _ => ?_
  cases session.checkpointAt slot with
  | some => simp
  | none =>
    simp only [bind_eq_ok, rejectIf_eq_ok, exists_const, not_lt, Bool.not_eq_true, pure_eq_ok,
      Prod.mk.injEq, true_and, eq_comm (a := next)]

variable {changed : Bool}

theorem advanceLeasePoll_eq_ok {expectedCurrent successor : OperationId}
    {receipts : List LeaseAuthorityPollReceipt} :
    self.advanceLeasePoll sessionId slot expectedCurrent successor receipts = .ok (changed, next) ↔
      validateAuthorityReceipts receipts = .ok () ∧
        ∃ session checkpoint, self.session = some session ∧ session.sessionId = sessionId ∧
          session.checkpointAt slot = some checkpoint ∧
          ((changed = true ∧ checkpoint.currentOperationId = expectedCurrent ∧
              session.leasePollOperationIsUsed successor = false ∧
              next = self.withSession (session.withCheckpoint
                { slot
                  currentOperationId := successor
                  acknowledgesOperationId := some expectedCurrent
                  pendingAuthorityReceipts := receipts })) ∨
            (changed = false ∧ checkpoint.currentOperationId ≠ expectedCurrent ∧
              checkpoint.acknowledgesOperationId = some expectedCurrent ∧
              (checkpoint.pendingAuthorityReceipts = [] ∨
                checkpoint.pendingAuthorityReceipts = receipts) ∧
              next = self)) := by
  simp only [advanceLeasePoll, bind_eq_ok, requireSession_eq_ok, okOr_eq_ok,
    exists_and_right, exists_eq_ok_unit, and_assoc]
  refine and_congr_right fun _ => exists_congr fun session => ?_
  constructor
  · rintro ⟨hsession, hid, checkpoint, hcheckpoint, hrest⟩
    refine ⟨checkpoint, hsession, hid, hcheckpoint, ?_⟩
    by_cases hcurrent : checkpoint.currentOperationId = expectedCurrent
    · simp only [hcurrent, ne_eq, not_true_eq_false, if_false, bind_eq_ok, rejectIf_eq_ok,
        exists_const, pure_eq_ok, Prod.mk.injEq, Bool.not_eq_true] at hrest
      obtain ⟨hfresh, rfl, rfl⟩ := hrest
      exact .inl ⟨rfl, hcurrent, hfresh, rfl⟩
    · simp only [ne_eq, hcurrent, not_false_eq_true, if_true] at hrest
      split at hrest
      · rename_i hacknowledges
        split at hrest
        · rename_i hreceipts
          simp only [Except.ok.injEq, Prod.mk.injEq] at hrest
          obtain ⟨rfl, rfl⟩ := hrest
          exact .inr ⟨rfl, hcurrent, hacknowledges, hreceipts, rfl⟩
        · simp at hrest
      · simp at hrest
  · rintro ⟨checkpoint, hsession, hid, hcheckpoint, hcase⟩
    refine ⟨hsession, hid, checkpoint, hcheckpoint, ?_⟩
    rcases hcase with ⟨rfl, hcurrent, hfresh, rfl⟩ | ⟨rfl, hcurrent, hacknowledges, hreceipts, rfl⟩
    · simp [hcurrent, hfresh]
    · simp [hcurrent, hacknowledges, hreceipts]

theorem acknowledgeLeaseAuthorityReceipts_eq_true {expected : List LeaseAuthorityPollReceipt} :
    self.acknowledgeLeaseAuthorityReceipts sessionId slot expected = .ok (true, next) ↔
      ∃ session checkpoint, self.session = some session ∧ session.sessionId = sessionId ∧
        validateAuthorityReceipts expected = .ok () ∧
        session.checkpointAt slot = some checkpoint ∧
        checkpoint.pendingAuthorityReceipts ≠ [] ∧
        checkpoint.pendingAuthorityReceipts = expected ∧
        next = self.withSession (session.withCheckpoint
          { checkpoint with pendingAuthorityReceipts := [] }) := by
  simp only [acknowledgeLeaseAuthorityReceipts, bind_eq_ok,
    requireSession_eq_ok, okOr_eq_ok, exists_and_right, exists_eq_ok_unit]
  constructor
  · rintro ⟨session, ⟨hsession, hid⟩, hvalid, checkpoint, hcheckpoint, hrest⟩
    split at hrest
    · simp at hrest
    · rename_i hpending
      simp only [bind_eq_ok, rejectIf_eq_ok, exists_const, not_not,
        pure_eq_ok, Prod.mk.injEq, true_and] at hrest
      obtain ⟨hexpected, rfl⟩ := hrest
      exact ⟨session, checkpoint, hsession, hid, hvalid, hcheckpoint, hpending, hexpected, rfl⟩
  · rintro ⟨session, checkpoint, hsession, hid, hvalid, hcheckpoint, hpending, hexpected, rfl⟩
    refine ⟨session, ⟨hsession, hid⟩, hvalid, checkpoint, hcheckpoint, ?_⟩
    simp [← hexpected, hpending]

def withCommand (session : SessionSnapshot) (command : DurableCommand)
    (disposition : CommandDisposition) : SessionSnapshot :=
  { session with
    commandCursor := .through command.sequence
    commandTombstones := pushTombstone session.commandTombstones ⟨command, disposition⟩ }

variable {command : DurableCommand} {disposition : CommandDisposition}

theorem commitCommand_eq_true :
    self.commitCommand sessionId command disposition = .ok (true, next) ↔
      ∃ session, self.session = some session ∧ session.sessionId = sessionId ∧
        isBeyondCursor session command = true ∧
        self.commandIsUsed command = false ∧
        session.commandCursor.next = some command.sequence ∧
        next = self.withSession (withCommand session command disposition) := by
  simp only [commitCommand, bind_eq_ok, requireSession_eq_ok, and_assoc]
  refine exists_congr fun session => and_congr_right fun _ => and_congr_right fun _ => ?_
  cases isBeyondCursor session command with
  | false =>
    simp only [if_true, bind_eq_ok, okOr_eq_ok, Bool.false_eq_true,
      false_and, iff_false, not_exists, not_and]
    intro tombstone _
    split <;> simp
  | true =>
    simp only [Bool.true_eq_false, if_false, bind_eq_ok, rejectIf_eq_ok, okOr_eq_ok, exists_const,
      not_not, Bool.not_eq_true, pure_eq_ok, Prod.mk.injEq, true_and]
    refine and_congr_right fun _ => ?_
    constructor
    · rintro ⟨expected, hnext, rfl, cursor, hcursor, rfl⟩
      simp only [CommandCursor.advance, hnext, if_true, Option.some.injEq] at hcursor
      subst hcursor
      exact ⟨hnext, rfl⟩
    · rintro ⟨hnext, rfl⟩
      exact ⟨_, hnext, rfl, _, by simp [CommandCursor.advance, hnext], rfl⟩

theorem commitCommand_eq_false :
    self.commitCommand sessionId command disposition = .ok (false, next) ↔
      next = self ∧ ∃ session, self.session = some session ∧ session.sessionId = sessionId ∧
          isBeyondCursor session command = false ∧
          tombstoneOf session command = some ⟨command, disposition⟩ := by
  simp only [commitCommand, bind_eq_ok, requireSession_eq_ok]
  constructor
  · rintro ⟨session, ⟨hsession, hid⟩, hrest⟩
    cases hbeyond : isBeyondCursor session command with
    | true =>
      simp only [hbeyond, Bool.true_eq_false, if_false, bind_eq_ok, pure_eq_ok, Prod.mk.injEq,
        Bool.true_eq_false, false_and, and_false, exists_false] at hrest
    | false =>
      simp only [hbeyond, if_true, bind_eq_ok, okOr_eq_ok] at hrest
      obtain ⟨⟨found, recorded⟩, hfound, hmatch⟩ := hrest
      split at hmatch
      · rename_i hsame
        obtain ⟨rfl, rfl⟩ := hsame
        simp only [Except.ok.injEq, Prod.mk.injEq, true_and] at hmatch
        exact ⟨hmatch.symm, session, hsession, hid, hbeyond, hfound⟩
      · simp at hmatch
  · rintro ⟨rfl, session, hsession, hid, hbeyond, hfound⟩
    refine ⟨session, ⟨hsession, hid⟩, ?_⟩
    simp [hbeyond, hfound]

theorem recordOffer_eq_true {offer : LeaseOfferRecord} :
    self.recordOffer sessionId offer = .ok (true, next) ↔
      ∃ session committed, self.session = some session ∧
        session.sessionId = sessionId ∧ offer.validate = .ok () ∧
        offer.lease.runnerId = self.runnerId ∧
        offer.jobIr.version = session.selectedJobIr ∧
        offer.slot.get ≤ maxJournaledSlots ∧
        self.slotAt offer.slot = none ∧
        self.slots.length < maxJournaledSlots ∧
        self.commitCommand sessionId offer.command .applied = .ok (true, committed) ∧
        next = { committed with
          slots := insert SlotSnapshot.ordinal (.fromOffer offer) committed.slots } := by
  simp only [recordOffer, bind_eq_ok, requireSession_eq_ok, rejectIf_eq_ok,
    exists_const, exists_and_right, exists_eq_ok_unit, not_not, not_lt]
  cases self.slotAt offer.slot with
  | some existing =>
    constructor
    · rintro ⟨session, -, -, -, -, -, hrest⟩
      by_cases hsame : existing.offer = offer <;> simp [hsame] at hrest
    · rintro ⟨-, -, -, -, -, -, -, -, hnone, -⟩
      simp at hnone
  | none =>
    simp only [bind_eq_ok, rejectIf_eq_ok, exists_const, not_le, Prod.exists, true_and]
    constructor
    · rintro ⟨session, ⟨hsession, hid⟩, hvalid, hrunner, hjobIr, hslot,
        hroom, fresh, committed, hcommit, hrest⟩
      cases fresh with
      | false => simp at hrest
      | true =>
        simp only [if_true, pure_eq_ok, Prod.mk.injEq, true_and] at hrest
        exact ⟨session, committed, hsession, hid, hvalid, hrunner,
          hjobIr, hslot, hroom, hcommit, hrest.symm⟩
    · rintro ⟨session, committed, hsession, hid, hvalid, hrunner, hjobIr,
        hslot, hroom, hcommit, rfl⟩
      exact ⟨session, ⟨hsession, hid⟩, hvalid, hrunner, hjobIr, hslot,
        hroom, true, committed, hcommit, by simp⟩

variable {guard : LeaseGuard}

theorem recordCancellation_eq_true {cancellation : CancellationRecord} :
    self.recordCancellation sessionId slot guard cancellation = .ok (true, next) ↔
      ∃ snapshot committed cancelled, self.requireSlot sessionId slot guard = .ok snapshot ∧
        snapshot.orphan = none ∧ snapshot.offerStatus ≠ .rejected ∧
        snapshot.cancellation = none ∧
        self.commitCommand sessionId cancellation.command .applied = .ok (true, committed) ∧
        snapshot.applyCancellation cancellation = .ok cancelled ∧
        next = committed.withSlot cancelled := by
  simp only [recordCancellation, bind_eq_ok, rejectIf_eq_ok, exists_const,
    Option.not_isSome_iff_eq_none]
  constructor
  · rintro ⟨snapshot, hslot, horphan, hrejected, hrest⟩
    split at hrest
    · simp at hrest
    · simp only [bind_eq_ok, rejectIf_eq_ok, exists_const, Prod.exists,
        Option.not_isSome_iff_eq_none] at hrest
      obtain ⟨hnone, fresh, committed, hcommit, hfresh⟩ := hrest
      cases fresh with
      | false => simp at hfresh
      | true =>
        simp only [if_true, bind_eq_ok, pure_eq_ok, Prod.mk.injEq, true_and] at hfresh
        obtain ⟨cancelled, hcancelled, rfl⟩ := hfresh
        exact ⟨snapshot, committed, cancelled, hslot, horphan, hrejected,
          hnone, hcommit, hcancelled, rfl⟩
  · rintro ⟨snapshot, committed, cancelled, hslot, horphan, hrejected,
      hnone, hcommit, hcancelled, rfl⟩
    refine ⟨snapshot, hslot, horphan, hrejected, ?_⟩
    simp [hnone, hcommit, hcancelled]

theorem authorizeOrphan_eq_true {grant : OrphanAuthorityGrant} :
    self.authorizeOrphan grant = .ok (true, next) ↔ ∃ snapshot after,
        self.requireSlot grant.claim.sessionId grant.claim.slot grant.claim.guard = .ok snapshot ∧
          grant.claim = ⟨self.runnerId, grant.claim.sessionId, snapshot.slot, grant.claim.guard⟩ ∧
          snapshot.authorizeOrphan grant = .ok (true, after) ∧
          next = self.withSlot after := by
  simp only [authorizeOrphan, orphanClaim, bind_eq_ok, okOr_eq_ok, rejectIf_eq_ok, exists_const,
    not_not, Prod.exists, pure_eq_ok, Prod.mk.injEq]
  constructor
  · rintro ⟨expected, ⟨snapshot, hslot, rfl⟩, hclaim, found, hfound,
      changed, after, hafter, rfl, rfl⟩
    have hsame : found = snapshot := by
      have hat := (requireSlot_eq_ok.mp hslot).2.1
      rw [hfound, Option.some.injEq] at hat
      exact hat
    subst hsame
    exact ⟨found, after, hslot, hclaim, hafter, rfl⟩
  · rintro ⟨snapshot, after, hslot, hclaim, hafter, rfl⟩
    exact ⟨_, ⟨snapshot, hslot, rfl⟩, hclaim, snapshot,
      (requireSlot_eq_ok.mp hslot).2.1, true, after, hafter, rfl, rfl⟩

theorem withoutSlot_eq_ok {check : SlotSnapshot → Except JournalInvariantError Unit} :
    (do
      let snapshot ← self.requireSlot sessionId slot guard
      check snapshot
      return (true, self.withoutSlot slot) : JournalResult) = .ok (changed, next) ↔
      changed = true ∧ ∃ snapshot, self.requireSlot sessionId slot guard = .ok snapshot ∧
          check snapshot = .ok () ∧ next = self.withoutSlot slot := by
  simp only [bind_eq_ok, exists_and_right, exists_eq_ok_unit, pure_eq_ok, Prod.mk.injEq]
  constructor
  · rintro ⟨snapshot, hslot, hcheck, rfl, rfl⟩
    exact ⟨rfl, snapshot, hslot, hcheck, rfl⟩
  · rintro ⟨rfl, snapshot, hslot, hcheck, rfl⟩
    exact ⟨snapshot, hslot, hcheck, rfl, rfl⟩

theorem releaseSlot_eq_ok :
    self.releaseSlot sessionId slot guard = .ok (changed, next) ↔ changed = true ∧
        ∃ snapshot, self.requireSlot sessionId slot guard = .ok snapshot ∧
          snapshot.checkRelease = .ok () ∧ next = self.withoutSlot slot :=
  withoutSlot_eq_ok

theorem releaseRejectedOffer_eq_ok {responseOperationId : OperationId} :
    self.releaseRejectedOffer sessionId slot guard responseOperationId = .ok (changed, next) ↔
      changed = true ∧ ∃ snapshot, self.requireSlot sessionId slot guard = .ok snapshot ∧
          snapshot.checkRejectedRelease responseOperationId = .ok () ∧
          next = self.withoutSlot slot :=
  withoutSlot_eq_ok

theorem completeLeasePoll_eq_ok {completion : LeasePollCompletion} :
    self.completeLeasePoll sessionId completion = .ok (changed, next) ↔
      ∃ checkpointChanged commandChanged advanced,
        self.advanceLeasePoll sessionId completion.pollSlot
            completion.expectedCurrent completion.successorOperationId
            completion.pendingAuthorityReceipts =
          .ok (checkpointChanged, advanced) ∧
        advanced.applyPollCommand sessionId completion.command = .ok (commandChanged, next) ∧
        (commandChanged = true → checkpointChanged = true) ∧
        changed = (commandChanged || checkpointChanged) := by
  simp only [completeLeasePoll, bind_eq_ok, rejectIf_eq_ok, exists_const, exists_and_right,
    exists_eq_ok_unit, Prod.exists, pure_eq_ok, Prod.mk.injEq, not_and, Bool.not_eq_true]
  constructor
  · rintro ⟨-, checkpointChanged, advanced, hadvance, commandChanged, after,
      hcommand, hconflict, rfl, rfl⟩
    refine ⟨checkpointChanged, commandChanged, advanced, hadvance, hcommand, ?_, rfl⟩
    intro hchanged
    cases checkpointChanged with
    | true => rfl
    | false => simp [hchanged] at hconflict
  · rintro ⟨checkpointChanged, commandChanged, advanced, hadvance, hcommand, hconflict, rfl⟩
    refine ⟨(advanceLeasePoll_eq_ok.mp hadvance).1, checkpointChanged,
      advanced, hadvance, commandChanged, next, hcommand, ?_, rfl, rfl⟩
    rintro rfl
    cases commandChanged with
    | false => rfl
    | true => simpa using hconflict rfl

end StoredJournal

end AutomataCi
