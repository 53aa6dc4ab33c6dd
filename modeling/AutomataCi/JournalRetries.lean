import AutomataCi.CommandStream
import AutomataCi.SlotRetries

/-!
# Retries of journal mutations

A mutation which reported a change and whose reply was lost may be requested
again: unless it released a slot, it recognises the repetition, reports no
change and leaves the journal as it is.  A completed lease poll nests the
repetition of its checkpoint and of the command it carries.
-/

namespace AutomataCi

open GuardedResult KeyedList

namespace StoredJournal

variable {self next : StoredJournal} {sessionId : RunnerSessionId}

theorem beginSession_retry {binding : SessionBinding} :
    SettlesAt (·.beginSession binding) self := by
  intro next hbegin
  obtain ⟨-, rfl⟩ := beginSession_eq_true.mp hbegin
  have hbinding : (SessionSnapshot.new binding).binding = binding := rfl
  simp [beginSession, hbinding]

variable {slot : RunnerSlotOrdinal}

theorem prepareLeasePoll_retry {operationId : OperationId} :
    SettlesAt (·.prepareLeasePoll sessionId slot operationId) self := by
  intro next hprepare
  obtain ⟨session, -, rfl, -, -, -, rfl⟩ := prepareLeasePoll_eq_true.mp hprepare
  cases hfound : SessionSnapshot.checkpointAt { session with
      leasePollCheckpoints :=
        insert LeasePollCheckpoint.ordinal (.first slot operationId)
          session.leasePollCheckpoints } slot with
  | none =>
    have hmissing := lookup_eq_none_iff.mp hfound
      (.first slot operationId) (mem_insert.mpr (Or.inl rfl))
    exact absurd rfl hmissing
  | some => simp [prepareLeasePoll, requireSession, withSession, hfound]

variable {session : SessionSnapshot}

theorem checkpointAt_withCheckpoint {before after : LeasePollCheckpoint}
    (hsorted : SortedBy LeasePollCheckpoint.ordinal session.leasePollCheckpoints)
    (hfound : session.checkpointAt slot = some before)
    (hslot : after.slot = slot) :
    (session.withCheckpoint after).checkpointAt slot = some after := by
  have hordinal : slot.get = after.ordinal := by
    rw [LeasePollCheckpoint.ordinal, hslot]
  unfold SessionSnapshot.checkpointAt at hfound ⊢
  rw [SessionSnapshot.withCheckpoint, lookup_replace hsorted.nodup,
    if_pos hordinal, hfound, Option.map_some]

theorem acknowledgeLeaseAuthorityReceipts_retry {expected : List LeaseAuthorityPollReceipt}
    (hvalid : self.Valid) :
    SettlesAt (·.acknowledgeLeaseAuthorityReceipts sessionId slot expected) self := by
  intro next hacknowledge
  obtain ⟨session, checkpoint, hsession, hid, hreceipts, hfound, -, -,
    rfl⟩ := acknowledgeLeaseAuthorityReceipts_eq_true.mp hacknowledge
  have hslot : checkpoint.slot = slot := by
    have hordinal := (lookup_mem hfound).2
    cases hcheckpoint : checkpoint.slot
    cases slot
    simp_all [LeasePollCheckpoint.ordinal]
  have hagain : (session.withCheckpoint
      { checkpoint with pendingAuthorityReceipts := [] }).checkpointAt slot =
        some { checkpoint with pendingAuthorityReceipts := [] } :=
    checkpointAt_withCheckpoint (hvalid.session session hsession).checkpointsSorted hfound hslot
  have hsame : (session.withCheckpoint
      { checkpoint with pendingAuthorityReceipts := [] }).sessionId = sessionId := hid
  simp [acknowledgeLeaseAuthorityReceipts, requireSession, withSession, hsame, hreceipts, hagain]

variable {expectedCurrent successor : OperationId} {receipts : List LeaseAuthorityPollReceipt}
  {command : DurableCommand} {disposition : CommandDisposition} {changed : Bool}

theorem advanceLeasePoll_retry {later : SessionSnapshot} (hsession : next.session = some later)
    (hid : later.sessionId = sessionId) (hreceipts : validateAuthorityReceipts receipts = .ok ())
    (hfound : later.checkpointAt slot = some
        { slot
          currentOperationId := successor
          acknowledgesOperationId := some expectedCurrent
          pendingAuthorityReceipts := receipts }) (hother : successor ≠ expectedCurrent) :
    next.advanceLeasePoll sessionId slot expectedCurrent successor
      receipts = .ok (false, next) := by
  apply advanceLeasePoll_eq_ok.mpr
  refine ⟨hreceipts, later, _, hsession, hid, hfound, Or.inr ?_⟩
  exact ⟨rfl, hother, rfl, Or.inr rfl, rfl⟩

/-- The slots are sorted, and no tombstone is beyond the cursor. -/
structure Ordered (journal : StoredJournal) : Prop where
  slots : SortedBy SlotSnapshot.ordinal journal.slots
  covered :
    ∀ session ∈ journal.session, ∀ tombstone ∈ session.commandTombstones,
        isBeyondCursor session tombstone.command = false

theorem Valid.ordered (hvalid : self.Valid) : self.Ordered := by
  refine ⟨hvalid.slotsSorted, ?_⟩
  intro session hsession tombstone hmem
  have hsessionValid := hvalid.session session hsession
  obtain ⟨front, last, hlast⟩ := List.eq_nil_or_concat' session.commandTombstones |>.resolve_left
    (List.ne_nil_of_mem hmem)
  have hcursor := hsessionValid.cursor
  have hsorted := hsessionValid.tombstonesSorted
  rw [hlast] at hcursor hsorted hmem
  rw [List.getLast?_concat, Option.map_some] at hcursor
  rw [isBeyondCursor, hcursor]
  simp only [decide_eq_false_iff_not, not_lt]
  rw [List.mem_append, List.mem_singleton] at hmem
  rcases hmem with hearlier | rfl
  · have hbelow := (List.pairwise_append.mp hsorted).2.2 tombstone hearlier last (by simp)
    exact hbelow.le
  · exact le_rfl

theorem tombstoneOf_withCommand
    (hcovered :
      ∀ tombstone ∈ session.commandTombstones, isBeyondCursor session tombstone.command = false)
    (hbeyond : isBeyondCursor session command = true) :
    tombstoneOf (withCommand session command disposition) command =
      some ⟨command, disposition⟩ := by
  have hother : ∀ tombstone ∈ session.commandTombstones,
      tombstone.command.sequence ≠ command.sequence := by
    intro tombstone hmem hsame
    have hold := hcovered tombstone hmem
    unfold isBeyondCursor at hold hbeyond
    rw [hsame, hbeyond] at hold
    simp at hold
  have hfind : ∀ earlier : List CommandTombstone,
      (∀ tombstone ∈ earlier, tombstone ∈ session.commandTombstones) →
      (earlier ++ [CommandTombstone.mk command disposition]).find?
          (fun tombstone => tombstone.command.sequence = command.sequence) =
        some ⟨command, disposition⟩ := by
    intro earlier hearlier
    have hnone : earlier.find? (fun tombstone =>
        tombstone.command.sequence = command.sequence) = none := by
      rw [List.find?_eq_none]
      intro tombstone hmem
      simpa using hother tombstone (hearlier tombstone hmem)
    rw [List.find?_append, hnone]
    simp
  unfold tombstoneOf withCommand pushTombstone
  split
  · cases htombstones : session.commandTombstones with
    | nil =>
      rename_i hfull
      simp [htombstones, maxCommandTombstones] at hfull
    | cons =>
      apply hfind
      intro tombstone hmem
      rw [htombstones]
      exact List.mem_cons_of_mem _ hmem
  · exact hfind _ fun _ hmem => hmem

theorem commitCommand_retry (hordered : self.Ordered) :
    SettlesAt (·.commitCommand sessionId command disposition) self := by
  intro next hcommit
  obtain ⟨session, hsession, hid, hbeyond, -, -, rfl⟩ := commitCommand_eq_true.mp hcommit
  apply commitCommand_eq_false.mpr
  refine ⟨rfl, withCommand session command disposition, rfl, hid, ?_, ?_⟩
  · simp [isBeyondCursor, withCommand, CommandCursor.through]
  · exact tombstoneOf_withCommand (hordered.covered session hsession) hbeyond

theorem recordOffer_retry {offer : LeaseOfferRecord} (hordered : self.Ordered) :
    SettlesAt (·.recordOffer sessionId offer) self := by
  intro next hoffer
  obtain ⟨session, committed, hsession, rfl, hvalid, hrunner, hjobIr, hslot,
    hvacant, -, hcommit, rfl⟩ := recordOffer_eq_true.mp hoffer
  obtain ⟨current, hcurrent, -, -, -, -, rfl⟩ := commitCommand_eq_true.mp hcommit
  have hsame : current = session := by
    rw [hsession, Option.some.injEq] at hcurrent
    exact hcurrent.symm
  subst hsame
  have hfresh : ∀ slot ∈ self.slots, slot.ordinal ≠ (SlotSnapshot.fromOffer offer).ordinal :=
    lookup_eq_none_iff.mp hvacant
  have hsorted := hordered.slots.insert hfresh
  have hfound : lookup SlotSnapshot.ordinal offer.slot.get
      (insert SlotSnapshot.ordinal (.fromOffer offer) self.slots) = some (.fromOffer offer) :=
    (lookup_eq_some_iff hsorted.nodup).mpr ⟨mem_insert.mpr (Or.inl rfl), rfl⟩
  have hsame : (SlotSnapshot.fromOffer offer).offer = offer := rfl
  simp [recordOffer, requireSession, withSession, withCommand, hvalid,
    hrunner, hjobIr, hslot, slotAt, hfound, hsame]

variable {guard : LeaseGuard}

theorem recordCancellation_retry {cancellation : CancellationRecord} (hordered : self.Ordered) :
    SettlesAt (·.recordCancellation sessionId slot guard cancellation) self := by
  intro next hcancel
  obtain ⟨snapshot, committed, cancelled, hslot, horphan, hstatus, -,
    hcommit, happlied, rfl⟩ := recordCancellation_eq_true.mp hcancel
  obtain ⟨-, hat, hguard⟩ := requireSlot_eq_ok.mp hslot
  have hslots := commitCommand_slots hcommit
  obtain ⟨session, -, hid, -, -, -, hcommitted⟩ := commitCommand_eq_true.mp hcommit
  obtain ⟨-, hcancelled⟩ := SlotSnapshot.applyCancellation_eq_ok.mp happlied
  have hoffer : cancelled.offer = snapshot.offer := by rw [hcancelled]
  have hsame : cancelled.orphan = none ∧ cancelled.offerStatus ≠ .rejected ∧
      cancelled.cancellation = some cancellation := by
    rw [hcancelled]
    exact ⟨horphan, hstatus, rfl⟩
  have hkept : committed.slotAt slot = some snapshot := by rwa [slotAt, hslots]
  have hsorted : SortedBy SlotSnapshot.ordinal committed.slots := by
    rw [hslots]
    exact hordered.slots
  have hfound := slotAt_withSlot hsorted hkept hoffer
  have hsession : ∃ current, (committed.withSlot cancelled).session = some current ∧
        current.sessionId = sessionId := by
    refine ⟨withCommand session cancellation.command .applied, ?_, hid⟩
    rw [withSlot, hcommitted]
    rfl
  have hagain : (committed.withSlot cancelled).requireSlot sessionId slot
      guard = .ok cancelled := by
    refine requireSlot_eq_ok.mpr ⟨hsession, hfound, ?_⟩
    rw [← hguard, SlotSnapshot.guard, SlotSnapshot.guard, hoffer]
  simp [recordCancellation, hagain, hsame]

theorem requireSlot_withSlot {snapshot after : SlotSnapshot}
    (hsorted : SortedBy SlotSnapshot.ordinal self.slots)
    (hslot : self.requireSlot sessionId slot guard = .ok snapshot)
    (hoffer : after.offer = snapshot.offer) :
    (self.withSlot after).requireSlot sessionId slot guard = .ok after ∧
      (self.withSlot after).withSlot after = self.withSlot after := by
  obtain ⟨hsession, hat, hguard⟩ := requireSlot_eq_ok.mp hslot
  have hfound := slotAt_withSlot hsorted hat hoffer
  constructor
  · refine requireSlot_eq_ok.mpr ⟨hsession, hfound, ?_⟩
    rw [← hguard, SlotSnapshot.guard, SlotSnapshot.guard, hoffer]
  · have hsame : replace SlotSnapshot.ordinal after
        (self.withSlot after).slots = (self.withSlot after).slots := by
      apply replace_self
      · rw [withSlot, map_key_replace]
        exact hsorted.nodup
      · exact (lookup_mem hfound).1
    rw [withSlot, hsame]

theorem slotMut_retry {mutation : SlotMutation} (hvalid : self.Valid) :
    SettlesAt (·.slotMut sessionId slot guard (·.perform mutation)) self := by
  intro next hperform
  obtain ⟨snapshot, after, hslot, hafter, rfl⟩ := slotMut_eq_ok.mp hperform
  obtain ⟨⟨session, hsession, -⟩, hat, -⟩ := requireSlot_eq_ok.mp hslot
  have hendpoints := (hvalid.slots session hsession snapshot (slotAt_mem hat)).snapshot
  have hreceive : snapshot.receive (.mutated mutation) = .ok (true, after) := hafter
  obtain ⟨hfound, hwritten⟩ := requireSlot_withSlot hvalid.slotsSorted hslot
    (SlotSnapshot.receive_offer hreceive)
  apply slotMut_eq_ok.mpr
  refine ⟨after, after, hfound, ?_, hwritten.symm⟩
  exact SlotSnapshot.perform_retry hendpoints.endpoints.window.distinct hafter

theorem authorizeOrphan_retry {grant : OrphanAuthorityGrant} (hvalid : self.Valid) :
    SettlesAt (·.authorizeOrphan grant) self := by
  intro next hauthorize
  obtain ⟨snapshot, after, hslot, hclaim, hafter, rfl⟩ := authorizeOrphan_eq_true.mp hauthorize
  have hoffer : after.offer = snapshot.offer := by
    obtain ⟨-, rfl⟩ := SlotSnapshot.authorizeOrphan_eq_true.mp hafter
    rfl
  obtain ⟨hfound, hwritten⟩ := requireSlot_withSlot hvalid.slotsSorted hslot hoffer
  have hat := (requireSlot_eq_ok.mp hfound).2.1
  have hsame : grant.claim = ⟨(self.withSlot after).runnerId,
      grant.claim.sessionId, after.slot, grant.claim.guard⟩ := by
    rw [SlotSnapshot.slot, hoffer]
    exact hclaim
  have hagain := SlotSnapshot.authorizeOrphan_retry hafter
  simp [authorizeOrphan, orphanClaim, hfound, ← hsame, hat, hagain, hwritten]

theorem Ordered.advanceLeasePoll (hordered : self.Ordered)
    (hadvance : self.advanceLeasePoll sessionId slot expectedCurrent successor
        receipts = .ok (changed, next)) : next.Ordered := by
  obtain ⟨-, session, checkpoint, hsession, -, -, hcase⟩ := advanceLeasePoll_eq_ok.mp hadvance
  rcases hcase with ⟨-, -, -, rfl⟩ | ⟨-, -, -, -, rfl⟩
  · refine ⟨hordered.slots, ?_⟩
    intro later hlater
    cases hlater
    exact hordered.covered session hsession
  · exact hordered

theorem applyPollCommand_retry {command : LeasePollCommandRecord} (hordered : self.Ordered)
    (hcommand : self.applyPollCommand sessionId command = .ok (changed, next)) :
    next.applyPollCommand sessionId command = .ok (false, next) := by
  cases changed with
  | false =>
    have hsame := applyPollCommand_eq_false hcommand
    subst hsame
    exact hcommand
  | true =>
    cases command with
    | noCommand => simp [applyPollCommand] at hcommand
    | recorded => simp [applyPollCommand] at hcommand
    | ignored => exact commitCommand_retry hordered hcommand
    | leaseOffer => exact recordOffer_retry hordered hcommand
    | cancellation => exact recordCancellation_retry hordered hcommand

theorem applyPollCommand_polls {command : LeasePollCommandRecord}
    (hcommand : self.applyPollCommand sessionId command = .ok (changed, next))
    (hsession : self.session = some session) :
    ∃ later, next.session = some later ∧ later.sessionId = session.sessionId ∧
      later.leasePollCheckpoints = session.leasePollCheckpoints := by
  rcases applyPollCommand_commits hcommand with rfl | ⟨_, _, committed, hcommit, hnext⟩
  · exact ⟨session, hsession, rfl, rfl⟩
  · obtain ⟨current, hcurrent, -, -, -, -, rfl⟩ := commitCommand_eq_true.mp hcommit
    rw [hsession, Option.some.injEq] at hcurrent
    subst hcurrent
    rw [hnext]
    exact ⟨_, rfl, rfl, rfl⟩

theorem completeLeasePoll_retry {completion : LeasePollCompletion} (hvalid : self.Valid) :
    SettlesAt (·.completeLeasePoll sessionId completion) self := by
  intro next hcomplete
  obtain ⟨checkpointChanged, commandChanged, advanced, hadvance, hcommand,
    hcarried, hchanged⟩ := completeLeasePoll_eq_ok.mp hcomplete
  have hmoved : checkpointChanged = true := by
    cases commandChanged with
    | true => exact hcarried rfl
    | false => simpa using hchanged.symm
  subst hmoved
  have hagain := applyPollCommand_retry (hvalid.ordered.advanceLeasePoll hadvance) hcommand
  obtain ⟨hreceipts, session, checkpoint, hsession, hid, hfound, hcase⟩ :=
    advanceLeasePoll_eq_ok.mp hadvance
  simp only [true_and, Bool.true_eq_false, false_and, or_false] at hcase
  obtain ⟨hcurrent, hunused, rfl⟩ := hcase
  obtain ⟨later, hlater, hlaterId, hpolls⟩ := applyPollCommand_polls hcommand rfl
  have hother : completion.successorOperationId ≠ completion.expectedCurrent := by
    intro hsame
    unfold SessionSnapshot.leasePollOperationIsUsed at hunused
    rw [List.any_eq_false] at hunused
    have hused := hunused checkpoint (lookup_mem hfound).1
    simp [hcurrent, hsame] at hused
  have hwritten : later.checkpointAt completion.pollSlot = some
      { slot := completion.pollSlot
        currentOperationId := completion.successorOperationId
        acknowledgesOperationId := some completion.expectedCurrent
        pendingAuthorityReceipts := completion.pendingAuthorityReceipts } := by
    rw [SessionSnapshot.checkpointAt, hpolls]
    exact checkpointAt_withCheckpoint (hvalid.session session hsession).checkpointsSorted hfound rfl
  have hnext := advanceLeasePoll_retry hlater (hlaterId.trans hid) hreceipts hwritten hother
  apply completeLeasePoll_eq_ok.mpr
  exact ⟨false, false, next, hnext, hagain, by simp, rfl⟩

end StoredJournal

def JournalMutation.isRelease : JournalMutation → Bool
  | .releaseSlot .. | .releaseRejectedOffer .. => true
  | _ => false

/-- Whatever a mutation changed, requesting it again changes nothing. -/
theorem StoredJournal.mutation_retry {self next : StoredJournal}
    {mutation : JournalMutation} (hvalidate : self.validate = .ok ())
    (hkept : mutation.isRelease = false)
    (hperform : self.perform mutation = .ok (true, next)) :
    next.perform mutation = .ok (false, next) := by
  have hvalid := validate_eq_ok.mp hvalidate
  cases mutation with
  | beginSession => exact beginSession_retry hperform
  | prepareLeasePoll => exact prepareLeasePoll_retry hperform
  | completeLeasePoll => exact completeLeasePoll_retry hvalid hperform
  | acknowledgeLeaseAuthorityReceipts =>
    exact acknowledgeLeaseAuthorityReceipts_retry hvalid hperform
  | recordCommandDisposition => exact commitCommand_retry hvalid.ordered hperform
  | recordOffer => exact recordOffer_retry hvalid.ordered hperform
  | recordCancellation => exact recordCancellation_retry hvalid.ordered hperform
  | authorizeOrphan => exact authorizeOrphan_retry hvalid hperform
  | releaseSlot => simp [JournalMutation.isRelease] at hkept
  | releaseRejectedOffer => simp [JournalMutation.isRelease] at hkept
  | onSlot => exact slotMut_retry hvalid hperform

namespace Sample

def offerPoll : JournalMutation :=
  .completeLeasePoll session
    { pollSlot := offer.slot
      expectedCurrent := operation 20
      successorOperationId := operation 21
      pendingAuthorityReceipts := []
      command := .leaseOffer offer }

def preparedPoll : List JournalMutation :=
  [.beginSession binding, .prepareLeasePoll session offer.slot (operation 20)]

end Sample

theorem StoredJournal.mutation_retry_offerPoll :
    ∃ next, ((StoredJournal.new Sample.runner).run Sample.preparedPoll).perform
          Sample.offerPoll = .ok (true, next) ∧
        next.perform Sample.offerPoll = .ok (false, next) := by
  have hchanged :
      (((StoredJournal.new Sample.runner).run Sample.preparedPoll).perform
        Sample.offerPoll).map Prod.fst = .ok true := by
    decide +kernel
  obtain ⟨⟨changed, next⟩, hperform, rfl⟩ := map_eq_ok.mp hchanged
  exact ⟨next, hperform, StoredJournal.mutation_retry
    (validate_run (validate_new Sample.runner) Sample.preparedPoll)
    (by decide) hperform⟩

end AutomataCi
