import AutomataCi.SlotHistories

/-!
# Histories along a run of the journal

What a mutation of the journal does to its slots: nothing, record an offer,
pass an event to one slot, or release one.  The committed events of every slot
are followed along a run, and every slot is where its events lead.
-/

namespace AutomataCi

open GuardedResult KeyedList

namespace StoredJournal

variable {self next : StoredJournal} {sessionId : RunnerSessionId}
  {mutation : JournalMutation}

variable {slot : RunnerSlotOrdinal} {snapshot : SlotSnapshot}

theorem slotAt_mem (hslot : self.slotAt slot = some snapshot) : snapshot ∈ self.slots :=
  (lookup_mem hslot).1

theorem ordinal_eq_iff : snapshot.ordinal = slot.get ↔ snapshot.slot = slot := by
  cases hfound : snapshot.slot
  cases slot
  simp [SlotSnapshot.ordinal, hfound]

theorem slotAt_slot (hslot : self.slotAt slot = some snapshot) : snapshot.slot = slot :=
  ordinal_eq_iff.mp (lookup_mem hslot).2

def requestedEvent : JournalMutation → Option (RunnerSlotOrdinal × SlotEvent)
  | .onSlot _ slot _ request => some (slot, .mutated request)
  | .recordCancellation _ slot _ request => some (slot, .cancelled request)
  | .authorizeOrphan grant => some (grant.claim.slot, .orphaned grant)
  | .completeLeasePoll _ completion =>
    match completion.command with
    | .cancellation slot _ request => some (slot, .cancelled request)
    | _ => none
  | _ => none

theorem onSlot_of_requestedEvent {request : SlotMutation}
    (hrequested : requestedEvent mutation = some (slot, .mutated request)) :
    ∃ sessionId guard, mutation = .onSlot sessionId slot guard request := by
  cases mutation with
  | onSlot sessionId addressed guard =>
    simp only [requestedEvent, Option.some.injEq, Prod.mk.injEq,
      SlotEvent.mutated.injEq] at hrequested
    obtain ⟨rfl, rfl⟩ := hrequested
    exact ⟨sessionId, guard, rfl⟩
  | completeLeasePoll =>
    rw [requestedEvent] at hrequested
    split at hrequested <;> simp at hrequested
  | _ => simp [requestedEvent] at hrequested

def Releases (slot : RunnerSlotOrdinal) : JournalMutation → Prop
  | .releaseSlot _ released _ => released = slot
  | .releaseRejectedOffer _ released _ _ => released = slot
  | _ => False

/-- What a mutation may do to the slots: nothing, record an offer in a vacant
slot, pass an event to one slot, or release one. -/
inductive SlotsChange (self : StoredJournal) (mutation : JournalMutation)
    (slots : List SlotSnapshot) : Prop where
  | kept (same : slots = self.slots)
  | offered (offer : LeaseOfferRecord)
      (vacant : self.slotAt offer.slot = none)
      (inserted :
        slots = insert SlotSnapshot.ordinal (.fromOffer offer) self.slots)
  | received (session : SessionSnapshot) (slot after : SlotSnapshot)
      (event : SlotEvent)
      (opened : self.session = some session)
      (present : slot ∈ self.slots)
      (addressed :
        event.Addressed self.runnerId session.sessionId slot.offer)
      (accepted : slot.receive event = .ok (true, after))
      (requested : requestedEvent mutation = some (slot.slot, event))
      (written : slots = replace SlotSnapshot.ordinal after self.slots)
  | released (slot : RunnerSlotOrdinal)
      (requested : Releases slot mutation)
      (removed :
        slots = remove SlotSnapshot.ordinal slot.get self.slots)

variable {disposition : CommandDisposition} {changed : Bool}

theorem commitCommand_slots {command : DurableCommand}
    (hcommit : self.commitCommand sessionId command disposition = .ok (true, next)) :
    next.slots = self.slots := by
  obtain ⟨session, -, -, -, -, -, rfl⟩ := commitCommand_eq_true.mp hcommit
  rfl

theorem SlotsChange.recordOffer {offer : LeaseOfferRecord}
    (hoffer : self.recordOffer sessionId offer = .ok (true, next)) :
    SlotsChange self mutation next.slots := by
  obtain ⟨session, committed, -, -, -, -, -, -, hvacant, -, hcommit, rfl⟩ :=
    recordOffer_eq_true.mp hoffer
  refine .offered offer hvacant ?_
  simp only [commitCommand_slots hcommit]

theorem SlotsChange.recordCancellation {guard : LeaseGuard} {cancellation : CancellationRecord}
    (hrequested : requestedEvent mutation = some (slot, .cancelled cancellation))
    (hcancel : self.recordCancellation sessionId slot guard cancellation = .ok (true, next)) :
    SlotsChange self mutation next.slots := by
  obtain ⟨snapshot, committed, cancelled, hslot, -, -, -, hcommit,
    happlied, rfl⟩ := recordCancellation_eq_true.mp hcancel
  obtain ⟨⟨session, hsession, -⟩, hat, -⟩ := requireSlot_eq_ok.mp hslot
  have hreceive : snapshot.receive (.cancelled cancellation) = .ok (true, cancelled) := by
    simp [SlotSnapshot.receive, happlied]
  rw [← slotAt_slot hat] at hrequested
  refine .received session snapshot cancelled (.cancelled cancellation)
    hsession (slotAt_mem hat) trivial hreceive hrequested ?_
  simp only [StoredJournal.withSlot, commitCommand_slots hcommit]

theorem advanceLeasePoll_slots {expectedCurrent successor : OperationId}
    {receipts : List LeaseAuthorityPollReceipt}
    (hadvance : self.advanceLeasePoll sessionId slot expectedCurrent successor
        receipts = .ok (changed, next)) :
    next.slots = self.slots ∧ next.runnerId = self.runnerId ∧
      next.session.map SessionSnapshot.sessionId = self.session.map SessionSnapshot.sessionId := by
  obtain ⟨-, session, checkpoint, hsession, -, -, hcase⟩ := advanceLeasePoll_eq_ok.mp hadvance
  rcases hcase with ⟨-, -, -, rfl⟩ | ⟨-, -, -, -, rfl⟩
  · exact ⟨rfl, rfl, by rw [hsession]; rfl⟩
  · exact ⟨rfl, rfl, rfl⟩

theorem SlotsChange.congr {polled : StoredJournal} {slots : List SlotSnapshot}
    (hslots : polled.slots = self.slots)
    (hrunner : polled.runnerId = self.runnerId)
    (hsession :
      polled.session.map SessionSnapshot.sessionId = self.session.map SessionSnapshot.sessionId)
    (hchange : SlotsChange polled mutation slots) :
    SlotsChange self mutation slots := by
  cases hchange with
  | kept same => exact .kept (same.trans hslots)
  | offered offer vacant inserted =>
    rw [slotAt, hslots] at vacant
    rw [hslots] at inserted
    exact .offered offer vacant inserted
  | received session slot after event opened present addressed accepted requested written =>
      rw [opened, Option.map_some] at hsession
      obtain ⟨current, hcurrent, hid⟩ := Option.map_eq_some_iff.mp hsession.symm
      rw [hslots] at present written
      refine .received current slot after event hcurrent present ?_ accepted requested written
      rw [hid, ← hrunner]
      exact addressed
  | released slot requested removed =>
    rw [hslots] at removed
    exact .released slot requested removed

variable {command : LeasePollCommandRecord}

theorem applyPollCommand_eq_false
    (hcommand : self.applyPollCommand sessionId command = .ok (false, next)) :
    next = self := by
  cases command with
  | noCommand => simpa [applyPollCommand, eq_comm] using hcommand
  | recorded =>
    simp only [applyPollCommand, bind_eq_ok, pure_eq_ok, Prod.mk.injEq, true_and] at hcommand
    obtain ⟨-, -, rfl⟩ := hcommand
    rfl
  | ignored => exact (commitCommand_eq_false.mp hcommand).1
  | leaseOffer =>
    simp only [applyPollCommand, StoredJournal.recordOffer, bind_eq_ok,
      requireSession_eq_ok, rejectIf_eq_ok, exists_const] at hcommand
    obtain ⟨session, -, -, -, -, -, -, hrest⟩ := hcommand
    split at hrest
    · split at hrest <;> simp_all
    · simp only [bind_eq_ok, rejectIf_eq_ok, exists_const, Prod.exists] at hrest
      obtain ⟨-, fresh, committed, hcommit, hfresh⟩ := hrest
      cases fresh with
      | true => simp at hfresh
      | false =>
        simp only [Bool.false_eq_true, if_false, pure_eq_ok, Prod.mk.injEq, true_and] at hfresh
        subst hfresh
        exact (commitCommand_eq_false.mp hcommit).1
  | cancellation =>
    simp only [applyPollCommand, StoredJournal.recordCancellation,
      bind_eq_ok, rejectIf_eq_ok, exists_const] at hcommand
    obtain ⟨snapshot, -, -, -, hrest⟩ := hcommand
    split at hrest
    · simpa [eq_comm] using hrest
    · simp only [bind_eq_ok, rejectIf_eq_ok, exists_const, Prod.exists] at hrest
      obtain ⟨-, fresh, committed, hcommit, hfresh⟩ := hrest
      cases fresh with
      | true => simp at hfresh
      | false =>
        simp only [Bool.false_eq_true, if_false, pure_eq_ok, Prod.mk.injEq, true_and] at hfresh
        subst hfresh
        exact (commitCommand_eq_false.mp hcommit).1

theorem applyPollCommand_commits
    (hcommand : self.applyPollCommand sessionId command = .ok (changed, next)) :
    next = self ∨ ∃ accepted disposition committed,
      self.commitCommand sessionId accepted disposition = .ok (true, committed) ∧
        next = { committed with slots := next.slots } := by
  cases changed with
  | false => exact .inl (applyPollCommand_eq_false hcommand)
  | true =>
    cases command with
    | noCommand => simp [applyPollCommand] at hcommand
    | recorded => simp [applyPollCommand] at hcommand
    | ignored => exact .inr ⟨_, _, next, hcommand, rfl⟩
    | leaseOffer =>
      obtain ⟨session, committed, -, -, -, -, -, -, -, -, hcommit,
        rfl⟩ := recordOffer_eq_true.mp hcommand
      exact .inr ⟨_, _, committed, hcommit, rfl⟩
    | cancellation =>
      obtain ⟨snapshot, committed, cancelled, -, -, -, -, hcommit, -,
        rfl⟩ := recordCancellation_eq_true.mp hcommand
      exact .inr ⟨_, _, committed, hcommit, rfl⟩

theorem SlotsChange.applyPollCommand
    (hrequested : ∀ slot guard cancellation, command = .cancellation slot guard cancellation →
          requestedEvent mutation = some (slot, .cancelled cancellation))
    (hcommand : self.applyPollCommand sessionId command = .ok (changed, next)) :
    SlotsChange self mutation next.slots := by
  cases changed with
  | false =>
    rw [applyPollCommand_eq_false hcommand]
    exact .kept rfl
  | true =>
    cases command with
    | noCommand => simp [StoredJournal.applyPollCommand] at hcommand
    | recorded => simp [StoredJournal.applyPollCommand] at hcommand
    | ignored => exact .kept (commitCommand_slots hcommand)
    | leaseOffer => exact .recordOffer hcommand
    | cancellation slot guard cancellation =>
      exact .recordCancellation (hrequested slot guard cancellation rfl) hcommand

theorem SlotsChange.perform (hperform : self.perform mutation = .ok (true, next)) :
    SlotsChange self mutation next.slots := by
  cases mutation with
  | beginSession =>
    obtain ⟨-, rfl⟩ := beginSession_eq_true.mp hperform
    exact .kept rfl
  | prepareLeasePoll =>
    obtain ⟨current, -, -, -, -, -, rfl⟩ := prepareLeasePoll_eq_true.mp hperform
    exact .kept rfl
  | completeLeasePoll =>
    obtain ⟨checkpointChanged, commandChanged, advanced, hadvance,
      hcommand, -, -⟩ := completeLeasePoll_eq_ok.mp hperform
    obtain ⟨hslots, hrunner, hsession⟩ := advanceLeasePoll_slots hadvance
    refine .congr hslots hrunner hsession (.applyPollCommand ?_ hcommand)
    intro slot guard cancellation hcarried
    rw [requestedEvent, hcarried]
  | acknowledgeLeaseAuthorityReceipts =>
    obtain ⟨current, checkpoint, -, -, -, -, -, -, rfl⟩ :=
      acknowledgeLeaseAuthorityReceipts_eq_true.mp hperform
    exact .kept rfl
  | recordCommandDisposition => exact .kept (commitCommand_slots hperform)
  | recordOffer => exact .recordOffer hperform
  | recordCancellation => exact .recordCancellation rfl hperform
  | authorizeOrphan grant =>
    obtain ⟨snapshot, after, hslot, hclaim, hafter, rfl⟩ := authorizeOrphan_eq_true.mp hperform
    obtain ⟨⟨session, hsession, hid⟩, hat, hguard⟩ := requireSlot_eq_ok.mp hslot
    refine .received session snapshot after (.orphaned grant) hsession
      (slotAt_mem hat) ?_ hafter ?_ rfl
    · rw [SlotEvent.Addressed, hid, hclaim, ← hguard]
      rfl
    · rw [requestedEvent, slotAt_slot hat]
  | releaseSlot session slot =>
    obtain ⟨-, -, -, -, rfl⟩ := releaseSlot_eq_ok.mp hperform
    exact .released slot rfl rfl
  | releaseRejectedOffer session slot =>
    obtain ⟨-, -, -, -, rfl⟩ := releaseRejectedOffer_eq_ok.mp hperform
    exact .released slot rfl rfl
  | onSlot session slot guard request =>
    obtain ⟨snapshot, after, hslot, hafter, rfl⟩ := slotMut_eq_ok.mp hperform
    obtain ⟨⟨current, hsession, -⟩, hat, -⟩ := requireSlot_eq_ok.mp hslot
    refine .received current snapshot after (.mutated request) hsession
      (slotAt_mem hat) trivial hafter ?_ rfl
    rw [requestedEvent, slotAt_slot hat]

theorem SlotsChange.step (self : StoredJournal) (mutation : JournalMutation) :
    SlotsChange self mutation (self.step mutation).slots := by
  rcases self.step_cases mutation with hsame | ⟨candidate, hperform, hstep, -⟩
  · rw [hsame]
    exact .kept rfl
  · rw [hstep]
    have hchange : SlotsChange self mutation candidate.slots := .perform hperform
    exact hchange

/-- Two journals of one runner, in one session unless no slot is left. -/
structure SameOwner (journal later : StoredJournal) : Prop where
  runner : later.runnerId = journal.runnerId
  session :
    later.slots ≠ [] → later.session.map SessionSnapshot.sessionId =
        journal.session.map SessionSnapshot.sessionId

theorem SameOwner.withSession {session updated : SessionSnapshot}
    (hsession : self.session = some session)
    (hid : updated.sessionId = session.sessionId) :
    SameOwner self (self.withSession updated) := by
  refine ⟨rfl, fun _ => ?_⟩
  simp [StoredJournal.withSession, hsession, hid]

theorem SameOwner.commitCommand {command : DurableCommand}
    (hcommit : self.commitCommand sessionId command disposition = .ok (true, next)) :
    next.runnerId = self.runnerId ∧
      next.session.map SessionSnapshot.sessionId = self.session.map SessionSnapshot.sessionId := by
  obtain ⟨session, hsession, -, -, -, -, rfl⟩ := commitCommand_eq_true.mp hcommit
  exact ⟨rfl, by rw [hsession]; rfl⟩

theorem SameOwner.applyPollCommand
    (hcommand : self.applyPollCommand sessionId command = .ok (changed, next)) :
    next.runnerId = self.runnerId ∧
      next.session.map SessionSnapshot.sessionId = self.session.map SessionSnapshot.sessionId := by
  rcases applyPollCommand_commits hcommand with rfl | ⟨_, _, committed, hcommit, hnext⟩
  · exact ⟨rfl, rfl⟩
  · have howner := SameOwner.commitCommand hcommit
    rw [hnext]
    exact howner

theorem SameOwner.perform (hvalid : self.Valid)
    (hperform : self.perform mutation = .ok (true, next)) :
    SameOwner self next := by
  cases mutation with
  | beginSession =>
    obtain ⟨hfree, rfl⟩ := beginSession_eq_true.mp hperform
    refine ⟨rfl, fun hslots => absurd ?_ hslots⟩
    cases hsession : self.session with
    | none =>
      by_contra hoccupied
      exact hvalid.sessionPresent hoccupied hsession
    | some current => exact (hfree current hsession).2
  | prepareLeasePoll =>
    obtain ⟨current, hsession, -, -, -, -, rfl⟩ := prepareLeasePoll_eq_true.mp hperform
    exact .withSession hsession rfl
  | completeLeasePoll =>
    obtain ⟨checkpointChanged, commandChanged, advanced, hadvance,
      hcommand, -, -⟩ := completeLeasePoll_eq_ok.mp hperform
    obtain ⟨-, hrunner, hsession⟩ := advanceLeasePoll_slots hadvance
    obtain ⟨hlater, hkept⟩ := SameOwner.applyPollCommand hcommand
    exact ⟨hlater.trans hrunner, fun _ => hkept.trans hsession⟩
  | acknowledgeLeaseAuthorityReceipts =>
    obtain ⟨current, checkpoint, hsession, -, -, -, -, -, rfl⟩ :=
      acknowledgeLeaseAuthorityReceipts_eq_true.mp hperform
    exact .withSession hsession rfl
  | recordCommandDisposition =>
    obtain ⟨hrunner, hsession⟩ := SameOwner.commitCommand hperform
    exact ⟨hrunner, fun _ => hsession⟩
  | recordOffer session offer =>
    have hcommand : self.applyPollCommand session (.leaseOffer offer) = .ok (true, next) := hperform
    obtain ⟨hrunner, hsession⟩ := SameOwner.applyPollCommand hcommand
    exact ⟨hrunner, fun _ => hsession⟩
  | recordCancellation session slot guard cancellation =>
    have hcommand : self.applyPollCommand session
        (.cancellation slot guard cancellation) = .ok (true, next) :=
      hperform
    obtain ⟨hrunner, hsession⟩ := SameOwner.applyPollCommand hcommand
    exact ⟨hrunner, fun _ => hsession⟩
  | authorizeOrphan =>
    obtain ⟨snapshot, after, -, -, -, rfl⟩ := authorizeOrphan_eq_true.mp hperform
    exact ⟨rfl, fun _ => rfl⟩
  | releaseSlot =>
    obtain ⟨-, -, -, -, rfl⟩ := releaseSlot_eq_ok.mp hperform
    exact ⟨rfl, fun _ => rfl⟩
  | releaseRejectedOffer =>
    obtain ⟨-, -, -, -, rfl⟩ := releaseRejectedOffer_eq_ok.mp hperform
    exact ⟨rfl, fun _ => rfl⟩
  | onSlot =>
    obtain ⟨snapshot, after, -, -, rfl⟩ := slotMut_eq_ok.mp hperform
    exact ⟨rfl, fun _ => rfl⟩

theorem SameOwner.step (hvalid : self.Valid) (mutation : JournalMutation) :
    SameOwner self (self.step mutation) := by
  rcases self.step_cases mutation with hsame | ⟨candidate, hperform, hstep, -⟩
  · rw [hsame]
    exact ⟨rfl, fun _ => rfl⟩
  · rw [hstep]
    have howner := SameOwner.perform hvalid hperform
    exact ⟨howner.runner, howner.session⟩

/-- The committed events of the slot with this ordinal, after one more
mutation.  They start over whenever the slot is offered or released. -/
def extendHistory (self : StoredJournal) (history : Nat → List SlotEvent)
    (mutation : JournalMutation) (ordinal : Nat) : List SlotEvent :=
  match lookup SlotSnapshot.ordinal ordinal self.slots,
      lookup SlotSnapshot.ordinal ordinal (self.step mutation).slots with
  | some before, some after =>
    if after = before then history ordinal
    else
      history ordinal ++ ((requestedEvent mutation).map Prod.snd).toList
  | _, _ => []

def slotHistories (self : StoredJournal) (history : Nat → List SlotEvent) :
    List JournalMutation → Nat → List SlotEvent
  | [] => history
  | mutation :: rest =>
    (self.step mutation).slotHistories (self.extendHistory history mutation) rest

/-- Every slot is where its history of committed events ends. -/
def HasHistories (self : StoredJournal) (history : Nat → List SlotEvent) : Prop :=
  ∀ session ∈ self.session, ∀ slot ∈ self.slots, SlotRun self.runnerId session.sessionId slot.offer
      (history slot.ordinal) slot

theorem lookup_of_mem (hvalid : self.Valid) {slot : SlotSnapshot} (hmem : slot ∈ self.slots) :
    lookup SlotSnapshot.ordinal slot.ordinal self.slots = some slot :=
  (lookup_eq_some_iff hvalid.slotsSorted.nodup).mpr ⟨hmem, rfl⟩

variable {history : Nat → List SlotEvent}

theorem extendHistory_of_kept {slot : SlotSnapshot} (hvalid : self.Valid)
    (hlater : (self.step mutation).Valid) (hbefore : slot ∈ self.slots)
    (hafter : slot ∈ (self.step mutation).slots) :
    self.extendHistory history mutation slot.ordinal = history slot.ordinal := by
  rw [extendHistory, lookup_of_mem hvalid hbefore, lookup_of_mem hlater hafter]
  exact if_pos rfl

theorem bounded_of_received {slot after : SlotSnapshot} {event : SlotEvent}
    (haccepted : slot.receive event = .ok (true, after))
    (hlog : ∀ log ∈ after.logDelivery, log.Valid) :
    event.Bounded := by
  unfold SlotEvent.Bounded
  split
  · rename_i publication enqueuedAt
    obtain ⟨-, log, written, accepted, -, -, -, hrecord, rfl⟩ :=
      SlotSnapshot.recordLogSegment_eq_true.mp haccepted
    have hvalid := hlog written rfl
    have hrecorded := LogDeliveryCursor.recordSegment_mem hrecord
    exact (hvalid.segmentsValid publication.segment hrecorded).2
  · trivial

theorem HasHistories.step (hhistories : self.HasHistories history) (hvalid : self.Valid)
    (mutation : JournalMutation) :
    (self.step mutation).HasHistories (self.extendHistory history mutation) := by
  have hlater : (self.step mutation).Valid :=
    validate_eq_ok.mp (validate_step (validate_eq_ok.mpr hvalid) mutation)
  have howner := SameOwner.step hvalid mutation
  intro session hsession slot hslot
  have hid := howner.session (List.ne_nil_of_mem hslot)
  rw [Option.mem_def.mp hsession, Option.map_some] at hid
  obtain ⟨current, hcurrent, hsame⟩ := Option.map_eq_some_iff.mp hid.symm
  rw [howner.runner, ← hsame]
  have hkept : slot ∈ self.slots → SlotRun self.runnerId current.sessionId slot.offer
        (self.extendHistory history mutation slot.ordinal) slot := by
    intro hold
    rw [extendHistory_of_kept hvalid hlater hold hslot]
    exact hhistories current hcurrent slot hold
  cases SlotsChange.step self mutation with
  | kept same =>
    apply hkept
    rwa [same] at hslot
  | offered offer vacant inserted =>
    rw [inserted, mem_insert] at hslot
    rcases hslot with rfl | hold
    · have hvacant : lookup SlotSnapshot.ordinal
          (SlotSnapshot.fromOffer offer).ordinal self.slots = none :=
        vacant
      rw [extendHistory, hvacant]
      exact .offered
    · exact hkept hold
  | received opened before after event hopened present addressed accepted requested written =>
      have hoffer := SlotSnapshot.receive_offer accepted
      have hmem := hslot
      rw [written] at hmem
      rcases mem_replace.mp hmem with ⟨hold, -⟩ | ⟨rfl, -⟩
      · exact hkept hold
      have hsession : opened = current := by
        rw [hcurrent, Option.some.injEq] at hopened
        exact hopened.symm
      subst hsession
      by_cases hunchanged : slot = before
      · exact hkept (hunchanged ▸ present)
      have hordinal : slot.ordinal = before.ordinal := by
        simp only [SlotSnapshot.ordinal, SlotSnapshot.slot, hoffer]
      have hevents : self.extendHistory history mutation slot.ordinal =
          history before.ordinal ++ [event] := by
        have hafter := lookup_of_mem hlater hslot
        rw [hordinal] at hafter
        rw [extendHistory, hordinal, lookup_of_mem hvalid present, hafter, requested]
        exact if_neg hunchanged
      rw [hevents, hoffer]
      have hbounded := bounded_of_received accepted
        (hlater.slots session hsession slot hslot).snapshot.log
      exact (hhistories opened hcurrent before present).step addressed hbounded accepted
  | released released requested removed =>
    apply hkept
    rw [removed] at hslot
    exact (mem_remove.mp hslot).1

theorem HasHistories.run (hhistories : self.HasHistories history) (hvalid : self.Valid)
    (mutations : List JournalMutation) :
    (self.run mutations).HasHistories (self.slotHistories history mutations) := by
  induction mutations generalizing self history with
  | nil => exact hhistories
  | cons mutation rest ih =>
    exact ih (hhistories.step hvalid mutation) (validate_eq_ok.mp
        (validate_step (validate_eq_ok.mpr hvalid) mutation))

theorem runnerId_run (hvalid : self.Valid) (mutations : List JournalMutation) :
    (self.run mutations).runnerId = self.runnerId := by
  induction mutations generalizing self with
  | nil => rfl
  | cons mutation rest ih =>
    have hlater : (self.step mutation).Valid := validate_eq_ok.mp
        (validate_step (validate_eq_ok.mpr hvalid) mutation)
    have hrest := ih hlater
    exact hrest.trans (SameOwner.step hvalid mutation).runner

/-- The committed events of every slot along a run from the empty journal. -/
def historiesOf (runnerId : RunnerId) (mutations : List JournalMutation) : Nat → List SlotEvent :=
  (new runnerId).slotHistories (fun _ => []) mutations

theorem hasHistories_run_new (runnerId : RunnerId) (mutations : List JournalMutation) :
    ((new runnerId).run mutations).HasHistories (historiesOf runnerId mutations) := by
  refine HasHistories.run ?_ (validate_eq_ok.mp (validate_new runnerId)) mutations
  intro session hsession
  simp [new] at hsession

end StoredJournal

end AutomataCi
