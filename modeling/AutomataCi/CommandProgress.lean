import AutomataCi.CommandProcessing

/-!
# Progress of the command stream

The next command of a session is committed, whatever the other tasks ask of
the journal in the meantime, unless it cancels a job which the journal does
not let become `Cancelling`: a job which is finalizing or was cancelled
before, or whose slot was closed since the command was classified.
-/

namespace AutomataCi

open GuardedResult KeyedList

namespace StoredJournal

variable {self next : StoredJournal} {session : SessionSnapshot}
  {sessionId : RunnerSessionId}

/-! ## What other tasks leave alone -/

/-- A mutation of another task of the session: it presents no command, and
it opens no session. -/
def OtherTask : JournalMutation → Prop
  | .beginSession _ => False
  | mutation => mutation.presented = none

/-- The session keeps its identity and its command stream, and no slot is
occupied or cancelled. -/
structure SameStream (journal next : StoredJournal) : Prop where
  runner : next.runnerId = journal.runnerId
  session :
    ∀ session, journal.session = some session → ∃ later, next.session = some later ∧
        later.binding = session.binding ∧
        later.commandState = session.commandState
  slots :
    ∀ slot ∈ next.slots, ∃ old ∈ journal.slots,
      slot.offer = old.offer ∧ slot.cancellation = old.cancellation

namespace SameStream

theorem refl (self : StoredJournal) : SameStream self self where
  runner := rfl
  session session hsession := ⟨session, hsession, rfl, rfl⟩
  slots slot hslot := ⟨slot, hslot, rfl, rfl⟩

theorem trans {middle : StoredJournal} (hfirst : SameStream self middle)
    (hsecond : SameStream middle next) : SameStream self next where
  runner := hsecond.runner.trans hfirst.runner
  session := by
    intro session hsession
    obtain ⟨later, hlater, hbinding, hstate⟩ := hfirst.session session hsession
    obtain ⟨latest, hlatest, hbinding', hstate'⟩ := hsecond.session later hlater
    exact ⟨latest, hlatest, hbinding'.trans hbinding, hstate'.trans hstate⟩
  slots := by
    intro slot hslot
    obtain ⟨middle, hmiddle, hoffer, hcancellation⟩ := hsecond.slots slot hslot
    obtain ⟨old, hold, hoffer', hcancellation'⟩ := hfirst.slots middle hmiddle
    exact ⟨old, hold, hoffer.trans hoffer', hcancellation.trans hcancellation'⟩

theorem withCheckpoints {checkpoints : List LeasePollCheckpoint}
    (hsession : self.session = some session) :
    SameStream self (self.withSession { session with leasePollCheckpoints := checkpoints }) where
  runner := rfl
  session := by
    intro current hcurrent
    have hsame : session = current := Option.some.inj (hsession.symm.trans hcurrent)
    subst hsame
    exact ⟨_, rfl, rfl, rfl⟩
  slots slot hslot := ⟨slot, hslot, rfl, rfl⟩

theorem withSlot {snapshot after : SlotSnapshot}
    (hmem : snapshot ∈ self.slots) (hoffer : after.offer = snapshot.offer)
    (hcancellation : after.cancellation = snapshot.cancellation) :
    SameStream self (self.withSlot after) where
  runner := rfl
  session session hsession := ⟨session, hsession, rfl, rfl⟩
  slots := by
    intro slot hslot
    rcases mem_replace.mp hslot with ⟨hold, -⟩ | ⟨rfl, -⟩
    · exact ⟨slot, hold, rfl, rfl⟩
    · exact ⟨snapshot, hmem, hoffer, hcancellation⟩

variable {slot : RunnerSlotOrdinal} {mutation : JournalMutation}

theorem withoutSlot : SameStream self (self.withoutSlot slot) where
  runner := rfl
  session session hsession := ⟨session, hsession, rfl, rfl⟩
  slots := by
    intro kept hkept
    exact ⟨kept, (mem_remove.mp hkept).1, rfl, rfl⟩

theorem advanceLeasePoll {expectedCurrent successor : OperationId}
    {receipts : List LeaseAuthorityPollReceipt} {changed : Bool}
    (hadvance : self.advanceLeasePoll sessionId slot expectedCurrent successor
        receipts = .ok (changed, next)) : SameStream self next := by
  obtain ⟨-, session, checkpoint, hsession, -, -, hcase⟩ := advanceLeasePoll_eq_ok.mp hadvance
  rcases hcase with ⟨-, -, -, rfl⟩ | ⟨-, -, -, -, rfl⟩
  · exact withCheckpoints hsession
  · exact refl _

theorem perform (hother : OtherTask mutation)
    (hperform : self.perform mutation = .ok (true, next)) : SameStream self next := by
  cases mutation with
  | beginSession => exact absurd hother not_false
  | prepareLeasePoll =>
    obtain ⟨session, hsession, -, -, -, -, rfl⟩ := prepareLeasePoll_eq_true.mp hperform
    exact withCheckpoints hsession
  | completeLeasePoll sessionId completion =>
    obtain ⟨checkpointChanged, commandChanged, advanced, hadvance,
      hcommand, -, -⟩ := completeLeasePoll_eq_ok.mp hperform
    have hidle : completion.command = .noCommand := by
      have hnone : completion.command.presented = none := hother
      cases hcarried : completion.command <;> simp_all [LeasePollCommandRecord.presented]
    rw [hidle, applyPollCommand] at hcommand
    obtain ⟨-, rfl⟩ : commandChanged = false ∧ next = advanced := by simpa [eq_comm] using hcommand
    exact advanceLeasePoll hadvance
  | acknowledgeLeaseAuthorityReceipts =>
    obtain ⟨session, checkpoint, hsession, -, -, -, -, -, rfl⟩ :=
      acknowledgeLeaseAuthorityReceipts_eq_true.mp hperform
    exact withCheckpoints hsession
  | recordCommandDisposition => simp [OtherTask, JournalMutation.presented] at hother
  | recordOffer => simp [OtherTask, JournalMutation.presented] at hother
  | recordCancellation => simp [OtherTask, JournalMutation.presented] at hother
  | authorizeOrphan =>
    obtain ⟨snapshot, after, hslot, -, hafter, rfl⟩ := authorizeOrphan_eq_true.mp hperform
    obtain ⟨-, hat, -⟩ := requireSlot_eq_ok.mp hslot
    obtain ⟨-, hwritten⟩ := SlotSnapshot.authorizeOrphan_eq_true.mp hafter
    exact withSlot (slotAt_mem hat) (by rw [hwritten]) (by rw [hwritten])
  | releaseSlot =>
    obtain ⟨-, -, -, -, rfl⟩ := releaseSlot_eq_ok.mp hperform
    exact withoutSlot
  | releaseRejectedOffer =>
    obtain ⟨-, -, -, -, rfl⟩ := releaseRejectedOffer_eq_ok.mp hperform
    exact withoutSlot
  | onSlot =>
    obtain ⟨snapshot, after, hslot, hafter, rfl⟩ := slotMut_eq_ok.mp hperform
    obtain ⟨-, hat, -⟩ := requireSlot_eq_ok.mp hslot
    obtain ⟨hoffer, hcancellation⟩ := SlotSnapshot.perform_keeps_commands hafter
    exact withSlot (slotAt_mem hat) hoffer hcancellation

theorem step (hother : OtherTask mutation) : SameStream self (self.step mutation) := by
  rcases self.step_cases mutation with hsame | ⟨candidate, hperform, hstep, -⟩
  · rw [hsame]
    exact refl self
  · rw [hstep]
    have hkept := perform hother hperform
    exact { hkept with }

theorem run {mutations : List JournalMutation}
    (hothers : ∀ mutation ∈ mutations, OtherTask mutation) :
    SameStream self (self.run mutations) := by
  induction mutations generalizing self with
  | nil => exact refl self
  | cons mutation rest ih =>
    obtain ⟨hfirst, hrest⟩ := List.forall_mem_cons.mp hothers
    have hstep : SameStream self (self.step mutation) := step hfirst
    exact hstep.trans (ih hrest)

theorem slotAt_eq_none (hsame : SameStream self next) (hvacant : self.slotAt slot = none) :
    next.slotAt slot = none := by
  apply lookup_eq_none_iff.mpr
  intro found hfound
  obtain ⟨old, hold, hoffer, -⟩ := hsame.slots found hfound
  have hordinal : found.ordinal = old.ordinal := by
    simp only [SlotSnapshot.ordinal, SlotSnapshot.slot, hoffer]
  rw [hordinal]
  exact lookup_eq_none_iff.mp hvacant old hold

end SameStream

/-! ## The next command -/

/-- The command is the next one of the session, and its operation is not in
use. -/
structure Awaits (journal : StoredJournal) (session : SessionSnapshot)
    (sessionId : RunnerSessionId) (command : DurableCommand) : Prop where
  opened : journal.session = some session
  identity : session.sessionId = sessionId
  next : session.commandCursor.next = some command.sequence
  unused : journal.commandIsUsed command = false

def Committed (journal : StoredJournal) (command : DurableCommand) : Prop :=
  ∃ session disposition, journal.session = some session ∧
    session.commandCursor = .through command.sequence ∧
    ⟨command, disposition⟩ ∈ session.commandTombstones

variable {command : DurableCommand} {effect : CommandEffect}

theorem commandIsUsed_eq_false_iff (hsession : self.session = some session) :
    self.commandIsUsed command = false ↔ (∀ tombstone ∈ session.commandTombstones,
          tombstone.command.operationId ≠ command.operationId) ∧
        ∀ slot ∈ self.slots, slot.offer.command.operationId ≠ command.operationId ∧
            ∀ cancellation ∈ slot.cancellation,
              cancellation.command.operationId ≠ command.operationId := by
  simp only [commandIsUsed, hsession, Option.any_some, Bool.or_eq_false_iff,
    List.any_eq_false, decide_eq_true_eq, Bool.or_eq_true, not_or, ne_eq]
  refine and_congr_right fun _ => forall₂_congr fun slot _ => and_congr_right fun _ => ?_
  cases slot.cancellation <;> simp

namespace Awaits

variable {command : DurableCommand}

section

variable (hawaits : self.Awaits session sessionId command)

include hawaits

theorem of_sameStream (hsame : SameStream self next) :
    ∃ later, next.Awaits later sessionId command ∧ later.binding = session.binding := by
  obtain ⟨later, hlater, hbinding, hstate⟩ := hsame.session session hawaits.opened
  have hcursor : later.commandCursor = session.commandCursor := congrArg CommandState.cursor hstate
  have htombstones : later.commandTombstones = session.commandTombstones :=
    congrArg CommandState.tombstones hstate
  have hid : later.sessionId = session.sessionId := congrArg CommandState.sessionId hstate
  obtain ⟨hfresh, hslots⟩ := (commandIsUsed_eq_false_iff hawaits.opened).mp hawaits.unused
  refine ⟨later, ⟨hlater, hid.trans hawaits.identity, ?_, ?_⟩, hbinding⟩
  · rw [hcursor]
    exact hawaits.next
  · rw [commandIsUsed_eq_false_iff hlater, htombstones]
    refine ⟨hfresh, ?_⟩
    intro slot hslot
    obtain ⟨old, hold, hoffer, hcancellation⟩ := hsame.slots slot hslot
    rw [hoffer, hcancellation]
    exact hslots old hold

theorem not_committed : ¬self.Committed command := by
  rintro ⟨found, disposition, hfound, hcursor, -⟩
  have hsame : session = found := Option.some.inj (hawaits.opened.symm.trans hfound)
  subst hsame
  exact CommandCursor.ne_through_of_next hawaits.next hcursor.symm

theorem replayedCommandDisposition_eq :
    self.replayedCommandDisposition sessionId command = .ok none := by
  have hbeyond := isBeyondCursor_of_next hawaits.next
  unfold isBeyondCursor at hbeyond
  simp only [replayedCommandDisposition, hawaits.opened, okOr, ok_bind,
    hawaits.identity, ne_eq, not_true_eq_false, rejectIf, if_false]
  cases hcursor : session.commandCursor.acknowledgedThrough with
  | none => rfl
  | some =>
    simp only [hcursor, decide_eq_true_eq] at hbeyond
    simp only [hbeyond, if_true]
    rfl

theorem commitCommand_eq (disposition : CommandDisposition) :
    self.commitCommand sessionId command disposition = .ok (true,
        self.withSession (withCommand session command disposition)) :=
  commitCommand_eq_true.mpr ⟨session, hawaits.opened, hawaits.identity,
    isBeyondCursor_of_next hawaits.next, hawaits.unused, hawaits.next, rfl⟩

end

end Awaits

theorem committed_withCommand {disposition : CommandDisposition}
    (hsession : self.session = some (withCommand session command disposition)) :
    self.Committed command := by
  refine ⟨_, disposition, hsession, rfl, ?_⟩
  simp only [withCommand, pushTombstone]
  split
  · rename_i hfull
    cases htombstones : session.commandTombstones with
    | nil => simp [htombstones, maxCommandTombstones] at hfull
    | cons => simp
  · simp

/-! ## Effects -/

/-- The slot still holds the lease, and its job may become `Cancelling`. -/
def Cancellable (journal : StoredJournal) (slot : RunnerSlotOrdinal) (guard : LeaseGuard) : Prop :=
  ∃ snapshot, journal.slotAt slot = some snapshot ∧
    snapshot.guard = guard ∧ snapshot.orphan = none ∧
    snapshot.offerStatus ≠ .rejected ∧ snapshot.cancellation = none ∧
    (snapshot.lifecycle = .cancelling ∨ snapshot.lifecycle.hasEdge .cancelling = true)

structure Placeable (journal : StoredJournal) (session : SessionSnapshot)
    (offer : LeaseOfferRecord) : Prop where
  valid : offer.validate = .ok ()
  runner : offer.lease.runnerId = journal.runnerId
  jobIr : offer.jobIr.version = session.selectedJobIr
  ordinal : offer.slot.get ≤ maxJournaledSlots
  vacant : journal.slotAt offer.slot = none
  room : journal.slots.length < maxJournaledSlots

/-- What the journal needs to record an effect of its next command. -/
def Accepts (journal : StoredJournal) (session : SessionSnapshot) : CommandEffect → Prop
  | .ignored _ _ => True
  | .leaseOffer offer => journal.Placeable session offer
  | .cancellation slot guard _ => journal.Cancellable slot guard

theorem Awaits.applyPollCommand_iff (hawaits : self.Awaits session sessionId effect.command) :
    (∃ next, self.applyPollCommand sessionId effect.pollRecord = .ok (true, next)) ↔
      self.Accepts session effect := by
  cases effect with
  | ignored => exact iff_of_true ⟨_, hawaits.commitCommand_eq _⟩ trivial
  | leaseOffer =>
    constructor
    · rintro ⟨next, hoffer⟩
      obtain ⟨current, committed, hcurrent, -, hvalid, hrunner, hjobIr,
        hordinal, hvacant, hroom, -, -⟩ := recordOffer_eq_true.mp hoffer
      have hsame : session = current := Option.some.inj (hawaits.opened.symm.trans hcurrent)
      subst hsame
      exact ⟨hvalid, hrunner, hjobIr, hordinal, hvacant, hroom⟩
    · intro hplaceable
      have hcommit := hawaits.commitCommand_eq .applied
      exact ⟨_, recordOffer_eq_true.mpr ⟨session, _, hawaits.opened,
        hawaits.identity, hplaceable.valid, hplaceable.runner,
        hplaceable.jobIr, hplaceable.ordinal, hplaceable.vacant,
        hplaceable.room, hcommit, rfl⟩⟩
  | cancellation slot guard =>
    constructor
    · rintro ⟨next, hcancel⟩
      obtain ⟨snapshot, committed, cancelled, hslot, horphan, hstatus,
        hnone, -, happlied, -⟩ := recordCancellation_eq_true.mp hcancel
      obtain ⟨-, hat, hguard⟩ := requireSlot_eq_ok.mp hslot
      obtain ⟨hlifecycle, -⟩ := SlotSnapshot.applyCancellation_eq_ok.mp happlied
      exact ⟨snapshot, hat, hguard, horphan, hstatus, hnone, hlifecycle⟩
    · rintro ⟨snapshot, hat, hguard, horphan, hstatus, hnone, hlifecycle⟩
      have hslot : self.requireSlot sessionId slot guard = .ok snapshot := requireSlot_eq_ok.mpr
          ⟨⟨session, hawaits.opened, hawaits.identity⟩, hat, hguard⟩
      exact ⟨_, recordCancellation_eq_true.mpr ⟨snapshot, _, _, hslot,
        horphan, hstatus, hnone, hawaits.commitCommand_eq .applied,
        SlotSnapshot.applyCancellation_eq_ok.mpr ⟨hlifecycle, rfl⟩, rfl⟩⟩

theorem committed_of_applyPollCommand
    (hcommand : self.applyPollCommand sessionId effect.pollRecord = .ok (true, next)) :
    next.Committed effect.command := by
  cases effect with
  | ignored =>
    obtain ⟨session, -, -, -, -, -, rfl⟩ := commitCommand_eq_true.mp hcommand
    exact committed_withCommand rfl
  | leaseOffer =>
    obtain ⟨current, committed, -, -, -, -, -, -, -, -, hcommit, rfl⟩ :=
      recordOffer_eq_true.mp hcommand
    obtain ⟨session, -, -, -, -, -, rfl⟩ := commitCommand_eq_true.mp hcommit
    exact committed_withCommand rfl
  | cancellation =>
    obtain ⟨snapshot, committed, cancelled, -, -, -, -, hcommit, -, rfl⟩ :=
      recordCancellation_eq_true.mp hcommand
    obtain ⟨session, -, -, -, -, -, rfl⟩ := commitCommand_eq_true.mp hcommit
    exact committed_withCommand rfl

theorem perform_effect (effect : CommandEffect) :
    self.perform (effect.mutation sessionId) =
      self.applyPollCommand sessionId effect.pollRecord := by
  cases effect <;> rfl

/-! ## Carriers -/

end StoredJournal

def PendingLeasePollCompletion.checkpoint
    (completion : PendingLeasePollCompletion) : LeasePollCheckpoint where
  slot := completion.slot
  currentOperationId := completion.successorOperationId
  acknowledgesOperationId := some completion.expectedCurrent
  pendingAuthorityReceipts := completion.pendingAuthorityReceipts

namespace StoredJournal

variable {self next : StoredJournal} {session : SessionSnapshot}
  {sessionId : RunnerSessionId}

/-- The lease poll which carries a command is the current one of its slot. -/
def Ready (session : SessionSnapshot) : CommandCarrier → Prop
  | .reply => True
  | .leasePoll completion =>
    validateAuthorityReceipts completion.pendingAuthorityReceipts = .ok () ∧ (∃ checkpoint,
        session.checkpointAt completion.slot = some checkpoint ∧
          checkpoint.currentOperationId = completion.expectedCurrent) ∧
      session.leasePollOperationIsUsed completion.successorOperationId = false

variable {effect : CommandEffect} {command : DurableCommand} {offer : LeaseOffer}

theorem accepts_withCheckpoint {checkpoint : LeasePollCheckpoint} :
    (self.withSession (session.withCheckpoint checkpoint)).Accepts
        (session.withCheckpoint checkpoint) effect ↔
      self.Accepts session effect := by
  cases effect with
  | ignored => exact Iff.rfl
  | leaseOffer =>
    constructor
    · intro hplaceable
      exact { hplaceable with }
    · intro hplaceable
      exact { hplaceable with }
  | cancellation => exact Iff.rfl

theorem Awaits.perform_iff {carrier : CommandCarrier}
    (hawaits : self.Awaits session sessionId effect.command) (hready : Ready session carrier) :
    (∃ next, self.perform (carrier.mutation sessionId effect) =
          .ok (true, next) ∧ next.Committed effect.command) ↔
      self.Accepts session effect := by
  cases carrier with
  | reply =>
    rw [CommandCarrier.mutation, perform_effect, ← hawaits.applyPollCommand_iff]
    refine exists_congr fun next => ⟨And.left, ?_⟩
    intro hcommand
    exact ⟨hcommand, committed_of_applyPollCommand hcommand⟩
  | leasePoll completion =>
    obtain ⟨hreceipts, ⟨checkpoint, hcheckpoint, hcurrent⟩, hunused⟩ := hready
    have hadvance : self.advanceLeasePoll sessionId completion.slot
        completion.expectedCurrent completion.successorOperationId
        completion.pendingAuthorityReceipts =
        .ok (true, self.withSession (session.withCheckpoint completion.checkpoint)) :=
      advanceLeasePoll_eq_ok.mpr ⟨hreceipts, session, checkpoint,
        hawaits.opened, hawaits.identity, hcheckpoint,
        .inl ⟨rfl, hcurrent, hunused, rfl⟩⟩
    have hadvanced : (self.withSession (session.withCheckpoint completion.checkpoint)).Awaits
        (session.withCheckpoint completion.checkpoint) sessionId
        effect.command := by
      refine ⟨rfl, hawaits.identity, hawaits.next, ?_⟩
      have hunused := hawaits.unused
      rw [commandIsUsed, hawaits.opened] at hunused
      exact hunused
    have haccepts :
        (self.withSession (session.withCheckpoint completion.checkpoint)).Accepts
            (session.withCheckpoint completion.checkpoint) effect ↔
          self.Accepts session effect :=
      accepts_withCheckpoint
    rw [← haccepts, ← hadvanced.applyPollCommand_iff]
    constructor
    · rintro ⟨next, hperform, hcommitted⟩
      obtain ⟨checkpointChanged, commandChanged, advanced, hadvance',
        hcommand, -, -⟩ := completeLeasePoll_eq_ok.mp hperform
      rw [show (completion.record effect.pollRecord).pollSlot =
        completion.slot from rfl] at hadvance'
      have hsame := hadvance.symm.trans hadvance'
      simp only [Except.ok.injEq, Prod.mk.injEq] at hsame
      obtain ⟨-, rfl⟩ := hsame
      cases commandChanged with
      | true => exact ⟨next, hcommand⟩
      | false =>
        rw [applyPollCommand_eq_false hcommand] at hcommitted
        exact absurd hcommitted hadvanced.not_committed
    · rintro ⟨next, hcommand⟩
      have hdone := committed_of_applyPollCommand hcommand
      refine ⟨next, ?_, hdone⟩
      exact completeLeasePoll_eq_ok.mpr ⟨true, true, _, hadvance, hcommand, fun _ => rfl, rfl⟩

theorem Awaits.performed_of_record {mutation : JournalMutation}
    (hawaits : self.Awaits session sessionId command) (hrecord : self.record mutation = .ok next)
    (hcommitted : next.Committed command) :
    ∃ candidate, self.perform mutation = .ok (true, candidate) ∧
      next = { candidate with revision := candidate.revision + 1 } := by
  unfold record at hrecord
  rcases hcommit : self.commit mutation with error | ⟨changed, written⟩
  · simp [hcommit] at hrecord
  · rw [hcommit] at hrecord
    obtain rfl : written = next := Except.ok.inj hrecord
    simp only [commit, bind_eq_ok, Prod.exists] at hcommit
    obtain ⟨reported, candidate, hperform, hrest⟩ := hcommit
    cases reported with
    | false =>
      simp only [Bool.false_eq_true, if_false, pure_eq_ok, Prod.mk.injEq] at hrest
      obtain ⟨-, rfl⟩ := hrest
      exact absurd hcommitted hawaits.not_committed
    | true =>
      simp only [if_true, bind_eq_ok, incrementRevision_eq_ok, pure_eq_ok, Prod.mk.injEq] at hrest
      obtain ⟨incremented, ⟨-, rfl⟩, -, -, -, rfl⟩ := hrest
      exact ⟨candidate, hperform, rfl⟩

theorem Valid.record_iff {carrier : CommandCarrier} (hvalid : self.Valid)
    (hawaits : self.Awaits session sessionId effect.command) (hready : Ready session carrier)
    (hrevision : self.revision + 1 < 2 ^ 64) :
    (∃ next, self.record (carrier.mutation sessionId effect) = .ok next ∧
        next.Committed effect.command) ↔
      self.Accepts session effect := by
  rw [← hawaits.perform_iff hready]
  constructor
  · rintro ⟨next, hrecord, hcommitted⟩
    obtain ⟨candidate, hperform, rfl⟩ := hawaits.performed_of_record hrecord hcommitted
    exact ⟨candidate, hperform, hcommitted⟩
  · rintro ⟨next, hperform, hcommitted⟩
    have hadmitted : self.Admits (carrier.mutation sessionId effect) ∧
        Bounded (carrier.mutation sessionId effect) := by
      cases carrier <;> cases effect <;> exact ⟨trivial, trivial⟩
    have hcommit := hvalid.commit_eq hadmitted.2 hadmitted.1 hperform hrevision
    refine ⟨{ next with revision := next.revision + 1 }, ?_, hcommitted⟩
    rw [record, hcommit]

/-! ## Calls -/

def Commits (command : DurableCommand)
    (result : Except CommandError (RuntimeCommandOutcome × StoredJournal)) :
    Prop :=
  ∃ outcome next, result = .ok (outcome, next) ∧ next.Committed command

/-- A call which records an effect and reports an outcome. -/
theorem commits_bind_iff {recorded : Except CommandError StoredJournal}
    {outcome : RuntimeCommandOutcome} :
    Commits command (do let next ← recorded; return (outcome, next)) ↔
      ∃ next, recorded = .ok next ∧ next.Committed command := by
  cases recorded with
  | error =>
    constructor
    · rintro ⟨reported, written, hresult, -⟩
      contradiction
    · rintro ⟨written, hresult, -⟩
      contradiction
  | ok next =>
    constructor
    · rintro ⟨reported, written, hresult, hcommitted⟩
      simp only [ok_bind, pure_eq_ok, Prod.mk.injEq] at hresult
      obtain ⟨-, rfl⟩ := hresult
      exact ⟨next, rfl, hcommitted⟩
    · rintro ⟨written, hwritten, hcommitted⟩
      obtain rfl := Except.ok.inj hwritten
      exact ⟨outcome, next, rfl, hcommitted⟩

def OnlyOthers (others : Interleaving) : Prop :=
  (∀ mutation ∈ others.beforeSnapshot, OtherTask mutation) ∧
    ∀ mutation ∈ others.beforeRecord, OtherTask mutation

variable {others : Interleaving} {carrier : CommandCarrier}

theorem SameStream.classified (hothers : OnlyOthers others) :
    SameStream self (self.classified others) :=
  run hothers.1

theorem SameStream.recording (hothers : OnlyOthers others) :
    SameStream (self.classified others) (self.recording others) :=
  run hothers.2

theorem recordCancelJob_commits_iff {cancel : CancelJob}
    {later : SessionSnapshot} (hvalid : (self.recording others).Valid)
    (hawaits : self.Awaits session cancel.sessionId cancel.command)
    (hlater : (self.recording others).Awaits later cancel.sessionId cancel.command)
    (hready : Ready later carrier)
    (hrevision : (self.recording others).revision + 1 < 2 ^ 64) :
    Commits cancel.command (self.recordCancelJob others carrier cancel) ↔
      ∀ target ∈ (self.classified others).cancellationTarget cancel,
        (self.recording others).Cancellable target.slot cancel.guard := by
  simp only [recordCancelJob, hawaits.replayedCommandDisposition_eq, ok_bind]
  cases (self.classified others).cancellationTarget cancel with
  | none =>
    simp only [Option.mem_def, reduceCtorEq, false_implies, implies_true,
      iff_true, commits_bind_iff]
    exact (hvalid.record_iff hlater hready hrevision).mpr trivial
  | some =>
    simp only [Option.mem_def, Option.some.injEq, forall_eq', commits_bind_iff]
    exact hvalid.record_iff hlater hready hrevision

/-- What the server guarantees of the offers it sends to a session. -/
structure Admissible (journal : StoredJournal) (session : SessionSnapshot)
    (offer : LeaseOffer) : Prop where
  valid : offer.record.validate = .ok ()
  runner : offer.record.lease.runnerId = journal.runnerId
  jobIr : offer.record.jobIr.version = session.selectedJobIr

theorem Valid.length_lt {slot : RunnerSlotOrdinal}
    (hvalid : self.Valid) (hsession : self.session = some session)
    (hordinal : slot.get ≤ maxJournaledSlots)
    (hvacant : self.slotAt slot = none) :
    self.slots.length < maxJournaledSlots := by
  have hfree := lookup_eq_none_iff.mp hvacant
  -- The vacant ordinal is one more key below the bound.
  have hsorted : SortedBy id (insert id slot.get (self.slots.map SlotSnapshot.ordinal)) := by
    apply SortedBy.insert (sortedBy_map_key.mp hvalid.slotsSorted)
    intro ordinal hmem
    obtain ⟨found, hfound, rfl⟩ := List.mem_map.mp hmem
    exact hfree found hfound
  have hlength := hsorted.length_le (by
      intro ordinal hmem
      rcases mem_insert.mp hmem with rfl | hold
      · exact slot.positive
      · obtain ⟨found, -, rfl⟩ := List.mem_map.mp hold
        exact found.slot.positive)
    (by
      intro ordinal hmem
      rcases mem_insert.mp hmem with rfl | hold
      · exact hordinal
      · obtain ⟨found, hfound, rfl⟩ := List.mem_map.mp hold
        exact (hvalid.slots session hsession found hfound).ordinal)
  rw [length_insert, List.length_map] at hlength
  exact hlength

theorem Awaits.slotAt_eq_none (hawaits : self.Awaits session offer.sessionId offer.record.command)
    (havailable : self.slotUnavailable offer = false) : self.slotAt offer.record.slot = none := by
  unfold slotUnavailable at havailable
  cases hslot : self.slotAt offer.record.slot with
  | none => rfl
  | some existing =>
    rw [hslot] at havailable
    have hsame : existing.offer.command = offer.record.command := by simpa using havailable
    have hunused := (commandIsUsed_eq_false_iff hawaits.opened).mp hawaits.unused
    have hother := (hunused.2 existing (slotAt_mem hslot)).1
    exact absurd (congrArg DurableCommand.operationId hsame) hother

theorem Awaits.slots_of_perform {offer : LeaseOfferRecord}
    (hawaits : self.Awaits session sessionId offer.command)
    (hcommitted : next.Committed offer.command)
    (hperform : self.perform (carrier.mutation sessionId (.leaseOffer offer)) = .ok (true, next)) :
    next.slots = insert SlotSnapshot.ordinal (.fromOffer offer) self.slots := by
  cases carrier with
  | reply =>
    obtain ⟨current, committed, -, -, -, -, -, -, -, -, hcommit, rfl⟩ :=
      recordOffer_eq_true.mp hperform
    simp only [commitCommand_slots hcommit]
  | leasePoll =>
    obtain ⟨checkpointChanged, commandChanged, advanced, hadvance,
      hcommand, -, -⟩ := completeLeasePoll_eq_ok.mp hperform
    have hsame := SameStream.advanceLeasePoll hadvance
    obtain ⟨later, hlater, -⟩ := hawaits.of_sameStream hsame
    cases commandChanged with
    | false =>
      rw [applyPollCommand_eq_false hcommand] at hcommitted
      exact absurd hcommitted hlater.not_committed
    | true =>
      obtain ⟨current, committed, -, -, -, -, -, -, -, -, hcommit,
        rfl⟩ := recordOffer_eq_true.mp hcommand
      simp only [commitCommand_slots hcommit, (advanceLeasePoll_slots hadvance).1]

theorem Awaits.slotAt_of_record {offer : LeaseOfferRecord} (hvalid : self.Valid)
    (hawaits : self.Awaits session sessionId offer.command)
    (hvacant : self.slotAt offer.slot = none)
    (hcommitted : next.Committed offer.command)
    (hrecord : self.record (carrier.mutation sessionId (.leaseOffer offer)) = .ok next) :
    next.slotAt offer.slot = some (.fromOffer offer) := by
  obtain ⟨candidate, hperform, rfl⟩ := hawaits.performed_of_record hrecord hcommitted
  have hdone : candidate.Committed offer.command := hcommitted
  have hslots := hawaits.slots_of_perform hdone hperform
  have hsorted : SortedBy SlotSnapshot.ordinal candidate.slots := by
    rw [hslots]
    exact hvalid.slotsSorted.insert (lookup_eq_none_iff.mp hvacant)
  refine (lookup_eq_some_iff hsorted.nodup).mpr ⟨?_, rfl⟩
  rw [hslots]
  exact mem_insert.mpr (.inl rfl)

theorem placeOffer_commits {maxParallelJobs : Nat} (hvalid : (self.recording others).Valid)
    (hothers : OnlyOthers others) {earlier : SessionSnapshot}
    (hclassified : (self.classified others).Awaits earlier offer.sessionId offer.record.command)
    (hlater : (self.recording others).Awaits session offer.sessionId
        offer.record.command) (hready : Ready session carrier)
    (hrevision : (self.recording others).revision + 1 < 2 ^ 64)
    (hadmissible : (self.recording others).Admissible session offer)
    (hslots : maxParallelJobs ≤ maxJournaledSlots) :
    Commits offer.record.command (self.placeOffer others maxParallelJobs carrier offer false) := by
  have hignored : ∀ reason outcome, Commits offer.record.command (do
      let next ← (self.recording others).record (carrier.mutation
        offer.sessionId (.ignored offer.record.command reason))
      return (outcome, next)) := by
    intro reason outcome
    rw [commits_bind_iff]
    have heffect : (self.recording others).Awaits session offer.sessionId
        (CommandEffect.ignored offer.record.command reason).command := hlater
    exact (hvalid.record_iff heffect hready hrevision).mpr trivial
  unfold placeOffer
  split
  · exact hignored _ _
  · rename_i hparallel
    split
    · exact hignored _ _
    · rename_i havailable
      have hvacant : (self.recording others).slotAt offer.record.slot = none := by
        apply (SameStream.recording hothers).slotAt_eq_none
        exact hclassified.slotAt_eq_none (by simpa using havailable)
      have hordinal : offer.record.slot.get ≤ maxJournaledSlots := by omega
      have hplaceable : (self.recording others).Accepts session (.leaseOffer offer.record) :=
        { valid := hadmissible.valid
          runner := hadmissible.runner
          jobIr := hadmissible.jobIr
          ordinal := hordinal
          vacant := hvacant
          room := hvalid.length_lt hlater.opened hordinal hvacant }
      obtain ⟨next, hrecord, hcommitted⟩ :=
        (hvalid.record_iff hlater hready hrevision).mpr hplaceable
      have hplaced := hlater.slotAt_of_record hvalid hvacant hcommitted hrecord
      refine ⟨.applied, next, ?_, hcommitted⟩
      simp [hrecord, verifyOffer, hplaced, SlotSnapshot.fromOffer, rejectIf]

def AdmissibleCommand (journal : StoredJournal) (session : SessionSnapshot) : ServerCommand → Prop
  | .leaseOffer offer => journal.Admissible session offer
  | .cancelJob _ => True

/-- A job which a cancellation names at the snapshot can be cancelled when
the journal records the command. -/
def CanSettle (journal : StoredJournal) (others : Interleaving) : ServerCommand → Prop
  | .leaseOffer _ => True
  | .cancelJob cancel =>
    ∀ target ∈ (journal.classified others).cancellationTarget cancel,
      (journal.recording others).Cancellable target.slot cancel.guard

/-- The next command of a session is committed exactly if it does not cancel
a job which can no longer become `Cancelling`. -/
theorem processCommand_commits_iff {maxParallelJobs : Nat}
    {message : ServerCommand} {later : SessionSnapshot}
    (hvalid : self.validate = .ok ())
    (hawaits : self.Awaits session message.sessionId message.command)
    (hadmissible : self.AdmissibleCommand session message)
    (hslots : maxParallelJobs ≤ maxJournaledSlots)
    (hothers : OnlyOthers others)
    (hsession : (self.recording others).session = some later)
    (hready : Ready later carrier)
    (hrevision : (self.recording others).revision + 1 < 2 ^ 64) :
    Commits message.command (self.processCommand others maxParallelJobs carrier message) ↔
      self.CanSettle others message := by
  have hsame : SameStream self (self.classified others) := .classified hothers
  have hkept : SameStream (self.classified others) (self.recording others) := .recording hothers
  obtain ⟨earlier, hclassified, hbinding⟩ := hawaits.of_sameStream hsame
  obtain ⟨found, hrecording, hbinding'⟩ := hclassified.of_sameStream hkept
  obtain rfl : found = later := Option.some.inj (hrecording.opened.symm.trans hsession)
  have hjournal : (self.recording others).Valid :=
    validate_eq_ok.mp (validate_run (validate_run hvalid _) _)
  cases message with
  | cancelJob => exact recordCancelJob_commits_iff hjournal hawaits hrecording hready hrevision
  | leaseOffer offer =>
    refine iff_of_true ?_ trivial
    have hjobIr : found.selectedJobIr = session.selectedJobIr :=
      congrArg SessionBinding.selectedJobIr (hbinding'.trans hbinding)
    have hoffer : (self.recording others).Admissible found offer :=
      { valid := hadmissible.valid
        runner := by
          rw [hkept.runner, hsame.runner]
          exact hadmissible.runner
        jobIr := by
          rw [hjobIr]
          exact hadmissible.jobIr }
    have hfresh : self.replayedCommandDisposition offer.sessionId offer.record.command = .ok none :=
      hawaits.replayedCommandDisposition_eq
    simp only [processCommand, recordLeaseOffer, hfresh, ok_bind]
    exact placeOffer_commits hjournal hothers hclassified hrecording hready hrevision hoffer hslots

end StoredJournal

namespace Sample

def finalizingJob : StoredJournal :=
  (StoredJournal.new runner).run (adoptedJob ++ [onSlot (.transitionLifecycle .preparing),
    onSlot (.transitionLifecycle .running), onSlot (.transitionLifecycle .finalizing)])

def offeredJob : StoredJournal :=
  (StoredJournal.new runner).run [.beginSession binding, .recordOffer session offer]

def cancelJob (sequence : CommandSequence) (number : Nat) : CancelJob where
  sessionId := session
  command := ⟨sequence, operation number, ⟨0⟩⟩
  attemptId := offer.lease.attemptId
  guard := offer.lease.guard
  requestedAt := ⟨0⟩

def firstCancel : CancelJob :=
  cancelJob secondSequence 40

def noOthers : Interleaving :=
  ⟨[], []⟩

/-- The offer is accepted before the snapshot and the lease renewed after it. -/
def slotTasks : Interleaving :=
  ⟨[onSlot .acceptOffer, onSlot (.recordRuntimeAuthorityDelivery authority)],
    [onSlot (.renewLease ⟨2⟩)]⟩

end Sample

open Sample

theorem StoredJournal.processCommand_commits_iff_interleaved :
    Commits firstCancel.command
      (offeredJob.processCommand slotTasks 1 .reply (.cancelJob firstCancel)) := by
  have hopened : offeredJob.session.any (fun session =>
      session.sessionId = firstCancel.sessionId ∧
        session.commandCursor.next = some firstCancel.command.sequence) = true := by
    decide +kernel
  obtain ⟨opened, hsession, hnext⟩ := (Option.any_eq_true _ _).mp hopened
  obtain ⟨hidentity, hnext⟩ := of_decide_eq_true hnext
  have hvalid : offeredJob.validate = .ok () := validate_run (validate_new _) _
  have hawaits : offeredJob.Awaits opened (ServerCommand.cancelJob firstCancel).sessionId
      (ServerCommand.cancelJob firstCancel).command :=
    ⟨hsession, hidentity, hnext, by decide +kernel⟩
  obtain ⟨later, hlater⟩ : ∃ later, (offeredJob.recording slotTasks).session = some later :=
    Option.isSome_iff_exists.mp (by decide +kernel)
  have hready : Ready later .reply := trivial
  have hothers : OnlyOthers slotTasks := by
    simp [OnlyOthers, slotTasks, onSlot, OtherTask, JournalMutation.presented]
  have htarget : ∀ target ∈ (offeredJob.classified slotTasks).cancellationTarget firstCancel,
      target.slot = offer.slot := by
    decide +kernel
  have hsettles : ((offeredJob.recording slotTasks).slotAt offer.slot).any (fun slot =>
      slot.guard = firstCancel.guard ∧ slot.orphan = none ∧ slot.offerStatus ≠ .rejected ∧
        slot.cancellation = none ∧
        (slot.lifecycle = .cancelling ∨ slot.lifecycle.hasEdge .cancelling = true)) = true := by
    decide +kernel
  obtain ⟨slot, hslot, hcancels⟩ := (Option.any_eq_true _ _).mp hsettles
  refine (StoredJournal.processCommand_commits_iff hvalid hawaits trivial (by decide) hothers
    hlater hready (by decide +kernel)).mpr fun target hmem => ?_
  rw [htarget target hmem]
  exact ⟨slot, hslot, of_decide_eq_true hcancels⟩

/-- The cancellation of a job which is finalizing, and the second one of a
job, are the next command of their session and fail. -/
theorem StoredJournal.cancellation_refused :
    let second : CommandSequence := ⟨2, by decide, by decide⟩
    let third : CommandSequence := ⟨3, by decide, by decide⟩
    let first := Sample.firstCancel
    let again := Sample.cancelJob third 41
    let finalizing := Sample.finalizingJob
    let offered := Sample.offeredJob
    let cancelled := offered.step (.recordCancellation Sample.session
      Sample.offer.slot Sample.offer.lease.guard
      ⟨first.command, first.requestedAt⟩)
    (finalizing.session.map fun session => session.commandCursor.next) = some (some second) ∧
      finalizing.commandIsUsed first.command = false ∧
      finalizing.processCommand Sample.noOthers 1 .reply (.cancelJob first) =
        .error (.journal .invalidLifecycleTransition) ∧
      offered.processCommand Sample.noOthers 1 .reply (.cancelJob first) =
        .ok (.applied, cancelled) ∧
      (cancelled.session.map fun session => session.commandCursor.next) = some (some third) ∧
      cancelled.commandIsUsed again.command = false ∧
      cancelled.processCommand Sample.noOthers 1 .reply (.cancelJob again) =
        .error (.journal .commandReplayConflict) := by
  decide +kernel

end AutomataCi
