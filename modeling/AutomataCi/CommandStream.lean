import AutomataCi.NumberedLog
import AutomataCi.JournalHistories

/-!
# The stream of server commands

The commands which the journal committed since its session began, compared
with the cursor and the tombstones it keeps of them.  Four operations present
a command; each of them reaches `commitCommand`, which appends the next
command of the stream or recognises a replay.
-/

namespace AutomataCi

open GuardedResult KeyedList NumberedLog

def LeasePollCommandRecord.presented : LeasePollCommandRecord → Option CommandTombstone
  | .noCommand => none
  | .recorded command disposition => some ⟨command, disposition⟩
  | .ignored command reason => some ⟨command, .ignored reason⟩
  | .leaseOffer offer => some ⟨offer.command, .applied⟩
  | .cancellation _ _ request => some ⟨request.command, .applied⟩

def JournalMutation.presented : JournalMutation → Option CommandTombstone
  | .recordCommandDisposition _ command disposition => some ⟨command, disposition⟩
  | .recordOffer _ offer => some ⟨offer.command, .applied⟩
  | .recordCancellation _ _ _ cancellation => some ⟨cancellation.command, .applied⟩
  | .completeLeasePoll _ completion => completion.command.presented
  | _ => none

structure CommandState where
  sessionId : RunnerSessionId
  cursor : CommandCursor
  tombstones : List CommandTombstone
  deriving DecidableEq

def SessionSnapshot.commandState (session : SessionSnapshot) : CommandState :=
  ⟨session.sessionId, session.commandCursor, session.commandTombstones⟩

def StoredJournal.commandState (self : StoredJournal) : Option CommandState :=
  self.session.map SessionSnapshot.commandState

def CommandState.append (state : CommandState) (tombstone : CommandTombstone) : CommandState where
  sessionId := state.sessionId
  cursor := .through tombstone.command.sequence
  tombstones := StoredJournal.pushTombstone state.tombstones tombstone

variable {cursor : CommandCursor}

theorem CommandCursor.get_of_next_eq_some {sequence current : CommandSequence}
    (hnext : cursor.next = some sequence) (hcurrent : cursor.acknowledgedThrough = some current) :
    sequence.get = current.get + 1 := by
  rw [CommandCursor.next, hcurrent] at hnext
  exact CommandSequence.checkedNext_eq_some.mp hnext

theorem CommandCursor.ne_through_of_next {sequence : CommandSequence}
    (hnext : cursor.next = some sequence) : CommandCursor.through sequence ≠ cursor := by
  rintro rfl
  have hget := get_of_next_eq_some hnext rfl
  omega

theorem isBeyondCursor_of_next {session : SessionSnapshot} {command : DurableCommand}
    (hnext : session.commandCursor.next = some command.sequence) :
    StoredJournal.isBeyondCursor session command = true := by
  unfold StoredJournal.isBeyondCursor
  cases hcurrent : session.commandCursor.acknowledgedThrough with
  | none => rfl
  | some =>
    have hget := CommandCursor.get_of_next_eq_some hnext hcurrent
    simp only [decide_eq_true_eq]
    omega

namespace StoredJournal

variable {self next : StoredJournal} {sessionId : RunnerSessionId}
  {presented : Option CommandTombstone}

/-- The stream stays as it is, begins anew, or is extended by the command
which was presented. -/
inductive CommandChange (self : StoredJournal)
    (presented : Option CommandTombstone) (next : StoredJournal) :
    Prop where
  | kept (same : next.commandState = self.commandState)
      (idle : presented ≠ none → next.slots = self.slots)
  | begun (binding : SessionBinding)
      (unasked : presented = none)
      (other :
        ∀ state ∈ self.commandState, state.sessionId ≠ binding.sessionId)
      (opened :
        next.commandState = some (SessionSnapshot.new binding).commandState)
  | committed (state : CommandState) (tombstone : CommandTombstone)
      (opened : self.commandState = some state)
      (asked : presented = some tombstone)
      (expected : state.cursor.next = some tombstone.command.sequence)
      (appended : next.commandState = some (state.append tombstone))

variable {command : DurableCommand} {disposition : CommandDisposition}
  {tombstone : CommandTombstone} {offer : LeaseOfferRecord} {slot : RunnerSlotOrdinal}
  {guard : LeaseGuard} {cancellation : CancellationRecord} {mutation : JournalMutation}
  {session : SessionSnapshot}

theorem CommandChange.commitCommand
    (hcommit : self.commitCommand sessionId command disposition = .ok (true, next)) :
    CommandChange self (some ⟨command, disposition⟩) next := by
  obtain ⟨session, hsession, -, -, -, hnext, rfl⟩ := commitCommand_eq_true.mp hcommit
  refine .committed session.commandState ⟨command, disposition⟩ ?_ rfl hnext rfl
  rw [commandState, hsession, Option.map_some]

theorem CommandChange.of_session_eq {committed : StoredJournal}
    (hchange : CommandChange self (some tombstone) committed)
    (hmoved : committed.commandState ≠ self.commandState)
    (hsession : next.commandState = committed.commandState) :
    CommandChange self (some tombstone) next := by
  cases hchange with
  | kept same => exact absurd same hmoved
  | begun binding unasked => simp at unasked
  | committed state appended opened asked expected written =>
    exact .committed state appended opened asked expected (hsession.trans written)

theorem commandState_of_commitCommand
    (hcommit : self.commitCommand sessionId command disposition = .ok (true, next)) :
    next.commandState ≠ self.commandState := by
  obtain ⟨session, hsession, -, -, -, hnext, rfl⟩ := commitCommand_eq_true.mp hcommit
  have hmoved := CommandCursor.ne_through_of_next hnext
  simp only [commandState, withSession, hsession, Option.map_some, ne_eq, Option.some.injEq]
  intro hsame
  exact hmoved (congrArg CommandState.cursor hsame)

theorem CommandChange.recordOffer (hoffer : self.recordOffer sessionId offer = .ok (true, next)) :
    CommandChange self (some ⟨offer.command, .applied⟩) next := by
  obtain ⟨session, committed, -, -, -, -, -, -, -, -, hcommit, rfl⟩ := recordOffer_eq_true.mp hoffer
  exact (CommandChange.commitCommand hcommit).of_session_eq
    (commandState_of_commitCommand hcommit) rfl

theorem CommandChange.recordCancellation
    (hcancel : self.recordCancellation sessionId slot guard cancellation = .ok (true, next)) :
    CommandChange self (some ⟨cancellation.command, .applied⟩) next := by
  obtain ⟨snapshot, committed, cancelled, -, -, -, -, hcommit, -, rfl⟩ :=
    recordCancellation_eq_true.mp hcancel
  exact (CommandChange.commitCommand hcommit).of_session_eq
    (commandState_of_commitCommand hcommit) rfl

theorem CommandChange.applyPollCommand {command : LeasePollCommandRecord} {changed : Bool}
    (hcommand : self.applyPollCommand sessionId command = .ok (changed, next)) :
    CommandChange self command.presented next := by
  cases changed with
  | false =>
    rw [applyPollCommand_eq_false hcommand]
    exact .kept rfl fun _ => rfl
  | true =>
    cases command with
    | noCommand => simp [StoredJournal.applyPollCommand] at hcommand
    | recorded => simp [StoredJournal.applyPollCommand] at hcommand
    | ignored => exact .commitCommand hcommand
    | leaseOffer => exact .recordOffer hcommand
    | cancellation => exact .recordCancellation hcommand

theorem advanceLeasePoll_commandState {expectedCurrent successor : OperationId}
    {receipts : List LeaseAuthorityPollReceipt} {changed : Bool}
    (hadvance : self.advanceLeasePoll sessionId slot expectedCurrent successor
        receipts = .ok (changed, next)) : next.commandState = self.commandState := by
  obtain ⟨-, session, checkpoint, hsession, -, -, hcase⟩ := advanceLeasePoll_eq_ok.mp hadvance
  rcases hcase with ⟨-, -, -, rfl⟩ | ⟨-, -, -, -, rfl⟩
  · rw [commandState, commandState, hsession]
    rfl
  · rfl

theorem CommandChange.congr {polled : StoredJournal}
    (hstate : polled.commandState = self.commandState)
    (hslots : polled.slots = self.slots)
    (hchange : CommandChange polled presented next) :
    CommandChange self presented next := by
  cases hchange with
  | kept same idle =>
    rw [hstate] at same
    rw [hslots] at idle
    exact .kept same idle
  | begun binding unasked other opened =>
    rw [hstate] at other
    exact .begun binding unasked other opened
  | committed state tombstone opened asked expected appended =>
    rw [hstate] at opened
    exact .committed state tombstone opened asked expected appended

theorem CommandChange.of_unasked (hstate : next.commandState = self.commandState) :
    CommandChange self none next :=
  .kept hstate fun hasked => absurd rfl hasked

theorem CommandChange.perform (hperform : self.perform mutation = .ok (true, next)) :
    CommandChange self mutation.presented next := by
  cases mutation with
  | beginSession binding =>
    obtain ⟨hfree, rfl⟩ := beginSession_eq_true.mp hperform
    refine .begun binding rfl ?_ rfl
    intro state hstate
    obtain ⟨session, hsession, rfl⟩ := Option.mem_map.mp hstate
    exact (hfree session hsession).1
  | prepareLeasePoll =>
    obtain ⟨current, hsession, -, -, -, -, rfl⟩ := prepareLeasePoll_eq_true.mp hperform
    apply CommandChange.of_unasked
    rw [commandState, commandState, hsession]
    rfl
  | completeLeasePoll =>
    obtain ⟨checkpointChanged, commandChanged, advanced, hadvance,
      hcommand, -, -⟩ := completeLeasePoll_eq_ok.mp hperform
    exact .congr (advanceLeasePoll_commandState hadvance)
      (advanceLeasePoll_slots hadvance).1 (.applyPollCommand hcommand)
  | acknowledgeLeaseAuthorityReceipts =>
    obtain ⟨current, checkpoint, hsession, -, -, -, -, -, rfl⟩ :=
      acknowledgeLeaseAuthorityReceipts_eq_true.mp hperform
    apply CommandChange.of_unasked
    rw [commandState, commandState, hsession]
    rfl
  | recordCommandDisposition => exact .commitCommand hperform
  | recordOffer => exact .recordOffer hperform
  | recordCancellation => exact .recordCancellation hperform
  | authorizeOrphan =>
    obtain ⟨snapshot, after, -, -, -, rfl⟩ := authorizeOrphan_eq_true.mp hperform
    exact .of_unasked rfl
  | releaseSlot =>
    obtain ⟨-, -, -, -, rfl⟩ := releaseSlot_eq_ok.mp hperform
    exact .of_unasked rfl
  | releaseRejectedOffer =>
    obtain ⟨-, -, -, -, rfl⟩ := releaseRejectedOffer_eq_ok.mp hperform
    exact .of_unasked rfl
  | onSlot =>
    obtain ⟨snapshot, after, -, -, rfl⟩ := slotMut_eq_ok.mp hperform
    exact .of_unasked rfl

theorem CommandChange.step (self : StoredJournal) (mutation : JournalMutation) :
    CommandChange self mutation.presented (self.step mutation) := by
  rcases self.step_cases mutation with hsame | ⟨candidate, hperform, hstep, -⟩
  · rw [hsame]
    exact .kept rfl fun _ => rfl
  · have hchange := CommandChange.perform hperform
    rw [hstep]
    cases hchange with
    | kept same idle => exact .kept same idle
    | begun binding unasked other opened => exact .begun binding unasked other opened
    | committed state tombstone opened asked expected appended =>
      exact .committed state tombstone opened asked expected appended

theorem CommandChange.of_replay (hchange : CommandChange self (some tombstone) next)
    (hsession : self.session = some session)
    (hreplay : isBeyondCursor session tombstone.command = false) :
    next.commandState = self.commandState ∧ next.slots = self.slots := by
  cases hchange with
  | kept same idle => exact ⟨same, idle (by simp)⟩
  | begun binding unasked => simp at unasked
  | committed state appended opened asked expected =>
    rw [Option.some.injEq] at asked
    subst asked
    rw [commandState, hsession, Option.map_some, Option.some.injEq] at opened
    subst opened
    have hbeyond := isBeyondCursor_of_next expected
    rw [hreplay] at hbeyond
    simp at hbeyond

theorem commandState_of_recordOffer (hoffer : self.recordOffer sessionId offer = .ok (true, next)) :
    next.commandState ≠ self.commandState := by
  obtain ⟨session, committed, -, -, -, -, -, -, -, -, hcommit, rfl⟩ := recordOffer_eq_true.mp hoffer
  have hmoved := commandState_of_commitCommand hcommit
  exact hmoved

theorem commandState_of_recordCancellation
    (hcancel : self.recordCancellation sessionId slot guard cancellation = .ok (true, next)) :
    next.commandState ≠ self.commandState := by
  obtain ⟨snapshot, committed, cancelled, -, -, -, -, hcommit, -, rfl⟩ :=
    recordCancellation_eq_true.mp hcancel
  have hmoved := commandState_of_commitCommand hcommit
  exact hmoved

theorem commandState_of_applyPollCommand {command : LeasePollCommandRecord}
    (hcommand : self.applyPollCommand sessionId command = .ok (true, next)) :
    next.commandState ≠ self.commandState := by
  cases command with
  | noCommand => simp [applyPollCommand] at hcommand
  | recorded => simp [applyPollCommand] at hcommand
  | ignored => exact commandState_of_commitCommand hcommand
  | leaseOffer => exact commandState_of_recordOffer hcommand
  | cancellation => exact commandState_of_recordCancellation hcommand

/-- What presenting an old command does: at most, the lease poll which
carries it advances its own checkpoint. -/
structure ReplayIgnored (journal : StoredJournal)
    (mutation : JournalMutation) : Prop where
  slots : (journal.step mutation).slots = journal.slots
  commands : (journal.step mutation).commandState = journal.commandState
  reported :
    ∀ next, journal.perform mutation = .ok (true, next) → ∃ sessionId completion,
        mutation = .completeLeasePoll sessionId completion ∧
          journal.advanceLeasePoll sessionId completion.pollSlot
              completion.expectedCurrent completion.successorOperationId
              completion.pendingAuthorityReceipts = .ok (true, next)

theorem ReplayIgnored.of_replay (hpresented : mutation.presented = some tombstone)
    (hsession : self.session = some session)
    (hreplay : isBeyondCursor session tombstone.command = false) : self.ReplayIgnored mutation := by
  have hstep := CommandChange.step self mutation
  rw [hpresented] at hstep
  obtain ⟨hcommands, hslots⟩ := hstep.of_replay hsession hreplay
  refine ⟨hslots, hcommands, ?_⟩
  intro next hperform
  have hchange := CommandChange.perform hperform
  rw [hpresented] at hchange
  obtain ⟨hkept, -⟩ := hchange.of_replay hsession hreplay
  cases mutation with
  | recordCommandDisposition => exact absurd hkept (commandState_of_commitCommand hperform)
  | recordOffer => exact absurd hkept (commandState_of_recordOffer hperform)
  | recordCancellation => exact absurd hkept (commandState_of_recordCancellation hperform)
  | completeLeasePoll sessionId completion =>
    obtain ⟨checkpointChanged, commandChanged, advanced, hadvance,
      hcommand, -, hchanged⟩ := completeLeasePoll_eq_ok.mp hperform
    refine ⟨sessionId, completion, rfl, ?_⟩
    cases commandChanged with
    | true =>
      have hmoved := commandState_of_applyPollCommand hcommand
      rw [advanceLeasePoll_commandState hadvance] at hmoved
      exact absurd hkept hmoved
    | false =>
      rw [Bool.false_or] at hchanged
      rw [applyPollCommand_eq_false hcommand, hchanged]
      exact hadvance
  | _ => simp [JournalMutation.presented] at hpresented

/-- The commands committed since the session began, after one more
mutation: a command is committed when the cursor moves. -/
def extendCommands (self : StoredJournal) (log : List CommandTombstone)
    (mutation : JournalMutation) : List CommandTombstone :=
  let next := self.step mutation
  if next.commandState.map CommandState.sessionId ≠
      self.commandState.map CommandState.sessionId then
    []
  else if next.commandState.map CommandState.cursor ≠ self.commandState.map CommandState.cursor then
    log ++ mutation.presented.toList
  else
    log

def commandLog (self : StoredJournal) (log : List CommandTombstone) :
    List JournalMutation → List CommandTombstone
  | [] => log
  | mutation :: rest => (self.step mutation).commandLog (self.extendCommands log mutation) rest

end StoredJournal

/-- A session records the commands committed in it: it numbers them from one,
its cursor stands at the last one and its tombstones are the last of them. -/
structure CommandState.Records (state : CommandState)
    (log : List CommandTombstone) : Prop where
  numbered : Numbered CommandTombstone.position log
  cursor :
    state.cursor.acknowledgedThrough = log.getLast?.map fun tombstone => tombstone.command.sequence
  window : state.tombstones = lastEntries maxCommandTombstones log

theorem CommandState.Records.new (binding : SessionBinding) :
    (SessionSnapshot.new binding).commandState.Records [] :=
  ⟨numbered_nil, rfl, by rw [lastEntries_nil]; rfl⟩

theorem CommandState.Records.append {state : CommandState}
    {log : List CommandTombstone} {tombstone : CommandTombstone}
    (hrecords : state.Records log)
    (hnext : state.cursor.next = some tombstone.command.sequence) :
    (state.append tombstone).Records (log ++ [tombstone]) := by
  have hposition : tombstone.position = log.length + 1 := by
    have hcursor := hrecords.cursor
    cases hlast : log.getLast? with
    | none =>
      rw [hlast, Option.map_none] at hcursor
      rw [CommandCursor.next, hcursor, Option.some.injEq] at hnext
      rw [List.getLast?_eq_none_iff.mp hlast, CommandTombstone.position, ← hnext]
      rfl
    | some =>
      rw [hlast, Option.map_some] at hcursor
      have hget := CommandCursor.get_of_next_eq_some hnext hcursor
      have hlength := hrecords.numbered.position_getLast hlast
      rw [CommandTombstone.position] at hlength ⊢
      omega
  refine ⟨hrecords.numbered.concat hposition, ?_, ?_⟩
  · rw [List.getLast?_concat]
    rfl
  · have hbound : 0 < maxCommandTombstones := by decide
    rw [lastEntries_concat hbound, ← hrecords.window]
    rfl

namespace StoredJournal

variable {self : StoredJournal} {log : List CommandTombstone} {mutation : JournalMutation}

theorem extendCommands_of_kept (hsame : (self.step mutation).commandState = self.commandState) :
    self.extendCommands log mutation = log := by
  simp [extendCommands, hsame]

theorem records_extendCommands (hrecords : ∀ state ∈ self.commandState, state.Records log)
    (mutation : JournalMutation) :
    ∀ state ∈ (self.step mutation).commandState,
      state.Records (self.extendCommands log mutation) := by
  cases CommandChange.step self mutation with
  | kept same =>
    rw [same, extendCommands_of_kept same]
    exact hrecords
  | begun binding unasked other opened =>
    have hid : (self.step mutation).commandState.map CommandState.sessionId ≠
          self.commandState.map CommandState.sessionId := by
      intro hsame
      rw [opened, Option.map_some] at hsame
      obtain ⟨state, hstate, hsession⟩ := Option.map_eq_some_iff.mp hsame.symm
      exact other state hstate hsession
    intro state hstate
    rw [opened, Option.mem_some_iff] at hstate
    subst hstate
    unfold extendCommands
    rw [if_pos hid]
    exact .new binding
  | committed state tombstone opened asked expected appended =>
    have hid : (self.step mutation).commandState.map CommandState.sessionId =
          self.commandState.map CommandState.sessionId := by
      rw [opened, appended]
      rfl
    have hmoved : (self.step mutation).commandState.map CommandState.cursor ≠
          self.commandState.map CommandState.cursor := by
      rw [opened, appended]
      intro hsame
      exact CommandCursor.ne_through_of_next expected (Option.some.inj hsame)
    intro later hlater
    rw [appended, Option.mem_some_iff] at hlater
    subst hlater
    unfold extendCommands
    rw [if_neg (not_not.mpr hid), if_pos hmoved, asked, Option.toList_some]
    exact (hrecords state opened).append expected

theorem records_commandLog (hrecords : ∀ state ∈ self.commandState, state.Records log)
    (mutations : List JournalMutation) :
    ∀ state ∈ (self.run mutations).commandState, state.Records (self.commandLog log mutations) := by
  induction mutations generalizing self log with
  | nil => exact hrecords
  | cons mutation rest ih => exact ih (records_extendCommands hrecords mutation)

theorem isBeyondCursor_of_mem {session : SessionSnapshot} {tombstone : CommandTombstone}
    (hrecords : session.commandState.Records log)
    (hmem : tombstone ∈ log) :
    isBeyondCursor session tombstone.command = false := by
  obtain ⟨last, hlast⟩ : ∃ last, log.getLast? = some last :=
    ⟨_, List.getLast?_eq_some_getLast (List.ne_nil_of_mem hmem)⟩
  have hcursor := hrecords.cursor
  rw [hlast, Option.map_some] at hcursor
  have hbound := hrecords.numbered.position_le hmem
  rw [← hrecords.numbered.position_getLast hlast] at hbound
  have hthrough : session.commandCursor.acknowledgedThrough = some last.command.sequence := hcursor
  rw [isBeyondCursor, hthrough]
  simp only [decide_eq_false_iff_not, not_lt]
  exact hbound

/-- The commands of a session take effect in order and once each. -/
structure CommandGuarantee (journal : StoredJournal)
    (log : List CommandTombstone) : Prop where
  records : ∀ state ∈ journal.commandState, state.Records log
  single :
    ∀ state ∈ journal.commandState, ∀ left ∈ log, ∀ right ∈ log,
      left.command.sequence = right.command.sequence → left = right
  advances :
    ∀ mutation, ∀ state ∈ journal.commandState, ∀ later ∈ (journal.step mutation).commandState,
        later.sessionId = state.sessionId → later.cursor = state.cursor ∨
            ∃ tombstone, mutation.presented = some tombstone ∧
              state.cursor.next = some tombstone.command.sequence ∧
              later.cursor = .through tombstone.command.sequence
  replayed :
    ∀ session ∈ journal.session, ∀ mutation tombstone, mutation.presented = some tombstone →
        isBeyondCursor session tombstone.command = false → journal.ReplayIgnored mutation
  known :
    ∀ session ∈ journal.session, ∀ mutation tombstone disposition,
      mutation.presented = some tombstone → ⟨tombstone.command, disposition⟩ ∈ log →
          (journal.step mutation).slots = journal.slots

theorem CommandChange.advances {state later : CommandState}
    (hstate : self.commandState = some state)
    (hlater : (self.step mutation).commandState = some later)
    (hid : later.sessionId = state.sessionId) :
    later.cursor = state.cursor ∨ ∃ tombstone, mutation.presented = some tombstone ∧
        state.cursor.next = some tombstone.command.sequence ∧
        later.cursor = .through tombstone.command.sequence := by
  cases CommandChange.step self mutation with
  | kept same =>
    rw [hlater, hstate, Option.some.injEq] at same
    rw [same]
    exact Or.inl rfl
  | begun binding unasked other opened =>
    rw [hlater, Option.some.injEq] at opened
    subst opened
    exact absurd hid.symm (other state hstate)
  | committed before tombstone opened asked expected appended =>
    rw [hstate, Option.some.injEq] at opened
    subst opened
    rw [hlater, Option.some.injEq] at appended
    subst appended
    exact Or.inr ⟨tombstone, asked, expected, rfl⟩

/-- In every run each command of a session takes effect once and in order,
and an old command changes nothing but the lease poll which carries it. -/
theorem commands_exactly_once (runnerId : RunnerId) (mutations : List JournalMutation) :
    ((new runnerId).run mutations).CommandGuarantee ((new runnerId).commandLog [] mutations) := by
  have hinitial : ∀ state ∈ (new runnerId).commandState, state.Records [] := by
    simp [commandState, new]
  have hrecords := records_commandLog hinitial mutations
  have hsession : ∀ session ∈ ((new runnerId).run mutations).session, session.commandState.Records
        ((new runnerId).commandLog [] mutations) := by
    intro session hmem
    apply hrecords
    rw [commandState, Option.mem_def.mp hmem, Option.map_some]
    rfl
  refine ⟨hrecords, ?_, ?_, ?_, ?_⟩
  · intro state hstate left hleft right hright hsame
    apply (hrecords state hstate).numbered.eq_of_position_eq hleft hright
    rw [CommandTombstone.position, CommandTombstone.position, hsame]
  · intro mutation state hstate later hlater hid
    exact CommandChange.advances hstate hlater hid
  · intro session hmem mutation tombstone hpresented hreplay
    exact .of_replay hpresented hmem hreplay
  · intro session hmem mutation tombstone disposition hpresented hknown
    have hreplay := isBeyondCursor_of_mem (hsession session hmem) hknown
    exact (ReplayIgnored.of_replay hpresented hmem hreplay).slots

end StoredJournal

namespace Sample

def ignoredCommand : DurableCommand :=
  ⟨.first, operation 1, ⟨0⟩⟩

def commandPoll (current successor : Nat) : JournalMutation :=
  .completeLeasePoll session
    { pollSlot := offer.slot
      expectedCurrent := operation current
      successorOperationId := operation successor
      pendingAuthorityReceipts := []
      command := .ignored ignoredCommand .invalidCommand }

def polledCommand : List JournalMutation :=
  [.beginSession binding,
    .prepareLeasePoll session offer.slot (operation 20),
    commandPoll 20 21]

end Sample

/-- A current lease poll which carries an old command reports a change. -/
theorem StoredJournal.replay_poll_reports_change :
    let journal := (StoredJournal.new Sample.runner).run Sample.polledCommand
    let replay := Sample.commandPoll 21 22
    journal.session.map (fun session =>
          StoredJournal.isBeyondCursor session Sample.ignoredCommand) =
        some false ∧
      replay.presented = some ⟨Sample.ignoredCommand, .ignored .invalidCommand⟩ ∧
      (journal.perform replay).map Prod.fst = .ok true ∧
      (journal.step replay).commandState = journal.commandState := by
  decide +kernel

end AutomataCi
