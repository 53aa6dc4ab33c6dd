import AutomataCi.ExecutionStart
import AutomataCi.SlotRecords

/-!
# Cancellations along a run of the supervisor

In a timely run a committed cancellation reaches the executor of its attempt.
Until its task is registered, no call has looked the attempt up; from then on
every call which looks it up finds the signal of the task.
-/

namespace AutomataCi

open GuardedResult KeyedList

/-! ## Slots across a mutation -/

namespace StoredJournal

variable {self : StoredJournal} {mutation : JournalMutation}
  {slots : List SlotSnapshot}

theorem Releases.releasedSlot {slot : RunnerSlotOrdinal} (hreleases : Releases slot mutation) :
    mutation.releasedSlot = some slot := by
  cases mutation with
  | releaseSlot => exact congrArg some hreleases
  | releaseRejectedOffer => exact congrArg some hreleases
  | _ => exact hreleases.elim

/-- A slot keeps its offer, and a cancellation once it has one. -/
def Follows (slot old : SlotSnapshot) : Prop :=
  slot.offer = old.offer ∧ (old.cancellation ≠ none → slot.cancellation ≠ none)

theorem Follows.of_receive {slot old : SlotSnapshot} {event : SlotEvent}
    (hreceive : old.receive event = .ok (true, slot)) :
    Follows slot old := by
  have hoffer : old.Agrees slot .offer := by
    apply SlotSnapshot.receive_agrees hreceive
    cases event with
    | mutated mutation => cases mutation <;> simp [SlotEvent.touches]
    | _ => simp [SlotEvent.touches]
  refine ⟨hoffer, ?_⟩
  intro hcancelled
  cases event with
  | cancelled =>
    obtain rfl := SlotSnapshot.receive_cancelled hreceive
    simp
  | orphaned =>
    have hkept : old.Agrees slot .cancellation :=
      SlotSnapshot.receive_agrees hreceive (by simp [SlotEvent.touches])
    rwa [← show slot.cancellation = old.cancellation from hkept] at hcancelled
  | mutated =>
    have hkept := (SlotSnapshot.perform_keeps_commands hreceive).2
    rwa [← hkept] at hcancelled

theorem SlotsChange.origin (hchange : SlotsChange self mutation slots) :
    ∃ added : Option SlotSnapshot, ∀ slot ∈ slots, (∃ old ∈ self.slots, Follows slot old) ∨
        (added = some slot ∧ self.slotAt slot.slot = none) := by
  cases hchange with
  | kept same =>
    refine ⟨none, fun slot hslot => .inl ?_⟩
    rw [same] at hslot
    exact ⟨slot, hslot, rfl, id⟩
  | offered offer vacant inserted =>
    refine ⟨some (.fromOffer offer), fun slot hslot => ?_⟩
    rw [inserted] at hslot
    rcases mem_insert.mp hslot with rfl | hold
    · exact .inr ⟨rfl, vacant⟩
    · exact .inl ⟨slot, hold, rfl, id⟩
  | received session old after event opened present addressed accepted requested written =>
      refine ⟨none, fun slot hslot => .inl ?_⟩
      rw [written] at hslot
      rcases mem_replace.mp hslot with ⟨hold, -⟩ | ⟨rfl, -⟩
      · exact ⟨slot, hold, rfl, id⟩
      · exact ⟨old, present, .of_receive accepted⟩
  | released slot requested removed =>
    refine ⟨none, fun kept hkept => .inl ?_⟩
    rw [removed] at hkept
    exact ⟨kept, (mem_remove.mp hkept).1, rfl, id⟩

theorem SlotsChange.remains (hvalid : self.Valid) (hchange : SlotsChange self mutation slots)
    {old : SlotSnapshot} (hold : old ∈ self.slots)
    (hkeeps : mutation.releasedSlot ≠ some old.slot) :
    ∃ slot ∈ slots, slot.offer = old.offer := by
  obtain ⟨slot, hslot, hcontinues⟩ :=
    hchange.continues hvalid hold fun hreleases => hkeeps hreleases.releasedSlot
  exact ⟨slot, hslot, hcontinues.offer⟩

/-! ## Recorded cancellations -/

/-- A recorded cancellation keeps the slots, and its slot is cancelled if the
command was new. -/
structure Cancels (journal next : StoredJournal) (slot : RunnerSlotOrdinal)
    (isNew : Bool) : Prop where
  follows : ∀ found ∈ next.slots, ∃ old ∈ journal.slots, Follows found old
  remains :
    ∀ old ∈ journal.slots, ∃ found ∈ next.slots, found.offer = old.offer
  cancelled :
    isNew = true → ∀ found ∈ next.slots, found.slot = slot → found.cancellation ≠ none

variable {next : StoredJournal} {sessionId : RunnerSessionId}
  {slot : RunnerSlotOrdinal} {guard : LeaseGuard}
  {cancellation : CancellationRecord} {changed : Bool}

theorem cancelled_of_unchanged
    (hcancel : self.recordCancellation sessionId slot guard cancellation = .ok (false, next))
    (hnew : self.isNewCommand cancellation.command = true) :
    ∃ snapshot, self.slotAt slot = some snapshot ∧ snapshot.cancellation = some cancellation := by
  simp only [recordCancellation, bind_eq_ok, rejectIf_eq_ok, exists_const] at hcancel
  obtain ⟨snapshot, hslot, -, -, hrest⟩ := hcancel
  obtain ⟨-, hat, -⟩ := requireSlot_eq_ok.mp hslot
  split at hrest
  · rename_i hsame
    exact ⟨snapshot, hat, hsame⟩
  · simp only [bind_eq_ok, rejectIf_eq_ok, exists_const, Prod.exists] at hrest
    obtain ⟨-, fresh, committed, hcommit, hfresh⟩ := hrest
    cases fresh with
    | true => simp at hfresh
    | false =>
      obtain ⟨-, session, hsession, -, hreplay, -⟩ := commitCommand_eq_false.mp hcommit
      simp [isNewCommand, hsession, hreplay] at hnew

theorem Cancels.recordCancellation (hvalid : self.Valid)
    (hcancel : self.recordCancellation sessionId slot guard cancellation = .ok (changed, next)) :
    Cancels self next slot (self.isNewCommand cancellation.command) := by
  cases changed with
  | false =>
    have hcommand : self.applyPollCommand sessionId
        (.cancellation slot guard cancellation) = .ok (false, next) :=
      hcancel
    obtain rfl : next = self := applyPollCommand_eq_false hcommand
    refine ⟨fun found hfound => ⟨found, hfound, rfl, id⟩, fun old hold => ⟨old, hold, rfl⟩, ?_⟩
    intro hnew found hfound hslot
    obtain ⟨snapshot, hat, hcancelled⟩ := cancelled_of_unchanged hcancel hnew
    obtain rfl : found = snapshot :=
      eq_of_mem_of_key_eq hvalid.slotsSorted.nodup hfound (slotAt_mem hat)
        (by simp only [SlotSnapshot.ordinal, hslot, slotAt_slot hat])
    simp [hcancelled]
  | true =>
    obtain ⟨snapshot, committed, cancelled, hslot, -, -, -, hcommit,
      happlied, rfl⟩ := recordCancellation_eq_true.mp hcancel
    obtain ⟨-, hat, -⟩ := requireSlot_eq_ok.mp hslot
    obtain ⟨-, rfl⟩ := SlotSnapshot.applyCancellation_eq_ok.mp happlied
    have hmem := slotAt_mem hat
    have hslots := commitCommand_slots hcommit
    refine ⟨?_, ?_, ?_⟩
    · intro found hfound
      rcases mem_replace.mp hfound with ⟨hold, -⟩ | ⟨rfl, -⟩
      · rw [hslots] at hold
        exact ⟨found, hold, rfl, id⟩
      · exact ⟨snapshot, hmem, rfl, by simp⟩
    · intro old hold
      by_cases hsame : old.ordinal = snapshot.ordinal
      · obtain rfl : old = snapshot := eq_of_mem_of_key_eq hvalid.slotsSorted.nodup hold hmem hsame
        refine ⟨_, mem_replace.mpr (.inr ⟨rfl, old, ?_, rfl⟩), rfl⟩
        rw [hslots]
        exact hold
      · refine ⟨old, mem_replace.mpr (.inl ⟨?_, hsame⟩), rfl⟩
        rw [hslots]
        exact hold
    · intro _ found hfound hordinal
      rcases mem_replace.mp hfound with ⟨hold, hother⟩ | ⟨rfl, -⟩
      · have hsame : found.slot = snapshot.slot := hordinal.trans (slotAt_slot hat).symm
        exact absurd (congrArg RunnerSlotOrdinal.get hsame) hother
      · simp

variable {carrier : CommandCarrier}

theorem candidate_of_unchanged (hperform : self.perform (carrier.mutation sessionId
        (.cancellation slot guard cancellation)) = .ok (false, next)) : next = self := by
  cases carrier with
  | reply =>
    have hcommand : self.applyPollCommand sessionId
        (.cancellation slot guard cancellation) = .ok (false, next) :=
      hperform
    exact applyPollCommand_eq_false hcommand
  | leasePoll =>
    obtain ⟨checkpointChanged, commandChanged, advanced, hadvance,
      hcommand, -, hchanged⟩ := completeLeasePoll_eq_ok.mp hperform
    rw [eq_comm, Bool.or_eq_false_iff] at hchanged
    obtain ⟨rfl, rfl⟩ := hchanged
    rw [applyPollCommand_eq_false hcommand]
    obtain ⟨-, session, checkpoint, -, -, -, hcase⟩ := advanceLeasePoll_eq_ok.mp hadvance
    rcases hcase with ⟨hmoved, -⟩ | ⟨-, -, -, -, rfl⟩
    · simp at hmoved
    · rfl

theorem Cancels.commit (hvalid : self.Valid) (hcommit : self.commit (carrier.mutation sessionId
        (.cancellation slot guard cancellation)) = .ok (changed, next)) :
    Cancels self next slot (self.isNewCommand cancellation.command) := by
  simp only [StoredJournal.commit, bind_eq_ok, Prod.exists] at hcommit
  obtain ⟨reported, candidate, hperform, hrest⟩ := hcommit
  have hcancels : Cancels self candidate slot (self.isNewCommand cancellation.command) := by
    cases carrier with
    | reply => exact Cancels.recordCancellation hvalid hperform
    | leasePoll =>
      obtain ⟨checkpointChanged, commandChanged, advanced, hadvance,
        hcommand, -, -⟩ := completeLeasePoll_eq_ok.mp hperform
      have hslots := (advanceLeasePoll_slots hadvance).1
      have hcancels := Cancels.recordCancellation (hvalid.advanceLeasePoll hadvance) hcommand
      obtain ⟨hfollows, hremains, hcancelled⟩ := hcancels
      rw [hslots] at hfollows hremains
      refine ⟨hfollows, hremains, ?_⟩
      have hnew : advanced.isNewCommand cancellation.command =
          self.isNewCommand cancellation.command := by
        obtain ⟨-, session, checkpoint, hsession, -, -, hcase⟩ := advanceLeasePoll_eq_ok.mp hadvance
        rcases hcase with ⟨-, -, -, rfl⟩ | ⟨-, -, -, -, rfl⟩
        · rw [isNewCommand, isNewCommand, hsession]
          rfl
        · rfl
      rw [← hnew]
      exact hcancelled
  cases reported with
  | false =>
    simp only [Bool.false_eq_true, if_false, pure_eq_ok, Prod.mk.injEq] at hrest
    obtain ⟨-, rfl⟩ := hrest
    rwa [candidate_of_unchanged hperform] at hcancels
  | true =>
    simp only [if_true, bind_eq_ok, incrementRevision_eq_ok, pure_eq_ok, Prod.mk.injEq] at hrest
    obtain ⟨incremented, ⟨-, rfl⟩, -, -, -, rfl⟩ := hrest
    exact { hcancels with }

end StoredJournal

namespace SupervisorState

variable {state : SupervisorState}

/-! ## Invariants -/

/-- A committed cancellation waits to be looked up, or was looked up after the
task was registered and is on its way to the signal of the task. -/
def Reaches (state : SupervisorState) (call : CancelPhase) (task : SlotPhase) : Prop :=
  call = .looking true ∨ ∃ signal, task.registration = some signal ∧
      (call = .signalling true signal ∨
        call = .returned true ∧ (state.signals signal).isSome = true)

structure Sound (state : SupervisorState) : Prop where
  valid : state.journal.Valid
  distinct : DistinctAttempts state.journal
  located :
    ∀ caller call slot, state.calls caller = some call → call.phase = .recording slot →
        ∀ found ∈ state.journal.slots, found.attemptId = call.cancel.attemptId → found.slot = slot
  recorded :
    ∀ caller call, state.calls caller = some call → call.phase.applied = true →
        ∀ found ∈ state.journal.slots, found.attemptId = call.cancel.attemptId →
            found.cancellation ≠ none
  held :
    ∀ slot durable, (state.tasks slot).durable = some durable →
      ∃ found ∈ state.journal.slots, found.slot = slot ∧ found.offer = durable.offer
  registered :
    ∀ slot durable signal, (state.tasks slot).durable = some durable →
      (state.tasks slot).registration = some signal →
        state.executions durable.attemptId = some signal
  reached :
    ∀ caller call slot durable, state.calls caller = some call → call.phase.applied = true →
        (state.tasks slot).durable = some durable → durable.attemptId = call.cancel.attemptId →
            state.Reaches call.phase (state.tasks slot)

theorem Sound.delivered (hsound : state.Sound) : state.Delivered := by
  intro caller call slot durable signal hcall hphase htask hattempt
  have hreached := hsound.reached caller call slot durable hcall
    (by rw [hphase]; rfl) (by rw [htask]; rfl) hattempt
  rw [Reaches, hphase, htask] at hreached
  simpa [SlotPhase.registration] using hreached

variable {journal : StoredJournal}

theorem sound_initial (hvalid : journal.Valid) (hdistinct : DistinctAttempts journal) :
    (initial journal).Sound where
  valid := hvalid
  distinct := hdistinct
  located := by simp [initial]
  recorded := by simp [initial]
  held := by simp [initial, SlotPhase.durable]
  registered := by simp [initial, SlotPhase.durable]
  reached := by simp [initial]

variable {durable : SlotSnapshot} {slot other : RunnerSlotOrdinal}

theorem Sound.slot_eq (hsound : state.Sound) {found : SlotSnapshot}
    (hslot : (state.tasks slot).durable = some durable)
    (hother : (state.tasks other).durable = some found)
    (hattempt : durable.attemptId = found.attemptId) : slot = other := by
  obtain ⟨left, hleft, rfl, hoffer⟩ := hsound.held slot durable hslot
  obtain ⟨right, hright, rfl, hoffer'⟩ := hsound.held other found hother
  apply hsound.distinct left hleft right hright
  simpa only [SlotSnapshot.attemptId, hoffer, hoffer'] using hattempt

/-! ## Tasks -/

theorem tasks_withTask {phase : SlotPhase} :
    (state.withTask slot phase).tasks other =
      if other = slot then phase else state.tasks other := by
  simp [withTask, Function.update_apply]

theorem Sound.withTask (hsound : state.Sound) {phase : SlotPhase}
    (hdurable : phase.durable = (state.tasks slot).durable)
    (hregistration : phase.registration = (state.tasks slot).registration) :
    (state.withTask slot phase).Sound := by
  have htask : ∀ other, ((state.withTask slot phase).tasks other).durable =
          (state.tasks other).durable ∧
        ((state.withTask slot phase).tasks other).registration =
          (state.tasks other).registration := by
    intro other
    rw [tasks_withTask]
    split
    · rename_i hsame
      rw [hsame]
      exact ⟨hdurable, hregistration⟩
    · exact ⟨rfl, rfl⟩
  exact
    { valid := hsound.valid
      distinct := hsound.distinct
      located := hsound.located
      recorded := hsound.recorded
      held := by
        intro other durable hheld
        rw [(htask other).1] at hheld
        exact hsound.held other durable hheld
      registered := by
        intro other durable signal hheld hsignal
        rw [(htask other).1] at hheld
        rw [(htask other).2] at hsignal
        exact hsound.registered other durable signal hheld hsignal
      reached := by
        intro caller call other durable hcall happlied hheld hattempt
        rw [(htask other).1] at hheld
        have hreached := hsound.reached caller call other durable hcall happlied hheld hattempt
        rw [Reaches, (htask other).2]
        exact hreached }

variable {nextSignal caller : Nat}

theorem Sound.idle (hsound : state.Sound) {executions : AttemptId → Option Nat}
    (hexecutions : ∀ other durable, (state.tasks other).durable = some durable → other ≠ slot →
          executions durable.attemptId = state.executions durable.attemptId) :
    ({ state with executions, nextSignal }.withTask slot .idle).Sound where
  valid := hsound.valid
  distinct := hsound.distinct
  located := hsound.located
  recorded := hsound.recorded
  held := by
    intro other durable hheld
    rw [tasks_withTask] at hheld
    split at hheld
    · simp [SlotPhase.durable] at hheld
    · exact hsound.held other durable hheld
  registered := by
    intro other durable signal hheld hsignal
    rw [tasks_withTask] at hheld hsignal
    split at hheld
    · simp [SlotPhase.durable] at hheld
    · rename_i hother
      rw [if_neg hother] at hsignal
      have hentry := hsound.registered other durable signal hheld hsignal
      exact (hexecutions other durable hheld hother).trans hentry
  reached := by
    intro caller call other durable hcall happlied hheld hattempt
    rw [tasks_withTask] at hheld
    split at hheld
    · simp [SlotPhase.durable] at hheld
    · rename_i hother
      rw [tasks_withTask, if_neg hother]
      exact hsound.reached caller call other durable hcall happlied hheld hattempt

theorem Sound.decided (hsound : state.Sound) (hat : state.journal.slotAt slot = some durable)
    (hnone : durable.cancellation = none) :
    (state.withTask slot (.decided durable)).Sound where
  valid := hsound.valid
  distinct := hsound.distinct
  located := hsound.located
  recorded := hsound.recorded
  held := by
    intro other found hheld
    rw [tasks_withTask] at hheld
    split at hheld
    · rename_i hother
      obtain rfl : durable = found := Option.some.inj hheld
      exact ⟨durable, StoredJournal.slotAt_mem hat,
        (StoredJournal.slotAt_slot hat).trans hother.symm, rfl⟩
    · exact hsound.held other found hheld
  registered := by
    intro other found signal hheld hsignal
    rw [tasks_withTask] at hheld hsignal
    split at hheld
    · rename_i hother
      simp [hother, SlotPhase.registration] at hsignal
    · rename_i hother
      rw [if_neg hother] at hsignal
      exact hsound.registered other found signal hheld hsignal
  reached := by
    intro caller call other found hcall happlied hheld hattempt
    rw [tasks_withTask] at hheld
    split at hheld
    · obtain rfl : durable = found := Option.some.inj hheld
      have hcancelled := hsound.recorded caller call hcall happlied durable
        (StoredJournal.slotAt_mem hat) hattempt
      exact absurd hnone hcancelled
    · rename_i hother
      rw [tasks_withTask, if_neg hother]
      exact hsound.reached caller call other found hcall happlied hheld hattempt

theorem Sound.register (hsound : state.Sound) {signal : Nat}
    (htask : state.tasks slot = .decided durable) :
    ({ state with
        executions := Function.update state.executions durable.attemptId (some signal)
        nextSignal }.withTask slot (.registered durable signal)).Sound where
  valid := hsound.valid
  distinct := hsound.distinct
  located := hsound.located
  recorded := hsound.recorded
  held := by
    intro other found hheld
    rw [tasks_withTask] at hheld
    split at hheld
    · rename_i hother
      apply hsound.held other found
      rw [hother, htask]
      exact hheld
    · exact hsound.held other found hheld
  registered := by
    intro other found entry hheld hentry
    rw [tasks_withTask] at hheld hentry
    change Function.update state.executions durable.attemptId (some signal)
      found.attemptId = some entry
    split at hheld
    · rename_i hother
      obtain rfl : durable = found := Option.some.inj hheld
      rw [if_pos hother] at hentry
      rw [Function.update_self]
      exact hentry
    · rename_i hother
      rw [if_neg hother] at hentry
      rw [Function.update_of_ne]
      · exact hsound.registered other found entry hheld hentry
      · intro hattempt
        exact hother (hsound.slot_eq hheld (by rw [htask]; rfl) hattempt)
  reached := by
    intro caller call other found hcall happlied hheld hattempt
    rw [tasks_withTask] at hheld ⊢
    split at hheld
    · rename_i hother
      obtain rfl : durable = found := Option.some.inj hheld
      have hreached := hsound.reached caller call slot durable hcall happlied
        (by rw [htask]; rfl) hattempt
      rw [Reaches, htask] at hreached
      exact .inl (by simpa [SlotPhase.registration] using hreached)
    · rename_i hother
      rw [if_neg hother]
      exact hsound.reached caller call other found hcall happlied hheld hattempt

/-! ## Signals and calls -/

theorem Sound.withSignal (hsound : state.Sound) (signal : Nat)
    (reason : ExecutionCancellationReason) :
    (state.withSignal signal reason).Sound :=
  { hsound with
    reached := by
      intro caller call slot durable hcall happlied hheld hattempt
      rcases hsound.reached caller call slot durable hcall happlied hheld
        hattempt with hlooking | ⟨entry, hentry, hphase⟩
      · exact .inl hlooking
      · refine .inr ⟨entry, hentry, hphase.imp_right ?_⟩
        rintro ⟨hreturned, hsent⟩
        refine ⟨hreturned, ?_⟩
        change (Function.update state.signals signal _ entry).isSome = true
        by_cases hsame : entry = signal
        · subst hsame
          simp
        · rw [Function.update_of_ne hsame]
          exact hsent }

variable {phase : CancelPhase} {call : CancelCall}

theorem calls_withCall {other : Nat} :
    (state.withCall caller call phase).calls other =
      if other = caller then some { call with phase }
      else state.calls other := by
  simp [withCall, Function.update_apply]

section

variable (hsound : state.Sound)

include hsound

theorem Sound.withCall (hlocated : ∀ slot, phase = .recording slot → ∀ found ∈ state.journal.slots,
          found.attemptId = call.cancel.attemptId → found.slot = slot)
    (hrecorded : phase.applied = true → ∀ found ∈ state.journal.slots,
          found.attemptId = call.cancel.attemptId → found.cancellation ≠ none)
    (hreached : phase.applied = true → ∀ slot durable, (state.tasks slot).durable = some durable →
          durable.attemptId = call.cancel.attemptId → state.Reaches phase (state.tasks slot)) :
    (state.withCall caller call phase).Sound where
  valid := hsound.valid
  distinct := hsound.distinct
  held := hsound.held
  registered := hsound.registered
  located := by
    intro other held slot hcall hphase
    rw [calls_withCall] at hcall
    split at hcall
    · cases hcall
      exact hlocated slot hphase
    · exact hsound.located other held slot hcall hphase
  recorded := by
    intro other held hcall happlied
    rw [calls_withCall] at hcall
    split at hcall
    · cases hcall
      exact hrecorded happlied
    · exact hsound.recorded other held hcall happlied
  reached := by
    intro other held slot durable hcall happlied hheld hattempt
    rw [calls_withCall] at hcall
    split at hcall
    · cases hcall
      exact hreached happlied slot durable hheld hattempt
    · exact hsound.reached other held slot durable hcall happlied hheld hattempt

theorem Sound.withIdleCall (hlocated : ∀ slot, phase ≠ .recording slot)
    (hidle : phase.applied = false) :
    (state.withCall caller call phase).Sound := by
  apply hsound.withCall
  · intro slot hphase
    exact absurd hphase (hlocated slot)
  · intro happlied
    rw [hidle] at happlied
    contradiction
  · intro happlied
    rw [hidle] at happlied
    contradiction

theorem Sound.lookUp {committed : Bool} (hcall : state.calls caller = some call)
    (hphase : call.phase = .looking committed)
    (htimely : state.Timely (.lookUp caller)) :
    (state.lookUp caller call committed).Sound := by
  have hentry : ∀ slot durable, (state.tasks slot).durable = some durable →
        durable.attemptId = call.cancel.attemptId →
          ∃ signal, (state.tasks slot).registration = some signal ∧
            state.executions call.cancel.attemptId = some signal := by
    intro slot durable hheld hattempt
    cases htask : state.tasks slot with
    | idle => simp [htask, SlotPhase.durable] at hheld
    | decided found =>
      obtain rfl : found = durable := by simpa [htask, SlotPhase.durable] using hheld
      exact absurd hattempt (htimely call hcall slot found htask)
    | registered found signal | executing found signal
    | finished found signal =>
      have hsignal : (state.tasks slot).registration = some signal := by
        rw [htask]
        rfl
      have hregistered := hsound.registered slot durable signal hheld hsignal
      exact ⟨signal, rfl, hattempt ▸ hregistered⟩
  unfold SupervisorState.lookUp
  cases hexecution : state.executions call.cancel.attemptId with
  | none =>
    apply hsound.withCall
    · intro slot hrecording
      contradiction
    · intro happlied
      exact hsound.recorded caller call hcall (by rwa [hphase])
    · intro _ slot durable hheld hattempt
      obtain ⟨signal, -, hfound⟩ := hentry slot durable hheld hattempt
      rw [hexecution] at hfound
      contradiction
  | some =>
    apply hsound.withCall
    · intro slot hrecording
      contradiction
    · intro happlied
      exact hsound.recorded caller call hcall (by rwa [hphase])
    · intro happlied slot durable hheld hattempt
      obtain ⟨entry, hregistration, hfound⟩ := hentry slot durable hheld hattempt
      rw [hexecution, Option.some.injEq] at hfound
      have hcommitted : committed = true := happlied
      refine .inr ⟨entry, hregistration, .inl ?_⟩
      rw [hcommitted, hfound]

theorem Sound.notify {committed : Bool} {signal : Nat} (hcall : state.calls caller = some call)
    (hphase : call.phase = .signalling committed signal) :
    (state.notify caller call committed signal).Sound := by
  apply (hsound.withSignal signal .serverRequest).withCall
  · intro slot hrecording
    contradiction
  · intro happlied
    exact hsound.recorded caller call hcall (by rwa [hphase])
  · intro happlied slot durable hheld hattempt
    have hcommitted : committed = true := happlied
    have hreached := hsound.reached caller call slot durable hcall (by rwa [hphase]) hheld hattempt
    rw [Reaches, hphase] at hreached
    rcases hreached with hlooking | ⟨entry, hentry, hsent | ⟨hother, -⟩⟩
    · contradiction
    · simp only [CancelPhase.signalling.injEq] at hsent
      refine .inr ⟨entry, hentry, .inr ⟨by rw [hcommitted], ?_⟩⟩
      change (Function.update state.signals signal _ entry).isSome = true
      rw [← hsent.2]
      simp
    · contradiction

/-! ## The journal -/

theorem Sound.withJournal (hvalid : journal.Valid) (hdistinct : DistinctAttempts journal)
    (horigin :
      ∀ found ∈ journal.slots, (∃ old ∈ state.journal.slots, StoredJournal.Follows found old) ∨
          ∀ caller call, state.calls caller = some call → call.cancel.attemptId ≠ found.attemptId)
    (hremains : ∀ slot durable, (state.tasks slot).durable = some durable →
        ∀ old ∈ state.journal.slots, old.slot = slot →
          ∃ found ∈ journal.slots, found.offer = old.offer) :
    { state with journal }.Sound where
  valid := hvalid
  distinct := hdistinct
  located := by
    intro caller call slot hcall hphase found hfound hattempt
    rcases horigin found hfound with ⟨old, hold, hoffer, -⟩ | hother
    · have hslot := hsound.located caller call slot hcall hphase old hold
        (by rwa [SlotSnapshot.attemptId, ← hoffer])
      rwa [SlotSnapshot.slot, hoffer]
    · exact absurd hattempt.symm (hother caller call hcall)
  recorded := by
    intro caller call hcall happlied found hfound hattempt
    rcases horigin found hfound with ⟨old, hold, hoffer, hkept⟩ | hother
    · apply hkept
      exact hsound.recorded caller call hcall happlied old hold
        (by rwa [SlotSnapshot.attemptId, ← hoffer])
    · exact absurd hattempt.symm (hother caller call hcall)
  held := by
    intro slot durable hheld
    obtain ⟨old, hold, hslot, hoffer⟩ := hsound.held slot durable hheld
    obtain ⟨found, hfound, hsame⟩ := hremains slot durable hheld old hold hslot
    refine ⟨found, hfound, ?_, hsame.trans hoffer⟩
    rw [← hslot, SlotSnapshot.slot, SlotSnapshot.slot, hsame]
  registered := hsound.registered
  reached := hsound.reached

theorem Sound.mutate {mutation : JournalMutation}
    (hreleases : ∀ slot ∈ mutation.releasedSlot, state.tasks slot = .idle)
    (htimely : state.OffersOnce mutation) :
    { state with journal := state.journal.step mutation }.Sound := by
  have hchange := StoredJournal.SlotsChange.step state.journal mutation
  obtain ⟨added, horigin⟩ := hchange.origin
  have hnext : (state.journal.step mutation).Valid :=
    StoredJournal.validate_eq_ok.mp (StoredJournal.validate_step
      (StoredJournal.validate_eq_ok.mpr hsound.valid) mutation)
  refine hsound.withJournal hnext ?_ ?_ ?_
  · -- A new slot holds a new attempt, and there is at most one new slot.
    intro left hleft right hright hattempt
    rcases horigin left hleft with ⟨old, hold, hoffer, -⟩ | ⟨hadded, hfree⟩
    · rcases horigin right hright with ⟨other, hother, hoffer', -⟩ | ⟨hadded, hfree⟩
      · have hslot := hsound.distinct old hold other hother
          (by simpa only [SlotSnapshot.attemptId, hoffer, hoffer'] using hattempt)
        simpa only [SlotSnapshot.slot, hoffer, hoffer'] using hslot
      · have hfresh := (htimely right hright hfree).1 old hold
        rw [SlotSnapshot.attemptId, ← hoffer] at hfresh
        exact absurd hattempt hfresh
    · rcases horigin right hright with ⟨other, hother, hoffer', -⟩ | ⟨hadded', -⟩
      · have hfresh := (htimely left hleft hfree).1 other hother
        rw [SlotSnapshot.attemptId, ← hoffer'] at hfresh
        exact absurd hattempt.symm hfresh
      · rw [hadded, Option.some.injEq] at hadded'
        rw [hadded']
  · intro found hfound
    rcases horigin found hfound with hold | ⟨-, hfree⟩
    · exact .inl hold
    · exact .inr (htimely found hfound hfree).2
  · intro slot durable hheld old hold hslot
    apply hchange.remains hsound.valid hold
    intro hreleased
    rw [hslot] at hreleased
    rw [hreleases slot hreleased] at hheld
    contradiction

variable {slot : RunnerSlotOrdinal}

theorem Sound.record (hcall : state.calls caller = some call)
    (hphase : call.phase = .recording slot) : (state.record caller call slot).Sound := by
  unfold SupervisorState.record
  rcases hcommit : state.journal.commit (call.carrier.mutation call.cancel.sessionId (.cancellation
    slot call.cancel.guard ⟨call.cancel.command, call.cancel.requestedAt⟩)) with error | ⟨changed,
    journal⟩
  · exact hsound.withIdleCall (by simp) rfl
  · have hcancels := StoredJournal.Cancels.commit hsound.valid hcommit
    have hnext : journal.Valid := by
      have hstep := StoredJournal.validate_step (StoredJournal.validate_eq_ok.mpr hsound.valid)
        (call.carrier.mutation call.cancel.sessionId (.cancellation slot call.cancel.guard
            ⟨call.cancel.command, call.cancel.requestedAt⟩))
      rw [StoredJournal.step, hcommit] at hstep
      exact StoredJournal.validate_eq_ok.mp hstep
    have hjournal : { state with journal }.Sound := by
      refine hsound.withJournal hnext ?_ ?_ ?_
      · intro left hleft right hright hattempt
        obtain ⟨old, hold, hoffer, -⟩ := hcancels.follows left hleft
        obtain ⟨other, hother, hoffer', -⟩ := hcancels.follows right hright
        have hslot := hsound.distinct old hold other hother
          (by simpa only [SlotSnapshot.attemptId, hoffer, hoffer'] using hattempt)
        simpa only [SlotSnapshot.slot, hoffer, hoffer'] using hslot
      · intro found hfound
        exact .inl (hcancels.follows found hfound)
      · intro _ _ _ old hold _
        exact hcancels.remains old hold
    apply hjournal.withCall
    · intro other hrecording
      contradiction
    · -- Every slot of the attempt is the one which was located.
      intro happlied found hfound hattempt
      apply hcancels.cancelled happlied found hfound
      exact hjournal.located caller call slot hcall hphase found hfound hattempt
    · intro happlied _ _ _ _
      have hnew : state.journal.isNewCommand call.cancel.command = true := happlied
      exact .inl (by rw [hnew])

theorem Sound.locate : (state.locate caller call).Sound := by
  unfold SupervisorState.locate
  cases htarget : state.journal.cancellationTarget call.cancel with
  | none => exact hsound.withIdleCall (by simp) rfl
  | some target =>
    have hmem := List.mem_of_find?_eq_some htarget
    have hfound := List.find?_some htarget
    simp only [Bool.and_eq_true, decide_eq_true_eq] at hfound
    apply hsound.withCall
    · intro slot hrecording found hslot hattempt
      rw [← CancelPhase.recording.inj hrecording]
      apply hsound.distinct found hslot target hmem
      exact hattempt.trans hfound.1.1.1.symm
    · intro happlied
      contradiction
    · intro happlied
      contradiction

theorem Sound.check : (state.check caller call).Sound := by
  unfold SupervisorState.check
  split
  · exact hsound.withIdleCall (by simp) rfl
  · exact hsound.withIdleCall (by simp) rfl
  · exact hsound.withIdleCall (by simp) rfl

/-! ## Runs -/

theorem Sound.endTask {entry : Option Nat} (hheld : (state.tasks slot).durable = some durable) :
    ({ state with
        executions := Function.update state.executions durable.attemptId entry
        nextSignal }.withTask slot .idle).Sound := by
  apply hsound.idle
  intro other found hother hne
  apply Function.update_of_ne
  intro hattempt
  exact hne (hsound.slot_eq hother hheld hattempt)

theorem Sound.act {action : SupervisorAction}
    {next : SupervisorState} (htimely : state.Timely action)
    (hact : state.act action = some next) : next.Sound := by
  cases action with
  | mutate mutation =>
    simp only [SupervisorState.act, SupervisorState.mutate] at hact
    split at hact
    · rename_i hreleases
      cases hact
      exact hsound.mutate hreleases htimely
    · contradiction
  | decide slot =>
    simp only [SupervisorState.act, SupervisorState.decide] at hact
    split at hact
    · rename_i durable htask hat
      split at hact
      · rename_i hexecute
        cases hact
        have hnone : durable.cancellation = none := by
          have hmay := hexecute.2
          simp only [SlotSnapshot.mayExecute, Bool.and_eq_true, Option.isNone_iff_eq_none] at hmay
          exact hmay.1
        exact hsound.decided hat hnone
      · contradiction
    · contradiction
  | abandon | fail =>
    simp only [SupervisorState.act, SupervisorState.abandon, SupervisorState.fail] at hact
    split at hact
    · cases hact
      exact hsound.idle fun _ _ _ _ => rfl
    · contradiction
  | register slot =>
    simp only [SupervisorState.act, SupervisorState.register] at hact
    split at hact
    · rename_i durable htask
      split at hact
      · cases hact
        exact hsound.endTask (by rw [htask]; rfl)
      · cases hact
        exact hsound.register htask
    · contradiction
  | start slot | finish slot =>
    simp only [SupervisorState.act, SupervisorState.start, SupervisorState.finish] at hact
    split at hact
    · rename_i htask
      cases hact
      exact hsound.withTask (by rw [htask]; rfl) (by rw [htask]; rfl)
    · contradiction
  | signal slot reason =>
    simp only [SupervisorState.act, SupervisorState.signal] at hact
    split at hact
    · cases hact
      exact hsound.withSignal _ reason
    · contradiction
  | unregister slot =>
    simp only [SupervisorState.act, SupervisorState.unregister] at hact
    split at hact
    · rename_i htask
      cases hact
      exact hsound.endTask (by rw [htask]; rfl)
    · contradiction
  | arrive =>
    simp only [SupervisorState.act, SupervisorState.arrive] at hact
    split at hact
    · cases hact
      exact hsound.withIdleCall (by simp) rfl
    · contradiction
  | check =>
    simp only [SupervisorState.act] at hact
    split at hact
    · cases hact
      exact hsound.check
    · contradiction
  | locate =>
    simp only [SupervisorState.act] at hact
    split at hact
    · cases hact
      exact hsound.locate
    · contradiction
  | record caller =>
    simp only [SupervisorState.act] at hact
    split at hact
    · rename_i hcall
      cases hact
      exact hsound.record hcall rfl
    · contradiction
  | lookUp caller =>
    simp only [SupervisorState.act] at hact
    split at hact
    · rename_i hcall
      cases hact
      exact hsound.lookUp hcall rfl htimely
    · contradiction
  | notify caller =>
    simp only [SupervisorState.act] at hact
    split at hact
    · rename_i hcall
      cases hact
      exact hsound.notify hcall rfl
    · contradiction

end

variable {actions : List SupervisorAction}

theorem Sound.run (hsound : state.Sound)
    {final : SupervisorState} (htimely : state.TimelyRun actions)
    (hrun : state.run actions = some final) : final.Sound := by
  induction actions generalizing state with
  | nil =>
    cases hrun
    exact hsound
  | cons action rest ih =>
    obtain ⟨next, hact, hrest⟩ := Option.bind_eq_some_iff.mp hrun
    exact ih (hsound.act htimely.1 hact) (htimely.2 next hact) hrest

/-- In every timely run a cancellation which a returned call has committed is
signalled to the running executor of its attempt. -/
theorem cancellation_delivered {journal : StoredJournal}
    {actions : List SupervisorAction} {final : SupervisorState}
    (hvalid : journal.validate = .ok ())
    (hdistinct : DistinctAttempts journal)
    (htimely : (initial journal).TimelyRun actions)
    (hrun : (initial journal).run actions = some final) :
    final.Delivered := by
  have hinitial : (initial journal).Sound :=
    sound_initial (StoredJournal.validate_eq_ok.mp hvalid) hdistinct
  exact (hinitial.run htimely hrun).delivered

/-! ## Timely runs -/

/-- No task is between its deciding snapshot and its registration. -/
def Undecided (state : SupervisorState) : Prop :=
  ∀ slot durable, state.tasks slot ≠ .decided durable

theorem Undecided.withTask (hundecided : state.Undecided) {phase : SlotPhase}
    (hphase : ∀ durable, phase ≠ .decided durable) : (state.withTask slot phase).Undecided := by
  intro other durable
  rw [tasks_withTask]
  split
  · exact hphase durable
  · exact hundecided other durable

theorem Undecided.act (hundecided : state.Undecided)
    {action : SupervisorAction} {next : SupervisorState}
    (haction : ∀ slot, action ≠ .decide slot)
    (hact : state.act action = some next) : next.Undecided := by
  cases action with
  | decide slot => exact absurd rfl (haction slot)
  | mutate | signal | arrive =>
    simp only [SupervisorState.act, SupervisorState.mutate, SupervisorState.signal,
      SupervisorState.arrive] at hact
    split at hact
    · cases hact
      exact hundecided
    · contradiction
  | abandon slot | fail slot | start slot | finish slot | unregister slot =>
    simp only [SupervisorState.act, SupervisorState.abandon, SupervisorState.fail,
      SupervisorState.start, SupervisorState.finish, SupervisorState.unregister] at hact
    split at hact
    · cases hact
      exact Undecided.withTask hundecided (by simp)
    · contradiction
  | register slot =>
    simp only [SupervisorState.act, SupervisorState.register] at hact
    split at hact
    · rename_i durable htask
      exact absurd htask (hundecided slot durable)
    · contradiction
  | check caller | locate caller | record caller | lookUp caller
  | notify =>
    simp only [SupervisorState.act, SupervisorState.check, SupervisorState.locate,
      SupervisorState.record, SupervisorState.lookUp, SupervisorState.notify] at hact
    split at hact
    · cases hact
      first
        | exact hundecided
        | split <;> exact hundecided
    · contradiction

theorem Undecided.timelyRun (hundecided : state.Undecided)
    (hactions :
      ∀ action ∈ actions, (∀ slot, action ≠ .decide slot) ∧ ∀ mutation, action ≠ .mutate mutation) :
    state.TimelyRun actions := by
  induction actions generalizing state with
  | nil => trivial
  | cons action rest ih =>
    obtain ⟨⟨hdecide, hmutate⟩, hrest⟩ := List.forall_mem_cons.mp hactions
    refine ⟨?_, fun next hact => ih (hundecided.act hdecide hact) hrest⟩
    cases action with
    | mutate mutation => exact absurd rfl (hmutate mutation)
    | lookUp =>
      intro _ _ slot durable htask
      exact absurd htask (hundecided slot durable)
    | _ => trivial

theorem timelyRun_of_start
    (hactions :
      ∀ action ∈ actions, (∀ slot, action ≠ .decide slot) ∧ ∀ mutation, action ≠ .mutate mutation) :
    (initial journal).TimelyRun (.decide slot :: .register slot :: actions) := by
  refine ⟨trivial, fun decided hdecided => ⟨trivial, ?_⟩⟩
  intro registered hregistered
  refine Undecided.timelyRun ?_ hactions
  have hother : ∀ other, other ≠ slot → decided.tasks other = .idle := by
    simp only [SupervisorState.act, SupervisorState.decide, Option.mem_def] at hdecided
    split at hdecided
    · split at hdecided
      · cases hdecided
        intro other hne
        rw [tasks_withTask, if_neg hne]
        rfl
      · contradiction
    · contradiction
  simp only [SupervisorState.act, SupervisorState.register, Option.mem_def] at hregistered
  have hundecided : ∀ phase, (∀ durable, phase ≠ SlotPhase.decided durable) →
      (decided.withTask slot phase).Undecided := by
    intro phase hphase other durable
    rw [tasks_withTask]
    split
    · exact hphase durable
    · rename_i hne
      rw [hother other hne]
      simp
  split at hregistered
  · split at hregistered
    · cases hregistered
      exact hundecided .idle (by simp)
    · cases hregistered
      exact hundecided (.registered _ _) (by simp)
  · contradiction

end SupervisorState

namespace Sample

def preparingJob : StoredJournal :=
  (StoredJournal.new runner).run
    (adoptedJob ++ [onSlot (.transitionLifecycle .preparing)])

def cancelRequest : CancelJob where
  sessionId := session
  command := ⟨secondSequence, operation 40, ⟨0⟩⟩
  attemptId := offer.lease.attemptId
  guard := offer.lease.guard
  requestedAt := ⟨0⟩

/-- The cancellation is committed and looked up between the deciding snapshot
of the slot task and its registration. -/
def lostCancellation : List SupervisorAction :=
  [.decide offer.slot, .arrive 0 cancelRequest .reply, .check 0, .locate 0,
    .record 0, .lookUp 0, .register offer.slot, .start offer.slot]

def timelyCancellation : List SupervisorAction :=
  [.decide offer.slot, .register offer.slot, .start offer.slot,
    .arrive 0 cancelRequest .reply, .check 0, .locate 0, .record 0,
    .lookUp 0, .notify 0]

end Sample

/-- Whether the first call has returned with its cancellation committed while
the executor of its attempt runs, and with which signal. -/
def SupervisorState.signalAfterReturn (state : SupervisorState) :
    Option (Option ExecutionCancellationReason) :=
  match state.calls 0, state.tasks Sample.offer.slot with
  | some ⟨cancel, _, .returned true⟩, .executing durable signal =>
    if durable.attemptId = cancel.attemptId then
      some (state.signals signal)
    else
      none
  | _, _ => none

theorem SupervisorState.cancellation_delivered_timely :
    ∃ final, (SupervisorState.initial Sample.preparingJob).run
        Sample.timelyCancellation = some final ∧
      final.signalAfterReturn = some (some .serverRequest) ∧
      final.Delivered := by
  have hfinal :
      ((SupervisorState.initial Sample.preparingJob).run
        Sample.timelyCancellation).map signalAfterReturn =
        some (some (some .serverRequest)) := by
    decide +kernel
  obtain ⟨final, hrun, hsignal⟩ := Option.map_eq_some_iff.mp hfinal
  have hvalid : Sample.preparingJob.validate = .ok () := by decide +kernel
  have hlength : Sample.preparingJob.slots.length = 1 := by decide +kernel
  have hdistinct : DistinctAttempts Sample.preparingJob := by
    obtain ⟨only, honly⟩ := List.length_eq_one_iff.mp hlength
    intro left hleft right hright _
    rw [honly, List.mem_singleton] at hleft hright
    rw [hleft, hright]
  have htimely : (SupervisorState.initial Sample.preparingJob).TimelyRun
      Sample.timelyCancellation :=
    timelyRun_of_start (by simp)
  exact ⟨final, hrun, hsignal, SupervisorState.cancellation_delivered hvalid hdistinct htimely hrun⟩

/-- The lookup comes too early: the call has returned, and the executor which
is started then runs without a signal. -/
theorem SupervisorState.cancellation_lost :
    ∃ final, (SupervisorState.initial Sample.preparingJob).run
        Sample.lostCancellation = some final ∧
      ¬final.Delivered := by
  have hfinal :
      ((SupervisorState.initial Sample.preparingJob).run
        Sample.lostCancellation).map signalAfterReturn =
        some (some none) := by
    decide +kernel
  obtain ⟨final, hrun, hsignal⟩ := Option.map_eq_some_iff.mp hfinal
  refine ⟨final, hrun, ?_⟩
  intro hdelivered
  unfold signalAfterReturn at hsignal
  split at hsignal
  · rename_i cancel carrier durable signal hcall htask
    split at hsignal
    · rename_i hattempt
      have hsent := hdelivered 0 _ Sample.offer.slot durable signal hcall rfl htask hattempt
      rw [Option.some.inj hsignal] at hsent
      contradiction
    · contradiction
  · contradiction

end AutomataCi
