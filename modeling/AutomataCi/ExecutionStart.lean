import AutomataCi.CommandProcessing

/-!
# Starting an execution

The supervisor runs a task for every slot and processes server commands in
others.  A slot task reads the journal, registers the cancellation signal of
its executor among the executions and starts the executor.  A cancellation
is recorded in the journal and then signalled to the execution which is
registered for its attempt.  Every call of the journal and every section
under the lock on the executions is one action.
-/

namespace AutomataCi

open GuardedResult KeyedList

inductive ExecutionCancellationReason where
  | serverRequest | leaseExpired | authorityExpired | sessionLost | shutdown
  deriving DecidableEq, Repr

/-- Where `run_accepted_slot` stands, with the snapshot which decided and the
number of the signal it created. -/
inductive SlotPhase where
  | idle
  | decided (durable : SlotSnapshot)
  | registered (durable : SlotSnapshot) (signal : Nat)
  | executing (durable : SlotSnapshot) (signal : Nat)
  | finished (durable : SlotSnapshot) (signal : Nat)
  deriving DecidableEq

namespace SlotPhase

def durable : SlotPhase → Option SlotSnapshot
  | idle => none
  | decided durable | registered durable _ | executing durable _
  | finished durable _ => some durable

def registration : SlotPhase → Option Nat
  | idle | decided _ => none
  | registered _ signal | executing _ signal | finished _ signal => some signal

end SlotPhase

def SlotSnapshot.attemptId (self : SlotSnapshot) : AttemptId :=
  self.offer.lease.attemptId

/-- Whether the deciding snapshot lets the executor start. -/
def SlotSnapshot.mayExecute (durable : SlotSnapshot) : Bool :=
  durable.cancellation.isNone &&
    durable.lifecycle ∈ [.preparing, .running, .cancelling, .finalizing]

/-- Where a cancellation call stands.  A recording commits the command unless
the command was committed before. -/
inductive CancelPhase where
  | checking
  | locating
  | recording (slot : RunnerSlotOrdinal)
  | looking (committed : Bool)
  | signalling (committed : Bool) (signal : Nat)
  | returned (committed : Bool)
  | failed
  deriving DecidableEq

def CancelPhase.applied : CancelPhase → Bool
  | looking committed | signalling committed _ | returned committed => committed
  | _ => false

structure CancelCall where
  cancel : CancelJob
  carrier : CommandCarrier
  phase : CancelPhase
  deriving DecidableEq

def JournalMutation.releasedSlot : JournalMutation → Option RunnerSlotOrdinal
  | .releaseSlot _ slot _ => some slot
  | .releaseRejectedOffer _ slot _ _ => some slot
  | _ => none

/-- Whether the session has yet to commit a command. -/
def StoredJournal.isNewCommand (journal : StoredJournal) (command : DurableCommand) : Bool :=
  journal.session.any fun session => isBeyondCursor session command

structure SupervisorState where
  journal : StoredJournal
  executions : AttemptId → Option Nat
  signals : Nat → Option ExecutionCancellationReason
  nextSignal : Nat
  tasks : RunnerSlotOrdinal → SlotPhase
  calls : Nat → Option CancelCall

inductive SupervisorAction where
  | mutate (mutation : JournalMutation)
  | decide (slot : RunnerSlotOrdinal)
  | abandon (slot : RunnerSlotOrdinal)
  | register (slot : RunnerSlotOrdinal)
  | fail (slot : RunnerSlotOrdinal)
  | start (slot : RunnerSlotOrdinal)
  | signal (slot : RunnerSlotOrdinal) (reason : ExecutionCancellationReason)
  | finish (slot : RunnerSlotOrdinal)
  | unregister (slot : RunnerSlotOrdinal)
  | arrive (caller : Nat) (cancel : CancelJob) (carrier : CommandCarrier)
  | check (caller : Nat)
  | locate (caller : Nat)
  | record (caller : Nat)
  | lookUp (caller : Nat)
  | notify (caller : Nat)

namespace SupervisorState

def initial (journal : StoredJournal) : SupervisorState where
  journal
  executions _ := none
  signals _ := none
  nextSignal := 0
  tasks _ := .idle
  calls _ := none

variable (self : SupervisorState)

def withTask (slot : RunnerSlotOrdinal) (phase : SlotPhase) : SupervisorState :=
  { self with tasks := Function.update self.tasks slot phase }

def withCall (caller : Nat) (call : CancelCall) (phase : CancelPhase) : SupervisorState :=
  { self with
    calls := Function.update self.calls caller (some { call with phase }) }

def withExecution (attemptId : AttemptId) (signal : Option Nat) : SupervisorState :=
  { self with
    executions := Function.update self.executions attemptId signal }

def withSignal (signal : Nat) (reason : ExecutionCancellationReason) : SupervisorState :=
  { self with
    signals := Function.update self.signals signal ((self.signals signal).or (some reason)) }

/-- A mutation of the journal by some task.  A slot is released by its own
task, which then runs no executor. -/
def mutate (mutation : JournalMutation) : Option SupervisorState :=
  if ∀ slot ∈ mutation.releasedSlot, self.tasks slot = .idle then
    some { self with journal := self.journal.step mutation }
  else
    none

variable (slot : RunnerSlotOrdinal)

def decide : Option SupervisorState :=
  match self.tasks slot, self.journal.slotAt slot with
  | .idle, some durable =>
    if durable.offerStatus = .accepted ∧ durable.mayExecute = true then
      some (self.withTask slot (.decided durable))
    else
      none
  | _, _ => none

def abandon : Option SupervisorState :=
  match self.tasks slot with
  | .decided _ => some (self.withTask slot .idle)
  | _ => none

/-- An attempt which is registered already ends the task, but the entry has
been overwritten. -/
def register : Option SupervisorState :=
  match self.tasks slot with
  | .decided durable =>
    let inserted :=
      { self with nextSignal := self.nextSignal + 1 }.withExecution
        durable.attemptId (some self.nextSignal)
    if (self.executions durable.attemptId).isSome = true then
      some (inserted.withTask slot .idle)
    else
      some (inserted.withTask slot (.registered durable self.nextSignal))
  | _ => none

/-- An error between the registration and the start leaves the entry. -/
def fail : Option SupervisorState :=
  match self.tasks slot with
  | .registered _ _ => some (self.withTask slot .idle)
  | _ => none

def start : Option SupervisorState :=
  match self.tasks slot with
  | .registered durable signal => some (self.withTask slot (.executing durable signal))
  | _ => none

def signal (slot : RunnerSlotOrdinal)
    (reason : ExecutionCancellationReason) : Option SupervisorState :=
  match self.tasks slot with
  | .executing _ signal => some (self.withSignal signal reason)
  | _ => none

def finish (slot : RunnerSlotOrdinal) : Option SupervisorState :=
  match self.tasks slot with
  | .executing durable signal => some (self.withTask slot (.finished durable signal))
  | _ => none

def unregister (slot : RunnerSlotOrdinal) : Option SupervisorState :=
  match self.tasks slot with
  | .finished durable _ => some ((self.withExecution durable.attemptId none).withTask slot .idle)
  | _ => none

variable (caller : Nat)

def arrive (cancel : CancelJob) (carrier : CommandCarrier) : Option SupervisorState :=
  match self.calls caller with
  | none => some (self.withCall caller ⟨cancel, carrier, .checking⟩ .checking)
  | some _ => none

variable (call : CancelCall)

/-- The call returns if its command was recorded before.  What else a call
asks of the journal is a mutation by some task. -/
def check : SupervisorState :=
  match self.journal.replayedCommandDisposition call.cancel.sessionId call.cancel.command with
  | .error _ => self.withCall caller call .failed
  | .ok (some _) => self.withCall caller call (.returned false)
  | .ok none => self.withCall caller call .locating

/-- The call has nothing to apply if no slot is the target. -/
def locate : SupervisorState :=
  match self.journal.cancellationTarget call.cancel with
  | none => self.withCall caller call (.returned false)
  | some target => self.withCall caller call (.recording target.slot)

def record (slot : RunnerSlotOrdinal) : SupervisorState :=
  match self.journal.commit (call.carrier.mutation call.cancel.sessionId
    (.cancellation slot call.cancel.guard ⟨call.cancel.command, call.cancel.requestedAt⟩)) with
  | .error _ => self.withCall caller call .failed
  | .ok (_, journal) =>
    { self with journal }.withCall caller call
      (.looking (self.journal.isNewCommand call.cancel.command))

def lookUp (committed : Bool) : SupervisorState :=
  match self.executions call.cancel.attemptId with
  | none => self.withCall caller call (.returned committed)
  | some signal => self.withCall caller call (.signalling committed signal)

def notify (committed : Bool) (signal : Nat) : SupervisorState :=
  (self.withSignal signal .serverRequest).withCall caller call (.returned committed)

def act : SupervisorAction → Option SupervisorState
  | .mutate mutation => self.mutate mutation
  | .decide slot => self.decide slot
  | .abandon slot => self.abandon slot
  | .register slot => self.register slot
  | .fail slot => self.fail slot
  | .start slot => self.start slot
  | .signal slot reason => self.signal slot reason
  | .finish slot => self.finish slot
  | .unregister slot => self.unregister slot
  | .arrive caller cancel carrier => self.arrive caller cancel carrier
  | .check caller =>
    match self.calls caller with
    | some ⟨cancel, carrier, .checking⟩ => some (self.check caller ⟨cancel, carrier, .checking⟩)
    | _ => none
  | .locate caller =>
    match self.calls caller with
    | some ⟨cancel, carrier, .locating⟩ => some (self.locate caller ⟨cancel, carrier, .locating⟩)
    | _ => none
  | .record caller =>
    match self.calls caller with
    | some ⟨cancel, carrier, .recording slot⟩ =>
      some (self.record caller ⟨cancel, carrier, .recording slot⟩ slot)
    | _ => none
  | .lookUp caller =>
    match self.calls caller with
    | some ⟨cancel, carrier, .looking committed⟩ =>
      some (self.lookUp caller ⟨cancel, carrier, .looking committed⟩ committed)
    | _ => none
  | .notify caller =>
    match self.calls caller with
    | some ⟨cancel, carrier, .signalling committed signal⟩ =>
      some (self.notify caller ⟨cancel, carrier, .signalling committed signal⟩ committed signal)
    | _ => none

def run (self : SupervisorState) : List SupervisorAction → Option SupervisorState
  | [] => some self
  | action :: rest => (self.act action).bind fun next => next.run rest

variable (state : SupervisorState)

/-- A cancellation which a returned call has committed is signalled to the
executor of its attempt. -/
def Delivered : Prop :=
  ∀ caller call slot durable signal, state.calls caller = some call → call.phase = .returned true →
      state.tasks slot = .executing durable signal → durable.attemptId = call.cancel.attemptId →
          (state.signals signal).isSome = true

/-- A slot which is newly occupied holds an attempt which no other slot holds
and no cancellation names. -/
def OffersOnce (mutation : JournalMutation) : Prop :=
  ∀ slot ∈ (state.journal.step mutation).slots, state.journal.slotAt slot.slot = none →
      (∀ other ∈ state.journal.slots, other.attemptId ≠ slot.attemptId) ∧
        ∀ caller call, state.calls caller = some call → call.cancel.attemptId ≠ slot.attemptId

/-- No attempt is looked up while its slot task is between the deciding
snapshot and the registration, and no attempt is offered twice. -/
def Timely : SupervisorAction → Prop
  | .mutate mutation => state.OffersOnce mutation
  | .lookUp caller =>
    ∀ call, state.calls caller = some call → ∀ slot durable, state.tasks slot = .decided durable →
        durable.attemptId ≠ call.cancel.attemptId
  | _ => True

def TimelyRun (state : SupervisorState) : List SupervisorAction → Prop
  | [] => True
  | action :: rest => state.Timely action ∧ ∀ next ∈ state.act action, next.TimelyRun rest

def DistinctAttempts (journal : StoredJournal) : Prop :=
  ∀ left ∈ journal.slots, ∀ right ∈ journal.slots,
    left.attemptId = right.attemptId → left.slot = right.slot

end SupervisorState

end AutomataCi
