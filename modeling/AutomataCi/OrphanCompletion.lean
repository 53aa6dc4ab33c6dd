import AutomataCi.OrphanRecovery
import AutomataCi.SlotReleases

/-!
# Orphan recovery completes

Every journal call of the recovery writes one orphaned slot and leaves it
recoverable, so that a restart finds what it needs.  No call is refused, and
each one brings the reconciliation nearer to its end: the number of orphaned
slots never grows, and between two releases the phases go one way.
-/

namespace AutomataCi

open GuardedResult KeyedList

/-! ## Recoverable slots -/

namespace SlotSnapshot

variable {slot after : SlotSnapshot}

/-- The grant of an orphaned slot lets go of what is still pending, nothing
pending was given up for another reason, and no sandbox is being created. -/
structure Recoverable (slot : SlotSnapshot) : Prop where
  permitted :
    ∀ orphan ∈ slot.orphan, ∀ delivery, slot.deliveryPending delivery = true →
        orphan.permissions.allows delivery = true
  reason :
    ∀ orphan ∈ slot.orphan, ∀ delivery, slot.deliveryPending delivery = true →
        ∀ reason ∈ orphan.abandonments.get delivery, reason = .sessionInvalidated
  created :
    slot.orphan ≠ none → ∀ operation ∈ slot.providerOperations.getLast?,
        operation.kind = .createSandbox → operation.isPending = false

theorem deliveryPending_congr (hresult : after.terminalResult = slot.terminalResult)
    (hlog : after.logDelivery = slot.logDelivery)
    (hrejection : after.rejection = slot.rejection) :
    after.deliveryPending = slot.deliveryPending := by
  funext delivery
  cases delivery with
  | terminalResult => simp only [deliveryPending, hresult]
  | logStream => simp only [deliveryPending, hlog]
  | leaseRejection => simp only [deliveryPending, hrejection]

theorem hasDelivery_of_pending {delivery : OrphanDelivery}
    (hpending : slot.deliveryPending delivery = true) :
    slot.hasDelivery delivery = true := by
  cases delivery with
  | terminalResult | logStream | leaseRejection =>
    simp only [deliveryPending, Option.any_eq_true] at hpending
    obtain ⟨record, hrecord, -⟩ := hpending
    simp [hasDelivery, hrecord]

structure SameDeliveries (slot after : SlotSnapshot) : Prop where
  offer : after.offer = slot.offer
  status : after.offerStatus = slot.offerStatus
  pending : after.deliveryPending = slot.deliveryPending

variable {mutation : SlotMutation}

theorem SameDeliveries.of_perform (hperform : slot.perform mutation = .ok (true, after))
    (htouches : ∀ component ∈ (SlotEvent.mutated mutation).touches,
        component = .provider ∨ component = .endpoints ∨
          component = .lifecycle ∨ component = .orphan) : SameDeliveries slot after := by
  have hagrees : ∀ component : SlotComponent, ¬(component = .provider ∨ component = .endpoints ∨
        component = .lifecycle ∨ component = .orphan) →
      slot.Agrees after component := by
    intro component hother
    have hreceive : slot.receive (.mutated mutation) = .ok (true, after) := hperform
    apply receive_agrees hreceive
    intro htouched
    exact hother (htouches component htouched)
  have hresult : slot.Agrees after .terminalResult := hagrees _ (by decide)
  have hlog : slot.Agrees after .log := hagrees _ (by decide)
  have hrejection : slot.Agrees after .rejection := hagrees _ (by decide)
  exact ⟨hagrees .offer (by decide), hagrees .offerStatus (by decide),
    deliveryPending_congr hresult hlog hrejection⟩

theorem Recoverable.congr (hslot : slot.Recoverable)
    (hsame : SameDeliveries slot after) (horphan : after.orphan = slot.orphan)
    (hcreated : after.orphan ≠ none → ∀ operation ∈ after.providerOperations.getLast?,
          operation.kind = .createSandbox → operation.isPending = false) :
    after.Recoverable where
  permitted := by
    rw [horphan, hsame.pending]
    exact hslot.permitted
  reason := by
    rw [horphan, hsame.pending]
    exact hslot.reason
  created := hcreated

theorem Recoverable.provider (hslot : slot.Recoverable) (horphan : slot.orphan ≠ none)
    (htouches : (SlotEvent.mutated mutation).touches = [.provider])
    (hperform : slot.perform mutation = .ok (true, after)) :
    ∀ operation ∈ after.providerOperations.getLast?,
      operation.kind = .createSandbox → operation.isPending = false := by
  cases mutation with
  | recordProviderIntent =>
    obtain ⟨-, -, hkinds, -, -, -, checkpoint, window, -, -, -, -, -, -,
      rfl⟩ := recordProviderIntent_eq_true.mp hperform
    intro operation hlast hcreate
    simp only [List.getLast?_concat, Option.mem_def, Option.some.injEq] at hlast
    subst hlast
    have hdestroy := hkinds (Option.isSome_iff_ne_none.mpr horphan)
    rw [hcreate] at hdestroy
    simp at hdestroy
  | recordSandboxCreated =>
    obtain ⟨operation, hlast, -, hcreate, hpending, -⟩ := recordSandboxCreated_eq_true.mp hperform
    have hresolved := hslot.created horphan operation hlast hcreate
    rw [hpending] at hresolved
    contradiction
  | completeProviderOperation =>
    obtain ⟨operation, -, -, -, -, rfl⟩ := completeProviderOperation_eq_true.mp hperform
    intro last hlast _
    have hwritten : last = { operation with outcome := .applied } := by
      simpa [withLastProviderOperation, eq_comm] using hlast
    rw [hwritten]
    rfl
  | failProviderOperation =>
    obtain ⟨operation, hlast, -, hpending, -, -, rfl⟩ := failProviderOperation_eq_true.mp hperform
    intro last hwritten hcreate
    rw [getLast_withLastProviderOperation, Option.mem_def, Option.some.injEq] at hwritten
    subst hwritten
    have hresolved := hslot.created horphan operation hlast hcreate
    rw [hpending] at hresolved
    contradiction
  | _ => simp [SlotEvent.touches] at htouches

theorem ProviderValid.idle (hprovider : slot.ProviderValid) (hgone : slot.sandbox = none)
    (hcreated : ∀ operation ∈ slot.providerOperations.getLast?,
        operation.kind = .createSandbox → operation.isPending = false) :
    ∀ operation ∈ slot.providerOperations.getLast?, operation.isPending = false := by
  intro operation hlast
  obtain ⟨recovery, hreplay, hlive⟩ := hprovider.recovery
  obtain ⟨front, hfront⟩ := List.getLast?_eq_some_iff.mp hlast
  rw [hfront, ProviderRecoveryState.applyAll_concat] at hreplay
  obtain ⟨middle, -, hbegin, rfl⟩ := hreplay
  by_contra hpending
  rw [Bool.not_eq_false] at hpending
  have hunapplied : operation.outcome ≠ .applied := by
    intro happlied
    rw [ProviderOperation.isPending, happlied] at hpending
    contradiction
  have hother : operation.kind ≠ .createSandbox := by
    intro hcreate
    rw [hcreated operation hlast hcreate] at hpending
    contradiction
  rw [hgone, ProviderRecoveryState.after, if_neg hunapplied] at hlive
  cases hkind : operation.kind with
  | createSandbox => exact hother hkind
  | startSandbox => simp [hkind, ProviderRecoveryState.canBegin, ← hlive] at hbegin
  | stopSandbox => simp [hkind, ProviderRecoveryState.canBegin, ← hlive] at hbegin
  | destroySandbox => simp [hkind, ProviderRecoveryState.canBegin, ← hlive] at hbegin

end SlotSnapshot

/-! ## Journal calls on an orphaned slot -/

namespace StoredJournal

variable {journal next : StoredJournal}

/-- A call which the journal admits is committed, unless the revisions are
used up. -/
theorem Valid.commit_or_exhausted {mutation : JournalMutation}
    {candidate : StoredJournal} (hvalid : journal.Valid)
    (hperform : journal.perform mutation = .ok (true, candidate))
    (hbounded : Bounded mutation) (hadmits : journal.Admits mutation) :
    journal.commit mutation = .ok (true, { candidate with revision := candidate.revision + 1 }) ∨
      journal.commit mutation = .error .counterExhausted := by
  by_cases hroom : journal.revision + 1 < 2 ^ 64
  · exact .inl (hvalid.commit_eq hbounded hadmits hperform hroom)
  · have hfull : 2 ^ 64 ≤ candidate.revision + 1 := by
      rw [revision_of_perform hperform]
      omega
    right
    simp only [commit, hperform, ok_bind, if_true, incrementRevision, rejectIf, if_pos hfull]
    rfl

/-- The slot which the coordinator reads is the one its requests name. -/
structure Tracks (journal : StoredJournal) (target : RecoveryTarget)
    (slot : SlotSnapshot) (orphan : OrphanRecord) : Prop where
  opened :
    ∃ session, journal.session = some session ∧ session.sessionId = target.sessionId
  present : journal.slotAt target.slot = some slot
  guard : slot.guard = target.guard
  orphaned : slot.orphan = some orphan
  authority : orphan.authorityOperationId = target.authorityOperationId

/-- The slots which were not orphaned are those of the beginning, and the
orphaned ones can be completed. -/
structure Recoverable (journal : StoredJournal)
    (others : List SlotSnapshot) : Prop where
  valid : journal.Valid
  slots : ∀ slot ∈ journal.slots, slot.Recoverable
  others :
    (journal.slots.filter fun slot => slot.orphan.isNone) = others

def orphanedSlots (journal : StoredJournal) : List SlotSnapshot :=
  journal.slots.filter fun slot => slot.orphan.isSome

variable {target : RecoveryTarget} {slot after : SlotSnapshot}
  {orphan later : OrphanRecord} {others : List SlotSnapshot}

theorem Tracks.mem (htracks : journal.Tracks target slot orphan) : slot ∈ journal.slots :=
  slotAt_mem htracks.present

theorem Tracks.requireSlot (htracks : journal.Tracks target slot orphan) :
    journal.requireSlot target.sessionId target.slot target.guard = .ok slot :=
  requireSlot_eq_ok.mpr ⟨htracks.opened, htracks.present, htracks.guard⟩

structure Writes (journal next : StoredJournal) (after : SlotSnapshot) :
    Prop where
  valid : next.Valid
  session : next.session = journal.session
  slots : next.slots = replace SlotSnapshot.ordinal after journal.slots

theorem Writes.ordinal_eq (hsame : slot.SameDeliveries after) : after.ordinal = slot.ordinal := by
  simp only [SlotSnapshot.ordinal, SlotSnapshot.slot, hsame.offer]

theorem Writes.tracks (hvalid : journal.Valid) (htracks : journal.Tracks target slot orphan)
    (hwrites : Writes journal next after)
    (hsame : slot.SameDeliveries after) (horphan : after.orphan = some later)
    (hauthority : later.authorityOperationId = orphan.authorityOperationId) :
    next.Tracks target after later := by
  have hkey := (lookup_mem htracks.present).2
  constructor
  · rw [hwrites.session]
    exact htracks.opened
  · unfold slotAt
    rw [hwrites.slots, lookup_replace hvalid.slotsSorted.nodup,
      if_pos (by rw [ordinal_eq hsame, hkey])]
    have hpresent := htracks.present
    unfold slotAt at hpresent
    rw [hpresent, Option.map_some]
  · rw [← htracks.guard]
    simp only [SlotSnapshot.guard, hsame.offer]
  · exact horphan
  · exact hauthority.trans htracks.authority

theorem Tracks.orphan_of_key (hvalid : journal.Valid) (htracks : journal.Tracks target slot orphan)
    (hsame : slot.SameDeliveries after) :
    ∀ entry ∈ journal.slots, entry.ordinal = after.ordinal → entry.orphan = some orphan := by
  intro entry hentry hkey
  have heq : entry = slot := eq_of_mem_of_key_eq hvalid.slotsSorted.nodup hentry htracks.mem
      (hkey.trans (Writes.ordinal_eq hsame))
  rw [heq]
  exact htracks.orphaned

theorem Writes.recoverable (hjournal : journal.Recoverable others)
    (htracks : journal.Tracks target slot orphan)
    (hwrites : Writes journal next after)
    (hsame : slot.SameDeliveries after) (horphan : after.orphan = some later)
    (hafter : after.Recoverable) :
    next.Recoverable others where
  valid := hwrites.valid
  slots := by
    intro entry hentry
    rw [hwrites.slots] at hentry
    rcases mem_replace.mp hentry with ⟨hold, -⟩ | ⟨rfl, -⟩
    · exact hjournal.slots entry hold
    · exact hafter
  others := by
    rw [hwrites.slots, ← hjournal.others]
    apply filter_replace_of_dropped
    · intro entry hentry hkey
      rw [htracks.orphan_of_key hjournal.valid hsame entry hentry hkey]
      rfl
    · rw [horphan]
      rfl

theorem Writes.length_orphanedSlots (hvalid : journal.Valid)
    (htracks : journal.Tracks target slot orphan)
    (hwrites : Writes journal next after)
    (hsame : slot.SameDeliveries after)
    (horphan : after.orphan = some later) :
    next.orphanedSlots.length = journal.orphanedSlots.length := by
  unfold orphanedSlots
  rw [hwrites.slots]
  apply length_filter_replace
  · intro entry hentry hkey
    rw [htracks.orphan_of_key hvalid hsame entry hentry hkey]
    rfl
  · rw [horphan]
    rfl

theorem Tracks.commit {mutation : SlotMutation} (hvalid : journal.Valid)
    (htracks : journal.Tracks target slot orphan)
    (hbounded : (SlotEvent.mutated mutation).Bounded)
    (hadmits : slot.Admits mutation)
    (hperform : slot.perform mutation = .ok (true, after)) :
    (∃ next, journal.commit (target.request mutation) = .ok (true, next) ∧
        Writes journal next after) ∨
      journal.commit (target.request mutation) = .error .counterExhausted := by
  have hcandidate : journal.perform (target.request mutation) =
      .ok (true, journal.withSlot after) :=
    slotMut_eq_ok.mpr ⟨slot, after, htracks.requireSlot, hperform, rfl⟩
  have hallowed : journal.Admits (target.request mutation) := by
    intro found hfound
    rw [htracks.present, Option.mem_def, Option.some.injEq] at hfound
    exact hfound ▸ hadmits
  have hrange : Bounded (target.request mutation) := hbounded
  rcases hvalid.commit_or_exhausted hcandidate hrange hallowed with hcommit | hfull
  · left
    refine ⟨_, hcommit, ?_, rfl, rfl⟩
    exact (hvalid.perform_iff hrange hcandidate).mpr hallowed
  · exact .inr hfull

end StoredJournal

/-! ## The end of a slot -/

namespace SlotSnapshot

variable {slot : SlotSnapshot} {orphan : OrphanRecord}
  {runnerId : RunnerId} {session : SessionSnapshot}

/-- Every pending delivery is abandoned or among those still to abandon. -/
def Disposes (slot : SlotSnapshot) (orphan : OrphanRecord) (rest : List OrphanDelivery) : Prop :=
  ∀ delivery, slot.deliveryPending delivery = true →
    orphan.isAbandoned delivery = true ∨ delivery ∈ rest

/-- No sandbox is left and the provider has nothing to do. -/
structure Idle (slot : SlotSnapshot) : Prop where
  sandbox : slot.sandbox = none
  provider :
    ∀ operation ∈ slot.providerOperations.getLast?, operation.isPending = false

theorem Disposes.abandoned {delivery : OrphanDelivery} (hdisposes : slot.Disposes orphan [])
    (hpending : slot.deliveryPending delivery = true) :
    orphan.isAbandoned delivery = true := by
  rcases hdisposes delivery hpending with habandoned | hmem
  · exact habandoned
  · contradiction

theorem Disposes.logComplete (horphan : slot.orphan = some orphan)
    (hdisposes : slot.Disposes orphan []) :
    slot.logComplete = true := by
  by_cases hpending : slot.deliveryPending .logStream = true
  · simp [SlotSnapshot.logComplete, hasAbandoned, horphan, hdisposes.abandoned hpending]
  · unfold deliveryPending at hpending
    cases hlog : slot.logDelivery with
    | none => simp [SlotSnapshot.logComplete, hlog]
    | some => simp_all [SlotSnapshot.logComplete]

theorem Disposes.resultComplete (horphan : slot.orphan = some orphan)
    (hdisposes : slot.Disposes orphan []) :
    slot.resultComplete = true := by
  by_cases hpending : slot.deliveryPending .terminalResult = true
  · simp [SlotSnapshot.resultComplete, horphan, hdisposes.abandoned hpending]
  · unfold deliveryPending at hpending
    cases hresult : slot.terminalResult with
    | none => simp [SlotSnapshot.resultComplete, hresult, horphan]
    | some => simp_all [SlotSnapshot.resultComplete]

theorem Disposes.rejectionComplete (horphan : slot.orphan = some orphan)
    (hdisposes : slot.Disposes orphan []) :
    slot.rejectionComplete = true := by
  by_cases hpending : slot.deliveryPending .leaseRejection = true
  · have habandoned : slot.hasAbandoned .leaseRejection = true := by
      simp [hasAbandoned, horphan, hdisposes.abandoned hpending]
    unfold SlotSnapshot.rejectionComplete
    cases slot.rejection <;> simp [habandoned]
  · unfold deliveryPending at hpending
    cases hrejection : slot.rejection with
    | none => simp [SlotSnapshot.rejectionComplete, hrejection]
    | some => simp_all [SlotSnapshot.rejectionComplete]

theorem Disposes.checkRelease (hvalid : slot.Valid runnerId session)
    (horphan : slot.orphan = some orphan)
    (hdisposes : slot.Disposes orphan []) (hidle : slot.Idle)
    (hresolved : slot.endpointRecoveryPending = none) :
    slot.checkRelease = .ok () := by
  have hterminal : slot.lifecycle.isTerminal = true := by
    rcases (hvalid.orphan orphan horphan).settled with hterminal | hpending
    · exact hterminal
    · exact absurd hresolved hpending
  have hendpoints : ∀ operation ∈ slot.endpointOperations, operation.isRecoveryPending = false := by
    intro operation hmem
    by_contra hpending
    rw [Bool.not_eq_false] at hpending
    have hsome := endpointRecoveryPending_of_mem hvalid.endpoints.window hmem hpending
    rw [hresolved] at hsome
    contradiction
  simp only [SlotSnapshot.checkRelease, bind_eq_ok, rejectIf_eq_ok, exists_const, not_or, not_and,
    not_exists, Bool.not_eq_true, Bool.not_eq_false, Option.isSome_eq_false_iff,
    Option.isNone_iff_eq_none]
  refine ⟨?_, ⟨hterminal, hidle.provider, hidle.sandbox, hendpoints⟩, hdisposes.logComplete horphan,
    fun _ => hdisposes.resultComplete horphan,
    hdisposes.rejectionComplete horphan⟩
  intro _ hnone
  rw [horphan] at hnone
  contradiction

theorem Valid.endpointUpdate {operation resolved : EndpointOperation}
    (update : EndpointOperation → Except JournalInvariantError (Bool × EndpointOperation))
    (hvalid : slot.Valid runnerId session)
    (hpending : slot.endpointRecoveryPending = some operation)
    (hupdate : update operation = .ok (true, resolved))
    (hid : resolved.operationId = operation.operationId)
    (hdone : resolved.isRecoveryPending = false) :
    ∃ updated, slot.EndpointUpdate operation.operationId update updated ∧
      updated.terminalizeOrphanAfterEndpointResolution.endpointRecoveryPending = none := by
  unfold endpointRecoveryPending at hpending
  obtain ⟨hlast, -⟩ := Option.filter_eq_some_iff.mp hpending
  have hmem := List.mem_of_getLast? hlast
  obtain ⟨front, hfront⟩ := List.getLast?_eq_some_iff.mp hlast
  have hfound : lookup EndpointOperation.operationId operation.operationId
      slot.endpointOperations = some operation :=
    (lookup_eq_some_iff hvalid.endpoints.window.distinct).mpr ⟨hmem, rfl⟩
  refine ⟨_, ⟨operation, resolved, hfound, hupdate, rfl⟩, ?_⟩
  obtain ⟨lifecycle, hclosed⟩ := terminalize_eq { slot with
    endpointOperations := replace EndpointOperation.operationId resolved slot.endpointOperations }
  have hwindow := hvalid.endpoints.window
  rw [hfront] at hwindow
  rw [hclosed]
  simp only [endpointRecoveryPending]
  rw [hfront, hwindow.replace_concat hid]
  simp [hdone]

end SlotSnapshot

/-! ## The phases -/

namespace RecoveryState

variable {state next : RecoveryState} {others : List SlotSnapshot}
  {target : RecoveryTarget}

/-- What is known of the journal in each phase. -/
def PhaseSafe (journal : StoredJournal) : RecoveryPhase → Prop
  | .scanning => True
  | .abandoning target rest =>
    ∃ slot orphan, journal.Tracks target slot orphan ∧
      (∀ delivery ∈ rest, slot.deliveryPending delivery = true) ∧
      slot.Disposes orphan rest
  | .awaiting target => ∃ slot orphan, journal.Tracks target slot orphan ∧ slot.Disposes orphan []
  | .cleaning target mutations =>
    ∃ slot orphan, journal.Tracks target slot orphan ∧
      slot.Disposes orphan [] ∧ Cleans journal target mutations
  | .resolving target =>
    ∃ slot orphan, journal.Tracks target slot orphan ∧ slot.Disposes orphan [] ∧ slot.Idle
  | .releasing target =>
    ∃ slot orphan, journal.Tracks target slot orphan ∧ slot.Disposes orphan [] ∧ slot.Idle ∧
      slot.endpointRecoveryPending = none
  | .reconciled => journal.orphanedSlots = []
  | .failed error => error = .journal .counterExhausted

structure Safe (others : List SlotSnapshot) (state : RecoveryState) :
    Prop where
  journal : state.journal.Recoverable others
  phase : PhaseSafe state.journal state.phase

theorem Safe.known (hsafe : Safe others state) {phase : RecoveryPhase}
    (hphase : state.phase = phase) : PhaseSafe state.journal phase :=
  hphase ▸ hsafe.phase

def phaseRank : RecoveryPhase → Nat
  | .scanning => 6
  | .abandoning _ _ => 5
  | .awaiting _ => 4
  | .cleaning _ _ => 3
  | .resolving _ => 2
  | .releasing _ => 1
  | .reconciled => 0
  | .failed _ => 0

def workLeft (journal : StoredJournal) : RecoveryPhase → Nat
  | .abandoning _ rest => rest.length
  | .cleaning _ mutations => mutations.length
  | .resolving target =>
    if ∃ slot ∈ journal.slotAt target.slot, slot.endpointRecoveryPending ≠ none then 1
    else 0
  | _ => 0

def measure (state : RecoveryState) : Nat × Nat × Nat :=
  (state.journal.orphanedSlots.length, phaseRank state.phase, workLeft state.journal state.phase)

def Nearer (next state : RecoveryState) : Prop :=
  Prod.Lex (· < ·) (Prod.Lex (· < ·) (· < ·)) next.measure state.measure

/-- A move which keeps what is known and comes nearer to the end. -/
def Progresses (others : List SlotSnapshot) (state next : RecoveryState) : Prop :=
  Safe others next ∧ Nearer next state

theorem nearer_wellFounded : WellFounded Nearer :=
  InvImage.wf measure (WellFounded.prod_lex Nat.lt_wfRel.wf
      (WellFounded.prod_lex Nat.lt_wfRel.wf Nat.lt_wfRel.wf))

theorem Nearer.of_orphans
    (hfewer : next.journal.orphanedSlots.length < state.journal.orphanedSlots.length) :
    Nearer next state :=
  .left _ _ hfewer

theorem Nearer.of_rank
    (hsame : next.journal.orphanedSlots.length = state.journal.orphanedSlots.length)
    (hrank : phaseRank next.phase < phaseRank state.phase) :
    Nearer next state := by
  unfold Nearer measure
  rw [hsame]
  exact .right _ (.left _ _ hrank)

theorem Nearer.of_work
    (hsame : next.journal.orphanedSlots.length = state.journal.orphanedSlots.length)
    (hrank : phaseRank next.phase = phaseRank state.phase)
    (hwork : workLeft next.journal next.phase < workLeft state.journal state.phase) :
    Nearer next state := by
  unfold Nearer measure
  rw [hsame, hrank]
  exact .right _ (.right _ hwork)

variable {slot : SlotSnapshot} {orphan : OrphanRecord} {mutation : SlotMutation}
  {delivery : OrphanDelivery} {journal : StoredJournal}

theorem Safe.call_cases {after : SlotSnapshot} {later : OrphanRecord} (phase : RecoveryPhase)
    (hjournal : state.journal.Recoverable others)
    (htracks : state.journal.Tracks target slot orphan)
    (hperform : slot.perform mutation = .ok (true, after))
    (hbounded : (SlotEvent.mutated mutation).Bounded) (hadmits : slot.Admits mutation)
    (hsame : slot.SameDeliveries after) (horphan : after.orphan = some later)
    (hauthority : later.authorityOperationId = orphan.authorityOperationId)
    (hafter : after.Recoverable) :
    (∃ written, state.call (target.request mutation) phase = ⟨written, phase⟩ ∧
        written.Recoverable others ∧ written.Tracks target after later ∧
        written.orphanedSlots.length = state.journal.orphanedSlots.length) ∨
      state.call (target.request mutation) phase = state.fail (.journal .counterExhausted) := by
  rcases htracks.commit hjournal.valid hbounded hadmits hperform with
    ⟨written, hcommit, hwrites⟩ | hfull
  · left
    refine ⟨written, ?_, ?_, ?_, ?_⟩
    · simp only [call, hcommit]
    · exact hwrites.recoverable hjournal htracks hsame horphan hafter
    · exact hwrites.tracks hjournal.valid htracks hsame horphan hauthority
    · exact hwrites.length_orphanedSlots hjournal.valid htracks hsame horphan
  · right
    simp only [call, hfull]

theorem Safe.exhausted (hjournal : state.journal.Recoverable others)
    (hactive : 0 < phaseRank state.phase) :
    Progresses others state (state.fail (.journal .counterExhausted)) :=
  ⟨⟨hjournal, rfl⟩, .of_rank rfl hactive⟩

theorem mem_pendingDeliveries :
    delivery ∈ pendingDeliveries slot ↔ slot.deliveryPending delivery = true := by
  unfold pendingDeliveries
  rw [List.mem_filter]
  apply and_iff_right_of_imp
  intro _
  cases delivery <;> decide

theorem Safe.reconcileAuthorized (hsafe : Safe others state) (hphase : state.phase = .scanning) :
    Progresses others state state.reconcileAuthorized := by
  unfold RecoveryState.reconcileAuthorized
  cases hfind : state.journal.slots.find? fun slot => slot.orphan.isSome with
  | none =>
    have hnone : state.journal.orphanedSlots = [] := by
      unfold StoredJournal.orphanedSlots
      rw [List.filter_eq_nil_iff]
      exact List.find?_eq_none.mp hfind
    refine ⟨⟨hsafe.journal, hnone⟩, .of_rank rfl ?_⟩
    simp [hphase, phaseRank]
  | some slot =>
    have hmem := List.mem_of_find?_eq_some hfind
    have hsome : slot.orphan.isSome = true := by simpa using List.find?_some hfind
    obtain ⟨orphan, horphan⟩ := Option.isSome_iff_exists.mp hsome
    have hopened := hsafe.journal.valid.sessionPresent (List.ne_nil_of_mem hmem)
    obtain ⟨session, hsession⟩ := Option.ne_none_iff_exists'.mp hopened
    have hpermitted : ¬∃ delivery ∈ pendingDeliveries slot,
        orphan.permissions.allows delivery = false := by
      rintro ⟨delivery, hpending, hrefused⟩
      have hallowed := (hsafe.journal.slots slot hmem).permitted orphan
        horphan delivery (mem_pendingDeliveries.mp hpending)
      rw [hrefused] at hallowed
      contradiction
    have hpresent : state.journal.slotAt slot.slot = some slot :=
      StoredJournal.lookup_of_mem hsafe.journal.valid hmem
    simp only [hsession, reconcileSlot, horphan, if_neg hpermitted]
    refine ⟨⟨hsafe.journal, slot, orphan, ?_, ?_, ?_⟩, .of_rank rfl ?_⟩
    · exact ⟨⟨session, hsession, rfl⟩, hpresent, rfl, horphan, rfl⟩
    · intro delivery hdelivery
      exact mem_pendingDeliveries.mp hdelivery
    · intro delivery hpending
      exact .inr (mem_pendingDeliveries.mpr hpending)
    · simp [hphase, phaseRank]

def giveUp (orphan : OrphanRecord) (delivery : OrphanDelivery) : OrphanRecord :=
  { orphan with
    abandonments := orphan.abandonments.set delivery .sessionInvalidated }

theorem isAbandoned_giveUp {other : OrphanDelivery} :
    (giveUp orphan delivery).isAbandoned other =
      (other = delivery || orphan.isAbandoned other) := by
  simp only [giveUp, OrphanRecord.isAbandoned, OrphanAbandonments.get_set]
  by_cases hsame : other = delivery
  · simp [hsame]
  · simp [hsame]

theorem recoverable_giveUp (hslot : slot.Recoverable) (horphan : slot.orphan = some orphan) :
    { slot with orphan := some (giveUp orphan delivery) }.Recoverable := by
  constructor
  · intro record hrecord
    cases hrecord
    exact hslot.permitted orphan horphan
  · intro record hrecord other hother reason hreason
    cases hrecord
    rw [giveUp, OrphanAbandonments.get_set] at hreason
    split at hreason
    · exact (Option.some.inj hreason).symm
    · exact hslot.reason orphan horphan other hother reason hreason
  · intro _
    exact hslot.created (by simp [horphan])

theorem Safe.abandonOrphanDelivery {rest : List OrphanDelivery} (hsafe : Safe others state)
    (hphase : state.phase = .abandoning target (delivery :: rest)) :
    Progresses others state (state.abandonOrphanDelivery target delivery rest) := by
  obtain ⟨slot, orphan, htracks, hpending, hdisposes⟩ := hsafe.known hphase
  rw [List.forall_mem_cons] at hpending
  have hslot := hsafe.journal.slots slot htracks.mem
  have hallowed := hslot.permitted orphan htracks.orphaned delivery hpending.1
  have hdelivery := SlotSnapshot.hasDelivery_of_pending hpending.1
  have hactive : 0 < phaseRank state.phase := by simp [hphase, phaseRank]
  cases hrecorded : orphan.abandonments.get delivery with
  | some reason =>
    -- The call was made before the last crash.
    have hreason := hslot.reason orphan htracks.orphaned delivery hpending.1 reason hrecorded
    have habandon : orphan.abandon target.authorityOperationId delivery
        .sessionInvalidated = .ok (false, orphan) :=
      OrphanRecord.abandon_eq_ok.mpr ⟨⟨htracks.authority, hallowed⟩,
        .inr ⟨rfl, hreason ▸ hrecorded, rfl⟩⟩
    have hperform : slot.perform (.abandonOrphanDelivery
        target.authorityOperationId delivery .sessionInvalidated) =
          .ok (false, { slot with orphan := some orphan }) := by
      simp only [SlotSnapshot.perform, SlotSnapshot.abandonOrphanDelivery,
        hdelivery, htracks.orphaned, rejectIf, okOr, ok_bind, habandon]
      rfl
    have hcandidate : state.journal.perform (target.request
        (.abandonOrphanDelivery target.authorityOperationId delivery
          .sessionInvalidated)) = .ok (false, state.journal.withSlot
            { slot with orphan := some orphan }) :=
      StoredJournal.slotMut_eq_ok.mpr ⟨slot, _, htracks.requireSlot, hperform, rfl⟩
    have hcommit : state.journal.commit (target.request
        (.abandonOrphanDelivery target.authorityOperationId delivery
          .sessionInvalidated)) = .ok (false, state.journal) := by
      simp only [StoredJournal.commit, hcandidate, ok_bind]
      rfl
    simp only [RecoveryState.abandonOrphanDelivery, call, hcommit]
    refine ⟨⟨hsafe.journal, slot, orphan, htracks, hpending.2, ?_⟩,
      .of_work rfl (by simp [hphase, phaseRank]) (by
        simp [hphase, workLeft])⟩
    intro other hother
    rcases hdisposes other hother with habandoned | hmem
    · exact .inl habandoned
    · rcases List.mem_cons.mp hmem with rfl | hlater
      · left
        rw [OrphanRecord.isAbandoned, hrecorded]
        rfl
      · exact .inr hlater
  | none =>
    have habandon : orphan.abandon target.authorityOperationId delivery
        .sessionInvalidated = .ok (true, giveUp orphan delivery) :=
      OrphanRecord.abandon_eq_ok.mpr ⟨⟨htracks.authority, hallowed⟩, .inl ⟨rfl, hrecorded, rfl⟩⟩
    have hperform : slot.perform (.abandonOrphanDelivery
        target.authorityOperationId delivery .sessionInvalidated) = .ok (true,
            { slot with orphan := some (giveUp orphan delivery) }) :=
      SlotSnapshot.abandonOrphanDelivery_eq_true.mpr
        ⟨hdelivery, orphan, _, htracks.orphaned, habandon, rfl⟩
    rcases Safe.call_cases (.abandoning target rest) hsafe.journal htracks hperform trivial trivial
      ⟨rfl, rfl, rfl⟩ rfl rfl (recoverable_giveUp hslot htracks.orphaned) with ⟨written, hcall,
      hwritten, hlater, hcount⟩ | hfull
    · unfold RecoveryState.abandonOrphanDelivery
      rw [hcall]
      refine ⟨⟨hwritten, _, _, hlater, hpending.2, ?_⟩,
        .of_work hcount (by simp [hphase, phaseRank]) (by
          simp [hphase, workLeft])⟩
      intro other hother
      rw [isAbandoned_giveUp]
      rcases hdisposes other hother with habandoned | hmem
      · exact .inl (by simp [habandoned])
      · rcases List.mem_cons.mp hmem with rfl | hrest
        · exact .inl (by simp)
        · exact .inr hrest
    · unfold RecoveryState.abandonOrphanDelivery
      rw [hfull]
      exact Safe.exhausted hsafe.journal hactive

theorem slot_valid (hvalid : journal.Valid) (htracks : journal.Tracks target slot orphan) :
    ∃ session, slot.Valid journal.runnerId session := by
  obtain ⟨session, hsession, -⟩ := htracks.opened
  exact ⟨session, (hvalid.slots session hsession slot htracks.mem).snapshot⟩

theorem Safe.refresh (hsafe : Safe others state) (hphase : state.phase = .abandoning target []) :
    Progresses others state (state.refresh target) := by
  obtain ⟨slot, orphan, htracks, -, hdisposes⟩ := hsafe.known hphase
  simp only [RecoveryState.refresh, htracks.present]
  by_cases hsandbox : slot.sandbox.isSome = true
  · rw [if_pos hsandbox]
    refine ⟨⟨hsafe.journal, slot, orphan, htracks, hdisposes⟩, .of_rank rfl ?_⟩
    simp [hphase, phaseRank]
  · rw [if_neg hsandbox]
    have hgone : slot.sandbox = none := by simpa using hsandbox
    obtain ⟨session, hvalid⟩ := slot_valid hsafe.journal.valid htracks
    have hcreated := (hsafe.journal.slots slot htracks.mem).created (by simp [htracks.orphaned])
    have hidle : slot.Idle := ⟨hgone, hvalid.provider.idle hgone hcreated⟩
    refine ⟨⟨hsafe.journal, slot, orphan, htracks, hdisposes, hidle⟩, .of_rank rfl ?_⟩
    simp [hphase, phaseRank]

theorem Safe.executor {mutations : List SlotMutation}
    (hsafe : Safe others ⟨journal, .awaiting target⟩) (hcleans : Cleans journal target mutations) :
    Progresses others ⟨journal, .awaiting target⟩ ⟨journal, .cleaning target mutations⟩ := by
  obtain ⟨slot, orphan, htracks, hdisposes⟩ := hsafe.phase
  refine ⟨⟨hsafe.journal, slot, orphan, htracks, hdisposes, hcleans⟩, .of_rank rfl ?_⟩
  simp [phaseRank]

theorem Safe.cleanup {rest : List SlotMutation} (hsafe : Safe others state)
    (hphase : state.phase = .cleaning target (mutation :: rest)) :
    Progresses others state
      ⟨state.journal.step (target.request mutation), .cleaning target rest⟩ := by
  obtain ⟨slot, orphan, htracks, hdisposes, hcleans⟩ := hsafe.known hphase
  have hprovider := List.forall_mem_cons.mp hcleans.provider
  have hlater : Cleans (state.journal.step (target.request mutation))
      target rest := ⟨hprovider.2, hcleans.destroyed⟩
  rcases state.journal.step_cases (target.request mutation) with
    hkept | ⟨candidate, hperform, hstep, hchecked, -⟩
  · rw [hkept] at hlater ⊢
    exact ⟨⟨hsafe.journal, slot, orphan, htracks, hdisposes, hlater⟩,
      .of_work rfl (by simp [hphase, phaseRank]) (by
        simp [hphase, workLeft])⟩
  · obtain ⟨found, after, hfound, hafter, hcandidate⟩ := StoredJournal.slotMut_eq_ok.mp hperform
    rw [htracks.requireSlot] at hfound
    cases hfound
    have hreceive : slot.receive (.mutated mutation) = .ok (true, after) := hafter
    have hsame : slot.SameDeliveries after := by
      apply SlotSnapshot.SameDeliveries.of_perform hafter
      intro component hcomponent
      rw [hprovider.1, List.mem_singleton] at hcomponent
      exact .inl hcomponent
    have horphan : after.orphan = slot.orphan := by
      have hagrees : slot.Agrees after .orphan := by
        apply SlotSnapshot.receive_agrees hreceive
        rw [hprovider.1]
        decide
      exact hagrees
    have hslot := hsafe.journal.slots slot htracks.mem
    have hrecoverable : after.Recoverable := by
      apply hslot.congr hsame horphan
      intro _
      exact hslot.provider (by simp [htracks.orphaned]) hprovider.1 hafter
    rw [htracks.orphaned] at horphan
    have hwrites : StoredJournal.Writes state.journal
        (state.journal.step (target.request mutation)) after := by
      constructor
      · exact StoredJournal.validate_eq_ok.mp hchecked
      · rw [hstep, hcandidate]
        rfl
      · rw [hstep, hcandidate]
        rfl
    refine ⟨⟨?_, after, orphan, ?_, ?_, hlater⟩, .of_work ?_ ?_ ?_⟩
    · exact hwrites.recoverable hsafe.journal htracks hsame horphan hrecoverable
    · exact hwrites.tracks hsafe.journal.valid htracks hsame horphan rfl
    · intro delivery hpending
      rw [hsame.pending] at hpending
      exact hdisposes delivery hpending
    · exact hwrites.length_orphanedSlots hsafe.journal.valid htracks hsame horphan
    · simp [hphase, phaseRank]
    · simp [hphase, workLeft]

theorem Safe.checkCleanup (hsafe : Safe others state) (hphase : state.phase = .cleaning target []) :
    Progresses others state (state.checkCleanup target) := by
  obtain ⟨slot, orphan, htracks, hdisposes, hcleans⟩ := hsafe.known hphase
  obtain ⟨hgone, hprovider⟩ := hcleans.destroyed slot htracks.present
  have hclean : ¬((state.journal.slotAt target.slot).any fun current =>
      current.sandbox.isSome) = true := by
    simp [htracks.present, hgone]
  unfold RecoveryState.checkCleanup
  rw [if_neg hclean]
  refine ⟨⟨hsafe.journal, slot, orphan, htracks, hdisposes, hgone, hprovider⟩, .of_rank rfl ?_⟩
  simp [hphase, phaseRank]

theorem Safe.resolve {updated : SlotSnapshot} {operationId : OperationId}
    {update : EndpointOperation →
      Except JournalInvariantError (Bool × EndpointOperation)} (mutation : SlotMutation)
    (hsafe : Safe others state) (hphase : state.phase = .resolving target)
    (htracks : state.journal.Tracks target slot orphan) (hdisposes : slot.Disposes orphan [])
    (hidle : slot.Idle) (hpending : slot.endpointRecoveryPending ≠ none)
    (hupdate : slot.EndpointUpdate operationId update updated)
    (hresolved : updated.terminalizeOrphanAfterEndpointResolution.endpointRecoveryPending = none)
    (hperform :
      slot.perform mutation = .ok (true, updated.terminalizeOrphanAfterEndpointResolution))
    (hbounded : (SlotEvent.mutated mutation).Bounded) (hadmits : slot.Admits mutation) :
    Progresses others state (state.call (target.request mutation) (.resolving target)) := by
  have hagrees : ∀ component : SlotComponent, component ∉ [SlotComponent.endpoints, .lifecycle] →
      slot.Agrees updated.terminalizeOrphanAfterEndpointResolution component :=
    fun component hother => hupdate.terminalized_agrees hother
  have hpendingSame := SlotSnapshot.deliveryPending_congr
    (hagrees .terminalResult (by decide)) (hagrees .log (by decide))
    (hagrees .rejection (by decide))
  have hsame : slot.SameDeliveries updated.terminalizeOrphanAfterEndpointResolution :=
    ⟨hagrees .offer (by decide), hagrees .offerStatus (by decide), hpendingSame⟩
  have horphan : updated.terminalizeOrphanAfterEndpointResolution.orphan =
      slot.orphan := hagrees .orphan (by decide)
  obtain ⟨-, hoperations, hsandbox⟩ := hagrees .provider (by decide)
  have hrecoverable : updated.terminalizeOrphanAfterEndpointResolution.Recoverable := by
    apply (hsafe.journal.slots slot htracks.mem).congr hsame horphan
    intro _ operation hlast _
    rw [hoperations] at hlast
    exact hidle.provider operation hlast
  have hnext : updated.terminalizeOrphanAfterEndpointResolution.Idle := by
    constructor
    · rw [hsandbox]
      exact hidle.sandbox
    · rw [hoperations]
      exact hidle.provider
  rw [htracks.orphaned] at horphan
  rcases Safe.call_cases (.resolving target) hsafe.journal htracks hperform hbounded hadmits hsame
    horphan rfl hrecoverable with ⟨written, hcall, hwritten, hlater, hcount⟩ | hfull
  · rw [hcall]
    refine ⟨⟨hwritten, _, orphan, hlater, ?_, hnext⟩,
      .of_work hcount (by simp [hphase, phaseRank]) ?_⟩
    · intro delivery howed
      rw [hpendingSame] at howed
      exact hdisposes delivery howed
    · simp [hphase, workLeft, hlater.present, htracks.present, hresolved, hpending]
  · rw [hfull]
    exact Safe.exhausted hsafe.journal (by simp [hphase, phaseRank])

theorem Safe.resolveEndpointRecovery (hsafe : Safe others state)
    (hphase : state.phase = .resolving target) :
    Progresses others state (state.resolveEndpointRecoveryAfterSandboxAbsence target) := by
  obtain ⟨slot, orphan, htracks, hdisposes, hidle⟩ := hsafe.known hphase
  obtain ⟨session, hvalid⟩ := slot_valid hsafe.journal.valid htracks
  have hmatches : ¬(slot.guard ≠ target.guard ∨ slot.sandbox.isSome = true) := by
    simp [htracks.guard, hidle.sandbox]
  simp only [resolveEndpointRecoveryAfterSandboxAbsence, htracks.present, if_neg hmatches]
  cases hpending : slot.endpointRecoveryPending with
  | none =>
    refine ⟨⟨hsafe.journal, slot, orphan, htracks, hdisposes, hidle, hpending⟩, .of_rank rfl ?_⟩
    simp [hphase, phaseRank]
  | some operation =>
    have hsome : slot.endpointRecoveryPending ≠ none := by simp [hpending]
    have hunresolved : operation.isRecoveryPending = true :=
      (Option.filter_eq_some_iff.mp hpending).2
    cases hstate : operation.state with
    | accepted =>
      have hupdate : operation.requestCancellation =
          (true, { operation with state := .cancelled }) := by
        simp [EndpointOperation.requestCancellation, hstate]
      obtain ⟨updated, hwritten, hresolved⟩ := hvalid.endpointUpdate
          (fun operation => .ok operation.requestCancellation)
          hpending (congrArg Except.ok hupdate) rfl rfl
      simp only [hstate]
      exact hsafe.resolve (.recordEndpointCancellation operation.operationId) hphase
        htracks hdisposes hidle hsome hwritten hresolved
        (SlotSnapshot.recordEndpointCancellation_eq_true.mpr
          ⟨updated, hwritten, rfl⟩) trivial trivial
    | invocationCommitted =>
      have hupdate : operation.abandon = .ok (true, { operation with state := .abandoned }) := by
        simp [EndpointOperation.abandon, hstate]
      obtain ⟨updated, hwritten, hresolved⟩ := hvalid.endpointUpdate EndpointOperation.abandon
        hpending hupdate rfl rfl
      simp only [hstate]
      exact hsafe.resolve (.abandonEndpointOperation operation.operationId) hphase
        htracks hdisposes hidle hsome hwritten hresolved
        (SlotSnapshot.abandonEndpointOperation_eq_true.mpr
          ⟨hidle.sandbox, updated, hwritten, rfl⟩) trivial trivial
    | cancellationRequested =>
      have hupdate : operation.completeCancellation =
          .ok (true, { operation with state := .cancelled }) := by
        simp [EndpointOperation.completeCancellation, hstate]
      obtain ⟨updated, hwritten, hresolved⟩ := hvalid.endpointUpdate
        EndpointOperation.completeCancellation hpending hupdate rfl rfl
      simp only [hstate]
      exact hsafe.resolve (.completeEndpointCancellation operation.operationId) hphase
        htracks hdisposes hidle hsome hwritten hresolved
        (SlotSnapshot.completeEndpointCancellation_eq_true.mpr
          ⟨hidle.sandbox, updated, hwritten, rfl⟩) trivial trivial
    | cancelled | abandoned | completed =>
      simp [EndpointOperation.isRecoveryPending, hstate,
        EndpointOperationState.isPending] at hunresolved

theorem Safe.releaseSlot (hsafe : Safe others state) (hphase : state.phase = .releasing target) :
    Progresses others state
      (state.call (.releaseSlot target.sessionId target.slot target.guard) .scanning) := by
  obtain ⟨slot, orphan, htracks, hdisposes, hidle, hresolved⟩ := hsafe.known hphase
  obtain ⟨session, hvalid⟩ := slot_valid hsafe.journal.valid htracks
  have hkey := (lookup_mem htracks.present).2
  have hcheck := hdisposes.checkRelease hvalid htracks.orphaned hidle hresolved
  have hperform : state.journal.perform (.releaseSlot target.sessionId target.slot target.guard) =
        .ok (true, state.journal.withoutSlot target.slot) :=
    StoredJournal.releaseSlot_eq_ok.mpr ⟨rfl, slot, htracks.requireSlot, hcheck, rfl⟩
  rcases hsafe.journal.valid.commit_or_exhausted hperform trivial trivial with hcommit | hfull
  · simp only [call, hcommit]
    refine ⟨⟨⟨?_, ?_, ?_⟩, trivial⟩, .of_orphans ?_⟩
    · exact hsafe.journal.valid.withoutSlot.nextRevision
    · intro entry hentry
      exact hsafe.journal.slots entry (mem_remove.mp hentry).1
    · rw [← hsafe.journal.others]
      simp only [StoredJournal.withoutSlot, remove, List.filter_filter]
      apply List.filter_congr
      intro entry hentry
      -- The removed slot is not among the others.
      by_cases hremoved : entry.ordinal = target.slot.get
      · have heq : entry = slot := eq_of_mem_of_key_eq hsafe.journal.valid.slotsSorted.nodup hentry
            htracks.mem (hremoved.trans hkey.symm)
        simp [heq, htracks.orphaned]
      · simp [hremoved]
    · have hmem : slot ∈ state.journal.orphanedSlots := by
        simp [StoredJournal.orphanedSlots, htracks.mem, htracks.orphaned]
      have hcomm : StoredJournal.orphanedSlots { state.journal.withoutSlot target.slot with
            revision := (state.journal.withoutSlot target.slot).revision + 1 } =
          state.journal.orphanedSlots.filter fun entry => entry.ordinal ≠ target.slot.get := by
        simp only [StoredJournal.orphanedSlots, StoredJournal.withoutSlot,
          remove, List.filter_filter, Bool.and_comm]
      rw [hcomm]
      apply List.length_filter_lt_length_iff_exists.mpr
      exact ⟨slot, hmem, by simp [hkey]⟩
  · simp only [call, hfull]
    exact Safe.exhausted hsafe.journal (by simp [hphase, phaseRank])

/-! ## Runs -/

theorem Safe.move (hsafe : Safe others state) (hmove : Move state next) :
    Progresses others state next := by
  cases hmove with
  | executor hcleans => exact hsafe.executor hcleans
  | coordinator hadvance =>
    unfold advance at hadvance
    split at hadvance <;> rename_i hphase <;>
      simp only [Option.some.injEq, reduceCtorEq] at hadvance <;>
      subst hadvance
    · exact hsafe.reconcileAuthorized hphase
    · exact hsafe.refresh hphase
    · exact hsafe.abandonOrphanDelivery hphase
    · exact hsafe.checkCleanup hphase
    · exact hsafe.cleanup hphase
    · exact hsafe.resolveEndpointRecovery hphase
    · exact hsafe.releaseSlot hphase

theorem Safe.restartMove (hsafe : Safe others state)
    (hmove : RestartMove state next) : Safe others next := by
  cases hmove with
  | move hmove => exact (hsafe.move hmove).1
  | crash => exact ⟨hsafe.journal, trivial⟩

theorem Safe.terminates (hsafe : Safe others state) :
    Acc (fun later earlier => Move earlier later) state := by
  induction state using nearer_wellFounded.induction with
  | _ state ih =>
    constructor
    intro later hmove
    obtain ⟨hlater, hnearer⟩ := hsafe.move hmove
    exact ih later hnearer hlater

/-- What a recovery which began with `journal` guarantees in a state of it. -/
structure Completes (journal : StoredJournal) (state : RecoveryState) :
    Prop where
  terminates : Acc (fun later earlier => Move earlier later) state
  accepted :
    ∀ error, state.phase = .failed error → error = .journal .counterExhausted
  progresses :
    state.advance = none → state.phase = .reconciled ∨ (∃ target, state.phase = .awaiting target) ∨
        ∃ error, state.phase = .failed error
  unchanged :
    (state.journal.slots.filter fun slot => slot.orphan.isNone) =
      journal.slots.filter fun slot => slot.orphan.isNone
  released :
    state.phase = .reconciled → state.journal.orphanedSlots = []

theorem advance_eq_none (hnone : state.advance = none) :
    state.phase = .reconciled ∨ (∃ target, state.phase = .awaiting target) ∨
      ∃ error, state.phase = .failed error := by
  unfold advance at hnone
  split at hnone <;> rename_i hphase <;> simp only [reduceCtorEq] at hnone
  · exact .inr (.inl ⟨_, hphase⟩)
  · exact .inl hphase
  · exact .inr (.inr ⟨_, hphase⟩)

/-- From a journal whose orphaned slots are recoverable, and through any
number of crashes, the recovery ends; it fails only when the revisions are
used up, and it releases the orphaned slots and no other. -/
theorem recovery_completes {journal : StoredJournal} (hvalid : journal.validate = .ok ())
    (hslots : ∀ slot ∈ journal.slots, slot.Recoverable)
    (hreach : Relation.ReflTransGen RestartMove (start journal) state) :
    Completes journal state := by
  have hsafe : Safe (journal.slots.filter fun slot => slot.orphan.isNone) state := by
    induction hreach with
    | refl => exact ⟨⟨StoredJournal.validate_eq_ok.mp hvalid, hslots, rfl⟩, trivial⟩
    | tail _ hmove ih => exact ih.restartMove hmove
  constructor
  · exact hsafe.terminates
  · intro error hfailed
    exact hsafe.known hfailed
  · exact advance_eq_none
  · exact hsafe.journal.others
  · intro hreconciled
    exact hsafe.known hreconciled

def proceed (state : RecoveryState) : RecoveryState :=
  state.advance.getD state

theorem restartMove_proceed (state : RecoveryState) :
    Relation.ReflTransGen RestartMove state state.proceed := by
  unfold proceed
  cases hadvance : state.advance with
  | none => exact .refl
  | some next => exact .single (.move (.coordinator hadvance))

def failure (state : RecoveryState) : Option RecoveryError :=
  match state.phase with
  | .failed error => some error
  | _ => none

end RecoveryState

namespace SlotSnapshot

instance (p : OrphanDelivery → Prop) [DecidablePred p] : Decidable (∀ delivery, p delivery) :=
  decidable_of_iff (p .terminalResult ∧ p .logStream ∧ p .leaseRejection) ⟨fun h delivery => by
        cases delivery with
        | terminalResult => exact h.1
        | logStream => exact h.2.1
        | leaseRejection => exact h.2.2,
      fun h => ⟨h _, h _, h _⟩⟩

instance (slot : SlotSnapshot) : Decidable slot.Recoverable :=
  decidable_of_iff ((∀ orphan ∈ slot.orphan, ∀ delivery, slot.deliveryPending delivery = true →
          orphan.permissions.allows delivery = true) ∧
      (∀ orphan ∈ slot.orphan, ∀ delivery, slot.deliveryPending delivery = true →
          ∀ reason ∈ orphan.abandonments.get delivery, reason = .sessionInvalidated) ∧
      (slot.orphan ≠ none → ∀ operation ∈ slot.providerOperations.getLast?,
          operation.kind = .createSandbox → operation.isPending = false))
    ⟨fun h => ⟨h.1, h.2.1, h.2.2⟩, fun h => ⟨h.permitted, h.reason, h.created⟩⟩

end SlotSnapshot

namespace Sample

def orphanedJob : List JournalMutation :=
  startedJob ++ [.authorizeOrphan sessionGrant]

def rejectedLog : JournalMutation :=
  onSlot (.abandonOrphanDelivery (operation 40) .logStream .controlPlaneRejected)

end Sample

/-- The process crashes when the log stream is given up and the slot is not
yet released. -/
theorem RecoveryState.recovery_completes_orphanedJob :
    let journal := (StoredJournal.new Sample.runner).run Sample.orphanedJob
    let crashed := (start journal).proceed.proceed
    (∃ slot ∈ crashed.journal.slots, ∃ orphan ∈ slot.orphan,
      orphan.abandonments.get .logStream = some .sessionInvalidated) ∧
    Completes journal (start crashed.journal) := by
  intro journal crashed
  have hvalid : journal.validate = .ok () := by decide +kernel
  have hslots : ∀ slot ∈ journal.slots, slot.Recoverable := by decide +kernel
  have hreach : Relation.ReflTransGen RestartMove (start journal) crashed :=
    (restartMove_proceed _).trans (restartMove_proceed _)
  exact ⟨by decide +kernel, recovery_completes hvalid hslots (hreach.tail (.crash crashed))⟩

/-- A delivery which was given up for another reason is given up again, which
the journal refuses. -/
theorem RecoveryState.abandonment_conflict :
    (∃ slot ∈ ((StoredJournal.new Sample.runner).run
        (Sample.orphanedJob ++ [Sample.rejectedLog])).slots,
      ∃ orphan ∈ slot.orphan, (∀ delivery, orphan.permissions.allows delivery = true) ∧
          slot.sandbox.isSome = true ∧
          orphan.abandonments.get .logStream = some .controlPlaneRejected) ∧
    ((start ((StoredJournal.new Sample.runner).run
        (Sample.orphanedJob ++ [Sample.rejectedLog]))).advance.bind advance).bind failure =
      some (.journal .orphanAbandonmentConflict) := by
  decide +kernel

end AutomataCi
