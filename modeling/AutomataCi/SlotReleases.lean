import AutomataCi.DeliveryHistories
import AutomataCi.EndpointPhases
import AutomataCi.ProviderSaga

/-!
# What a released slot has settled

A release only looks at the compacted snapshot of a slot.  By the invariants
which tie the snapshot to the history of the slot, no sandbox and no delivery
of the slot is lost by it.
-/

namespace AutomataCi

open GuardedResult KeyedList

namespace ProviderOperation

def isAppliedDestroy (operation : ProviderOperation) : Bool :=
  operation.kind = .destroySandbox && operation.outcome = .applied

end ProviderOperation

namespace ProviderRecoveryState

variable {recovery final : ProviderRecoveryState} {operation : ProviderOperation}

theorem sandboxLive_after_create (hcreate : operation.isAppliedCreate = true) :
    (recovery.after operation).sandboxLive = true := by
  simp only [ProviderOperation.isAppliedCreate, Bool.and_eq_true, decide_eq_true_eq] at hcreate
  simp [after, hcreate.1, hcreate.2, applyKind]

theorem sandboxLive_after_other (hlive : recovery.sandboxLive = true)
    (hkept : operation.isAppliedDestroy = false) :
    (recovery.after operation).sandboxLive = true := by
  unfold after
  split
  · rename_i happlied
    cases hkind : operation.kind <;> simp_all [applyKind, ProviderOperation.isAppliedDestroy]
  · exact hlive

theorem sandboxLive_applyAll {operations : List ProviderOperation}
    (happly : recovery.applyAll operations = .ok final) (hlive : recovery.sandboxLive = true)
    (hkept : ∀ operation ∈ operations, operation.isAppliedDestroy = false) :
    final.sandboxLive = true := by
  induction operations generalizing recovery with
  | nil =>
    cases happly
    exact hlive
  | cons operation rest ih =>
    simp only [applyAll, bind_eq_ok, apply_eq_ok] at happly
    obtain ⟨next, ⟨-, rfl⟩, hrest⟩ := happly
    rw [List.forall_mem_cons] at hkept
    exact ih hrest (sandboxLive_after_other hlive hkept.1) hkept.2

theorem destroyed_of_not_live {earlier later : List ProviderOperation}
    (happly : recovery.applyAll (earlier ++ operation :: later) = .ok final)
    (hcreate : operation.isAppliedCreate = true) (hgone : final.sandboxLive = false) :
    ∃ destroy ∈ later, destroy.isAppliedDestroy = true := by
  obtain ⟨middle, -, hrest⟩ := applyAll_append.mp happly
  simp only [applyAll, bind_eq_ok, apply_eq_ok] at hrest
  obtain ⟨created, ⟨-, rfl⟩, hlater⟩ := hrest
  by_contra hnever
  have hkept : ∀ destroy ∈ later, destroy.isAppliedDestroy = false := by
    intro destroy hmem
    rw [← Bool.not_eq_true]
    intro hdestroy
    exact hnever ⟨destroy, hmem, hdestroy⟩
  have hlive := sandboxLive_applyAll hlater (sandboxLive_after_create hcreate) hkept
  rw [hgone] at hlive
  contradiction

end ProviderRecoveryState

structure SlotSnapshot.Releasable (slot : SlotSnapshot) : Prop where
  sandbox : slot.sandbox = none
  provider :
    ∀ operation ∈ slot.providerOperations.getLast?, operation.isPending = false
  endpoints :
    ∀ operation ∈ slot.endpointOperations, operation.isRecoveryPending = false
  log : slot.logComplete = true
  result : slot.offerStatus = .accepted → slot.resultComplete = true
  rejection : slot.rejectionComplete = true

namespace SlotSnapshot

variable {self : SlotSnapshot}

theorem Releasable.of_checkRelease {result : Unit} (hcheck : self.checkRelease = .ok result) :
    self.Releasable := by
  simp only [checkRelease, bind_eq_ok, rejectIf_eq_ok, exists_const, not_or,
    not_and, not_exists, Bool.not_eq_true, Bool.not_eq_false,
    Option.isSome_eq_false_iff, Option.isNone_iff_eq_none] at hcheck
  obtain ⟨-, ⟨-, hprovider, hsandbox, hendpoints⟩, hlog, hresult, hrejection⟩ := hcheck
  exact ⟨hsandbox, hprovider, hendpoints, hlog, hresult, hrejection⟩

theorem Releasable.of_checkRejectedRelease {runnerId : RunnerId}
    {session : SessionSnapshot} {operationId : OperationId} {result : Unit}
    (hvalid : self.Valid runnerId session)
    (hcheck : self.checkRejectedRelease operationId = .ok result) :
    self.Releasable := by
  simp only [checkRejectedRelease, bind_eq_ok, rejectIf_eq_ok, okOr_eq_ok,
    exists_const, not_not, Bool.not_eq_false] at hcheck
  obtain ⟨hrejected, rejection, hrejection, -, hacknowledged⟩ := hcheck
  have hunaccepted : self.offerStatus ≠ .accepted := by
    rw [hrejected]
    decide
  obtain ⟨hprovider, hendpoints, -, hsandbox, -⟩ := hvalid.unstarted hunaccepted
  constructor
  · exact hsandbox
  · simp [hprovider]
  · simp [hendpoints]
  · simp [logComplete, hvalid.rejectedLog hrejected]
  · intro haccepted
    exact absurd haccepted hunaccepted
  · simp [rejectionComplete, hrejection, hacknowledged]

end SlotSnapshot

def GrantedFor (runnerId : RunnerId) (sessionId : RunnerSessionId)
    (offer : LeaseOfferRecord) (events : List SlotEvent)
    (grant : OrphanAuthorityGrant) : Prop :=
  .orphaned grant ∈ events ∧ grant.claim = ⟨runnerId, sessionId, offer.slot, offer.lease.guard⟩

structure Settled (runnerId : RunnerId) (sessionId : RunnerSessionId)
    (events : List SlotEvent) (slot : SlotSnapshot) : Prop where
  sandboxes :
    ∀ earlier operation later, providerHistory events = earlier ++ operation :: later →
        operation.isAppliedCreate = true → ∃ destroy ∈ later, destroy.isAppliedDestroy = true
  provider :
    ∀ operation ∈ providerHistory events, operation.isPending = false
  endpoints :
    ∀ operation ∈ slot.endpointOperations, operation.isRecoveryPending = false
  result :
    .mutated .acceptOffer ∈ events → (∃ terminal result enqueuedAt,
        .mutated (.recordTerminalResult terminal result enqueuedAt) ∈ events ∧
          .mutated (.acknowledgeTerminalResult result.operationId) ∈ events) ∨
      ∃ grant, GrantedFor runnerId sessionId slot.offer events grant ∧
        ((∀ terminal result enqueuedAt,
            .mutated (.recordTerminalResult terminal result enqueuedAt) ∉ events) ∨
          AbandonedUnder events grant .terminalResult)
  log :
    (∀ streamId, .mutated (.openLogStream streamId) ∉ events) ∨
      (∃ run final, logHistory events = some run ∧ run.ended = some final ∧ ∀ frame ∈ run.produced,
          frame ≤ final ∧ frame ∈ run.acknowledged) ∨
      ∃ grant, GrantedFor runnerId sessionId slot.offer events grant ∧
        AbandonedUnder events grant .logStream
  rejection :
    ∀ reason operationId enqueuedAt,
      .mutated (.rejectOffer reason operationId enqueuedAt) ∈ events →
        .mutated (.acknowledgeOfferRejection operationId) ∈ events ∨
          ∃ grant, GrantedFor runnerId sessionId slot.offer events grant ∧
            AbandonedUnder events grant .leaseRejection

namespace SlotRun

variable {runnerId : RunnerId} {sessionId : RunnerSessionId}
  {offer : LeaseOfferRecord} {events : List SlotEvent} {slot : SlotSnapshot}

section

variable (hrun : SlotRun runnerId sessionId offer events slot)

include hrun

theorem grantedFor {orphan : OrphanRecord} (horphan : slot.orphan = some orphan) :
    ∃ grant, OrphanHistory events orphan grant ∧
      GrantedFor runnerId sessionId slot.offer events grant := by
  obtain ⟨grant, hgrant⟩ := hrun.deliveryInvariant.orphan orphan horphan
  have haddressed := hrun.addressed _ hgrant.granted
  refine ⟨grant, hgrant, hgrant.granted, ?_⟩
  rw [hrun.offer_eq]
  exact haddressed

theorem abandonedUnder {delivery : OrphanDelivery}
    (habandoned : slot.hasAbandoned delivery = true) :
    ∃ grant, GrantedFor runnerId sessionId slot.offer events grant ∧
      AbandonedUnder events grant delivery := by
  obtain ⟨orphan, horphan, hdelivery⟩ := (Option.any_eq_true _ _).mp habandoned
  obtain ⟨grant, hgrant, hgranted⟩ := hrun.grantedFor horphan
  exact ⟨grant, hgranted, hgrant.abandoned delivery hdelivery⟩

theorem settled_provider
    (hpending : ∀ operation ∈ slot.providerOperations.getLast?, operation.isPending = false) :
    ∀ operation ∈ providerHistory events, operation.isPending = false := by
  obtain ⟨evicted, base, recovery, hsaga⟩ := hrun.sagaInvariant
  intro operation hmem
  rw [hsaga.split, List.mem_append] at hmem
  rcases hmem with hevicted | hretained
  · exact hsaga.evictedResolved operation hevicted
  · by_contra hunresolved
    rw [Bool.not_eq_false] at hunresolved
    have hlast := hsaga.window.getLast_of_pending hretained hunresolved
    rw [hpending operation hlast] at hunresolved
    contradiction

theorem settled_sandboxes (hsandbox : slot.sandbox = none) :
    ∀ earlier operation later, providerHistory events = earlier ++ operation :: later →
        operation.isAppliedCreate = true → ∃ destroy ∈ later, destroy.isAppliedDestroy = true := by
  intro earlier operation later hhistory hcreate
  obtain ⟨evicted, base, recovery, hsaga⟩ := hrun.sagaInvariant
  obtain ⟨-, full, -, -, hfull, -, -, -, hlive⟩ := hsaga.refinement.refines
  rw [hhistory] at hfull
  rw [hsandbox, Option.isSome_none] at hlive
  exact ProviderRecoveryState.destroyed_of_not_live hfull hcreate hlive.symm

end

theorem logHistory_ne_none {streamId : LogStreamId}
    (hopened : .mutated (.openLogStream streamId) ∈ events) :
    logHistory events ≠ none := by
  induction events using List.reverseRecOn with
  | nil => simp at hopened
  | append_singleton earlier event ih =>
    rw [logHistory_concat]
    rw [List.mem_append, List.mem_singleton] at hopened
    rcases hopened with hearlier | rfl
    · have hsome := ih hearlier
      obtain ⟨run, hrun⟩ := Option.ne_none_iff_exists'.mp hsome
      rw [hrun]
      unfold SlotEvent.extendLogHistory
      split <;> simp
    · simp [SlotEvent.extendLogHistory]

section

variable (hrun : SlotRun runnerId sessionId offer events slot)

include hrun

theorem settled_log (hcomplete : slot.logComplete = true) :
    (∀ streamId, .mutated (.openLogStream streamId) ∉ events) ∨
      (∃ run final, logHistory events = some run ∧ run.ended = some final ∧ ∀ frame ∈ run.produced,
          frame ≤ final ∧ frame ∈ run.acknowledged) ∨
      ∃ grant, GrantedFor runnerId sessionId slot.offer events grant ∧
        AbandonedUnder events grant .logStream := by
  have hlog := hrun.deliveryInvariant.log
  rw [SlotSnapshot.logComplete, Bool.or_eq_true] at hcomplete
  rcases hcomplete with hdelivered | habandoned
  · cases hhistory : logHistory events with
    | none =>
      left
      intro streamId hopened
      exact logHistory_ne_none hopened hhistory
    | some run =>
      right
      left
      rw [hhistory] at hlog
      have hfaithful := hlog.faithful run rfl
      rw [hlog.cursor] at hdelivered
      have hfull : run.cursor.isFullyDelivered = true := hdelivered
      obtain ⟨final, hended, hall⟩ := hfaithful.isFullyDelivered_iff.mp hfull
      refine ⟨run, final, rfl, hended, ?_⟩
      intro frame hframe
      have hlast := hfaithful.produced_le_ended hended hframe
      exact ⟨hlast, hall frame hlast⟩
  · exact .inr (.inr (hrun.abandonedUnder habandoned))

theorem settled_result (hcomplete : slot.resultComplete = true) :
    (∃ terminal result enqueuedAt, .mutated (.recordTerminalResult terminal result enqueuedAt) ∈
          events ∧
        .mutated (.acknowledgeTerminalResult result.operationId) ∈ events) ∨
    ∃ grant, GrantedFor runnerId sessionId slot.offer events grant ∧ ((∀ terminal result enqueuedAt,
          .mutated (.recordTerminalResult terminal result enqueuedAt) ∉ events) ∨
        AbandonedUnder events grant .terminalResult) := by
  have hresult := hrun.deliveryInvariant.result
  rw [SlotSnapshot.resultComplete, Bool.or_eq_true] at hcomplete
  rcases hcomplete with hacknowledged | horphaned
  · left
    obtain ⟨record, hrecord, hdone⟩ := (Option.any_eq_true _ _).mp hacknowledged
    obtain ⟨terminal, result, enqueuedAt, hrecorded, hid⟩ := hresult.recorded record hrecord
    refine ⟨terminal, result, enqueuedAt, hrecorded, ?_⟩
    rw [hid]
    exact hresult.acknowledged record hrecord hdone
  · right
    obtain ⟨orphan, horphan, hgiven⟩ := (Option.any_eq_true _ _).mp horphaned
    obtain ⟨grant, hgrant, hgranted⟩ := hrun.grantedFor horphan
    refine ⟨grant, hgranted, ?_⟩
    rw [Bool.or_eq_true] at hgiven
    rcases hgiven with habandoned | hnone
    · exact .inr (hgrant.abandoned .terminalResult habandoned)
    · left
      intro terminal result enqueuedAt hmem
      exact hresult.requested terminal result enqueuedAt hmem (Option.isNone_iff_eq_none.mp hnone)

theorem settled_rejection (hcomplete : slot.rejectionComplete = true)
    {reason : LeaseRejectionReason} {operationId : OperationId} {enqueuedAt : UnixMillis}
    (hrejected : .mutated (.rejectOffer reason operationId enqueuedAt) ∈ events) :
    .mutated (.acknowledgeOfferRejection operationId) ∈ events ∨
      ∃ grant, GrantedFor runnerId sessionId slot.offer events grant ∧
        AbandonedUnder events grant .leaseRejection := by
  have hoffer := hrun.deliveryInvariant.offer
  obtain ⟨record, hrecord, hid⟩ := hoffer.requested reason operationId enqueuedAt hrejected
  rw [SlotSnapshot.rejectionComplete, hrecord, Option.all_some, Bool.or_eq_true] at hcomplete
  rcases hcomplete with hacknowledged | habandoned
  · left
    rw [← hid]
    exact hoffer.acknowledged record hrecord hacknowledged
  · exact .inr (hrun.abandonedUnder habandoned)

theorem settled (hready : slot.Releasable) : Settled runnerId sessionId events slot where
  sandboxes := hrun.settled_sandboxes hready.sandbox
  provider := hrun.settled_provider hready.provider
  endpoints := hready.endpoints
  result haccepted :=
    hrun.settled_result (hready.result (hrun.deliveryInvariant.offer.accepted haccepted))
  log := hrun.settled_log hready.log
  rejection _ _ _ hrejected :=
    hrun.settled_rejection hready.rejection hrejected

end

end SlotRun

namespace StoredJournal

variable {self : StoredJournal} {mutation : JournalMutation}

/-- Only the slot which a release names is removed, and only after its
checks. -/
theorem releasable_of_removed (hvalid : self.Valid) {slot : SlotSnapshot}
    (hslot : slot ∈ self.slots)
    (hremoved : ∀ other ∈ (self.step mutation).slots, other.ordinal ≠ slot.ordinal) :
    slot.Releasable := by
  have hsession := hvalid.sessionPresent (List.ne_nil_of_mem hslot)
  obtain ⟨session, hsession⟩ := Option.ne_none_iff_exists'.mp hsession
  have hfound := lookup_of_mem hvalid hslot
  rcases self.step_cases mutation with hsame | ⟨candidate, hperform, hstep, -⟩
  · rw [hsame] at hremoved
    exact absurd rfl (hremoved slot hslot)
  cases SlotsChange.step self mutation with
  | kept same =>
    rw [same] at hremoved
    exact absurd rfl (hremoved slot hslot)
  | offered offer vacant inserted =>
    rw [inserted] at hremoved
    exact absurd rfl (hremoved slot (mem_insert.mpr (.inr hslot)))
  | received opened before after event hopened present addressed accepted requested written =>
      have hmem : slot.ordinal ∈ (self.step mutation).slots.map SlotSnapshot.ordinal := by
        rw [written, map_key_replace]
        exact List.mem_map_of_mem hslot
      obtain ⟨other, hother, hordinal⟩ := List.mem_map.mp hmem
      exact absurd hordinal (hremoved other hother)
  | released released requested removed =>
    have hordinal : slot.ordinal = released.get := by
      by_contra hother
      refine hremoved slot ?_ rfl
      rw [removed, mem_remove]
      exact ⟨hslot, hother⟩
    have hat : ∀ snapshot, self.slotAt released = some snapshot → snapshot = slot := by
      intro snapshot hsnapshot
      rw [slotAt, ← hordinal, hfound, Option.some.injEq] at hsnapshot
      exact hsnapshot.symm
    cases mutation with
    | releaseSlot =>
      cases requested
      obtain ⟨-, snapshot, hrequired, hcheck, -⟩ := releaseSlot_eq_ok.mp hperform
      have hsnapshot := hat snapshot (requireSlot_eq_ok.mp hrequired).2.1
      rw [hsnapshot] at hcheck
      exact .of_checkRelease hcheck
    | releaseRejectedOffer =>
      cases requested
      obtain ⟨-, snapshot, hrequired, hcheck, -⟩ := releaseRejectedOffer_eq_ok.mp hperform
      have hsnapshot := hat snapshot (requireSlot_eq_ok.mp hrequired).2.1
      rw [hsnapshot] at hcheck
      exact .of_checkRejectedRelease (hvalid.slots session hsession slot hslot).snapshot hcheck
    | _ => exact requested.elim

/-- Whenever a step of a run removes a slot, the committed events of that
slot leave no sandbox, no unresolved operation and no lost delivery. -/
theorem removed_slot_settled (runnerId : RunnerId)
    (mutations : List JournalMutation) (mutation : JournalMutation)
    (slot : SlotSnapshot)
    (hslot : slot ∈ ((new runnerId).run mutations).slots)
    (hremoved : ∀ other ∈ (((new runnerId).run mutations).step mutation).slots,
        other.ordinal ≠ slot.ordinal) :
    ∃ session, ((new runnerId).run mutations).session = some session ∧
        Settled runnerId session.sessionId (historiesOf runnerId mutations slot.ordinal) slot := by
  have hvalid : ((new runnerId).run mutations).Valid :=
    validate_eq_ok.mp (validate_run (validate_new runnerId) mutations)
  have hready := releasable_of_removed hvalid hslot hremoved
  have hpresent := hvalid.sessionPresent (List.ne_nil_of_mem hslot)
  obtain ⟨session, hsession⟩ := Option.ne_none_iff_exists'.mp hpresent
  have hrun := hasHistories_run_new runnerId mutations session hsession slot hslot
  rw [runnerId_run (validate_eq_ok.mp (validate_new runnerId))] at hrun
  exact ⟨session, hsession, hrun.settled hready⟩

end StoredJournal

namespace Sample

def sandbox : SandboxIdentity :=
  ⟨⟨[98], by decide, ⟨98, rfl, by decide⟩, List.forall_mem_singleton.mpr (by decide)⟩,
    ⟨[99], by decide, by decide, List.forall_mem_singleton.mpr (by decide)⟩⟩

def result : TerminalResultRecord :=
  ⟨operation 30, content .terminalResult (by decide), false⟩

def startedJob : List JournalMutation :=
  adoptedJob ++
    [onSlot (.recordProviderIntent ⟨operation 31, .createSandbox, .pending⟩),
      onSlot (.recordSandboxCreated (operation 31) sandbox), onSlot (.openLogStream ⟨⟨1⟩⟩)]

def completedJob : List JournalMutation :=
  startedJob ++
    [onSlot (.recordLogSegment ⟨⟨⟨1⟩⟩, none, LogDeliveryRun.sampleSegment⟩ ⟨0⟩),
      onSlot (.acknowledgeLogSegment
        ⟨⟨⟨1⟩⟩, ⟨0, LogSequence.zero_bounded⟩, LogDeliveryRun.sampleContent⟩),
      onSlot (.recordTerminalResult .failed result ⟨0⟩),
      onSlot (.acknowledgeTerminalResult result.operationId),
      onSlot (.recordProviderIntent ⟨operation 32, .destroySandbox, .pending⟩),
      onSlot (.completeProviderOperation (operation 32))]

def sessionGrant : OrphanAuthorityGrant where
  claim := ⟨runner, session, offer.slot, offer.lease.guard⟩
  authorityOperationId := operation 40
  evidenceDigest := ⟨0⟩
  permissions := ⟨true, true, true⟩

def release : JournalMutation :=
  .releaseSlot session offer.slot offer.lease.guard

end Sample

theorem StoredJournal.removed_slot_settled_completedJob :
    ∃ slot session, slot ∈ ((StoredJournal.new Sample.runner).run Sample.completedJob).slots ∧
        (((StoredJournal.new Sample.runner).run Sample.completedJob).step
          Sample.release).slots = [] ∧
        Settled Sample.runner session (historiesOf Sample.runner Sample.completedJob slot.ordinal)
          slot := by
  have hoccupied :
      (((StoredJournal.new Sample.runner).run Sample.completedJob).slotAt
        Sample.offer.slot).isSome = true := by
    decide +kernel
  have hremoved :
      (((StoredJournal.new Sample.runner).run Sample.completedJob).step
        Sample.release).slots = [] := by
    decide +kernel
  obtain ⟨slot, hslot⟩ := Option.isSome_iff_exists.mp hoccupied
  have hmem := slotAt_mem hslot
  obtain ⟨session, -, hsettled⟩ := StoredJournal.removed_slot_settled
    Sample.runner Sample.completedJob Sample.release slot hmem
    (by simp [hremoved])
  exact ⟨slot, session.sessionId, hmem, hremoved, hsettled⟩

end AutomataCi
