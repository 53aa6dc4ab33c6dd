import AutomataCi.JournalPreservation

/-!
# Endpoint operations along a run

Every mutation of a run leaves the endpoint operations of a slot linearized,
except an invocation which is committed in an orphaned slot.  Whether a step
commits one is decided by the state before it: a valid journal accepts the
invocation exactly if the request is made under the session and the guard, the
operation is accepted and the revision has a successor.
-/

namespace AutomataCi

open GuardedResult KeyedList SerialLog

namespace StoredJournal

variable {self : StoredJournal} {mutation : JournalMutation}

/-- What a mutation of the journal may do to endpoint operations. -/
structure EndpointsLinearized (journal : StoredJournal)
    (mutation : JournalMutation) : Prop where
  continued :
    ∀ before ∈ journal.slots, (∃ after ∈ (journal.step mutation).slots,
        after.slot = before.slot ∧ before.EndpointStep after) ∨
      (Releases before.slot mutation ∧
        ∀ after ∈ (journal.step mutation).slots, after.slot ≠ before.slot)
  started :
    ∀ after ∈ (journal.step mutation).slots, (∃ before ∈ journal.slots, before.slot = after.slot) ∨
        after.endpointOperations = []

/-- The request is made under the session and the guard of the slot, and it names an accepted
operation; the journal has another revision. -/
structure Invocable (journal : StoredJournal) (sessionId : RunnerSessionId)
    (slot : RunnerSlotOrdinal) (guard : LeaseGuard) (operationId : OperationId)
    (snapshot : SlotSnapshot) : Prop where
  opened : ∃ session, journal.session = some session ∧ session.sessionId = sessionId
  addressed : journal.slotAt slot = some snapshot
  guarded : snapshot.guard = guard
  accepted :
    ∃ operation, lookup EndpointOperation.operationId operationId
        snapshot.endpointOperations = some operation ∧ operation.state = .accepted
  revision : journal.revision + 1 < 2 ^ 64

/-- An invocation is requested in a slot which was orphaned before, and nothing else is in its
way. -/
def CommitsOrphaned (self : StoredJournal) (mutation : JournalMutation) : Prop :=
  ∃ sessionId slot guard operationId snapshot, mutation =
        .onSlot sessionId slot guard (.commitEndpointInvocation operationId) ∧
      snapshot.orphan ≠ none ∧
      Invocable self sessionId slot guard operationId snapshot

theorem Valid.commit_invocation_iff {sessionId : RunnerSessionId} {slot : RunnerSlotOrdinal}
    {guard : LeaseGuard} {operationId : OperationId} (hvalid : self.Valid) :
    (∃ next, self.commit (.onSlot sessionId slot guard (.commitEndpointInvocation operationId)) =
        .ok (true, next)) ↔
      ∃ snapshot, Invocable self sessionId slot guard operationId snapshot := by
  constructor
  · rintro ⟨next, hcommit⟩
    simp only [commit, bind_eq_ok, Prod.exists] at hcommit
    obtain ⟨reported, candidate, hperform, hrest⟩ := hcommit
    cases reported with
    | false => simp at hrest
    | true =>
      simp only [if_true, bind_eq_ok, incrementRevision_eq_ok] at hrest
      obtain ⟨incremented, ⟨hrevision, -⟩, -⟩ := hrest
      rw [revision_of_perform hperform] at hrevision
      obtain ⟨snapshot, committed, hslot, hcommitted, -⟩ := slotMut_eq_ok.mp hperform
      obtain ⟨hopened, haddressed, hguard⟩ := requireSlot_eq_ok.mp hslot
      obtain ⟨operation, entered, hlookup, hentered, -⟩ :=
        SlotSnapshot.commitEndpointInvocation_eq_true.mp hcommitted
      obtain ⟨hstate, -⟩ := of_changed (EndpointOperation.commitInvocation_eq_ok.mp hentered)
      exact ⟨snapshot, hopened, haddressed, hguard, ⟨operation, hlookup, hstate⟩, hrevision⟩
  · rintro ⟨snapshot, hopened, haddressed, hguard, ⟨operation, hlookup, hstate⟩, hrevision⟩
    have hcommitted := SlotSnapshot.commitEndpointInvocation_eq_true.mpr ⟨operation, _, hlookup,
      EndpointOperation.commitInvocation_eq_ok.mpr (.inl ⟨rfl, hstate, rfl⟩), rfl⟩
    have hperform : self.perform
        (.onSlot sessionId slot guard (.commitEndpointInvocation operationId)) = .ok (true, _) :=
      slotMut_eq_ok.mpr ⟨snapshot, _, requireSlot_eq_ok.mpr ⟨hopened, haddressed, hguard⟩,
        hcommitted, rfl⟩
    exact ⟨_, hvalid.commit_eq trivial (fun _ _ => trivial) hperform hrevision⟩

variable {history : Nat → List SlotEvent} {slot after : SlotSnapshot}

theorem HasHistories.endpointInvariant
    (hhistories : self.HasHistories history) (hvalid : self.Valid)
    (hslot : slot ∈ self.slots) :
    slot.EndpointInvariant := by
  have hsession := hvalid.sessionPresent (List.ne_nil_of_mem hslot)
  obtain ⟨session, hsession⟩ := Option.ne_none_iff_exists'.mp hsession
  exact (hhistories session hsession slot hslot).endpointInvariant

variable {before : SlotSnapshot}

theorem mem_of_received {slots : List SlotSnapshot} (hsorted : SortedBy SlotSnapshot.ordinal slots)
    (hpresent : slot ∈ slots) (hoffer : after.offer = slot.offer) (hbefore : before ∈ slots) :
    before ∈ replace SlotSnapshot.ordinal after slots ∨
      before = slot ∧ after ∈ replace SlotSnapshot.ordinal after slots := by
  have hafter : slot.ordinal = after.ordinal := by
    simp only [SlotSnapshot.ordinal, SlotSnapshot.slot, hoffer]
  by_cases hkey : before.ordinal = after.ordinal
  · refine Or.inr ⟨?_, mem_replace.mpr (Or.inr ⟨rfl, slot, hpresent, hafter⟩)⟩
    exact eq_of_mem_of_key_eq hsorted.nodup hbefore hpresent (hkey.trans hafter.symm)
  · exact Or.inl (mem_replace.mpr (Or.inl ⟨hbefore, hkey⟩))

theorem EndpointsLinearized.of_kept (hinvariant : ∀ slot ∈ self.slots, slot.EndpointInvariant)
    (hkept : ∀ before ∈ self.slots, before ∈ (self.step mutation).slots)
    (hstarted :
      ∀ after ∈ (self.step mutation).slots, after ∈ self.slots ∨ after.endpointOperations = []) :
    self.EndpointsLinearized mutation := by
  constructor
  · intro before hbefore
    exact Or.inl ⟨before, hkept before hbefore, rfl, .refl (hinvariant before hbefore)⟩
  · intro after hafter
    rcases hstarted after hafter with hold | hempty
    · exact Or.inl ⟨after, hold, rfl⟩
    · exact Or.inr hempty

theorem EndpointsLinearized.of_received (hvalid : self.Valid)
    (hinvariant : ∀ slot ∈ self.slots, slot.EndpointInvariant)
    (hpresent : slot ∈ self.slots) (hoffer : after.offer = slot.offer)
    (hreceived : slot.EndpointStep after)
    (hslots : (self.step mutation).slots = replace SlotSnapshot.ordinal after self.slots) :
    self.EndpointsLinearized mutation := by
  have hslot : after.slot = slot.slot := by simp only [SlotSnapshot.slot, hoffer]
  constructor
  · intro before hbefore
    left
    rw [hslots]
    rcases mem_of_received hvalid.slotsSorted hpresent hoffer hbefore with hkept | ⟨rfl, hnew⟩
    · exact ⟨before, hkept, rfl, .refl (hinvariant before hbefore)⟩
    · exact ⟨after, hnew, hslot, hreceived⟩
  · intro later hlater
    left
    rw [hslots] at hlater
    rcases mem_replace.mp hlater with ⟨hold, -⟩ | ⟨rfl, -⟩
    · exact ⟨later, hold, rfl⟩
    · exact ⟨slot, hpresent, hslot.symm⟩

theorem EndpointsLinearized.of_released {released : RunnerSlotOrdinal}
    (hinvariant : ∀ slot ∈ self.slots, slot.EndpointInvariant)
    (hrequested : Releases released mutation)
    (hslots : (self.step mutation).slots = remove SlotSnapshot.ordinal released.get self.slots) :
    self.EndpointsLinearized mutation := by
  constructor
  · intro before hbefore
    rw [hslots]
    by_cases hsame : before.slot = released
    · right
      rw [hsame]
      refine ⟨hrequested, ?_⟩
      intro after hafter
      have hother := (mem_remove.mp hafter).2
      rwa [ne_eq, ordinal_eq_iff] at hother
    · left
      refine ⟨before, mem_remove.mpr ⟨hbefore, ?_⟩, rfl, .refl (hinvariant before hbefore)⟩
      rwa [ne_eq, ordinal_eq_iff]
  · intro after hafter
    rw [hslots] at hafter
    exact Or.inl ⟨after, (mem_remove.mp hafter).1, rfl⟩

theorem EndpointsLinearized.of_guarded
    (hvalid : self.Valid) (hhistories : self.HasHistories history)
    (hguarded : ¬self.CommitsOrphaned mutation) :
    self.EndpointsLinearized mutation := by
  have hinvariant : ∀ slot ∈ self.slots, slot.EndpointInvariant :=
    fun slot hslot => hhistories.endpointInvariant hvalid hslot
  rcases self.step_cases mutation with hsame | ⟨candidate, hperform, hstep, -, hcommit⟩
  · apply EndpointsLinearized.of_kept hinvariant
    · intro before hbefore
      rwa [hsame]
    · intro after hafter
      rw [hsame] at hafter
      exact Or.inl hafter
  have hslots : (self.step mutation).slots = candidate.slots := by
    rw [hstep]
  cases SlotsChange.perform hperform with
  | kept same =>
    rw [same] at hslots
    apply EndpointsLinearized.of_kept hinvariant
    · intro before hbefore
      rwa [hslots]
    · intro after hafter
      rw [hslots] at hafter
      exact Or.inl hafter
  | offered offer vacant inserted =>
    rw [inserted] at hslots
    apply EndpointsLinearized.of_kept hinvariant
    · intro before hbefore
      rw [hslots]
      exact mem_insert.mpr (Or.inr hbefore)
    · intro after hafter
      rw [hslots] at hafter
      rcases mem_insert.mp hafter with rfl | hold
      · exact Or.inr rfl
      · exact Or.inl hold
  | received session slot after event opened present addressed accepted requested written =>
      rw [written] at hslots
      refine .of_received hvalid hinvariant present (SlotSnapshot.receive_offer accepted) ?_ hslots
      apply SlotSnapshot.EndpointStep.of_receive (hinvariant slot present) accepted
      intro operationId hevent
      rw [hevent] at requested
      obtain ⟨sessionId, guard, hmutation⟩ := onSlot_of_requestedEvent requested
      have hat : self.slotAt slot.slot = some slot :=
        (lookup_eq_some_iff hvalid.slotsSorted.nodup).mpr ⟨present, rfl⟩
      rw [hmutation] at hcommit
      obtain ⟨found, hinvocable⟩ := hvalid.commit_invocation_iff.mp ⟨_, hcommit⟩
      obtain rfl : slot = found := Option.some.inj (hat.symm.trans hinvocable.addressed)
      by_contra horphan
      exact hguarded ⟨sessionId, _, guard, operationId, slot, hmutation, horphan, hinvocable⟩
  | released released requested removed =>
    rw [removed] at hslots
    exact .of_released hinvariant requested hslots

theorem CommitsOrphaned.not_linearized
    (hvalid : self.Valid) (hhistories : self.HasHistories history)
    (hcommits : self.CommitsOrphaned mutation) :
    ¬self.EndpointsLinearized mutation := by
  intro hlinearized
  obtain ⟨sessionId, slot, guard, operationId, snapshot, rfl, horphan, hinvocable⟩ := hcommits
  have hat := hinvocable.addressed
  obtain ⟨next, hcommit⟩ := hvalid.commit_invocation_iff.mpr ⟨snapshot, hinvocable⟩
  obtain ⟨candidate, hperform, hslots⟩ := commit_eq_true hcommit
  obtain ⟨found, committed, hfound, hcommitted, rfl⟩ := slotMut_eq_ok.mp hperform
  have hsame : found = snapshot := by
    have hboth := (requireSlot_eq_ok.mp hfound).2.1
    rw [hat, Option.some.injEq] at hboth
    exact hboth.symm
  subst hsame
  have hreceive : found.receive (.mutated (.commitEndpointInvocation operationId)) =
        .ok (true, committed) := hcommitted
  have hslot : committed.slot = found.slot := by
    simp only [SlotSnapshot.slot, SlotSnapshot.receive_offer hreceive]
  have hwindow := (hhistories.endpointInvariant hvalid (slotAt_mem hat)).window
  rcases hlinearized.continued found (slotAt_mem hat) with
    ⟨after, hafter, hafterSlot, hstep⟩ | ⟨hrelease, -⟩
  · rw [hslots] at hafter
    rcases mem_replace.mp hafter with ⟨-, hother⟩ | ⟨rfl, -⟩
    · apply hother
      simp only [SlotSnapshot.ordinal, hafterSlot, hslot]
    · obtain ⟨operation, entered, hlookup, hentered, hwritten⟩ :=
        SlotSnapshot.commitEndpointInvocation_eq_true.mp hcommitted
      obtain ⟨hmem, -⟩ := lookup_mem hlookup
      obtain ⟨hstate, rfl⟩ := of_changed (EndpointOperation.commitInvocation_eq_ok.mp hentered)
      have hnew := hstep.closed (Or.inr horphan) { operation with state := .invocationCommitted }
        (by
          rw [hwritten]
          exact mem_replace.mpr (Or.inr ⟨rfl, operation, hmem, rfl⟩))
        (Or.inr rfl)
      have hclash := eq_of_mem_of_key_eq hwindow.distinct hnew hmem rfl
      rw [← hclash] at hstate
      simp at hstate
  · exact hrelease

def Along (property : StoredJournal → JournalMutation → Prop)
    (self : StoredJournal) (mutations : List JournalMutation) : Prop :=
  ∀ earlier mutation later, mutations = earlier ++ mutation :: later →
    property (self.run earlier) mutation

theorem cancellation_of_recordCancellation {sessionId : RunnerSessionId} {slot : RunnerSlotOrdinal}
    {guard : LeaseGuard} {cancellation : CancellationRecord} {next : StoredJournal}
    (hsorted : SortedBy SlotSnapshot.ordinal self.slots)
    (hcancel : self.recordCancellation sessionId slot guard cancellation = .ok (true, next)) :
    ∃ after, next.slotAt slot = some after ∧ after.cancellation = some cancellation := by
  obtain ⟨snapshot, committed, cancelled, hslot, -, -, -, hcommit,
    happlied, rfl⟩ := recordCancellation_eq_true.mp hcancel
  obtain ⟨-, hat, -⟩ := requireSlot_eq_ok.mp hslot
  have hslots := commitCommand_slots hcommit
  obtain ⟨-, rfl⟩ := SlotSnapshot.applyCancellation_eq_ok.mp happlied
  have hkept : committed.slotAt slot = some snapshot := by rwa [slotAt, hslots]
  refine ⟨_, slotAt_withSlot ?_ hkept rfl, rfl⟩
  rwa [hslots]

/-- Committing a cancellation, on its own or with a poll, or an orphan grant marks the slot as
closed. -/
structure ClosureRecorded (journal : StoredJournal) : Prop where
  cancelled :
    ∀ sessionId slot guard cancellation next,
      journal.recordCancellation sessionId slot guard cancellation = .ok (true, next) →
        ∃ after, next.slotAt slot = some after ∧ after.cancellation = some cancellation
  polled :
    ∀ sessionId completion slot guard cancellation changed next,
      completion.command = .cancellation slot guard cancellation →
      journal.completeLeasePoll sessionId completion = .ok (changed, next) →
      next.commandState ≠ journal.commandState →
        ∃ after, next.slotAt slot = some after ∧ after.cancellation = some cancellation
  orphaned :
    ∀ grant next, journal.authorizeOrphan grant = .ok (true, next) →
      ∃ after, next.slotAt grant.claim.slot = some after ∧ after.orphan ≠ none

theorem ClosureRecorded.of_sorted (hsorted : SortedBy SlotSnapshot.ordinal self.slots) :
    self.ClosureRecorded := by
  constructor
  · intro sessionId slot guard cancellation next hcancel
    exact cancellation_of_recordCancellation hsorted hcancel
  · intro sessionId completion slot guard cancellation changed next hcommand hpoll hmoved
    obtain ⟨_, fresh, advanced, hadvance, happlied, -⟩ := completeLeasePoll_eq_ok.mp hpoll
    rw [hcommand] at happlied
    cases fresh with
    | false =>
      -- Nothing was committed, and the poll itself does not move the cursor.
      rw [applyPollCommand_eq_false happlied] at hmoved
      exact absurd (advanceLeasePoll_commandState hadvance) hmoved
    | true =>
      refine cancellation_of_recordCancellation ?_ happlied
      rwa [(advanceLeasePoll_slots hadvance).1]
  · intro grant next hauthorize
    obtain ⟨snapshot, after, hslot, -, hafter, rfl⟩ := authorizeOrphan_eq_true.mp hauthorize
    obtain ⟨-, hat, -⟩ := requireSlot_eq_ok.mp hslot
    obtain ⟨-, rfl⟩ := SlotSnapshot.authorizeOrphan_eq_true.mp hafter
    exact ⟨_, slotAt_withSlot hsorted hat rfl, by simp⟩

/-- Endpoint operations are linearized along a run exactly if no step of it
invokes an accepted operation in an orphaned slot. -/
theorem endpoints_linearized_iff (runnerId : RunnerId) (mutations : List JournalMutation) :
    ((new runnerId).Along EndpointsLinearized mutations ↔ (new runnerId).Along
        (fun journal mutation => ¬journal.CommitsOrphaned mutation)
        mutations) ∧
    (new runnerId).Along (fun journal _ => journal.ClosureRecorded) mutations := by
  have hvalid : ∀ earlier, ((new runnerId).run earlier).Valid := fun earlier => validate_eq_ok.mp
      (validate_run (validate_new runnerId) earlier)
  have hhistories := hasHistories_run_new runnerId
  refine ⟨⟨?_, ?_⟩, ?_⟩
  · intro hlinearized earlier mutation later hsplit hcommits
    exact hcommits.not_linearized (hvalid earlier) (hhistories earlier)
      (hlinearized earlier mutation later hsplit)
  · intro hguarded earlier mutation later hsplit
    exact .of_guarded (hvalid earlier) (hhistories earlier) (hguarded earlier mutation later hsplit)
  · intro earlier mutation later _
    exact .of_sorted (hvalid earlier).slotsSorted

end StoredJournal

namespace Sample

def endpointRequest : DurableContentRef where
  kind := .endpointRequest
  identity := .publicContent endpointRequestCommitmentBytes ⟨0⟩
  protectionId := LogDeliveryRun.sampleContent.protectionId
  coherent := by decide

def endpointOperation : EndpointOperation :=
  ⟨operation 7, .exec, ⟨endpointRequest⟩, 1, .accepted⟩

def grant : OrphanAuthorityGrant where
  claim := ⟨runner, session, offer.slot, offer.lease.guard⟩
  authorityOperationId := operation 8
  evidenceDigest := ⟨0⟩
  permissions := ⟨false, false, false⟩

/-- The offer is accepted, an endpoint operation is accepted, and the slot is
orphaned before the operation is invoked. -/
def orphanedAcceptance : List JournalMutation :=
  acceptedJob ++
    [onSlot (.acceptEndpointOperation endpointOperation), .authorizeOrphan grant]

def lateInvocation : JournalMutation :=
  onSlot (.commitEndpointInvocation endpointOperation.operationId)

end Sample

/-- The invocation is committed although the slot was orphaned. -/
theorem StoredJournal.orphaned_invocation_committed :
    let before := (StoredJournal.new Sample.runner).run Sample.orphanedAcceptance
    let phases := fun journal : StoredJournal =>
      (journal.slotAt Sample.offer.slot).map fun slot =>
        (slot.orphan.isSome, slot.endpointOperations.map EndpointOperation.state)
    phases before = some (true, [.accepted]) ∧ phases (before.step Sample.lateInvocation) =
        some (true, [.invocationCommitted]) ∧
      ¬before.EndpointsLinearized Sample.lateInvocation := by
  intro before phases
  have hvalid : before.Valid := validate_eq_ok.mp (validate_run (validate_new Sample.runner)
      Sample.orphanedAcceptance)
  have hcommitted : (before.commit Sample.lateInvocation).map Prod.fst = .ok true := by
    decide +kernel
  have horphaned :
      (before.slotAt Sample.offer.slot).any (fun slot => slot.orphan.isSome) = true := by
    decide +kernel
  refine ⟨by decide +kernel, by decide +kernel, ?_⟩
  obtain ⟨⟨changed, next⟩, hcommit, rfl⟩ := map_eq_ok.mp hcommitted
  obtain ⟨snapshot, hinvocable⟩ := hvalid.commit_invocation_iff.mp ⟨next, hcommit⟩
  obtain ⟨found, hat, horphan⟩ := (Option.any_eq_true _ _).mp horphaned
  obtain rfl : found = snapshot := Option.some.inj (hat.symm.trans hinvocable.addressed)
  exact CommitsOrphaned.not_linearized hvalid
    (hasHistories_run_new Sample.runner Sample.orphanedAcceptance)
    ⟨_, _, _, _, found, rfl, Option.isSome_iff_ne_none.mp horphan, hinvocable⟩

end AutomataCi
