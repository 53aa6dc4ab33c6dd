import AutomataCi.SlotReleases

/-!
# The records of a slot

What the journal has recorded about a slot is not taken back.  Along any run, and until the slot
is released, a record is only acknowledged or extended and the lifecycle only moves on.
-/

namespace AutomataCi

open GuardedResult KeyedList

/-- The record itself, or the record with its acknowledgement. -/
def Acknowledged {α : Type} (acknowledge : α → α) (record later : α) : Prop :=
  later = record ∨ later = acknowledge record

def Kept {α : Type} (grows : α → α → Prop) (before after : Option α) : Prop :=
  ∀ record ∈ before, ∃ later ∈ after, grows record later

/-- More deliveries may be abandoned, under the same grant. -/
def OrphanRecord.Extends (record later : OrphanRecord) : Prop :=
  later = { record with abandonments := later.abandonments } ∧
    ∀ delivery, Kept Eq (record.abandonments.get delivery) (later.abandonments.get delivery)

/-- An edge of the lifecycle graph, or the loss of an orphaned job, which need not be one. -/
def JobLifecycle.Moves (orphan : Option OrphanRecord) (lifecycle next : JobLifecycle) : Prop :=
  lifecycle.hasEdge next = true ∨ orphan ≠ none ∧ lifecycle.isTerminal = false ∧ next = .lost

namespace SlotSnapshot

structure Continues (slot later : SlotSnapshot) : Prop where
  offer : later.offer = slot.offer
  decision : slot.offerStatus ≠ .recorded → later.offerStatus = slot.offerStatus
  authority : Kept (Acknowledged fun delivery => { delivery with acknowledged := true })
    slot.runtimeAuthorityDelivery later.runtimeAuthorityDelivery
  rejection : Kept (Acknowledged LeaseRejectionRecord.acknowledgeResponse)
    slot.rejection later.rejection
  result : Kept (Acknowledged TerminalResultRecord.acknowledge)
    slot.terminalResult later.terminalResult
  orphan : Kept OrphanRecord.Extends slot.orphan later.orphan
  cancellation : slot.cancellation ≠ none → later.cancellation ≠ none
  lifecycle :
    Relation.ReflTransGen (JobLifecycle.Moves later.orphan) slot.lifecycle later.lifecycle

end SlotSnapshot

section Kept

variable {α : Type} {grows : α → α → Prop} {before between after : Option α}

theorem Kept.of_eq (hsame : after = before) (hrefl : ∀ record, grows record record) :
    Kept grows before after := by
  intro record hrecord
  rw [hsame]
  exact ⟨record, hrecord, hrefl record⟩

theorem Kept.trans (htrans : ∀ {first second third}, grows first second → grows second third →
      grows first third) (hfirst : Kept grows before between) (hsecond : Kept grows between after) :
    Kept grows before after := by
  intro record hrecord
  obtain ⟨middle, hmiddle, hgrows⟩ := hfirst record hrecord
  obtain ⟨later, hlater, hmore⟩ := hsecond middle hmiddle
  exact ⟨later, hlater, htrans hgrows hmore⟩

theorem Kept.ne_none (hkept : Kept grows before after) (hbefore : before ≠ none) :
    after ≠ none := by
  obtain ⟨record, hrecord⟩ := Option.ne_none_iff_exists'.mp hbefore
  obtain ⟨later, hlater, -⟩ := hkept record hrecord
  exact Option.ne_none_iff_exists'.mpr ⟨later, hlater⟩

theorem Acknowledged.trans {acknowledge : α → α} {first second third : α}
    (hidem : acknowledge (acknowledge first) = acknowledge first)
    (hfirst : Acknowledged acknowledge first second)
    (hsecond : Acknowledged acknowledge second third) : Acknowledged acknowledge first third := by
  rcases hfirst with rfl | rfl
  · exact hsecond
  · rw [Acknowledged, hidem, or_self] at hsecond
    exact .inr hsecond

end Kept

theorem OrphanRecord.Extends.refl (record : OrphanRecord) : record.Extends record :=
  ⟨rfl, fun _ => .of_eq rfl Eq.refl⟩

theorem OrphanRecord.Extends.trans {first second third : OrphanRecord}
    (hfirst : first.Extends second) (hsecond : second.Extends third) : first.Extends third := by
  refine ⟨?_, fun delivery => (hfirst.2 delivery).trans Eq.trans (hsecond.2 delivery)⟩
  rw [hsecond.1, hfirst.1]

theorem OrphanRecord.extends_of_abandon {record next : OrphanRecord} {operationId : OperationId}
    {delivery : OrphanDelivery} {reason : OrphanAbandonmentReason}
    (habandon : record.abandon operationId delivery reason = .ok (true, next)) :
    record.Extends next := by
  obtain ⟨hnone, rfl⟩ := of_changed (abandon_eq_ok.mp habandon).2
  refine ⟨rfl, fun other => ?_⟩
  rw [OrphanAbandonments.get_set]
  by_cases hsame : other = delivery
  · simp [Kept, hsame, hnone]
  · rw [if_neg hsame]
    exact .of_eq rfl Eq.refl

namespace SlotSnapshot

variable {slot next later : SlotSnapshot} {operationId : OperationId} {event : SlotEvent}
  {update : EndpointOperation → Except JournalInvariantError (Bool × EndpointOperation)}

theorem Continues.trans (hfirst : slot.Continues next) (hsecond : next.Continues later) :
    slot.Continues later where
  offer := hsecond.offer.trans hfirst.offer
  decision := by
    intro hdecided
    have hsame := hfirst.decision hdecided
    rw [hsecond.decision (by rwa [hsame]), hsame]
  authority := hfirst.authority.trans (.trans rfl) hsecond.authority
  rejection := hfirst.rejection.trans (.trans rfl) hsecond.rejection
  result := hfirst.result.trans (.trans rfl) hsecond.result
  orphan := hfirst.orphan.trans OrphanRecord.Extends.trans hsecond.orphan
  cancellation := hsecond.cancellation ∘ hfirst.cancellation
  lifecycle := by
    refine (Relation.ReflTransGen.mono ?_ _ _ hfirst.lifecycle).trans hsecond.lifecycle
    rintro before after (hedge | ⟨horphan, hlost⟩)
    · exact .inl hedge
    · exact .inr ⟨hsecond.orphan.ne_none horphan, hlost⟩

theorem Continues.of_agrees (hagrees : ∀ component ∉ [SlotComponent.provider, .endpoints, .log],
      slot.Agrees next component) : slot.Continues next where
  offer := hagrees .offer (by decide)
  decision := fun _ => hagrees .offerStatus (by decide)
  authority := .of_eq (hagrees .authority (by decide)) fun _ => .inl rfl
  rejection := .of_eq (hagrees .rejection (by decide)) fun _ => .inl rfl
  result := .of_eq (hagrees .terminalResult (by decide)) fun _ => .inl rfl
  orphan := .of_eq (hagrees .orphan (by decide)) OrphanRecord.Extends.refl
  cancellation := by
    have hsame : next.cancellation = slot.cancellation := hagrees .cancellation (by decide)
    rw [hsame]
    exact id
  lifecycle := by
    have hsame : next.lifecycle = slot.lifecycle := hagrees .lifecycle (by decide)
    rw [hsame]

theorem Continues.refl (slot : SlotSnapshot) : slot.Continues slot := by
  refine .of_agrees fun component hother => ?_
  cases component <;> first | rfl | exact absurd hother (by decide)

theorem Continues.final (hcontinues : slot.Continues next)
    (hterminal : slot.lifecycle.isTerminal = true) : next.lifecycle = slot.lifecycle := by
  rcases hcontinues.lifecycle.cases_head with hsame | ⟨moved, hedge | ⟨-, hopen, -⟩, -⟩
  · exact hsame.symm
  · rw [JobLifecycle.not_hasEdge_of_isTerminal hterminal] at hedge
    contradiction
  · rw [hterminal] at hopen
    contradiction

theorem EndpointUpdate.terminalized_continues
    (hupdate : slot.EndpointUpdate operationId update next) :
    slot.Continues next.terminalizeOrphanAfterEndpointResolution := by
  obtain ⟨-, after, -, -, rfl⟩ := hupdate
  unfold terminalizeOrphanAfterEndpointResolution
  split
  next hlost =>
    have horphan := Option.isSome_iff_ne_none.mp hlost.1
    exact { Continues.refl slot with lifecycle := .single (.inr ⟨horphan, hlost.2.1, rfl⟩) }
  next => exact { Continues.refl slot with }

/-- What the journal has recorded about a slot is only acknowledged or extended by an event. -/
theorem receive_continues (hconsistent : slot.rejectionConsistent = true)
    (hreceive : slot.receive event = .ok (true, next)) : slot.Continues next := by
  cases event with
  | cancelled =>
    simp only [receive, bind_eq_ok, pure_eq_ok, Prod.mk.injEq, true_and] at hreceive
    obtain ⟨after, hafter, rfl⟩ := hreceive
    obtain ⟨hcancelling, rfl⟩ := applyCancellation_eq_ok.mp hafter
    refine { Continues.refl slot with cancellation := by simp, lifecycle := ?_ }
    rcases hcancelling with hsame | hedge
    · rw [hsame]
    · exact .single (.inl hedge)
  | orphaned =>
    obtain ⟨hnone, rfl⟩ := authorizeOrphan_eq_true.mp hreceive
    refine { Continues.refl slot with orphan := by simp [Kept, hnone], lifecycle := ?_ }
    simp only
    split
    next hlost => exact .single (.inr ⟨Option.some_ne_none _, hlost.1, rfl⟩)
    next => exact .refl
  | mutated mutation =>
    cases mutation
    case acceptOffer =>
      obtain ⟨-, hrecorded, rfl⟩ := acceptOffer_eq_true.mp hreceive
      exact { Continues.refl slot with decision := absurd hrecorded }
    case rejectOffer =>
      obtain ⟨-, hrecorded, -, rfl⟩ := rejectOffer_eq_true.mp hreceive
      have hnone : slot.rejection = none := by
        rw [rejectionConsistent, hrecorded] at hconsistent
        cases hrejection : slot.rejection <;> simp_all
      exact { Continues.refl slot with
        decision := absurd hrecorded
        rejection := by simp [Kept, hnone] }
    case recordRuntimeAuthorityDelivery =>
      obtain ⟨-, -, -, hnone, rfl⟩ := recordRuntimeAuthorityDelivery_eq_true.mp hreceive
      exact { Continues.refl slot with authority := by simp [Kept, hnone] }
    case acknowledgeRuntimeAuthorityDelivery =>
      obtain ⟨delivery, hdelivery, -, -, -, -, rfl⟩ :=
        acknowledgeRuntimeAuthorityDelivery_eq_true.mp hreceive
      exact { Continues.refl slot with authority := by simp [Kept, hdelivery, Acknowledged] }
    case acknowledgeOfferRejection =>
      obtain ⟨-, rejection, hrejection, -, -, rfl⟩ := acknowledgeOfferRejection_eq_true.mp hreceive
      exact { Continues.refl slot with rejection := by simp [Kept, hrejection, Acknowledged] }
    case transitionLifecycle =>
      obtain ⟨-, -, -, -, -, hedge, rfl⟩ := transitionLifecycle_eq_true.mp hreceive
      exact { Continues.refl slot with lifecycle := .single (.inl hedge) }
    case recordTerminalResult =>
      obtain ⟨-, -, -, -, -, -, hnone, -, hedge, rfl⟩ := recordTerminalResult_eq_true.mp hreceive
      exact { Continues.refl slot with
        result := by simp [Kept, hnone]
        lifecycle := .single (.inl hedge) }
    case acknowledgeTerminalResult =>
      obtain ⟨result, hresult, -, -, rfl⟩ := acknowledgeTerminalResult_eq_true.mp hreceive
      exact { Continues.refl slot with result := by simp [Kept, hresult, Acknowledged] }
    case recordEndpointCancellation =>
      obtain ⟨updated, hupdate, rfl⟩ := recordEndpointCancellation_eq_true.mp hreceive
      exact hupdate.terminalized_continues
    case completeEndpointCancellation =>
      obtain ⟨-, updated, hupdate, rfl⟩ := completeEndpointCancellation_eq_true.mp hreceive
      exact hupdate.terminalized_continues
    case abandonEndpointOperation =>
      obtain ⟨-, updated, hupdate, rfl⟩ := abandonEndpointOperation_eq_true.mp hreceive
      exact hupdate.terminalized_continues
    case abandonOrphanDelivery =>
      obtain ⟨-, orphan, after, horphan, habandon, rfl⟩ :=
        abandonOrphanDelivery_eq_true.mp hreceive
      exact { Continues.refl slot with
        orphan := by simpa [Kept, horphan] using OrphanRecord.extends_of_abandon habandon
        lifecycle := .refl }
    -- The other mutations write none of these records.
    all_goals
      refine .of_agrees fun component hother => receive_agrees hreceive ?_
      simp_all [SlotEvent.touches]

end SlotSnapshot

namespace StoredJournal

variable {self : StoredJournal} {mutation : JournalMutation} {slots : List SlotSnapshot}
  {slot : SlotSnapshot}

theorem SlotsChange.continues (hvalid : self.Valid) (hchange : SlotsChange self mutation slots)
    (hslot : slot ∈ self.slots) (hkept : ¬Releases slot.slot mutation) :
    ∃ later ∈ slots, slot.Continues later := by
  cases hchange with
  | kept same =>
    rw [same]
    exact ⟨slot, hslot, .refl slot⟩
  | offered offer vacant inserted =>
    rw [inserted]
    exact ⟨slot, mem_insert.mpr (.inr hslot), .refl slot⟩
  | received session received after event opened present addressed accepted requested written =>
    rw [written]
    have hcontinues := SlotSnapshot.receive_continues
      (hvalid.slots session opened received present).snapshot.rejection accepted
    by_cases hsame : slot.ordinal = after.ordinal
    · have hordinal : received.ordinal = after.ordinal := by
        simp only [SlotSnapshot.ordinal, SlotSnapshot.slot, hcontinues.offer]
      obtain rfl : slot = received := eq_of_mem_of_key_eq hvalid.slotsSorted.nodup hslot present
        (hsame.trans hordinal.symm)
      exact ⟨after, mem_replace.mpr (.inr ⟨rfl, slot, hslot, hsame⟩), hcontinues⟩
    · exact ⟨slot, mem_replace.mpr (.inl ⟨hslot, hsame⟩), .refl slot⟩
  | released released requested removed =>
    rw [removed]
    refine ⟨slot, mem_remove.mpr ⟨hslot, ?_⟩, .refl slot⟩
    intro hsame
    apply hkept
    rwa [ordinal_eq_iff.mp hsame]

/-- A slot which no mutation of a run releases is there at its end, with all that was recorded
about it at most acknowledged or extended.  A terminal lifecycle is final. -/
theorem slot_records_kept {mutations : List JournalMutation} (hvalid : self.validate = .ok ())
    (hslot : slot ∈ self.slots) (hkept : ∀ mutation ∈ mutations, ¬Releases slot.slot mutation) :
    ∃ later ∈ (self.run mutations).slots, slot.Continues later ∧
      (slot.lifecycle.isTerminal = true → later.lifecycle = slot.lifecycle) := by
  induction mutations generalizing self slot with
  | nil => exact ⟨slot, hslot, .refl slot, fun _ => rfl⟩
  | cons mutation rest ih =>
    rw [List.forall_mem_cons] at hkept
    obtain ⟨next, hnext, hcontinues⟩ :=
      (SlotsChange.step self mutation).continues (validate_eq_ok.mp hvalid) hslot hkept.1
    have hslotSame : next.slot = slot.slot := by
      simp only [SlotSnapshot.slot, hcontinues.offer]
    rw [← hslotSame] at hkept
    obtain ⟨later, hlater, hmore, -⟩ := ih (validate_step hvalid mutation) hnext hkept.2
    have hwhole := hcontinues.trans hmore
    exact ⟨later, hlater, hwhole, hwhole.final⟩

end StoredJournal

namespace Sample

/-- A job which failed before it was started, and whose slot was orphaned before the result was
delivered. -/
def orphanedResult : StoredJournal :=
  (StoredJournal.new runner).run
    (acceptedJob ++ [onSlot (.recordRuntimeAuthorityDelivery authority),
      onSlot (.recordTerminalResult .failed result ⟨0⟩), .authorizeOrphan sessionGrant])

def lateDeliveries : List JournalMutation :=
  [onSlot (.acknowledgeRuntimeAuthorityDelivery ⟨1⟩ ⟨0⟩ (operation 3)),
    onSlot (.recordTerminalResult .succeeded result ⟨0⟩),
    onSlot (.acknowledgeTerminalResult result.operationId),
    onSlot (.abandonOrphanDelivery (operation 40) .terminalResult .sessionInvalidated)]

/-- What is recorded, and whether it is acknowledged or abandoned. -/
def recorded (journal : StoredJournal) : List (List (Option Bool)) :=
  journal.slots.map fun slot =>
    [slot.runtimeAuthorityDelivery.map fun delivery => delivery.acknowledged,
      slot.terminalResult.map fun result => result.acknowledged,
      slot.orphan.map fun orphan => orphan.isAbandoned .terminalResult]

end Sample

theorem StoredJournal.slot_records_kept_orphaned :
    Sample.recorded Sample.orphanedResult = [[some false, some false, some false]] ∧
      Sample.recorded (Sample.orphanedResult.run Sample.lateDeliveries) =
        [[some true, some true, some true]] ∧
      ∃ slot ∈ Sample.orphanedResult.slots,
        ∃ later ∈ (Sample.orphanedResult.run Sample.lateDeliveries).slots,
          slot.Continues later ∧ later.lifecycle = slot.lifecycle := by
  have hfailed : (Sample.orphanedResult.slotAt Sample.offer.slot).any
      (fun slot => slot.lifecycle.isTerminal) = true := by
    decide +kernel
  obtain ⟨slot, hslot, hterminal⟩ := (Option.any_eq_true _ _).mp hfailed
  have hkept : ∀ mutation ∈ Sample.lateDeliveries, ¬Releases slot.slot mutation := by
    simp [Sample.lateDeliveries, Sample.onSlot, Releases]
  obtain ⟨later, hlater, hcontinues, hfinal⟩ := StoredJournal.slot_records_kept
    (validate_run (validate_new _) _) (slotAt_mem hslot) hkept
  exact ⟨by decide +kernel, by decide +kernel, slot, slotAt_mem hslot, later, hlater, hcontinues,
    hfinal hterminal⟩

end AutomataCi
