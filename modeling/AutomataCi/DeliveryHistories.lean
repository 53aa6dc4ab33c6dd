import AutomataCi.SlotHistories

/-!
# Deliveries in the history of a slot

A snapshot keeps one record for each delivery: the log cursor, the rejected
offer, the terminal result and the orphan authority.  Here each record is tied
to the events of the slot, so that what the record says about a delivery is
what has happened to it.
-/

namespace AutomataCi

open GuardedResult FallibleState SlotSnapshot

def SlotEvent.extendLogHistory (history : Option LogDeliveryRun) : SlotEvent → Option LogDeliveryRun
  | .mutated (.openLogStream streamId) => some (.initial streamId)
  | .mutated (.recordLogSegment publication enqueuedAt) =>
    history.map (·.step (.recordSegment publication enqueuedAt))
  | .mutated (.sealLogSegment _ expectedContent) =>
    history.map (·.step (.sealSegment expectedContent))
  | .mutated (.acknowledgeLogSegment acknowledgement) =>
    history.map (·.step (.acknowledgeSegment acknowledgement))
  | _ => history

def logHistory (events : List SlotEvent) : Option LogDeliveryRun :=
  events.foldl SlotEvent.extendLogHistory none

@[simp] theorem logHistory_concat (events : List SlotEvent) (event : SlotEvent) :
    logHistory (events ++ [event]) = event.extendLogHistory (logHistory events) := by
  simp [logHistory]

variable {event : SlotEvent} {history : Option LogDeliveryRun}

theorem extendLogHistory_of_other (hother : SlotComponent.log ∉ event.touches)
    (history : Option LogDeliveryRun) : event.extendLogHistory history = history := by
  cases event with
  | cancelled | orphaned => rfl
  | mutated mutation =>
    cases mutation <;> first | rfl | simp [SlotEvent.touches] at hother

structure LogInvariant (history : Option LogDeliveryRun)
    (log : Option LogDeliveryCursor) : Prop where
  cursor : log = history.map LogDeliveryRun.cursor
  faithful : ∀ run ∈ history, run.Faithful

theorem LogInvariant.call {log after : LogDeliveryCursor} {call : CursorCall}
    (hinvariant : LogInvariant history (some log)) (hcall : call.Admissible log.streamId)
    (hperform : log.perform call = (.ok true, after)) :
    LogInvariant (history.map (·.step call)) (some after) := by
  obtain ⟨run, hrun, rfl⟩ := Option.map_eq_some_iff.mp hinvariant.cursor.symm
  subst hrun
  refine ⟨?_, ?_⟩
  · rw [Option.map_some, Option.map_some, LogDeliveryRun.step_cursor, hperform]
  · intro next hnext
    have hstep : run.step call = next := by simpa using hnext
    rw [← hstep]
    exact (hinvariant.faithful run rfl).step hcall

theorem LogInvariant.receive {slot next : SlotSnapshot}
    (hinvariant : LogInvariant history slot.logDelivery) (hbounded : event.Bounded)
    (hreceive : slot.receive event = .ok (true, next)) :
    LogInvariant (event.extendLogHistory history) next.logDelivery := by
  by_cases htouched : SlotComponent.log ∈ event.touches
  · cases event with
    | cancelled | orphaned => simp [SlotEvent.touches] at htouched
    | mutated mutation =>
      cases mutation with
      | openLogStream streamId =>
        obtain ⟨-, -, -, rfl⟩ := openLogStream_eq_true.mp hreceive
        refine ⟨rfl, ?_⟩
        intro run hrun
        rw [← Option.some.inj hrun]
        exact LogDeliveryRun.initial_faithful streamId
      | recordLogSegment =>
        obtain ⟨-, log, after, accepted, hlog, hstream, -, hrecord,
          rfl⟩ := recordLogSegment_eq_true.mp hreceive
        rw [hlog] at hinvariant
        exact hinvariant.call ⟨hstream.symm, hbounded⟩
          (LogDeliveryCursor.perform_recordSegment_of_exec hrecord)
      | sealLogSegment =>
        obtain ⟨log, after, hlog, -, hseal, rfl⟩ := sealLogSegment_eq_true.mp hreceive
        rw [hlog] at hinvariant
        exact hinvariant.call trivial hseal
      | acknowledgeLogSegment =>
        obtain ⟨log, after, hlog, hstream, hack, rfl⟩ := acknowledgeLogSegment_eq_true.mp hreceive
        rw [hlog] at hinvariant
        exact hinvariant.call hstream.symm hack
      | _ => simp [SlotEvent.touches] at htouched
  · have hsame : next.logDelivery = slot.logDelivery := receive_agrees hreceive htouched
    rw [extendLogHistory_of_other htouched, hsame]
    exact hinvariant

section Records

variable {events : List SlotEvent} {event : SlotEvent}
  {slot next : SlotSnapshot}

/-- An offer is accepted or rejected once, and the rejection record carries
the one rejection of the slot. -/
structure OfferHistory (events : List SlotEvent) (slot : SlotSnapshot) :
    Prop where
  accepted :
    .mutated .acceptOffer ∈ events → slot.offerStatus = .accepted
  status : slot.rejection ≠ none → slot.offerStatus = .rejected
  requested :
    ∀ reason operationId enqueuedAt,
      .mutated (.rejectOffer reason operationId enqueuedAt) ∈ events →
        ∃ record, slot.rejection = some record ∧ record.responseOperationId = operationId
  acknowledged :
    ∀ record ∈ slot.rejection, record.responseAcknowledged = true →
      .mutated (.acknowledgeOfferRejection record.responseOperationId) ∈ events

theorem offerHistory_fromOffer (offer : LeaseOfferRecord) : OfferHistory [] (.fromOffer offer) := by
  constructor <;> simp [fromOffer]

theorem OfferHistory.undecided (hhistory : OfferHistory events slot)
    (hrecorded : slot.offerStatus = .recorded) :
    .mutated .acceptOffer ∉ events ∧ slot.rejection = none ∧ ∀ reason operationId enqueuedAt,
        .mutated (.rejectOffer reason operationId enqueuedAt) ∉ events := by
  have hnone : slot.rejection = none := by
    by_contra hsome
    have hstatus := hhistory.status hsome
    rw [hrecorded] at hstatus
    contradiction
  refine ⟨?_, hnone, ?_⟩
  · intro hmem
    have hstatus := hhistory.accepted hmem
    rw [hrecorded] at hstatus
    contradiction
  · intro reason operationId enqueuedAt hmem
    obtain ⟨record, hrecord, -⟩ := hhistory.requested _ _ _ hmem
    rw [hnone] at hrecord
    contradiction

theorem OfferHistory.of_other (hhistory : OfferHistory events slot)
    (hreceive : slot.receive event = .ok (true, next))
    (hstatus : SlotComponent.offerStatus ∉ event.touches)
    (hrejection : SlotComponent.rejection ∉ event.touches) :
    OfferHistory (events ++ [event]) next := by
  have hsameStatus : next.offerStatus = slot.offerStatus := receive_agrees hreceive hstatus
  have hsameRecord : next.rejection = slot.rejection := receive_agrees hreceive hrejection
  constructor
  · intro hmem
    rw [List.mem_append, List.mem_singleton] at hmem
    rcases hmem with hold | rfl
    · rw [hsameStatus]
      exact hhistory.accepted hold
    · simp [SlotEvent.touches] at hstatus
  · rw [hsameStatus, hsameRecord]
    exact hhistory.status
  · intro reason operationId enqueuedAt hmem
    rw [List.mem_append, List.mem_singleton] at hmem
    rcases hmem with hold | rfl
    · rw [hsameRecord]
      exact hhistory.requested reason operationId enqueuedAt hold
    · simp [SlotEvent.touches] at hrejection
  · intro record hrecord hacknowledged
    rw [hsameRecord] at hrecord
    exact List.mem_append_left _ (hhistory.acknowledged record hrecord hacknowledged)

theorem OfferHistory.acceptOffer (hhistory : OfferHistory events slot)
    (haccept : slot.acceptOffer = .ok (true, next)) :
    OfferHistory (events ++ [.mutated .acceptOffer]) next := by
  obtain ⟨-, hrecorded, rfl⟩ := acceptOffer_eq_true.mp haccept
  obtain ⟨-, hnone, hnever⟩ := hhistory.undecided hrecorded
  constructor
  · intro _
    rfl
  · intro hsome
    exact absurd hnone hsome
  · intro reason operationId enqueuedAt hmem
    exact absurd (by simpa using hmem) (hnever reason operationId enqueuedAt)
  · intro record hrecord
    simp only [hnone, Option.mem_def, reduceCtorEq] at hrecord

variable {operationId : OperationId} {enqueuedAt : UnixMillis}

theorem OfferHistory.rejectOffer {reason : LeaseRejectionReason}
    (hhistory : OfferHistory events slot)
    (hreject : slot.rejectOffer reason operationId enqueuedAt = .ok (true, next)) :
    OfferHistory (events ++ [.mutated (.rejectOffer reason operationId enqueuedAt)])
      next := by
  obtain ⟨-, hrecorded, -, rfl⟩ := rejectOffer_eq_true.mp hreject
  obtain ⟨hnever, -, hfirst⟩ := hhistory.undecided hrecorded
  constructor
  · intro hmem
    exact absurd (by simpa using hmem) hnever
  · intro _
    rfl
  · intro otherReason otherId otherAt hmem
    rw [List.mem_append, List.mem_singleton] at hmem
    rcases hmem with hold | hnew
    · exact absurd hold (hfirst otherReason otherId otherAt)
    · cases hnew
      exact ⟨_, rfl, rfl⟩
  · intro record hrecord hacknowledged
    rw [← Option.some.inj hrecord] at hacknowledged
    simp [LeaseRejectionRecord.new] at hacknowledged

theorem OfferHistory.acknowledgeOfferRejection (hhistory : OfferHistory events slot)
    (hack : slot.acknowledgeOfferRejection operationId = .ok (true, next)) :
    OfferHistory (events ++ [.mutated (.acknowledgeOfferRejection operationId)])
      next := by
  obtain ⟨hrejected, rejection, hrejection, hid, -, rfl⟩ :=
    acknowledgeOfferRejection_eq_true.mp hack
  constructor
  · intro hmem
    exact hhistory.accepted (by simpa using hmem)
  · intro _
    exact hrejected
  · intro reason responseId enqueuedAt hmem
    obtain ⟨record, hrecord, hsame⟩ :=
      hhistory.requested reason responseId enqueuedAt (by simpa using hmem)
    rw [hrejection, Option.some.injEq] at hrecord
    subst hrecord
    exact ⟨_, rfl, hsame⟩
  · intro record hrecord _
    rw [← Option.some.inj hrecord, ← hid]
    simp [LeaseRejectionRecord.acknowledgeResponse]

theorem OfferHistory.receive (hhistory : OfferHistory events slot)
    (hreceive : slot.receive event = .ok (true, next)) :
    OfferHistory (events ++ [event]) next := by
  by_cases hother : SlotComponent.offerStatus ∉ event.touches ∧
      SlotComponent.rejection ∉ event.touches
  · exact hhistory.of_other hreceive hother.1 hother.2
  · cases event with
    | cancelled | orphaned => simp [SlotEvent.touches] at hother
    | mutated mutation =>
      cases mutation with
      | acceptOffer => exact hhistory.acceptOffer hreceive
      | rejectOffer => exact hhistory.rejectOffer hreceive
      | acknowledgeOfferRejection => exact hhistory.acknowledgeOfferRejection hreceive
      | _ => simp [SlotEvent.touches] at hother

structure ResultHistory (events : List SlotEvent)
    (result : Option TerminalResultRecord) : Prop where
  requested :
    ∀ terminal recorded enqueuedAt, .mutated (.recordTerminalResult terminal recorded enqueuedAt) ∈
          events → result ≠ none
  recorded :
    ∀ record ∈ result, ∃ terminal recorded enqueuedAt,
      .mutated (.recordTerminalResult terminal recorded enqueuedAt) ∈ events ∧
        recorded.operationId = record.operationId
  acknowledged :
    ∀ record ∈ result, record.acknowledged = true →
      .mutated (.acknowledgeTerminalResult record.operationId) ∈ events

theorem ResultHistory.of_other (hhistory : ResultHistory events slot.terminalResult)
    (hreceive : slot.receive event = .ok (true, next))
    (hother : SlotComponent.terminalResult ∉ event.touches) :
    ResultHistory (events ++ [event]) next.terminalResult := by
  have hsame : next.terminalResult = slot.terminalResult := receive_agrees hreceive hother
  rw [hsame]
  constructor
  · intro terminal recorded enqueuedAt hmem
    rw [List.mem_append, List.mem_singleton] at hmem
    rcases hmem with hold | rfl
    · exact hhistory.requested terminal recorded enqueuedAt hold
    · simp [SlotEvent.touches] at hother
  · intro record hrecord
    obtain ⟨terminal, recorded, enqueuedAt, hmem, hid⟩ := hhistory.recorded record hrecord
    exact ⟨terminal, recorded, enqueuedAt, List.mem_append_left _ hmem, hid⟩
  · intro record hrecord hacknowledged
    exact List.mem_append_left _ (hhistory.acknowledged record hrecord hacknowledged)

theorem ResultHistory.recordTerminalResult {terminal : JobLifecycle} {result : TerminalResultRecord}
    (hrecord : slot.recordTerminalResult terminal result enqueuedAt = .ok (true, next)) :
    ResultHistory (events ++ [.mutated (.recordTerminalResult terminal result enqueuedAt)])
      next.terminalResult := by
  obtain ⟨-, -, -, hfresh, -, -, -, -, -, rfl⟩ := recordTerminalResult_eq_true.mp hrecord
  constructor
  · intro _ _ _ _
    exact Option.some_ne_none result
  · intro record hsame
    rw [← Option.some.inj hsame]
    exact ⟨terminal, result, enqueuedAt, by simp, rfl⟩
  · intro record hsame hacknowledged
    rw [← Option.some.inj hsame, hfresh] at hacknowledged
    contradiction

theorem ResultHistory.acknowledgeTerminalResult
    (hhistory : ResultHistory events slot.terminalResult)
    (hack : slot.acknowledgeTerminalResult operationId = .ok (true, next)) :
    ResultHistory (events ++ [.mutated (.acknowledgeTerminalResult operationId)])
      next.terminalResult := by
  obtain ⟨result, hresult, hid, -, rfl⟩ := acknowledgeTerminalResult_eq_true.mp hack
  constructor
  · intro _ _ _ _
    exact Option.some_ne_none result.acknowledge
  · intro record hsame
    obtain ⟨terminal, recorded, enqueuedAt, hmem, hrecorded⟩ := hhistory.recorded result hresult
    rw [← Option.some.inj hsame]
    exact ⟨terminal, recorded, enqueuedAt, List.mem_append_left _ hmem, hrecorded⟩
  · intro record hsame _
    rw [← Option.some.inj hsame, ← hid]
    simp [TerminalResultRecord.acknowledge]

theorem ResultHistory.receive (hhistory : ResultHistory events slot.terminalResult)
    (hreceive : slot.receive event = .ok (true, next)) :
    ResultHistory (events ++ [event]) next.terminalResult := by
  by_cases htouched : SlotComponent.terminalResult ∈ event.touches
  · cases event with
    | cancelled | orphaned => simp [SlotEvent.touches] at htouched
    | mutated mutation =>
      cases mutation with
      | recordTerminalResult => exact .recordTerminalResult hreceive
      | acknowledgeTerminalResult => exact hhistory.acknowledgeTerminalResult hreceive
      | _ => simp [SlotEvent.touches] at htouched
  · exact hhistory.of_other hreceive htouched

def AbandonedUnder (events : List SlotEvent) (grant : OrphanAuthorityGrant)
    (delivery : OrphanDelivery) : Prop :=
  grant.permissions.allows delivery = true ∧ ∃ reason,
      .mutated (.abandonOrphanDelivery grant.authorityOperationId delivery reason) ∈ events

structure OrphanHistory (events : List SlotEvent) (orphan : OrphanRecord)
    (grant : OrphanAuthorityGrant) : Prop where
  granted : .orphaned grant ∈ events
  authority : orphan.authorityOperationId = grant.authorityOperationId
  permissions : orphan.permissions = grant.permissions
  abandoned :
    ∀ delivery, orphan.isAbandoned delivery = true → AbandonedUnder events grant delivery

variable {grant : OrphanAuthorityGrant}

theorem OrphanHistory.append {orphan : OrphanRecord} (hhistory : OrphanHistory events orphan grant)
    (later : List SlotEvent) :
    OrphanHistory (events ++ later) orphan grant := by
  refine ⟨List.mem_append_left _ hhistory.granted, hhistory.authority, hhistory.permissions, ?_⟩
  intro delivery habandoned
  obtain ⟨hallowed, reason, hmem⟩ := hhistory.abandoned delivery habandoned
  exact ⟨hallowed, reason, List.mem_append_left _ hmem⟩

theorem orphanHistory_fromGrant (hgranted : .orphaned grant ∈ events) :
    OrphanHistory events (.fromGrant grant) grant := by
  refine ⟨hgranted, rfl, rfl, ?_⟩
  intro delivery habandoned
  cases delivery <;> simp [OrphanRecord.fromGrant, OrphanRecord.isAbandoned,
      OrphanAbandonments.get] at habandoned

theorem OrphanHistory.abandon {orphan after : OrphanRecord}
    {delivery : OrphanDelivery} {reason : OrphanAbandonmentReason}
    (hhistory : OrphanHistory events orphan grant)
    (habandon : orphan.abandon operationId delivery reason = .ok (true, after)) :
    OrphanHistory (events ++ [.mutated (.abandonOrphanDelivery operationId delivery reason)])
      after grant := by
  obtain ⟨⟨hauthority, hallowed⟩, hcase⟩ := OrphanRecord.abandon_eq_ok.mp habandon
  have hlater := hhistory.append [.mutated (.abandonOrphanDelivery operationId delivery reason)]
  have habandoned : ∀ other, after.isAbandoned other = true → AbandonedUnder (events ++
          [.mutated (.abandonOrphanDelivery operationId delivery reason)])
        grant other := by
    intro other hother
    rcases OrphanRecord.isAbandoned_of_abandon habandon hother with rfl | hearlier
    · rw [hhistory.permissions] at hallowed
      refine ⟨hallowed, reason, ?_⟩
      rw [← hhistory.authority, hauthority]
      simp
    · exact hlater.abandoned other hearlier
  simp only [true_and, Bool.true_eq_false, false_and, or_false] at hcase
  obtain ⟨-, rfl⟩ := hcase
  exact ⟨hlater.granted, hlater.authority, hlater.permissions, habandoned⟩

theorem OrphanHistory.receive
    (hhistory : ∀ orphan ∈ slot.orphan, ∃ grant, OrphanHistory events orphan grant)
    (hreceive : slot.receive event = .ok (true, next)) :
    ∀ orphan ∈ next.orphan, ∃ grant, OrphanHistory (events ++ [event]) orphan grant := by
  intro orphan horphan
  by_cases htouched : SlotComponent.orphan ∈ event.touches
  · cases event with
    | cancelled => simp [SlotEvent.touches] at htouched
    | orphaned grant =>
      obtain ⟨-, rfl⟩ := authorizeOrphan_eq_true.mp hreceive
      rw [← Option.some.inj horphan]
      exact ⟨grant, orphanHistory_fromGrant (by simp)⟩
    | mutated mutation =>
      cases mutation with
      | abandonOrphanDelivery =>
        obtain ⟨-, before, after, hbefore, habandon, rfl⟩ :=
          abandonOrphanDelivery_eq_true.mp hreceive
        obtain ⟨grant, hgrant⟩ := hhistory before hbefore
        rw [← Option.some.inj horphan]
        exact ⟨grant, hgrant.abandon habandon⟩
      | _ => simp [SlotEvent.touches] at htouched
  · have hsame : next.orphan = slot.orphan := receive_agrees hreceive htouched
    rw [hsame] at horphan
    obtain ⟨grant, hgrant⟩ := hhistory orphan horphan
    exact ⟨grant, hgrant.append [event]⟩

end Records

/-- What the delivery records of a snapshot say about its events. -/
structure DeliveryInvariant (events : List SlotEvent)
    (slot : SlotSnapshot) : Prop where
  log : LogInvariant (logHistory events) slot.logDelivery
  offer : OfferHistory events slot
  result : ResultHistory events slot.terminalResult
  orphan :
    ∀ orphan ∈ slot.orphan, ∃ grant, OrphanHistory events orphan grant

namespace SlotRun

variable {runnerId : RunnerId} {sessionId : RunnerSessionId}
  {offer : LeaseOfferRecord} {events : List SlotEvent} {slot : SlotSnapshot}

theorem deliveryInvariant (hrun : SlotRun runnerId sessionId offer events slot) :
    DeliveryInvariant events slot := by
  induction hrun with
  | offered =>
    refine ⟨⟨rfl, ?_⟩, offerHistory_fromOffer offer, ?_, ?_⟩
    · intro run hrun
      contradiction
    · constructor <;> simp [fromOffer]
    · simp [fromOffer]
  | step before addressed bounded received ih =>
    constructor
    · rw [logHistory_concat]
      exact ih.log.receive bounded received
    · exact ih.offer.receive received
    · exact ih.result.receive received
    · exact OrphanHistory.receive ih.orphan received

theorem addressed (hrun : SlotRun runnerId sessionId offer events slot) :
    ∀ event ∈ events, event.Addressed runnerId sessionId offer := by
  induction hrun with
  | offered => simp
  | step before addressed bounded received ih =>
    intro event hmem
    rw [List.mem_append, List.mem_singleton] at hmem
    rcases hmem with hold | rfl
    · exact ih event hold
    · exact addressed

end SlotRun

end AutomataCi
