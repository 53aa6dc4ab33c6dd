import AutomataCi.LogDeliveryValidity

/-!
# Log delivery over whole runs

Every history of calls on one cursor, failed calls included, delivers the log
without a gap and without loss: the acknowledged frames followed by the
retained segments are exactly the frames produced so far, in order.
-/

namespace AutomataCi

open GuardedResult FallibleState ContiguousSpans

inductive CursorCall where
  | recordSegment (publication : LogSegmentPublication)
      (enqueuedAt : UnixMillis)
  | sealSegment (expectedContent : DurableContentRef)
  | acknowledgeSegment (acknowledgement : LogSegmentAcknowledgement)
  deriving DecidableEq

/-- A call which carries the cursor's own stream and a sequence below the end
of the 64-bit range. -/
def CursorCall.Admissible (streamId : LogStreamId) : CursorCall → Prop
  | .recordSegment publication _ =>
    publication.streamId = streamId ∧ publication.segment.lastSequence.get + 1 < 2 ^ 64
  | .sealSegment _ => True
  | .acknowledgeSegment acknowledgement => acknowledgement.streamId = streamId

namespace LogDeliveryCursor

def perform (self : LogDeliveryCursor) :
    CursorCall → Except JournalInvariantError Bool × LogDeliveryCursor
  | .recordSegment publication enqueuedAt =>
    exec (do
      recordSegment publication enqueuedAt
      return true) self
  | .sealSegment expectedContent => exec (sealSegment expectedContent) self
  | .acknowledgeSegment acknowledgement => exec (acknowledgeSegment acknowledgement) self

/-! ## What one call can do -/

def withTail (self : LogDeliveryCursor) (front : List LogSegment)
    (candidate : LogSegment) : LogDeliveryCursor :=
  { self with
    segments := front ++ [candidate]
    producedThrough := some candidate.lastSequence
    endOfStream :=
      if candidate.endOfStream then some candidate.lastSequence
      else self.endOfStream }

/-- The outcomes of one call.  A failed or a replayed call changes nothing. -/
inductive CallOutcome (self : LogDeliveryCursor) :
    CursorCall → Except JournalInvariantError Bool → LogDeliveryCursor → Prop where
  | failed (call : CursorCall) (error : JournalInvariantError) :
      CallOutcome self call (.error error) self
  | replayed (call : CursorCall) : CallOutcome self call (.ok false) self
  | replaced (publication : LogSegmentPublication) (enqueuedAt : UnixMillis)
      (front : List LogSegment) (current : LogSegment)
      (hopen : self.endOfStream = none)
      (hcandidate : publication.segment.Valid)
      (hsegments : self.segments = front ++ [current])
      (hprevious : publication.previousOpenContent = some current.content)
      (hunsealed : current.isSealed = false)
      (hfirst :
        publication.segment.firstSequence = current.firstSequence)
      (hlast : publication.segment.lastSequence.get = current.lastSequence.get + 1)
      (hbytes : current.content.accountedBytes ≤ self.backlogContentBytes ∧
        self.backlogContentBytes - current.content.accountedBytes +
          publication.segment.content.accountedBytes ≤ maxLogSpoolContentBytes) :
      CallOutcome self (.recordSegment publication enqueuedAt) (.ok true)
        (self.withTail front publication.segment)
  | appended (publication : LogSegmentPublication) (enqueuedAt : UnixMillis)
      (hopen : self.endOfStream = none)
      (hcandidate : publication.segment.Valid)
      (hprevious : publication.previousOpenContent = none)
      (henqueued : validateDeliveryEnqueuedAt enqueuedAt = .ok ())
      (hsealed : self.openSegment = none)
      (hfirst : publication.segment.firstSequence.get = framesThrough self.producedThrough)
      (hlast : publication.segment.lastSequence = publication.segment.firstSequence)
      (hcount : self.segments.length < maxLogSegmentsPerSlot)
      (hbytes : self.backlogContentBytes + publication.segment.content.accountedBytes ≤
          maxLogSpoolContentBytes) :
      CallOutcome self (.recordSegment publication enqueuedAt) (.ok true)
        { self.withTail self.segments publication.segment with
          segmentEnqueuedAt := self.segmentEnqueuedAt ++ [enqueuedAt] }
  | tailSealed (front : List LogSegment) (tail : LogSegment)
      (hsegments : self.segments = front ++ [tail])
      (hunsealed : tail.isSealed = false) :
      CallOutcome self (.sealSegment tail.content) (.ok true)
        { self with segments := front ++ [tail.markSealed] }
  | acknowledged (acknowledgement : LogSegmentAcknowledgement)
      (head : LogSegment) (rest : List LogSegment)
      (hsegments : self.segments = head :: rest)
      (hsealed : head.isSealed = true)
      (hthrough : acknowledgement.through = head.lastSequence)
      (hcontent : acknowledgement.headContent = head.content) :
      CallOutcome self (.acknowledgeSegment acknowledgement) (.ok true)
        { self with
          segments := rest
          segmentEnqueuedAt := self.segmentEnqueuedAt.tail
          lastAcknowledgement := some acknowledgement }

variable {self cursor next : LogDeliveryCursor}

theorem expectedFirst_eq_ok {expected : LogSequence} :
    self.expectedFirst = .ok expected ↔ expected.get = framesThrough self.producedThrough := by
  cases hproduced : self.producedThrough with
  | none =>
    simp only [expectedFirst, hproduced, framesThrough, Option.elim_none, Except.ok.injEq]
    constructor
    · rintro rfl
      rfl
    · intro hget
      ext
      exact hget.symm
  | some =>
    simp only [expectedFirst, hproduced, okOr_eq_ok,
      LogSequence.checkedNext_eq_some, framesThrough, Option.elim_some]

theorem exec_markProduced (self : LogDeliveryCursor) (candidate : LogSegment) :
    exec (markProduced candidate) self = (.ok (), { self with
          producedThrough := some candidate.lastSequence
          endOfStream :=
            if candidate.endOfStream then some candidate.lastSequence
            else self.endOfStream }) := by
  unfold markProduced
  cases hends : candidate.endOfStream <;> simp

variable {candidate : LogSegment}

variable {result accepted : Unit} {front : List LogSegment} {call : CursorCall}
  {publication : LogSegmentPublication}

theorem checkReplacement_eq_ok {current : LogSegment} {previous : DurableContentRef}
    (hcheck : self.checkReplacement current previous candidate = .ok result) :
    previous = current.content ∧ current.isSealed = false ∧
      candidate.firstSequence = current.firstSequence ∧
      candidate.lastSequence.get = current.lastSequence.get + 1 ∧
      current.content.accountedBytes ≤ self.backlogContentBytes ∧
      self.backlogContentBytes - current.content.accountedBytes +
        candidate.content.accountedBytes ≤ maxLogSpoolContentBytes := by
  simp only [checkReplacement, bind_eq_ok, rejectIf_eq_ok, okOr_eq_ok,
    LogSequence.checkedNext_eq_some, exists_const, not_or, not_lt,
    not_not, Bool.not_eq_true] at hcheck
  obtain ⟨⟨hunsealed, hprevious⟩, expected, hexpected,
    ⟨hfirst, hlast, _⟩, ⟨hretained, _⟩, hbytes⟩ := hcheck
  exact ⟨hprevious.symm, hunsealed, hfirst, hlast ▸ hexpected, hretained, hbytes⟩

variable {enqueuedAt : UnixMillis}

theorem checkAppend_eq_ok {expectedFirst : LogSequence}
    (hcheck : self.checkAppend expectedFirst candidate enqueuedAt = .ok result) :
    validateDeliveryEnqueuedAt enqueuedAt = .ok () ∧
      self.openSegment = none ∧ candidate.firstSequence = expectedFirst ∧
      candidate.lastSequence = candidate.firstSequence ∧
      self.segments.length < maxLogSegmentsPerSlot ∧
      self.backlogContentBytes + candidate.content.accountedBytes ≤ maxLogSpoolContentBytes := by
  simp only [checkAppend, bind_eq_ok, rejectIf_eq_ok, exists_const, exists_and_right,
    exists_eq_ok_unit, not_or, not_lt, not_le, not_not, Bool.not_eq_true,
    Option.isSome_eq_false_iff, Option.isNone_iff_eq_none] at hcheck
  obtain ⟨henqueued, ⟨hsealed, hfirst, hlast, _⟩, hcount, _, hbytes⟩ := hcheck
  exact ⟨henqueued, hsealed, hfirst, hlast.symm, hcount, hbytes⟩

variable (self : LogDeliveryCursor)

theorem perform_recordSegment_outcome
    (publication : LogSegmentPublication) (enqueuedAt : UnixMillis) :
    CallOutcome self (.recordSegment publication enqueuedAt)
      (self.perform (.recordSegment publication enqueuedAt)).1
      (self.perform (.recordSegment publication enqueuedAt)).2 := by
  simp only [perform, recordSegment, exec_bind, exec_get, andThen_ok, exec_check]
  cases hclosed : rejectIf (self.endOfStream.isSome = true)
      JournalInvariantError.logStreamClosed with
  | error error => exact .failed _ error
  | ok accepted =>
    have hopen : self.endOfStream = none := by simpa using hclosed
    simp only [andThen_ok, exec_bind, exec_check]
    cases hvalid : publication.segment.validate with
    | error error => exact .failed _ error
    | ok accepted =>
      have hcandidate := LogSegment.validate_eq_ok.mp hvalid
      simp only [andThen_ok, exec_bind, exec_check]
      cases hexpected : self.expectedFirst with
      | error error => exact .failed _ error
      | ok expected =>
        rw [expectedFirst_eq_ok] at hexpected
        simp only [andThen_ok, exec_bind, placeSegment, exec_get]
        cases hprevious : publication.previousOpenContent with
        | some previous =>
          simp only [exec_bind, exec_check]
          cases htail : self.segments.getLast? with
          | none => exact .failed _ _
          | some current =>
            obtain ⟨front, hsegments⟩ := List.getLast?_eq_some_iff.mp htail
            simp only [okOr, andThen_ok, exec_bind, exec_check]
            cases hcheck : self.checkReplacement current previous publication.segment with
            | error error => exact .failed _ error
            | ok accepted =>
              obtain ⟨rfl, hunsealed, hfirst, hlast, hbytes⟩ := checkReplacement_eq_ok hcheck
              simp only [andThen_ok, exec_modify, exec_markProduced, exec_pure, hsegments,
                List.dropLast_concat]
              exact .replaced publication enqueuedAt front current
                hopen hcandidate hsegments hprevious hunsealed
                hfirst hlast hbytes
        | none =>
          simp only [exec_bind, exec_check]
          cases hcheck : self.checkAppend expected publication.segment enqueuedAt with
          | error error => exact .failed _ error
          | ok accepted =>
            obtain ⟨henqueued, hsealed, hfirst, hlast, hcount, hbytes⟩ := checkAppend_eq_ok hcheck
            simp only [andThen_ok, exec_bind, exec_modify, exec_markProduced, exec_pure]
            exact .appended publication enqueuedAt hopen hcandidate
              hprevious henqueued hsealed (hfirst ▸ hexpected)
              hlast hcount hbytes

theorem perform_sealSegment_outcome
    (expectedContent : DurableContentRef) :
    CallOutcome self (.sealSegment expectedContent) (self.perform (.sealSegment expectedContent)).1
      (self.perform (.sealSegment expectedContent)).2 := by
  simp only [perform, sealSegment, exec_bind, exec_get, andThen_ok, exec_check]
  cases htail : self.segments.getLast? with
  | none => exact .failed _ _
  | some tail =>
    obtain ⟨front, hsegments⟩ := List.getLast?_eq_some_iff.mp htail
    simp only [okOr, andThen_ok, exec_bind, exec_check]
    cases hcontent : rejectIf (tail.content ≠ expectedContent)
        JournalInvariantError.logSegmentMutationConflict with
    | error error => exact .failed _ error
    | ok accepted =>
      rw [rejectIf_eq_ok, not_not] at hcontent
      subst hcontent
      cases hsealed : tail.isSealed with
      | true => simpa using CallOutcome.replayed _
      | false =>
        simp only [andThen_ok, Bool.false_eq_true, if_false, exec_bind,
          exec_modify, exec_pure, hsegments, List.dropLast_concat]
        exact .tailSealed front tail hsegments hsealed

theorem perform_acknowledgeSegment_outcome
    (acknowledgement : LogSegmentAcknowledgement) :
    CallOutcome self (.acknowledgeSegment acknowledgement)
      (self.perform (.acknowledgeSegment acknowledgement)).1
      (self.perform (.acknowledgeSegment acknowledgement)).2 := by
  simp only [perform, acknowledgeSegment, exec_bind, exec_get, andThen_ok, exec_check]
  cases hreplay : self.isReplayedAcknowledgement acknowledgement with
  | error error => exact .failed _ error
  | ok replayed =>
    cases replayed with
    | true => simpa using CallOutcome.replayed _
    | false =>
      simp only [andThen_ok, Bool.false_eq_true, if_false, exec_bind, exec_check]
      cases hsegments : self.segments with
      | nil => exact .failed _ _
      | cons head rest =>
        simp only [List.head?_cons, okOr, andThen_ok, exec_bind, exec_check]
        cases hcheck : rejectIf (head.isSealed = false ∨
            head.lastSequence ≠ acknowledgement.through ∨
            head.content ≠ acknowledgement.headContent)
            JournalInvariantError.logAcknowledgementConflict with
        | error error => exact .failed _ error
        | ok accepted =>
          simp only [rejectIf_eq_ok, not_or, not_not, Bool.not_eq_false] at hcheck
          obtain ⟨hsealed, hthrough, hcontent⟩ := hcheck
          simp only [andThen_ok, exec_bind, exec_modify, exec_pure, hsegments, List.tail_cons]
          exact .acknowledged acknowledgement head rest hsegments
            hsealed hthrough.symm hcontent.symm

theorem perform_outcome (call : CursorCall) :
    CallOutcome self call (self.perform call).1 (self.perform call).2 := by
  cases call with
  | recordSegment publication enqueuedAt =>
    exact perform_recordSegment_outcome self publication enqueuedAt
  | sealSegment expectedContent => exact perform_sealSegment_outcome self expectedContent
  | acknowledgeSegment acknowledgement =>
    exact perform_acknowledgeSegment_outcome self acknowledgement

/-! ## Validity is kept -/

theorem foldl_min_eq_min (values : List Nat) (start bound : Nat) (hstart : start ≤ bound) :
    values.foldl (fun total value => min (total + value) bound) start =
      min (start + values.sum) bound := by
  induction values generalizing start with
  | nil => simpa using hstart
  | cons value rest ih =>
    rw [List.foldl_cons, ih _ (min_le_right _ _), List.sum_cons]
    omega

theorem Valid.backlogContentBytes_eq (hvalid : cursor.Valid) :
    cursor.backlogContentBytes = retainedBytes cursor.segments := by
  have hbytes := hvalid.bytes
  simp only [maxLogSpoolContentBytes] at hbytes
  have hfold := foldl_min_eq_min (cursor.segments.map fun segment => segment.content.accountedBytes)
    0 (2 ^ 64 - 1) (by omega)
  rw [List.foldl_map] at hfold
  rw [backlogContentBytes, hfold, retainedBytes]
  simp only [retainedBytes] at hbytes
  omega

theorem Valid.new (streamId : LogStreamId) : (LogDeliveryCursor.new streamId).Valid := by
  constructor <;> simp [LogDeliveryCursor.new, framesThrough, acknowledgedThrough, retainedBytes]

theorem Valid.withTail {enqueued : List UnixMillis} (hvalid : cursor.Valid)
    (hopen : cursor.endOfStream = none) (hcandidate : candidate.Valid)
    (hbelow : candidate.lastSequence.get + 1 < 2 ^ 64)
    (hfront : ∀ segment ∈ front, segment ∈ cursor.segments)
    (hclosed : ∀ segment ∈ front, segment.isSealed = true)
    (htiles : Tiling (framesThrough cursor.acknowledgedThrough) front
      candidate.first) (hcount : front.length < maxLogSegmentsPerSlot)
    (henqueued : enqueued.length = front.length + 1)
    (htimes : ∀ enqueuedAt ∈ enqueued, validateDeliveryEnqueuedAt enqueuedAt = .ok ())
    (hbytes : retainedBytes front + candidate.content.accountedBytes ≤ maxLogSpoolContentBytes) :
    { cursor.withTail front candidate with
      segmentEnqueuedAt := enqueued }.Valid := by
  have hending : ∀ segment ∈ front, segment.endOfStream = false := by
    intro segment hsegment
    by_contra hends
    have := hvalid.ending segment (hfront segment hsegment) (by simpa using hends)
    simp [hopen] at this
  refine ⟨?_, ?_, htimes, hvalid.acknowledgement, ?_, ?_, ?_, ?_, ?_, ?_⟩ <;>
    simp only [LogDeliveryCursor.withTail]
  · simp
    omega
  · simpa using henqueued
  · intro segment hsegment
    rcases List.mem_append.mp hsegment with hmem | hmem
    · exact hvalid.segmentsValid segment (hfront segment hmem)
    · rw [List.mem_singleton] at hmem
      subst hmem
      exact ⟨hcandidate, hbelow⟩
  · exact tiles_concat.mpr ⟨htiles, hcandidate.ordered, rfl⟩
  · rw [List.dropLast_concat]
    exact fun segment hsegment => ⟨hclosed segment hsegment, hending segment hsegment⟩
  · simpa [retainedBytes] using hbytes
  · intro finalSequence hfinal
    cases hends : candidate.endOfStream <;> simp_all
  · intro segment hsegment hends
    rcases List.mem_append.mp hsegment with hmem | hmem
    · simp [hending segment hmem] at hends
    · rw [List.mem_singleton] at hmem
      subst hmem
      simp [hends]

theorem Valid.sealTail {tail : LogSegment} (hvalid : cursor.Valid)
    (hsegments : cursor.segments = front ++ [tail]) :
    { cursor with segments := front ++ [tail.markSealed] }.Valid := by
  have hcount := hvalid.segmentCount
  have henqueued := hvalid.enqueuedCount
  have hclosed := hvalid.closedInit
  have htiling := hvalid.tiling
  have hbytes := hvalid.bytes
  have hfinished := hvalid.finished
  have htail := hvalid.segmentsValid tail (by simp [hsegments])
  rw [hsegments] at hcount henqueued htiling hbytes hfinished
  rw [hsegments, List.dropLast_concat] at hclosed
  refine ⟨by simpa using hcount, by simpa using henqueued,
    hvalid.enqueuedAt, hvalid.acknowledgement, ?_, ?_, ?_, ?_, ?_, ?_⟩
  · intro segment hsegment
    rcases List.mem_append.mp hsegment with hmem | hmem
    · exact hvalid.segmentsValid segment (by simp [hsegments, hmem])
    · rw [List.mem_singleton] at hmem
      subst hmem
      exact ⟨htail.1.markSealed, htail.2⟩
  · have hsplit := tiles_concat.mp htiling
    exact tiles_concat.mpr hsplit
  · simpa [List.dropLast_concat] using hclosed
  · simpa [retainedBytes, LogSegment.markSealed] using hbytes
  · simpa [LogSegment.markSealed] using hfinished
  · intro segment hsegment hends
    rcases List.mem_append.mp hsegment with hmem | hmem
    · exact hvalid.ending segment (by simp [hsegments, hmem]) hends
    · rw [List.mem_singleton] at hmem
      subst hmem
      exact hvalid.ending tail (by simp [hsegments]) hends

theorem Valid.removeHead {acknowledgement : LogSegmentAcknowledgement}
    {head : LogSegment} {rest : List LogSegment}
    (hvalid : cursor.Valid)
    (hsegments : cursor.segments = head :: rest)
    (hstream : acknowledgement.streamId = cursor.streamId)
    (hthrough : acknowledgement.through = head.lastSequence)
    (hcontent : acknowledgement.headContent = head.content) :
    { cursor with
      segments := rest
      segmentEnqueuedAt := cursor.segmentEnqueuedAt.tail
      lastAcknowledgement := some acknowledgement }.Valid := by
  have hcount := hvalid.segmentCount
  have henqueued := hvalid.enqueuedCount
  have hclosed := hvalid.closedInit
  have htiling := hvalid.tiling
  have hbytes := hvalid.bytes
  have hfinished := hvalid.finished
  have hhead := hvalid.segmentsValid head (by simp [hsegments])
  rw [hsegments] at hcount henqueued htiling hbytes hfinished hclosed
  have hmem : ∀ segment ∈ rest, segment ∈ cursor.segments := by
    intro segment hsegment
    simp [hsegments, hsegment]
  refine ⟨?_, ?_, ?_, ?_, ?_, ?_, ?_, ?_, ?_, ?_⟩
  · exact (Nat.le_succ _).trans hcount
  · simp [henqueued]
  · exact fun time htime => hvalid.enqueuedAt time (List.mem_of_mem_tail htime)
  · intro other hother
    cases hother
    refine ⟨?_, hstream⟩
    rw [LogSegmentAcknowledgement.validate, hcontent]
    exact hhead.1.content
  · exact fun segment hsegment => hvalid.segmentsValid segment (hmem segment hsegment)
  · obtain ⟨_, _, hrest⟩ := tiles_cons.mp htiling
    simpa [acknowledgedThrough, framesThrough, hthrough, LogSegment.last] using hrest
  · intro segment hsegment
    cases rest with
    | nil => simp at hsegment
    | cons =>
      exact hclosed segment (by
        rw [List.dropLast_cons_cons]
        exact List.mem_cons_of_mem _ hsegment)
  · simp only [retainedBytes, List.map_cons, List.sum_cons] at hbytes ⊢
    omega
  · intro finalSequence hfinal
    refine ⟨(hfinished finalSequence hfinal).1, ?_⟩
    intro segment hsegment
    refine (hfinished finalSequence hfinal).2 segment ?_
    cases rest with
    | nil => simp at hsegment
    | cons => simpa using hsegment
  · exact fun segment hsegment => hvalid.ending segment (hmem segment hsegment)

theorem Valid.outcome {result : Except JournalInvariantError Bool} (hvalid : cursor.Valid)
    (hcall : call.Admissible cursor.streamId) (houtcome : CallOutcome cursor call result next) :
    next.Valid := by
  cases houtcome with
  | failed => exact hvalid
  | replayed => exact hvalid
  | replaced publication enqueuedAt front current hopen hcandidate hsegments
      hprevious hunsealed hfirst hlast hbytes =>
      have htiling := hvalid.tiling
      have hclosed := hvalid.closedInit
      have hcount := hvalid.segmentCount
      have henqueued := hvalid.enqueuedCount
      rw [hvalid.backlogContentBytes_eq, hsegments] at hbytes
      rw [hsegments] at htiling hcount henqueued
      rw [hsegments, List.dropLast_concat] at hclosed
      simp only [List.length_append, List.length_singleton] at hcount henqueued
      refine hvalid.withTail hopen hcandidate hcall.2 ?_ ?_ ?_ ?_ henqueued hvalid.enqueuedAt ?_
      · simp [hsegments]
        tauto
      · exact fun segment hsegment => (hclosed segment hsegment).1
      · obtain ⟨hfront, _, _⟩ := tiles_concat.mp htiling
        simpa [LogSegment.first, hfirst] using hfront
      · omega
      · simp only [retainedBytes, List.map_append, List.sum_append,
          List.map_singleton, List.sum_singleton] at hbytes ⊢
        omega
  | appended publication enqueuedAt hopen hcandidate hprevious henqueued
      hsealed hfirst hlast hcount hbytes =>
      rw [hvalid.backlogContentBytes_eq] at hbytes
      refine hvalid.withTail hopen hcandidate hcall.2 (fun _ hmem => hmem) ?_ ?_ hcount ?_ ?_ hbytes
      · intro segment hsegment
        rcases List.eq_nil_or_concat' cursor.segments with hnil | ⟨front, tail, hsplit⟩
        · simp [hnil] at hsegment
        · have hclosed := hvalid.closedInit
          rw [hsplit, List.dropLast_concat] at hclosed
          rw [hsplit, List.mem_append, List.mem_singleton] at hsegment
          rcases hsegment with hmem | rfl
          · exact (hclosed segment hmem).1
          · simpa [openSegment, hsplit, Option.filter] using hsealed
      · rw [LogSegment.first, hfirst]
        exact hvalid.tiling
      · simp [hvalid.enqueuedCount]
      · intro time htime
        rcases List.mem_append.mp htime with hmem | hmem
        · exact hvalid.enqueuedAt time hmem
        · rw [List.mem_singleton] at hmem
          subst hmem
          exact henqueued
  | tailSealed front tail hsegments => exact hvalid.sealTail hsegments
  | acknowledged acknowledgement head rest hsegments hsealed hthrough hcontent =>
      exact hvalid.removeHead hsegments hcall hthrough hcontent

theorem CallOutcome.streamId_eq {result : Except JournalInvariantError Bool}
    (houtcome : CallOutcome cursor call result next) : next.streamId = cursor.streamId := by
  cases houtcome <;> rfl

theorem perform_recordSegment_of_exec
    (hrecord : exec (recordSegment publication enqueuedAt) cursor = (.ok accepted, next)) :
    cursor.perform (.recordSegment publication enqueuedAt) = (.ok true, next) := by
  rw [perform, exec_bind, hrecord, andThen_ok, exec_pure]

theorem recordSegment_mem
    (hrecord : exec (recordSegment publication enqueuedAt) cursor = (.ok accepted, next)) :
    publication.segment ∈ next.segments := by
  have houtcome := cursor.perform_outcome (.recordSegment publication enqueuedAt)
  rw [perform_recordSegment_of_exec hrecord] at houtcome
  generalize hresult : Except.ok true = result at houtcome
  cases houtcome with
  | failed | replayed => simp at hresult
  | replaced | appended => simp [withTail]

end LogDeliveryCursor

/-! ## Runs -/

open LogDeliveryCursor

/-- A cursor with the history of its stream: the frames produced, the frames
acknowledged, each in order, and the frame which ended the stream. -/
structure LogDeliveryRun where
  cursor : LogDeliveryCursor
  (produced acknowledged : List Nat)
  ended : Option Nat

namespace LogDeliveryRun

def frames : LogSegment → List Nat :=
  positions LogSegment.first LogSegment.last

def initial (streamId : LogStreamId) : LogDeliveryRun where
  cursor := .new streamId
  produced := []
  acknowledged := []
  ended := none

/-- One call.  A recorded segment produces the frames which no earlier segment
held; an acknowledgement covers the frames of the segment it removes. -/
def step (run : LogDeliveryRun) (call : CursorCall) : LogDeliveryRun :=
  match call, run.cursor.perform call with
  | .recordSegment publication _, (.ok true, next) =>
    { run with
      cursor := next
      produced := run.produced ++ (frames publication.segment).filter (· ∉ run.produced)
      ended :=
        if publication.segment.endOfStream then
          some publication.segment.last
        else run.ended }
  | .acknowledgeSegment _, (.ok true, next) =>
    { run with
      cursor := next
      acknowledged := run.acknowledged ++ run.cursor.segments.head?.toList.flatMap frames }
  | _, (_, next) => { run with cursor := next }

def after (run : LogDeliveryRun) (calls : List CursorCall) : LogDeliveryRun :=
  calls.foldl step run

structure Faithful (run : LogDeliveryRun) : Prop where
  valid : run.cursor.Valid
  produced :
    run.produced = List.range (framesThrough run.cursor.producedThrough)
  acknowledged :
    run.acknowledged = List.range (framesThrough run.cursor.acknowledgedThrough)
  ended : run.ended = run.cursor.endOfStream.map LogSequence.get

theorem initial_faithful (streamId : LogStreamId) : (initial streamId).Faithful := by
  refine ⟨.new streamId, ?_, ?_, ?_⟩ <;>
    simp [initial, LogDeliveryCursor.new, framesThrough, acknowledgedThrough]

theorem filter_frames_eq_singleton {segment : LogSegment} {count : Nat}
    (hordered : segment.first ≤ segment.last)
    (hlast : segment.last = count) :
    (frames segment).filter (· ∉ List.range count) = [count] := by
  subst hlast
  have hsplit : segment.last + 1 - segment.first = (segment.last - segment.first) + 1 := by omega
  have hend : segment.first + (segment.last - segment.first) = segment.last := by omega
  rw [frames, positions, hsplit, List.range'_1_concat, List.filter_append, hend]
  have hold : (List.range' segment.first (segment.last - segment.first)).filter
        (· ∉ List.range segment.last) = [] := by
    rw [List.filter_eq_nil_iff]
    intro frame hframe
    rw [List.mem_range'_1] at hframe
    simp
    omega
  rw [hold]
  simp

theorem step_cursor (run : LogDeliveryRun) (call : CursorCall) :
    (run.step call).cursor = (run.cursor.perform call).2 := by
  unfold step
  split <;> simp_all

variable {run : LogDeliveryRun} {call : CursorCall}

variable {result : Except JournalInvariantError Bool} {publication : LogSegmentPublication}
  {enqueuedAt : UnixMillis} {calls : List CursorCall}

theorem step_of_unchanged (hperform : run.cursor.perform call = (result, run.cursor))
    (hresult : result ≠ .ok true) : run.step call = run := by
  unfold step
  split <;> simp_all

theorem step_recordSegment {next : LogDeliveryCursor} {count : Nat}
    (hperform : run.cursor.perform (.recordSegment publication enqueuedAt) = (.ok true, next))
    (hproduced : run.produced = List.range count) (hcandidate : publication.segment.Valid)
    (hlast : publication.segment.last = count) :
    run.step (.recordSegment publication enqueuedAt) = { run with
        cursor := next
        produced := List.range (count + 1)
        ended :=
          if publication.segment.endOfStream then some count
          else run.ended } := by
  have hnew := filter_frames_eq_singleton hcandidate.ordered hlast
  simp only [step, hperform, hproduced, hnew, hlast, List.range_succ]

theorem Faithful.record {next : LogDeliveryCursor} (hfaithful : run.Faithful)
    (hperform : run.cursor.perform (.recordSegment publication enqueuedAt) = (.ok true, next))
    (hvalid : next.Valid) (hcandidate : publication.segment.Valid)
    (hlast : publication.segment.last = framesThrough run.cursor.producedThrough)
    (hproduced : next.producedThrough = some publication.segment.lastSequence)
    (hacknowledged : next.acknowledgedThrough = run.cursor.acknowledgedThrough)
    (hended : next.endOfStream =
      if publication.segment.endOfStream then
        some publication.segment.lastSequence
      else run.cursor.endOfStream) :
    (run.step (.recordSegment publication enqueuedAt)).Faithful := by
  rw [step_recordSegment hperform hfaithful.produced hcandidate hlast]
  refine ⟨hvalid, ?_, ?_, ?_⟩
  · simp only [hproduced, framesThrough_some, ← hlast]
    rfl
  · simpa only [hacknowledged] using hfaithful.acknowledged
  · simp only [hended, ← hlast]
    split
    · rfl
    · exact hfaithful.ended

theorem Faithful.step (hfaithful : run.Faithful) (hcall : call.Admissible run.cursor.streamId) :
    (run.step call).Faithful := by
  have houtcome := run.cursor.perform_outcome call
  have hvalid := hfaithful.valid.outcome hcall houtcome
  rcases hperform : run.cursor.perform call with ⟨result, next⟩
  rw [hperform] at houtcome hvalid
  simp only at houtcome hvalid
  cases houtcome with
  | failed => rwa [step_of_unchanged hperform (by simp)]
  | replayed => rwa [step_of_unchanged hperform (by simp)]
  | replaced publication enqueuedAt front current hopen hcandidate hsegments
      hprevious hunsealed hfirst hlast hbytes =>
      refine hfaithful.record hperform hvalid hcandidate ?_ rfl rfl rfl
      have htiling := hfaithful.valid.tiling
      rw [hsegments] at htiling
      rw [(tiles_concat.mp htiling).2.2]
      exact hlast
  | appended publication enqueuedAt hopen hcandidate hprevious henqueued
      hsealed hfirst hlast hcount hbytes =>
      refine hfaithful.record hperform hvalid hcandidate ?_ rfl rfl rfl
      rw [LogSegment.last, hlast]
      exact hfirst
  | tailSealed front tail =>
    have hstep : run.step (.sealSegment tail.content) = { run with
          cursor := { run.cursor with
            segments := front ++ [tail.markSealed] } } := by
      simp [LogDeliveryRun.step, hperform]
    rw [hstep]
    exact ⟨hvalid, hfaithful.produced, hfaithful.acknowledged, hfaithful.ended⟩
  | acknowledged acknowledgement head rest hsegments hsealed hthrough hcontent =>
      have hstep : run.step (.acknowledgeSegment acknowledgement) = { run with
            cursor := { run.cursor with
              segments := rest
              segmentEnqueuedAt := run.cursor.segmentEnqueuedAt.tail
              lastAcknowledgement := some acknowledgement }
            acknowledged := run.acknowledged ++ frames head } := by
        simp [LogDeliveryRun.step, hperform, hsegments]
      rw [hstep]
      refine ⟨hvalid, hfaithful.produced, ?_, hfaithful.ended⟩
      have htiling := hfaithful.valid.tiling
      rw [hsegments] at htiling
      obtain ⟨hfirst, hordered, _⟩ := tiles_cons.mp htiling
      simp only [hfaithful.acknowledged, ← hfirst, frames, range_append_positions hordered]
      simp [acknowledgedThrough, hthrough, LogSegment.last]

theorem Faithful.after (hfaithful : run.Faithful)
    (hcalls : ∀ call ∈ calls, call.Admissible run.cursor.streamId) :
    (run.after calls).Faithful := by
  induction calls generalizing run with
  | nil => exact hfaithful
  | cons call rest ih =>
    rw [List.forall_mem_cons] at hcalls
    refine ih (hfaithful.step hcalls.1) ?_
    rw [step_cursor, (run.cursor.perform_outcome call).streamId_eq]
    exact hcalls.2

theorem after_streamId (run : LogDeliveryRun) (calls : List CursorCall) :
    (run.after calls).cursor.streamId = run.cursor.streamId := by
  induction calls generalizing run with
  | nil => rfl
  | cons call rest ih =>
    have hstep := (run.cursor.perform_outcome call).streamId_eq
    rw [← step_cursor] at hstep
    exact (ih (run.step call)).trans hstep

/-- What no call takes back: frames stay produced, frames stay acknowledged,
and an ended stream stays as it ended. -/
structure Extends (before after : LogDeliveryCursor) : Prop where
  produced :
    framesThrough before.producedThrough ≤ framesThrough after.producedThrough
  acknowledged :
    framesThrough before.acknowledgedThrough ≤ framesThrough after.acknowledgedThrough
  ended :
    ∀ finalSequence, before.endOfStream = some finalSequence →
      after.endOfStream = some finalSequence ∧ after.producedThrough = before.producedThrough

theorem Extends.refl (cursor : LogDeliveryCursor) : Extends cursor cursor :=
  ⟨le_rfl, le_rfl, fun _ hended => ⟨hended, rfl⟩⟩

theorem Extends.trans {first second third : LogDeliveryCursor}
    (hleft : Extends first second) (hright : Extends second third) :
    Extends first third := by
  refine ⟨hleft.produced.trans hright.produced, hleft.acknowledged.trans hright.acknowledged, ?_⟩
  intro finalSequence hended
  obtain ⟨hsecond, hproduced⟩ := hleft.ended finalSequence hended
  obtain ⟨hthird, hsame⟩ := hright.ended finalSequence hsecond
  exact ⟨hthird, hsame.trans hproduced⟩

theorem Extends.outcome {cursor next : LogDeliveryCursor} (hvalid : cursor.Valid)
    (houtcome : CallOutcome cursor call result next) : Extends cursor next := by
  have htiling := hvalid.tiling
  cases houtcome with
  | failed => exact .refl cursor
  | replayed => exact .refl cursor
  | replaced publication enqueuedAt front current hopen hcandidate hsegments
      hprevious hunsealed hfirst hlast hbytes =>
      refine ⟨?_, le_rfl, by simp [hopen]⟩
      rw [hsegments] at htiling
      rw [(tiles_concat.mp htiling).2.2, LogSegment.last]
      simp [withTail, hlast]
  | appended publication enqueuedAt hopen hcandidate hprevious henqueued
      hsealed hfirst hlast hcount hbytes =>
      refine ⟨?_, le_rfl, by simp [hopen]⟩
      simp [withTail, ← hfirst, hlast]
  | tailSealed => exact ⟨le_rfl, le_rfl, fun _ hended => ⟨hended, rfl⟩⟩
  | acknowledged acknowledgement head rest hsegments hsealed hthrough hcontent =>
      refine ⟨le_rfl, ?_, fun _ hended => ⟨hended, rfl⟩⟩
      rw [hsegments] at htiling
      obtain ⟨hfirst, hordered, _⟩ := tiles_cons.mp htiling
      rw [← hfirst]
      simp only [acknowledgedThrough, Option.map_some, hthrough, framesThrough_some]
      exact hordered.trans (Nat.le_succ _)

theorem Faithful.extends_after (hfaithful : run.Faithful)
    (hcalls : ∀ call ∈ calls, call.Admissible run.cursor.streamId) :
    Extends run.cursor (run.after calls).cursor := by
  induction calls generalizing run with
  | nil => exact .refl _
  | cons call rest ih =>
    rw [List.forall_mem_cons] at hcalls
    have houtcome := run.cursor.perform_outcome call
    have hfirst := Extends.outcome hfaithful.valid houtcome
    rw [← step_cursor] at hfirst
    refine hfirst.trans (ih (hfaithful.step hcalls.1) ?_)
    rw [step_cursor, houtcome.streamId_eq]
    exact hcalls.2

theorem perform_recordSegment_closed {cursor : LogDeliveryCursor}
    (hended : cursor.endOfStream.isSome = true)
    (publication : LogSegmentPublication) (enqueuedAt : UnixMillis) :
    cursor.perform (.recordSegment publication enqueuedAt) = (.error .logStreamClosed, cursor) := by
  simp [perform, recordSegment, rejectIf, hended]

theorem Faithful.isFullyDelivered_iff (hfaithful : run.Faithful) :
    run.cursor.isFullyDelivered = true ↔ ∃ final, run.ended = some final ∧
        ∀ frame ≤ final, frame ∈ run.acknowledged := by
  rw [hfaithful.ended, hfaithful.acknowledged]
  cases hended : run.cursor.endOfStream with
  | none => simp [isFullyDelivered, hended]
  | some finalSequence =>
    have hproduced := (hfaithful.valid.finished finalSequence hended).1
    have htiling := hfaithful.valid.tiling
    rw [hproduced, framesThrough_some] at htiling
    have hle := htiling.le
    simp only [isFullyDelivered, hended, Bool.and_eq_true, decide_eq_true_eq, List.isEmpty_iff,
      Option.map_some, Option.some.injEq, exists_eq_left', List.mem_range]
    constructor
    · rintro ⟨hacknowledged, _⟩ frame hframe
      rw [hacknowledged, framesThrough_some]
      omega
    · intro hall
      have hlast := hall finalSequence.get le_rfl
      have hcount : framesThrough run.cursor.acknowledgedThrough = finalSequence.get + 1 := by omega
      refine ⟨framesThrough_eq_succ hcount, ?_⟩
      rw [hcount] at htiling
      cases hsegments : run.cursor.segments with
      | nil => rfl
      | cons =>
        rw [hsegments] at htiling
        obtain ⟨hfirst, hordered, hrest⟩ := tiles_cons.mp htiling
        have := hrest.le
        omega

theorem Faithful.produced_le_ended {final frame : Nat}
    (hfaithful : run.Faithful) (hended : run.ended = some final)
    (hframe : frame ∈ run.produced) :
    frame ≤ final := by
  rw [hfaithful.ended] at hended
  obtain ⟨sequence, hsequence, rfl⟩ := Option.map_eq_some_iff.mp hended
  have hlast := (hfaithful.valid.finished sequence hsequence).1
  rw [hfaithful.produced, hlast, framesThrough_some, List.mem_range] at hframe
  omega

/-- The guarantees of log delivery, between two points of one run. -/
structure Lossless (before after : LogDeliveryRun) : Prop where
  valid : after.cursor.validate = .ok ()
  produced :
    after.produced = List.range (framesThrough after.cursor.producedThrough)
  acknowledged :
    after.acknowledged = List.range (framesThrough after.cursor.acknowledgedThrough)
  covered :
    after.acknowledged ++ after.cursor.segments.flatMap frames = after.produced
  producedMonotone :
    framesThrough before.cursor.producedThrough ≤ framesThrough after.cursor.producedThrough
  acknowledgedMonotone :
    framesThrough before.cursor.acknowledgedThrough ≤ framesThrough after.cursor.acknowledgedThrough
  sealedInit :
    ∀ segment ∈ after.cursor.segments.dropLast, segment.isSealed = true
  closed :
    before.ended.isSome = true → after.produced = before.produced ∧ ∀ publication enqueuedAt,
          after.cursor.perform (.recordSegment publication enqueuedAt) =
            (.error .logStreamClosed, after.cursor)
  bounded : retainedBytes after.cursor.segments ≤ maxLogSpoolContentBytes
  fullyDelivered :
    after.cursor.isFullyDelivered = true ↔ ∃ final, after.ended = some final ∧
        ∀ frame ≤ final, frame ∈ after.acknowledged

theorem Faithful.covered (hfaithful : run.Faithful) :
    run.acknowledged ++ run.cursor.segments.flatMap frames = run.produced := by
  have htiling := hfaithful.valid.tiling
  have hle := htiling.le
  have hframes := htiling.flatMap_positions
  have hjoin := List.range'_append_1 (s := 0) (m := framesThrough run.cursor.acknowledgedThrough)
    (n := framesThrough run.cursor.producedThrough - framesThrough run.cursor.acknowledgedThrough)
  rw [Nat.zero_add, ← List.range_eq_range', Nat.add_sub_cancel' hle,
    ← List.range_eq_range'] at hjoin
  rw [hfaithful.acknowledged, hfaithful.produced, ← hjoin, ← hframes]
  rfl

theorem run_lossless (streamId : LogStreamId) (earlier later : List CursorCall)
    (hcalls : ∀ call ∈ earlier ++ later, call.Admissible streamId) :
    Lossless ((initial streamId).after earlier) ((initial streamId).after (earlier ++ later)) := by
  rw [List.forall_mem_append] at hcalls
  have hbefore := (initial_faithful streamId).after hcalls.1
  have hstream : ((initial streamId).after earlier).cursor.streamId =
      streamId := after_streamId _ earlier
  have hafter := hbefore.after (hstream.symm ▸ hcalls.2)
  have hextends := hbefore.extends_after (hstream.symm ▸ hcalls.2)
  have hjoin : (initial streamId).after (earlier ++ later) =
      ((initial streamId).after earlier).after later := by
    simp [LogDeliveryRun.after]
  rw [hjoin]
  refine ⟨validate_eq_ok.mpr hafter.valid, hafter.produced,
    hafter.acknowledged, hafter.covered, hextends.produced,
    hextends.acknowledged, ?_, ?_, hafter.valid.bytes,
    hafter.isFullyDelivered_iff⟩
  · exact fun segment hsegment => (hafter.valid.closedInit segment hsegment).1
  · intro hended
    rw [hbefore.ended, Option.isSome_map] at hended
    obtain ⟨finalSequence, hfinal⟩ := Option.isSome_iff_exists.mp hended
    obtain ⟨hlater, hsame⟩ := hextends.ended finalSequence hfinal
    refine ⟨?_, perform_recordSegment_closed (by simp [hlater])⟩
    rw [hafter.produced, hbefore.produced, hsame]

def sampleContent : DurableContentRef where
  kind := .logSpool
  identity := .publicContent 1 ⟨0⟩
  protectionId :=
    ⟨[97], by decide, by decide, List.forall_mem_singleton.mpr (by decide)⟩
  coherent := by decide

def sampleSegment : LogSegment where
  firstSequence := ⟨0, LogSequence.zero_bounded⟩
  lastSequence := ⟨0, LogSequence.zero_bounded⟩
  frameCount := 1
  payloadBytes := 1
  content := sampleContent
  isSealed := true
  endOfStream := true

theorem run_lossless_single_frame :
    Lossless ((initial ⟨⟨1⟩⟩).after [.recordSegment ⟨⟨⟨1⟩⟩, none, sampleSegment⟩ ⟨0⟩])
        ((initial ⟨⟨1⟩⟩).after
          ([.recordSegment ⟨⟨⟨1⟩⟩, none, sampleSegment⟩ ⟨0⟩] ++ [.acknowledgeSegment
              ⟨⟨⟨1⟩⟩, ⟨0, by decide⟩, sampleContent⟩])) ∧
      ((initial ⟨⟨1⟩⟩).after
          ([.recordSegment ⟨⟨⟨1⟩⟩, none, sampleSegment⟩ ⟨0⟩] ++ [.acknowledgeSegment
              ⟨⟨⟨1⟩⟩, ⟨0, by decide⟩, sampleContent⟩])).acknowledged =
        [0] := by
  refine ⟨run_lossless ⟨⟨1⟩⟩ _ _ ?_, by decide⟩
  simp [CursorCall.Admissible, sampleSegment]

end LogDeliveryRun

end AutomataCi
