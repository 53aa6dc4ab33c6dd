import AutomataCi.DurableContent

/-!
# Log delivery cursor

The segmented log stream of one slot: segments are recorded at the tail, the
tail may be replaced by a longer object while it is open, it is sealed, and
acknowledgements remove sealed segments from the head.
-/

namespace AutomataCi

open GuardedResult FallibleState

def maxLogSpoolContentBytes : Nat :=
  256 * 1024 * 1024

def maxLogSegmentsPerSlot : Nat :=
  128

def maxLogSegmentFrames : Nat :=
  4096

def validateLogContent (content : DurableContentRef) : Except JournalInvariantError Unit :=
  rejectIf (content.kind ≠ .logSpool ∨
    maxLogSpoolContentBytes < content.accountedBytes) .invalidLogSpoolContent

structure LogSegment where
  (firstSequence lastSequence : LogSequence)
  (frameCount payloadBytes : Nat)
  content : DurableContentRef
  (isSealed endOfStream : Bool)
  deriving DecidableEq

namespace LogSegment

variable (segment : LogSegment)

/-- The frames between the first and the last sequence, absent when the range
is reversed or its length does not fit 64 bits. -/
def expectedFrames : Option Nat :=
  if segment.firstSequence.get ≤ segment.lastSequence.get ∧
      segment.lastSequence.get - segment.firstSequence.get + 1 < 2 ^ 64 then
    some (segment.lastSequence.get - segment.firstSequence.get + 1)
  else
    none

def validate : Except JournalInvariantError Unit := do
  validateLogContent segment.content
  let expectedFrames ← okOr segment.expectedFrames .invalidLogSegment
  rejectIf (segment.content.accountedBytes = 0 ∨ segment.frameCount = 0 ∨
      maxLogSegmentFrames < segment.frameCount ∨
      segment.frameCount ≠ expectedFrames ∨
      maxLogSpoolContentBytes < segment.payloadBytes ∨
      segment.content.accountedBytes < segment.payloadBytes ∨
      (segment.endOfStream = true ∧ segment.isSealed = false))
    .invalidLogSegment

def markSealed : LogSegment :=
  { segment with isSealed := true }

end LogSegment

/-- A new tail object and the open object it replaces, if any. -/
structure LogSegmentPublication where
  streamId : LogStreamId
  previousOpenContent : Option DurableContentRef
  segment : LogSegment
  deriving DecidableEq

structure LogSegmentAcknowledgement where
  streamId : LogStreamId
  through : LogSequence
  headContent : DurableContentRef
  deriving DecidableEq

def LogSegmentAcknowledgement.validate (acknowledgement : LogSegmentAcknowledgement) :
    Except JournalInvariantError Unit :=
  validateLogContent acknowledgement.headContent

structure LogDeliveryCursor where
  streamId : LogStreamId
  segments : List LogSegment
  segmentEnqueuedAt : List UnixMillis
  (producedThrough endOfStream : Option LogSequence)
  lastAcknowledgement : Option LogSegmentAcknowledgement
  deriving DecidableEq

namespace LogDeliveryCursor

abbrev CursorM : Type → Type :=
  FallibleM LogDeliveryCursor JournalInvariantError

def new (streamId : LogStreamId) : LogDeliveryCursor where
  streamId
  segments := []
  segmentEnqueuedAt := []
  producedThrough := none
  endOfStream := none
  lastAcknowledgement := none

variable (self : LogDeliveryCursor)

def openSegment : Option LogSegment :=
  self.segments.getLast?.filter fun segment => !segment.isSealed

def acknowledgedThrough : Option LogSequence :=
  self.lastAcknowledgement.map LogSegmentAcknowledgement.through

def isFullyDelivered : Bool :=
  match self.endOfStream with
  | some finalSequence => self.acknowledgedThrough = some finalSequence && self.segments.isEmpty
  | none => false

/-- The retained bytes, saturating at the end of the 64-bit range. -/
def backlogContentBytes : Nat :=
  self.segments.foldl (fun total segment =>
      min (total + segment.content.accountedBytes) (2 ^ 64 - 1)) 0

def expectedFirst : Except JournalInvariantError LogSequence :=
  match self.producedThrough with
  | none => .ok ⟨0, LogSequence.zero_bounded⟩
  | some sequence => okOr sequence.checkedNext .counterExhausted

def checkReplacement (current : LogSegment)
    (previous : DurableContentRef) (candidate : LogSegment) :
    Except JournalInvariantError Unit := do
  rejectIf (current.isSealed = true ∨ current.content ≠ previous) .logSegmentMutationConflict
  let expectedLast ← okOr current.lastSequence.checkedNext .counterExhausted
  rejectIf (candidate.firstSequence ≠ current.firstSequence ∨
      candidate.lastSequence ≠ expectedLast ∨
      candidate.frameCount ≠ min (current.frameCount + 1) (2 ^ 32 - 1) ∨
      candidate.payloadBytes < current.payloadBytes ∨
      candidate.content.accountedBytes ≤ current.content.accountedBytes)
    .invalidLogSegment
  rejectIf (self.backlogContentBytes < current.content.accountedBytes ∨
      2 ^ 64 ≤ self.backlogContentBytes - current.content.accountedBytes +
        candidate.content.accountedBytes) .logBacklogLimit
  rejectIf (maxLogSpoolContentBytes < self.backlogContentBytes - current.content.accountedBytes +
        candidate.content.accountedBytes) .logBacklogLimit

def checkAppend (expectedFirst : LogSequence) (candidate : LogSegment) (enqueuedAt : UnixMillis) :
    Except JournalInvariantError Unit := do
  validateDeliveryEnqueuedAt enqueuedAt
  rejectIf (self.openSegment.isSome = true ∨ candidate.firstSequence ≠ expectedFirst ∨
      candidate.firstSequence ≠ candidate.lastSequence ∨
      candidate.frameCount ≠ 1) .invalidLogSegment
  rejectIf (maxLogSegmentsPerSlot ≤ self.segments.length) .logSegmentLimit
  rejectIf (2 ^ 64 ≤ self.backlogContentBytes + candidate.content.accountedBytes) .logBacklogLimit
  rejectIf (maxLogSpoolContentBytes < self.backlogContentBytes + candidate.content.accountedBytes)
    .logBacklogLimit

/-- Put the candidate of a publication into the segment list: in place of the
open tail it names, or after the last segment. -/
def placeSegment (publication : LogSegmentPublication)
    (expectedFirst : LogSequence) (enqueuedAt : UnixMillis) :
    CursorM Unit := do
  let self ← get
  let candidate := publication.segment
  match publication.previousOpenContent with
  | some previous =>
    let current ← check (okOr self.segments.getLast? .logSegmentMutationConflict)
    check (self.checkReplacement current previous candidate)
    modify fun self =>
      { self with segments := self.segments.dropLast ++ [candidate] }
  | none =>
    check (self.checkAppend expectedFirst candidate enqueuedAt)
    modify fun self =>
      { self with segments := self.segments ++ [candidate] }
    modify fun self =>
      { self with
        segmentEnqueuedAt := self.segmentEnqueuedAt ++ [enqueuedAt] }

/-- Move the produced cursor, and close the stream after its last segment. -/
def markProduced (candidate : LogSegment) : CursorM Unit := do
  modify fun self =>
    { self with producedThrough := some candidate.lastSequence }
  if candidate.endOfStream then
    modify fun self =>
      { self with endOfStream := some candidate.lastSequence }

def recordSegment (publication : LogSegmentPublication)
    (enqueuedAt : UnixMillis) : CursorM Unit := do
  let self ← get
  check (rejectIf (self.endOfStream.isSome = true) .logStreamClosed)
  check publication.segment.validate
  let expectedFirst ← check self.expectedFirst
  placeSegment publication expectedFirst enqueuedAt
  markProduced publication.segment

def sealSegment (expectedContent : DurableContentRef) : CursorM Bool := do
  let self ← get
  let tail ← check (okOr self.segments.getLast? .logSegmentMutationConflict)
  check (rejectIf (tail.content ≠ expectedContent) .logSegmentMutationConflict)
  if tail.isSealed then
    return false
  else
    modify fun self =>
      { self with segments := self.segments.dropLast ++ [tail.markSealed] }
    return true

/-- The replay test of `acknowledge_segment`: an acknowledgement at or below
the last one is either that one again or a conflict. -/
def isReplayedAcknowledgement (self : LogDeliveryCursor)
    (acknowledgement : LogSegmentAcknowledgement) :
    Except JournalInvariantError Bool :=
  match self.lastAcknowledgement with
  | some previous =>
    if acknowledgement.through.get ≤ previous.through.get then
      if previous = acknowledgement then .ok true
      else .error .logAcknowledgementConflict
    else .ok false
  | none => .ok false

def acknowledgeSegment (acknowledgement : LogSegmentAcknowledgement) : CursorM Bool := do
  let self ← get
  let replayed ← check (self.isReplayedAcknowledgement acknowledgement)
  if replayed then
    return false
  else
    let head ← check (okOr self.segments.head? .invalidLogAcknowledgement)
    check (rejectIf (head.isSealed = false ∨ head.lastSequence ≠ acknowledgement.through ∨
        head.content ≠ acknowledgement.headContent)
      .logAcknowledgementConflict)
    modify fun self => { self with segments := self.segments.tail }
    modify fun self =>
      { self with segmentEnqueuedAt := self.segmentEnqueuedAt.tail }
    modify fun self =>
      { self with lastAcknowledgement := some acknowledgement }
    return true

def expectedHead (self : LogDeliveryCursor) : Except JournalInvariantError LogSequence :=
  match self.lastAcknowledgement, self.segments.isEmpty with
  | _, true => .ok ⟨0, by decide⟩
  | none, false => .ok ⟨0, by decide⟩
  | some acknowledgement, false => okOr acknowledgement.through.checkedNext .decodedStateInvalid

/-- One pass over the retained segments, with the next expected sequence and
the bytes so far; the result is the total of the bytes. -/
def validateSegments (expected : LogSequence) (total : Nat) :
    List LogSegment → Except JournalInvariantError Nat
  | [] => .ok total
  | segment :: rest => do
      segment.validate
      rejectIf (segment.firstSequence ≠ expected ∨ (segment.isSealed = false ∧ rest ≠ []) ∨
          (segment.endOfStream = true ∧ rest ≠ [])) .decodedStateInvalid
      let next ← okOr segment.lastSequence.checkedNext .decodedStateInvalid
      rejectIf (2 ^ 64 ≤ total + segment.content.accountedBytes) .decodedStateInvalid
      validateSegments next (total + segment.content.accountedBytes) rest

/-- The last frame which is durable, in a retained segment or by its
acknowledgement. -/
def durableLast (self : LogDeliveryCursor) : Option LogSequence :=
  (self.segments.getLast?.map LogSegment.lastSequence).or
    (self.lastAcknowledgement.map LogSegmentAcknowledgement.through)

def validate (self : LogDeliveryCursor) : Except JournalInvariantError Unit := do
  rejectIf (maxLogSegmentsPerSlot < self.segments.length) .decodedCollectionLimit
  rejectIf (self.segmentEnqueuedAt.length ≠ self.segments.length) .decodedStateInvalid
  self.segmentEnqueuedAt.forM validateDeliveryEnqueuedAt
  ifPresent self.lastAcknowledgement fun acknowledgement => do
    acknowledgement.validate
    rejectIf (acknowledgement.streamId ≠ self.streamId) .decodedStateInvalid
  let expected ← self.expectedHead
  let total ← validateSegments expected 0 self.segments
  rejectIf (maxLogSpoolContentBytes < total) .decodedCollectionLimit
  rejectIf (self.producedThrough ≠ self.durableLast ∨ (∃ finalSequence ∈ self.endOfStream,
        self.producedThrough ≠ some finalSequence ∨
          ∃ segment ∈ self.segments.getLast?, segment.endOfStream = false) ∨
      (∃ segment ∈ self.segments, segment.endOfStream = true ∧
        some segment.lastSequence ≠ self.endOfStream))
    .decodedStateInvalid

end LogDeliveryCursor

end AutomataCi
