import AutomataCi.ContiguousSpans
import AutomataCi.LogDelivery

/-!
# Valid log delivery cursors

What `LogDeliveryCursor::validate` accepts, as a proposition: the retained
segments tile the frames between the last acknowledged and the last produced
one.  Every operation of the cursor keeps it.
-/

namespace AutomataCi

open GuardedResult FallibleState ContiguousSpans

namespace LogSegment

structure Valid (segment : LogSegment) : Prop where
  content : validateLogContent segment.content = .ok ()
  ordered : segment.firstSequence.get ≤ segment.lastSequence.get
  nonempty : segment.content.accountedBytes ≠ 0
  frames :
    segment.frameCount = segment.lastSequence.get - segment.firstSequence.get + 1
  framesBounded : segment.frameCount ≤ maxLogSegmentFrames
  payload :
    segment.payloadBytes ≤ maxLogSpoolContentBytes ∧
      segment.payloadBytes ≤ segment.content.accountedBytes
  sealedAtEnd : segment.endOfStream = true → segment.isSealed = true

variable {segment : LogSegment}

theorem expectedFrames_eq_some {frames : Nat} :
    segment.expectedFrames = some frames ↔ segment.firstSequence.get ≤ segment.lastSequence.get ∧
        segment.lastSequence.get - segment.firstSequence.get + 1 < 2 ^ 64 ∧
        frames = segment.lastSequence.get - segment.firstSequence.get + 1 := by
  unfold expectedFrames
  split <;> simp_all [eq_comm]

theorem validate_eq_ok {result : Unit} : segment.validate = .ok result ↔ segment.Valid := by
  simp only [validate, bind_eq_ok, okOr_eq_ok, expectedFrames_eq_some, rejectIf_eq_ok,
    validateLogContent, exists_const, not_or, not_and, not_lt, not_not, Bool.not_eq_false]
  constructor
  · rintro ⟨hcontent, frames, ⟨hordered, _, rfl⟩, hnonempty, _, hbound,
      hframes, hpayload, hplain, hsealed⟩
    exact ⟨by simpa [validateLogContent] using hcontent, hordered, hnonempty,
      hframes, hbound, ⟨hpayload, hplain⟩, hsealed⟩
  · intro hvalid
    have hbound := hvalid.framesBounded
    have hframes := hvalid.frames
    simp only [maxLogSegmentFrames] at hbound
    exact ⟨by simpa [validateLogContent] using hvalid.content,
      segment.frameCount, ⟨hvalid.ordered, by omega, hframes⟩,
      hvalid.nonempty, by omega, hvalid.framesBounded, rfl,
      hvalid.payload.1, hvalid.payload.2, hvalid.sealedAtEnd⟩

theorem Valid.markSealed (hvalid : segment.Valid) : segment.markSealed.Valid :=
  ⟨hvalid.content, hvalid.ordered, hvalid.nonempty, hvalid.frames,
    hvalid.framesBounded, hvalid.payload, fun _ => rfl⟩

def first (segment : LogSegment) : Nat :=
  segment.firstSequence.get

def last (segment : LogSegment) : Nat :=
  segment.lastSequence.get

end LogSegment

namespace LogDeliveryCursor

/-- The number of frames up to and including a position, zero without one. -/
def framesThrough (position : Option LogSequence) : Nat :=
  position.elim 0 fun sequence => sequence.get + 1

@[simp] theorem framesThrough_none : framesThrough none = 0 := rfl

@[simp] theorem framesThrough_some (sequence : LogSequence) :
    framesThrough (some sequence) = sequence.get + 1 := rfl

theorem framesThrough_injective : Function.Injective framesThrough := by
  intro left right heq
  cases left <;> cases right <;> simp [framesThrough] at heq ⊢
  ext
  exact heq

theorem framesThrough_eq_succ {position : Option LogSequence} {sequence : LogSequence}
    (heq : framesThrough position = sequence.get + 1) :
    position = some sequence :=
  framesThrough_injective heq

abbrev Tiling : Nat → List LogSegment → Nat → Prop :=
  Tiles LogSegment.first LogSegment.last

def retainedBytes (segments : List LogSegment) : Nat :=
  (segments.map fun segment => segment.content.accountedBytes).sum

/-- What `validate` checks. -/
structure Valid (cursor : LogDeliveryCursor) : Prop where
  segmentCount : cursor.segments.length ≤ maxLogSegmentsPerSlot
  enqueuedCount :
    cursor.segmentEnqueuedAt.length = cursor.segments.length
  enqueuedAt :
    ∀ enqueuedAt ∈ cursor.segmentEnqueuedAt, validateDeliveryEnqueuedAt enqueuedAt = .ok ()
  acknowledgement :
    ∀ acknowledgement ∈ cursor.lastAcknowledgement, acknowledgement.validate = .ok () ∧
        acknowledgement.streamId = cursor.streamId
  segmentsValid :
    ∀ segment ∈ cursor.segments, segment.Valid ∧ segment.lastSequence.get + 1 < 2 ^ 64
  tiling :
    Tiling (framesThrough cursor.acknowledgedThrough) cursor.segments
      (framesThrough cursor.producedThrough)
  closedInit :
    ∀ segment ∈ cursor.segments.dropLast, segment.isSealed = true ∧ segment.endOfStream = false
  bytes : retainedBytes cursor.segments ≤ maxLogSpoolContentBytes
  finished :
    ∀ finalSequence ∈ cursor.endOfStream, cursor.producedThrough = some finalSequence ∧
        ∀ segment ∈ cursor.segments.getLast?, segment.endOfStream = true
  ending :
    ∀ segment ∈ cursor.segments, segment.endOfStream = true →
      cursor.endOfStream = some segment.lastSequence

variable {segments : List LogSegment} {expected : LogSequence}
  {acknowledged produced : Option LogSequence} {cursor : LogDeliveryCursor}

theorem validateSegments_eq_ok {total result : Nat} :
    validateSegments expected total segments = .ok result ↔ (∀ segment ∈ segments,
        segment.Valid ∧ segment.lastSequence.get + 1 < 2 ^ 64) ∧
      (∃ stop, Tiling expected.get segments stop) ∧
      (∀ segment ∈ segments.dropLast, segment.isSealed = true ∧ segment.endOfStream = false) ∧
      result = total + retainedBytes segments ∧
      (segments = [] ∨ result < 2 ^ 64) := by
  induction segments generalizing expected total with
  | nil => simp [validateSegments, retainedBytes, eq_comm (a := result)]
  | cons segment rest ih =>
    have hbytes : retainedBytes (segment :: rest) =
        segment.content.accountedBytes + retainedBytes rest := by
      simp [retainedBytes]
    have hdropLast :
        (∀ other ∈ (segment :: rest).dropLast, other.isSealed = true ∧ other.endOfStream = false) ↔
        (rest ≠ [] → segment.isSealed = true ∧ segment.endOfStream = false) ∧
        ∀ other ∈ rest.dropLast, other.isSealed = true ∧ other.endOfStream = false := by
      cases rest <;> simp
    simp only [validateSegments, bind_eq_ok, rejectIf_eq_ok, okOr_eq_ok,
      LogSequence.checkedNext_eq_some, ih, LogSegment.validate_eq_ok,
      exists_const, hdropLast, hbytes, List.forall_mem_cons, tiles_cons]
    constructor
    · rintro ⟨hsegment, hshape, next, hnext, hbound, hrest, ⟨stop, htiles⟩, hclosed, rfl, hsum⟩
      simp only [not_or, not_and, not_not] at hshape
      refine ⟨⟨⟨hsegment, hnext ▸ next.bounded⟩, hrest⟩,
        ⟨stop, congrArg LogSequence.get hshape.1, hsegment.ordered, ?_⟩,
        ⟨?_, hclosed⟩, by omega, Or.inr ?_⟩
      · have hlast : next.get = segment.last + 1 := hnext
        rwa [hlast] at htiles
      · intro hrest
        refine ⟨?_, ?_⟩ <;> by_contra hflag
        · exact hrest (hshape.2.1 (by simpa using hflag))
        · exact hrest (hshape.2.2 (by simpa using hflag))
      · rcases hsum with rfl | hsum
        · simp only [retainedBytes, List.map_nil, List.sum_nil]
          omega
        · exact hsum
    · rintro ⟨⟨⟨hsegment, hlast⟩, hrest⟩, ⟨stop, hfirst, _, htiles⟩, ⟨hclosed, hinit⟩, rfl, hsum⟩
      have hsum : total + (segment.content.accountedBytes + retainedBytes rest) < 2 ^ 64 := by
        simpa using hsum
      refine ⟨hsegment, ?_, ⟨_, hlast⟩, rfl, by omega, hrest,
        ⟨stop, htiles⟩, hinit, by omega, Or.inr hsum⟩
      simp only [not_or, not_and, not_not]
      refine ⟨LogSequence.ext hfirst, ?_, ?_⟩ <;> intro hflag <;> by_contra hnonempty
      · simp [hflag] at hclosed
        exact hnonempty hclosed
      · simp [hflag] at hclosed
        exact hnonempty hclosed

theorem Tiling.of_durableLast {start stop : Nat} (htiles : Tiling start segments stop)
    (hstart : segments ≠ [] → start = framesThrough acknowledged)
    (hproduced : produced = (segments.getLast?.map LogSegment.lastSequence).or acknowledged) :
    Tiling (framesThrough acknowledged) segments (framesThrough produced) := by
  subst hproduced
  rcases List.eq_nil_or_concat' segments with rfl | ⟨front, segment, rfl⟩
  · simp
  · rw [hstart (by simp)] at htiles
    obtain ⟨hfront, hordered, _⟩ := tiles_concat.mp htiles
    refine tiles_concat.mpr ⟨hfront, hordered, ?_⟩
    simp [framesThrough, LogSegment.last]

theorem Tiling.producedThrough
    (htiles : Tiling (framesThrough acknowledged) segments (framesThrough produced)) :
    produced = (segments.getLast?.map LogSegment.lastSequence).or acknowledged := by
  rcases List.eq_nil_or_concat' segments with rfl | ⟨front, segment, rfl⟩
  · simpa using (framesThrough_injective (tiles_nil.mp htiles)).symm
  · obtain ⟨_, _, hstop⟩ := tiles_concat.mp htiles
    simpa using framesThrough_eq_succ hstop

theorem expectedHead_eq_ok (hnonempty : cursor.segments ≠ []) :
    cursor.expectedHead = .ok expected ↔
      expected.get = framesThrough cursor.acknowledgedThrough := by
  have hempty : cursor.segments.isEmpty = false := by simpa using hnonempty
  cases hack : cursor.lastAcknowledgement with
  | none =>
    simp only [expectedHead, hack, hempty, acknowledgedThrough,
      framesThrough, Option.map_none, Option.elim_none, Except.ok.injEq]
    constructor
    · rintro rfl
      rfl
    · intro hget
      ext
      exact hget.symm
  | some =>
    simp only [expectedHead, hack, hempty, okOr_eq_ok, LogSequence.checkedNext_eq_some,
      acknowledgedThrough, framesThrough, Option.map_some, Option.elim_some]

theorem validate_eq_ok {result : Unit} : cursor.validate = .ok result ↔ cursor.Valid := by
  simp only [validate, bind_eq_ok, rejectIf_eq_ok, exists_const, forM_eq_ok,
    ifPresent_eq_ok, exists_and_right, exists_eq_ok_unit,
    validateSegments_eq_ok, not_or, not_lt, not_not, not_exists, not_and]
  constructor
  · rintro ⟨hcount, henqueued, htimes, hack, expected, hexpected, total, ⟨hsegments, ⟨stop, htiles⟩,
      hclosed, rfl, _⟩, hbytes, hproduced, hfinished, hending⟩
    refine ⟨hcount, henqueued, htimes, hack, hsegments, ?_, hclosed, by simpa using hbytes, ?_, ?_⟩
    · refine htiles.of_durableLast ?_ hproduced
      intro hnonempty
      exact (expectedHead_eq_ok hnonempty).mp hexpected
    · intro finalSequence hfinal
      refine ⟨(hfinished finalSequence hfinal).1, ?_⟩
      intro segment hsegment
      simpa using (hfinished finalSequence hfinal).2 segment hsegment
    · intro segment hsegment hends
      exact (hending segment hsegment hends).symm
  · intro hvalid
    have hbytes := hvalid.bytes
    simp only [maxLogSpoolContentBytes] at hbytes
    have hexpected : ∃ expected, cursor.expectedHead = .ok expected ∧
        ∃ stop, Tiling expected.get cursor.segments stop := by
      by_cases hempty : cursor.segments = []
      · refine ⟨⟨0, by decide⟩, ?_, 0, by simp [hempty]⟩
        cases hack : cursor.lastAcknowledgement <;> simp [expectedHead, hempty, hack]
      · have hstart : framesThrough cursor.acknowledgedThrough < 2 ^ 64 := by
          obtain ⟨segment, rest, hsplit⟩ := List.exists_cons_of_ne_nil hempty
          have htiling := hvalid.tiling
          rw [hsplit] at htiling
          have hfirst := (tiles_cons.mp htiling).1
          rw [← hfirst]
          exact segment.firstSequence.bounded
        exact ⟨⟨_, hstart⟩, (expectedHead_eq_ok hempty).mpr rfl, _, hvalid.tiling⟩
    obtain ⟨expected, hexpected, stop, htiles⟩ := hexpected
    refine ⟨hvalid.segmentCount, hvalid.enqueuedCount, hvalid.enqueuedAt,
      hvalid.acknowledgement, expected, hexpected,
      _, ⟨hvalid.segmentsValid, ⟨stop, htiles⟩, hvalid.closedInit, rfl, ?_⟩,
      ?_, ?_, ?_, ?_⟩
    · right
      omega
    · simpa using hvalid.bytes
    · exact hvalid.tiling.producedThrough
    · intro finalSequence hfinal
      refine ⟨(hvalid.finished finalSequence hfinal).1, ?_⟩
      intro segment hsegment
      simpa using (hvalid.finished finalSequence hfinal).2 segment hsegment
    · intro segment hsegment hends
      exact (hvalid.ending segment hsegment hends).symm

end LogDeliveryCursor

end AutomataCi
