import AutomataCi.FallibleState
import AutomataCi.WorkflowCommands

/-!
# Masking the output of a step

The sink of one phase cuts the records of two pipes into lines, hands each
line to the workflow command session, and sends what is left to the log with
every registered secret replaced.  A secret is registered together with each
of its lines which is not blank.  Lines are masked one at a time, and the log
is read as one text, so the guarantee is about the concatenation of all that
is sent on a channel.
-/

namespace AutomataCi

open FallibleState GuardedResult SubstringSearch TextOperations

inductive ExecutorAdapterErrorKind where
  | invalidJob
  | unsupported
  | resourceExhausted
  | permissionDenied
  | unavailable
  | timedOut
  | cancelled
  | internal
  deriving DecidableEq, Repr

abbrev Mask :=
  { bytes : Bytes // bytes ≠ [] }

def Mask.ofText (text : Text) (htext : text ≠ []) : Mask :=
  ⟨utf8Bytes text, utf8Bytes_ne_nil htext⟩

theorem ne_nil_of_mem_nonBlankLines {value : Text} : ∀ line ∈ nonBlankLines value, line ≠ [] := by
  intro line hline
  exact of_decide_eq_true (List.mem_filter.mp hline).2

def lineMasks (value : Text) : List Mask :=
  (nonBlankLines value).pmap Mask.ofText ne_nil_of_mem_nonBlankLines

inductive SecretExposureClass where
  | secretless | capabilityOnly | readableSecret
  deriving DecidableEq, Repr

def maxMasks : Nat :=
  4096

def maxMaskBytes : Nat :=
  1048576

def maskReplacement : Bytes :=
  [42, 42, 42]

/-- The registered masks with the automaton last built for them. -/
structure SecretMasker where
  masks : List Mask
  aggregateBytes : Nat
  matcher : Option (List Mask)
  exposure : SecretExposureClass
  nodup : masks.Nodup
  aggregateBytes_eq :
    aggregateBytes = (masks.map fun mask => mask.val.length).sum
  length_le : masks.length ≤ maxMasks
  aggregateBytes_le : aggregateBytes ≤ maxMaskBytes
  matcher_eq : ∀ patterns, matcher = some patterns → patterns = masks

abbrev MaskerM :=
  FallibleM SecretMasker ExecutorAdapterErrorKind

namespace SecretMasker

def new : SecretMasker where
  masks := []
  aggregateBytes := 0
  matcher := none
  exposure := .secretless
  nodup := List.nodup_nil
  aggregateBytes_eq := rfl
  length_le := Nat.zero_le _
  aggregateBytes_le := Nat.zero_le _
  matcher_eq := fun _ hmatcher => nomatch hmatcher

variable (masker : SecretMasker)

def expose : SecretMasker :=
  { masker with exposure := .readableSecret }

def insert (mask : Mask) (hfresh : mask ∉ masker.masks)
    (hcount : masker.masks.length + 1 ≤ maxMasks)
    (hbytes : masker.aggregateBytes + mask.val.length ≤ maxMaskBytes) :
    SecretMasker where
  masks := mask :: masker.masks
  aggregateBytes := masker.aggregateBytes + mask.val.length
  matcher := none
  exposure := masker.exposure
  nodup := List.nodup_cons.mpr ⟨hfresh, masker.nodup⟩
  aggregateBytes_eq := by
    rw [List.map_cons, List.sum_cons, masker.aggregateBytes_eq, Nat.add_comm]
  length_le := hcount
  aggregateBytes_le := hbytes
  matcher_eq := fun _ hmatcher => nomatch hmatcher

def withMatcher : SecretMasker :=
  { masker with
    matcher := some masker.masks
    matcher_eq := fun _ hmatcher => (Option.some.inj hmatcher).symm }

def registerBytes (value : Mask) : MaskerM Unit := do
  let masker ← get
  if hknown : value ∈ masker.masks then pure ()
  else if hlimits : masker.masks.length + 1 ≤ maxMasks ∧
      masker.aggregateBytes + value.val.length ≤ maxMaskBytes then
    modify fun _ => masker.insert value hknown hlimits.1 hlimits.2
  else check (.error .resourceExhausted)

def register (value : Text) : MaskerM Unit :=
  if hvalue : value = [] then pure ()
  else do
    modify expose
    registerBytes (Mask.ofText value hvalue)
    (lineMasks value).forM registerBytes

variable (builds : List Mask → Bool)

/-- The automaton for the masks, built when a mask was added since.  The
builder has limits of its own. -/
def currentMatcher : MaskerM (List Mask) := do
  let masker ← get
  match masker.matcher with
  | some patterns => pure patterns
  | none =>
    check (rejectIf (builds masker.masks = false) .resourceExhausted)
    modify withMatcher
    pure masker.masks

def patternsOf (masks : List Mask) : List Bytes :=
  masks.map Subtype.val

def replaceMatch (source : Bytes) (output : Bytes × Nat) (span : Nat × Nat) : Bytes × Nat :=
  (output.1 ++ (source.drop output.2).take (span.1 - output.2) ++ maskReplacement, span.2)

def replaceMatches (patterns : List Bytes) (source : Bytes) : Bytes :=
  let (output, cursor) :=
    (findIter patterns source).foldl (replaceMatch source) ([], 0)
  output ++ source.drop cursor

def maskWith (patterns : List Bytes) (source : Bytes) : Bytes :=
  if find patterns source = none then source
  else
    let output := replaceMatches patterns source
    if find patterns output = none then output
    else if find patterns maskReplacement = none then maskReplacement
    else []

def mask (source : Bytes) : MaskerM Bytes := do
  let masker ← get
  if source = [] ∨ masker.masks = [] then pure source
  else
    let patterns ← currentMatcher builds
    pure (maskWith (patternsOf patterns) source)

/-- A registered secret and each of its lines which is not blank is a
mask. -/
def Registered (masker : SecretMasker) (secret : Text) : Prop :=
  ∀ word ∈ secret :: nonBlankLines secret, utf8Bytes word ∈ patternsOf masker.masks

instance (masker : SecretMasker) (secret : Text) : Decidable (masker.Registered secret) :=
  inferInstanceAs (Decidable (∀ _ ∈ _, _))

end SecretMasker

inductive ExecutionOutputStream where
  | stdout | stderr
  deriving DecidableEq, Repr

structure ExecutionOutputRecord where
  stream : ExecutionOutputStream
  bytes : Bytes
  endOfStream : Bool
  deriving DecidableEq, Repr

inductive LogChannel where
  | stdout | stderr | system
  deriving DecidableEq, Repr

def ExecutionOutputStream.channel : ExecutionOutputStream → LogChannel
  | .stdout => .stdout
  | .stderr => .stderr

structure LogEvent where
  groupId : String
  channel : LogChannel
  payload : Bytes
  deriving DecidableEq, Repr

def maxLogFrameBytes : Nat :=
  1048576

/-- What a sink is given, and what it cannot decide: whether the automaton
builder and the log take what they are given, and when the attempt is
cancelled. -/
structure OutputEnvironment where
  limits : WorkflowCommandLimits
  policy : WorkflowCommandPolicy
  groupId : String
  builds : List Mask → Bool
  accepts : List LogEvent → Bool
  cancellation : Nat → Bool

/-- The state of a sink.  The registrations are a record of this development:
each secret which a line registered, with the number of events sent to the log
before.  The cancellation checks are counted for the same reason. -/
structure PhaseOutputState where
  session : ActionsWorkflowCommandSession
  (stdout stderr : Bytes)
  masker : SecretMasker
  events : List LogEvent
  annotations : List Annotation
  failure : Option ExecutorAdapterErrorKind
  finished : Bool
  checks : Nat
  registrations : List (Text × Nat)

abbrev OutputM :=
  FallibleM PhaseOutputState ExecutorAdapterErrorKind

/-- Cut a text into chunks, of which only the last may be shorter. -/
def chunksWithin (size : Nat) : Nat → Bytes → List Bytes
  | 0, _ => []
  | fuel + 1, text =>
    if text = [] then []
    else text.take size :: chunksWithin size fuel (text.drop size)

def chunks (size : Nat) (text : Bytes) : List Bytes :=
  chunksWithin size text.length text

namespace PhaseOutputState

def new (environment : OutputEnvironment) (masker : SecretMasker) : PhaseOutputState :=
  { session := .new environment.limits environment.policy
    stdout := []
    stderr := []
    masker
    events := []
    annotations := []
    failure := none
    finished := false
    checks := 0
    registrations := [] }

def buffer (state : PhaseOutputState) : ExecutionOutputStream → Bytes
  | .stdout => state.stdout
  | .stderr => state.stderr

def withBuffer (state : PhaseOutputState) (stream : ExecutionOutputStream)
    (bytes : Bytes) : PhaseOutputState :=
  match stream with
  | .stdout => { state with stdout := bytes }
  | .stderr => { state with stderr := bytes }

def onMasker {α : Type} (action : MaskerM α) : OutputM α :=
  focus masker (fun state masker => { state with masker }) action

def registerSecret (secret : Text) : OutputM Unit := do
  onMasker (SecretMasker.register secret)
  modify fun state =>
    { state with
      registrations := state.registrations ++ [(secret, state.events.length)] }

def registerDynamicMasks : WorkflowLine → OutputM Unit
  | .command (.registerMask masks) => masks.forM registerSecret
  | .command (.stopCommands (some tokenMask)) => registerSecret tokenMask
  | _ => pure ()

variable (environment : OutputEnvironment)

def ensureActive : OutputM Unit := do
  let state ← get
  modify fun state => { state with checks := state.checks + 1 }
  check (rejectIf (environment.cancellation state.checks = true) .cancelled)

/-- The event counts as sent also when the log refuses it. -/
def emitLog (event : LogEvent) : OutputM Unit := do
  modify fun state => { state with events := state.events ++ [event] }
  let state ← get
  check (rejectIf (environment.accepts state.events = false) .internal)

def emitPayload (payload : Bytes) (channel : LogChannel) : OutputM Unit :=
  if payload = [] then pure ()
  else
    (chunks maxLogFrameBytes payload).forM fun chunk =>
      emitLog environment ⟨environment.groupId, channel, chunk⟩

def emitLine (content : Bytes) (newline : Bool) (channel : LogChannel) : OutputM Unit := do
  let masked ← onMasker (SecretMasker.mask environment.builds content)
  emitPayload environment (if newline then masked ++ [newlineByte] else masked) channel

def emitWorkflowLine (line : WorkflowLine) (newline : Bool) (channel : LogChannel) : OutputM Unit :=
  match line with
  | .output output => emitLine environment (utf8Bytes output) newline channel
  | .command (.annotationEvent value) => do
      emitLine environment (utf8Bytes value.message) true channel
      ensureActive environment
      modify fun state =>
        { state with annotations := state.annotations ++ [value] }
  | .command (.beginGroup title) => emitLine environment (utf8Bytes title) true channel
  | .command _ => pure ()

/-- A carriage return before the newline is not part of the line. -/
def lineContent (content : Bytes) (newline : Bool) : Bytes :=
  if newline = true ∧ content.getLast? = some 13 then content.dropLast
  else content

def processLine (content : Bytes) (newline : Bool) (channel : LogChannel) : OutputM Unit := do
  ensureActive environment
  let state ← get
  let (line, session) ← check ((state.session.processLine (lineContent content newline)).mapError
      fun _ => .invalidJob)
  modify fun state => { state with session }
  registerDynamicMasks line
  emitWorkflowLine environment line newline channel
  ensureActive environment

/-- The rounds of the loop over the complete lines of a buffer. -/
def completeLines (stream : ExecutionOutputStream) : Nat → OutputM Unit
  | 0 => pure ()
  | fuel + 1 => do
      ensureActive environment
      let state ← get
      let bytes := state.buffer stream
      if newlineByte ∈ bytes then do
        let newline := bytes.idxOf newlineByte
        modify fun state => state.withBuffer stream (bytes.drop (newline + 1))
        processLine environment (bytes.take newline) true stream.channel
        completeLines stream fuel
      else pure ()

/-- Each round takes one newline out of the buffer, and one more finds
none. -/
def processCompleteLines (stream : ExecutionOutputStream) : OutputM Unit := do
  let state ← get
  completeLines environment stream ((state.buffer stream).count newlineByte + 1)

def finishStream (stream : ExecutionOutputStream) : OutputM Unit := do
  let state ← get
  let line := state.buffer stream
  modify fun state => state.withBuffer stream []
  if line = [] then pure ()
  else processLine environment line false stream.channel

def finishStreams : OutputM Unit := do
  finishStream environment .stdout
  finishStream environment .stderr

def observeData (stream : ExecutionOutputStream) (bytes : Bytes) : OutputM Unit := do
  modify fun state => state.withBuffer stream (state.buffer stream ++ bytes)
  processCompleteLines environment stream
  let state ← get
  check (rejectIf (environment.limits.maximumLineBytes < (state.buffer stream).length) .invalidJob)

def observe (record : ExecutionOutputRecord) : OutputM Unit := do
  ensureActive environment
  if record.endOfStream then finishStream environment record.stream
  else observeData environment record.stream record.bytes

end PhaseOutputState

structure PhaseOutputCompletion where
  masker : SecretMasker
  annotations : List Annotation
  failure : Option ExecutorAdapterErrorKind

namespace PhaseOutputSink

variable (environment : OutputEnvironment)

def settle : Except ExecutorAdapterErrorKind Unit × PhaseOutputState → PhaseOutputState
  | (.ok _, state) => state
  | (.error error, state) => { state with failure := some error }

def active (state : PhaseOutputState) : Bool :=
  !state.finished && state.failure.isNone

def observe (state : PhaseOutputState) (record : ExecutionOutputRecord) : Bool × PhaseOutputState :=
  if active state then
    let next := settle (exec (PhaseOutputState.observe environment record) state)
    (next.failure.isNone, next)
  else (false, state)

def observeAll (records : List ExecutionOutputRecord)
    (state : PhaseOutputState) : PhaseOutputState :=
  records.foldl (fun state record => (observe environment state record).2) state

def finish (state : PhaseOutputState) : PhaseOutputCompletion × PhaseOutputState :=
  let next :=
    if active state then
      settle (exec (PhaseOutputState.finishStreams environment) state)
    else state
  (⟨next.masker, next.annotations, next.failure⟩,
    { next with masker := .new, annotations := [], finished := true })

end PhaseOutputSink

end AutomataCi
