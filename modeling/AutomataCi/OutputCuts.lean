import AutomataCi.OutputSecrecy
import AutomataCi.RelatedRuns

/-!
# Cuts of the output of a step

The sink receives the output of a step in records which may end anywhere.  The
lines which the records deliver determine what is sent to the log, as long as
no record leaves an unfinished line over the limit of a line behind: the sink
checks what is left in its buffer, with a carriage return which is not part of
the line, and it does so before the rest of the line has come.
-/

namespace AutomataCi

open FallibleState GuardedResult SubstringSearch TextOperations

/-- A line as the sink processes it: without its newline, if it has one. -/
structure DeliveredLine where
  stream : ExecutionOutputStream
  content : Bytes
  newline : Bool
  deriving DecidableEq, Repr

variable (bytes : Bytes)

def splitLines : List Bytes :=
  splitWhere (fun byte => byte = newlineByte) bytes

def completeLinesOf : List Bytes :=
  (splitLines bytes).dropLast

def unfinishedOf : Bytes :=
  (splitLines bytes).getLast?.getD []

abbrev StreamBuffers :=
  ExecutionOutputStream → Bytes

variable (buffers : StreamBuffers)

def unfinishedLine (stream : ExecutionOutputStream) : List DeliveredLine :=
  if buffers stream = [] then [] else [⟨stream, buffers stream, false⟩]

def linesOf (record : ExecutionOutputRecord) : List DeliveredLine :=
  if record.endOfStream then unfinishedLine buffers record.stream
  else
    (completeLinesOf (buffers record.stream ++ record.bytes)).map
      fun content => ⟨record.stream, content, true⟩

def leftBy (record : ExecutionOutputRecord) : Bytes :=
  if record.endOfStream then []
  else unfinishedOf (buffers record.stream ++ record.bytes)

/-- The lines of some records, in the order in which they are completed.  The
last flush completes those of the streams without an end. -/
def delivered (buffers : StreamBuffers) : List ExecutionOutputRecord → List DeliveredLine
  | [] => unfinishedLine buffers .stdout ++ unfinishedLine buffers .stderr
  | record :: rest =>
    linesOf buffers record ++
      delivered (Function.update buffers record.stream (leftBy buffers record)) rest

/-- No record leaves more of a line than a line may have. -/
def LeavesWithin (maximum : Nat) (buffers : StreamBuffers) : List ExecutionOutputRecord → Prop
  | [] => True
  | record :: rest =>
    (leftBy buffers record).length ≤ maximum ∧ LeavesWithin maximum
        (Function.update buffers record.stream (leftBy buffers record)) rest

instance decidableLeavesWithin (maximum : Nat) (buffers : StreamBuffers) :
    (records : List ExecutionOutputRecord) → Decidable (LeavesWithin maximum buffers records)
  | [] => isTrue trivial
  | record :: rest =>
    have := decidableLeavesWithin maximum
      (Function.update buffers record.stream (leftBy buffers record)) rest
    inferInstanceAs (Decidable (_ ∧ _))

theorem splitLines_of_notMem {bytes : Bytes} (hbytes : newlineByte ∉ bytes) :
    completeLinesOf bytes = [] ∧ unfinishedOf bytes = bytes := by
  have hsplit : splitLines bytes = [bytes] := by
    refine splitWhere_of_forall fun byte hbyte => decide_eq_false ?_
    rintro rfl
    exact hbytes hbyte
  rw [completeLinesOf, unfinishedOf, hsplit]
  exact ⟨rfl, rfl⟩

theorem splitLines_of_mem {bytes : Bytes} (hbytes : newlineByte ∈ bytes) :
    completeLinesOf bytes = bytes.take (bytes.idxOf newlineByte) ::
          completeLinesOf (bytes.drop (bytes.idxOf newlineByte + 1)) ∧
      unfinishedOf bytes = unfinishedOf (bytes.drop (bytes.idxOf newlineByte + 1)) := by
  obtain ⟨line, rest, rfl, hline⟩ := List.eq_append_cons_of_mem hbytes
  have hindex : (line ++ newlineByte :: rest).idxOf newlineByte = line.length := by
    rw [List.idxOf_append_of_notMem hline, List.idxOf_cons_self, Nat.add_zero]
  have hdrop : (line ++ newlineByte :: rest).drop (line.length + 1) = rest := by simp
  have hsplit : splitLines (line ++ newlineByte :: rest) = line :: splitLines rest := by
    refine splitWhere_append_cons (fun byte hbyte => decide_eq_false ?_) (decide_eq_true rfl)
    rintro rfl
    exact hline hbyte
  rw [hindex, hdrop, List.take_left]
  obtain ⟨part, parts, hparts, -⟩ := splitWhere_spec (fun byte => byte = newlineByte) rest
  rw [completeLinesOf, completeLinesOf, unfinishedOf, unfinishedOf, hsplit]
  unfold splitLines
  rw [hparts]
  exact ⟨rfl, rfl⟩

namespace PhaseOutputState

variable {environment : OutputEnvironment}

/-- Two states which agree on all but the buffers and the count of the
cancellation checks. -/
def Alike (first second : PhaseOutputState) : Prop :=
  ∃ stdout stderr checks, second = { first with stdout, stderr, checks }

/-- Alike, with these bytes in the buffers of the first, which is active. -/
def Holding (buffers : StreamBuffers) (first second : PhaseOutputState) : Prop :=
  Alike first second ∧ first.buffer = buffers ∧ PhaseOutputSink.active first = true

variable {α : Type} {buffers : StreamBuffers}

/-- A computation which neither looks at the buffers nor changes them. -/
def Unbuffered (buffers : StreamBuffers) (action : OutputM α) : Prop :=
  Related (Holding buffers) action action (fun _ => Holding buffers) Alike

theorem unbuffered_bind {β : Type} {action : OutputM α}
    {next : α → OutputM β} (haction : Unbuffered buffers action)
    (hnext : ∀ value, Unbuffered buffers (next value)) :
    Unbuffered buffers (action >>= next) :=
  related_bind haction hnext

theorem unbuffered_pure (value : α) : Unbuffered buffers (pure value : OutputM α) :=
  related_pure fun _ _ hholding => hholding

theorem unbuffered_check (result : Except ExecutorAdapterErrorKind α) :
    Unbuffered buffers (check result) :=
  related_check (fun _ _ _ hholding => hholding) fun _ _ hholding => hholding.1

theorem unbuffered_onMasker (action : MaskerM α) : Unbuffered buffers (onMasker action) := by
  refine related_focus ?_ ?_ ?_
  · rintro first second ⟨⟨stdout, stderr, checks, rfl⟩, -⟩
    rfl
  · rintro _ part first second ⟨⟨stdout, stderr, checks, rfl⟩, hkept⟩
    exact ⟨⟨stdout, stderr, checks, rfl⟩, hkept⟩
  · rintro part first second ⟨⟨stdout, stderr, checks, rfl⟩, -⟩
    exact ⟨stdout, stderr, checks, rfl⟩

theorem unbuffered_ensureActive (hactive : ∀ checks, environment.cancellation checks = false) :
    Unbuffered buffers (ensureActive environment) := by
  refine related_get ?_
  rintro first second ⟨⟨stdout, stderr, checks, rfl⟩, hkept⟩
  simp only [exec_bind, exec_modify, andThen_ok, exec_check, hactive,
    rejectIf, Bool.false_eq_true, if_false]
  exact ⟨rfl, ⟨stdout, stderr, checks + 1, rfl⟩, hkept⟩

theorem unbuffered_registerSecret (secret : Text) : Unbuffered buffers (registerSecret secret) := by
  refine unbuffered_bind (unbuffered_onMasker _) fun _ => ?_
  refine related_modify ?_
  rintro first second ⟨⟨stdout, stderr, checks, rfl⟩, hkept⟩
  exact ⟨⟨stdout, stderr, checks, rfl⟩, hkept⟩

theorem unbuffered_registerDynamicMasks (line : WorkflowLine) :
    Unbuffered buffers (registerDynamicMasks line) := by
  unfold registerDynamicMasks
  split
  · exact related_forM unbuffered_registerSecret
  · exact unbuffered_registerSecret _
  · exact unbuffered_pure _

theorem unbuffered_emitLog (event : LogEvent) : Unbuffered buffers (emitLog environment event) := by
  refine unbuffered_bind ?_ fun _ => related_get ?_
  · refine related_modify ?_
    rintro first second ⟨⟨stdout, stderr, checks, rfl⟩, hkept⟩
    exact ⟨⟨stdout, stderr, checks, rfl⟩, hkept⟩
  · rintro first second ⟨⟨stdout, stderr, checks, rfl⟩, hkept⟩
    exact unbuffered_check _ _ _ ⟨⟨stdout, stderr, checks, rfl⟩, hkept⟩

theorem unbuffered_emitPayload (payload : Bytes) (channel : LogChannel) :
    Unbuffered buffers (emitPayload environment payload channel) := by
  unfold emitPayload
  split
  · exact unbuffered_pure _
  · exact related_forM fun chunk => unbuffered_emitLog _

theorem unbuffered_emitLine (content : Bytes) (newline : Bool) (channel : LogChannel) :
    Unbuffered buffers (emitLine environment content newline channel) :=
  unbuffered_bind (unbuffered_onMasker _) fun _ => unbuffered_emitPayload _ _

theorem unbuffered_emitWorkflowLine (hactive : ∀ checks, environment.cancellation checks = false)
    (line : WorkflowLine) (newline : Bool) (channel : LogChannel) :
    Unbuffered buffers (emitWorkflowLine environment line newline channel) := by
  unfold emitWorkflowLine
  split
  · exact unbuffered_emitLine _ _ _
  · refine unbuffered_bind (unbuffered_emitLine _ _ _) fun _ =>
      unbuffered_bind (unbuffered_ensureActive hactive) fun _ => related_modify ?_
    rintro first second ⟨⟨stdout, stderr, checks, rfl⟩, hkept⟩
    exact ⟨⟨stdout, stderr, checks, rfl⟩, hkept⟩
  · exact unbuffered_emitLine _ _ _
  · exact unbuffered_pure _

theorem unbuffered_processLine (hactive : ∀ checks, environment.cancellation checks = false)
    (content : Bytes) (newline : Bool) (channel : LogChannel) :
    Unbuffered buffers (processLine environment content newline channel) := by
  refine unbuffered_bind (unbuffered_ensureActive hactive) fun _ => related_get ?_
  rintro first second ⟨⟨stdout, stderr, checks, rfl⟩, hkept⟩
  refine unbuffered_bind (unbuffered_check _) (fun observed => ?_) _ _
    ⟨⟨stdout, stderr, checks, rfl⟩, hkept⟩
  refine unbuffered_bind (related_modify ?_) fun _ =>
    unbuffered_bind (unbuffered_registerDynamicMasks _) fun _ =>
      unbuffered_bind (unbuffered_emitWorkflowLine hactive _ _ _) fun _ =>
        unbuffered_ensureActive hactive
  rintro first second ⟨⟨stdout, stderr, checks, rfl⟩, hkept⟩
  exact ⟨⟨stdout, stderr, checks, rfl⟩, hkept⟩

def processDelivered (environment : OutputEnvironment) (line : DeliveredLine) : OutputM Unit :=
  processLine environment line.content line.newline line.stream.channel

def processAll (environment : OutputEnvironment) (lines : List DeliveredLine) : OutputM Unit :=
  lines.forM (processDelivered environment)

theorem processAll_append (first second : List DeliveredLine) :
    processAll environment (first ++ second) = (do
        processAll environment first
        processAll environment second) :=
  List.forM_append

theorem processAll_singleton (line : DeliveredLine) :
    processAll environment [line] = processDelivered environment line :=
  bind_pure_unit

theorem Holding.withBuffer {first second : PhaseOutputState}
    (hholding : Holding buffers first second)
    (stream : ExecutionOutputStream) (bytes : Bytes) :
    Holding (Function.update buffers stream bytes) (first.withBuffer stream bytes) second := by
  obtain ⟨⟨stdout, stderr, checks, rfl⟩, rfl, hactive⟩ := hholding
  refine ⟨?_, funext fun other => buffer_withBuffer _ _ _ _, ?_⟩
  · cases stream with
    | stdout => exact ⟨stdout, stderr, checks, rfl⟩
    | stderr => exact ⟨stdout, stderr, checks, rfl⟩
  · cases stream with
    | stdout => exact hactive
    | stderr => exact hactive

section Records

variable (hactive : ∀ checks, environment.cancellation checks = false)

include hactive

theorem exec_ensureActive (state : PhaseOutputState) :
    exec (ensureActive environment) state =
      (.ok (), { state with checks := state.checks + 1 }) := by
  simp only [ensureActive, exec_bind, exec_get, andThen_ok, exec_modify,
    exec_check, hactive, rejectIf, Bool.false_eq_true, if_false]

theorem related_of_ensureActive {next : OutputM Unit} {right : OutputM Unit}
    {post : Unit → PhaseOutputState → PhaseOutputState → Prop}
    (hnext : Related (Holding buffers) next right post Alike) :
    Related (Holding buffers) (do
        ensureActive environment
        next) right post Alike := by
  rintro first second ⟨⟨stdout, stderr, checks, rfl⟩, hkept⟩
  rw [exec_bind, exec_ensureActive hactive]
  exact hnext _ _ ⟨⟨stdout, stderr, checks, rfl⟩, hkept⟩

variable (stream : ExecutionOutputStream)

theorem related_completeLines (fuel : Nat) (hfuel : (buffers stream).count newlineByte < fuel) :
    Related (Holding buffers) (completeLines environment stream fuel)
      (processAll environment ((completeLinesOf (buffers stream)).map
        fun content => ⟨stream, content, true⟩))
      (fun _ => Holding (Function.update buffers stream (unfinishedOf (buffers stream))))
      Alike := by
  induction fuel generalizing buffers with
  | zero => exact absurd hfuel (Nat.not_lt_zero _)
  | succ fuel ih =>
    unfold completeLines
    refine related_of_ensureActive hactive ?_
    intro first second hholding
    rw [exec_bind, exec_get, andThen_ok, hholding.2.1]
    by_cases hmem : newlineByte ∈ buffers stream
    · obtain ⟨hlines, hrest⟩ := splitLines_of_mem hmem
      rw [if_pos hmem, hlines, hrest, exec_bind, exec_modify, andThen_ok]
      set remaining := (buffers stream).drop
        ((buffers stream).idxOf newlineByte + 1) with hremaining
      have hself : Function.update buffers stream remaining stream =
          remaining := Function.update_self _ _ _
      have hcount : (Function.update buffers stream remaining stream).count newlineByte < fuel := by
        rw [hself]
        exact Nat.lt_of_lt_of_le (count_drop_idxOf_lt hmem) (Nat.le_of_lt_succ hfuel)
      have hloop := ih hcount
      rw [hself, Function.update_idem] at hloop
      exact related_bind (unbuffered_processLine hactive _ true _)
        (fun _ => hloop) _ _ (hholding.withBuffer stream remaining)
    · obtain ⟨hlines, hrest⟩ := splitLines_of_notMem hmem
      rw [if_neg hmem, hlines, hrest, Function.update_eq_self]
      exact ⟨rfl, hholding⟩

theorem related_finishStream :
    Related (Holding buffers) (finishStream environment stream)
      (processAll environment (unfinishedLine buffers stream))
      (fun _ => Holding (Function.update buffers stream [])) Alike := by
  intro first second hholding
  unfold finishStream
  rw [exec_bind, exec_get, andThen_ok, hholding.2.1, exec_bind, exec_modify, andThen_ok]
  unfold unfinishedLine
  split_ifs with hempty
  · exact ⟨rfl, hholding.withBuffer stream []⟩
  · rw [processAll_singleton]
    exact unbuffered_processLine hactive _ false _ _ _ (hholding.withBuffer stream [])

theorem related_observeData (bytes : Bytes)
    (hleft : (unfinishedOf (buffers stream ++ bytes)).length ≤
      environment.limits.maximumLineBytes) :
    Related (Holding buffers) (observeData environment stream bytes) (processAll environment
        ((completeLinesOf (buffers stream ++ bytes)).map fun content => ⟨stream, content, true⟩))
      (fun _ => Holding (Function.update buffers stream
        (unfinishedOf (buffers stream ++ bytes)))) Alike := by
  intro first second hholding
  set joined := buffers stream ++ bytes with hjoined
  have hself : Function.update buffers stream joined stream = joined := Function.update_self _ _ _
  have hstart : Holding (Function.update buffers stream joined)
      (first.withBuffer stream (first.buffer stream ++ bytes)) second := by
    rw [hholding.2.1]
    exact hholding.withBuffer stream joined
  have hloop : Related (Holding (Function.update buffers stream joined))
      (processCompleteLines environment stream)
      (processAll environment ((completeLinesOf joined).map fun content => ⟨stream, content, true⟩))
      (fun _ => Holding (Function.update buffers stream (unfinishedOf joined)))
      Alike := by
    intro first second hholding
    have hlines := related_completeLines hactive stream
      ((Function.update buffers stream joined stream).count newlineByte + 1)
      (Nat.lt_succ_self _)
    rw [hself, Function.update_idem] at hlines
    unfold processCompleteLines
    rw [exec_bind, exec_get, andThen_ok, hholding.2.1, hself]
    exact hlines first second hholding
  have hright : processAll environment ((completeLinesOf joined).map
      fun content => ⟨stream, content, true⟩) = (do
          processAll environment ((completeLinesOf joined).map
            fun content => ⟨stream, content, true⟩)
          pure ()) :=
    bind_pure_unit.symm
  unfold observeData
  rw [exec_bind, exec_modify, andThen_ok, hright]
  refine related_bind hloop (fun _ => ?_) _ _ hstart
  intro first second hholding
  have hlength : (first.buffer stream).length ≤ environment.limits.maximumLineBytes := by
    rw [hholding.2.1, Function.update_self]
    exact hleft
  rw [exec_bind, exec_get, andThen_ok, exec_check, rejectIf_of_not _ (Nat.not_lt.mpr hlength)]
  exact ⟨rfl, hholding⟩

theorem related_observe (record : ExecutionOutputRecord)
    (hleft : (leftBy buffers record).length ≤ environment.limits.maximumLineBytes) :
    Related (Holding buffers) (observe environment record)
      (processAll environment (linesOf buffers record))
      (fun _ => Holding (Function.update buffers record.stream (leftBy buffers record)))
      Alike := by
  unfold observe
  refine related_of_ensureActive hactive ?_
  unfold leftBy at hleft
  unfold linesOf leftBy
  cases hend : record.endOfStream with
  | true => exact related_finishStream hactive record.stream
  | false =>
    rw [hend] at hleft
    exact related_observeData hactive record.stream record.bytes hleft

theorem related_finishStreams :
    Related (Holding buffers) (finishStreams environment)
      (processAll environment (delivered buffers []))
      (fun _ first second => Alike first second ∧ PhaseOutputSink.active first = true) Alike := by
  have hstderr : unfinishedLine (Function.update buffers .stdout []) .stderr =
      unfinishedLine buffers .stderr := rfl
  unfold finishStreams delivered
  rw [processAll_append, ← hstderr]
  refine related_bind (related_finishStream hactive .stdout) fun _ => ?_
  intro first second hholding
  exact (related_finishStream hactive .stderr first second hholding).imp
    (fun _ _ _ hlast => ⟨hlast.1, hlast.2.2⟩) fun _ _ halike => halike

end Records

end PhaseOutputState

namespace PhaseOutputSink

open PhaseOutputState

variable {environment : OutputEnvironment} {buffers : StreamBuffers}
  {first second : PhaseOutputState}

def outcome (environment : OutputEnvironment) (state : PhaseOutputState) :
    PhaseOutputCompletion × List LogEvent :=
  ((finish environment state).1, (finish environment state).2.events)

def failureOf {ε α : Type} : Except ε α → Option ε
  | .ok _ => none
  | .error error => some error

def outcomeOf (run : Except ExecutorAdapterErrorKind Unit × PhaseOutputState) :
    PhaseOutputCompletion × List LogEvent :=
  (⟨run.2.masker, run.2.annotations, failureOf run.1⟩, run.2.events)

def handedOver (state : PhaseOutputState) : PhaseOutputCompletion × List LogEvent :=
  (⟨state.masker, state.annotations, state.failure⟩, state.events)

theorem active_settle_error (error : ExecutorAdapterErrorKind) (state : PhaseOutputState) :
    active (settle (.error error, state)) = false :=
  Bool.and_false _

variable {state : PhaseOutputState}

theorem outcome_of_inactive (hstate : active state = false) :
    outcome environment state = handedOver state := by
  unfold outcome finish
  rw [hstate]
  rfl

theorem observeAll_of_inactive (records : List ExecutionOutputRecord)
    (hstate : active state = false) : observeAll environment records state = state := by
  induction records with
  | nil => rfl
  | cons record records ih =>
    have hobserve : (observe environment state record).2 = state := by
      unfold observe
      rw [hstate]
      rfl
    have hrest : observeAll environment records (observe environment state record).2 = state := by
      rw [hobserve]
      exact ih
    exact hrest

theorem outcome_settle_error (records : List ExecutionOutputRecord)
    (error : ExecutorAdapterErrorKind) (halike : Alike first second) :
    outcome environment (observeAll environment records (settle (.error error, first))) =
      outcomeOf (.error error, second) := by
  have hinactive := active_settle_error error first
  rw [observeAll_of_inactive records hinactive, outcome_of_inactive hinactive]
  obtain ⟨stdout, stderr, checks, rfl⟩ := halike
  rfl

theorem outcome_of_active (hactive : active first = true) :
    outcome environment first = handedOver (settle (exec (finishStreams environment) first)) := by
  unfold outcome finish
  rw [hactive]
  rfl

theorem failure_of_active (hactive : active first = true) : first.failure = none := by
  have hboth := (Bool.and_eq_true _ _).mp hactive
  exact Option.isNone_iff_eq_none.mp hboth.2

theorem handedOver_settle {left right : Except ExecutorAdapterErrorKind Unit × PhaseOutputState}
    (hsame : SameOutcome (fun _ first second => Alike first second ∧ active first = true)
      Alike left right) :
    handedOver (settle left) = outcomeOf right := by
  obtain ⟨result, first⟩ := left
  obtain ⟨result', second⟩ := right
  cases result with
  | error error =>
    cases result' with
    | ok => exact hsame.elim
    | error =>
      obtain ⟨rfl, stdout, stderr, checks, rfl⟩ := hsame
      rfl
  | ok =>
    cases result' with
    | error => exact hsame.elim
    | ok =>
      obtain ⟨-, ⟨stdout, stderr, checks, rfl⟩, hlast⟩ := hsame
      unfold handedOver settle
      rw [failure_of_active hlast]
      rfl

theorem outcome_observeAll (hactive : ∀ checks, environment.cancellation checks = false)
    (records : List ExecutionOutputRecord)
    (hholding : Holding buffers first second)
    (hwithin : LeavesWithin environment.limits.maximumLineBytes buffers records) :
    outcome environment (observeAll environment records first) =
      outcomeOf (exec (processAll environment (delivered buffers records)) second) := by
  induction records generalizing buffers first second with
  | nil =>
    have houtcome : outcome environment (observeAll environment [] first) =
        outcome environment first := rfl
    rw [houtcome, outcome_of_active hholding.2.2]
    exact handedOver_settle (related_finishStreams hactive first second hholding)
  | cons record records ih =>
    have hsame := related_observe hactive record hwithin.1 first second hholding
    have hobserve : (observe environment first record).2 =
        settle (exec (PhaseOutputState.observe environment record) first) := by
      unfold observe
      rw [hholding.2.2]
      rfl
    have hrest : observeAll environment (record :: records) first = observeAll environment records
          (settle (exec (PhaseOutputState.observe environment record) first)) :=
      congrArg (observeAll environment records) hobserve
    unfold delivered
    rw [hrest, processAll_append, exec_bind]
    cases hleft : exec (PhaseOutputState.observe environment record) first with
    | mk result after =>
      cases hright : exec (processAll environment (linesOf buffers record)) second with
      | mk result' after' =>
        rw [hleft, hright] at hsame
        cases result with
        | error error =>
          cases result' with
          | ok => exact hsame.elim
          | error =>
            obtain ⟨rfl, halike⟩ := hsame
            exact outcome_settle_error records error halike
        | ok =>
          cases result' with
          | error => exact hsame.elim
          | ok => exact ih hsame.2 hwithin.2

def noBytes : StreamBuffers :=
  fun _ => []

/-- If no record leaves more of an unfinished line than a line may have, the
log events, the annotations, the masks and the failure depend on the delivered
lines only, and not on how the records cut them. -/
theorem outcome_independent_of_cuts (environment : OutputEnvironment) (masker : SecretMasker)
    (hactive : ∀ checks, environment.cancellation checks = false)
    (first second : List ExecutionOutputRecord)
    (hlines : delivered noBytes first = delivered noBytes second)
    (hfirst : LeavesWithin environment.limits.maximumLineBytes noBytes first)
    (hsecond : LeavesWithin environment.limits.maximumLineBytes noBytes second) :
    outcome environment (observeAll environment first (.new environment masker)) =
      outcome environment (observeAll environment second (.new environment masker)) := by
  have hstart : Holding noBytes (.new environment masker) (.new environment masker) := by
    refine ⟨⟨[], [], 0, rfl⟩, funext fun stream => ?_, rfl⟩
    cases stream with
    | stdout => rfl
    | stderr => rfl
  rw [outcome_observeAll hactive first hstart hfirst,
    outcome_observeAll hactive second hstart hsecond, hlines]

open OutputSample

theorem outcome_independent_of_cuts_character :
    outcome sampleEnvironment (observeAll sampleEnvironment
          [⟨.stdout, utf8Bytes "é\n".toList, false⟩, ⟨.stdout, [], true⟩,
            ⟨.stderr, [], true⟩] (.new sampleEnvironment .new)) =
      outcome sampleEnvironment (observeAll sampleEnvironment
          [⟨.stdout, [195], false⟩, ⟨.stdout, [169, 10], false⟩,
            ⟨.stdout, [], true⟩, ⟨.stderr, [], true⟩]
          (.new sampleEnvironment .new)) :=
  outcome_independent_of_cuts sampleEnvironment .new (fun _ => rfl) _ _
    (by decide +kernel) (by decide +kernel) (by decide +kernel)

namespace CutSample

def shortLines : OutputEnvironment :=
  { OutputSample.sampleEnvironment with
    limits := { OutputSample.sampleEnvironment.limits with maximumLineBytes := 5 } }

def whole : List ExecutionOutputRecord :=
  [⟨.stdout, utf8Bytes "hello\r\n".toList, false⟩, ⟨.stdout, [], true⟩, ⟨.stderr, [], true⟩]

def cut : List ExecutionOutputRecord :=
  [⟨.stdout, utf8Bytes "hello\r".toList, false⟩,
    ⟨.stdout, utf8Bytes "\n".toList, false⟩, ⟨.stdout, [], true⟩,
    ⟨.stderr, [], true⟩]

end CutSample

open CutSample

/-- A line of the maximal length passes whole, and fails if the record ends
after its carriage return. -/
theorem outcome_depends_on_cut :
    delivered noBytes whole = delivered noBytes cut ∧ (outcome shortLines
        (observeAll shortLines whole (.new shortLines .new))).1.failure = none ∧
      (outcome shortLines
        (observeAll shortLines cut (.new shortLines .new))).1.failure = some .invalidJob := by
  decide +kernel

end PhaseOutputSink

end AutomataCi
