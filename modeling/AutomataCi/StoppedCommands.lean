import AutomataCi.WorkflowCommands

/-!
# Output while commands are stopped

After `stop-commands` every line should pass through unchanged until the token
resumes the commands.  The session still runs its parser on the lines, though:
a line of the form of a registered command counts against the command budget,
and it fails where its data, its properties or the budget are over a limit.
-/

namespace AutomataCi

open GuardedResult TextOperations

def ResumesFor (token line : Text) : Prop :=
  ∃ name, sameIgnoringCase name token = true ∧ ((∃ rest, trimStart line =
        [':', ':'] ++ name ++ [':', ':'] ++ rest) ∨
      ∃ properties rest, trimStart line =
        [':', ':'] ++ name ++ [' '] ++ properties ++ [':', ':'] ++ rest)

theorem not_resumesFor {token line : Text} (htoken : token ≠ [])
    (hother : ((trimStart line).map Char.toUpper)[2]? ≠ (token.map Char.toUpper).head?) :
    ¬ ResumesFor token line := by
  rintro ⟨name, hsame, hforms⟩
  have hname : name.map Char.toUpper = token.map Char.toUpper := of_decide_eq_true hsame
  rw [← hname] at hother
  cases name with
  | nil => exact htoken (List.map_eq_nil_iff.mp hname.symm)
  | cons =>
    rcases hforms with ⟨rest, hform⟩ | ⟨properties, rest, hform⟩
    · exact hother (by rw [hform]; rfl)
    · exact hother (by rw [hform]; rfl)

def commandInfo? (line : Text) : Option Text :=
  match trimStart line with
  | ':' :: ':' :: rest => (splitAtColons rest).map Prod.fst
  | _ => none

def recognised (token line : Text) : Bool :=
  (commandInfo? line).any fun info => registered (commandName info) (some token)

theorem splitAtColons_eq_some {text before after : Text}
    (hsplit : splitAtColons text = some (before, after)) :
    text = before ++ ':' :: ':' :: after := by
  induction text generalizing before with
  | nil => cases hsplit
  | cons first rest ih =>
    unfold splitAtColons at hsplit
    split at hsplit
    · rename_i more heq
      cases heq
      cases hsplit
      rfl
    · rename_i head tail hnot heq
      cases heq
      obtain ⟨⟨found, found'⟩, hfound, hpair⟩ := Option.map_eq_some_iff.mp hsplit
      cases hpair
      rw [ih hfound, List.cons_append]
    · rename_i heq
      cases heq

section Parser

variable {limits : WorkflowCommandLimits} {token line : Text}

theorem parseCommand_of_not_recognised (hline : recognised token line = false) :
    parseCommand limits line (some token) = .ok none := by
  unfold recognised commandInfo? at hline
  unfold parseCommand
  split
  · rename_i rest hrest
    simp only [hrest] at hline
    unfold parseCommandBody
    cases hsplit : splitAtColons rest with
    | none => rfl
    | some =>
      simp only [hsplit, Option.map_some, Option.any_some] at hline
      simp only [hline, if_true]
  · rfl

theorem name_of_parseCommand {raw : Option RawCommand} (hline : recognised token line = true)
    (hparse : parseCommand limits line (some token) = .ok raw) :
    ∃ command info, raw = some command ∧ commandInfo? line = some info ∧
      command.name = commandName info := by
  unfold recognised commandInfo? at hline
  unfold parseCommand at hparse
  split at hline
  · rename_i rest hrest
    simp only [hrest] at hparse
    unfold parseCommandBody at hparse
    cases hsplit : splitAtColons rest with
    | none => simp [hsplit] at hline
    | some pair =>
      obtain ⟨info, rawData⟩ := pair
      simp only [hsplit, Option.map_some, Option.any_some] at hline
      simp only [hsplit, hline, Bool.true_eq_false, if_false, bind_eq_ok, pure_eq_ok] at hparse
      obtain ⟨_, -, properties, -, _, -, hraw⟩ := hparse
      refine ⟨_, info, hraw.symm, ?_, rfl⟩
      simp [commandInfo?, hrest, hsplit]
  · simp at hline

theorem resumesFor_of_commandName {info : Text} (hinfo : commandInfo? line = some info)
    (hname : sameIgnoringCase (commandName info) token = true) :
    ResumesFor token line := by
  unfold commandInfo? at hinfo
  split at hinfo
  · rename_i rest hrest
    obtain ⟨⟨found, data⟩, hsplit, hfound⟩ := Option.map_eq_some_iff.mp hinfo
    have hsame : found = info := hfound
    subst hsame
    have hline := splitAtColons_eq_some hsplit
    refine ⟨commandName found, hname, ?_⟩
    rw [hrest, hline]
    unfold commandName
    cases hspace : splitAtFirst ' ' found with
    | none => exact .inl ⟨data, by simp⟩
    | some pair =>
      obtain ⟨name, properties⟩ := pair
      have hparts := splitAtFirst_eq_some hspace
      refine .inr ⟨properties, data, ?_⟩
      simp [hparts]
  · cases hinfo

end Parser

namespace ActionsWorkflowCommandSession

variable {session : ActionsWorkflowCommandSession} {token line : Text}
  {lines : List Text}

def passed (session : ActionsWorkflowCommandSession) (token : Text)
    (lines : List Text) : ActionsWorkflowCommandSession :=
  { session with
    observedBytes := session.observedBytes + (lines.map fun line => (utf8Bytes line).length).sum
    observedLines := session.observedLines + lines.length
    observedCommands := session.observedCommands + lines.countP (recognised token) }

/-- Lines within the limits of the lines and of the stream. -/
structure Admits (session : ActionsWorkflowCommandSession)
    (lines : List Text) : Prop where
  lineBytes : ∀ line ∈ lines, (utf8Bytes line).length ≤ session.limits.maximumLineBytes
  streamBytes : session.observedBytes + (lines.map fun line => (utf8Bytes line).length).sum ≤
      session.limits.maximumStreamBytes
  streamLines : session.observedLines + lines.length ≤ session.limits.maximumStreamLines

theorem Admits.head (hadmits : session.Admits (line :: lines)) :
    session.observeLine (utf8Bytes line) = .ok { session with
        observedBytes := session.observedBytes + (utf8Bytes line).length
        observedLines := session.observedLines + 1 } := by
  have hline := hadmits.lineBytes line List.mem_cons_self
  have hbytes := hadmits.streamBytes
  have hlines := hadmits.streamLines
  simp only [List.map_cons, List.sum_cons, List.length_cons] at hbytes hlines
  have hlineOk :
      rejectIf (session.limits.maximumLineBytes < (utf8Bytes line).length)
        (WorkflowCommandError.lineTooLong session.limits.maximumLineBytes) =
        .ok () :=
    rejectIf_of_not _ (by omega)
  have hbytesOk :
      rejectIf (session.limits.maximumStreamBytes < session.observedBytes + (utf8Bytes line).length)
        (WorkflowCommandError.streamTooLarge session.limits.maximumStreamBytes) = .ok () :=
    rejectIf_of_not _ (by omega)
  have hlinesOk :
      rejectIf (session.limits.maximumStreamLines < session.observedLines + 1)
        (WorkflowCommandError.tooManyLines session.limits.maximumStreamLines) = .ok () :=
    rejectIf_of_not _ (by omega)
  simp only [observeLine, hlineOk, hbytesOk, hlinesOk, ok_bind]
  rfl

theorem Admits.tail (hadmits : session.Admits (line :: lines)) :
    (session.passed token [line]).Admits lines := by
  have hbytes := hadmits.streamBytes
  have hlines := hadmits.streamLines
  simp only [List.map_cons, List.sum_cons, List.length_cons] at hbytes hlines
  refine ⟨fun other hother => ?_, ?_, ?_⟩
  · exact hadmits.lineBytes other (List.mem_cons_of_mem _ hother)
  · simp only [passed, List.map_cons, List.map_nil, List.sum_cons, List.sum_nil]
    omega
  · simp only [passed, List.length_singleton]
    omega

theorem passed_passed :
    (session.passed token [line]).passed token lines = session.passed token (line :: lines) := by
  simp only [passed, List.map_cons, List.map_nil, List.sum_cons, List.sum_nil, List.length_cons,
    List.length_nil, List.countP_cons, List.countP_nil, mk.injEq, true_and, and_true]
  refine ⟨?_, ?_, ?_⟩ <;> omega

/-- Whether the command budget has room for the recognised ones of some lines. -/
def HasRoom (session : ActionsWorkflowCommandSession) (token : Text) (lines : List Text) : Prop :=
  lines.countP (recognised token) = 0 ∨ session.observedCommands + lines.countP (recognised token) ≤
      session.limits.maximumCommands

/-- What the parser takes for a command on a line which does not resume is a
command with another name. -/
theorem command_of_parseCommand {raw : Option RawCommand} (hresume : ¬ ResumesFor token line)
    (hrecognised : recognised token line = true)
    (hparse : parseCommand session.limits line (some token) = .ok raw) :
    ∃ command, raw = some command ∧ sameIgnoringCase command.name token = false := by
  obtain ⟨command, info, hraw, hinfo, hname⟩ := name_of_parseCommand hrecognised hparse
  refine ⟨command, hraw, ?_⟩
  rw [← Bool.not_eq_true]
  intro hsame
  exact hresume (resumesFor_of_commandName hinfo (hname ▸ hsame))

theorem processLine_stopped_iff (hstopped : session.stoppedToken = some token)
    (hadmits : session.Admits (line :: lines))
    (hresume : ¬ ResumesFor token line)
    {result : WorkflowLine × ActionsWorkflowCommandSession} :
    session.processLine (utf8Bytes line) = .ok result ↔
      (∃ raw, parseCommand session.limits line (some token) = .ok raw) ∧
        session.HasRoom token [line] ∧
        result = (.output line, session.passed token [line]) := by
  unfold processLine
  rw [hadmits.head, ok_bind, fromUtf8_utf8Bytes]
  simp only [okOr, ok_bind, hstopped, processStopped, bind_eq_ok]
  cases hrecognised : recognised token line with
  | false =>
    have hparse : parseCommand session.limits line (some token) = .ok none :=
      parseCommand_of_not_recognised hrecognised
    have hroom : session.HasRoom token [line] := .inl (by simp [hrecognised])
    have hpassed :
        session.passed token [line] = { session with
            observedBytes := session.observedBytes + (utf8Bytes line).length
            observedLines := session.observedLines + 1
            stoppedToken := some token } := by
      simp [passed, hrecognised, hstopped]
    rw [hpassed]
    constructor
    · rintro ⟨raw, hraw, hresult⟩
      rw [hparse] at hraw
      cases hraw
      exact ⟨⟨none, hparse⟩, hroom, (pure_eq_ok.mp hresult).symm⟩
    · rintro ⟨-, -, hresult⟩
      exact ⟨none, hparse, pure_eq_ok.mpr hresult.symm⟩
  | true =>
    have hroom :
        session.HasRoom token [line] ↔ ¬ session.limits.maximumCommands <
            session.observedCommands + 1 := by
      simp [HasRoom, hrecognised]
    have hpassed :
        session.passed token [line] = { session with
            observedBytes := session.observedBytes + (utf8Bytes line).length
            observedLines := session.observedLines + 1
            observedCommands := session.observedCommands + 1
            stoppedToken := some token } := by
      simp [passed, hrecognised, hstopped]
    rw [hroom, hpassed]
    constructor
    · rintro ⟨raw, hparse, hrest⟩
      obtain ⟨command, hraw, hother⟩ := command_of_parseCommand hresume hrecognised hparse
      subst hraw
      simp only [observeCommand, bind_eq_ok, rejectIf_eq_ok, pure_eq_ok,
        hother, Bool.false_eq_true, if_false] at hrest
      obtain ⟨next, ⟨_, hbudget, hnext⟩, hresult⟩ := hrest
      subst hnext
      exact ⟨⟨_, hparse⟩, hbudget, hresult.symm⟩
    · rintro ⟨⟨raw, hparse⟩, hbudget, hresult⟩
      obtain ⟨command, hraw, hother⟩ := command_of_parseCommand hresume hrecognised hparse
      subst hraw
      refine ⟨some command, hparse, ?_⟩
      simp only [observeCommand, bind_eq_ok, rejectIf_eq_ok, pure_eq_ok,
        hother, Bool.false_eq_true, if_false]
      exact ⟨_, ⟨(), hbudget, rfl⟩, hresult.symm⟩

def processLines (session : ActionsWorkflowCommandSession) :
    List Bytes → Except WorkflowCommandError (List WorkflowLine × ActionsWorkflowCommandSession)
  | [] => .ok ([], session)
  | source :: rest => do
      let (line, session) ← session.processLine source
      let (lines, session) ← processLines session rest
      return (line :: lines, session)

theorem hasRoom_cons :
    session.HasRoom token (line :: lines) ↔ session.HasRoom token [line] ∧
        (session.passed token [line]).HasRoom token lines := by
  simp only [HasRoom, passed, List.countP_cons, List.countP_nil]
  split_ifs
  · simp only [false_or]
    omega
  · omega

/-- Lines pass exactly if the parser fails on none of them and the budget has
room for those which it recognises. -/
theorem processLines_stopped_iff (hstopped : session.stoppedToken = some token)
    (hadmits : session.Admits lines)
    (hresume : ∀ line ∈ lines, ¬ ResumesFor token line)
    {result : List WorkflowLine × ActionsWorkflowCommandSession} :
    session.processLines (lines.map utf8Bytes) = .ok result ↔ (∀ line ∈ lines,
        ∃ raw, parseCommand session.limits line (some token) = .ok raw) ∧
        session.HasRoom token lines ∧
        result = (lines.map .output, session.passed token lines) := by
  induction lines generalizing session result with
  | nil =>
    simp only [List.map_nil, processLines, Except.ok.injEq, passed, List.not_mem_nil, false_implies,
      implies_true, true_and, HasRoom, List.countP_nil, true_or, List.sum_nil, List.length_nil,
      Nat.add_zero]
    exact eq_comm
  | cons line rest ih =>
    rw [List.forall_mem_cons] at hresume
    have hline : ∀ next, session.processLine (utf8Bytes line) = .ok next ↔ _ :=
      fun _ => processLine_stopped_iff hstopped hadmits hresume.1
    have hstill : (session.passed token [line]).stoppedToken = some token :=
      hstopped
    have hrest : ∀ next, (session.passed token [line]).processLines
          (rest.map utf8Bytes) = .ok next ↔ _ :=
      fun _ => ih hstill hadmits.tail hresume.2
    have hrooms : session.HasRoom token (line :: rest) ↔ _ := hasRoom_cons
    have hpassed : _ = session.passed token (line :: rest) := passed_passed
    simp only [List.map_cons, processLines, bind_eq_ok, pure_eq_ok, hline]
    rw [List.forall_mem_cons, hrooms, ← hpassed]
    constructor
    · rintro ⟨first, ⟨hparse, hroom, hfirst⟩, hmore⟩
      subst hfirst
      obtain ⟨⟨outputs, final⟩, hrun, hresult⟩ := hmore
      obtain ⟨hparses, hrooms, hfinal⟩ := (hrest _).mp hrun
      cases hfinal
      exact ⟨⟨hparse, hparses⟩, ⟨hroom, hrooms⟩, hresult.symm⟩
    · rintro ⟨⟨hparse, hparses⟩, ⟨hroom, hrooms⟩, hresult⟩
      exact ⟨_, ⟨hparse, hroom, rfl⟩, _, (hrest _).mpr ⟨hparses, hrooms, rfl⟩, hresult.symm⟩

/-- Lines pass through a session verbatim: each is output, none fails, and
neither the echo, the masks nor the stop token change. -/
def Passes (session : ActionsWorkflowCommandSession) (lines : List Text)
    (final : ActionsWorkflowCommandSession) : Prop :=
  session.processLines (lines.map utf8Bytes) = .ok (lines.map .output, final) ∧
    final.echoEnabled = session.echoEnabled ∧
    final.registeredMasks = session.registeredMasks ∧
    final.stoppedToken = session.stoppedToken

theorem passes_iff (hstopped : session.stoppedToken = some token) (hadmits : session.Admits lines)
    (hresume : ∀ line ∈ lines, ¬ ResumesFor token line)
    {final : ActionsWorkflowCommandSession} :
    session.Passes lines final ↔ (∀ line ∈ lines,
        ∃ raw, parseCommand session.limits line (some token) = .ok raw) ∧
        session.HasRoom token lines ∧
        final = session.passed token lines := by
  unfold Passes
  rw [processLines_stopped_iff hstopped hadmits hresume]
  constructor
  · rintro ⟨⟨hparses, hroom, hresult⟩, -⟩
    cases hresult
    exact ⟨hparses, hroom, rfl⟩
  · rintro ⟨hparses, hroom, hfinal⟩
    subst hfinal
    exact ⟨⟨hparses, hroom, rfl⟩, rfl, rfl, rfl⟩

/-- The lines of a stopped session pass through verbatim exactly if the parser
fails on none of them and the command budget has room for those which have the
form of a registered command.  They leave the budget alone exactly if there
are no such lines at all. -/
theorem stopped_lines_are_inert_iff (hstopped : session.stoppedToken = some token)
    (hadmits : session.Admits lines)
    (hresume : ∀ line ∈ lines, ¬ ResumesFor token line) :
    ((∃ final, session.Passes lines final) ↔ (∀ line ∈ lines,
        ∃ raw, parseCommand session.limits line (some token) = .ok raw) ∧
        session.HasRoom token lines) ∧
    ((∃ final, session.Passes lines final ∧ final.observedCommands = session.observedCommands) ↔
      ∀ line ∈ lines, recognised token line = false) := by
  have hpasses : ∀ final, session.Passes lines final ↔ _ :=
    fun _ => passes_iff hstopped hadmits hresume
  simp only [hpasses]
  constructor
  · constructor
    · rintro ⟨_, hparses, hroom, -⟩
      exact ⟨hparses, hroom⟩
    · rintro ⟨hparses, hroom⟩
      exact ⟨_, hparses, hroom, rfl⟩
  · constructor
    · rintro ⟨_, ⟨-, -, rfl⟩, hbudget⟩
      have hnone : lines.countP (recognised token) = 0 := by
        simp only [passed] at hbudget
        omega
      intro line hline
      exact Bool.eq_false_iff.mpr (List.countP_eq_zero.mp hnone line hline)
    · intro hplain
      have hnone : lines.countP (recognised token) = 0 := List.countP_eq_zero.mpr fun line hline =>
          Bool.eq_false_iff.mp (hplain line hline)
      have hparses : ∀ line ∈ lines,
          ∃ raw, parseCommand session.limits line (some token) = .ok raw :=
        fun line hline => ⟨none, parseCommand_of_not_recognised (hplain line hline)⟩
      refine ⟨_, ⟨hparses, .inl hnone, rfl⟩, ?_⟩
      simp [passed, hnone]

def paused : ActionsWorkflowCommandSession :=
  { limits := ⟨100, 40, 10, 3, 2, 20, 5, 1⟩
    policy := ⟨true⟩
    observedBytes := 22
    observedLines := 1
    observedCommands := 1
    registeredMasks := 0
    stoppedToken := some "pause".toList
    echoEnabled := false }

theorem stopped_lines_are_inert_iff_paused :
    (∃ final, paused.Passes ["plain".toList, "::debug::x".toList] final) ∧
      ∃ final, paused.Passes ["plain".toList, "::other::x".toList] final ∧
        final.observedCommands = paused.observedCommands := by
  have hinert (line : Text) (hadmits : paused.Admits ["plain".toList, line])
      (hline : ¬ ResumesFor "pause".toList line) :=
    stopped_lines_are_inert_iff (show paused.stoppedToken = some "pause".toList from rfl) hadmits
      (List.forall_mem_cons.mpr ⟨not_resumesFor (by decide) (by decide +kernel),
        List.forall_mem_singleton.mpr hline⟩)
  have hdebug := hinert "::debug::x".toList
    ⟨by decide +kernel, by decide +kernel, by decide +kernel⟩
    (not_resumesFor (by decide) (by decide +kernel))
  have hother := hinert "::other::x".toList
    ⟨by decide +kernel, by decide +kernel, by decide +kernel⟩
    (not_resumesFor (by decide) (by decide +kernel))
  refine ⟨hdebug.1.mpr ⟨?_, .inr (by decide +kernel)⟩, hother.2.mpr (by decide +kernel)⟩
  simp only [List.forall_mem_cons, List.not_mem_nil, false_implies, implies_true, and_true]
  exact ⟨⟨none, by decide +kernel⟩, ⟨some ⟨"debug".toList, [], "x".toList⟩, by decide +kernel⟩⟩

/-- A stopped session fails on a registered command with long data, and spends
a command on one with short data. -/
theorem paused_not_inert :
    (new paused.limits paused.policy).processLine (utf8Bytes "::stop-commands::pause".toList) =
      .ok (.command (.stopCommands none), paused) ∧
    ¬ ResumesFor "pause".toList "::debug::not short".toList ∧
    paused.Admits ["::debug::not short".toList] ∧
    paused.processLine (utf8Bytes "::debug::not short".toList) = .error (.dataTooLong 5) ∧
    ¬ ResumesFor "pause".toList "::debug::x".toList ∧
    (paused.processLine (utf8Bytes "::debug::x".toList)).toOption.map
      (fun result => result.2.observedCommands) = some 2 ∧
    (paused.processLine (utf8Bytes "::other::x".toList)).toOption.map
      (fun result => result.2.observedCommands) = some 1 := by
  refine ⟨by decide +kernel, not_resumesFor (by decide) (by decide +kernel),
    ⟨by decide +kernel, by decide +kernel, by decide +kernel⟩,
    by decide +kernel,
    not_resumesFor (by decide) (by decide +kernel),
    by decide +kernel, by decide +kernel⟩

end ActionsWorkflowCommandSession

end AutomataCi
