import AutomataCi.GuardedResult
import AutomataCi.TextSlices

/-!
# Command files of names and values

A step hands outputs, variables and state to the runner as a file of records: `name=value` on one
line, or a value between two lines which hold its delimiter.  The two loops of the parser read
line by line, so that the parser is a fold over the lines, whose state holds the open value.
A file is its text, which is what its bytes decode to.
-/

namespace AutomataCi.CommandFiles

open GuardedResult TextOperations TextSlices

inductive CommandFilePlatform where
  | unix | windows
  deriving DecidableEq

inductive CommandFileKind where
  | environment | output | state
  deriving DecidableEq

structure CommandFileLimits where
  (maximumFileBytes maximumLineBytes maximumRecords maximumNameBytes maximumValueBytes : Nat)

inductive CommandFileError where
  | fileTooLarge (kind : CommandFileKind) (maximum received : Nat)
  | lineTooLong (kind : CommandFileKind) (maximum : Nat)
  | tooManyRecords (kind : CommandFileKind) (maximum : Nat)
  | malformedRecord (kind : CommandFileKind)
  | emptyName (kind : CommandFileKind)
  | nameTooLong (kind : CommandFileKind) (maximum : Nat)
  | valueTooLong (kind : CommandFileKind) (maximum : Nat)
  | emptyDelimiter (kind : CommandFileKind)
  | missingDelimiter (kind : CommandFileKind)
  | heredocValueMissingNewline (kind : CommandFileKind)
  deriving DecidableEq

structure ReadLine where
  (text newline : Text)
  deriving DecidableEq

def endLine (platform : CommandFilePlatform) (line : Text) : ReadLine :=
  if platform = .windows ∧ line.getLast? = some '\r' then ⟨line.dropLast, ['\r', '\n']⟩
  else ⟨line, ['\n']⟩

def readEnvLines (platform : CommandFilePlatform) (line : Text) : Text → List ReadLine
  | [] => if line = [] then [] else [⟨line, []⟩]
  | first :: rest =>
    if first = '\n' then endLine platform line :: readEnvLines platform [] rest
    else readEnvLines platform (line ++ [first]) rest

structure RecordHead where
  (name content : Text)
  isHeredoc : Bool

/-- The first `=` or `<<` of a line ends the name. -/
def recordHead : Text → Option RecordHead
  | '=' :: value => some ⟨[], value, false⟩
  | '<' :: '<' :: delimiter => some ⟨[], delimiter, true⟩
  | first :: rest => (recordHead rest).map fun head => { head with name := first :: head.name }
  | [] => none

/-- A value which is being read: the text since its first line, and that text without the newline
at its end. -/
structure Heredoc where
  (name delimiter collected value : Text)

structure ParseState where
  commands : List (Text × Text)
  heredoc : Option Heredoc

section Parser

variable (kind : CommandFileKind) (limits : CommandFileLimits)

def validateName (name : Text) : Except CommandFileError Unit := do
  rejectIf (name = []) (.emptyName kind)
  rejectIf (limits.maximumNameBytes < byteLength name) (.nameTooLong kind limits.maximumNameBytes)

def validateValue (value : Text) : Except CommandFileError Unit :=
  rejectIf (limits.maximumValueBytes < byteLength value)
    (.valueTooLong kind limits.maximumValueBytes)

def parseRecord (commands : List (Text × Text)) (line : Text) :
    Except CommandFileError ParseState := do
  rejectIf (limits.maximumRecords ≤ commands.length) (.tooManyRecords kind limits.maximumRecords)
  let head ← okOr (recordHead line) (.malformedRecord kind)
  validateName kind limits head.name
  if head.isHeredoc then
    rejectIf (head.content = []) (.emptyDelimiter kind)
    rejectIf (limits.maximumNameBytes < byteLength head.content)
      (.nameTooLong kind limits.maximumNameBytes)
    return ⟨commands, some ⟨head.name, head.content, [], []⟩⟩
  else
    validateValue kind limits head.content
    return ⟨commands ++ [(head.name, head.content)], none⟩

def parseLine (state : ParseState) (line : ReadLine) : Except CommandFileError ParseState := do
  rejectIf (limits.maximumLineBytes < byteLength line.text)
    (.lineTooLong kind limits.maximumLineBytes)
  match state.heredoc with
  | none =>
    if line.text = [] then return state
    else parseRecord kind limits state.commands line.text
  | some heredoc =>
    if line.text = heredoc.delimiter then
      validateValue kind limits heredoc.value
      return ⟨state.commands ++ [(heredoc.name, heredoc.value)], none⟩
    else
      rejectIf (line.newline = []) (.heredocValueMissingNewline kind)
      return ⟨state.commands, some { heredoc with
        collected := heredoc.collected ++ line.text ++ line.newline
        value := heredoc.collected ++ line.text }⟩

variable (platform : CommandFilePlatform)

def parseFrom (state : ParseState) (text : Text) : Except CommandFileError ParseState :=
  (readEnvLines platform [] text).foldlM (parseLine kind limits) state

def parseNameValues (text : Text) : Except CommandFileError (List (Text × Text)) := do
  let state ← parseFrom kind limits platform ⟨[], none⟩ text
  rejectIf (state.heredoc.isSome = true) (.missingDelimiter kind)
  return state.commands

def decode (source : Text) : Except CommandFileError (List (Text × Text)) := do
  rejectIf (limits.maximumFileBytes < byteLength source)
    (.fileTooLarge kind limits.maximumFileBytes (byteLength source))
  let text := if source.head? = some '\ufeff' then source.tail else source
  rejectIf ('\x00' ∈ text) (.malformedRecord kind)
  parseNameValues kind limits platform text

end Parser

section Lines

variable {platform : CommandFilePlatform}

theorem endLine_append (line : Text) :
    (endLine platform line).text ++ (endLine platform line).newline = line ++ ['\n'] := by
  unfold endLine
  split
  next hbreak =>
    have hline := List.dropLast_append_getLast? '\r' hbreak.2
    change line.dropLast ++ (['\r'] ++ ['\n']) = _
    rw [← List.append_assoc, hline]
  next => rfl

theorem endLine_newline_ne_nil (line : Text) : (endLine platform line).newline ≠ [] := by
  unfold endLine
  split <;> exact List.cons_ne_nil _ _

theorem endLine_text_append (front line : Text) :
    (endLine platform (front ++ '\n' :: line)).text =
      front ++ '\n' :: (endLine platform line).text := by
  unfold endLine
  cases line using List.reverseRecOn with
  | nil => simp
  | append_singleton line last =>
    have hassoc : front ++ '\n' :: (line ++ [last]) = (front ++ '\n' :: line) ++ [last] := by simp
    rw [hassoc, List.getLast?_concat, List.getLast?_concat, List.dropLast_concat,
      List.dropLast_concat]
    split <;> simp

theorem readEnvLines_append (line text rest : Text) :
    readEnvLines platform line (text ++ '\n' :: rest) =
      readEnvLines platform line (text ++ ['\n']) ++ readEnvLines platform [] rest := by
  induction text generalizing line with
  | nil => simp [readEnvLines]
  | cons first more ih =>
    simp only [List.cons_append, readEnvLines]
    split
    next => rw [ih, List.cons_append]
    next => rw [ih]

theorem readEnvLines_line {text : Text} (htext : '\n' ∉ text) (line : Text) :
    readEnvLines platform line (text ++ ['\n']) = [endLine platform (line ++ text)] := by
  induction text generalizing line with
  | nil => simp [readEnvLines]
  | cons first more ih =>
    rw [List.mem_cons, not_or] at htext
    rw [List.cons_append, readEnvLines, if_neg (Ne.symm htext.1), ih htext.2, List.append_assoc]
    rfl

end Lines

theorem recordHead_cons {first : Char} {rest : Text} (hequals : first ≠ '=')
    (hmark : ¬ (first = '<' ∧ rest.head? = some '<')) :
    recordHead (first :: rest) =
      (recordHead rest).map fun head => { head with name := first :: head.name } := by
  rw [recordHead.eq_def]
  split <;> simp_all

theorem recordHead_append {name rest content : Text} {isHeredoc : Bool}
    (hequals : '=' ∉ name) (hmark : ¬ ['<', '<'] <:+: name)
    (hlast : name.getLast? = some '<' → rest.head? ≠ some '<')
    (hrest : recordHead rest = some ⟨[], content, isHeredoc⟩) :
    recordHead (name ++ rest) = some ⟨name, content, isHeredoc⟩ := by
  induction name with
  | nil => exact hrest
  | cons first more ih =>
    rw [List.mem_cons, not_or] at hequals
    have hmore : ¬ ['<', '<'] <:+: more := fun hinside => hmark (List.infix_cons hinside)
    rw [List.cons_append, recordHead_cons (Ne.symm hequals.1), ih hequals.2 hmore]
    · rfl
    · intro hend
      exact hlast (by rw [List.getLast?_cons, hend]; rfl)
    · rintro ⟨rfl, hhead⟩
      cases more with
      | nil => exact hlast rfl hhead
      | cons second more =>
        cases hhead
        exact hmark ⟨[], more, rfl⟩

section Written

variable {kind : CommandFileKind} {limits : CommandFileLimits} {platform : CommandFilePlatform}

def LinesFit (limits : CommandFileLimits) (platform : CommandFilePlatform) (text : Text) : Prop :=
  ∀ line ∈ readEnvLines platform [] text, byteLength line.text ≤ limits.maximumLineBytes

variable {text rest raw name : Text} {commands pairs : List (Text × Text)} {lines : List ReadLine}
  {next state : ParseState}

theorem linesFit_append :
    LinesFit limits platform (text ++ '\n' :: rest) ↔
      LinesFit limits platform (text ++ ['\n']) ∧ LinesFit limits platform rest := by
  unfold LinesFit
  rw [readEnvLines_append, List.forall_mem_append]

theorem linesFit_line (hraw : '\n' ∉ raw) :
    LinesFit limits platform (raw ++ ['\n']) ↔
      byteLength (endLine platform raw).text ≤ limits.maximumLineBytes := by
  rw [LinesFit, readEnvLines_line hraw, List.nil_append, List.forall_mem_singleton]

abbrev NameFits (limits : CommandFileLimits) (name : Text) : Prop :=
  name ≠ [] ∧ byteLength name ≤ limits.maximumNameBytes

structure PlainName (limits : CommandFileLimits) (name : Text) : Prop where
  fits : NameFits limits name
  equals : '=' ∉ name
  mark : ¬ ['<', '<'] <:+: name
  lineFeed : '\n' ∉ name

/-- What a line feed or, on Windows, a carriage return and a line feed end; `raw` stands before the
line feed. -/
def EndedLine (platform : CommandFilePlatform) (text raw : Text) : Prop :=
  (raw = text ∧ ¬ (platform = .windows ∧ text.getLast? = some '\r')) ∨
    (platform = .windows ∧ raw = text ++ ['\r'])

theorem EndedLine.endLine_text (hended : EndedLine platform text raw) :
    (endLine platform raw).text = text := by
  rcases hended with ⟨rfl, hplain⟩ | ⟨hwindows, rfl⟩
  · rw [endLine, if_neg hplain]
  · simp [endLine, hwindows]

theorem endedLine_endLine (raw : Text) : EndedLine platform (endLine platform raw).text raw := by
  unfold endLine
  split
  next hbreak => exact .inr ⟨hbreak.1, (List.dropLast_append_getLast? '\r' hbreak.2).symm⟩
  next hplain => exact .inl ⟨rfl, hplain⟩

theorem EndedLine.of_notMem (htext : '\r' ∉ text) : EndedLine platform text text :=
  .inl ⟨rfl, fun hreturn => htext (List.mem_of_getLast? hreturn.2)⟩

theorem EndedLine.lineFeed (hended : EndedLine platform text raw) (htext : '\n' ∉ text) :
    '\n' ∉ raw := by
  rcases hended with ⟨rfl, -⟩ | ⟨-, rfl⟩
  · exact htext
  · simpa using htext

/-- Pairs of names and values written as records, with empty lines between them. -/
inductive Written (limits : CommandFileLimits) (platform : CommandFilePlatform) :
    List (Text × Text) → Text → Prop where
  | nil : Written limits platform [] []
  | blank {pairs : List (Text × Text)} {raw text : Text} (hraw : EndedLine platform [] raw)
      (hrest : Written limits platform pairs text) :
      Written limits platform pairs (raw ++ '\n' :: text)
  | single {pairs : List (Text × Text)} {name value raw text : Text}
      (hname : PlainName limits name) (hvalue : '\n' ∉ value)
      (hraw : EndedLine platform (name ++ '=' :: value) raw)
      (hrest : Written limits platform pairs text) :
      Written limits platform ((name, value) :: pairs) (raw ++ '\n' :: text)
  | heredoc {pairs : List (Text × Text)} {name value delimiter header body closing text : Text}
      (hname : PlainName limits name) (hlast : name.getLast? ≠ some '<')
      (hdelimiter : NameFits limits delimiter) (hfeed : '\n' ∉ delimiter)
      (hheader : EndedLine platform (name ++ '<' :: '<' :: delimiter) header)
      (hbody : EndedLine platform value body)
      (hlines : ∀ line ∈ readEnvLines platform [] (body ++ ['\n']), line.text ≠ delimiter)
      (hclosing : EndedLine platform delimiter closing)
      (hrest : Written limits platform pairs text) :
      Written limits platform ((name, value) :: pairs)
        (header ++ '\n' :: (body ++ '\n' :: (closing ++ '\n' :: text)))

section Lines

variable {commands : List (Text × Text)}
  {name value delimiter collected line newline raw rest : Text}

theorem parseLine_single (hname : PlainName limits name)
    (hvalue : byteLength value ≤ limits.maximumValueBytes)
    (hcount : commands.length < limits.maximumRecords)
    (hfit : byteLength (name ++ '=' :: value) ≤ limits.maximumLineBytes) :
    parseLine kind limits ⟨commands, none⟩ ⟨name ++ '=' :: value, newline⟩ =
      .ok ⟨commands ++ [(name, value)], none⟩ := by
  have hhead : recordHead (name ++ '=' :: value) = some ⟨name, value, false⟩ :=
    recordHead_append hname.equals hname.mark (fun _ => by simp) rfl
  rw [parseLine, rejectIf_of_not _ hfit.not_gt]
  simp [parseRecord, hhead, validateName, validateValue, hname.fits.1, hname.fits.2, hvalue, hcount]

theorem parseLine_header (hname : PlainName limits name) (hlast : name.getLast? ≠ some '<')
    (hdelimiter : NameFits limits delimiter) (hcount : commands.length < limits.maximumRecords)
    (hfit : byteLength (name ++ '<' :: '<' :: delimiter) ≤ limits.maximumLineBytes) :
    parseLine kind limits ⟨commands, none⟩ ⟨name ++ '<' :: '<' :: delimiter, newline⟩ =
      .ok ⟨commands, some ⟨name, delimiter, [], []⟩⟩ := by
  have hhead : recordHead (name ++ '<' :: '<' :: delimiter) = some ⟨name, delimiter, true⟩ :=
    recordHead_append hname.equals hname.mark (fun hend => absurd hend hlast) rfl
  rw [parseLine, rejectIf_of_not _ hfit.not_gt]
  simp [parseRecord, hhead, validateName, hname.fits.1, hname.fits.2, hdelimiter.1, hdelimiter.2,
    hcount]

theorem parseLine_value {line : ReadLine} (hline : line.text ≠ delimiter)
    (hnewline : line.newline ≠ []) (hfit : byteLength line.text ≤ limits.maximumLineBytes) :
    parseLine kind limits ⟨commands, some ⟨name, delimiter, collected, value⟩⟩ line =
      .ok ⟨commands, some ⟨name, delimiter, collected ++ line.text ++ line.newline,
        collected ++ line.text⟩⟩ := by
  simp [parseLine, hfit, hline, hnewline]

theorem parseLine_closing (hvalue : byteLength value ≤ limits.maximumValueBytes)
    (hfit : byteLength delimiter ≤ limits.maximumLineBytes) :
    parseLine kind limits ⟨commands, some ⟨name, delimiter, collected, value⟩⟩
      ⟨delimiter, newline⟩ = .ok ⟨commands ++ [(name, value)], none⟩ := by
  simp [parseLine, validateValue, hfit, hvalue]

variable {state next : ParseState}

theorem parseFrom_line (hraw : '\n' ∉ raw)
    (hline : parseLine kind limits state (endLine platform raw) = .ok next) :
    parseFrom kind limits platform state (raw ++ '\n' :: rest) =
      parseFrom kind limits platform next rest := by
  unfold parseFrom
  rw [readEnvLines_append, readEnvLines_line hraw, List.nil_append, List.singleton_append,
    List.foldlM_cons, hline, ok_bind]

theorem parseFrom_ended (hended : EndedLine platform line raw) (hfeed : '\n' ∉ line)
    (hfit : LinesFit limits platform (raw ++ ['\n']))
    (hline : byteLength line ≤ limits.maximumLineBytes →
      parseLine kind limits state ⟨line, (endLine platform raw).newline⟩ = .ok next) :
    parseFrom kind limits platform state (raw ++ '\n' :: rest) =
      parseFrom kind limits platform next rest := by
  have hraw := hended.lineFeed hfeed
  rw [linesFit_line hraw, hended.endLine_text] at hfit
  refine parseFrom_line hraw ?_
  rw [← hline hfit, ← hended.endLine_text]

end Lines

theorem parseFrom_body {delimiter : Text} (body rest collected value : Text)
    (hlines : ∀ line ∈ readEnvLines platform [] (body ++ ['\n']), line.text ≠ delimiter)
    (hfit : LinesFit limits platform (body ++ ['\n'])) :
    parseFrom kind limits platform ⟨commands, some ⟨name, delimiter, collected, value⟩⟩
        (body ++ '\n' :: rest) =
      parseFrom kind limits platform ⟨commands, some ⟨name, delimiter, collected ++ body ++ ['\n'],
        collected ++ (endLine platform body).text⟩⟩ rest := by
  by_cases hbody : '\n' ∈ body
  · obtain ⟨raw, more, hsplit, hraw⟩ := List.eq_append_cons_of_mem hbody
    rw [hsplit, List.append_assoc, List.cons_append] at hlines hfit
    rw [readEnvLines_append, List.forall_mem_append] at hlines
    rw [linesFit_append] at hfit
    rw [hsplit, List.append_assoc, List.cons_append, parseFrom_body raw _ _ _ hlines.1 hfit.1,
      parseFrom_body more _ _ _ hlines.2 hfit.2, endLine_text_append]
    simp
  · rw [readEnvLines_line hbody, List.nil_append, List.forall_mem_singleton] at hlines
    rw [linesFit_line hbody] at hfit
    rw [parseFrom_line hbody (parseLine_value hlines (endLine_newline_ne_nil body) hfit),
      List.append_assoc, endLine_append, List.append_assoc]
termination_by body.length
decreasing_by
  all_goals
    rw [hsplit, List.length_append, List.length_cons]
    omega

theorem Written.parseFrom (hwritten : Written limits platform pairs text)
    (hfit : LinesFit limits platform text)
    (hvalues : ∀ pair ∈ pairs, byteLength pair.2 ≤ limits.maximumValueBytes)
    (commands : List (Text × Text))
    (hcount : commands.length + pairs.length ≤ limits.maximumRecords) :
    parseFrom kind limits platform ⟨commands, none⟩ text = .ok ⟨commands ++ pairs, none⟩ := by
  induction hwritten generalizing commands with
  | nil => simp [CommandFiles.parseFrom, readEnvLines, pure, Except.pure]
  | blank hraw _ ih =>
    rw [linesFit_append] at hfit
    rw [parseFrom_ended hraw List.not_mem_nil hfit.1 fun _ => rfl, ih hfit.2 hvalues _ hcount]
  | single hname hvalue hraw _ ih =>
    rw [linesFit_append] at hfit
    simp only [List.forall_mem_cons] at hvalues
    rw [List.length_cons] at hcount
    rw [parseFrom_ended hraw (by simp [hname.lineFeed, hvalue]) hfit.1
      (parseLine_single hname hvalues.1 (by omega)), ih hfit.2 hvalues.2]
    · simp
    · simp only [List.length_append, List.length_singleton]
      omega
  | heredoc hname hlast hdelimiter hfeed hheader hbody hlines hclosing _ ih =>
    obtain ⟨hheaderFit, hfit⟩ := linesFit_append.mp hfit
    obtain ⟨hbodyFit, hfit⟩ := linesFit_append.mp hfit
    obtain ⟨hclosingFit, hfit⟩ := linesFit_append.mp hfit
    simp only [List.forall_mem_cons] at hvalues
    rw [List.length_cons] at hcount
    rw [parseFrom_ended hheader (by simp [hname.lineFeed, hfeed]) hheaderFit
        (parseLine_header hname hlast hdelimiter (by omega)),
      parseFrom_body _ _ _ _ hlines hbodyFit, hbody.endLine_text, List.nil_append, List.nil_append,
      parseFrom_ended hclosing hfeed hclosingFit (parseLine_closing hvalues.1), ih hfit hvalues.2]
    · simp
    · simp only [List.length_append, List.length_singleton]
      omega

structure FileFits (limits : CommandFileLimits) (platform : CommandFilePlatform)
    (pairs : List (Text × Text)) (text : Text) : Prop where
  bytes : byteLength text ≤ limits.maximumFileBytes
  lines : LinesFit limits platform text
  count : pairs.length ≤ limits.maximumRecords
  values : ∀ pair ∈ pairs, byteLength pair.2 ≤ limits.maximumValueBytes

section Files

variable {pairs : List (Text × Text)} {text : Text}

theorem Written.parseNameValues (hwritten : Written limits platform pairs text)
    (hfits : FileFits limits platform pairs text) :
    parseNameValues kind limits platform text = .ok pairs := by
  have hparse : CommandFiles.parseFrom kind limits platform ⟨[], none⟩ text = .ok ⟨pairs, none⟩ :=
    hwritten.parseFrom hfits.lines hfits.values [] (by simpa using hfits.count)
  simp [CommandFiles.parseNameValues, hparse]

theorem decode_eq_parseNameValues (hbytes : byteLength text ≤ limits.maximumFileBytes)
    (hmark : text.head? ≠ some '\ufeff') (hnul : '\x00' ∉ text) :
    decode kind limits platform text = parseNameValues kind limits platform text := by
  rw [decode, rejectIf_of_not _ hbytes.not_gt, ok_bind, if_neg hmark]
  simp only [rejectIf_of_not _ hnul, ok_bind]

/-- The value of a record never adds, removes or alters another record. -/
theorem decode_written (hfits : FileFits limits platform pairs text)
    (hwritten : Written limits platform pairs text) (hmark : text.head? ≠ some '\ufeff')
    (hnul : '\x00' ∉ text) :
    decode kind limits platform text = .ok pairs := by
  rw [decode_eq_parseNameValues hfits.bytes hmark hnul]
  exact hwritten.parseNameValues hfits

end Files

def sampleLimits : CommandFileLimits :=
  ⟨4096, 256, 16, 64, 1024⟩

def recordsText : Text :=
  "a=b\r\n\r\nlog<<E\r\nx=1\r\n\r\ny<<F\r\nE\r\n".toList

theorem decode_two_records :
    decode .output sampleLimits .windows recordsText =
      .ok [("a".toList, "b".toList), ("log".toList, "x=1\r\n\r\ny<<F".toList)] := by
  have hended (line : Text) : EndedLine .windows line (line ++ ['\r']) := .inr ⟨rfl, rfl⟩
  have hname : PlainName sampleLimits "a".toList :=
    ⟨by decide +kernel, by decide, by decide +kernel, by decide⟩
  have hlog : PlainName sampleLimits "log".toList :=
    ⟨by decide +kernel, by decide, by decide +kernel, by decide⟩
  refine decode_written ⟨?_, ?_, ?_, ?_⟩ (.single hname (by decide) (hended _) (.blank (hended _)
    (.heredoc hlog (by decide) (by decide +kernel) (by decide) (hended _) (hended _)
      (forall_mem_of_all (by decide +kernel)) (hended "E".toList) .nil))) ?_ ?_
  · decide +kernel
  · exact forall_mem_of_all (by decide +kernel)
  · decide
  · simp only [List.forall_mem_cons]
    decide +kernel
  · decide
  · decide

def ParseState.names (state : ParseState) : List Text :=
  state.commands.map Prod.fst ++ state.heredoc.toList.map Heredoc.name

theorem names_of_parseRecord {line : Text} {head : RecordHead} (hhead : recordHead line = some head)
    (hline : parseRecord kind limits commands line = .ok next) :
    next.names = commands.map Prod.fst ++ [head.name] := by
  simp only [parseRecord, hhead, bind_eq_ok, okOr_eq_ok, Option.some.injEq] at hline
  obtain ⟨_, -, _, rfl, _, -, hnext⟩ := hline
  split at hnext
  all_goals simp only [bind_eq_ok, pure_eq_ok] at hnext
  · obtain ⟨_, -, _, -, rfl⟩ := hnext
    rfl
  · obtain ⟨_, -, rfl⟩ := hnext
    simp [ParseState.names]

theorem names_of_parseLine {line : ReadLine} (hline : parseLine kind limits state line = .ok next) :
    state.names <+: next.names := by
  obtain ⟨commands, heredoc⟩ := state
  simp only [parseLine, bind_eq_ok] at hline
  obtain ⟨_, -, hnext⟩ := hline
  cases heredoc with
  | none =>
    simp only at hnext
    split at hnext
    next =>
      cases hnext
      exact List.prefix_rfl
    next =>
      cases hhead : recordHead line.text with
      | none => simp [parseRecord, hhead] at hnext
      | some =>
        rw [names_of_parseRecord hhead hnext]
        simp [ParseState.names]
  | some =>
    simp only at hnext
    split at hnext
    all_goals
      simp only [bind_eq_ok, pure_eq_ok] at hnext
      obtain ⟨_, -, rfl⟩ := hnext
      simp [ParseState.names]

theorem names_of_foldlM (hlines : lines.foldlM (parseLine kind limits) state = .ok next) :
    state.names <+: next.names := by
  induction lines generalizing state with
  | nil =>
    cases hlines
    exact List.prefix_rfl
  | cons line rest ih =>
    rw [List.foldlM_cons, bind_eq_ok] at hlines
    obtain ⟨middle, hline, hrest⟩ := hlines
    exact (names_of_parseLine hline).trans (ih hrest)

theorem name_of_parseNameValues {content : Text} {isHeredoc : Bool} (hraw : '\n' ∉ raw)
    (hhead : recordHead (endLine platform raw).text = some ⟨name, content, isHeredoc⟩)
    (hpairs : parseNameValues kind limits platform (raw ++ '\n' :: rest) = .ok pairs) :
    [name] <+: pairs.map Prod.fst := by
  simp only [parseNameValues, CommandFiles.parseFrom, readEnvLines_append, readEnvLines_line hraw,
    List.nil_append, List.singleton_append, List.foldlM_cons, bind_eq_ok, rejectIf_eq_ok,
    pure_eq_ok, parseLine] at hpairs
  obtain ⟨state, ⟨first, ⟨_, -, hfirst⟩, hrest⟩, _, hclosed, rfl⟩ := hpairs
  have hne : (endLine platform raw).text ≠ [] := by
    intro hempty
    rw [hempty] at hhead
    cases hhead
  rw [if_neg hne] at hfirst
  have hnames := names_of_foldlM hrest
  rw [names_of_parseRecord hhead hfirst] at hnames
  simpa [ParseState.names, Option.not_isSome_iff_eq_none.mp hclosed] using hnames

end Written

end AutomataCi.CommandFiles
