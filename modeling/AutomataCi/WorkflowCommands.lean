import AutomataCi.GuardedResult
import AutomataCi.SubstringSearch
import AutomataCi.TextOperations

/-!
# Workflow commands

A step talks to the runner through its output.  A line of the form
`::name properties::data` is a command, every other line is output.  A
session follows the lines of one step: it counts them against its limits,
registers masks, and suspends the recognition of commands between a
`stop-commands` command and its token.

Text is a list of characters.
-/

namespace AutomataCi

open GuardedResult SubstringSearch TextOperations

def unescape (first second third replacement : Char) : Text → Text
  | a :: b :: c :: rest =>
    if a = first ∧ b = second ∧ c = third then
      replacement :: unescape first second third replacement rest
    else a :: unescape first second third replacement (b :: c :: rest)
  | rest => rest

def unescapeV2Data (value : Text) : Text :=
  unescape '%' '2' '5' '%' (unescape '%' '0' 'A' '\n' (unescape '%' '0' 'D' '\r' value))

def unescapeV2Property (value : Text) : Text :=
  unescape '%' '2' '5' '%' (unescape '%' '2' 'C' ',' (unescape '%' '3' 'A' ':'
        (unescape '%' '0' 'A' '\n' (unescape '%' '0' 'D' '\r' value))))

def splitAtColons : Text → Option (Text × Text)
  | ':' :: ':' :: rest => some ([], rest)
  | first :: rest => (splitAtColons rest).map fun (before, after) => (first :: before, after)
  | [] => none

inductive WorkflowCommandError where
  | streamTooLarge (maximum : Nat)
  | tooManyLines (maximum : Nat)
  | lineTooLong (maximum : Nat)
  | nonUtf8
  | tooManyCommands (maximum : Nat)
  | tooManyProperties (maximum : Nat)
  | nameTooLong (maximum : Nat)
  | dataTooLong (maximum : Nat)
  | invalidStopToken
  | tooManyMasks (maximum : Nat)
  | invalidEchoValue
  deriving DecidableEq, Repr

structure WorkflowCommandLimits where
  (maximumStreamBytes maximumLineBytes maximumStreamLines maximumCommands maximumProperties : Nat)
  (maximumNameBytes maximumDataBytes maximumMasks : Nat)
  deriving DecidableEq, Repr

structure WorkflowCommandPolicy where
  enhancedAnnotations : Bool
  deriving DecidableEq, Repr

inductive AnnotationLevel where
  | error | warning | notice
  deriving DecidableEq, Repr

structure RawProperty where
  (name value : Text)
  deriving DecidableEq, Repr

structure Annotation where
  level : AnnotationLevel
  message : Text
  properties : List RawProperty
  deriving DecidableEq, Repr

inductive MatcherCommand where
  | add (file : Text)
  | removeOwner (owner : Text)
  | removeFile (file : Text)
  deriving DecidableEq, Repr

inductive CommandNotice where
  | emptyMaskIgnored | missingMatcherPath | invalidMatcherRemoval
  deriving DecidableEq, Repr

inductive WorkflowCommandEvent where
  | registerMask (masks : List Text)
  | annotationEvent (value : Annotation)
  | beginGroup (title : Text)
  | endGroup
  | debug (message : Text)
  | stopCommands (tokenMask : Option Text)
  | resumeCommands
  | matcher (command : MatcherCommand)
  | echoChanged (enabled : Bool)
  | notice (notice : CommandNotice)
  deriving DecidableEq, Repr

inductive WorkflowLine where
  | output (line : Text)
  | command (event : WorkflowCommandEvent)
  deriving DecidableEq, Repr

structure RawCommand where
  name : Text
  properties : List RawProperty
  data : Text
  deriving DecidableEq, Repr

def registeredCommands : List String :=
  ["add-mask", "add-matcher", "debug", "echo", "endgroup", "error", "group",
    "notice", "remove-matcher", "stop-commands", "warning"]

def isCommand (name : Text) (registered : String) : Bool :=
  sameIgnoringCase name registered.toList

def registered (command : Text) (dynamicCommand : Option Text) : Bool :=
  (registeredCommands.any fun registered => isCommand command registered) ||
    dynamicCommand.any fun dynamic => sameIgnoringCase dynamic command

section Parsing

variable (limits : WorkflowCommandLimits)

def validateData (data : Text) : Except WorkflowCommandError Unit :=
  rejectIf (limits.maximumDataBytes < (utf8Bytes data).length)
    (.dataTooLong limits.maximumDataBytes)

def validateCommandName (name : Text) : Except WorkflowCommandError Unit :=
  rejectIf (limits.maximumNameBytes < (utf8Bytes name).length)
    (.nameTooLong limits.maximumNameBytes)

/-- A property given again takes the later value in the earlier place. -/
def putProperty (name value : Text) : List RawProperty → List RawProperty
  | [] => [⟨name, value⟩]
  | property :: rest =>
    if sameIgnoringCase property.name name then ⟨property.name, value⟩ :: rest
    else property :: putProperty name value rest

/-- One part between commas, with the number of parts before it. -/
def parseProperty (parsed : Nat × List RawProperty) (property : Text) :
    Except WorkflowCommandError (Nat × List RawProperty) := do
  let count := parsed.1 + 1
  rejectIf (limits.maximumProperties < count) (.tooManyProperties limits.maximumProperties)
  match splitAtFirst '=' property with
  | none => return (count, parsed.2)
  | some (name, rawValue) =>
    if name = [] ∨ rawValue = [] then return (count, parsed.2)
    else
      validateCommandName limits name
      let value := unescapeV2Property rawValue
      validateData limits value
      return (count, putProperty name value parsed.2)

def parseProperties (source : Text) : Except WorkflowCommandError (List RawProperty) := do
  let parts := (splitWhere (· = ',') source).filter fun part => part ≠ []
  let (_, properties) ← parts.foldlM (parseProperty limits) (0, [])
  return properties

def commandProperties (commandInfo : Text) : Except WorkflowCommandError (List RawProperty) :=
  match splitAtFirst ' ' commandInfo with
  | some (_ :: _, rest) => parseProperties limits (trim rest)
  | _ => .ok []

def commandName (commandInfo : Text) : Text :=
  ((splitAtFirst ' ' commandInfo).map Prod.fst).getD commandInfo

def parseCommandBody (rest : Text) (dynamicCommand : Option Text) :
    Except WorkflowCommandError (Option RawCommand) :=
  match splitAtColons rest with
  | none => .ok none
  | some (commandInfo, rawData) =>
    let name := commandName commandInfo
    if registered name dynamicCommand = false then .ok none
    else do
      validateCommandName limits name
      let properties ← commandProperties limits commandInfo
      let data := unescapeV2Data rawData
      validateData limits data
      return some { name, properties, data }

def parseCommand (line : Text) (dynamicCommand : Option Text) :
    Except WorkflowCommandError (Option RawCommand) :=
  match trimStart line with
  | ':' :: ':' :: rest => parseCommandBody limits rest dynamicCommand
  | _ => .ok none

end Parsing

def validStopToken (token : Text) (maximumBytes : Nat) : Bool :=
  !token.isEmpty && decide ((utf8Bytes token).length ≤ maximumBytes) &&
    !(registeredCommands.any fun registered => isCommand token registered) &&
    !isCommand token "pause-logging" &&
    token.all fun character =>
      character.isAlphanum || character = '-' || character = '_' || character = '.'

def propertyValue (properties : List RawProperty) (name : String) : Option Text :=
  (properties.find? fun property =>
    sameIgnoringCase property.name name.toList).map RawProperty.value

def removeProperty (name : String) (properties : List RawProperty) : List RawProperty :=
  properties.filter fun property => !sameIgnoringCase property.name name.toList

def parseDotnetI32 (value : Option Text) : Option Int := do
  let text := trim (← value)
  let digits := if text.head? = some '+' ∨ text.head? = some '-' then text.tail else text
  if digits = [] ∨ digits.all Char.isDigit = false then none
  else
    let magnitude : Int := decimalValue digits
    let number := if text.head? = some '-' then -magnitude else magnitude
    if -2 ^ 31 ≤ number ∧ number < 2 ^ 31 then some number else none

/-- A missing start is taken from the end.  Columns are dropped without a line
or across lines, and so is a range which ends before it starts. -/
def normalizeAnnotationLocations (given : List RawProperty) : List RawProperty := Id.run do
  let mut properties := given
  let mut line := propertyValue properties "line"
  let endLine := propertyValue properties "endLine"
  let endColumn := propertyValue properties "endColumn"
  let mut parsedLine := parseDotnetI32 line
  let parsedEndLine := parseDotnetI32 endLine
  let mut parsedColumn := parseDotnetI32 (propertyValue properties "col")
  let parsedEndColumn := parseDotnetI32 endColumn
  if parsedEndLine.isSome ∧ parsedLine.isNone then
    properties := putProperty "line".toList (endLine.getD []) properties
    line := endLine
    -- the start counts as zero, not as the value written for it
    parsedLine := some 0
  if parsedEndColumn.isSome ∧ parsedColumn.isNone then
    properties := putProperty "col".toList (endColumn.getD []) properties
    parsedColumn := some 0
  let hasColumn := parsedColumn.isSome || parsedEndColumn.isSome
  if parsedLine.isNone ∧ hasColumn then
    properties := removeProperty "endColumn" (removeProperty "col" properties)
  if parsedEndLine.isSome ∧ line ≠ endLine ∧ hasColumn then
    properties := removeProperty "endColumn" (removeProperty "col" properties)
  if parsedLine.any fun start => parsedEndLine.any (· < start) then
    properties := removeProperty "endLine" (removeProperty "line" properties)
  if parsedColumn.any fun start => parsedEndColumn.any (· < start) then
    properties := removeProperty "endColumn" (removeProperty "col" properties)
  return properties

def annotation (level : AnnotationLevel) (command : RawCommand) : Annotation :=
  { level
    message := command.data
    properties := normalizeAnnotationLocations command.properties }

def removeMatcher (command : RawCommand) : WorkflowCommandEvent :=
  match (propertyValue command.properties "owner").filter fun owner => owner ≠ [] with
  | some owner =>
    if command.data = [] then .matcher (.removeOwner owner)
    else .notice .invalidMatcherRemoval
  | none =>
    if command.data = [] then .notice .invalidMatcherRemoval
    else .matcher (.removeFile command.data)

def isLineBreak (character : Char) : Bool :=
  character = '\r' || character = '\n'

def nonBlankLines (value : Text) : List Text :=
  ((splitWhere isLineBreak value).map trim).filter fun line => line ≠ []

structure ActionsWorkflowCommandSession where
  limits : WorkflowCommandLimits
  policy : WorkflowCommandPolicy
  (observedBytes observedLines observedCommands registeredMasks : Nat)
  stoppedToken : Option Text
  echoEnabled : Bool
  deriving DecidableEq, Repr

namespace ActionsWorkflowCommandSession

def new (limits : WorkflowCommandLimits) (policy : WorkflowCommandPolicy) :
    ActionsWorkflowCommandSession :=
  { limits
    policy
    observedBytes := 0
    observedLines := 0
    observedCommands := 0
    registeredMasks := 0
    stoppedToken := none
    echoEnabled := false }

variable (session : ActionsWorkflowCommandSession)

def observeLine (source : Bytes) : Except WorkflowCommandError ActionsWorkflowCommandSession := do
  let limits := session.limits
  rejectIf (limits.maximumLineBytes < source.length) (.lineTooLong limits.maximumLineBytes)
  let bytes := session.observedBytes + source.length
  rejectIf (limits.maximumStreamBytes < bytes) (.streamTooLarge limits.maximumStreamBytes)
  let lines := session.observedLines + 1
  rejectIf (limits.maximumStreamLines < lines) (.tooManyLines limits.maximumStreamLines)
  return { session with observedBytes := bytes, observedLines := lines }

def observeCommand : Except WorkflowCommandError ActionsWorkflowCommandSession := do
  let commands := session.observedCommands + 1
  rejectIf (session.limits.maximumCommands < commands)
    (.tooManyCommands session.limits.maximumCommands)
  return { session with observedCommands := commands }

def registerMaskCount (count : Nat) :
    Except WorkflowCommandError ActionsWorkflowCommandSession := do
  let masks := session.registeredMasks + count
  rejectIf (session.limits.maximumMasks < masks) (.tooManyMasks session.limits.maximumMasks)
  return { session with registeredMasks := masks }

def addMask (value : Text) : Except WorkflowCommandError
      (WorkflowCommandEvent × ActionsWorkflowCommandSession) :=
  if trim value = [] then .ok (.notice .emptyMaskIgnored, session)
  else do
    let masks := value :: nonBlankLines value
    let session ← session.registerMaskCount masks.length
    return (.registerMask masks, session)

def stopCommands (token : Text) : Except WorkflowCommandError
      (WorkflowCommandEvent × ActionsWorkflowCommandSession) := do
  rejectIf (validStopToken token session.limits.maximumNameBytes = false) .invalidStopToken
  if 6 < (utf8Bytes token).length then
    let session ← session.registerMaskCount 1
    return (.stopCommands (some token), { session with stoppedToken := some token })
  else
    return (.stopCommands none, { session with stoppedToken := some token })

def echo (data : Text) : Except WorkflowCommandError
      (WorkflowCommandEvent × ActionsWorkflowCommandSession) :=
  let value := (trim data).map Char.toUpper
  if value = "ON".toList then
    .ok (.echoChanged true, { session with echoEnabled := true })
  else if value = "OFF".toList then
    .ok (.echoChanged false, { session with echoEnabled := false })
  else .error .invalidEchoValue

def processCommand (raw : RawCommand) (originalLine : Text) : Except WorkflowCommandError
      (WorkflowLine × ActionsWorkflowCommandSession) :=
  if isCommand raw.name "add-mask" then do
    let (event, session) ← session.addMask raw.data
    return (.command event, session)
  else if isCommand raw.name "error" then
    .ok (.command (.annotationEvent ( annotation .error raw)), session)
  else if isCommand raw.name "warning" then
    .ok (.command (.annotationEvent ( annotation .warning raw)), session)
  else if isCommand raw.name "notice" then
    if session.policy.enhancedAnnotations then
      .ok (.command (.annotationEvent ( annotation .notice raw)), session)
    else .ok (.output originalLine, session)
  else if isCommand raw.name "group" then
    .ok (.command (.beginGroup raw.data), session)
  else if isCommand raw.name "endgroup" then
    .ok (.command .endGroup, session)
  else if isCommand raw.name "debug" then
    .ok (.command (.debug raw.data), session)
  else if isCommand raw.name "stop-commands" then do
    let (event, session) ← session.stopCommands raw.data
    return (.command event, session)
  else if isCommand raw.name "add-matcher" then
    if raw.data = [] then
      .ok (.command (.notice .missingMatcherPath), session)
    else .ok (.command (.matcher (.add raw.data)), session)
  else if isCommand raw.name "remove-matcher" then
    .ok (.command (removeMatcher raw), session)
  else if isCommand raw.name "echo" then do
    let (event, session) ← session.echo raw.data
    return (.command event, session)
  else .ok (.output originalLine, session)

def processStopped (line stopToken : Text) : Except WorkflowCommandError
      (WorkflowLine × ActionsWorkflowCommandSession) := do
  let raw ← parseCommand session.limits line (some stopToken)
  match raw with
  | none => return (.output line, session)
  | some raw =>
    let session ← session.observeCommand
    if sameIgnoringCase raw.name stopToken then
      return (.command .resumeCommands, { session with stoppedToken := none })
    else return (.output line, session)

def processLine (source : Bytes) : Except WorkflowCommandError
      (WorkflowLine × ActionsWorkflowCommandSession) := do
  let session ← session.observeLine source
  let line ← okOr (fromUtf8 source) .nonUtf8
  match session.stoppedToken with
  | some stopToken => session.processStopped line stopToken
  | none =>
    let raw ← parseCommand session.limits line none
    match raw with
    | none => return (.output line, session)
    | some raw =>
      let session ← session.observeCommand
      session.processCommand raw line

end ActionsWorkflowCommandSession

variable {value line : Text}

theorem infix_of_mem_nonBlankLines (hline : line ∈ nonBlankLines value) : line <:+: value := by
  obtain ⟨hmem, -⟩ := List.mem_filter.mp hline
  obtain ⟨part, hpart, rfl⟩ := List.mem_map.mp hmem
  exact (trim_isInfix part).trans (infix_of_mem_splitWhere hpart)

theorem newline_notMem_nonBlankLines (hline : line ∈ nonBlankLines value) : '\n' ∉ line := by
  obtain ⟨hmem, -⟩ := List.mem_filter.mp hline
  obtain ⟨part, hpart, rfl⟩ := List.mem_map.mp hmem
  intro hnewline
  have hbreak := not_isSeparator_of_mem_splitWhere hpart ((trim_isInfix part).subset hnewline)
  cases hbreak

end AutomataCi
