import AutomataCi.ExpressionPrograms
import AutomataCi.LogicalJobResults
import AutomataCi.TextOperations

/-!
# Runtime contexts and their wire form

The runtime context of a job holds three value trees, the strategy, the results
of its prerequisites and the locators of its secrets.  On the wire the trees are
one list of nodes, in which a composite node names its children by index.  The
encoder numbers the nodes in post-order.  The decoder asks that every child
comes before its parent and that every node is named once.

A sorted map is the list of its entries.
-/

namespace AutomataCi.RuntimeContexts

open GuardedResult TextOperations

/-! ## Contexts -/

inductive ContextValue where
  | null
  | boolean (value : Bool)
  | number (ieee754Bits : BitVec 64)
  | string (value : String)
  | array (values : List ContextValue)
  | object (values : List (String × ContextValue))

structure StrategyContext where
  failFast : Bool
  (jobIndex jobTotal maxParallel : Nat)
  deriving DecidableEq

structure NeedOutput where
  value : String
  sensitivity : OutputSensitivity

structure NeedContext where
  result : JobConclusion
  outputs : List (String × NeedOutput)

structure SecretBinding where
  bindingId : String
  versionId : Option String
  deriving DecidableEq

structure JobRuntimeContext where
  schemaVersion : Nat
  (inputs vars matrix : ContextValue)
  strategy : StrategyContext
  needs : List (String × NeedContext)
  secrets : List (String × SecretBinding)

/-! ## Validation -/

inductive RuntimeContextError where
  | unsupportedSchema (supported received : Nat)
  | contextMustBeObject (field : String)
  | valueTooDeep (maximum : Nat)
  | tooManyValueNodes (maximum : Nat)
  | tooMuchValueText (maximum : Nat)
  | nonCanonicalNan
  | zeroJobTotal
  | jobIndexOutOfRange (index total : Nat)
  | zeroMaxParallel
  | invalidIdentifier (field : String)
  deriving DecidableEq

def jobRuntimeContextSchemaVersion : Nat :=
  1

def maxContextValueDepth : Nat :=
  32

def maxContextValueNodes : Nat :=
  65536

def maxContextValueTextBytes : Nat :=
  1048576

def maxRuntimeContextIdentifierBytes : Nat :=
  1024

def validateRuntimeKey (value field : String) : Except RuntimeContextError Unit :=
  rejectIf (value = "" ∨ trim value.toList ≠ value.toList ∨
      maxRuntimeContextIdentifierBytes < value.utf8ByteSize ∨ value.toList.any isControl = true)
    (.invalidIdentifier field)

structure ContextBudget where
  (nodes textBytes : Nat)

namespace ContextBudget

def ensureNodeCapacity (budget : ContextBudget) (pending additional : Nat) :
    Except RuntimeContextError Unit :=
  rejectIf (maxContextValueNodes < budget.nodes + pending + additional)
    (.tooManyValueNodes maxContextValueNodes)

def chargeNode (budget : ContextBudget) : Except RuntimeContextError ContextBudget := do
  rejectIf (maxContextValueNodes < budget.nodes + 1) (.tooManyValueNodes maxContextValueNodes)
  return { budget with nodes := budget.nodes + 1 }

def chargeText (budget : ContextBudget) (text : String) :
    Except RuntimeContextError ContextBudget := do
  rejectIf (maxContextValueTextBytes < budget.textBytes + text.utf8ByteSize)
    (.tooMuchValueText maxContextValueTextBytes)
  return { budget with textBytes := budget.textBytes + text.utf8ByteSize }

end ContextBudget

def visit (depth : Nat) (budget : ContextBudget) : Except RuntimeContextError ContextBudget := do
  rejectIf (maxContextValueDepth < depth) (.valueTooDeep maxContextValueDepth)
  budget.chargeNode

mutual

/-- The loop over a stack as a recursion: children are pushed in reverse, so that they come off
in order, and `pending` is the length of the stack below. -/
def charge (depth pending : Nat) (budget : ContextBudget) :
    ContextValue → Except RuntimeContextError ContextBudget
  | .null => visit depth budget
  | .boolean _ => visit depth budget
  | .number bits => do
    let budget ← visit depth budget
    rejectIf (ExpressionLiteral.isNan bits = true ∧ bits ≠ ExpressionLiteral.canonicalNan)
      .nonCanonicalNan
    return budget
  | .string value => do
    let budget ← visit depth budget
    budget.chargeText value
  | .array values => do
    let budget ← visit depth budget
    budget.ensureNodeCapacity pending values.length
    chargeAll (depth + 1) pending budget values
  | .object values => do
    let budget ← visit depth budget
    budget.ensureNodeCapacity pending values.length
    let budget ← values.reverse.foldlM (fun budget entry => budget.chargeText entry.1) budget
    chargeEntries (depth + 1) pending budget values

def chargeAll (depth pending : Nat) (budget : ContextBudget) :
    List ContextValue → Except RuntimeContextError ContextBudget
  | [] => .ok budget
  | value :: rest => do
    let budget ← charge depth (pending + rest.length) budget value
    chargeAll depth pending budget rest

def chargeEntries (depth pending : Nat) (budget : ContextBudget) :
    List (String × ContextValue) → Except RuntimeContextError ContextBudget
  | [] => .ok budget
  | (_, value) :: rest => do
    let budget ← charge depth (pending + rest.length) budget value
    chargeEntries depth pending budget rest

end

/-- The keyed parts of a context and of a need are charged with their keys. -/
def chargeKeyed {α : Type} (field : String)
    (charge : α → ContextBudget → Except RuntimeContextError ContextBudget)
    (budget : ContextBudget) (entry : String × α) : Except RuntimeContextError ContextBudget := do
  validateRuntimeKey entry.1 field
  let budget ← budget.chargeText entry.1
  charge entry.2 budget

def StrategyContext.validate (strategy : StrategyContext) : Except RuntimeContextError Unit := do
  rejectIf (strategy.jobTotal = 0) .zeroJobTotal
  rejectIf (strategy.jobTotal ≤ strategy.jobIndex)
    (.jobIndexOutOfRange strategy.jobIndex strategy.jobTotal)
  rejectIf (strategy.maxParallel = 0) .zeroMaxParallel

def NeedOutput.charge (output : NeedOutput) (budget : ContextBudget) :
    Except RuntimeContextError ContextBudget := do
  let budget ← budget.chargeNode
  budget.chargeText output.value

def NeedContext.charge (need : NeedContext) (budget : ContextBudget) :
    Except RuntimeContextError ContextBudget := do
  let budget ← budget.chargeNode
  need.outputs.foldlM (chargeKeyed "need output" NeedOutput.charge) budget

def SecretBinding.validate (binding : SecretBinding) : Except RuntimeContextError Unit := do
  validateRuntimeKey binding.bindingId "secret binding ID"
  ifPresent binding.versionId fun versionId => validateRuntimeKey versionId "secret version ID"

def SecretBinding.charge (binding : SecretBinding) (budget : ContextBudget) :
    Except RuntimeContextError ContextBudget := do
  binding.validate
  let budget ← budget.chargeNode
  let budget ← budget.chargeText binding.bindingId
  match binding.versionId with
  | none => return budget
  | some versionId => budget.chargeText versionId

def validateRoot (root : String × ContextValue) : Except RuntimeContextError Unit :=
  match root.2 with
  | .object values => values.forM fun entry => validateRuntimeKey entry.1 root.1
  | _ => .error (.contextMustBeObject root.1)

def JobRuntimeContext.validate (context : JobRuntimeContext) :
    Except RuntimeContextError Unit := do
  rejectIf (context.schemaVersion ≠ jobRuntimeContextSchemaVersion)
    (.unsupportedSchema jobRuntimeContextSchemaVersion context.schemaVersion)
  [("inputs", context.inputs), ("vars", context.vars), ("matrix", context.matrix)].forM validateRoot
  context.strategy.validate
  let budget ← charge 1 0 ⟨0, 0⟩ context.inputs
  let budget ← charge 1 0 budget context.vars
  let budget ← charge 1 0 budget context.matrix
  let budget ← context.needs.foldlM (chargeKeyed "needs job" NeedContext.charge) budget
  let _ ← context.secrets.foldlM (chargeKeyed "secret name" SecretBinding.charge) budget

/-! ## Wire messages -/

inductive ContextNode where
  | null
  | boolean (value : Bool)
  | number (ieee754Bits : BitVec 64)
  | string (value : String)
  | array (childIndices : List Nat)
  | object (entries : List (String × Nat))
  deriving DecidableEq

abbrev ContextNodes :=
  List (Option ContextNode)

structure WireNeedOutput where
  value : String
  sensitivity : Int
  deriving DecidableEq

structure WireNeedContext where
  result : Int
  outputs : List (String × Option WireNeedOutput)
  deriving DecidableEq

structure WireContext where
  schemaVersion : Nat
  nodes : ContextNodes
  (inputsIndex varsIndex matrixIndex : Nat)
  strategy : Option StrategyContext
  needs : List (String × Option WireNeedContext)
  secrets : List (String × Option SecretBinding)
  deriving DecidableEq

/-! ## Encoding -/

mutual

def contextValue : ContextValue → ContextNodes → ContextNodes × Nat
  | .null, nodes => (nodes ++ [some .null], nodes.length)
  | .boolean value, nodes => (nodes ++ [some (.boolean value)], nodes.length)
  | .number bits, nodes => (nodes ++ [some (.number bits)], nodes.length)
  | .string value, nodes => (nodes ++ [some (.string value)], nodes.length)
  | .array values, nodes =>
    let (nodes, indices) := contextValues values nodes
    (nodes ++ [some (.array indices)], nodes.length)
  | .object values, nodes =>
    let (nodes, entries) := contextEntries values nodes
    (nodes ++ [some (.object entries)], nodes.length)

def contextValues : List ContextValue → ContextNodes → ContextNodes × List Nat
  | [], nodes => (nodes, [])
  | value :: rest, nodes =>
    let (nodes, index) := contextValue value nodes
    let (nodes, indices) := contextValues rest nodes
    (nodes, index :: indices)

def contextEntries : List (String × ContextValue) → ContextNodes →
    ContextNodes × List (String × Nat)
  | [], nodes => (nodes, [])
  | (key, value) :: rest, nodes =>
    let (nodes, index) := contextValue value nodes
    let (nodes, entries) := contextEntries rest nodes
    (nodes, (key, index) :: entries)

end

def encodeConclusion : JobConclusion → Int
  | .success => 1
  | .failure => 2
  | .cancelled => 3
  | .timedOut => 4
  | .skipped => 5

def encodeSensitivity : OutputSensitivity → Int
  | .publicOutput => 1
  | .secretDerived => 2

def encodeOutput (output : NeedOutput) : WireNeedOutput :=
  ⟨output.value, encodeSensitivity output.sensitivity⟩

def encodeNeed (need : NeedContext) : WireNeedContext :=
  { result := encodeConclusion need.result
    outputs := need.outputs.map fun entry => (entry.1, some (encodeOutput entry.2)) }

def encodeContext (context : JobRuntimeContext) : Except RuntimeContextError WireContext := do
  let (nodes, inputsIndex) := contextValue context.inputs []
  let (nodes, varsIndex) := contextValue context.vars nodes
  let (nodes, matrixIndex) := contextValue context.matrix nodes
  -- an index does not fit 32 bits
  rejectIf (2 ^ 32 < nodes.length) (.tooManyValueNodes maxContextValueNodes)
  return {
    schemaVersion := context.schemaVersion
    nodes
    inputsIndex
    varsIndex
    matrixIndex
    strategy := some context.strategy
    needs := context.needs.map fun entry => (entry.1, some (encodeNeed entry.2))
    secrets := context.secrets.map fun entry => (entry.1, some entry.2) }

/-- Up to the bytes of the message and their number. -/
def encodeJobRuntimeContext (context : JobRuntimeContext) :
    Except RuntimeContextError WireContext := do
  context.validate
  encodeContext context

/-! ## Decoding -/

inductive DecodeError where
  | unsupportedSchema (field : String) (received supported : Nat)
  | collectionTooLarge (field : String) (length maximum : Nat)
  | invalidValue (field : String)
  | missingField (field : String)
  | missingVariant (field : String)
  | nonCanonicalOrder (field : String)
  | duplicateEntry (field : String)
  | unknownEnum (field : String) (value : Int)
  | invalidRuntimeContext (error : RuntimeContextError)
  deriving DecidableEq

def checkCollection (length maximum : Nat) (field : String) : Except DecodeError Unit :=
  rejectIf (maximum < length) (.collectionTooLarge field length maximum)

def ensureCanonicalKeys (field : String) : List String → Except DecodeError Unit
  | first :: second :: rest => do
    rejectIf (first = second) (.duplicateEntry field)
    rejectIf (second < first) (.nonCanonicalOrder field)
    ensureCanonicalKeys field (second :: rest)
  | _ => .ok ()

def contextIndex (index nodeCount : Nat) : Except DecodeError Unit :=
  rejectIf (nodeCount ≤ index) (.invalidValue "job_runtime_context.node_index")

/-- Counts stay at most one, so that the increment of the eight bits cannot overflow. -/
def chargeReference (references : List Nat) (index : Nat) : Except DecodeError (List Nat) := do
  let count ← okOr references[index]? (.invalidValue "job_runtime_context.node_index")
  rejectIf (count + 1 ≠ 1) (.duplicateEntry "job_runtime_context.nodes")
  return references.set index (count + 1)

def chargeRoot (nodeCount : Nat) (references : List Nat) (root : Nat) :
    Except DecodeError (List Nat) := do
  contextIndex root nodeCount
  chargeReference references root

def chargeChild (nodeCount parent : Nat) (references : List Nat) (child : Nat) :
    Except DecodeError (List Nat) := do
  contextIndex child nodeCount
  rejectIf (parent ≤ child) (.nonCanonicalOrder "job_runtime_context.nodes")
  chargeReference references child

def ContextNode.children : ContextNode → List Nat
  | .array indices => indices
  | .object entries => entries.map Prod.snd
  | _ => []

def validateNode (maximum nodeCount : Nat) (references : List Nat)
    (entry : Option ContextNode × Nat) : Except DecodeError (List Nat) := do
  let node ← okOr entry.1 (.missingVariant "context_value_node.value")
  match node with
  | .array indices => checkCollection indices.length maximum "context_value_array.child_indices"
  | .object entries =>
    checkCollection entries.length maximum "context_value_object.entries"
    ensureCanonicalKeys "context_value_object.entries" (entries.map Prod.fst)
  | _ => pure ()
  node.children.foldlM (chargeChild nodeCount entry.2) references

def validateContextTree (maximum : Nat) (nodes : ContextNodes) (roots : List Nat) :
    Except DecodeError Unit := do
  let references ← roots.foldlM (chargeRoot nodes.length) (List.replicate nodes.length 0)
  let references ← nodes.zipIdx.foldlM (validateNode maximum nodes.length) references
  rejectIf (∃ count ∈ references, count ≠ 1) (.invalidValue "job_runtime_context.nodes")

/-- The value of a node whose children have been taken. -/
def ContextNode.value (children : List ContextValue) : ContextNode → ContextValue
  | .null => .null
  | .boolean value => .boolean value
  | .number bits => .number bits
  | .string value => .string value
  | .array _ => .array children
  | .object entries => .object ((entries.map Prod.fst).zip children)

def takeContextValue (nodeCount index : Nat) (values : List (Option ContextValue)) :
    Except DecodeError (ContextValue × List (Option ContextValue)) := do
  contextIndex index nodeCount
  let value ← okOr values[index]?.join (.invalidValue "job_runtime_context.nodes")
  return (value, values.set index none)

def takeContextValues (nodeCount : Nat) : List Nat → List (Option ContextValue) →
    Except DecodeError (List ContextValue × List (Option ContextValue))
  | [], values => .ok ([], values)
  | index :: rest, values => do
    let (value, values) ← takeContextValue nodeCount index values
    let (taken, values) ← takeContextValues nodeCount rest values
    return (value :: taken, values)

def buildContextValue (nodeCount : Nat) (values : List (Option ContextValue))
    (node : Option ContextNode) : Except DecodeError (List (Option ContextValue)) := do
  let node ← okOr node (.missingVariant "context_value_node.value")
  let (children, values) ← takeContextValues nodeCount node.children values
  return values ++ [some (node.value children)]

def buildContextTree (nodes : ContextNodes) : Except DecodeError (List (Option ContextValue)) :=
  nodes.foldlM (buildContextValue nodes.length) []

def jobConclusion (value : Int) (field : String) : Except DecodeError JobConclusion :=
  match value with
  | 1 => .ok .success
  | 2 => .ok .failure
  | 3 => .ok .cancelled
  | 4 => .ok .timedOut
  | 5 => .ok .skipped
  | _ => .error (.unknownEnum field value)

def outputSensitivity (value : Int) (field : String) : Except DecodeError OutputSensitivity :=
  match value with
  | 1 => .ok .publicOutput
  | 2 => .ok .secretDerived
  | _ => .error (.unknownEnum field value)

/-- A constructor of the context's parts: the value, if it is valid. -/
def checked {α : Type} (validate : α → Except RuntimeContextError Unit) (value : α) :
    Except DecodeError α := do
  (validate value).mapError .invalidRuntimeContext
  return value

def NeedOutput.validate (output : NeedOutput) : Except RuntimeContextError Unit := do
  let _ ← output.charge ⟨0, 0⟩

def NeedContext.validate (need : NeedContext) : Except RuntimeContextError Unit := do
  let _ ← need.charge ⟨0, 0⟩

def needOutputValue (entry : String × Option WireNeedOutput) :
    Except DecodeError (String × NeedOutput) := do
  let output ← okOr entry.2 (.missingField "need_output_entry.value")
  let sensitivity ← outputSensitivity output.sensitivity "need_output.sensitivity"
  let output ← checked NeedOutput.validate ⟨output.value, sensitivity⟩
  return (entry.1, output)

def needContextValue (maximum : Nat) (entry : String × Option WireNeedContext) :
    Except DecodeError (String × NeedContext) := do
  let need ← okOr entry.2 (.missingField "job_runtime_context.need.value")
  let result ← jobConclusion need.result "need_context.result"
  checkCollection need.outputs.length maximum "need_context.outputs"
  ensureCanonicalKeys "need_context.outputs" (need.outputs.map Prod.fst)
  let outputs ← need.outputs.mapM needOutputValue
  let need ← checked NeedContext.validate ⟨result, outputs⟩
  return (entry.1, need)

def secretBindingValue (entry : String × Option SecretBinding) :
    Except DecodeError (String × SecretBinding) := do
  let value ← okOr entry.2 (.missingField "job_runtime_context.secret.value")
  let binding ← checked SecretBinding.validate ⟨value.bindingId, none⟩
  match value.versionId with
  | none => return (entry.1, binding)
  | some versionId =>
    let binding ← checked SecretBinding.validate ⟨binding.bindingId, some versionId⟩
    return (entry.1, binding)

/-- The limit is `max_collection_items`. -/
def decodeContext (maximum : Nat) (wire : WireContext) : Except DecodeError JobRuntimeContext := do
  rejectIf (wire.schemaVersion ≠ jobRuntimeContextSchemaVersion)
    (.unsupportedSchema "job_runtime_context.schema_version" wire.schemaVersion
      jobRuntimeContextSchemaVersion)
  checkCollection wire.nodes.length (min maximum maxContextValueNodes) "job_runtime_context.nodes"
  checkCollection wire.needs.length maximum "job_runtime_context.needs"
  checkCollection wire.secrets.length maximum "job_runtime_context.secrets"
  rejectIf (wire.nodes.length < 3) (.invalidValue "job_runtime_context.nodes")
  validateContextTree maximum wire.nodes [wire.inputsIndex, wire.varsIndex, wire.matrixIndex]
  let values ← buildContextTree wire.nodes
  let (inputs, values) ← takeContextValue values.length wire.inputsIndex values
  let (vars, values) ← takeContextValue values.length wire.varsIndex values
  let (matrix, _) ← takeContextValue values.length wire.matrixIndex values
  ensureCanonicalKeys "job_runtime_context.needs" (wire.needs.map Prod.fst)
  let needs ← wire.needs.mapM (needContextValue maximum)
  ensureCanonicalKeys "job_runtime_context.secrets" (wire.secrets.map Prod.fst)
  let secrets ← wire.secrets.mapM secretBindingValue
  let strategy ← okOr wire.strategy (.missingField "job_runtime_context.strategy")
  let strategy ← checked StrategyContext.validate strategy
  checked JobRuntimeContext.validate
    ⟨jobRuntimeContextSchemaVersion, inputs, vars, matrix, strategy, needs, secrets⟩

end AutomataCi.RuntimeContexts
