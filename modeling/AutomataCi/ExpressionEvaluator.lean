import AutomataCi.ExpressionFunctions

/-!
# The expression evaluator

A program is turned back into the tree which it encodes, and the tree is
evaluated.  An operand is given to an operator as the outcome of its
evaluation; an outcome which is not looked at stands for an operand which is
not evaluated.
-/

namespace AutomataCi

open GuardedResult TextOperations

inductive Node where
  | literal (value : GithubValue)
  | named (name : String)
  | wildcard
  | index (target index : Node)
  | not (operand : Node)
  | compare (operator : ExpressionComparison) (left right : Node)
  | logical (operator : ExpressionLogical) (operands : List Node)
  | call (name : String) (arguments : List Node)
  deriving Repr

def ExpressionLiteral.toValue : ExpressionLiteral → GithubValue
  | .null => .null
  | .boolean value => .boolean value
  | .number bits => .number (BinaryNumber.canonical bits)
  | .string value => .string value

def popNode : List Node → EvaluationM (Node × List Node)
  | [] => .error .internal
  | node :: stack => .ok (node, stack)

def popMany (stack : List Node) (count : Nat) : EvaluationM (List Node × List Node) := do
  rejectIf (stack.length < count) .internal
  return ((stack.take count).reverse, stack.drop count)

def pushInstruction (stack : List Node) : ExpressionInstruction → EvaluationM (List Node)
  | .literal value => .ok (.literal value.toValue :: stack)
  | .namedValue name => .ok (.named name :: stack)
  | .wildcard => .ok (.wildcard :: stack)
  | .index => do
      let (index, stack) ← popNode stack
      let (target, stack) ← popNode stack
      return .index target index :: stack
  | .not => do
      let (operand, stack) ← popNode stack
      return .not operand :: stack
  | .compare operator => do
      let (right, stack) ← popNode stack
      let (left, stack) ← popNode stack
      return .compare operator left right :: stack
  | .logical operator operandCount => do
      let (operands, stack) ← popMany stack operandCount
      return .logical operator operands :: stack
  | .call name argumentCount => do
      let (arguments, stack) ← popMany stack argumentCount
      return .call name arguments :: stack

def compileTree (instructions : List ExpressionInstruction) : EvaluationM Node := do
  let stack ← instructions.foldlM pushInstruction []
  match stack with
  | [root] => return root
  | _ => .error .internal

inductive GithubStatus where
  | success | failure | cancelled | skipped
  deriving DecidableEq, Repr

/-- The named values, the status, and the extension functions, which depend
on their arguments only. -/
structure GithubEvaluationContext where
  namedValue : String → Option GithubValue
  status : GithubStatus
  functions : String → List GithubValue → Option (EvaluationM GithubValue)

/-- A value, and whether it is the array of an object filter. -/
structure Evaluated where
  value : GithubValue
  filtered : Bool
  deriving Repr

def Evaluated.plain (value : GithubValue) : Evaluated :=
  ⟨value, false⟩

def Evaluated.inheritSensitivity (self : Evaluated) (sensitive : Bool) : Evaluated :=
  { self with value := self.value.inheritSensitivity sensitive }

abbrev Operand :=
  EvaluationM Evaluated

section Operators

variable (library : StandardLibrary) (limits : GithubExpressionLimits)

def negate (operand : GithubValue) : GithubValue :=
  (GithubValue.boolean (!operand.isTruthy)).inheritSensitivity operand.isSensitive

def compareValues (operator : ExpressionComparison) (left right : GithubValue) : Bool :=
  let equal := left.abstractEqual library right
  let order := left.abstractCompare library right
  match operator with
  | .equal => equal
  | .notEqual => !equal
  | .greaterThan => order == some .gt
  | .greaterThanOrEqual => equal || order == some .gt
  | .lessThan => order == some .lt
  | .lessThanOrEqual => equal || order == some .lt

def stopsAt (operator : ExpressionLogical) (value : GithubValue) : Bool :=
  match operator with
  | .and => !value.isTruthy
  | .or => value.isTruthy

/-- The operands after `last`, up to the one which decides. -/
def logicalFrom (operator : ExpressionLogical) (sensitive : Bool)
    (last : Evaluated) : List Operand → EvaluationM Evaluated
  | [] => .ok (last.inheritSensitivity sensitive)
  | operand :: rest => do
      let last ← operand
      let sensitive := sensitive || last.value.isSensitive
      if stopsAt operator last.value then
        return last.inheritSensitivity sensitive
      else logicalFrom operator sensitive last rest

def evaluateLogical (operator : ExpressionLogical) (operands : List Operand) :
    EvaluationM Evaluated :=
  logicalFrom operator false (.plain .null) operands

/-- The items which one element of a filtered array contributes.  The index
is absent for the wildcard. -/
def selectItems (index : Option GithubValue) (element : GithubValue) : List GithubValue :=
  let selected :=
    match element.withoutSensitivity, index with
    | .object _ entries, none => entries.map Prod.snd
    | .object _ entries, some index =>
      ((index.primitiveIndexString library).bind (GithubValue.getEntry library entries)).toList
    | .array _ values, none => values
    | .array _ values, some index =>
      ((index.arrayIndex library).bind fun position =>
        values[position]?).toList
    | _, _ => []
  selected.map fun value =>
    value.inheritSensitivity element.isExplicitlySensitive

def filterItems (index : Option GithubValue) :
    List GithubValue → List GithubValue → EvaluationM (List GithubValue)
  | result, [] => .ok result
  | result, element :: rest => do
      let result := result ++ selectItems library index element
      rejectIf (limits.collectionItems < result.length) .resourceLimit
      filterItems index result rest

def indexFiltered (target : GithubValue) (index : Option GithubValue) : EvaluationM Evaluated :=
  match target.withoutSensitivity with
  | .array _ values => do
      let result ← filterItems library limits index [] values
      let value ← okOr (GithubValue.newArray result) .resourceLimit
      return ⟨value.inheritSensitivity target.isExplicitlySensitive, true⟩
  | _ => .error .internal

def filteredArray (values : List GithubValue) : EvaluationM Evaluated := do
  rejectIf (limits.collectionItems < values.length) .resourceLimit
  let value ← okOr (GithubValue.newArray values) .resourceLimit
  return ⟨value, true⟩

/-- The item of a value which is not filtered, before it is marked. -/
def indexPayload (target : GithubValue) (index : Option GithubValue) : EvaluationM Evaluated :=
  match target, index with
  | .object _ entries, none => filteredArray limits (entries.map Prod.snd)
  | .object _ entries, some index =>
    .ok (.plain (((index.primitiveIndexString library).bind
      (GithubValue.getEntry library entries)).getD .null))
  | .array _ values, none => filteredArray limits values
  | .array _ values, some index =>
    .ok (.plain (((index.arrayIndex library).bind fun position =>
      values[position]?).getD .null))
  | _, none => filteredArray limits []
  | _, some _ => .ok (.plain .null)

def indexOne (target : GithubValue) (index : Option GithubValue) : EvaluationM Evaluated := do
  let result ← indexPayload library limits target.withoutSensitivity index
  return result.inheritSensitivity target.isExplicitlySensitive

/-- The value of an index, which is absent for the wildcard. -/
def indexValue : Option Operand → EvaluationM (Option GithubValue)
  | none => .ok none
  | some operand => do
      let index ← operand
      return some index.value

def evaluateIndex (target : Evaluated) (operand : Option Operand) : EvaluationM Evaluated := do
  let index ← indexValue operand
  let result ←
    if target.filtered then indexFiltered library limits target.value index
    else indexOne library limits target.value index
  return result.inheritSensitivity (index.any GithubValue.isSensitive)

variable (name : String)

def evaluatesRight (left : GithubValue) : Bool :=
  match left.withoutSensitivity with
  | .array _ values => decide (name = "contains") && !values.isEmpty
  | value => value.isPrimitive

def binaryFunction (left right : GithubValue) : EvaluationM GithubValue :=
  if name = "contains" then .ok (contains library left right)
  else if name = "startswith" then .ok (startsWith library left right)
  else if name = "endswith" then .ok (endsWith library left right)
  else .error .internal

def evaluateBinaryFunction : List Operand → EvaluationM Evaluated
  | [left, right] => do
      let left ← left
      if evaluatesRight name left.value then
        let right ← right
        let value ← binaryFunction library name left.value right.value
        return .plain value
      else
        return .plain ((GithubValue.boolean false).inheritSensitivity left.value.isSensitive)
  | _ => .error .invalidOperation

def needsSeparator (items : GithubValue) : Bool :=
  match items.withoutSensitivity with
  | .array _ values => decide (1 < values.length)
  | _ => false

def joinSeparator (items : GithubValue) : List Operand → EvaluationM (Option GithubValue)
  | [separator] =>
    if needsSeparator items then do
      let separator ← separator
      return some separator.value
    else .ok none
  | _ => .ok none

def evaluateJoin : List Operand → EvaluationM Evaluated
  | [] => .error .invalidOperation
  | items :: rest => do
      rejectIf (1 < rest.length) .invalidOperation
      let items ← items
      let separator ← joinSeparator items.value rest
      let value ← join library items.value separator limits.resultBytes
      return .plain value

def operandValue (operand : Operand) : EvaluationM GithubValue :=
  operand.map Evaluated.value

def evaluateFormat : List Operand → EvaluationM Evaluated
  | [] => .error .invalidOperation
  | template :: values => do
      rejectIf (254 < values.length) .invalidOperation
      let template ← template
      let value ← formatTemplate library
        (template.value.toString library).toList template.value.isSensitive
        (values.map operandValue) limits.resultBytes
      enforceValueLimits value limits
      return .plain value

/-- The branches of a case: predicates with their values, and a default. -/
def caseFrom (sensitive : Bool) : List Operand → EvaluationM Evaluated
  | [] => .error .internal
  | [default] => do
      let selected ← default
      return selected.inheritSensitivity sensitive
  | predicate :: value :: rest => do
      let predicate ← predicate
      let sensitive := sensitive || predicate.value.isSensitive
      let holds ← okOr predicate.value.withoutSensitivity.asBool .invalidOperation
      if holds then
        let selected ← value
        return selected.inheritSensitivity sensitive
      else caseFrom sensitive rest

def evaluateCase (operands : List Operand) : EvaluationM Evaluated := do
  rejectIf (operands.length < 3 ∨ 255 < operands.length ∨ operands.length % 2 = 0) .invalidOperation
  caseFrom false operands

variable (context : GithubEvaluationContext) (name : String)

/-- The numbers of arguments of the functions which evaluate all of them. -/
def checkArity (count : Nat) : EvaluationM Unit :=
  if name = "fromjson" ∨ name = "tojson" then
    rejectIf (count ≠ 1) .invalidOperation
  else if name = "hashfiles" then
    rejectIf (count < 1 ∨ 255 < count) .invalidOperation
  else .ok ()

def applyFunction (arguments : List GithubValue) : EvaluationM GithubValue :=
  if name = "fromjson" then
    match arguments with
    | [argument] => fromJson library limits argument
    | _ => .error .invalidOperation
  else if name = "tojson" then
    match arguments with
    | [argument] => toJson library limits argument
    | _ => .error .invalidOperation
  else (context.functions name arguments).getD (.error .unavailableContext)

def evaluateStrict (operands : List Operand) : EvaluationM Evaluated := do
  checkArity name operands.length
  let arguments ← operands.mapM operandValue
  let value ← applyFunction library limits context name arguments
  let value := value.inheritSensitivity (arguments.any GithubValue.isSensitive)
  enforceValueLimits value limits
  return .plain value

def evaluateCall (operands : List Operand) : EvaluationM Evaluated :=
  let name := name.map Char.toLower
  if name = "success" then
    .ok (.plain (.boolean (decide (context.status = .success))))
  else if name = "failure" then
    .ok (.plain (.boolean (decide (context.status = .failure))))
  else if name = "always" ∨ name = "cancelled" then do
    rejectIf (operands ≠ []) .invalidOperation
    return .plain (.boolean (decide (name = "always" ∨ context.status = .cancelled)))
  else if name = "case" then evaluateCase operands
  else if name = "format" then evaluateFormat library limits operands
  else if name = "contains" ∨ name = "startswith" ∨ name = "endswith" then
    evaluateBinaryFunction library name operands
  else if name = "join" then evaluateJoin library limits operands
  else evaluateStrict library limits context name operands

end Operators

section Evaluation

variable (library : StandardLibrary) (limits : GithubExpressionLimits)
variable (context : GithubEvaluationContext)

mutual

def evaluateNode : Node → EvaluationM Evaluated
  | .literal value => .ok (.plain value)
  | .named name => do
      let value := (context.namedValue name).getD .null
      enforceValueLimits value limits
      return .plain value
  | .wildcard => .error .internal
  | .index target .wildcard => do
      let target ← evaluateNode target
      evaluateIndex library limits target none
  | .index target index => do
      let target ← evaluateNode target
      evaluateIndex library limits target (some (evaluateNode index))
  | .not operand => do
      let operand ← evaluateNode operand
      return .plain (negate operand.value)
  | .compare operator left right => do
      let left ← evaluateNode left
      let right ← evaluateNode right
      return .plain (markedBoolean (compareValues library operator left.value right.value)
        left.value right.value)
  | .logical operator operands => evaluateLogical operator (evaluateNodes operands)
  | .call name arguments => evaluateCall library limits context name (evaluateNodes arguments)

def evaluateNodes : List Node → List Operand
  | [] => []
  | node :: rest => evaluateNode node :: evaluateNodes rest

end

def dialectName : String :=
  "github-actions"

def dialectVersion : Nat :=
  1

def evaluate (program : ExpressionProgram) : EvaluationM GithubValue := do
  program.validate.mapError fun _ =>
    GithubExpressionEvaluationErrorKind.unsupportedProgram
  rejectIf (program.dialect.name ≠ dialectName ∨
    program.dialect.version ≠ dialectVersion) .unsupportedProgram
  let tree ← compileTree program.instructions
  let evaluated ← evaluateNode library limits context tree
  enforceValueLimits evaluated.value limits
  return evaluated.value

end Evaluation

end AutomataCi
