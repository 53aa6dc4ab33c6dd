import AutomataCi.GuardedResult

/-!
# Expression programs

The durable form of a compiled expression: a postfix encoding of a bounded
tree, and the validation which every program passes before it is stored or
evaluated.  The validator runs the instructions over a stack which keeps, for
every subtree, its depth, whether it is the wildcard marker, and the logical
operator at its root.
-/

namespace AutomataCi

open GuardedResult

inductive ExpressionLiteral where
  | null
  | boolean (value : Bool)
  | number (ieee754Bits : BitVec 64)
  | string (value : String)
  deriving DecidableEq, Repr

inductive ExpressionComparison where
  | equal | notEqual | greaterThan | greaterThanOrEqual | lessThan | lessThanOrEqual
  deriving DecidableEq, Repr

inductive ExpressionLogical where
  | and | or
  deriving DecidableEq, Repr

inductive ExpressionInstruction where
  | literal (value : ExpressionLiteral)
  | namedValue (name : String)
  | wildcard
  | index
  | not
  | compare (operator : ExpressionComparison)
  | logical (operator : ExpressionLogical) (operandCount : Nat)
  | call (name : String) (argumentCount : Nat)
  deriving DecidableEq, Repr

structure ExpressionDialect where
  name : String
  version : Nat
  deriving DecidableEq, Repr

inductive ExpressionProgramError where
  | unsupportedSchema (supported received : Nat)
  | emptySource
  | sourceTooLong (maximum : Nat)
  | invalidSourceControl
  | emptyProgram
  | tooManyInstructions (maximum : Nat)
  | textTooLong (maximum : Nat)
  | invalidIdentifier
  | nonCanonicalNan
  | stackUnderflow
  | invalidFinalStack (values : Nat)
  | wildcardOutsideIndex
  | invalidLogicalOperandCount
  | nonCanonicalLogicalNesting
  | tooDeep (maximum : Nat)
  deriving DecidableEq, Repr

def expressionProgramSchemaVersion : Nat :=
  1

def maxExpressionSourceBytes : Nat :=
  84000

def maxExpressionInstructions : Nat :=
  4096

def maxExpressionDepth : Nat :=
  50

def maxExpressionTextBytes : Nat :=
  84000

def isControl (character : Char) : Bool :=
  decide (character.toNat < 0x20) ||
    decide (0x7f ≤ character.toNat ∧ character.toNat < 0xa0)

def isLowercaseLetter (character : Char) : Bool :=
  decide ('a'.toNat ≤ character.toNat ∧ character.toNat ≤ 'z'.toNat)

def canonicalIdentifierSegment (value : String) : Bool :=
  match value.toList with
  | [] => false
  | first :: rest =>
    (isLowercaseLetter first || first == '_') && rest.all fun character =>
        isLowercaseLetter character || character.isDigit || character == '_' || character == '-'

namespace ExpressionLiteral

/-- The one encoding of NaN which a program may contain. -/
def canonicalNan : BitVec 64 :=
  0x7ff8000000000000

def isNan (bits : BitVec 64) : Bool :=
  decide (bits.toNat / 2 ^ 52 % 2 ^ 11 = 2 ^ 11 - 1) && decide (bits.toNat % 2 ^ 52 ≠ 0)

end ExpressionLiteral

structure StackValue where
  depth : Nat
  wildcard : Bool
  logical : Option ExpressionLogical
  deriving DecidableEq, Repr

structure ValidationState where
  textBytes : Nat
  stack : List StackValue
  deriving DecidableEq, Repr

namespace ValidationState

variable (self : ValidationState)

def chargeText (value : String) : Except ExpressionProgramError ValidationState := do
  let total := self.textBytes + value.utf8ByteSize
  rejectIf (maxExpressionTextBytes < total) (.textTooLong maxExpressionTextBytes)
  return { self with textBytes := total }

def popValue : Except ExpressionProgramError (StackValue × ValidationState) :=
  match self.stack with
  | [] => .error .stackUnderflow
  | value :: rest => .ok (value, { self with stack := rest })

def popNonWildcard : Except ExpressionProgramError (StackValue × ValidationState) := do
  let (value, popped) ← self.popValue
  rejectIf (value.wildcard = true) .wildcardOutsideIndex
  return (value, popped)

def popValues (count : Nat) :
    Except ExpressionProgramError (List StackValue × ValidationState) := do
  rejectIf (self.stack.length < count) .stackUnderflow
  let values := (self.stack.take count).reverse
  rejectIf (values.any (·.wildcard) = true) .wildcardOutsideIndex
  return (values, { self with stack := self.stack.drop count })

def pushValue (value : StackValue) : Except ExpressionProgramError ValidationState := do
  rejectIf (maxExpressionDepth < value.depth) (.tooDeep maxExpressionDepth)
  return { self with stack := value :: self.stack }

end ValidationState

def validateProgramIdentifier (value : String) : Except ExpressionProgramError Unit :=
  rejectIf (canonicalIdentifierSegment value = false) .invalidIdentifier

def maximumDepth (values : List StackValue) : Nat :=
  (values.map StackValue.depth).foldr max 0

def validateLiteral (state : ValidationState) :
    ExpressionLiteral → Except ExpressionProgramError ValidationState
  | .string value => state.chargeText value
  | .number bits => do
      rejectIf (ExpressionLiteral.isNan bits = true ∧ bits ≠ ExpressionLiteral.canonicalNan)
        .nonCanonicalNan
      return state
  | .null | .boolean _ => .ok state

def validateInstruction (state : ValidationState) :
    ExpressionInstruction → Except ExpressionProgramError ValidationState
  | .literal value => do
      let state ← validateLiteral state value
      state.pushValue ⟨1, false, none⟩
  | .namedValue name => do
      validateProgramIdentifier name
      let state ← state.chargeText name
      state.pushValue ⟨1, false, none⟩
  | .wildcard => state.pushValue ⟨1, true, none⟩
  | .index => do
      let (index, state) ← state.popValue
      let (target, state) ← state.popNonWildcard
      state.pushValue ⟨max target.depth index.depth + 1, false, none⟩
  | .not => do
      let (operand, state) ← state.popNonWildcard
      state.pushValue ⟨operand.depth + 1, false, none⟩
  | .compare _ => do
      let (right, state) ← state.popNonWildcard
      let (left, state) ← state.popNonWildcard
      state.pushValue ⟨max left.depth right.depth + 1, false, none⟩
  | .logical operator operandCount => do
      rejectIf (operandCount < 2) .invalidLogicalOperandCount
      let (operands, state) ← state.popValues operandCount
      rejectIf (operands.any (fun operand => operand.logical == some operator) = true)
        .nonCanonicalLogicalNesting
      state.pushValue ⟨maximumDepth operands + 1, false, some operator⟩
  | .call name argumentCount => do
      validateProgramIdentifier name
      let state ← state.chargeText name
      let (arguments, state) ← state.popValues argumentCount
      state.pushValue ⟨maximumDepth arguments + 1, false, none⟩

structure ExpressionProgram where
  schemaVersion : Nat
  dialect : ExpressionDialect
  source : String
  instructions : List ExpressionInstruction
  deriving DecidableEq, Repr

namespace ExpressionProgram

def validateInstructions (state : ValidationState) (instructions : List ExpressionInstruction) :
    Except ExpressionProgramError ValidationState :=
  instructions.foldlM validateInstruction state

def validate (self : ExpressionProgram) : Except ExpressionProgramError Unit := do
  rejectIf (self.schemaVersion ≠ expressionProgramSchemaVersion)
    (.unsupportedSchema expressionProgramSchemaVersion self.schemaVersion)
  rejectIf (self.source.isEmpty = true) .emptySource
  rejectIf (maxExpressionSourceBytes < self.source.utf8ByteSize)
    (.sourceTooLong maxExpressionSourceBytes)
  rejectIf (self.source.toList.any (fun character =>
      isControl character && !(character == '\n' || character == '\r' || character == '\t')) =
      true)
    .invalidSourceControl
  rejectIf (self.instructions.isEmpty = true) .emptyProgram
  rejectIf (maxExpressionInstructions < self.instructions.length)
    (.tooManyInstructions maxExpressionInstructions)
  let state ← validateInstructions ⟨0, []⟩ self.instructions
  match state.stack with
  | [result] => rejectIf (result.wildcard = true) .wildcardOutsideIndex
  | values => .error (.invalidFinalStack values.length)

end ExpressionProgram

end AutomataCi
