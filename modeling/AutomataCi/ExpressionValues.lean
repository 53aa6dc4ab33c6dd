import AutomataCi.ExpressionPrograms
import AutomataCi.TextOperations

/-!
# Expression values

The values of an expression and their coercions.  A value below a sensitivity
wrapper may be used, and what is derived from it carries the wrapper again.
Numbers are kept as the bits of their binary encoding, arrays and objects with
their identity, which is all that an equality test sees of them.

The tables and conversions of the standard library are a parameter.
-/

namespace AutomataCi

open GuardedResult TextOperations

/-- What a JSON deserializer meets in a text, up to the first place at which
the text is malformed. -/
inductive JsonSource where
  | null
  | boolean (value : Bool)
  | number (ieee754Bits : BitVec 64)
  | string (value : String)
  | sequence (items : List JsonSource) (ended : Bool)
  | mapping (entries : List (String × JsonSource)) (ended : Bool)
  | malformed
  deriving Repr

/-- The functions of the standard library and of the JSON library which the
evaluator calls.  Outside ASCII only two characters have an ASCII letter as
their upper case. -/
structure StandardLibrary where
  toUppercase : Char → List Char
  parseFloat : String → Option (BitVec 64)
  (formatExponent formatFixed : Nat → BitVec 64 → String)
  readJson : String → JsonSource × Bool
  quoteJson : String → String
  toUppercase_ascii : ∀ character : Char, character.toNat < 128 →
    toUppercase character = [character.toUpper]
  toUppercase_other : ∀ character upper : Char, 128 ≤ character.toNat →
    character ≠ Char.ofNat 0x131 → character ≠ Char.ofNat 0x17f →
    toUppercase character = [upper] → 128 ≤ upper.toNat

namespace BinaryNumber

def one : BitVec 64 :=
  0x3ff0000000000000

def infinity : BitVec 64 :=
  0x7ff0000000000000

def negativeInfinity : BitVec 64 :=
  0xfff0000000000000

def maximumIndex : BitVec 64 :=
  0x41dfffffffc00000

def magnitude (bits : BitVec 64) : Nat :=
  bits.toNat % 2 ^ 63

/-- The place of a number in the order of the numbers. -/
def position (bits : BitVec 64) : Int :=
  if bits.msb then -(magnitude bits : Int) else magnitude bits

def partialCmp (left right : BitVec 64) : Option Ordering :=
  if ExpressionLiteral.isNan left || ExpressionLiteral.isNan right then none
  else some (compare (position left) (position right))

def floorNat (bits : BitVec 64) : Nat :=
  let exponent := magnitude bits / 2 ^ 52
  let fraction := magnitude bits % 2 ^ 52
  let significand := if exponent = 0 then fraction else fraction + 2 ^ 52
  if 1075 ≤ exponent then significand * 2 ^ (exponent - 1075)
  else significand / 2 ^ (1075 - max exponent 1)

def ofNat (value : Nat) : BitVec 64 :=
  if value = 0 then 0
  else
    let exponent := Nat.log2 value
    BitVec.ofNat 64 ((1023 + exponent) * 2 ^ 52 + (value - 2 ^ exponent) * 2 ^ (52 - exponent))

def ofSigned32 (value : Nat) : BitVec 64 :=
  if value < 2 ^ 31 then ofNat value
  else ofNat (2 ^ 32 - value) ||| BitVec.ofNat 64 (2 ^ 63)

/-- Every NaN has one representation. -/
def canonical (bits : BitVec 64) : BitVec 64 :=
  if ExpressionLiteral.isNan bits then ExpressionLiteral.canonicalNan else bits

end BinaryNumber

def isHexDigit (character : Char) : Bool :=
  character.isDigit || ('a' ≤ character && character ≤ 'f') || ('A' ≤ character && character ≤ 'F')

def digitValue (character : Char) : Nat :=
  if character.isDigit then character.toNat - '0'.toNat
  else if 'a' ≤ character then character.toNat - 'a'.toNat + 10
  else character.toNat - 'A'.toNat + 10

def radixValue (radix : Nat) (digits : Text) : Nat :=
  digits.foldl (fun value digit => value * radix + digitValue digit) 0

/-- The bits of a 32-bit integer, read as signed. -/
def parseRadixI32 (isDigit : Char → Bool) (radix : Nat) (value : Text) : BitVec 64 :=
  if value = [] ∨ value.all isDigit = false then ExpressionLiteral.canonicalNan
  else if 2 ^ 32 ≤ radixValue radix value then ExpressionLiteral.canonicalNan
  else BinaryNumber.ofSigned32 (radixValue radix value)

def dropSign : Text → Text
  | '+' :: rest => rest
  | '-' :: rest => rest
  | rest => rest

def exponentValid : Text → Bool
  | [] => true
  | first :: rest =>
    (first = 'e' || first = 'E') && !(dropSign rest).isEmpty && (dropSign rest).all Char.isDigit

/-- A decimal number: digits with at most one point, and an exponent. -/
def validDecimal (value : Text) : Bool :=
  let unsigned := dropSign value
  let whole := unsigned.takeWhile Char.isDigit
  let afterWhole := unsigned.dropWhile Char.isDigit
  match afterWhole with
  | '.' :: rest =>
    let fraction := rest.takeWhile Char.isDigit
    decide (0 < whole.length + fraction.length) && exponentValid (rest.dropWhile Char.isDigit)
  | _ => decide (0 < whole.length) && exponentValid afterWhole

section Coercions

variable (library : StandardLibrary)

def parseNumber (source : String) : BitVec 64 :=
  let value := trim source.toList
  if value = [] then 0
  else if value = "Infinity".toList then BinaryNumber.infinity
  else if value = "-Infinity".toList then BinaryNumber.negativeInfinity
  else
    match value with
    | '0' :: 'x' :: hex => parseRadixI32 isHexDigit 16 hex
    | '0' :: 'o' :: octal => parseRadixI32 (fun digit => '0' ≤ digit && digit ≤ '7') 8 octal
    | _ =>
      if validDecimal value = false then ExpressionLiteral.canonicalNan
      else
        (library.parseFloat (String.ofList value)).getD ExpressionLiteral.canonicalNan

def trimDecimal (value : Text) : Text :=
  if '.' ∈ value then
    let trimmed := (value.reverse.dropWhile (· = '0')).reverse
    if trimmed.getLast? = some '.' then trimmed.dropLast else trimmed
  else value

def parseInteger : Text → Option Int
  | '-' :: digits =>
    if digits ≠ [] ∧ digits.all Char.isDigit then
      some (-(radixValue 10 digits : Int))
    else none
  | digits =>
    if digits ≠ [] ∧ digits.all Char.isDigit then
      some (radixValue 10 digits)
    else none

/-- A signed exponent of at least two digits. -/
def exponentText (exponent : Int) : Text :=
  let digits := Nat.toDigits 10 exponent.natAbs
  (if exponent < 0 then '-' else '+') :: (if digits.length < 2 then '0' :: digits else digits)

def formatNumber (bits : BitVec 64) : String :=
  if ExpressionLiteral.isNan bits then "NaN"
  else if bits = BinaryNumber.infinity then "Infinity"
  else if bits = BinaryNumber.negativeInfinity then "-Infinity"
  else if BinaryNumber.magnitude bits = 0 then "0"
  else
    let scientific := (library.formatExponent 14 bits).toList
    let (mantissa, exponentDigits) :=
      (splitAtFirst 'e' scientific).getD (scientific, ['0'])
    let exponent := (parseInteger exponentDigits).getD 0
    if -4 ≤ exponent ∧ exponent < 15 then
      String.ofList (trimDecimal (library.formatFixed (14 - exponent).toNat bits).toList)
    else
      String.ofList (trimDecimal mantissa ++ 'E' :: exponentText exponent)

/-- The case folding of the ordinal comparison: one character to one. -/
def ordinalFoldCharacter (character : Char) : Char :=
  if character = Char.ofNat 0x131 ∨ character = Char.ofNat 0x17f then character
  else
    match library.toUppercase character with
    | [upper] => upper
    | _ => character

def ordinalKey (value : String) : Text :=
  value.toList.map (ordinalFoldCharacter library)

def ordinalIgnoreCase (left right : String) : Bool :=
  sameIgnoringCase left.toList right.toList ||
    decide (ordinalKey library left = ordinalKey library right)

def encodeUtf16 (text : Text) : List Nat :=
  text.flatMap fun character =>
    if character.toNat < 0x10000 then [character.toNat]
    else
      let offset := character.toNat - 0x10000
      [0xd800 + offset / 0x400, 0xdc00 + offset % 0x400]

def ordinalCompare (left right : String) : Ordering :=
  compare (encodeUtf16 (ordinalKey library left)) (encodeUtf16 (ordinalKey library right))

end Coercions

/-- A value made by the evaluator itself has no identity. -/
abbrev Identity :=
  Option Nat

inductive GithubValue where
  | null
  | boolean (value : Bool)
  | number (ieee754Bits : BitVec 64)
  | string (value : String)
  | array (identity : Identity) (values : List GithubValue)
  | object (identity : Identity) (entries : List (String × GithubValue))
  | sensitive (payload : GithubValue)
  deriving Repr

def sameIdentity (left right : Identity) : Bool :=
  left.isSome && decide (left = right)

inductive GithubExpressionEvaluationErrorKind where
  | unsupportedProgram
  | unavailableContext
  | invalidOperation
  | resourceLimit
  | extension
  | internal
  deriving DecidableEq, Repr

abbrev EvaluationM :=
  Except GithubExpressionEvaluationErrorKind

namespace GithubValue

def isExplicitlySensitive : GithubValue → Bool
  | .sensitive _ => true
  | _ => false

def markSensitive (self : GithubValue) : GithubValue :=
  if self.isExplicitlySensitive then self else .sensitive self

def inheritSensitivity (self : GithubValue) (sensitive : Bool) : GithubValue :=
  if sensitive then self.markSensitive else self

def withoutSensitivity : GithubValue → GithubValue
  | .sensitive payload => payload.withoutSensitivity
  | value => value

mutual

def isSensitive : GithubValue → Bool
  | .sensitive _ => true
  | .array _ values => anySensitive values
  | .object _ entries => anyEntrySensitive entries
  | .null | .boolean _ | .number _ | .string _ => false

def anySensitive : List GithubValue → Bool
  | [] => false
  | value :: rest => value.isSensitive || anySensitive rest

def anyEntrySensitive : List (String × GithubValue) → Bool
  | [] => false
  | (_, value) :: rest => value.isSensitive || anyEntrySensitive rest

end

def isTruthy : GithubValue → Bool
  | .null => false
  | .boolean value => value
  | .number bits => decide (BinaryNumber.magnitude bits ≠ 0) && !ExpressionLiteral.isNan bits
  | .string value => !value.isEmpty
  | .array _ _ | .object _ _ => true
  | .sensitive payload => payload.isTruthy

def isPrimitive (self : GithubValue) : Bool :=
  match self.withoutSensitivity with
  | .array _ _ | .object _ _ => false
  | _ => true

def asBool : GithubValue → Option Bool
  | .boolean value => some value
  | _ => none

def maxConstructionItems : Nat :=
  65536

def maxKeyBytes : Nat :=
  1048576

def newArray (values : List GithubValue) : Option GithubValue :=
  if maxConstructionItems < values.length then none
  else some (.array none values)

section Library

variable (library : StandardLibrary)

/-- A bounded object with keys which differ also when case is ignored. -/
def newObject (entries : List (String × GithubValue)) : Option GithubValue :=
  if maxConstructionItems < entries.length then none
  else if ∃ entry ∈ entries, maxKeyBytes < entry.1.utf8ByteSize then none
  else if (entries.map fun entry => ordinalKey library entry.1).Nodup then
    some (.object none entries)
  else none

def getEntry (entries : List (String × GithubValue)) (key : String) : Option GithubValue :=
  (entries.find? fun entry =>
    decide (ordinalKey library entry.1 = ordinalKey library key)).map Prod.snd

def toNumber (self : GithubValue) : BitVec 64 :=
  match self.withoutSensitivity with
  | .null => 0
  | .boolean value => if value then BinaryNumber.one else 0
  | .number bits => bits
  | .string value => parseNumber library value
  | _ => ExpressionLiteral.canonicalNan

def toString (self : GithubValue) : String :=
  match self.withoutSensitivity with
  | .boolean value => if value then "true" else "false"
  | .number bits => formatNumber library bits
  | .string value => value
  | .array _ _ => "Array"
  | .object _ _ => "Object"
  | _ => ""

def compareNumbers (left right : GithubValue) : Option Ordering :=
  BinaryNumber.partialCmp (left.toNumber library) (right.toNumber library)

def abstractEqual (left right : GithubValue) : Bool :=
  match left.withoutSensitivity, right.withoutSensitivity with
  | .null, .null => true
  | .boolean left, .boolean right => left == right
  | .number left, .number right => BinaryNumber.partialCmp left right == some .eq
  | .string left, .string right => ordinalIgnoreCase library left right
  | .array left _, .array right _ => sameIdentity left right
  | .object left _, .object right _ => sameIdentity left right
  | .boolean _, _ | .null, _ | _, .boolean _ | _, .null
  | .number _, .string _ | .string _, .number _ => compareNumbers library left right == some .eq
  | _, _ => false

def abstractCompare (left right : GithubValue) : Option Ordering :=
  match left.withoutSensitivity, right.withoutSensitivity with
  | .string left, .string right => some (ordinalCompare library left right)
  | .boolean left, .boolean right => some (compare left right)
  | .number left, .number right => BinaryNumber.partialCmp left right
  | .boolean _, _ | .null, _ | _, .boolean _ | _, .null
  | .number _, .string _ | .string _, .number _ => compareNumbers library left right
  | _, _ => none

def primitiveIndexString (self : GithubValue) : Option String :=
  if self.isPrimitive then some (self.toString library) else none

/-- A negative zero has a sign in its text, which is no index. -/
def arrayIndex (self : GithubValue) : Option Nat :=
  let number := self.toNumber library
  if ExpressionLiteral.isNan number ∨ number.msb = true ∨
      BinaryNumber.partialCmp number BinaryNumber.maximumIndex = some .gt then none
  else some (BinaryNumber.floorNat number)

end Library

end GithubValue

structure GithubExpressionLimits where
  (resultBytes collectionItems valueDepth : Nat)
  resultBytes_bounds : 0 < resultBytes ∧ resultBytes ≤ 16 * 1024 * 1024
  collectionItems_bounds : 0 < collectionItems ∧ collectionItems ≤ 65536
  valueDepth_bounds : 0 < valueDepth ∧ valueDepth ≤ 50

def GithubValue.contents (value : GithubValue) : Nat × List GithubValue :=
  match value.withoutSensitivity with
  | .string text => (text.utf8ByteSize, [])
  | .array _ values => (0, values)
  | .object _ entries => ((entries.map fun entry => entry.1.utf8ByteSize).sum, entries.map Prod.snd)
  | _ => (0, [])

/-- The rounds of the traversal of a value.  Each round counts one item, so
one round more than the limit is enough. -/
def enforceRounds (limits : GithubExpressionLimits) :
    Nat → Nat → Nat → List (GithubValue × Nat) → EvaluationM Unit
  | _, _, _, [] => .ok ()
  | 0, _, _, _ => .error .resourceLimit
  | rounds + 1, aggregate, items, (value, depth) :: stack => do
      rejectIf (limits.valueDepth < depth) .resourceLimit
      let items := items + 1
      rejectIf (limits.collectionItems < items) .resourceLimit
      let (bytes, below) := value.contents
      let aggregate := aggregate + bytes
      rejectIf (limits.resultBytes < aggregate) .resourceLimit
      let pushed := below.map fun value => (value, depth + 1)
      enforceRounds limits rounds aggregate items (pushed.reverse ++ stack)

def enforceValueLimits (value : GithubValue) (limits : GithubExpressionLimits) : EvaluationM Unit :=
  enforceRounds limits (limits.collectionItems + 1) 0 0 [(value, 1)]

end AutomataCi
