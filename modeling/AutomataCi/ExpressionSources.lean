import AutomataCi.GuardedResult
import AutomataCi.TextSlices

/-!
# The source of an expression

A source is one expression, either bare or between delimiters.  The compiler
looks for the closing delimiter outside of quoted strings, where two quotes
stand for one inside of a string.  Offsets count bytes.
-/

namespace AutomataCi

open GuardedResult TextOperations TextSlices

inductive GithubExpressionErrorKind where
  | ofSyntax | ofContext | resourceLimit | internal
  deriving DecidableEq, Repr

structure GithubExpressionError where
  kind : GithubExpressionErrorKind
  (code message : String)
  (byteOffset byteLength : Nat)
  deriving DecidableEq, Repr

def syntaxError (code message : String) (byteOffset byteLength : Nat) : GithubExpressionError :=
  ⟨.ofSyntax, code, message, byteOffset, byteLength⟩

structure ByteRange where
  (start stop : Nat)
  deriving DecidableEq, Repr

def trimEnd (text : Text) : Text :=
  (trimStart text.reverse).reverse

def openingDelimiter : Text :=
  ['$', '{', '{']

def closingDelimiter : Text :=
  ['}', '}']

/-- The first delimiter outside of strings, with its offset and its length.
The last character is not a delimiter. -/
def firstUnquotedDelimiter (cursor : Nat) (quoted : Bool) : Text → Option (Nat × Nat)
  | [] => none
  | [_] => none
  | first :: second :: rest =>
    if first = '\'' then
      if quoted && second = '\'' then
        firstUnquotedDelimiter (cursor + 2) quoted rest
      else firstUnquotedDelimiter (cursor + 1) (!quoted) (second :: rest)
    else if !quoted && openingDelimiter.isPrefixOf (first :: second :: rest) then
      some (cursor, 3)
    else if !quoted && closingDelimiter.isPrefixOf (first :: second :: rest) then
      some (cursor, 2)
    else
      firstUnquotedDelimiter (cursor + first.utf8Size) quoted (second :: rest)

def unclosedDelimiter (opening : Nat) : GithubExpressionError :=
  syntaxError "github.expression.unclosed_delimiter"
    "expression opening delimiter has no matching closing delimiter" opening 3

/-- The offset of the closing delimiter after the characters from `cursor` on.
It does not lie in a string, and no opening delimiter comes before it. -/
def findConditionDelimiter (opening cursor : Nat) (quoted : Bool) :
    Text → Except GithubExpressionError Nat
  | [] => .error (unclosedDelimiter opening)
  | [_] => .error (unclosedDelimiter opening)
  | first :: second :: rest =>
    if first = '\'' then
      if quoted && second = '\'' then
        findConditionDelimiter opening (cursor + 2) quoted rest
      else
        findConditionDelimiter opening (cursor + 1) (!quoted) (second :: rest)
    else if !quoted && openingDelimiter.isPrefixOf (first :: second :: rest) then
      .error (syntaxError "github.expression.nested_delimiter"
        "nested expression delimiters are not allowed" cursor 3)
    else if !quoted && closingDelimiter.isPrefixOf (first :: second :: rest) then
      .ok cursor
    else
      findConditionDelimiter opening (cursor + first.utf8Size) quoted (second :: rest)

def expressionRange (source : Text) : Except GithubExpressionError ByteRange :=
  let start := byteLength source - byteLength (trimStart source)
  let stop := byteLength (trimEnd source)
  let trimmed := trim source
  if openingDelimiter.isPrefixOf trimmed then do
    let innerStart := start + 3
    let innerEnd ← findConditionDelimiter start innerStart false (trimmed.drop 3)
    rejectIf (innerEnd + 2 ≠ stop) (syntaxError "github.expression.trailing_expression"
        "a condition must contain exactly one expression" innerEnd 2)
    let inner :=
      ((splitAtByte (innerEnd - innerStart) (trimmed.drop 3)).map Prod.fst).getD []
    rejectIf (trim inner = []) (syntaxError "github.expression.empty"
        "expression evaluation cannot be empty" innerStart (byteLength inner))
    return ⟨innerStart + byteLength inner - byteLength (trimStart inner),
      innerStart + byteLength (trimEnd inner)⟩
  else
    match firstUnquotedDelimiter start false trimmed with
    | some (offset, length) =>
      .error (syntaxError "github.expression.mixed_delimiter"
        "a condition cannot mix literal text with an expression delimiter"
        offset length)
    | none => .ok ⟨start, stop⟩

end AutomataCi
