import AutomataCi.ExpressionValues

/-!
# Built-in functions of expressions

Each function marks its result as sensitive when one of its arguments is.
The arguments of `format` are evaluated where its template first names them;
here an argument is given as the outcome of its evaluation.
-/

namespace AutomataCi

open GuardedResult TextOperations

variable (library : StandardLibrary)

def markedBoolean (value : Bool) (left right : GithubValue) : GithubValue :=
  (GithubValue.boolean value).inheritSensitivity (left.isSensitive || right.isSensitive)

def containsFound (left right : GithubValue) : Bool :=
  match left.withoutSensitivity with
  | .array _ values => values.any fun value => right.abstractEqual library value
  | value =>
    value.isPrimitive && right.isPrimitive &&
      decide (ordinalKey library (right.toString library) <:+:
        ordinalKey library (value.toString library))

def contains (left right : GithubValue) : GithubValue :=
  markedBoolean (containsFound library left right) left right

def stringPredicate (predicate : Text → Text → Bool) (left right : GithubValue) : GithubValue :=
  markedBoolean (left.isPrimitive && right.isPrimitive &&
      predicate (ordinalKey library (left.toString library))
        (ordinalKey library (right.toString library)))
    left right

def startsWith (left right : GithubValue) : GithubValue :=
  stringPredicate library (fun left right => right.isPrefixOf left) left right

def endsWith (left right : GithubValue) : GithubValue :=
  stringPredicate library (fun left right => right.isSuffixOf left) left right

def appendBounded (output value : String) (maximumBytes : Nat) : EvaluationM String := do
  rejectIf (maximumBytes < output.utf8ByteSize + value.utf8ByteSize) .resourceLimit
  return output ++ value

def joinRest (separator : String) (maximumBytes : Nat) :
    String → List GithubValue → EvaluationM String
  | result, [] => .ok result
  | result, value :: rest => do
      let result ← appendBounded result separator maximumBytes
      let result ← appendBounded result (value.toString library) maximumBytes
      joinRest separator maximumBytes result rest

def joinValues (separator : String) (maximumBytes : Nat) : List GithubValue → EvaluationM String
  | [] => .ok ""
  | value :: rest => do
      let result ← appendBounded "" (value.toString library) maximumBytes
      joinRest library separator maximumBytes result rest

def joinText (items : GithubValue) (separator : Option GithubValue)
    (maximumBytes : Nat) : EvaluationM String :=
  match items.withoutSensitivity with
  | .array _ values =>
    let separator := (separator.filter GithubValue.isPrimitive).elim ","
      (GithubValue.toString library)
    joinValues library separator maximumBytes values
  | value =>
    if value.isPrimitive then do
      rejectIf (maximumBytes < (value.toString library).utf8ByteSize) .resourceLimit
      return value.toString library
    else .ok ""

def join (items : GithubValue) (separator : Option GithubValue)
    (maximumBytes : Nat) : EvaluationM GithubValue := do
  let result ← joinText library items separator maximumBytes
  return (GithubValue.string result).inheritSensitivity
    (items.isSensitive || separator.any GithubValue.isSensitive)

/-- A number below 256, with an optional plus sign. -/
def parseU8 (text : Text) : Option Nat :=
  let digits := if text.head? = some '+' then text.tail else text
  if digits = [] ∨ digits.all Char.isDigit = false ∨ 256 ≤ radixValue 10 digits then none
  else some (radixValue 10 digits)

def placeholderIndex (placeholder : Text) : Option Nat :=
  let placeholder :=
    if placeholder.getLast? = some ':' then placeholder.dropLast
    else placeholder
  if placeholder = [] ∨ ':' ∈ placeholder then none else parseU8 placeholder

inductive TemplatePiece where
  | text (character : Char)
  | argument (index : Nat)
  deriving DecidableEq, Repr

def templatePiece (first : Char) (rest : Text) : EvaluationM (TemplatePiece × Text) :=
  if first = '{' then
    match rest with
    | '{' :: rest => .ok (.text '{', rest)
    | rest => do
        let (placeholder, rest) ← okOr (splitAtFirst '}' rest) .invalidOperation
        let index ← okOr (placeholderIndex placeholder) .invalidOperation
        return (.argument index, rest)
  else if first = '}' then
    match rest with
    | '}' :: rest => .ok (.text '}', rest)
    | _ => .error .invalidOperation
  else .ok (.text first, rest)

def pieceText (arguments : List (EvaluationM GithubValue)) :
    TemplatePiece → EvaluationM (String × Bool)
  | .text character => .ok (String.singleton character, false)
  | .argument index => do
      let argument ← okOr arguments[index]? .invalidOperation
      let value ← argument
      return (value.toString library, value.isSensitive)

theorem length_splitAtFirst {separator : Char} {text before after : Text}
    (hsplit : splitAtFirst separator text = some (before, after)) :
    after.length < text.length := by
  induction text generalizing before with
  | nil => cases hsplit
  | cons first rest ih =>
    unfold splitAtFirst at hsplit
    by_cases hfirst : first = separator
    · rw [if_pos hfirst] at hsplit
      cases hsplit
      exact Nat.lt_succ_self _
    · rw [if_neg hfirst] at hsplit
      cases hrest : splitAtFirst separator rest with
      | none =>
        rw [hrest] at hsplit
        cases hsplit
      | some =>
        rw [hrest] at hsplit
        cases hsplit
        exact Nat.lt_succ_of_lt (ih hrest)

theorem length_templatePiece {first : Char} {rest after : Text} {piece : TemplatePiece}
    (hpiece : templatePiece first rest = .ok (piece, after)) :
    after.length ≤ rest.length := by
  unfold templatePiece at hpiece
  split at hpiece
  · split at hpiece
    · cases hpiece
      exact Nat.le_succ _
    · simp only [bind_eq_ok, okOr_eq_ok, pure_eq_ok, Prod.mk.injEq] at hpiece
      obtain ⟨parts, hsplit, index, -, -, rfl⟩ := hpiece
      exact Nat.le_of_lt (length_splitAtFirst hsplit)
  · split at hpiece
    · split at hpiece
      · cases hpiece
        exact Nat.le_succ _
      · cases hpiece
    · cases hpiece
      exact Nat.le_refl _

/-- The rounds of the loop over a template, one for each piece. -/
def formatRounds (arguments : List (EvaluationM GithubValue)) (maximumBytes : Nat) :
    Nat → Text → String × Bool → EvaluationM (String × Bool)
  | _, [], output => .ok output
  | 0, _ :: _, _ => .error .invalidOperation
  | rounds + 1, first :: rest, (output, sensitive) => do
      let (piece, rest) ← templatePiece first rest
      let (text, textSensitive) ← pieceText library arguments piece
      let output ← appendBounded output text maximumBytes
      formatRounds arguments maximumBytes rounds rest (output, sensitive || textSensitive)

/-- As many rounds as the template has characters are enough. -/
theorem formatRounds_eq {arguments : List (EvaluationM GithubValue)}
    {maximumBytes rounds more : Nat} {template : Text} {output : String × Bool}
    (hrounds : template.length ≤ rounds) (hmore : rounds ≤ more) :
    formatRounds library arguments maximumBytes more template output =
      formatRounds library arguments maximumBytes rounds template output := by
  induction rounds generalizing more template output with
  | zero =>
    rw [List.length_eq_zero_iff.mp (Nat.le_zero.mp hrounds)]
    simp only [formatRounds]
  | succ rounds ih =>
    cases template with
    | nil => simp only [formatRounds]
    | cons first rest =>
      simp only [List.length_cons] at hrounds
      cases more with
      | zero => exact absurd hmore (Nat.not_succ_le_zero _)
      | succ =>
        simp only [formatRounds]
        cases hpiece : templatePiece first rest with
        | error => rfl
        | ok parts =>
          have hlength := length_templatePiece hpiece
          simp only [ok_bind]
          cases pieceText library arguments parts.1 with
          | error => rfl
          | ok text =>
            simp only [ok_bind]
            cases appendBounded output.1 text.1 maximumBytes with
            | error => rfl
            | ok => exact ih (by omega) (by omega)

def formatTemplate (template : Text) (templateSensitive : Bool)
    (arguments : List (EvaluationM GithubValue)) (maximumBytes : Nat) :
    EvaluationM GithubValue := do
  let (output, sensitive) ← formatRounds library arguments maximumBytes
    template.length template ("", templateSensitive)
  return (GithubValue.string output).inheritSensitivity sensitive

section Json

variable (limits : GithubExpressionLimits)

def observeItem (depth items : Nat) : EvaluationM Nat := do
  rejectIf (limits.collectionItems < items + 1 ∨ limits.valueDepth ≤ depth) .resourceLimit
  return items + 1

mutual

def buildJson (depth items : Nat) : JsonSource → EvaluationM (GithubValue × Nat)
  | .null => do
      let items ← observeItem limits depth items
      return (.null, items)
  | .boolean value => do
      let items ← observeItem limits depth items
      return (.boolean value, items)
  | .number bits => do
      let items ← observeItem limits depth items
      return (.number (BinaryNumber.canonical bits), items)
  | .string value => do
      let items ← observeItem limits depth items
      return (.string value, items)
  | .sequence sources ended => do
      let items ← observeItem limits depth items
      let (values, items) ← buildJsonItems (depth + 1) items sources
      rejectIf (ended = false) .invalidOperation
      let value ← okOr (GithubValue.newArray values) .invalidOperation
      return (value, items)
  | .mapping sources ended => do
      let items ← observeItem limits depth items
      let (entries, items) ← buildJsonEntries (depth + 1) items sources
      rejectIf (ended = false) .invalidOperation
      let value ← okOr (GithubValue.newObject library entries) .invalidOperation
      return (value, items)
  | .malformed => do
      let _ ← observeItem limits depth items
      .error .invalidOperation

def buildJsonItems (depth items : Nat) : List JsonSource → EvaluationM (List GithubValue × Nat)
  | [] => .ok ([], items)
  | source :: rest => do
      let (value, items) ← buildJson depth items source
      let (values, items) ← buildJsonItems depth items rest
      return (value :: values, items)

def buildJsonEntries (depth items : Nat) :
    List (String × JsonSource) → EvaluationM (List (String × GithubValue) × Nat)
  | [] => .ok ([], items)
  | (key, source) :: rest => do
      let (value, items) ← buildJson depth items source
      let (entries, items) ← buildJsonEntries depth items rest
      return ((key, value) :: entries, items)

end

def fromJson (argument : GithubValue) : EvaluationM GithubValue := do
  let (source, trailing) := library.readJson (argument.toString library)
  let (value, _) ← buildJson library limits 0 0 source
  rejectIf (trailing = true) .invalidOperation
  return value.inheritSensitivity argument.isSensitive

def writeText (value : String) (output : String) : EvaluationM String :=
  appendBounded output value limits.resultBytes

def indentation (depth : Nat) : String :=
  String.ofList (List.replicate (2 * depth) ' ')

def itemBreak (first : Bool) (depth : Nat) : String :=
  (if first then "" else ",") ++ "\n" ++ indentation depth

mutual

def writeJson (depth : Nat) (output : String) : GithubValue → EvaluationM String
  | .sensitive payload => writeJson depth output payload
  | .null => do
      rejectIf (limits.valueDepth ≤ depth) .resourceLimit
      writeText limits "null" output
  | .boolean value => do
      rejectIf (limits.valueDepth ≤ depth) .resourceLimit
      writeText limits (if value then "true" else "false") output
  | .number bits => do
      rejectIf (limits.valueDepth ≤ depth) .resourceLimit
      writeText limits (formatNumber library bits) output
  | .string value => do
      rejectIf (limits.valueDepth ≤ depth) .resourceLimit
      writeText limits (library.quoteJson value) output
  | .array _ values => do
      rejectIf (limits.valueDepth ≤ depth) .resourceLimit
      if values.isEmpty then writeText limits "[]" output
      else
        let output ← writeText limits "[" output
        let output ← writeJsonItems (depth + 1) true output values
        let output ← writeText limits ("\n" ++ indentation depth) output
        writeText limits "]" output
  | .object _ entries => do
      rejectIf (limits.valueDepth ≤ depth) .resourceLimit
      if entries.isEmpty then writeText limits "\x7b\x7d" output
      else
        let output ← writeText limits "\x7b" output
        let output ← writeJsonEntries (depth + 1) true output entries
        let output ← writeText limits ("\n" ++ indentation depth) output
        writeText limits "\x7d" output

def writeJsonItems (depth : Nat) (first : Bool) (output : String) :
    List GithubValue → EvaluationM String
  | [] => .ok output
  | value :: rest => do
      let output ← writeText limits (itemBreak first depth) output
      let output ← writeJson depth output value
      writeJsonItems depth false output rest

def writeJsonEntries (depth : Nat) (first : Bool) (output : String) :
    List (String × GithubValue) → EvaluationM String
  | [] => .ok output
  | (key, value) :: rest => do
      let output ← writeText limits (itemBreak first depth) output
      let output ← writeText limits (library.quoteJson key ++ ": ") output
      let output ← writeJson depth output value
      writeJsonEntries depth false output rest

end

/-- A sensitive value is never written. -/
def toJson (argument : GithubValue) : EvaluationM GithubValue := do
  rejectIf (argument.isSensitive = true) .invalidOperation
  let output ← writeJson library limits 0 "" argument
  return .string output

end Json

end AutomataCi
