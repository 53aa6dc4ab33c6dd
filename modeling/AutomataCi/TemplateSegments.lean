import AutomataCi.ExpressionSources
import AutomataCi.WorkflowPlans

/-!
# Segments of a template

A template is cut into literal text and evaluations.  The end of an evaluation
is found by a scan over the bytes of the template, and the evaluation is later
compiled on its own, with a scan over its characters.  Both scans find the same
closing delimiter, so that every segment which the first one cuts is one
expression for the second.
-/

namespace AutomataCi

open GuardedResult TextOperations TextSlices

inductive SegmentationError where
  | nestedOpening | unclosedOpening | emptyEvaluation | splitCharacter
  deriving DecidableEq, Repr

def quoteByte : UInt8 :=
  39

def openingBytes : Bytes :=
  [36, 123, 123]

def closingBytes : Bytes :=
  [125, 125]

/-- The number of bytes up to the end of the closing delimiter.  The last byte
is not a delimiter. -/
def findExpressionEnd (quoted : Bool) : Bytes → Except SegmentationError Nat
  | [] => .error .unclosedOpening
  | [_] => .error .unclosedOpening
  | first :: second :: rest =>
    if first = quoteByte then
      if quoted && second = quoteByte then do
        let length ← findExpressionEnd quoted rest
        return length + 2
      else do
        let length ← findExpressionEnd (!quoted) (second :: rest)
        return length + 1
    else if !quoted && openingBytes.isPrefixOf (first :: second :: rest) then
      .error .nestedOpening
    else if !quoted && closingBytes.isPrefixOf (first :: second :: rest) then
      .ok 2
    else do
      let length ← findExpressionEnd quoted (second :: rest)
      return length + 1

/-- The evaluation at the start of a text, without its opening delimiter, and
what follows it. -/
def cutEvaluation (text : Text) : Except SegmentationError (Text × Text) := do
  let length ← findExpressionEnd false (utf8Bytes text)
  let (evaluation, rest) ← okOr (splitAtByte length text) .splitCharacter
  let (inner, _) ← okOr (splitAtByte (length - 2) text) .splitCharacter
  rejectIf (trim inner = []) .emptyEvaluation
  return (evaluation, rest)

def literalSegment (text : Text) : List ExpressionSegment :=
  if text = [] then [] else [.literal (String.ofList text)]

variable {text evaluation rest : Text} {segments : List ExpressionSegment}

theorem length_of_cutEvaluation (hcut : cutEvaluation text = .ok (evaluation, rest)) :
    rest.length ≤ text.length := by
  simp only [cutEvaluation, bind_eq_ok, okOr_eq_ok, pure_eq_ok] at hcut
  obtain ⟨_, -, ⟨_, _⟩, hsplit, _, -, _, -, hpair⟩ := hcut
  cases hpair
  have hlength := congrArg List.length (append_of_splitAtByte hsplit).1
  rw [List.length_append] at hlength
  exact Nat.le_of_add_left_le hlength.ge

theorem length_lt_of_cutEvaluation {literal after : Text}
    (hbreak : breakBefore openingDelimiter text = some (literal, rest))
    (hcut : cutEvaluation (rest.drop 3) = .ok (evaluation, after)) :
    after.length < text.length := by
  obtain ⟨htext, ⟨more, hmore⟩, -⟩ := breakBefore_eq_some (by decide) hbreak
  have hlength := length_of_cutEvaluation hcut
  have hthree : openingDelimiter.length = 3 := rfl
  rw [← hmore, List.length_drop, List.length_append] at hlength
  rw [htext, List.length_append, ← hmore, List.length_append]
  omega

def segmentsFrom (text : Text) : Except SegmentationError (List ExpressionSegment) :=
  match hbreak : breakBefore openingDelimiter text with
  | none => .ok (literalSegment text)
  | some (literal, rest) =>
    match hcut : cutEvaluation (rest.drop 3) with
    | .error error => .error error
    | .ok (evaluation, after) => do
        have _hshorter : after.length < text.length :=
          length_lt_of_cutEvaluation hbreak hcut
        let segments ← segmentsFrom after
        return literalSegment literal ++
          .evaluation (String.ofList (openingDelimiter ++ evaluation)) :: segments
termination_by text.length

def expressionSegments (source : Text) : Except SegmentationError (List ExpressionSegment) := do
  let segments ← segmentsFrom source
  return if segments = [] then [.literal (String.ofList source)] else segments

def ExpressionSegment.source : ExpressionSegment → Text
  | .literal source => source.toList
  | .evaluation source => source.toList

inductive PlanExpressionError where
  | unsupportedExpressionVersion (supported received : Nat)
  | emptyExpressionSegments
  | emptyEvaluation
  | expressionSourceMismatch
  deriving DecidableEq, Repr

def currentExpressionVersion : Nat :=
  1

structure PlanExpression where
  version : Nat
  source : Text
  segments : List ExpressionSegment
  deriving DecidableEq, Repr

namespace PlanExpression

def isEmptyEvaluation : ExpressionSegment → Bool
  | .literal _ => false
  | .evaluation source => trim source.toList = []

def validate (self : PlanExpression) : Except PlanExpressionError Unit := do
  rejectIf (self.version ≠ currentExpressionVersion)
    (.unsupportedExpressionVersion currentExpressionVersion self.version)
  rejectIf (self.segments = []) .emptyExpressionSegments
  rejectIf (self.segments.any isEmptyEvaluation = true) .emptyEvaluation
  rejectIf (self.segments.flatMap ExpressionSegment.source ≠ self.source) .expressionSourceMismatch

def new (source : Text) (segments : List ExpressionSegment) :
    Except PlanExpressionError PlanExpression := do
  let expression : PlanExpression :=
    { version := currentExpressionVersion, source, segments }
  expression.validate
  return expression

end PlanExpression

section Scans

variable {quoted : Bool} {length : Nat}

theorem findExpressionEnd_append {bytes more : Bytes} (hbytes : ∀ byte ∈ bytes, 128 ≤ byte.toNat)
    (hend : findExpressionEnd quoted (bytes ++ more) = .ok length) :
    ∃ shorter, findExpressionEnd quoted more = .ok shorter ∧ length = shorter + bytes.length := by
  induction bytes generalizing length with
  | nil => exact ⟨length, hend, rfl⟩
  | cons first rest ih =>
    rw [List.forall_mem_cons] at hbytes
    cases hmore : rest ++ more with
    | nil =>
      rw [List.cons_append, hmore] at hend
      cases hend
    | cons second others =>
      have hquote : first ≠ quoteByte := by
        rintro rfl
        exact absurd hbytes.1 (by decide)
      have hopening : ¬ openingBytes.isPrefixOf (first :: second :: others) = true := by
        rw [List.isPrefixOf_iff_prefix, openingBytes, List.cons_prefix_cons]
        rintro ⟨rfl, -⟩
        exact absurd hbytes.1 (by decide)
      have hclosing : ¬ closingBytes.isPrefixOf (first :: second :: others) = true := by
        rw [List.isPrefixOf_iff_prefix, closingBytes, List.cons_prefix_cons]
        rintro ⟨rfl, -⟩
        exact absurd hbytes.1 (by decide)
      rw [List.cons_append, hmore, findExpressionEnd, if_neg hquote] at hend
      simp only [hopening, hclosing, Bool.and_false, Bool.false_eq_true,
        if_false, bind_eq_ok, pure_eq_ok] at hend
      obtain ⟨shorter, hshorter, rfl⟩ := hend
      rw [← hmore] at hshorter
      obtain ⟨least, hleast, rfl⟩ := ih hbytes.2 hshorter
      exact ⟨least, hleast, by rw [List.length_cons]; omega⟩

section Bytes

variable {text : Text} {first : UInt8} {rest : Bytes}

theorem quoteByte_iff (hbytes : utf8Bytes text = first :: rest) :
    first = quoteByte ↔ text.head? = some '\'' := by
  have hprefix := utf8Bytes_prefix_iff (show ∀ character ∈ ['\''], character.toNat < 128 from
      forall_mem_of_all (by decide)) text
  have hquote : utf8Bytes ['\''] = [quoteByte] := by decide
  rw [hquote, hbytes, List.cons_prefix_cons] at hprefix
  cases text with
  | nil => cases hbytes
  | cons =>
    rw [List.cons_prefix_cons] at hprefix
    simp only [List.nil_prefix, and_true] at hprefix
    rw [eq_comm, hprefix, List.head?_cons, Option.some.injEq, eq_comm]

theorem isPrefixOf_delimiter {delimiter : Text} {bytes : Bytes}
    (hascii : ∀ character ∈ delimiter, character.toNat < 128)
    (hdelimiter : bytes = utf8Bytes delimiter) (hbytes : utf8Bytes text = first :: rest) :
    bytes.isPrefixOf (first :: rest) = true ↔ delimiter <+: text := by
  rw [List.isPrefixOf_iff_prefix, ← hbytes, hdelimiter]
  exact utf8Bytes_prefix_iff hascii text

end Bytes

variable {rest : Text} {opening cursor : Nat}

theorem findExpressionEnd_cons {first : Char}
    (hend : findExpressionEnd quoted (utf8Bytes (first :: rest)) = .ok length) :
    (first = '\'' ∧ quoted = true ∧ ∃ more shorter, rest = '\'' :: more ∧
        findExpressionEnd quoted (utf8Bytes more) = .ok shorter ∧
        length = shorter + 2) ∨
    (first = '\'' ∧ ¬ (quoted = true ∧ rest.head? = some '\'') ∧
      ∃ shorter, findExpressionEnd (!quoted) (utf8Bytes rest) = .ok shorter ∧
        length = shorter + 1) ∨
    (first ≠ '\'' ∧ quoted = false ∧ ¬ openingDelimiter <+: first :: rest ∧
      closingDelimiter <+: first :: rest ∧ length = 2) ∨
    (first ≠ '\'' ∧ (quoted = false → ¬ openingDelimiter <+: first :: rest ∧
        ¬ closingDelimiter <+: first :: rest) ∧
      ∃ shorter, findExpressionEnd quoted (utf8Bytes rest) = .ok shorter ∧
        length = shorter + first.utf8Size) := by
  by_cases hascii : first.toNat < 128
  · cases hrest : utf8Bytes rest with
    | nil =>
      rw [utf8Bytes_cons, hrest, utf8EncodeChar_of_ascii hascii] at hend
      cases hend
    | cons second others =>
      have hbytes : utf8Bytes (first :: rest) = UInt8.ofNat first.toNat :: second :: others := by
        rw [utf8Bytes_cons, hrest, utf8EncodeChar_of_ascii hascii]
        rfl
      have hquote := quoteByte_iff hbytes
      have hnext := quoteByte_iff hrest
      have hopening : openingBytes.isPrefixOf _ = true ↔ openingDelimiter <+: _ :=
        isPrefixOf_delimiter (forall_mem_of_all (by decide)) (by decide) hbytes
      have hclosing : closingBytes.isPrefixOf _ = true ↔ closingDelimiter <+: _ :=
        isPrefixOf_delimiter (forall_mem_of_all (by decide)) (by decide) hbytes
      rw [hbytes, findExpressionEnd] at hend
      by_cases hfirst : first = '\''
      · rw [if_pos (hquote.mpr (congrArg some hfirst))] at hend
        by_cases hboth : quoted = true ∧ rest.head? = some '\''
        · rw [if_pos (by simp [hboth.1, hnext.mpr hboth.2])] at hend
          simp only [bind_eq_ok, pure_eq_ok] at hend
          obtain ⟨shorter, hshorter, rfl⟩ := hend
          obtain ⟨more, rfl⟩ := List.head?_eq_some_iff.mp hboth.2
          have hothers : utf8Bytes more = others := by
            rw [utf8Bytes_cons, utf8EncodeChar_of_ascii (by decide)] at hrest
            exact (List.cons.inj hrest).2
          rw [← hothers] at hshorter
          exact .inl ⟨hfirst, hboth.1, more, shorter, rfl, hshorter, rfl⟩
        · rw [if_neg (by
            rw [Bool.and_eq_true, decide_eq_true_eq, hnext]
            exact hboth)] at hend
          simp only [bind_eq_ok, pure_eq_ok] at hend
          obtain ⟨shorter, hshorter, rfl⟩ := hend
          exact .inr (.inl ⟨hfirst, hboth, shorter, hshorter, rfl⟩)
      · have hother : UInt8.ofNat first.toNat ≠ quoteByte := fun hbyte =>
          hfirst (Option.some.inj (hquote.mp hbyte))
        have hsize := utf8Size_of_ascii hascii
        rw [if_neg hother] at hend
        cases quoted with
        | true =>
          simp only [Bool.not_true, Bool.false_and, Bool.false_eq_true,
            if_false, bind_eq_ok, pure_eq_ok] at hend
          obtain ⟨shorter, hshorter, rfl⟩ := hend
          rw [hsize]
          exact .inr (.inr (.inr ⟨hfirst, Bool.noConfusion, shorter, hshorter, rfl⟩))
        | false =>
          simp only [Bool.not_false, Bool.true_and, hopening, hclosing] at hend
          split_ifs at hend with hopen hclose
          · cases hend
            exact .inr (.inr (.inl ⟨hfirst, rfl, hopen, hclose, rfl⟩))
          · simp only [bind_eq_ok, pure_eq_ok] at hend
            obtain ⟨shorter, hshorter, rfl⟩ := hend
            rw [hsize]
            exact .inr (.inr (.inr ⟨hfirst, fun _ => ⟨hopen, hclose⟩, shorter, hshorter, rfl⟩))
  · have hquote : first ≠ '\'' := by
      rintro rfl
      exact hascii (by decide)
    have hdelimiters : ¬ openingDelimiter <+: first :: rest ∧
        ¬ closingDelimiter <+: first :: rest := by
      simp only [openingDelimiter, closingDelimiter, List.cons_prefix_cons]
      constructor
      · rintro ⟨rfl, -⟩
        exact hascii (by decide)
      · rintro ⟨rfl, -⟩
        exact hascii (by decide)
    rw [utf8Bytes_cons] at hend
    obtain ⟨shorter, hshorter, rfl⟩ := findExpressionEnd_append
      (fun byte hbyte => le_of_mem_utf8EncodeChar (by omega) hbyte) hend
    rw [String.length_utf8EncodeChar]
    exact .inr (.inr (.inr ⟨hquote, fun _ => hdelimiters, shorter, hshorter, rfl⟩))

theorem findConditionDelimiter_quote (hrest : rest ≠ [])
    (hsingle : ¬ (quoted = true ∧ rest.head? = some '\'')) :
    findConditionDelimiter opening cursor quoted ('\'' :: rest) =
      findConditionDelimiter opening (cursor + 1) (!quoted) rest := by
  cases rest with
  | nil => exact absurd rfl hrest
  | cons =>
    rw [findConditionDelimiter, if_pos rfl, if_neg]
    intro hboth
    rw [Bool.and_eq_true, decide_eq_true_eq] at hboth
    exact hsingle ⟨hboth.1, congrArg some hboth.2⟩

theorem findConditionDelimiter_other {first : Char} (hrest : rest ≠ []) (hfirst : first ≠ '\'')
    (hdelimiters : quoted = false → ¬ openingDelimiter <+: first :: rest ∧
      ¬ closingDelimiter <+: first :: rest) :
    findConditionDelimiter opening cursor quoted (first :: rest) =
      findConditionDelimiter opening (cursor + first.utf8Size) quoted rest := by
  cases rest with
  | nil => exact absurd rfl hrest
  | cons =>
    rw [findConditionDelimiter, if_neg hfirst]
    cases quoted with
    | true => rfl
    | false =>
      obtain ⟨hopening, hclosing⟩ := hdelimiters rfl
      rw [← List.isPrefixOf_iff_prefix] at hopening hclosing
      simp only [Bool.not_false, Bool.true_and, hopening, hclosing, Bool.false_eq_true, if_false]

/-- The scan over the characters finds the closing delimiter at which the scan
over the bytes ends. -/
theorem findConditionDelimiter_of_findExpressionEnd {text : Text}
    (hend : findExpressionEnd quoted (utf8Bytes text) = .ok length) :
    ∃ inner rest, text = inner ++ closingDelimiter ++ rest ∧ length = byteLength inner + 2 ∧
      ∀ opening cursor, findConditionDelimiter opening cursor quoted
          (inner ++ closingDelimiter) = .ok (cursor + byteLength inner) := by
  -- two quotes are passed at once, hence the induction on the length
  induction hsize : text.length using Nat.strong_induction_on generalizing text quoted length with
  | _ size ih =>
    have hnonempty : ∀ inner : Text, inner ++ closingDelimiter ≠ [] := by
      intro inner
      simp [closingDelimiter]
    have hquoteSize : '\''.utf8Size = 1 := by decide
    cases text with
    | nil => cases hend
    | cons first rest =>
      rw [List.length_cons] at hsize
      rcases findExpressionEnd_cons hend with ⟨rfl, rfl, more, shorter, rfl, hshorter, rfl⟩ | ⟨rfl,
        hsingle, shorter, hshorter, rfl⟩ | ⟨hfirst, rfl, -, ⟨after, hafter⟩, rfl⟩ | ⟨hfirst,
        hdelimiters, shorter, hshorter, rfl⟩
      · rw [List.length_cons] at hsize
        obtain ⟨inner, after, htext, rfl, hfind⟩ := ih more.length (by omega) hshorter rfl
        refine ⟨'\'' :: '\'' :: inner, after, by rw [htext]; rfl, ?_, ?_⟩
        · simp only [byteLength_cons, hquoteSize]
          omega
        · intro opening cursor
          have hrest := hfind opening (cursor + 2)
          simp only [byteLength_cons, hquoteSize]
          rw [show cursor + (1 + (1 + byteLength inner)) =
            cursor + 2 + byteLength inner by omega, ← hrest]
          rfl
      · obtain ⟨inner, after, htext, rfl, hfind⟩ := ih rest.length (by omega) hshorter rfl
        have hhead : rest.head? = (inner ++ closingDelimiter).head? := by
          rw [htext, List.head?_append_of_ne_nil _ (hnonempty inner)]
        rw [hhead] at hsingle
        refine ⟨'\'' :: inner, after, by rw [htext]; rfl, ?_, ?_⟩
        · simp only [byteLength_cons, hquoteSize]
          omega
        · intro opening cursor
          rw [List.cons_append, findConditionDelimiter_quote (hnonempty inner) hsingle,
            hfind, byteLength_cons, hquoteSize, Nat.add_assoc]
      · refine ⟨[], after, hafter.symm, rfl, fun opening cursor => rfl⟩
      · obtain ⟨inner, after, htext, rfl, hfind⟩ := ih rest.length (by omega) hshorter rfl
        have hprefix : first :: (inner ++ closingDelimiter) <+: first :: rest := by
          rw [htext]
          exact List.prefix_append (first :: (inner ++ closingDelimiter)) _
        refine ⟨first :: inner, after, by rw [htext]; rfl, ?_, ?_⟩
        · rw [byteLength_cons]
          omega
        · intro opening cursor
          rw [List.cons_append, findConditionDelimiter_other (hnonempty inner) hfirst
              (fun hquoted => ⟨fun hopening => (hdelimiters hquoted).1 (hopening.trans hprefix),
                  fun hclosing => (hdelimiters hquoted).2 (hclosing.trans hprefix)⟩),
            hfind, byteLength_cons, Nat.add_assoc]

end Scans

def OneExpression (evaluation : Text) : Prop :=
  ∃ inner, evaluation = openingDelimiter ++ inner ++ closingDelimiter ∧ trim inner ≠ [] ∧
    expressionRange evaluation = .ok ⟨3 + byteLength inner - byteLength (trimStart inner),
        3 + byteLength (trimEnd inner)⟩

theorem trim_delimited (inner : Text) :
    trimStart (openingDelimiter ++ inner ++ closingDelimiter) =
        openingDelimiter ++ inner ++ closingDelimiter ∧
      trimEnd (openingDelimiter ++ inner ++ closingDelimiter) =
        openingDelimiter ++ inner ++ closingDelimiter ∧
      trim (openingDelimiter ++ inner ++ closingDelimiter) =
        openingDelimiter ++ inner ++ closingDelimiter := by
  have hstart : trimStart (openingDelimiter ++ inner ++ closingDelimiter) =
      openingDelimiter ++ inner ++ closingDelimiter := rfl
  have hreverse :
      trimStart (openingDelimiter ++ inner ++ closingDelimiter).reverse =
        (openingDelimiter ++ inner ++ closingDelimiter).reverse := by
    rw [List.reverse_append]
    rfl
  refine ⟨hstart, ?_, ?_⟩
  · rw [trimEnd, hreverse, List.reverse_reverse]
  · rw [trim, hstart, hreverse, List.reverse_reverse]

theorem oneExpression_of_findConditionDelimiter {inner : Text} (hinner : trim inner ≠ [])
    (hfind : ∀ opening cursor, findConditionDelimiter opening cursor false
      (inner ++ closingDelimiter) = .ok (cursor + byteLength inner)) :
    OneExpression (openingDelimiter ++ inner ++ closingDelimiter) := by
  refine ⟨inner, rfl, hinner, ?_⟩
  obtain ⟨hstart, hstop, htrim⟩ := trim_delimited inner
  have hopening : openingDelimiter.isPrefixOf
      (openingDelimiter ++ inner ++ closingDelimiter) = true := by
    rw [List.isPrefixOf_iff_prefix, List.append_assoc]
    exact List.prefix_append _ _
  have hdrop : (openingDelimiter ++ inner ++ closingDelimiter).drop 3 =
      inner ++ closingDelimiter := rfl
  have hlength : byteLength (openingDelimiter ++ inner ++ closingDelimiter) =
      3 + byteLength inner + 2 := by
    rw [byteLength_append, byteLength_append]
    rfl
  simp only [expressionRange, hstart, hstop, htrim, hopening, hdrop, if_true,
    Nat.sub_self, Nat.zero_add, hfind, ok_bind, Nat.add_sub_cancel_left,
    splitAtByte_append, Option.map_some, Option.getD_some]
  rw [rejectIf_of_not _ (by rw [hlength]; simp), ok_bind, rejectIf_of_not _ hinner]
  rfl

theorem splitAtByte_of_findExpressionEnd {length : Nat}
    (hend : findExpressionEnd false (utf8Bytes text) = .ok length) :
    ∃ inner rest, text = inner ++ closingDelimiter ++ rest ∧
      splitAtByte length text = some (inner ++ closingDelimiter, rest) ∧
      splitAtByte (length - 2) text = some (inner, closingDelimiter ++ rest) ∧
      ∀ opening cursor, findConditionDelimiter opening cursor false
        (inner ++ closingDelimiter) = .ok (cursor + byteLength inner) := by
  obtain ⟨inner, rest, htext, rfl, hfind⟩ := findConditionDelimiter_of_findExpressionEnd hend
  have hlength : byteLength inner + 2 = byteLength (inner ++ closingDelimiter) := by
    rw [byteLength_append]
    rfl
  refine ⟨inner, rest, htext, ?_, ?_, hfind⟩
  · rw [htext, hlength, splitAtByte_append]
  · rw [htext, List.append_assoc, Nat.add_sub_cancel, splitAtByte_append]

theorem cutEvaluation_eq_ok (hcut : cutEvaluation text = .ok (evaluation, rest)) :
    text = evaluation ++ rest ∧ OneExpression (openingDelimiter ++ evaluation) := by
  simp only [cutEvaluation, bind_eq_ok, okOr_eq_ok, rejectIf_eq_ok, pure_eq_ok] at hcut
  obtain ⟨length, hend, ⟨_, _⟩, hsplit, ⟨_, _⟩, hcutInner, _, hblank, hpair⟩ := hcut
  cases hpair
  obtain ⟨inner, after, htext, hevaluation, hinner, hfind⟩ := splitAtByte_of_findExpressionEnd hend
  rw [hevaluation] at hsplit
  rw [hinner] at hcutInner
  cases hsplit
  cases hcutInner
  refine ⟨htext, ?_⟩
  rw [← List.append_assoc]
  exact oneExpression_of_findConditionDelimiter hblank hfind

/-- Segments which make up a text, with literals without delimiters. -/
structure Segmented (text : Text) (segments : List ExpressionSegment) :
    Prop where
  source : segments.flatMap ExpressionSegment.source = text
  literal : ∀ literal, .literal literal ∈ segments → ¬ openingDelimiter <:+: literal.toList
  evaluation : ∀ evaluation, .evaluation evaluation ∈ segments → OneExpression evaluation.toList

theorem segmented_literalSegment (htext : ¬ openingDelimiter <:+: text) :
    Segmented text (literalSegment text) := by
  unfold literalSegment
  split_ifs with hempty
  · subst hempty
    exact ⟨rfl, nofun, nofun⟩
  · refine ⟨?_, ?_, ?_⟩
    · simp [ExpressionSegment.source]
    · intro literal hliteral
      simp only [List.mem_singleton, ExpressionSegment.literal.injEq] at hliteral
      rw [hliteral, String.toList_ofList]
      exact htext
    · simp

theorem Segmented.append {first second : Text} {before after : List ExpressionSegment}
    (hfirst : Segmented first before) (hsecond : Segmented second after) :
    Segmented (first ++ second) (before ++ after) := by
  refine ⟨?_, ?_, ?_⟩
  · rw [List.flatMap_append, hfirst.source, hsecond.source]
  · intro literal hliteral
    rcases List.mem_append.mp hliteral with hbefore | hafter
    · exact hfirst.literal literal hbefore
    · exact hsecond.literal literal hafter
  · intro evaluation hevaluation
    rcases List.mem_append.mp hevaluation with hbefore | hafter
    · exact hfirst.evaluation evaluation hbefore
    · exact hsecond.evaluation evaluation hafter

theorem segmented_evaluation (hone : OneExpression evaluation) :
    Segmented evaluation [.evaluation (String.ofList evaluation)] := by
  refine ⟨by simp [ExpressionSegment.source], by simp, ?_⟩
  intro other hother
  simp only [List.mem_singleton, ExpressionSegment.evaluation.injEq] at hother
  rw [hother, String.toList_ofList]
  exact hone

theorem segmented_segmentsFrom (hsegments : segmentsFrom text = .ok segments) :
    Segmented text segments := by
  induction hsize : text.length using Nat.strong_induction_on generalizing text segments with
  | _ size ih =>
    rw [segmentsFrom] at hsegments
    split at hsegments
    · rename_i hnone
      cases hsegments
      exact segmented_literalSegment (breakBefore_eq_none (by decide) hnone)
    · rename_i literal rest hbreak
      split at hsegments
      · cases hsegments
      · rename_i evaluation after hcut
        have hshorter := length_lt_of_cutEvaluation hbreak hcut
        simp only [bind_eq_ok, pure_eq_ok] at hsegments
        obtain ⟨later, hlater, rfl⟩ := hsegments
        obtain ⟨htext, ⟨more, hmore⟩, hliteral⟩ := breakBefore_eq_some (by decide) hbreak
        obtain ⟨hrest, hone⟩ := cutEvaluation_eq_ok hcut
        have hdrop : rest.drop 3 = more := by
          rw [← hmore]
          rfl
        have hwhole : text = literal ++ ((openingDelimiter ++ evaluation) ++ after) := by
          rw [htext, ← hmore, ← hdrop, hrest, List.append_assoc]
        rw [hwhole]
        exact (segmented_literalSegment hliteral).append ((segmented_evaluation hone).append
            (ih after.length (by omega) hlater rfl))

theorem segmented_expressionSegments {source : Text}
    (hsegments : expressionSegments source = .ok segments) :
    segments ≠ [] ∧ Segmented source segments := by
  simp only [expressionSegments, bind_eq_ok, pure_eq_ok] at hsegments
  obtain ⟨found, hfound, rfl⟩ := hsegments
  have hsegmented := segmented_segmentsFrom hfound
  split_ifs with hempty
  · have hsource : source = [] := by
      rw [← hsegmented.source, hempty]
      rfl
    subst hsource
    refine ⟨List.cons_ne_nil _ _, rfl, ?_, by simp⟩
    intro literal hliteral
    simp only [List.mem_singleton, ExpressionSegment.literal.injEq] at hliteral
    subst hliteral
    decide
  · exact ⟨hempty, hsegmented⟩

theorem not_isEmptyEvaluation {segment : ExpressionSegment}
    (hone : ∀ evaluation, segment = .evaluation evaluation → OneExpression evaluation.toList) :
    PlanExpression.isEmptyEvaluation segment = false := by
  cases segment with
  | literal => rfl
  | evaluation source =>
    obtain ⟨inner, hsource, -, -⟩ := hone source rfl
    rw [PlanExpression.isEmptyEvaluation, hsource, (trim_delimited inner).2.2]
    rfl

/-- The segments of a template make up the template, no literal contains an
opening delimiter, and every evaluation is one expression for the compiler of
expressions: what lies between its delimiters, without the white space around
it.  They form a plan expression. -/
theorem expressionSegments_agree {source : Text} {segments : List ExpressionSegment}
    (hsegments : expressionSegments source = .ok segments) :
    segments.flatMap ExpressionSegment.source = source ∧
    (∀ literal, .literal literal ∈ segments → ¬ openingDelimiter <:+: literal.toList) ∧
    (∀ evaluation, .evaluation evaluation ∈ segments → OneExpression evaluation.toList) ∧
    PlanExpression.new source segments = .ok ⟨currentExpressionVersion, source, segments⟩ := by
  obtain ⟨hnonempty, hsegmented⟩ := segmented_expressionSegments hsegments
  refine ⟨hsegmented.source, hsegmented.literal, hsegmented.evaluation, ?_⟩
  have hevaluations : ¬ segments.any PlanExpression.isEmptyEvaluation = true := by
    rw [List.any_eq_true]
    rintro ⟨segment, hsegment, hempty⟩
    have hnot := not_isEmptyEvaluation fun evaluation hevaluation =>
      hsegmented.evaluation evaluation (hevaluation ▸ hsegment)
    rw [hempty] at hnot
    cases hnot
  simp only [PlanExpression.new, PlanExpression.validate]
  rw [rejectIf_of_not _ (by simp), ok_bind, rejectIf_of_not _ hnonempty,
    ok_bind, rejectIf_of_not _ hevaluations, ok_bind,
    rejectIf_of_not _ (by simp [hsegmented.source])]
  rfl

theorem expressionSegments_agree_quotedDelimiter :
    expressionSegments "é$\x7b\x7b 'a''\x7d\x7d' \x7d\x7d b".toList =
        .ok [.literal "é", .evaluation "$\x7b\x7b 'a''\x7d\x7d' \x7d\x7d", .literal " b"] ∧
      OneExpression "$\x7b\x7b 'a''\x7d\x7d' \x7d\x7d".toList := by
  have hsegments : expressionSegments "é$\x7b\x7b 'a''\x7d\x7d' \x7d\x7d b".toList =
      .ok [.literal "é", .evaluation "$\x7b\x7b 'a''\x7d\x7d' \x7d\x7d", .literal " b"] := by
    decide +kernel
  exact ⟨hsegments, (expressionSegments_agree hsegments).2.2.1 _ (by simp)⟩

end AutomataCi
