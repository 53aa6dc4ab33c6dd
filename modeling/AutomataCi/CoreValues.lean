import AutomataCi.GuardedResult

/-!
# Core identifiers and counters

The typed identifiers, timestamps and counters of `automata-ci-core` which the
attempt state machine and the runner journal share.  An identifier is a
wrapped 128-bit UUID; a counter carries the bounds its constructor checks.
-/

namespace AutomataCi

open GuardedResult

structure Uuid where
  bits : BitVec 128
  deriving DecidableEq, Repr

structure JobId where
  uuid : Uuid
  deriving DecidableEq, Repr

structure AttemptId where
  uuid : Uuid
  deriving DecidableEq, Repr

structure RunnerId where
  uuid : Uuid
  deriving DecidableEq, Repr

structure RunnerSessionId where
  uuid : Uuid
  deriving DecidableEq, Repr

structure LeaseId where
  uuid : Uuid
  deriving DecidableEq, Repr

structure OperationId where
  uuid : Uuid
  deriving DecidableEq, Repr

structure LogStreamId where
  uuid : Uuid
  deriving DecidableEq, Repr

structure Sha256Digest where
  bits : BitVec 256
  deriving DecidableEq, Repr

structure UnixMillis where
  get : Int
  deriving DecidableEq, Repr

def coreSchemaVersion : Nat :=
  1

inductive IdentifierError where
  | zeroAttemptNumber | zeroFencingToken | fencingTokenOutOfRange | fencingTokenExhausted
  deriving DecidableEq, Repr

structure AttemptNumber where
  get : Nat
  positive : 0 < get
  bounded : get < 2 ^ 32
  deriving DecidableEq, Repr

namespace FencingToken

/-- The largest value of the durable signed 64-bit column. -/
def max : Nat :=
  2 ^ 63 - 1

end FencingToken

structure FencingToken where
  get : Nat
  positive : 0 < get
  bounded : get ≤ FencingToken.max
  deriving DecidableEq, Repr

namespace FencingToken

def new (value : Nat) : Except IdentifierError FencingToken :=
  if hbound : max < value then
    .error .fencingTokenOutOfRange
  else if hzero : value = 0 then
    .error .zeroFencingToken
  else
    .ok ⟨value, Nat.pos_of_ne_zero hzero, Nat.le_of_not_lt hbound⟩

def checkedNext (token : FencingToken) : Except IdentifierError FencingToken :=
  (new (token.get + 1)).mapError fun _ => .fencingTokenExhausted

@[ext] theorem ext {left right : FencingToken} (hget : left.get = right.get) : left = right := by
  cases left
  cases right
  simp_all

theorem get_of_new_eq_ok {value : Nat} {token : FencingToken} (hnew : new value = .ok token) :
    token.get = value := by
  unfold new at hnew
  split at hnew
  · contradiction
  · split at hnew
    · contradiction
    · cases hnew
      rfl

theorem get_of_checkedNext_eq_ok {token next : FencingToken}
    (hnext : token.checkedNext = .ok next) :
    next.get = token.get + 1 := by
  simp only [checkedNext, mapError_eq_ok] at hnext
  exact get_of_new_eq_ok hnext

end FencingToken

structure LogSequence where
  get : Nat
  bounded : get < 2 ^ 64
  deriving DecidableEq, Repr

namespace LogSequence

theorem zero_bounded : 0 < 2 ^ 64 := by
  decide

def checkedNext (sequence : LogSequence) : Option LogSequence :=
  if hbound : sequence.get + 1 < 2 ^ 64 then
    some ⟨sequence.get + 1, hbound⟩
  else
    none

@[ext] theorem ext {left right : LogSequence} (hget : left.get = right.get) : left = right := by
  cases left
  cases right
  simp_all

theorem checkedNext_eq_some {sequence next : LogSequence} :
    sequence.checkedNext = some next ↔ next.get = sequence.get + 1 := by
  unfold checkedNext
  split
  · constructor
    · intro hnext
      cases hnext
      rfl
    · intro hget
      rw [Option.some_inj]
      ext
      exact hget.symm
  · have hbounded := next.bounded
    constructor
    · simp
    · omega

end LogSequence

end AutomataCi
