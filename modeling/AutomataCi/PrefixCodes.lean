import Mathlib.Data.List.Basic
import Mathlib.Tactic

/-!
# Prefix codes

An encoding into bytes which can be read back without knowing where it ends:
two encodings followed by anything are equal only when the encoded values are
equal, and then what follows is equal too.  Such encodings are closed under
pairs, lists behind their length, and options behind a tag, and so a whole
record can be encoded by writing its fields one after the other.  Nothing
here depends on a particular program.
-/

namespace PrefixCodes

abbrev Bytes :=
  List UInt8

/-- The last `width` digits of a number to the base 256. -/
def bigEndian : Nat → Nat → Bytes
  | 0, _ => []
  | width + 1, value => bigEndian width (value / 256) ++ [UInt8.ofNat value]

theorem length_bigEndian (width value : Nat) : (bigEndian width value).length = width := by
  induction width generalizing value with
  | zero => rfl
  | succ width ih => simp [bigEndian, ih]

theorem bigEndian_injective {width left right : Nat}
    (hleft : left < 256 ^ width) (hright : right < 256 ^ width)
    (hsame : bigEndian width left = bigEndian width right) :
    left = right := by
  induction width generalizing left right with
  | zero => omega
  | succ width ih =>
    rw [bigEndian, bigEndian] at hsame
    obtain ⟨hfront, hlast⟩ := List.append_inj' hsame rfl
    have hdigit : left % 256 = right % 256 := by
      have hbytes := congrArg UInt8.toNat (List.singleton_inj.mp hlast)
      simpa using hbytes
    have hrest : left / 256 = right / 256 := by
      rw [pow_succ] at hleft hright
      apply ih _ _ hfront
      · exact Nat.div_lt_of_lt_mul (by omega)
      · exact Nat.div_lt_of_lt_mul (by omega)
    omega

/-- An encoding of the values which fit it. -/
structure PrefixCode (α : Type) where
  encode : α → Bytes
  fits : α → Prop
  separable : ∀ left right, fits left → fits right → ∀ after others,
    encode left ++ after = encode right ++ others → left = right ∧ after = others

namespace PrefixCode

variable {α β : Type}

def number (width : Nat) : PrefixCode Nat where
  encode := bigEndian width
  fits := fun value => value < 256 ^ width
  separable := by
    intro left right hleft hright after others hsame
    obtain ⟨hvalue, hafter⟩ := List.append_inj hsame (by rw [length_bigEndian, length_bigEndian])
    exact ⟨bigEndian_injective hleft hright hvalue, hafter⟩

def pair (first : PrefixCode α) (second : PrefixCode β) : PrefixCode (α × β) where
  encode := fun value => first.encode value.1 ++ second.encode value.2
  fits := fun value => first.fits value.1 ∧ second.fits value.2
  separable := by
    intro left right hleft hright after others hsame
    rw [List.append_assoc, List.append_assoc] at hsame
    obtain ⟨hfirst, hrest⟩ := first.separable _ _ hleft.1 hright.1 _ _ hsame
    obtain ⟨hsecond, hafter⟩ := second.separable _ _ hleft.2 hright.2 _ _ hrest
    exact ⟨Prod.ext hfirst hsecond, hafter⟩

def comap (code : PrefixCode β) (image : α → β)
    (hinjective : Function.Injective image) : PrefixCode α where
  encode := fun value => code.encode (image value)
  fits := fun value => code.fits (image value)
  separable := by
    intro left right hleft hright after others hsame
    obtain ⟨himage, hafter⟩ := code.separable _ _ hleft hright _ _ hsame
    exact ⟨hinjective himage, hafter⟩

/-- Bytes behind their length, which is written as at most `2 ^ 64 - 1`. -/
def part : PrefixCode Bytes where
  encode := fun bytes => bigEndian 8 (min bytes.length (2 ^ 64 - 1)) ++ bytes
  fits := fun bytes => bytes.length < 2 ^ 64
  separable := by
    intro left right hleft hright after others hsame
    rw [List.append_assoc, List.append_assoc] at hsame
    obtain ⟨hlength, hrest⟩ := (number 8).separable _ _
      (show min left.length (2 ^ 64 - 1) < 256 ^ 8 by omega)
      (show min right.length (2 ^ 64 - 1) < 256 ^ 8 by omega) _ _ hsame
    exact List.append_inj hrest (by omega)

variable (code : PrefixCode α)

theorem flatMap_separable (left right : List α) (hlength : left.length = right.length)
    (hleft : ∀ value ∈ left, code.fits value)
    (hright : ∀ value ∈ right, code.fits value) (after others : Bytes)
    (hsame : left.flatMap code.encode ++ after = right.flatMap code.encode ++ others) :
    left = right ∧ after = others := by
  induction left generalizing right with
  | nil =>
    rw [List.length_nil, eq_comm, List.length_eq_zero_iff] at hlength
    subst hlength
    exact ⟨rfl, hsame⟩
  | cons value rest ih =>
    cases right with
    | nil => simp at hlength
    | cons other more =>
      rw [List.forall_mem_cons] at hleft hright
      rw [List.flatMap_cons, List.flatMap_cons, List.append_assoc, List.append_assoc] at hsame
      obtain ⟨rfl, hrest⟩ := code.separable _ _ hleft.1 hright.1 _ _ hsame
      obtain ⟨rfl, hafter⟩ := ih more (Nat.succ.inj hlength) hleft.2 hright.2 hrest
      exact ⟨rfl, hafter⟩

def counted : PrefixCode (List α) where
  encode := fun values =>
    bigEndian 8 values.length ++ values.flatMap code.encode
  fits := fun values =>
    values.length < 256 ^ 8 ∧ ∀ value ∈ values, code.fits value
  separable := by
    intro left right hleft hright after others hsame
    rw [List.append_assoc, List.append_assoc] at hsame
    obtain ⟨hlength, hrest⟩ := (number 8).separable _ _ hleft.1 hright.1 _ _ hsame
    exact code.flatMap_separable left right hlength hleft.2 hright.2 _ _ hrest

def optional : PrefixCode (Option α) where
  encode := fun value =>
    match value with
    | some value => 1 :: code.encode value
    | none => [0]
  fits := fun value => ∀ present ∈ value, code.fits present
  separable := by
    intro left right hleft hright after others hsame
    cases left with
    | none =>
      cases right with
      | none => exact ⟨rfl, List.tail_eq_of_cons_eq hsame⟩
      | some => cases List.head_eq_of_cons_eq hsame
    | some value =>
      cases right with
      | none => cases List.head_eq_of_cons_eq hsame
      | some other =>
        obtain ⟨rfl, hafter⟩ := code.separable _ _ (hleft value rfl)
          (hright other rfl) _ _ (List.tail_eq_of_cons_eq hsame)
        exact ⟨rfl, hafter⟩

end PrefixCode

end PrefixCodes
