import AutomataCi.TextOperations
import Mathlib.Tactic

/-!
# Slices of text

Text cut at an offset in bytes, and text cut before a pattern.  The bytes of a
character outside of ASCII are not those of ASCII characters, so that a scan
for ASCII bytes meets them at the characters only.
-/

namespace TextSlices

open TextOperations

def byteLength (text : Text) : Nat :=
  (utf8Bytes text).length

@[simp] theorem byteLength_nil : byteLength [] = 0 :=
  rfl

theorem utf8Bytes_append (first second : Text) :
    utf8Bytes (first ++ second) = utf8Bytes first ++ utf8Bytes second :=
  List.flatMap_append

theorem utf8Bytes_cons (first : Char) (rest : Text) :
    utf8Bytes (first :: rest) = String.utf8EncodeChar first ++ utf8Bytes rest :=
  List.flatMap_cons

@[simp] theorem byteLength_append (first second : Text) :
    byteLength (first ++ second) = byteLength first + byteLength second := by
  rw [byteLength, utf8Bytes_append, List.length_append]
  rfl

@[simp] theorem byteLength_cons (first : Char) (rest : Text) :
    byteLength (first :: rest) = first.utf8Size + byteLength rest := by
  rw [byteLength, utf8Bytes_cons, List.length_append, String.length_utf8EncodeChar]
  rfl

variable {character : Char}

theorem utf8Size_of_ascii (hascii : character.toNat < 128) : character.utf8Size = 1 := by
  rw [Char.utf8Size_eq_one_iff, UInt32.le_iff_toNat_le]
  exact Nat.le_of_lt_succ hascii

theorem utf8EncodeChar_of_ascii (hascii : character.toNat < 128) :
    String.utf8EncodeChar character = [UInt8.ofNat character.toNat] := by
  have hsmall : character.val.toNat ≤ 127 := Nat.le_of_lt_succ hascii
  unfold String.utf8EncodeChar
  simp only [hsmall, if_true]
  rfl

theorem le_toNat_ofNat {value : Nat} (hvalue : 128 ≤ value % 256) :
    128 ≤ (UInt8.ofNat value).toNat := by
  rw [UInt8.toNat_ofNat']
  exact hvalue

theorem le_of_mem_utf8EncodeChar (hother : 128 ≤ character.toNat) {byte : UInt8}
    (hbyte : byte ∈ String.utf8EncodeChar character) : 128 ≤ byte.toNat := by
  have hlarge : ¬ character.val.toNat ≤ 127 := by
    change ¬ character.toNat ≤ 127
    omega
  unfold String.utf8EncodeChar at hbyte
  simp only [hlarge, if_false] at hbyte
  generalize character.val.toNat = value at hbyte
  split at hbyte
  · simp only [List.mem_cons, List.not_mem_nil, or_false] at hbyte
    rcases hbyte with rfl | rfl <;> exact le_toNat_ofNat (by omega)
  · split at hbyte
    · simp only [List.mem_cons, List.not_mem_nil, or_false] at hbyte
      rcases hbyte with rfl | rfl | rfl <;> exact le_toNat_ofNat (by omega)
    · simp only [List.mem_cons, List.not_mem_nil, or_false] at hbyte
      rcases hbyte with rfl | rfl | rfl | rfl <;> exact le_toNat_ofNat (by omega)

/-- The encoding of an ASCII pattern starts that of a text exactly where the
pattern starts the text. -/
theorem utf8Bytes_prefix_iff {pattern : Text}
    (hascii : ∀ character ∈ pattern, character.toNat < 128) (text : Text) :
    utf8Bytes pattern <+: utf8Bytes text ↔ pattern <+: text := by
  induction pattern generalizing text with
  | nil => simp [utf8Bytes]
  | cons first rest ih =>
    rw [List.forall_mem_cons] at hascii
    have hfirst := utf8EncodeChar_of_ascii hascii.1
    cases text with
    | nil => simp [hfirst, utf8Bytes]
    | cons other =>
      rw [utf8Bytes_cons, utf8Bytes_cons, hfirst, List.cons_prefix_cons]
      by_cases hother : other.toNat < 128
      · have hcodes : UInt8.ofNat first.toNat = UInt8.ofNat other.toNat ↔ first = other := by
          constructor
          · intro hcode
            have hnat := congrArg UInt8.toNat hcode
            rw [UInt8.toNat_ofNat', UInt8.toNat_ofNat',
              Nat.mod_eq_of_lt (by omega), Nat.mod_eq_of_lt (by omega)]
              at hnat
            exact Char.toNat_inj.mp hnat
          · intro hsame
            rw [hsame]
        rw [utf8EncodeChar_of_ascii hother, List.singleton_append, List.singleton_append,
          List.cons_prefix_cons, hcodes, ih hascii.2]
      · have hdifferent : first ≠ other := by
          intro hsame
          rw [hsame] at hascii
          exact hother hascii.1
        simp only [hdifferent, false_and, iff_false]
        intro hprefix
        have hmem : UInt8.ofNat first.toNat ∈ String.utf8EncodeChar other := by
          have hnonempty : String.utf8EncodeChar other ≠ [] := by
            rw [← List.length_pos_iff, String.length_utf8EncodeChar]
            exact other.utf8Size_pos
          obtain ⟨byte, bytes, hbytes⟩ := List.exists_cons_of_ne_nil hnonempty
          rw [hbytes, List.singleton_append, List.cons_append, List.cons_prefix_cons] at hprefix
          rw [hbytes, hprefix.1]
          exact List.mem_cons_self
        have hlarge := le_of_mem_utf8EncodeChar (by omega) hmem
        rw [UInt8.toNat_ofNat'] at hlarge
        omega

/-- The parts before and after an offset in bytes, if the offset is that of a
character or of the end. -/
def splitAtByte : Nat → Text → Option (Text × Text)
  | 0, text => some ([], text)
  | _ + 1, [] => none
  | offset + 1, first :: rest =>
    if first.utf8Size ≤ offset + 1 then
      (splitAtByte (offset + 1 - first.utf8Size) rest).map
        fun (before, after) => (first :: before, after)
    else none

theorem splitAtByte_append (before after : Text) :
    splitAtByte (byteLength before) (before ++ after) = some (before, after) := by
  induction before with
  | nil =>
    rw [byteLength_nil]
    cases after <;> rfl
  | cons first rest ih =>
    have hsize := first.utf8Size_pos
    obtain ⟨offset, hoffset⟩ : ∃ offset, byteLength (first :: rest) = offset + 1 :=
      ⟨byteLength (first :: rest) - 1, by rw [byteLength_cons]; omega⟩
    have hrest : offset + 1 - first.utf8Size = byteLength rest := by
      rw [← hoffset, byteLength_cons]
      omega
    have hle : first.utf8Size ≤ offset + 1 := by
      rw [← hoffset, byteLength_cons]
      omega
    rw [hoffset, List.cons_append, splitAtByte, if_pos hle, hrest, ih]
    rfl

theorem append_of_splitAtByte {offset : Nat} {text before after : Text}
    (hsplit : splitAtByte offset text = some (before, after)) :
    text = before ++ after ∧ offset = byteLength before := by
  induction text generalizing offset before with
  | nil =>
    cases offset with
    | zero =>
      cases hsplit
      exact ⟨rfl, rfl⟩
    | succ => cases hsplit
  | cons first rest ih =>
    cases offset with
    | zero =>
      cases hsplit
      exact ⟨rfl, rfl⟩
    | succ =>
      rw [splitAtByte] at hsplit
      split_ifs at hsplit with hle
      · obtain ⟨⟨front, back⟩, hrest, hpair⟩ := Option.map_eq_some_iff.mp hsplit
        cases hpair
        obtain ⟨htext, hoffset⟩ := ih hrest
        rw [byteLength_cons, ← hoffset, htext]
        exact ⟨rfl, by omega⟩

section Patterns

variable {α : Type*} [DecidableEq α]

def breakBefore (pattern : List α) : List α → Option (List α × List α)
  | [] => if pattern = [] then some ([], []) else none
  | first :: rest =>
    if pattern.isPrefixOf (first :: rest) then some ([], first :: rest)
    else
      (breakBefore pattern rest).map fun (before, after) => (first :: before, after)

variable {pattern text before after : List α}

theorem breakBefore_eq_none (hpattern : pattern ≠ []) (hnone : breakBefore pattern text = none) :
    ¬ pattern <:+: text := by
  induction text with
  | nil => simpa using hpattern
  | cons first rest ih =>
    rw [breakBefore] at hnone
    split_ifs at hnone with hprefix
    rw [List.isPrefixOf_iff_prefix] at hprefix
    intro hinside
    rcases List.infix_cons_iff.mp hinside with hstart | hwithin
    · exact hprefix hstart
    · exact ih (Option.map_eq_none_iff.mp hnone) hwithin

theorem breakBefore_eq_some (hpattern : pattern ≠ [])
    (hsome : breakBefore pattern text = some (before, after)) :
    text = before ++ after ∧ pattern <+: after ∧ ¬ pattern <:+: before := by
  induction text generalizing before with
  | nil =>
    rw [breakBefore, if_neg hpattern] at hsome
    cases hsome
  | cons first rest ih =>
    rw [breakBefore] at hsome
    split_ifs at hsome with hprefix
    · cases hsome
      refine ⟨rfl, List.isPrefixOf_iff_prefix.mp hprefix, ?_⟩
      simpa using hpattern
    · rw [List.isPrefixOf_iff_prefix] at hprefix
      obtain ⟨⟨front, back⟩, hrest, hpair⟩ := Option.map_eq_some_iff.mp hsome
      cases hpair
      obtain ⟨htext, hafter, hbefore⟩ := ih hrest
      refine ⟨by rw [htext]; rfl, hafter, ?_⟩
      intro hinside
      rcases List.infix_cons_iff.mp hinside with hstart | hwithin
      · refine hprefix (hstart.trans ?_)
        rw [htext]
        exact List.prefix_append (first :: front) after
      · exact hbefore hwithin

end Patterns

end TextSlices
