import Mathlib.Data.List.Infix

/-!
# Operations on text

Text as a list of characters, with the operations of a standard library on
it: white space, trimming, the comparison which ignores the case of ASCII
letters, and the UTF-8 encoding.  Nothing here depends on a particular
program.
-/

namespace TextOperations

abbrev Text :=
  List Char

abbrev Bytes :=
  List UInt8

def utf8Bytes (text : Text) : Bytes :=
  text.flatMap String.utf8EncodeChar

def fromUtf8 (bytes : Bytes) : Option Text :=
  (String.fromUTF8? ⟨bytes.toArray⟩).map String.toList

def isWhitespace (character : Char) : Bool :=
  let value := character.toNat
  (0x9 ≤ value && value ≤ 0xD) || value = 0x20 || value = 0x85 ||
    value = 0xA0 || value = 0x1680 || (0x2000 ≤ value && value ≤ 0x200A) ||
    value = 0x2028 || value = 0x2029 || value = 0x202F || value = 0x205F ||
    value = 0x3000

def trimStart (text : Text) : Text :=
  text.dropWhile isWhitespace

def trim (text : Text) : Text :=
  (trimStart (trimStart text).reverse).reverse

def sameIgnoringCase (left right : Text) : Bool :=
  decide (left.map Char.toUpper = right.map Char.toUpper)

def decimalValue (digits : Text) : Nat :=
  digits.foldl (fun value digit => value * 10 + (digit.toNat - '0'.toNat)) 0

def splitAtFirst (separator : Char) : Text → Option (Text × Text)
  | [] => none
  | first :: rest =>
    if first = separator then some ([], rest)
    else
      (splitAtFirst separator rest).map fun (before, after) => (first :: before, after)

variable {text before after : Text} {separator : Char}

theorem forall_mem_of_all {α : Type} {values : List α} {accepted : α → Prop}
    [DecidablePred accepted] (hall : values.all (fun value => decide (accepted value)) = true) :
    ∀ value ∈ values, accepted value := by
  intro value hvalue
  exact of_decide_eq_true (List.all_eq_true.mp hall value hvalue)

theorem trimStart_suffix (text : Text) : trimStart text <:+ text :=
  List.dropWhile_suffix _

theorem trim_isInfix (text : Text) : trim text <:+: text := by
  have hstart : trimStart (trimStart text).reverse <:+ (trimStart text).reverse :=
    trimStart_suffix _
  have hend : trim text <+: trimStart text := by
    rw [← List.reverse_suffix, trim, List.reverse_reverse]
    exact hstart
  exact hend.isInfix.trans (trimStart_suffix text).isInfix

theorem utf8Bytes_isInfix {inner outer : Text} (hinside : inner <:+: outer) :
    utf8Bytes inner <:+: utf8Bytes outer := by
  obtain ⟨front, back, rfl⟩ := hinside
  exact ⟨utf8Bytes front, utf8Bytes back, by simp [utf8Bytes]⟩

def newlineByte : UInt8 :=
  10

theorem newlineByte_ne_ofNat {value : Nat} (hvalue : value % 256 ≠ 10) :
    newlineByte ≠ UInt8.ofNat value := by
  intro hbyte
  have hnat := congrArg UInt8.toNat hbyte
  rw [UInt8.toNat_ofNat'] at hnat
  exact hvalue hnat.symm

theorem newlineByte_notMem_utf8EncodeChar {character : Char} (hcharacter : character ≠ '\n') :
    newlineByte ∉ String.utf8EncodeChar character := by
  have hvalue : character.val.toNat ≠ 10 := by
    intro hvalue
    apply hcharacter
    apply Char.ext
    exact UInt32.toNat_inj.mp hvalue
  unfold String.utf8EncodeChar
  generalize character.val.toNat = value at hvalue ⊢
  simp only
  -- only the encodings of one byte stay below 128
  split
  next hsmall =>
    rw [List.mem_singleton]
    exact newlineByte_ne_ofNat (by omega)
  next =>
    split
    · simp only [List.mem_cons, List.not_mem_nil, or_false, not_or]
      exact ⟨newlineByte_ne_ofNat (by omega), newlineByte_ne_ofNat (by omega)⟩
    · split
      · simp only [List.mem_cons, List.not_mem_nil, or_false, not_or]
        exact ⟨newlineByte_ne_ofNat (by omega), newlineByte_ne_ofNat (by omega),
          newlineByte_ne_ofNat (by omega)⟩
      · simp only [List.mem_cons, List.not_mem_nil, or_false, not_or]
        exact ⟨newlineByte_ne_ofNat (by omega), newlineByte_ne_ofNat (by omega),
          newlineByte_ne_ofNat (by omega), newlineByte_ne_ofNat (by omega)⟩

theorem newlineByte_notMem_utf8Bytes (htext : '\n' ∉ text) : newlineByte ∉ utf8Bytes text := by
  intro hmem
  obtain ⟨character, hcharacter, hbyte⟩ := List.mem_flatMap.mp hmem
  refine newlineByte_notMem_utf8EncodeChar ?_ hbyte
  rintro rfl
  exact htext hcharacter

theorem utf8Bytes_ne_nil (htext : text ≠ []) : utf8Bytes text ≠ [] := by
  cases text with
  | nil => exact absurd rfl htext
  | cons first =>
    have hfirst : String.utf8EncodeChar first ≠ [] := by
      unfold String.utf8EncodeChar
      simp only
      split
      · exact List.cons_ne_nil _ _
      · split
        · exact List.cons_ne_nil _ _
        · split <;> exact List.cons_ne_nil _ _
    rw [utf8Bytes, List.flatMap_cons]
    exact List.append_ne_nil_of_left_ne_nil hfirst _

theorem fromUtf8_utf8Bytes (text : Text) : fromUtf8 (utf8Bytes text) = some text := by
  have hbytes : (⟨(utf8Bytes text).toArray⟩ : ByteArray) = text.utf8Encode := by
    apply ByteArray.ext
    simp [List.utf8Encode, utf8Bytes]
  have hvalid : text.utf8Encode.IsValidUTF8 := .intro text rfl
  have hstring : String.fromUTF8 text.utf8Encode hvalid = String.ofList text := rfl
  unfold fromUtf8 String.fromUTF8?
  rw [hbytes, dif_pos hvalid, hstring, Option.map_some, String.toList_ofList]

theorem splitAtFirst_append (hbefore : separator ∉ before) :
    splitAtFirst separator (before ++ separator :: after) = some (before, after) := by
  induction before with
  | nil => simp [splitAtFirst]
  | cons first rest ih =>
    rw [List.mem_cons, not_or] at hbefore
    rw [List.cons_append, splitAtFirst, if_neg (Ne.symm hbefore.1), ih hbefore.2]
    rfl

theorem splitAtFirst_eq_none (htext : separator ∉ text) : splitAtFirst separator text = none := by
  induction text with
  | nil => rfl
  | cons first rest ih =>
    rw [List.mem_cons, not_or] at htext
    rw [splitAtFirst, if_neg (Ne.symm htext.1), ih htext.2]
    rfl

theorem splitAtFirst_eq_some (hsplit : splitAtFirst separator text = some (before, after)) :
    text = before ++ separator :: after := by
  induction text generalizing before with
  | nil => cases hsplit
  | cons first rest ih =>
    rw [splitAtFirst] at hsplit
    split_ifs at hsplit with hfirst
    · cases hsplit
      rw [hfirst, List.nil_append]
    · obtain ⟨⟨found, tail⟩, hrest, hpair⟩ := Option.map_eq_some_iff.mp hsplit
      cases hpair
      rw [ih hrest, List.cons_append]

theorem trim_eq_self (hfirst : ∀ character ∈ text.head?, isWhitespace character = false)
    (hlast : ∀ character ∈ text.getLast?, isWhitespace character = false) : trim text = text := by
  have hkeep : ∀ {characters : Text},
      (∀ character ∈ characters.head?, isWhitespace character = false) →
        trimStart characters = characters := by
    intro characters hhead
    cases characters with
    | nil => rfl
    | cons first =>
      have hnot := hhead first rfl
      simp [trimStart, List.dropWhile, hnot]
  unfold trim
  rw [hkeep hfirst, hkeep, List.reverse_reverse]
  rw [List.head?_reverse]
  exact hlast

end TextOperations
