import Mathlib.Data.List.Infix

/-!
# Substring search

The search for several patterns in a text, leftmost first and the longest at
each place, and the splitting of a text at separators.  A word which contains
no separator occurs in a text only where it occurs between two separators.
Nothing here depends on a particular program.
-/

namespace SubstringSearch

section Search

variable {α : Type*} [DecidableEq α]

def longestAt (patterns : List (List α)) (text : List α) : Option Nat :=
  ((patterns.filter fun pattern => pattern.isPrefixOf text).map List.length).max?

/-- The spans of the matches which do not overlap.  A match is skipped
before the search goes on. -/
def spansFrom (patterns : List (List α)) : Nat → Nat → List α → List (Nat × Nat)
  | _, _, [] => []
  | offset, skip + 1, _ :: rest => spansFrom patterns (offset + 1) skip rest
  | offset, 0, first :: rest =>
    match longestAt patterns (first :: rest) with
    | some (length + 1) =>
      (offset, offset + (length + 1)) :: spansFrom patterns (offset + 1) length rest
    | _ => spansFrom patterns (offset + 1) 0 rest

def findIter (patterns : List (List α)) (text : List α) : List (Nat × Nat) :=
  spansFrom patterns 0 0 text

def find (patterns : List (List α)) (text : List α) : Option (Nat × Nat) :=
  (findIter patterns text).head?

variable {patterns : List (List α)} {text : List α}

theorem longestAt_eq_none_iff :
    longestAt patterns text = none ↔ ∀ pattern ∈ patterns, ¬pattern <+: text := by
  rw [longestAt, List.max?_eq_none_iff, List.map_eq_nil_iff, List.filter_eq_nil_iff]
  simp only [List.isPrefixOf_iff_prefix]

theorem longestAt_eq_some {length : Nat} (hlongest : longestAt patterns text = some length) :
    ∃ pattern ∈ patterns, pattern <+: text ∧ pattern.length = length := by
  have hmem := List.max?_mem hlongest
  obtain ⟨pattern, hpattern, hlength⟩ := List.mem_map.mp hmem
  obtain ⟨hmem, hstarts⟩ := List.mem_filter.mp hpattern
  exact ⟨pattern, hmem, List.isPrefixOf_iff_prefix.mp hstarts, hlength⟩

theorem spansFrom_eq_nil_iff (hnonempty : ∀ pattern ∈ patterns, pattern ≠ []) (offset : Nat)
    (text : List α) :
    spansFrom patterns offset 0 text = [] ↔ ∀ pattern ∈ patterns, ¬pattern <:+: text := by
  induction text generalizing offset with
  | nil =>
    simp only [spansFrom, List.infix_nil, true_iff]
    exact hnonempty
  | cons first rest ih =>
    simp only [spansFrom, List.infix_cons_iff, not_or]
    cases hlongest : longestAt patterns (first :: rest) with
    | none =>
      rw [ih]
      rw [longestAt_eq_none_iff] at hlongest
      exact ⟨fun hrest pattern hpattern => ⟨hlongest pattern hpattern, hrest pattern hpattern⟩,
        fun hall pattern hpattern => (hall pattern hpattern).2⟩
    | some =>
      obtain ⟨pattern, hpattern, hstarts, rfl⟩ := longestAt_eq_some hlongest
      cases pattern with
      | nil => exact absurd rfl (hnonempty [] hpattern)
      | cons =>
        simp only [List.length_cons, reduceCtorEq, false_iff]
        exact fun hall => (hall _ hpattern).1 hstarts

theorem find_eq_none_iff (hnonempty : ∀ pattern ∈ patterns, pattern ≠ []) :
    find patterns text = none ↔ ∀ pattern ∈ patterns, ¬pattern <:+: text := by
  rw [find, List.head?_eq_none_iff, findIter, spansFrom_eq_nil_iff hnonempty]

end Search

section Separators

variable {α : Type*} {separator : α}

/-- A word without the separator lies on one side of it. -/
theorem infix_append_cons {word front back : List α} (hword : separator ∉ word)
    (hinside : word <:+: front ++ separator :: back) :
    word <:+: front ∨ word <:+: back := by
  obtain ⟨before, after, heq⟩ := hinside
  rcases List.append_eq_append_iff.mp heq with ⟨middle, hfront, -⟩ | ⟨middle, hleft, hright⟩
  · exact .inl ⟨before, middle, hfront.symm⟩
  · rcases List.append_eq_append_iff.mp hleft with ⟨gap, hgap, hword'⟩ | ⟨gap, hgap, hmiddle⟩
    · cases middle with
      | nil =>
        rw [List.append_nil] at hword'
        exact .inl ⟨before, [], by rw [List.append_nil, hword', hgap]⟩
      | cons =>
        rw [List.cons_append, List.cons.injEq] at hright
        have hmem : separator ∈ word := by
          rw [hword', hright.1]
          simp
        exact absurd hmem hword
    · cases gap with
      | nil =>
        rw [List.nil_append] at hmiddle
        subst hmiddle
        cases middle with
        | nil => exact .inl List.nil_infix
        | cons =>
          rw [List.cons_append, List.cons.injEq] at hright
          exact absurd (hright.1 ▸ List.mem_cons_self) hword
      | cons head rest =>
        rw [hmiddle, List.cons_append, List.cons_append, List.cons.injEq] at hright
        exact .inr ⟨rest, after, hright.2.symm⟩

def splitWhere (isSeparator : α → Bool) : List α → List (List α)
  | [] => [[]]
  | first :: rest =>
    if isSeparator first then [] :: splitWhere isSeparator rest
    else
      match splitWhere isSeparator rest with
      | [] => [[first]]
      | part :: parts => (first :: part) :: parts

theorem splitWhere_spec (isSeparator : α → Bool) (text : List α) :
    ∃ part parts, splitWhere isSeparator text = part :: parts ∧ part <+: text ∧
      ∀ other ∈ part :: parts, other <:+: text ∧
        ∀ element ∈ other, isSeparator element = false := by
  induction text with
  | nil => exact ⟨[], [], rfl, List.nil_prefix, by simp⟩
  | cons first rest ih =>
    obtain ⟨part, parts, hsplit, hstarts, hall⟩ := ih
    rw [splitWhere, hsplit]
    by_cases hfirst : isSeparator first = true
    · refine ⟨[], part :: parts, if_pos hfirst, List.nil_prefix, ?_⟩
      rw [List.forall_mem_cons]
      refine ⟨⟨List.nil_infix, by simp⟩, fun other hother => ?_⟩
      exact ⟨(hall other hother).1.trans (List.suffix_cons _ _).isInfix, (hall other hother).2⟩
    · refine ⟨first :: part, parts, if_neg hfirst, ?_, ?_⟩
      · exact (List.prefix_cons_inj first).mpr hstarts
      rw [List.forall_mem_cons] at hall ⊢
      refine ⟨⟨?_, ?_⟩, fun other hother => ?_⟩
      · exact ((List.prefix_cons_inj first).mpr hstarts).isInfix
      · rw [List.forall_mem_cons]
        exact ⟨by simpa using hfirst, hall.1.2⟩
      · exact ⟨(hall.2 other hother).1.trans
          (List.suffix_cons _ _).isInfix, (hall.2 other hother).2⟩

variable {isSeparator : α → Bool} {text part : List α} {parts : List (List α)}

theorem infix_of_mem_splitWhere (hpart : part ∈ splitWhere isSeparator text) : part <:+: text := by
  obtain ⟨_, _, hsplit, _, hall⟩ := splitWhere_spec isSeparator text
  rw [hsplit] at hpart
  exact (hall part hpart).1

theorem not_isSeparator_of_mem_splitWhere (hpart : part ∈ splitWhere isSeparator text) {element : α}
    (helement : element ∈ part) : isSeparator element = false := by
  obtain ⟨_, _, hsplit, _, hall⟩ := splitWhere_spec isSeparator text
  rw [hsplit] at hpart
  exact (hall part hpart).2 element helement

theorem splitWhere_append_cons {rest : List α}
    (hpart : ∀ element ∈ part, isSeparator element = false)
    (hseparator : isSeparator separator = true) :
    splitWhere isSeparator (part ++ separator :: rest) = part :: splitWhere isSeparator rest := by
  induction part with
  | nil => simp [splitWhere, hseparator]
  | cons first more ih =>
    rw [List.forall_mem_cons] at hpart
    rw [List.cons_append, splitWhere, ih hpart.2, hpart.1]
    rfl

theorem splitWhere_of_forall (hpart : ∀ element ∈ part, isSeparator element = false) :
    splitWhere isSeparator part = [part] := by
  induction part with
  | nil => rfl
  | cons first more ih =>
    rw [List.forall_mem_cons] at hpart
    rw [splitWhere, ih hpart.2, hpart.1]
    rfl

theorem splitWhere_intercalate {first : List α}
    (hparts : ∀ part ∈ first :: parts, ∀ element ∈ part, isSeparator element = false)
    (hseparator : isSeparator separator = true) :
    splitWhere isSeparator (List.intercalate [separator] (first :: parts)) = first :: parts := by
  induction parts generalizing first with
  | nil =>
    rw [List.forall_mem_singleton] at hparts
    simpa using splitWhere_of_forall hparts
  | cons second rest ih =>
    rw [List.forall_mem_cons] at hparts
    have hjoin :
        List.intercalate [separator] (first :: second :: rest) = first ++ separator ::
            List.intercalate [separator] (second :: rest) := by
      simp
    rw [hjoin, splitWhere_append_cons hparts.1 hseparator, ih hparts.2]

theorem mem_of_mem_intercalate {element : α} (hmem : element ∈ List.intercalate [separator] parts) :
    element = separator ∨ ∃ part ∈ parts, element ∈ part := by
  induction parts with
  | nil => simp at hmem
  | cons first rest ih =>
    cases rest with
    | nil => exact .inr ⟨first, by simp, by simpa using hmem⟩
    | cons =>
      rw [List.intercalate_cons_cons, List.append_assoc] at hmem
      rcases List.mem_append.mp hmem with hfirst | hmore
      · exact .inr ⟨first, by simp, hfirst⟩
      · rcases List.mem_cons.mp hmore with hseparator | hrest
        · exact .inl hseparator
        · rcases ih hrest with hseparator | ⟨part, hpart, helement⟩
          · exact .inl hseparator
          · exact .inr ⟨part, List.mem_cons_of_mem _ hpart, helement⟩

end Separators

end SubstringSearch
