import Mathlib.Data.List.Sort
import Mathlib.Order.Basic
import Mathlib.Tactic

/-!
# Ordered sets

A set of a linear order, kept as the strictly increasing list of its elements.
Two such sets are equal as soon as they have the same elements, iterating over
one visits the elements in increasing order, and its first element is the
least one.
-/

structure OrderedSet (α : Type*) [LinearOrder α] where
  toList : List α
  sorted : toList.Pairwise (· < ·)

namespace OrderedSet

variable {α : Type*} [LinearOrder α]

instance : Membership α (OrderedSet α) where
  mem set element := element ∈ set.toList

instance (element : α) (set : OrderedSet α) : Decidable (element ∈ set) :=
  inferInstanceAs (Decidable (element ∈ set.toList))

variable {element : α} {set left right : OrderedSet α}

theorem mem_def : element ∈ set ↔ element ∈ set.toList :=
  Iff.rfl

theorem nodup (set : OrderedSet α) : set.toList.Nodup :=
  set.sorted.imp ne_of_lt

@[ext] theorem ext (hmem : ∀ element, element ∈ left ↔ element ∈ right) : left = right := by
  have hperm : left.toList.Perm right.toList :=
    (List.perm_ext_iff_of_nodup left.nodup right.nodup).mpr hmem
  have hlist : left.toList = right.toList := by
    apply hperm.eq_of_pairwise _ left.sorted right.sorted
    intro first second _ _ hlt hgt
    exact absurd hlt hgt.not_gt
  cases left
  cases right
  simpa using hlist

instance : DecidableEq (OrderedSet α) := fun left right =>
  decidable_of_iff (left.toList = right.toList)
    ⟨fun hlist => by cases left; cases right; simpa using hlist, fun heq => by rw [heq]⟩

def empty : OrderedSet α :=
  ⟨[], List.Pairwise.nil⟩

@[simp] theorem notMem_empty (element : α) : element ∉ (empty : OrderedSet α) := by
  simp [mem_def, empty]

def insertSorted (element : α) : List α → List α
  | [] => [element]
  | head :: rest =>
    if element < head then
      element :: head :: rest
    else if head < element then
      head :: insertSorted element rest
    else
      head :: rest

variable {elements : List α}

theorem mem_insertSorted {other : α} :
    other ∈ insertSorted element elements ↔ other = element ∨ other ∈ elements := by
  induction elements with
  | nil => simp [insertSorted]
  | cons head rest ih =>
    unfold insertSorted
    split
    · simp
    · split
      · rw [List.mem_cons, ih, List.mem_cons]
        tauto
      · have hsame : element = head := by order
        rw [hsame, List.mem_cons]
        tauto

theorem pairwise_insertSorted (hsorted : elements.Pairwise (· < ·)) :
    (insertSorted element elements).Pairwise (· < ·) := by
  induction elements with
  | nil => simp [insertSorted]
  | cons head rest ih =>
    rw [List.pairwise_cons] at hsorted
    unfold insertSorted
    split
    · rename_i hlt
      rw [List.pairwise_cons, List.pairwise_cons]
      refine ⟨?_, hsorted⟩
      intro other hother
      rcases List.mem_cons.mp hother with rfl | hrest
      · exact hlt
      · exact hlt.trans (hsorted.1 other hrest)
    · split
      · rename_i hlt
        rw [List.pairwise_cons]
        refine ⟨?_, ih hsorted.2⟩
        intro other hother
        rcases mem_insertSorted.mp hother with rfl | hrest
        · exact hlt
        · exact hsorted.1 other hrest
      · exact List.pairwise_cons.mpr hsorted

def insert (element : α) (set : OrderedSet α) : OrderedSet α :=
  ⟨insertSorted element set.toList, pairwise_insertSorted set.sorted⟩

@[simp] theorem mem_insert {other : α} :
    other ∈ set.insert element ↔ other = element ∨ other ∈ set :=
  mem_insertSorted

def ofList (elements : List α) : OrderedSet α :=
  elements.foldr insert empty

@[simp] theorem mem_ofList : element ∈ ofList elements ↔ element ∈ elements := by
  induction elements with
  | nil => simp [ofList]
  | cons head rest ih =>
    have hinsert : element ∈ ofList (head :: rest) ↔ element = head ∨ element ∈ ofList rest :=
      mem_insert
    rw [hinsert, ih, List.mem_cons]

def filter (keep : α → Bool) (set : OrderedSet α) : OrderedSet α :=
  ⟨set.toList.filter keep, set.sorted.filter keep⟩

@[simp] theorem mem_filter {keep : α → Bool} :
    element ∈ set.filter keep ↔ element ∈ set ∧ keep element = true :=
  List.mem_filter

def union (left right : OrderedSet α) : OrderedSet α :=
  ofList (left.toList ++ right.toList)

@[simp] theorem mem_union : element ∈ left.union right ↔ element ∈ left ∨ element ∈ right := by
  rw [union, mem_ofList, List.mem_append, mem_def, mem_def]

def intersection (left right : OrderedSet α) : OrderedSet α :=
  left.filter fun element => decide (element ∈ right)

@[simp] theorem mem_intersection :
    element ∈ left.intersection right ↔ element ∈ left ∧ element ∈ right := by
  simp [intersection]

def difference (left right : OrderedSet α) : OrderedSet α :=
  left.filter fun element => decide (element ∉ right)

@[simp] theorem mem_difference :
    element ∈ left.difference right ↔ element ∈ left ∧ element ∉ right := by
  simp [difference]

def isEmpty (set : OrderedSet α) : Bool :=
  set.toList.isEmpty

@[simp] theorem isEmpty_iff : set.isEmpty = true ↔ ∀ element, element ∉ set := by
  rw [isEmpty, List.isEmpty_iff, List.eq_nil_iff_forall_not_mem]
  rfl

def isDisjoint (left right : OrderedSet α) : Bool :=
  left.toList.all fun element => decide (element ∉ right)

@[simp] theorem isDisjoint_iff :
    left.isDisjoint right = true ↔ ∀ element ∈ left, element ∉ right := by
  simp [isDisjoint, mem_def]

def first (set : OrderedSet α) : Option α :=
  set.toList.head?

theorem first_eq_none_iff : set.first = none ↔ ∀ element, element ∉ set := by
  rw [first, List.head?_eq_none_iff, List.eq_nil_iff_forall_not_mem]
  rfl

theorem first_eq_some_iff {least : α} :
    set.first = some least ↔ least ∈ set ∧ ∀ element ∈ set, least ≤ element := by
  obtain ⟨elements, hsorted⟩ := set
  cases elements with
  | nil => simp [first, mem_def]
  | cons head =>
    rw [List.pairwise_cons] at hsorted
    simp only [first, mem_def, List.head?_cons, Option.some.injEq, List.mem_cons]
    constructor
    · rintro rfl
      refine ⟨Or.inl rfl, ?_⟩
      rintro element (rfl | hrest)
      · exact le_rfl
      · exact (hsorted.1 element hrest).le
    · rintro ⟨rfl | hrest, hleast⟩
      · rfl
      · have hle := hleast head (Or.inl rfl)
        have hlt := hsorted.1 least hrest
        exact absurd hlt hle.not_gt

theorem difference_toList_eq_nil_iff :
    (left.difference right).toList = [] ↔ ∀ element ∈ left, element ∈ right := by
  rw [List.eq_nil_iff_forall_not_mem]
  constructor
  · intro hnone element hleft
    by_contra hright
    exact hnone element (mem_difference.mpr ⟨hleft, hright⟩)
  · intro hsubset element helement
    have hmem := mem_difference.mp (mem_def.mpr helement)
    exact hmem.2 (hsubset element hmem.1)

end OrderedSet
