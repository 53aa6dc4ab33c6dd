import Mathlib.Data.List.Nodup
import Mathlib.Tactic

/-!
# Entries under normalized keys

An association list whose keys count as equal when they agree after a
normalization.  Writing an entry replaces the value under an equal key, whose
spelling stays, and otherwise adds the entry at the end.  An index of such a
list gives the position of the entry under each normalized key.
-/

namespace NormalizedEntries

variable {κ ν α : Type*} [DecidableEq ν] (normalize : κ → ν) (entries : List (κ × α))

def get (key : κ) : Option α :=
  (entries.find? fun entry => normalize entry.1 = normalize key).map Prod.snd

def overwrite (key : κ) (value : α) : List (κ × α) :=
  entries.map fun entry =>
    if normalize entry.1 = normalize key then (entry.1, value) else entry

def put (key : κ) (value : α) : List (κ × α) :=
  if (get normalize entries key).isSome then
    overwrite normalize entries key value
  else
    entries ++ [(key, value)]

def Distinct : Prop :=
  (entries.map fun entry => normalize entry.1).Nodup

/-- The position of every entry, counted from `start`. -/
def indexFrom : Nat → List (κ × α) → List (ν × Nat)
  | _, [] => []
  | start, entry :: rest => (normalize entry.1, start) :: indexFrom (start + 1) rest

variable {normalize}

theorem get_eq_none_iff {entries : List (κ × α)} {key : κ} :
    get normalize entries key = none ↔ ∀ entry ∈ entries, normalize entry.1 ≠ normalize key := by
  simp [get]

variable {rest : List (κ × α)}

theorem get_cons_self {entry : κ × α} {key : κ} (hkey : normalize entry.1 = normalize key) :
    get normalize (entry :: rest) key = some entry.2 := by
  simp [get, hkey]

theorem get_cons_of_ne {entry : κ × α} {key : κ} (hkey : normalize entry.1 ≠ normalize key) :
    get normalize (entry :: rest) key = get normalize rest key := by
  simp [get, hkey]

theorem get_append {front back : List (κ × α)} {key : κ} :
    get normalize (front ++ back) key = (get normalize front key).or (get normalize back key) := by
  simp only [get, List.find?_append]
  cases front.find? fun entry => decide (normalize entry.1 = normalize key) <;> rfl

theorem map_overwrite (entries : List (κ × α)) (key : κ) (value : α) :
    (overwrite normalize entries key value).map Prod.fst = entries.map Prod.fst := by
  rw [overwrite, List.map_map]
  apply List.map_congr_left
  intro entry _
  simp only [Function.comp_apply]
  split <;> rfl

omit [DecidableEq ν] in
theorem distinct_iff {entries : List (κ × α)} :
    Distinct normalize entries ↔ ((entries.map Prod.fst).map normalize).Nodup := by
  rw [Distinct, List.map_map]
  rfl

theorem Distinct.overwrite {entries : List (κ × α)}
    (hdistinct : Distinct normalize entries) (key : κ) (value : α) :
    Distinct normalize (overwrite normalize entries key value) := by
  rw [distinct_iff, map_overwrite, ← distinct_iff]
  exact hdistinct

theorem Distinct.append {entries : List (κ × α)}
    (hdistinct : Distinct normalize entries) {key : κ} {value : α}
    (hfresh : get normalize entries key = none) :
    Distinct normalize (entries ++ [(key, value)]) := by
  rw [get_eq_none_iff] at hfresh
  rw [Distinct, List.map_append, List.nodup_append]
  refine ⟨hdistinct, by simp, ?_⟩
  intro first hfirst second hsecond
  obtain ⟨entry, hentry, rfl⟩ := List.mem_map.mp hfirst
  rw [List.mem_map] at hsecond
  obtain ⟨added, hadded, rfl⟩ := hsecond
  rw [List.mem_singleton.mp hadded]
  exact hfresh entry hentry

omit [DecidableEq ν] in
theorem indexFrom_append (start : Nat) (entries : List (κ × α)) (entry : κ × α) :
    indexFrom normalize start (entries ++ [entry]) = indexFrom normalize start entries ++
        [(normalize entry.1, start + entries.length)] := by
  induction entries generalizing start with
  | nil => rfl
  | cons head rest ih =>
    simp only [List.cons_append, indexFrom, ih, List.length_cons]
    congr 4
    omega

omit [DecidableEq ν] in
theorem indexFrom_eq_of_keys {left right : List (κ × α)}
    (hkeys : left.map Prod.fst = right.map Prod.fst) (start : Nat) :
    indexFrom normalize start left = indexFrom normalize start right := by
  induction left generalizing start right with
  | nil =>
    obtain rfl : right = [] := by simpa using hkeys.symm
    rfl
  | cons head rest ih =>
    cases right with
    | nil => simp at hkeys
    | cons =>
      simp only [List.map_cons, List.cons.injEq] at hkeys
      simp only [indexFrom, hkeys.1, ih hkeys.2]

variable (normalize) in
theorem find?_indexFrom (start : Nat) (entries : List (κ × α)) (key : κ) :
    match (indexFrom normalize start entries).find? fun position =>
        position.1 = normalize key with
    | none => get normalize entries key = none
    | some (_, position) =>
      start ≤ position ∧ ∃ entry, entries[position - start]? = some entry ∧
          get normalize entries key = some entry.2 := by
  induction entries generalizing start with
  | nil => rfl
  | cons head rest ih =>
    rw [indexFrom, List.find?_cons]
    by_cases hhead : normalize head.1 = normalize key
    · simp only [hhead, decide_true]
      exact ⟨le_rfl, head, by simp, get_cons_self hhead⟩
    · simp only [hhead, decide_false]
      have htail := ih (start + 1)
      rw [get_cons_of_ne hhead]
      split at htail
      next hnone => simpa [hnone] using htail
      next hsome =>
        rename_i position
        rw [hsome]
        obtain ⟨hposition, entry, hentry, hget⟩ := htail
        refine ⟨by omega, entry, ?_, hget⟩
        obtain ⟨offset, hoffset⟩ : ∃ offset,
            position - start = offset + 1 := ⟨position - start - 1, by omega⟩
        rw [hoffset, List.getElem?_cons_succ]
        have hsame : position - (start + 1) = offset := by omega
        rw [← hsame]
        exact hentry

theorem modify_indexFrom {start : Nat} {entries : List (κ × α)} {key : κ}
    (hdistinct : Distinct normalize entries) {found : ν} {position : Nat}
    (hindex : (indexFrom normalize start entries).find? (fun position =>
      position.1 = normalize key) = some (found, position)) (value : α) :
    entries.modify (position - start) (fun entry => (entry.1, value)) =
      overwrite normalize entries key value := by
  induction entries generalizing start with
  | nil => simp [indexFrom] at hindex
  | cons head rest ih =>
    rw [Distinct, List.map_cons, List.nodup_cons] at hdistinct
    rw [indexFrom, List.find?_cons] at hindex
    by_cases hhead : normalize head.1 = normalize key
    · simp only [hhead, decide_true, Option.some.injEq, Prod.mk.injEq] at hindex
      obtain ⟨-, rfl⟩ := hindex
      have hrest : rest.map (fun entry =>
          if normalize entry.1 = normalize key then (entry.1, value)
          else entry) = rest := by
        conv_rhs => rw [← List.map_id rest]
        apply List.map_congr_left
        intro entry hentry
        rw [if_neg]
        · rfl
        · intro hsame
          apply hdistinct.1
          rw [hhead, ← hsame]
          exact List.mem_map_of_mem hentry
      simp [overwrite, hhead, hrest]
    · simp only [hhead, decide_false] at hindex
      have hbound := find?_indexFrom normalize (start + 1) rest key
      simp only [hindex] at hbound
      have htail := ih hdistinct.2 hindex
      obtain ⟨offset, hoffset⟩ : ∃ offset,
          position - start = offset + 1 := ⟨position - start - 1, by omega⟩
      have hsame : position - (start + 1) = offset := by omega
      rw [hsame] at htail
      rw [hoffset, List.modify_succ_cons, htail, overwrite, overwrite, List.map_cons, if_neg hhead]

end NormalizedEntries
