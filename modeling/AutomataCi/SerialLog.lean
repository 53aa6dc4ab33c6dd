import AutomataCi.KeyedList

/-!
# Serial logs

A log of operations which run one after the other: the operations have
distinct identifiers and only the last one may still be pending.
-/

namespace SerialLog

open KeyedList

variable {α ι : Type*} (identity : α → ι) (pending : α → Bool)

structure WellOrdered (entries : List α) : Prop where
  distinct : (entries.map identity).Nodup
  resolved : ∀ entry ∈ entries.dropLast, pending entry = false

variable {identity pending}

theorem WellOrdered.nil : WellOrdered identity pending [] :=
  ⟨by simp, by simp⟩

variable {entry old new : α} {rest entries front : List α}

theorem wellOrdered_cons :
    WellOrdered identity pending (entry :: rest) ↔
      (∀ other ∈ rest, identity other ≠ identity entry) ∧ (pending entry = true → rest = []) ∧
        WellOrdered identity pending rest := by
  constructor
  · rintro ⟨hdistinct, hresolved⟩
    rw [List.map_cons, List.nodup_cons] at hdistinct
    refine ⟨?_, ?_, ⟨hdistinct.2, ?_⟩⟩
    · intro other hother hsame
      exact hdistinct.1 (hsame ▸ List.mem_map_of_mem hother)
    · intro hpending
      cases rest with
      | nil => rfl
      | cons =>
        rw [List.dropLast_cons_cons, List.forall_mem_cons] at hresolved
        simp [hresolved.1] at hpending
    · cases rest with
      | nil => simp
      | cons =>
        rw [List.dropLast_cons_cons, List.forall_mem_cons] at hresolved
        exact hresolved.2
  · rintro ⟨hfresh, hlast, hrest⟩
    refine ⟨?_, ?_⟩
    · rw [List.map_cons, List.nodup_cons, List.mem_map]
      refine ⟨?_, hrest.distinct⟩
      rintro ⟨other, hother, hsame⟩
      exact hfresh other hother hsame
    · cases rest with
      | nil => simp
      | cons =>
        rw [List.dropLast_cons_cons, List.forall_mem_cons]
        refine ⟨?_, hrest.resolved⟩
        by_contra hpending
        simpa using hlast (by simpa using hpending)

theorem WellOrdered.getLast_of_pending (hordered : WellOrdered identity pending entries)
    (hmem : entry ∈ entries) (hpending : pending entry = true) : entries.getLast? = some entry := by
  rcases List.eq_nil_or_concat' entries with rfl | ⟨front, last, rfl⟩
  · simp at hmem
  · rw [List.mem_append, List.mem_singleton] at hmem
    rcases hmem with hfront | rfl
    · have hresolved := hordered.resolved entry (by rwa [List.dropLast_concat])
      simp [hresolved] at hpending
    · simp

theorem WellOrdered.concat (hordered : WellOrdered identity pending entries)
    (hfresh : ∀ other ∈ entries, identity other ≠ identity entry)
    (hresolved : ∀ other ∈ entries.getLast?, pending other = false) :
    WellOrdered identity pending (entries ++ [entry]) := by
  refine ⟨?_, ?_⟩
  · rw [List.map_append, List.map_singleton, List.nodup_append]
    refine ⟨hordered.distinct, by simp, ?_⟩
    intro left hleft right hright
    rw [List.mem_singleton] at hright
    subst hright
    obtain ⟨other, hother, rfl⟩ := List.mem_map.mp hleft
    exact hfresh other hother
  · rw [List.dropLast_concat]
    rcases List.eq_nil_or_concat' entries with rfl | ⟨front, last, rfl⟩
    · simp
    · intro other hother
      rw [List.mem_append, List.mem_singleton] at hother
      rcases hother with hfront | rfl
      · exact hordered.resolved other (by rwa [List.dropLast_concat])
      · exact hresolved other (by simp)

theorem WellOrdered.replaceLast (hordered : WellOrdered identity pending (front ++ [old]))
    (hidentity : identity new = identity old) : WellOrdered identity pending (front ++ [new]) := by
  refine ⟨?_, ?_⟩
  · have hdistinct := hordered.distinct
    simp only [List.map_append, List.map_singleton, hidentity] at *
    exact hdistinct
  · have hresolved := hordered.resolved
    rw [List.dropLast_concat] at hresolved ⊢
    exact hresolved

/-- Rewriting the last operation under its identifier changes no other. -/
theorem WellOrdered.replace_concat [DecidableEq ι]
    (hordered : WellOrdered identity pending (front ++ [old]))
    (hidentity : identity new = identity old) :
    KeyedList.replace identity new (front ++ [old]) = front ++ [new] :=
  replace_split hordered.distinct hidentity.symm

theorem WellOrdered.tail (hordered : WellOrdered identity pending (entry :: rest)) :
    WellOrdered identity pending rest :=
  (wellOrdered_cons.mp hordered).2.2

/-- An operation may be rewritten under its identifier, unless a resolved one
would become pending. -/
theorem WellOrdered.replace [DecidableEq ι] (hordered : WellOrdered identity pending entries)
    (hmem : old ∈ entries) (hidentity : identity new = identity old)
    (hpending : pending new = true → pending old = true) :
    WellOrdered identity pending (KeyedList.replace identity new entries) := by
  refine ⟨by rw [map_key_replace]; exact hordered.distinct, ?_⟩
  intro entry hentry
  rw [KeyedList.replace, ← List.map_dropLast, List.mem_map] at hentry
  obtain ⟨before, hbefore, rfl⟩ := hentry
  have hresolved := hordered.resolved before hbefore
  split
  · rename_i hkey
    have hsame : before = old := eq_of_mem_of_key_eq hordered.distinct
        (List.mem_of_mem_dropLast hbefore) hmem (hkey.trans hidentity)
    subst hsame
    by_contra hnew
    simp [hpending (by simpa using hnew)] at hresolved
  · exact hresolved

end SerialLog
