import Mathlib.Tactic

/-!
# Numbered logs

A log whose entries carry the numbers one, two, three and so on, and the
bounded window of its last entries which a program keeps of it.
-/

namespace NumberedLog

variable {α : Type*} {position : α → ℕ}

def Numbered (position : α → ℕ) (log : List α) : Prop :=
  log.map position = List.range' 1 log.length

theorem numbered_nil : Numbered position [] := rfl

variable {log : List α} {entry : α}

theorem Numbered.concat (hlog : Numbered position log) (hentry : position entry = log.length + 1) :
    Numbered position (log ++ [entry]) := by
  unfold Numbered at *
  rw [List.map_append, List.map_singleton, hlog, hentry,
    List.length_append, List.length_singleton, List.range'_concat]
  simp [Nat.add_comm]

theorem Numbered.eq_of_position_eq {left right : α} (hlog : Numbered position log)
    (hleft : left ∈ log) (hright : right ∈ log) (hsame : position left = position right) :
    left = right := by
  have hdistinct : (log.map position).Nodup := by
    rw [hlog]
    exact List.nodup_range' 1
  exact List.inj_on_of_nodup_map hdistinct hleft hright hsame

theorem Numbered.position_le (hlog : Numbered position log) (hentry : entry ∈ log) :
    position entry ≤ log.length := by
  have hmem : position entry ∈ log.map position := List.mem_map_of_mem hentry
  rw [hlog, List.mem_range'_1] at hmem
  omega

theorem Numbered.position_getLast (hlog : Numbered position log)
    (hlast : log.getLast? = some entry) : position entry = log.length := by
  obtain ⟨front, rfl⟩ := List.getLast?_eq_some_iff.mp hlast
  unfold Numbered at hlog
  rw [List.map_append, List.map_singleton, List.length_append,
    List.length_singleton, List.range'_concat] at hlog
  have hpair := List.append_inj_right' hlog rfl
  simp only [List.cons.injEq, and_true] at hpair
  rw [hpair, List.length_append, List.length_singleton]
  omega

def lastEntries (bound : ℕ) (log : List α) : List α :=
  log.drop (log.length - bound)

theorem lastEntries_nil (bound : ℕ) : lastEntries bound ([] : List α) = [] := by
  simp [lastEntries]

theorem length_lastEntries (bound : ℕ) (log : List α) :
    (lastEntries bound log).length = min log.length bound := by
  rw [lastEntries, List.length_drop]
  omega

/-- Appending to the window and dropping the oldest entry of a full one gives
the window of the longer log. -/
theorem lastEntries_concat {bound : ℕ} (hbound : 0 < bound) (log : List α) (entry : α) :
    lastEntries bound (log ++ [entry]) =
      if bound < (lastEntries bound log ++ [entry]).length then
        (lastEntries bound log ++ [entry]).tail
      else
        lastEntries bound log ++ [entry] := by
  have hlength := length_lastEntries bound log
  by_cases hfull : bound ≤ log.length
  · have hroom : bound < (lastEntries bound log ++ [entry]).length := by
      rw [List.length_append, List.length_singleton, hlength]
      omega
    have hdrop : (log ++ [entry]).length - bound = (log.length - bound) + 1 := by
      rw [List.length_append, List.length_singleton]
      omega
    rw [if_pos hroom, lastEntries, hdrop, ← List.drop_drop, List.drop_one,
      lastEntries, List.drop_append_of_le_length (by omega)]
  · have hroom : ¬bound < (lastEntries bound log ++ [entry]).length := by
      rw [List.length_append, List.length_singleton, hlength]
      omega
    have hall : log.length - bound = 0 := by omega
    have hlater : (log ++ [entry]).length - bound = 0 := by
      rw [List.length_append, List.length_singleton]
      omega
    rw [if_neg hroom, lastEntries, lastEntries, hall, hlater, List.drop_zero, List.drop_zero]

end NumberedLog
