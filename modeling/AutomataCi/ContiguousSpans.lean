import Mathlib.Tactic

/-!
# Contiguous spans

A list of spans tiles an interval when the spans follow each other without a
gap and without an overlap.  The spans may be values of any type with a first
and a last position.
-/

namespace ContiguousSpans

variable {α : Type*} (first last : α → Nat)

def positions (span : α) : List Nat :=
  List.range' (first span) (last span + 1 - first span)

/-- The spans cover exactly the positions from `start` up to, and without,
`stop`. -/
inductive Tiles : Nat → List α → Nat → Prop where
  | nil (start : Nat) : Tiles start [] start
  | cons {span : α} {rest : List α} {stop : Nat}
      (hspan : first span ≤ last span)
      (hrest : Tiles (last span + 1) rest stop) :
      Tiles (first span) (span :: rest) stop

variable {first last} {start stop : Nat}

@[simp] theorem tiles_nil : Tiles first last start [] stop ↔ start = stop := by
  constructor
  · intro htiles
    cases htiles
    rfl
  · rintro rfl
    exact .nil _

variable {span : α}

@[simp] theorem tiles_cons {rest : List α} :
    Tiles first last start (span :: rest) stop ↔ first span = start ∧ first span ≤ last span ∧
        Tiles first last (last span + 1) rest stop := by
  constructor
  · intro htiles
    cases htiles with
    | cons hspan hrest => exact ⟨rfl, hspan, hrest⟩
  · rintro ⟨rfl, hspan, hrest⟩
    exact .cons hspan hrest

theorem tiles_append {front back : List α} :
    Tiles first last start (front ++ back) stop ↔ ∃ middle, Tiles first last start front middle ∧
        Tiles first last middle back stop := by
  induction front generalizing start with
  | nil => simp
  | cons span rest ih =>
    simp only [List.cons_append, tiles_cons, ih]
    constructor
    · rintro ⟨hfirst, hspan, middle, hfront, hback⟩
      exact ⟨middle, ⟨hfirst, hspan, hfront⟩, hback⟩
    · rintro ⟨middle, ⟨hfirst, hspan, hfront⟩, hback⟩
      exact ⟨hfirst, hspan, middle, hfront, hback⟩

theorem tiles_concat {front : List α} :
    Tiles first last start (front ++ [span]) stop ↔ Tiles first last start front (first span) ∧
        first span ≤ last span ∧ stop = last span + 1 := by
  rw [tiles_append]
  constructor
  · rintro ⟨middle, hfront, hspan⟩
    rw [tiles_cons, tiles_nil] at hspan
    obtain ⟨rfl, hle, hstop⟩ := hspan
    exact ⟨hfront, hle, hstop.symm⟩
  · rintro ⟨hfront, hle, rfl⟩
    exact ⟨first span, hfront, by simp [hle]⟩

variable {spans : List α}

theorem Tiles.le (htiles : Tiles first last start spans stop) : start ≤ stop := by
  induction htiles with
  | nil => exact le_rfl
  | cons => omega

theorem range_append_positions (hspan : first span ≤ last span) :
    List.range (first span) ++ positions first last span = List.range (last span + 1) := by
  have hlength : last span + 1 = first span + (last span + 1 - first span) := by omega
  calc
    List.range (first span) ++ positions first last span = List.range' 0 (first span) ++
          List.range' (0 + first span) (last span + 1 - first span) := by
        rw [positions, List.range_eq_range', Nat.zero_add]
    _ = List.range (first span + (last span + 1 - first span)) := by
        rw [List.range'_append_1, List.range_eq_range']
    _ = List.range (last span + 1) := by rw [← hlength]

theorem Tiles.flatMap_positions (htiles : Tiles first last start spans stop) :
    spans.flatMap (positions first last) = List.range' start (stop - start) := by
  induction htiles with
  | nil => simp
  | @cons span rest stop hspan hrest ih =>
    have hle := hrest.le
    rw [List.flatMap_cons, ih, positions]
    have hjoin : first span + (last span + 1 - first span) = last span + 1 := by omega
    calc
      List.range' (first span) (last span + 1 - first span) ++
            List.range' (last span + 1) (stop - (last span + 1)) =
          List.range' (first span) (last span + 1 - first span) ++
            List.range' (first span + (last span + 1 - first span))
              (stop - (last span + 1)) := by rw [hjoin]
      _ = List.range' (first span) ((last span + 1 - first span) + (stop - (last span + 1))) := by
          rw [List.range'_append_1]
      _ = List.range' (first span) (stop - first span) := by
          congr 1
          omega

end ContiguousSpans
