import AutomataCi.OrderedSet
import Mathlib.Logic.Relation

/-!
# Closure by a work list

A queue of nodes whose edges have not been followed yet.  Following the edges of the first node
selects their ends, and those which are new join the queue.  An edge is listed with its end first.
-/

namespace WorklistClosure

variable {α : Type} [LinearOrder α]

def follow (node : α) (state : OrderedSet α × List α) (edge : α × α) : OrderedSet α × List α :=
  if edge.2 = node ∧ edge.1 ∉ state.1 then (state.1.insert edge.1, state.2 ++ [edge.1]) else state

def followAll (edges : List (α × α)) (node : α) (state : OrderedSet α × List α) :
    OrderedSet α × List α :=
  edges.foldl (follow node) state

/-- The edges to nodes which are not selected, and the nodes of the queue. -/
def pending (edges : List (α × α)) (state : OrderedSet α × List α) : Nat :=
  (edges.filter fun edge => edge.1 ∉ state.1).length + state.2.length

variable {edges listed : List (α × α)} {edge : α × α} {node other : α}
  {state : OrderedSet α × List α}

theorem pending_follow (hedge : edge ∈ edges) :
    pending edges (follow node state edge) ≤ pending edges state := by
  unfold follow
  split
  next hnew =>
    have hfilter : (edges.filter fun other => other.1 ∉ state.1.insert edge.1) =
        (edges.filter fun other => other.1 ∉ state.1).filter fun other => other.1 ≠ edge.1 := by
      simp [List.filter_filter]
    have hfewer : (edges.filter fun other => other.1 ∉ state.1.insert edge.1).length <
        (edges.filter fun other => other.1 ∉ state.1).length := by
      rw [hfilter, List.length_filter_lt_length_iff_exists]
      exact ⟨edge, List.mem_filter.mpr ⟨hedge, decide_eq_true hnew.2⟩, by simp⟩
    simp only [pending, List.length_append, List.length_singleton]
    omega
  next => exact le_rfl

theorem pending_followAll (hlisted : listed ⊆ edges) :
    pending edges (followAll listed node state) ≤ pending edges state := by
  induction listed generalizing state with
  | nil => exact le_rfl
  | cons edge rest ih =>
    rw [List.cons_subset] at hlisted
    exact (ih hlisted.2).trans (pending_follow hlisted.1)

def close (edges : List (α × α)) : OrderedSet α × List α → OrderedSet α
  | (selected, []) => selected
  | (selected, node :: queue) => close edges (followAll edges node (selected, queue))
termination_by state => pending edges state
decreasing_by
  refine (pending_followAll (List.Subset.refl edges)).trans_lt ?_
  simp [pending]

theorem mem_followAll : other ∈ (followAll listed node state).1 ↔
      other ∈ state.1 ∨ (other, node) ∈ listed := by
  induction listed generalizing state with
  | nil => simp [followAll]
  | cons edge rest ih =>
    refine ih.trans ?_
    unfold follow
    split <;> grind [OrderedSet.mem_insert]

theorem mem_queue_followAll : other ∈ (followAll listed node state).2 ↔
      other ∈ state.2 ∨ other ∉ state.1 ∧ (other, node) ∈ listed := by
  induction listed generalizing state with
  | nil => simp [followAll]
  | cons edge rest ih =>
    refine ih.trans ?_
    unfold follow
    split <;> grind [OrderedSet.mem_insert]

def Reaches (edges : List (α × α)) : α → α → Prop :=
  Relation.ReflTransGen fun node next => (next, node) ∈ edges

/-- The queue is selected, and the ends of the edges of every other selected node are. -/
structure Explored (edges : List (α × α)) (state : OrderedSet α × List α) : Prop where
  queued : ∀ node ∈ state.2, node ∈ state.1
  followed : ∀ node next, (next, node) ∈ edges → node ∈ state.1 → node ∈ state.2 ∨ next ∈ state.1

theorem Explored.followAll {selected : OrderedSet α} {queue : List α}
    (hexplored : Explored edges (selected, node :: queue)) :
    Explored edges (followAll edges node (selected, queue)) where
  queued := by
    intro other hother
    rw [mem_queue_followAll] at hother
    rw [mem_followAll]
    rcases hother with hqueue | ⟨-, hedge⟩
    · exact .inl (hexplored.queued other (List.mem_cons_of_mem _ hqueue))
    · exact .inr hedge
  followed := by
    intro source next hedge hsource
    rw [mem_followAll] at hsource
    rw [mem_followAll, mem_queue_followAll]
    have hearlier := hexplored.followed source next hedge
    simp only [List.mem_cons] at hearlier
    by_cases hselected : source ∈ selected
    · rcases hearlier hselected with (rfl | hwaits) | hnext
      · exact .inr (.inr hedge)
      · exact .inl (.inl hwaits)
      · exact .inr (.inl hnext)
    · exact .inl (.inr ⟨hselected, hsource.resolve_left hselected⟩)

theorem mem_close (hexplored : Explored edges state) :
    other ∈ close edges state ↔ ∃ node ∈ state.1, Reaches edges node other := by
  fun_induction close edges state with
  | case1 selected =>
    constructor
    · exact fun hother => ⟨other, hother, .refl⟩
    · rintro ⟨node, hnode, hreaches⟩
      induction hreaches with
      | refl => exact hnode
      | tail _ hedge ih => exact (hexplored.followed _ _ hedge ih).resolve_left List.not_mem_nil
  | case2 selected node queue ih =>
    rw [ih hexplored.followAll]
    constructor
    · rintro ⟨start, hstart, hreaches⟩
      rcases mem_followAll.mp hstart with hselected | hedge
      · exact ⟨start, hselected, hreaches⟩
      · exact ⟨node, hexplored.queued node List.mem_cons_self, .head hedge hreaches⟩
    · rintro ⟨start, hstart, hreaches⟩
      exact ⟨start, mem_followAll.mpr (.inl hstart), hreaches⟩

end WorklistClosure
