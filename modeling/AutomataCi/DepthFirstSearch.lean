import AutomataCi.GuardedResult
import Mathlib.Data.Finset.Card
import Mathlib.Logic.Relation
import Mathlib.Order.WellFounded

/-!
# Depth-first search for a cycle

The search keeps two sets: the nodes on the current path and the nodes whose
successors are all searched.  A node is accessible when no infinite path
starts there; the search marks only accessible nodes as complete, and a node
it meets again on its path lies on a cycle.  Nothing here depends on a
particular program.
-/

namespace DepthFirstSearch

open GuardedResult

variable {α : Type}

structure Marks (α : Type) where
  (visiting complete : Finset α)

/-- Why a search stops: a cycle, a node without an entry, or too little fuel,
which no run of a terminating search meets. -/
inductive Failure where
  | cycle | missing | outOfFuel
  deriving DecidableEq, Repr

variable (successors : α → Option (List α))

def Edge (node next : α) : Prop :=
  ∃ listed, successors node = some listed ∧ next ∈ listed

def OnCycle (node : α) : Prop :=
  Relation.TransGen (Edge successors) node node

def Accessible (node : α) : Prop :=
  Acc (fun next node => Edge successors node next) node

variable {successors : α → Option (List α)} {nodes : Finset α}

theorem Accessible.not_onCycle {node : α} (haccessible : Accessible successors node) :
    ¬ OnCycle successors node := by
  intro hcycle
  have hbelow := haccessible.transGen
  have hloop := Relation.transGen_swap.mpr hcycle
  clear haccessible hcycle
  induction hbelow with
  | intro node _ ih => exact ih node hloop hloop

variable [DecidableEq α]

def visit (successors : α → Option (List α)) : Nat → Marks α → α → Except Failure (Marks α)
  | 0, _, _ => .error .outOfFuel
  | fuel + 1, marks, node =>
    if node ∈ marks.complete then
      .ok marks
    else if node ∈ marks.visiting then
      .error .cycle
    else do
      let next ← okOr (successors node) .missing
      let searched ← next.foldlM (visit successors fuel)
        { marks with visiting := insert node marks.visiting }
      pure
        { visiting := searched.visiting.erase node
          complete := insert node searched.complete }

/-- What a search from `marks` owes when it ends: the path is as before, the
listed nodes are complete, and complete nodes are accessible; or there is a
cycle. -/
def Searched (successors : α → Option (List α)) (nodes : Finset α)
    (marks : Marks α) (listed : List α) : Except Failure (Marks α) → Prop
  | .ok next =>
    next.visiting = marks.visiting ∧ marks.complete ⊆ next.complete ∧
      (∀ node ∈ listed, node ∈ next.complete) ∧
      ∀ node ∈ next.complete, Accessible successors node
  | .error failure => failure = .cycle ∧ ∃ node ∈ nodes, OnCycle successors node

/-- The state in which the search may go on to the listed nodes. -/
structure Ready (successors : α → Option (List α)) (nodes : Finset α)
    (fuel : Nat) (marks : Marks α) (listed : List α) : Prop where
  known : ∀ node ∈ listed, node ∈ nodes
  pathKnown : marks.visiting ⊆ nodes
  enough : nodes.card < fuel + marks.visiting.card
  path : ∀ earlier ∈ marks.visiting, ∀ node ∈ listed,
    Relation.TransGen (Edge successors) earlier node
  accessible : ∀ node ∈ marks.complete, Accessible successors node

def Closed (successors : α → Option (List α)) (nodes : Finset α) : Prop :=
  ∀ node ∈ nodes, ∃ listed, successors node = some listed ∧ ∀ next ∈ listed, next ∈ nodes

variable {fuel : Nat}

theorem searched_foldlM (hvisit : ∀ marks node, Ready successors nodes fuel marks [node] →
      Searched successors nodes marks [node]
        (visit successors fuel marks node)) (listed : List α) (marks : Marks α)
    (hready : Ready successors nodes fuel marks listed) :
    Searched successors nodes marks listed (listed.foldlM (visit successors fuel) marks) := by
  induction listed generalizing marks with
  | nil => exact ⟨rfl, Finset.Subset.refl _, by simp, hready.accessible⟩
  | cons node rest ih =>
    rw [List.foldlM_cons]
    have hfirst := hvisit marks node
      { hready with
        known := fun other hother => hready.known other
          (List.mem_cons.mpr (.inl (List.mem_singleton.mp hother)))
        path := fun earlier hearlier other hother => hready.path earlier hearlier other
          (List.mem_cons.mpr (.inl (List.mem_singleton.mp hother))) }
    cases hresult : visit successors fuel marks node with
    | error =>
      rw [hresult] at hfirst
      exact hfirst
    | ok next =>
      rw [hresult] at hfirst
      obtain ⟨hvisiting, hcomplete, hnode, haccessible⟩ := hfirst
      have hrest := ih next
        { known := fun other hother =>
            hready.known other (List.mem_cons_of_mem _ hother)
          pathKnown := hvisiting ▸ hready.pathKnown
          enough := hvisiting ▸ hready.enough
          path := fun earlier hearlier other hother =>
            hready.path earlier (hvisiting ▸ hearlier) other (List.mem_cons_of_mem _ hother)
          accessible := haccessible }
      rw [ok_bind]
      cases hfinal : rest.foldlM (visit successors fuel) next with
      | error =>
        rw [hfinal] at hrest
        exact hrest
      | ok =>
        rw [hfinal] at hrest
        obtain ⟨hpath, hmore, hlisted, hall⟩ := hrest
        refine ⟨hpath.trans hvisiting, hcomplete.trans hmore, ?_, hall⟩
        intro other hother
        cases List.mem_cons.mp hother with
        | inl hfirst =>
          rw [hfirst]
          exact hmore (hnode node (List.mem_singleton_self node))
        | inr hother => exact hlisted other hother

theorem Ready.push {marks : Marks α} {node : α} {listed : List α}
    (hclosed : Closed successors nodes) (hready : Ready successors nodes (fuel + 1) marks [node])
    (hnew : node ∉ marks.visiting) (hlisted : successors node = some listed) :
    Ready successors nodes fuel { marks with visiting := insert node marks.visiting } listed := by
  have hnode := hready.known node (List.mem_singleton_self node)
  have hedge : ∀ next ∈ listed, Edge successors node next :=
    fun next hnext => ⟨listed, hlisted, hnext⟩
  constructor
  · intro next hnext
    obtain ⟨others, hothers, hnodes⟩ := hclosed node hnode
    rw [hlisted] at hothers
    cases hothers
    exact hnodes next hnext
  · exact Finset.insert_subset hnode hready.pathKnown
  · have hfuel := hready.enough
    rw [Finset.card_insert_of_notMem hnew]
    omega
  · intro earlier hearlier next hnext
    cases Finset.mem_insert.mp hearlier with
    | inl hsame =>
      rw [hsame]
      exact .single (hedge next hnext)
    | inr hearlier =>
      exact (hready.path earlier hearlier node
        (List.mem_singleton_self node)).tail (hedge next hnext)
  · exact hready.accessible

theorem searched_visit (hclosed : Closed successors nodes) (fuel : Nat) (marks : Marks α) (node : α)
    (hready : Ready successors nodes fuel marks [node]) :
    Searched successors nodes marks [node] (visit successors fuel marks node) := by
  induction fuel generalizing marks node with
  | zero =>
    have hcard := Finset.card_le_card hready.pathKnown
    have hfuel := hready.enough
    omega
  | succ fuel ih =>
    have hnode := hready.known node (List.mem_singleton_self node)
    unfold visit
    by_cases hcomplete : node ∈ marks.complete
    · rw [if_pos hcomplete]
      refine ⟨rfl, Finset.Subset.refl _, ?_, hready.accessible⟩
      simpa using hcomplete
    rw [if_neg hcomplete]
    by_cases hvisiting : node ∈ marks.visiting
    · rw [if_pos hvisiting]
      exact ⟨rfl, node, hnode, hready.path node hvisiting node (List.mem_singleton_self node)⟩
    rw [if_neg hvisiting]
    obtain ⟨listed, hlisted, -⟩ := hclosed node hnode
    have hsearched := searched_foldlM ih listed _ (hready.push hclosed hvisiting hlisted)
    rw [hlisted]
    simp only [okOr, ok_bind]
    cases hresult : listed.foldlM (visit successors fuel)
        { marks with visiting := insert node marks.visiting } with
    | error failure =>
      rw [hresult] at hsearched
      exact hsearched
    | ok searched =>
      rw [hresult] at hsearched
      obtain ⟨hpath, hmore, hall, haccessible⟩ := hsearched
      refine ⟨?_, ?_, by simp, ?_⟩
      · simp only [hpath]
        exact Finset.erase_insert hvisiting
      · exact hmore.trans (Finset.subset_insert _ _)
      · intro other hother
        cases Finset.mem_insert.mp hother with
        | inl hsame =>
          rw [hsame]
          -- Every successor of the node is complete by now.
          refine Acc.intro node fun next hedge => ?_
          obtain ⟨others, hothers, hnext⟩ := hedge
          rw [hlisted] at hothers
          cases hothers
          exact haccessible next (hall next hnext)
        | inr hother => exact haccessible other hother

/-- A search over all nodes ends, with no failure but a cycle, and succeeds
exactly when there is no cycle. -/
theorem search_ok_iff {start : List α} (hclosed : Closed successors start.toFinset)
    (hfuel : start.length < fuel) :
    ((∃ marks, start.foldlM (visit successors fuel) ⟨∅, ∅⟩ = .ok marks) ↔
        ∀ node ∈ start, ¬ OnCycle successors node) ∧
      ∀ failure, start.foldlM (visit successors fuel) ⟨∅, ∅⟩ =
        .error failure → failure = .cycle := by
  have hready : Ready successors start.toFinset fuel ⟨∅, ∅⟩ start := by
    constructor
    · exact fun node hnode => List.mem_toFinset.mpr hnode
    · exact Finset.empty_subset _
    · have hcard := List.toFinset_card_le start
      rw [Finset.card_empty]
      omega
    · intro earlier hearlier
      exact absurd hearlier (Finset.notMem_empty earlier)
    · intro node hnode
      exact absurd hnode (Finset.notMem_empty node)
  have hsearched := searched_foldlM (searched_visit hclosed fuel) start _ hready
  cases hresult : start.foldlM (visit successors fuel) ⟨∅, ∅⟩ with
  | ok marks =>
    rw [hresult] at hsearched
    obtain ⟨-, -, hall, haccessible⟩ := hsearched
    constructor
    · constructor
      · intro _ node hnode
        exact (haccessible node (hall node hnode)).not_onCycle
      · exact fun _ => ⟨marks, rfl⟩
    · intro failure hfailure
      cases hfailure
  | error =>
    rw [hresult] at hsearched
    obtain ⟨rfl, node, hnode, hcycle⟩ := hsearched
    constructor
    · constructor
      · rintro ⟨_, hok⟩
        cases hok
      · intro hnone
        exact absurd hcycle (hnone node (List.mem_toFinset.mp hnode))
    · intro other hother
      cases hother
      rfl

end DepthFirstSearch
