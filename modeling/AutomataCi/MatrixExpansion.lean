import AutomataCi.GuardedResult
import AutomataCi.KeyedList
import AutomataCi.NormalizedEntries

/-!
# Matrix expansion

A resolved matrix is expanded in three loops: over the axes, over the
exclusions, and over the inclusions, which extend the combinations they are
compatible with or stand alone.  The code keeps every combination with an
index of its normalized keys, and extends a second copy of the combinations
while it compares inclusions with the first.

The reference semantics below says which cells a matrix has, in which order,
without copies, indexes or budgets.  Whenever the expansion returns, it
returns those cells.
-/

namespace AutomataCi

open GuardedResult
open NormalizedEntries

variable {V : Type}

/-- The part of an evaluation session which compares matrix entries. -/
structure MatrixSession (V : Type) where
  normalizeMatrixKey : String → String
  (matrixValueMatches matrixValuesEqual : V → V → Bool)

inductive MatrixExpansionError where
  | duplicateMatrixKey
  | limitExceeded (field : String) (maximum : Nat)
  | matrixExpansionLimitExceeded (maximum : Nat)
  deriving DecidableEq, Repr

def maxMatrixObjectEntries : Nat :=
  128

def maxMatrixCandidateCombinations : Nat :=
  4096

def maxMatrixExpansionWork : Nat :=
  1048576

abbrev MatrixEntries (V : Type) :=
  List (String × V)

/-! ## Combinations -/

structure MatrixCombination (V : Type) where
  entries : MatrixEntries V
  lookup : List (String × Nat)
  deriving DecidableEq, Repr

namespace MatrixCombination

def default : MatrixCombination V :=
  ⟨[], []⟩

variable (self : MatrixCombination V)

def indexOf (session : MatrixSession V) (key : String) : Option Nat :=
  (self.lookup.find? fun position =>
    position.1 = session.normalizeMatrixKey key).map Prod.snd

def get (session : MatrixSession V) (key : String) : Option V :=
  match self.indexOf session key with
  | none => none
  | some index => self.entries[index]?.map Prod.snd

def set (session : MatrixSession V) (key : String) (value : V) :
    Except MatrixExpansionError (MatrixCombination V) :=
  match self.indexOf session key with
  | some index =>
    .ok { self with
      entries := self.entries.modify index fun entry => (entry.1, value) }
  | none => do
      rejectIf (maxMatrixObjectEntries ≤ self.entries.length)
        (.limitExceeded "expanded matrix entries" maxMatrixObjectEntries)
      return {
        entries := self.entries ++ [(key, value)]
        lookup := self.lookup ++ [(session.normalizeMatrixKey key, self.entries.length)] }

def matchesPatch (session : MatrixSession V) (patch : MatrixEntries V) : Bool :=
  patch.all fun entry =>
    (self.get session entry.1).any fun original =>
      session.matrixValueMatches original entry.2

def includeCompatible (session : MatrixSession V) (patch : MatrixEntries V) : Bool :=
  patch.all fun entry =>
    (self.get session entry.1).all fun original =>
      session.matrixValuesEqual original entry.2

def mergeInclude (self source : MatrixCombination V)
    (session : MatrixSession V) (patch : MatrixEntries V) :
    Except MatrixExpansionError (MatrixCombination V) :=
  patch.foldlM (fun current entry =>
      if (source.get session entry.1).isNone then
        current.set session entry.1 entry.2
      else .ok current)
    self

end MatrixCombination

/-! ## Expansion -/

def chargeWork (work amount : Nat) : Except MatrixExpansionError Nat := do
  let total := work + amount
  rejectIf (maxMatrixExpansionWork < total)
    (.limitExceeded "matrix expansion work" maxMatrixExpansionWork)
  return total

structure ResolvedMatrix (V : Type) where
  axes : List (String × List V)
  (includePatches excludePatches : List (MatrixEntries V))
  deriving DecidableEq, Repr

structure ExpansionState (V : Type) where
  combinations : List (MatrixCombination V)
  work : Nat
  deriving DecidableEq, Repr

def expandAxis (session : MatrixSession V) (state : ExpansionState V) (axis : String × List V) :
    Except MatrixExpansionError (ExpansionState V) := do
  let nextLength := state.combinations.length * axis.2.length
  rejectIf (maxMatrixCandidateCombinations < nextLength)
    (.limitExceeded "matrix candidate combinations" maxMatrixCandidateCombinations)
  let work ← chargeWork state.work nextLength
  let next ← (state.combinations.flatMap fun combination =>
      axis.2.map fun value => (combination, value)).mapM
      fun pair => pair.1.set session axis.1 pair.2
  return ⟨next, work⟩

def extendCompatible (session : MatrixSession V)
    (original : List (MatrixCombination V)) (patch : MatrixEntries V)
    (expanded : List (MatrixCombination V)) :
    Except MatrixExpansionError (List (MatrixCombination V)) := do
  let extended ← (original.zip expanded).mapM fun pair =>
    if pair.1.includeCompatible session patch then
      pair.2.mergeInclude pair.1 session patch
    else .ok pair.2
  return extended ++ expanded.drop original.length

def standaloneCombination (session : MatrixSession V) (work : Nat) (patch : MatrixEntries V) :
    Except MatrixExpansionError (MatrixCombination V × Nat) :=
  patch.foldlM (fun state entry => do
      let work ← chargeWork state.2 1
      let combination ← state.1.set session entry.1 entry.2
      return (combination, work))
    (MatrixCombination.default, work)

def applyInclude (session : MatrixSession V) (expansionLimit : Nat)
    (original : List (MatrixCombination V)) (state : ExpansionState V)
    (patch : MatrixEntries V) :
    Except MatrixExpansionError (ExpansionState V) := do
  let applied := (original.zip state.combinations).any fun pair =>
    pair.1.includeCompatible session patch
  let expanded ← extendCompatible session original patch state.combinations
  if applied then
    return ⟨expanded, state.work⟩
  else
    rejectIf (expansionLimit ≤ expanded.length) (.matrixExpansionLimitExceeded expansionLimit)
    let (combination, work) ← standaloneCombination session state.work patch
    return ⟨expanded ++ [combination], work⟩

def patchEntries (patches : List (MatrixEntries V)) : Nat :=
  (patches.map List.length).sum

def expandMatrix (matrix : ResolvedMatrix V) (expansionLimit : Nat) (session : MatrixSession V) :
    Except MatrixExpansionError (List (MatrixCombination V)) := do
  rejectIf (¬(matrix.axes.map fun axis =>
      session.normalizeMatrixKey axis.1).Nodup)
    .duplicateMatrixKey
  let start :=
    if matrix.axes.isEmpty then [] else [MatrixCombination.default]
  let product ← matrix.axes.foldlM (expandAxis session) ⟨start, 0⟩
  let work ← chargeWork product.work
    (product.combinations.length * patchEntries matrix.excludePatches)
  let original := product.combinations.filter fun combination =>
    !matrix.excludePatches.any fun patch => combination.matchesPatch session patch
  rejectIf (expansionLimit < original.length) (.matrixExpansionLimitExceeded expansionLimit)
  let work ← chargeWork work (original.length * patchEntries matrix.includePatches)
  let result ← matrix.includePatches.foldlM
    (applyInclude session expansionLimit original) ⟨original, work⟩
  return result.combinations

/-! ## The reference semantics -/

abbrev MatrixCell (V : Type) :=
  List (String × V)

namespace MatrixReference

def product : List (String × List V) → List (MatrixCell V)
  | [] => [[]]
  | axis :: rest =>
    axis.2.flatMap fun value =>
      (product rest).map fun cell => (axis.1, value) :: cell

def candidates (axes : List (String × List V)) : List (MatrixCell V) :=
  if axes.isEmpty then [] else product axes

variable (session : MatrixSession V)

def excludes (cell : MatrixCell V) (patch : MatrixEntries V) : Bool :=
  patch.all fun entry =>
    (get session.normalizeMatrixKey cell entry.1).any fun original =>
      session.matrixValueMatches original entry.2

def surviving (matrix : ResolvedMatrix V) : List (MatrixCell V) :=
  (candidates matrix.axes).filter fun cell =>
    !matrix.excludePatches.any (excludes session cell)

def compatible (cell : MatrixCell V) (patch : MatrixEntries V) : Bool :=
  patch.all fun entry =>
    (get session.normalizeMatrixKey cell entry.1).all fun original =>
      session.matrixValuesEqual original entry.2

def extendBy (original cell : MatrixCell V) (patch : MatrixEntries V) : MatrixCell V :=
  patch.foldl (fun cell entry =>
      if (get session.normalizeMatrixKey original entry.1).isNone then
        put session.normalizeMatrixKey cell entry.1 entry.2
      else cell)
    cell

def extended (patches : List (MatrixEntries V)) (original : MatrixCell V) : MatrixCell V :=
  (patches.filter (compatible session original)).foldl (extendBy session original) original

def standalone (patch : MatrixEntries V) : MatrixCell V :=
  patch.foldl (fun cell entry =>
      put session.normalizeMatrixKey cell entry.1 entry.2) []

def cells (matrix : ResolvedMatrix V) : List (MatrixCell V) :=
  let originals := surviving session matrix
  originals.map (extended session matrix.includePatches) ++
    (matrix.includePatches.filter fun patch =>
      !originals.any fun cell => compatible session cell patch).map
      (standalone session)

end MatrixReference

/-! ## Combinations as cells -/

namespace MatrixCombination

variable {session : MatrixSession V}

structure Indexed (session : MatrixSession V)
    (combination : MatrixCombination V) : Prop where
  lookup_eq :
    combination.lookup = indexFrom session.normalizeMatrixKey 0 combination.entries
  distinct : Distinct session.normalizeMatrixKey combination.entries

theorem indexed_default : Indexed session (default : MatrixCombination V) :=
  ⟨rfl, List.nodup_nil⟩

variable {self : MatrixCombination V}

theorem Indexed.get_eq (hindexed : Indexed session self) (key : String) :
    self.get session key = NormalizedEntries.get session.normalizeMatrixKey self.entries key := by
  have hfind := find?_indexFrom session.normalizeMatrixKey 0 self.entries key
  rw [get, indexOf, hindexed.lookup_eq]
  split at hfind
  next hnone =>
    rw [hnone, hfind]
    rfl
  next hsome =>
    obtain ⟨-, entry, hentry, hget⟩ := hfind
    rw [hsome, hget]
    rw [Nat.sub_zero] at hentry
    simp only [Option.map_some, hentry]

theorem Indexed.set_eq_ok {next : MatrixCombination V}
    (hindexed : Indexed session self) {key : String} {value : V}
    (hset : self.set session key value = .ok next) :
    Indexed session next ∧
      next.entries = put session.normalizeMatrixKey self.entries key value := by
  have hfind := find?_indexFrom session.normalizeMatrixKey 0 self.entries key
  rw [set, indexOf, hindexed.lookup_eq] at hset
  split at hfind
  next hnone =>
    rw [hnone] at hset
    simp only [Option.map_none, bind_eq_ok, pure_eq_ok] at hset
    obtain ⟨_, _, rfl⟩ := hset
    have hput : put session.normalizeMatrixKey self.entries key value =
        self.entries ++ [(key, value)] := by
      simp [put, hfind]
    refine ⟨⟨?_, hindexed.distinct.append hfind⟩, hput.symm⟩
    simp only [indexFrom_append, Nat.zero_add]
  next hsome =>
    obtain ⟨-, entry, hentry, hget⟩ := hfind
    rw [hsome] at hset
    simp only [Option.map_some, Except.ok.injEq] at hset
    subst hset
    have hmodify := modify_indexFrom hindexed.distinct hsome value
    rw [Nat.sub_zero] at hmodify
    have hput : put session.normalizeMatrixKey self.entries key value =
        overwrite session.normalizeMatrixKey self.entries key value := by
      simp [put, hget]
    rw [hput, hmodify]
    refine ⟨⟨?_, hindexed.distinct.overwrite key value⟩, rfl⟩
    have hkeys :
        (overwrite session.normalizeMatrixKey self.entries key value).map
            Prod.fst = self.entries.map Prod.fst :=
      map_overwrite self.entries key value
    exact indexFrom_eq_of_keys hkeys.symm 0

theorem Indexed.matchesPatch_eq (hindexed : Indexed session self) (patch : MatrixEntries V) :
    self.matchesPatch session patch = MatrixReference.excludes session self.entries patch := by
  simp only [matchesPatch, MatrixReference.excludes, hindexed.get_eq]

theorem Indexed.includeCompatible_eq (hindexed : Indexed session self) (patch : MatrixEntries V) :
    self.includeCompatible session patch =
      MatrixReference.compatible session self.entries patch := by
  simp only [includeCompatible, MatrixReference.compatible, hindexed.get_eq]

def Represents (session : MatrixSession V) (combination : MatrixCombination V)
    (cell : MatrixCell V) : Prop :=
  Indexed session combination ∧ combination.entries = cell

theorem Represents.mergeInclude_eq_ok
    {source next : MatrixCombination V} {cell original : MatrixCell V}
    (hself : Represents session self cell)
    (hsource : Represents session source original) {patch : MatrixEntries V}
    (hmerge : self.mergeInclude source session patch = .ok next) :
    Represents session next (MatrixReference.extendBy session original cell patch) := by
  obtain ⟨hsource, rfl⟩ := hsource
  refine foldlM_relates (Represents session) _ ?_ hself hmerge
  rintro state _ entry after ⟨hindexed, rfl⟩ hstep
  rw [hsource.get_eq] at hstep
  split at hstep
  next habsent =>
    rw [if_pos habsent]
    exact hindexed.set_eq_ok hstep
  next hpresent =>
    rw [if_neg hpresent]
    cases hstep
    exact ⟨hindexed, rfl⟩

end MatrixCombination

/-! ## Lists of combinations -/

section Lists

variable {session : MatrixSession V}

open MatrixCombination

def RepresentAll (session : MatrixSession V)
    (combinations : List (MatrixCombination V)) (cells : List (MatrixCell V)) :
    Prop :=
  List.Forall₂ (Represents session) combinations cells

variable {combinations : List (MatrixCombination V)}
  {cells : List (MatrixCell V)}

theorem RepresentAll.entries_eq (hall : RepresentAll session combinations cells) :
    combinations.map MatrixCombination.entries = cells := by
  induction hall with
  | nil => rfl
  | cons hhead _ ih => rw [List.map_cons, ih, hhead.2]

theorem RepresentAll.distinct (hall : RepresentAll session combinations cells) :
    ∀ combination ∈ combinations, Distinct session.normalizeMatrixKey combination.entries := by
  induction hall with
  | nil => simp
  | cons hhead _ ih =>
    rw [List.forall_mem_cons]
    exact ⟨hhead.1.distinct, ih⟩

def productStep (session : MatrixSession V) (cells : List (MatrixCell V))
    (axis : String × List V) : List (MatrixCell V) :=
  cells.flatMap fun cell =>
    axis.2.map fun value =>
      put session.normalizeMatrixKey cell axis.1 value

variable {state next : ExpansionState V} {originals : List (MatrixCell V)}

theorem RepresentAll.expandAxis_eq_ok (hall : RepresentAll session state.combinations cells)
    {axis : String × List V} (hexpand : expandAxis session state axis = .ok next) :
    RepresentAll session next.combinations (productStep session cells axis) := by
  simp only [expandAxis, bind_eq_ok, pure_eq_ok] at hexpand
  obtain ⟨_, _, _, _, combinations, hset, rfl⟩ := hexpand
  have hpairs : List.Forall₂ (fun (pair : MatrixCombination V × V) cell =>
        ∃ before, Represents session pair.1 before ∧
          cell = put session.normalizeMatrixKey before axis.1 pair.2)
      (state.combinations.flatMap fun combination => axis.2.map fun value => (combination, value))
      (productStep session cells axis) := by
    refine List.rel_flatMap hall ?_
    intro combination cell hrepresents
    rw [List.forall₂_map_left_iff, List.forall₂_map_right_iff, List.forall₂_same]
    intro value _
    exact ⟨cell, hrepresents, rfl⟩
  refine mapM_relates ?_ hpairs hset
  rintro ⟨combination, value⟩ _ result ⟨_, ⟨hindexed, rfl⟩, rfl⟩ hresult
  exact hindexed.set_eq_ok hresult

theorem RepresentAll.filter (hall : RepresentAll session combinations cells)
    (patches : List (MatrixEntries V)) :
    RepresentAll session (combinations.filter fun combination =>
        !patches.any fun patch => combination.matchesPatch session patch)
      (cells.filter fun cell =>
        !patches.any (MatrixReference.excludes session cell)) := by
  refine List.rel_filter ?_ hall
  rintro combination _ ⟨hindexed, rfl⟩
  simp only [hindexed.matchesPatch_eq]

theorem RepresentAll.any_compatible (hall : RepresentAll session combinations cells)
    (patch : MatrixEntries V) :
    (combinations.any fun combination =>
        combination.includeCompatible session patch) =
      cells.any fun cell =>
        MatrixReference.compatible session cell patch := by
  induction hall with
  | nil => rfl
  | cons hhead _ ih =>
    obtain ⟨hindexed, rfl⟩ := hhead
    rw [List.any_cons, List.any_cons, ih, hindexed.includeCompatible_eq]

/-- One round of the inclusion loop: the extended and the standalone cells. -/
def includeStep (session : MatrixSession V) (originals : List (MatrixCell V))
    (state : List (MatrixCell V) × List (MatrixCell V))
    (patch : MatrixEntries V) : List (MatrixCell V) × List (MatrixCell V) :=
  (List.zipWith (fun original cell =>
        if MatrixReference.compatible session original patch then
          MatrixReference.extendBy session original cell patch
        else cell)
      originals state.1,
    if originals.any fun cell =>
        MatrixReference.compatible session cell patch then state.2
    else state.2 ++ [MatrixReference.standalone session patch])

variable {patch : MatrixEntries V}

theorem RepresentAll.extend_eq_ok {original front extended : List (MatrixCombination V)}
    (horiginal : RepresentAll session original originals)
    (hfront : RepresentAll session front cells)
    (hextended : (original.zip front).mapM (fun pair =>
      if pair.1.includeCompatible session patch then
        pair.2.mergeInclude pair.1 session patch
      else .ok pair.2) = .ok extended) :
    RepresentAll session extended (includeStep session originals (cells, []) patch).1 := by
  have hpairs : List.Forall₂ (fun (pair : MatrixCombination V × MatrixCombination V)
          (models : MatrixCell V × MatrixCell V) =>
        Represents session pair.1 models.1 ∧ Represents session pair.2 models.2)
      (original.zip front) (originals.zip cells) := by
    clear hextended
    induction horiginal generalizing front cells with
    | nil => simp
    | cons hhead _ ih =>
      cases hfront with
      | nil => simp
      | cons hfirst hrest => exact .cons ⟨hhead, hfirst⟩ (ih hrest)
  have hzip :
      (includeStep session originals (cells, []) patch).1 = (originals.zip cells).map fun models =>
          if MatrixReference.compatible session models.1 patch then
            MatrixReference.extendBy session models.1 models.2 patch
          else models.2 := by
    rw [includeStep, ← List.map_uncurry_zip_eq_zipWith]
    rfl
  rw [hzip, RepresentAll, List.forall₂_map_right_iff]
  refine mapM_relates ?_ hpairs hextended
  rintro ⟨source, current⟩ ⟨_, _⟩ result ⟨hsource, hcurrent⟩ hresult
  simp only [hsource.1.includeCompatible_eq] at hresult
  rw [hsource.2] at hresult
  split at hresult
  next hcompatible =>
    rw [if_pos hcompatible]
    exact hcurrent.mergeInclude_eq_ok hsource hresult
  next hincompatible =>
    rw [if_neg hincompatible]
    cases hresult
    exact hcurrent

theorem standaloneCombination_eq_ok {work next : Nat} {combination : MatrixCombination V}
    (hstandalone : standaloneCombination session work patch = .ok (combination, next)) :
    Represents session combination (MatrixReference.standalone session patch) := by
  refine foldlM_relates (fun (state : MatrixCombination V × Nat) cell =>
      Represents session state.1 cell) _ ?_ ⟨indexed_default, rfl⟩ hstandalone
  rintro state _ entry after ⟨hindexed, rfl⟩ hstep
  simp only [bind_eq_ok, pure_eq_ok] at hstep
  obtain ⟨_, _, _, hset, rfl⟩ := hstep
  exact hindexed.set_eq_ok hset

/-- What the inclusion loop keeps: the combinations are the extended cells
followed by the standalone ones, within the limit. -/
structure Includes (session : MatrixSession V) (expansionLimit : Nat)
    (originals : List (MatrixCell V)) (state : ExpansionState V)
    (cells : List (MatrixCell V) × List (MatrixCell V)) : Prop where
  representAll : RepresentAll session state.combinations (cells.1 ++ cells.2)
  length_eq : cells.1.length = originals.length
  bounded : state.combinations.length ≤ expansionLimit

theorem Includes.applyInclude_eq_ok {expansionLimit : Nat} {original : List (MatrixCombination V)}
    (horiginal : RepresentAll session original originals)
    {cells : List (MatrixCell V) × List (MatrixCell V)}
    (hstate : Includes session expansionLimit originals state cells)
    (hinclude : applyInclude session expansionLimit original state patch = .ok next) :
    Includes session expansionLimit originals next (includeStep session originals cells patch) := by
  obtain ⟨hall, hlength, hbounded⟩ := hstate
  obtain ⟨combinations, work⟩ := state
  obtain ⟨cells, alone⟩ := cells
  simp only at hall hlength hbounded
  -- the front of the combinations runs beside the originals
  have hfront := List.forall₂_take_append _ _ _ hall
  have hback := List.forall₂_drop_append _ _ _ hall
  have hcount : cells.length = original.length := by
    rw [hlength, horiginal.length_eq]
  rw [hcount] at hfront hback
  have hzip : original.zip combinations = original.zip (combinations.take original.length) := by
    calc original.zip combinations
        = (original ++ []).zip (combinations.take original.length ++
            combinations.drop original.length) := by
          rw [List.append_nil, List.take_append_drop]
      _ = original.zip (combinations.take original.length) ++
            [].zip (combinations.drop original.length) :=
          List.zip_append (hcount.symm.trans hfront.length_eq.symm)
      _ = original.zip (combinations.take original.length) := by simp
  have happlied : ((original.zip (combinations.take original.length)).any fun pair =>
        pair.1.includeCompatible session patch) =
      originals.any fun cell => MatrixReference.compatible session cell patch := by
    rw [← horiginal.any_compatible patch]
    have hfirst : (original.zip (combinations.take original.length)).map Prod.fst = original :=
      List.map_fst_zip (hcount.symm.trans hfront.length_eq.symm).le
    conv_rhs => rw [← hfirst, List.any_map]
    rfl
  simp only [applyInclude, extendCompatible, bind_eq_ok, pure_eq_ok, hzip, happlied] at hinclude
  obtain ⟨expanded, ⟨extended, hextended, rfl⟩, hinclude⟩ := hinclude
  have hfrontNext := horiginal.extend_eq_ok hfront hextended
  have hexpanded : RepresentAll session (extended ++ combinations.drop original.length)
      ((includeStep session originals (cells, alone) patch).1 ++ alone) :=
    List.rel_append hfrontNext hback
  have hcells : (includeStep session originals (cells, alone) patch).1.length =
      originals.length := by
    simp [includeStep, hlength]
  have hsize : (extended ++ combinations.drop original.length).length = combinations.length := by
    rw [hexpanded.length_eq, hall.length_eq, List.length_append,
      List.length_append, hcells, hlength]
  split at hinclude
  next hany =>
    simp only [pure_eq_ok] at hinclude
    subst hinclude
    have halone : (includeStep session originals (cells, alone) patch).2 = alone :=
      if_pos hany
    refine ⟨?_, hcells, hsize.trans_le hbounded⟩
    rw [halone]
    exact hexpanded
  next hnone =>
    simp only [bind_eq_ok, rejectIf_eq_ok, pure_eq_ok, not_le] at hinclude
    obtain ⟨_, hlimit, ⟨combination, total⟩, hstandalone, rfl⟩ := hinclude
    have halone :
        (includeStep session originals (cells, alone) patch).2 =
          alone ++ [MatrixReference.standalone session patch] :=
      if_neg hnone
    refine ⟨?_, hcells, ?_⟩
    · rw [halone, ← List.append_assoc]
      exact List.rel_append hexpanded (.cons (standaloneCombination_eq_ok hstandalone) .nil)
    · rw [List.length_append]
      exact hlimit

end Lists

/-! ## Loops as the reference semantics -/

section Loops

variable (session : MatrixSession V)

theorem foldl_productStep (axes : List (String × List V)) (hdistinct : (axes.map fun axis =>
      session.normalizeMatrixKey axis.1).Nodup)
    (cells : List (MatrixCell V))
    (hfresh : ∀ cell ∈ cells, ∀ axis ∈ axes, get session.normalizeMatrixKey cell axis.1 = none) :
    axes.foldl (productStep session) cells = cells.flatMap fun cell =>
        (MatrixReference.product axes).map fun rest => cell ++ rest := by
  induction axes generalizing cells with
  | nil => simp [MatrixReference.product]
  | cons axis rest ih =>
    rw [List.map_cons, List.nodup_cons] at hdistinct
    have hput (cell : MatrixCell V) (hcell : cell ∈ cells) (value : V) :
        put session.normalizeMatrixKey cell axis.1 value = cell ++ [(axis.1, value)] := by
      have hnone := hfresh cell hcell axis List.mem_cons_self
      simp [put, hnone]
    have hstep : productStep session cells axis = cells.flatMap fun cell =>
          axis.2.map fun value => cell ++ [(axis.1, value)] := by
      rw [productStep]
      apply List.flatMap_congr
      intro cell hcell
      apply List.map_congr_left
      intro value _
      exact hput cell hcell value
    rw [List.foldl_cons, hstep, ih hdistinct.2]
    · simp only [MatrixReference.product, List.flatMap_assoc, List.flatMap_map, List.map_flatMap,
        List.map_map, Function.comp_def, List.append_assoc, List.cons_append, List.nil_append]
    · intro extended hextended other hother
      obtain ⟨cell, hcell, hvalue⟩ := List.mem_flatMap.mp hextended
      obtain ⟨value, -, rfl⟩ := List.mem_map.mp hvalue
      rw [get_append, hfresh cell hcell other (List.mem_cons_of_mem _ hother), Option.none_or]
      apply get_cons_of_ne
      intro hsame
      apply hdistinct.1
      rw [hsame]
      exact List.mem_map_of_mem hother

theorem foldl_productStep_candidates (axes : List (String × List V))
    (hdistinct : (axes.map fun axis =>
      session.normalizeMatrixKey axis.1).Nodup) :
    axes.foldl (productStep session) (if axes.isEmpty then [] else [[]]) =
      MatrixReference.candidates axes := by
  cases axes with
  | nil => rfl
  | cons axis rest =>
    have hproduct := foldl_productStep session (axis :: rest) hdistinct [[]]
      (by simp [NormalizedEntries.get])
    simpa [MatrixReference.candidates] using hproduct

/-- The inclusion loop extends every cell by its compatible patches and adds
the patches which are compatible with none. -/
theorem foldl_includeStep (originals : List (MatrixCell V)) (patches : List (MatrixEntries V))
    (current : MatrixCell V → MatrixCell V) (alone : List (MatrixCell V)) :
    patches.foldl (includeStep session originals) (originals.map current, alone) =
      (originals.map fun original =>
        (patches.filter (MatrixReference.compatible session original)).foldl
          (MatrixReference.extendBy session original) (current original),
      alone ++ (patches.filter fun patch =>
        !originals.any fun cell =>
          MatrixReference.compatible session cell patch).map
        (MatrixReference.standalone session)) := by
  induction patches generalizing current alone with
  | nil => simp
  | cons patch rest ih =>
    have hextended :
        (includeStep session originals (originals.map current, alone) patch).1 =
        originals.map fun original =>
          if MatrixReference.compatible session original patch then
            MatrixReference.extendBy session original (current original) patch
          else current original := by
      rw [includeStep, List.zipWith_map_right, List.zipWith_self]
    rw [List.foldl_cons, ← Prod.eta (includeStep session originals _ patch), hextended, ih]
    refine Prod.ext ?_ ?_
    · apply List.map_congr_left
      intro original _
      rw [List.filter_cons]
      split
      next => rfl
      next => rfl
    · simp only [includeStep, List.filter_cons]
      cases hany : originals.any fun cell => MatrixReference.compatible session cell patch with
      | true => simp
      | false => simp

end Loops

/-- Whenever the expansion returns, it returns the cells of the reference
semantics, within the limit, and no cell repeats a normalized key. -/
theorem expandMatrix_eq_reference (session : MatrixSession V)
    (matrix : ResolvedMatrix V) (expansionLimit : Nat)
    (result : List (MatrixCombination V))
    (hexpand : expandMatrix matrix expansionLimit session = .ok result) :
    result.map MatrixCombination.entries = MatrixReference.cells session matrix ∧
      result.length ≤ expansionLimit ∧
      ∀ combination ∈ result, Distinct session.normalizeMatrixKey combination.entries := by
  simp only [expandMatrix, bind_eq_ok, rejectIf_eq_ok, not_not, not_lt, pure_eq_ok] at hexpand
  obtain ⟨_, hdistinct, product, hproduct, work, -, _, hlimit, includeWork, -,
    final, hfinal, rfl⟩ := hexpand
  have hcandidates : RepresentAll session product.combinations
      (MatrixReference.candidates matrix.axes) := by
    rw [← foldl_productStep_candidates session matrix.axes hdistinct]
    refine foldlM_relates (fun (state : ExpansionState V) cells =>
        RepresentAll session state.combinations cells)
      (productStep session) ?_ ?_ hproduct
    · intro state cells axis next hstate hnext
      exact hstate.expandAxis_eq_ok hnext
    · dsimp only
      split
      next => exact .nil
      next => exact .cons ⟨MatrixCombination.indexed_default, rfl⟩ .nil
  have hsurviving := hcandidates.filter matrix.excludePatches
  let originals := MatrixReference.surviving session matrix
  have hstart : Includes session expansionLimit originals
      ⟨product.combinations.filter fun combination => !matrix.excludePatches.any fun patch =>
          combination.matchesPatch session patch, includeWork⟩
      (originals.map id, []) := by
    refine ⟨?_, by simp, hlimit⟩
    rw [List.map_id, List.append_nil]
    exact hsurviving
  have hincluded := foldlM_relates (Includes session expansionLimit originals)
    (includeStep session originals)
    (fun _ _ _ _ hstate hnext => hstate.applyInclude_eq_ok hsurviving hnext)
    hstart hfinal
  rw [foldl_includeStep, List.nil_append] at hincluded
  exact ⟨hincluded.representAll.entries_eq, hincluded.bounded, hincluded.representAll.distinct⟩

namespace MatrixSample

def session : MatrixSession Nat :=
  { normalizeMatrixKey := id
    matrixValueMatches := fun left right => left == right
    matrixValuesEqual := fun left right => left == right }

def matrix : ResolvedMatrix Nat :=
  { axes := [("os", [1, 2]), ("node", [18, 20])]
    includePatches := [[("os", 1), ("lint", 7)], [("os", 3), ("node", 22)]]
    excludePatches := [[("os", 2), ("node", 18)]] }

end MatrixSample

theorem expandMatrix_eq_reference_two_axes :
    ∃ result, expandMatrix MatrixSample.matrix 4 MatrixSample.session = .ok result ∧
        result.map MatrixCombination.entries =
          MatrixReference.cells MatrixSample.session MatrixSample.matrix := by
  cases hexpand : expandMatrix MatrixSample.matrix 4 MatrixSample.session with
  | ok result => exact ⟨result, rfl, (expandMatrix_eq_reference _ _ _ _ hexpand).1⟩
  | error =>
    have hok : (expandMatrix MatrixSample.matrix 4 MatrixSample.session).isOk = true := by
      decide +kernel
    rw [hexpand] at hok
    cases hok

end AutomataCi
