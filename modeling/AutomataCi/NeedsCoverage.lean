import AutomataCi.NeedsAnalysis

/-!
# What the analysis of references accounts for

A tree uses a context through paths of constant properties.  The analysis joins
paths of its own: it takes a negated string for the string, and it drops a path
whose next index is no constant.  It reports exactly the paths which it joins, and
a used path which it does not join is misread.
-/

namespace AutomataCi

open AnalysisNode GuardedResult TextOperations

section Keys

variable (library : StandardLibrary)

theorem toUpper_of_le {character : Char} (hother : 128 ≤ character.toNat) :
    character.toUpper = character := by
  have hlower : ¬(character.val ≥ 'a'.val ∧ character.val ≤ 'z'.val) := by
    intro hlower
    have hle : character.val.toNat ≤ 122 := UInt32.le_iff_toNat_le.mp hlower.2
    have hval : character.val.toNat = character.toNat := rfl
    omega
  delta Char.toUpper
  exact dif_neg hlower

theorem toNat_toUpper_lt {character : Char} (hascii : character.toNat < 128) :
    character.toUpper.toNat < 128 := by
  have hall : ∀ code < 128, (Char.ofNat code).toUpper.toNat < 128 := by decide
  have hchar := hall character.toNat hascii
  rwa [Char.ofNat_toNat] at hchar

theorem ordinalFoldCharacter_of_toUpper {left right : Char}
    (hupper : left.toUpper = right.toUpper) :
    ordinalFoldCharacter library left = ordinalFoldCharacter library right := by
  have hascii : ∀ character : Char, character.toNat < 128 →
      ordinalFoldCharacter library character = character.toUpper := by
    intro character hsmall
    have hfirst : character ≠ Char.ofNat 0x131 := by
      rintro rfl
      exact absurd hsmall (by decide)
    have hsecond : character ≠ Char.ofNat 0x17f := by
      rintro rfl
      exact absurd hsmall (by decide)
    rw [ordinalFoldCharacter, if_neg (not_or.mpr ⟨hfirst, hsecond⟩),
      library.toUppercase_ascii character hsmall]
  by_cases hleft : left.toNat < 128
  · have hright : right.toNat < 128 := by
      by_contra hlarge
      have hsame := toUpper_of_le (Nat.le_of_not_lt hlarge)
      have hsmall := toNat_toUpper_lt hleft
      rw [hupper, hsame] at hsmall
      exact hlarge hsmall
    rw [hascii left hleft, hascii right hright, hupper]
  · have hsame := toUpper_of_le (Nat.le_of_not_lt hleft)
    have hright : ¬right.toNat < 128 := by
      intro hsmall
      have hupperSmall := toNat_toUpper_lt hsmall
      rw [← hupper, hsame] at hupperSmall
      exact hleft hupperSmall
    have hother := toUpper_of_le (Nat.le_of_not_lt hright)
    rw [hsame, hother] at hupper
    rw [hupper]

theorem map_ordinalFold_of_map_toUpper {left right : Text}
    (hsame : left.map Char.toUpper = right.map Char.toUpper) :
    left.map (ordinalFoldCharacter library) = right.map (ordinalFoldCharacter library) := by
  induction left generalizing right with
  | nil =>
    have hright : right = [] := List.map_eq_nil_iff.mp hsame.symm
    rw [hright]
  | cons first left ih =>
    cases right with
    | nil => cases hsame
    | cons =>
      rw [List.map_cons, List.map_cons, List.cons.injEq] at hsame
      rw [List.map_cons, List.map_cons, ih hsame.2, ordinalFoldCharacter_of_toUpper library hsame.1]

theorem ordinalKey_of_sameIgnoringCase {left right : String}
    (hsame : sameIgnoringCase left.toList right.toList = true) :
    ordinalKey library left = ordinalKey library right :=
  map_ordinalFold_of_map_toUpper library (of_decide_eq_true hsame)

/-- Two paths which the lookup of the evaluator does not distinguish. -/
def SameKeys (left right : List String) : Prop :=
  left.map (ordinalKey library) = right.map (ordinalKey library)

end Keys

namespace ParsedNeedReference

def path (reference : ParsedNeedReference) : List String :=
  match reference.value with
  | .result => [reference.job, "result"]
  | .output name => [reference.job, "outputs", name]

end ParsedNeedReference

theorem sameKeys_of_needReference (library : StandardLibrary)
    {keys : List String} {reference : ParsedNeedReference}
    (hreference : needReference keys = some reference) :
    SameKeys library keys reference.path := by
  unfold needReference at hreference
  split at hreference
  · next job result =>
      split_ifs at hreference with hsame
      cases hreference
      have hkey := ordinalKey_of_sameIgnoringCase library hsame
      simp only [SameKeys, ParsedNeedReference.path, List.map_cons, hkey]
  · next job outputs output =>
      split_ifs at hreference with hsame
      cases hreference
      have hkey := ordinalKey_of_sameIgnoringCase library hsame
      simp only [SameKeys, ParsedNeedReference.path, List.map_cons, hkey]
  · cases hreference

/-- A path of `needs` is listed, or the use of `needs` is dynamic. -/
def AccountsFor (library : StandardLibrary) (references : Finset ParsedNeedReference)
    (dynamicNeeds : Bool) (path : List String) : Prop :=
  dynamicNeeds = true ∨ ∃ reference ∈ references, SameKeys library path.tail reference.path

/-- The path of a chain of constant properties which starts at a context. -/
def pathOf : Node → Option (List String)
  | .named name => some [name]
  | .index target (.literal (.string key)) => (pathOf target).map (· ++ [key])
  | _ => none

mutual

def uses : Node → List (List String)
  | .named name => [[name]]
  | .literal _ | .wildcard => []
  | .index target key =>
    match pathOf (.index target key) with
    | some path => [path]
    | none => uses target ++ uses key
  | .not operand => uses operand
  | .compare _ left right => uses left ++ uses right
  | .logical _ operands => usesAll operands
  | .call _ arguments => usesAll arguments

def usesAll : List Node → List (List String)
  | [] => []
  | node :: rest => uses node ++ usesAll rest

end

mutual

def misread : Node → List (List String)
  | .named _ | .literal _ | .wildcard => []
  | .index target key =>
    (match pathOf (.index target key) with
      | some _ => []
      | none => (pathOf target).toList) ++ misread target ++ misread key
  | .not operand => misread operand
  | .compare _ left right => misread left ++ misread right
  | .logical _ operands => misreadAll operands
  | .call _ arguments => misreadAll arguments

def misreadAll : List Node → List (List String)
  | [] => []
  | node :: rest => misread node ++ misreadAll rest

end

/-- The string which the analysis takes an index for: a negation keeps it. -/
def constantOf : Node → Option String
  | .literal (.string value) => some value
  | .not operand => constantOf operand
  | _ => none

/-- The path which the analysis joins from the constants of the indices. -/
def joinedPath : Node → Option (List String)
  | .named name => some [name]
  | .index target key =>
    match joinedPath target, constantOf key with
    | some path, some property => some (path ++ [property])
    | _, _ => none
  | _ => none

mutual

/-- The joined paths which end below a node. -/
def endedBelow : Node → List (List String)
  | .named _ | .literal _ | .wildcard => []
  | .index target key => endedBelow target ++ ((joinedPath key).toList ++ endedBelow key)
  | .not operand => (joinedPath operand).toList ++ endedBelow operand
  | .compare _ left right =>
    (joinedPath left).toList ++ endedBelow left ++ ((joinedPath right).toList ++ endedBelow right)
  | .logical _ operands => endedAll operands
  | .call _ arguments => endedAll arguments

def endedAll : List Node → List (List String)
  | [] => []
  | node :: rest => (joinedPath node).toList ++ endedBelow node ++ endedAll rest

end

/-- The joined paths of a whole tree. -/
def joins (node : Node) : List (List String) :=
  (joinedPath node).toList ++ endedBelow node

variable {target key node : Node} {path used : List String}

theorem pathOf_index_eq_some (hpath : pathOf (.index target key) = some path) :
    ∃ before last, key = .literal (.string last) ∧
      pathOf target = some before ∧ path = before ++ [last] := by
  unfold pathOf at hpath
  split at hpath
  next heq => cases heq
  next last heq =>
    cases heq
    obtain ⟨before, hbefore, hlast⟩ := Option.map_eq_some_iff.mp hpath
    exact ⟨before, last, rfl, hbefore, hlast.symm⟩
  next => cases hpath

theorem uses_of_pathOf (hpath : pathOf node = some path) : uses node = [path] := by
  cases node with
  | named =>
    cases hpath
    rw [uses]
  | index => rw [uses, hpath]
  | _ => cases hpath

theorem uses_index_of_none (hpath : pathOf (.index target key) = none) :
    uses (.index target key) = uses target ++ uses key := by
  rw [uses, hpath]

theorem misread_index_of_none (hpath : pathOf (.index target key) = none) :
    misread (.index target key) = (pathOf target).toList ++ misread target ++ misread key := by
  rw [misread, hpath]

theorem misread_of_pathOf (hpath : pathOf node = some path) : misread node = [] := by
  fun_induction pathOf node generalizing path with
  | case1 name => rw [misread]
  | case2 target key ih =>
    obtain ⟨before, hbefore, rfl⟩ := Option.map_eq_some_iff.mp hpath
    have hwhole : pathOf (.index target (.literal (.string key))) = some (before ++ [key]) := by
      rw [pathOf, hbefore]
      rfl
    rw [misread, hwhole, ih hbefore, misread]
    rfl
  | case3 node _ _ => cases hpath

theorem joinedPath_of_pathOf (hpath : pathOf node = some path) : joinedPath node = some path := by
  fun_induction pathOf node generalizing path with
  | case1 name => exact hpath
  | case2 target key ih =>
    obtain ⟨before, hbefore, rfl⟩ := Option.map_eq_some_iff.mp hpath
    rw [joinedPath, ih hbefore, constantOf]
  | case3 node _ _ => cases hpath

theorem joined_compare {operator : ExpressionComparison} {left right : Node} :
    joins (.compare operator left right) = joins left ++ joins right := rfl

theorem uses_of_constantOf {value : String} (hvalue : constantOf node = some value) :
    uses node = [] := by
  fun_induction constantOf node with
  | case1 => rw [uses]
  | case2 operand ih =>
    rw [uses]
    exact ih hvalue
  | case3 => cases hvalue

/-- A path which is joined through a negated string is misread. -/
theorem mem_misread_of_joinedPath (hpath : joinedPath node = some path) (hused : used ∈ uses node) :
    used ∈ (pathOf node).toList ∨ used ∈ misread node := by
  fun_induction joinedPath node generalizing path with
  | case1 name =>
    rw [uses] at hused
    exact .inl hused
  | case2 target key before property hproperty hbefore ih =>
    cases hplain : pathOf (.index target key) with
    | some plain =>
      rw [uses_of_pathOf hplain] at hused
      exact .inl hused
    | none =>
      rw [uses_index_of_none hplain, uses_of_constantOf hproperty, List.append_nil] at hused
      rw [misread_index_of_none hplain, List.mem_append, List.mem_append]
      exact .inr (.inl (ih hbefore hused))
  | case3 => cases hpath
  | case4 => cases hpath

mutual

/-- Every use is joined as it is used, or misread. -/
theorem misread_or_joined : ∀ {node : Node}, used ∈ uses node →
    used ∈ misread node ∨ used ∈ joins node
  | .named name, hused => by
      rw [uses] at hused
      exact .inr (List.mem_append_left _ hused)
  | .literal _, hused => by
      rw [uses] at hused
      cases hused
  | .wildcard, hused => by
      rw [uses] at hused
      cases hused
  | .index target key, hused => by
      cases hpath : pathOf (.index target key) with
      | some path =>
        rw [uses_of_pathOf hpath, List.mem_singleton] at hused
        right
        rw [joins, joinedPath_of_pathOf hpath, hused]
        exact List.mem_append_left _ List.mem_cons_self
      | none =>
        rw [uses_index_of_none hpath, List.mem_append] at hused
        rw [misread_index_of_none hpath, List.mem_append, List.mem_append, joins, endedBelow,
          List.mem_append, List.mem_append]
        rcases hused with htarget | hkey
        · rcases misread_or_joined htarget with hmisread | hjoined
          · exact .inl (.inl (.inr hmisread))
          · rcases List.mem_append.mp hjoined with hwhole | hended
            · left
              left
              exact mem_misread_of_joinedPath (Option.mem_toList.mp hwhole) htarget
            · exact .inr (.inr (.inl hended))
        · rcases misread_or_joined hkey with hmisread | hjoined
          · exact .inl (.inr hmisread)
          · exact .inr (.inr (.inr hjoined))
  | .not operand, hused => by
      rw [uses] at hused
      rw [misread, joins, endedBelow]
      exact misread_or_joined hused
  | .compare _ left right, hused => by
      rw [uses, List.mem_append] at hused
      rw [misread, joined_compare, List.mem_append]
      rcases hused with hleft | hright
      · exact (misread_or_joined hleft).imp .inl (List.mem_append_left _)
      · exact (misread_or_joined hright).imp .inr (List.mem_append_right _)
  | .logical _ operands, hused => by
      rw [uses] at hused
      rw [misread, joins, endedBelow]
      exact misread_or_joinedAll hused
  | .call _ arguments, hused => by
      rw [uses] at hused
      rw [misread, joins, endedBelow]
      exact misread_or_joinedAll hused

theorem misread_or_joinedAll : ∀ {nodes : List Node}, used ∈ usesAll nodes →
    used ∈ misreadAll nodes ∨ used ∈ endedAll nodes
  | [], hused => by
      rw [usesAll] at hused
      cases hused
  | node :: rest, hused => by
      rw [usesAll, List.mem_append] at hused
      rw [misreadAll, endedAll, List.mem_append]
      rcases hused with hfirst | hrest
      · exact (misread_or_joined hfirst).imp .inl (List.mem_append_left _)
      · exact (misread_or_joinedAll hrest).imp .inr (List.mem_append_right _)

end

mutual

theorem misread_subset_uses : ∀ {node : Node} {path : List String},
    path ∈ misread node → path ∈ uses node
  | .named _, path, hpath => by
      rw [misread] at hpath
      cases hpath
  | .literal _, path, hpath => by
      rw [misread] at hpath
      cases hpath
  | .wildcard, path, hpath => by
      rw [misread] at hpath
      cases hpath
  | .index target key, path, hpath => by
      cases hindex : pathOf (.index target key) with
      | some =>
        rw [misread_of_pathOf hindex] at hpath
        cases hpath
      | none =>
        rw [misread_index_of_none hindex, List.mem_append, List.mem_append] at hpath
        rw [uses_index_of_none hindex, List.mem_append]
        rcases hpath with (hnext | htarget) | hkey
        · have hinner : pathOf target = some path :=
            Option.mem_toList.mp hnext
          rw [uses_of_pathOf hinner]
          exact Or.inl List.mem_cons_self
        · exact Or.inl (misread_subset_uses htarget)
        · exact Or.inr (misread_subset_uses hkey)
  | .not operand, path, hpath => by
      rw [misread] at hpath
      rw [uses]
      exact misread_subset_uses hpath
  | .compare _ left right, path, hpath => by
      rw [misread, List.mem_append] at hpath
      rw [uses, List.mem_append]
      exact hpath.imp misread_subset_uses misread_subset_uses
  | .logical _ operands, path, hpath => by
      rw [misread] at hpath
      rw [uses]
      exact misreadAll_subset_usesAll hpath
  | .call _ arguments, path, hpath => by
      rw [misread] at hpath
      rw [uses]
      exact misreadAll_subset_usesAll hpath

theorem misreadAll_subset_usesAll : ∀ {nodes : List Node} {path : List String},
    path ∈ misreadAll nodes → path ∈ usesAll nodes
  | [], path, hpath => by
      rw [misreadAll] at hpath
      cases hpath
  | node :: rest, path, hpath => by
      rw [misreadAll, List.mem_append] at hpath
      rw [usesAll, List.mem_append]
      exact hpath.imp misread_subset_uses misreadAll_subset_usesAll

end

namespace AnalysisNode

/-- What a node reports: a reference, or that the use of `needs` is dynamic. -/
def Reports (node : AnalysisNode) : Option ParsedNeedReference → Prop
  | some reference => reference ∈ node.references
  | none => node.dynamicNeeds = true

variable {node first second : AnalysisNode} {nodes : List AnalysisNode}
  {report : Option ParsedNeedReference}

theorem finalizeNode_kept (node : AnalysisNode) :
    (finalizeNode node).path = none ∧
      (finalizeNode node).constantString = node.constantString := by
  unfold finalizeNode
  split
  · split_ifs
    · split <;> exact ⟨rfl, rfl⟩
    · exact ⟨rfl, rfl⟩
  · exact ⟨rfl, rfl⟩

theorem reports_finalizeNode :
    (finalizeNode node).Reports report ↔ node.Reports report ∨
      ∃ keys, "needs" :: keys ∈ node.path.toList ∧ report = needReference keys := by
  unfold finalizeNode
  split
  next root keys hpath =>
    by_cases hroot : root = "needs"
    · rw [if_pos hroot, hpath, hroot]
      cases hreference : needReference keys <;> cases report <;> simp [Reports, hreference, or_comm]
    · rw [if_neg hroot, hpath]
      cases report <;> simp [Reports, Ne.symm hroot]
  next hother =>
    have hnone : ∀ keys, node.path ≠ some ("needs" :: keys) := fun keys => hother "needs" keys
    cases report <;> simp [Reports, hnone]

def combine (combined node : AnalysisNode) : AnalysisNode :=
  { combined with
    references := combined.references ∪ node.references
    dynamicNeeds := combined.dynamicNeeds || node.dynamicNeeds }

theorem reports_combine :
    (combine first second).Reports report ↔ first.Reports report ∨ second.Reports report := by
  cases report <;> simp [Reports, combine]

theorem foldl_combine :
    (nodes.foldl combine first).path = first.path ∧
      (nodes.foldl combine first).constantString = first.constantString ∧
      ∀ report, (nodes.foldl combine first).Reports report ↔
        first.Reports report ∨ ∃ node ∈ nodes, node.Reports report := by
  induction nodes generalizing first with
  | nil => simp
  | cons node nodes ih =>
    obtain ⟨hpath, hconstant, hreports⟩ := @ih (combine first node)
    refine ⟨hpath, hconstant, fun report => ?_⟩
    simp [hreports, reports_combine, or_assoc]

theorem combineNodes_kept (nodes : List AnalysisNode) :
    (combineNodes nodes).path = none ∧ (combineNodes nodes).constantString = none :=
  ⟨foldl_combine.1, foldl_combine.2.1⟩

theorem reports_combineNodes :
    (combineNodes nodes).Reports report ↔ ∃ node ∈ nodes, node.Reports report := by
  have hempty : ¬empty.Reports report := by
    cases report <;> simp [Reports, empty]
  have hall := (@foldl_combine empty nodes).2.2 report
  rwa [or_iff_right hempty] at hall

theorem reports_indexNode (hsecond : second.path ≠ none → second.constantString = none) :
    (indexNode first second).Reports report ↔
      first.Reports report ∨ (finalizeNode second).Reports report := by
  unfold indexNode
  split
  next path property hpath hproperty =>
    have hnone : second.path = none := by
      by_contra hsome
      rw [hsecond hsome] at hproperty
      cases hproperty
    rw [reports_finalizeNode, hnone]
    cases report <;> simp [Reports]
  next =>
    simp only [reports_combineNodes, reports_finalizeNode, List.mem_cons, List.not_mem_nil,
      or_false, exists_eq_or_imp, exists_eq_left]
    cases report <;> simp [Reports]

end AnalysisNode

theorem constantOf_of_joinedPath (hpath : joinedPath node = some path) :
    constantOf node = none := by
  cases node with
  | literal | not => cases hpath
  | _ => rfl

theorem analyzeTree_kept : ∀ node : Node,
    (analyzeTree node).path = joinedPath node ∧
      (analyzeTree node).constantString = constantOf node
  | .named _ | .wildcard => by
      rw [analyzeTree]
      exact ⟨rfl, rfl⟩
  | .literal value => by cases value <;> exact ⟨rfl, rfl⟩
  | .index target key => by
      obtain ⟨hpath, hconstant⟩ := analyzeTree_kept target
      have hkey := (analyzeTree_kept key).2
      rw [analyzeTree, indexNode, joinedPath]
      simp only [hpath, hkey]
      cases hjoined : joinedPath target with
      | none => exact combineNodes_kept _
      | some path =>
        cases constantOf key with
        | none => exact combineNodes_kept _
        | some property => exact ⟨rfl, hconstant.trans (constantOf_of_joinedPath hjoined)⟩
  | .not operand => by
      obtain ⟨hpath, hconstant⟩ := finalizeNode_kept (analyzeTree operand)
      rw [analyzeTree, hpath, hconstant, (analyzeTree_kept operand).2]
      exact ⟨rfl, rfl⟩
  | .compare .. | .logical .. | .call .. => by
      rw [analyzeTree]
      exact combineNodes_kept _

/-- A path of `needs` among the given ones is the reason for a report. -/
def Reported (paths : List (List String)) (report : Option ParsedNeedReference) : Prop :=
  ∃ keys, "needs" :: keys ∈ paths ∧ report = needReference keys

variable {report : Option ParsedNeedReference}

theorem reported_append {first second : List (List String)} :
    Reported (first ++ second) report ↔ Reported first report ∨ Reported second report := by
  simp [Reported, or_and_right, exists_or]

theorem reported_joined
    (hbelow : (analyzeTree node).Reports report ↔ Reported (endedBelow node) report) :
    (finalizeNode (analyzeTree node)).Reports report ↔ Reported (joins node) report := by
  rw [reports_finalizeNode, hbelow, (analyzeTree_kept node).1, joins, reported_append, or_comm]
  rfl

mutual

theorem reports_analyzeTree : ∀ {node : Node},
    (analyzeTree node).Reports report ↔ Reported (endedBelow node) report
  | .named _ | .wildcard => by
      cases report <;> simp [analyzeTree, Reports, empty, Reported, endedBelow]
  | .literal value => by
      cases value <;> cases report <;> simp [analyzeTree, Reports, empty, Reported, endedBelow]
  | .index target key => by
      have hkey : (analyzeTree key).path ≠ none → (analyzeTree key).constantString = none := by
        intro hpath
        rw [(analyzeTree_kept key).1] at hpath
        obtain ⟨path, hpath⟩ := Option.ne_none_iff_exists'.mp hpath
        rw [(analyzeTree_kept key).2, constantOf_of_joinedPath hpath]
      rw [analyzeTree, endedBelow, reported_append, reports_indexNode hkey, reports_analyzeTree]
      exact or_congr_right (reported_joined reports_analyzeTree)
  | .not operand => by
      rw [analyzeTree, endedBelow]
      exact reported_joined reports_analyzeTree
  | .compare _ left right => by
      rw [analyzeTree, endedBelow, reported_append, reports_combineNodes]
      simp only [List.mem_cons, List.not_mem_nil, or_false, exists_eq_or_imp, exists_eq_left]
      exact or_congr (reported_joined reports_analyzeTree) (reported_joined reports_analyzeTree)
  | .logical _ operands | .call _ operands => by
      rw [analyzeTree, endedBelow, reports_combineNodes]
      simp only [List.mem_reverse]
      exact reports_analyzeTrees

theorem reports_analyzeTrees : ∀ {nodes : List Node},
    (∃ node ∈ analyzeTrees nodes, node.Reports report) ↔ Reported (endedAll nodes) report
  | [] => by simp [analyzeTrees, Reported, endedAll]
  | node :: rest => by
      rw [analyzeTrees, endedAll, reported_append, ← reports_analyzeTrees]
      simp only [List.mem_cons, exists_eq_or_imp]
      exact or_congr_left (reported_joined reports_analyzeTree)

end

end AutomataCi
