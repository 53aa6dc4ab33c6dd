import AutomataCi.NeedsCoverage

/-!
# Soundness of the analysis of references

The evaluation of a tree depends on the named values through the values at the
used paths only.  If a program is not dynamic and every misread path is listed,
then contexts which agree outside `needs` and at the listed references give the
same outcome, provided that the limits treat the two values of `needs` alike.
-/

namespace AutomataCi

open AnalysisNode GuardedResult TextOperations

section Lookup

variable (library : StandardLibrary)

def propertyOf (target : GithubValue) (key : String) : GithubValue :=
  let selected :=
    match target.withoutSensitivity with
    | .object _ entries => (GithubValue.getEntry library entries key).getD .null
    | .array _ values =>
      (((GithubValue.string key).arrayIndex library).bind fun position =>
        values[position]?).getD .null
    | _ => .null
  selected.inheritSensitivity target.isExplicitlySensitive

def lookup (value : GithubValue) (keys : List String) : GithubValue :=
  keys.foldl (propertyOf library) value

variable {library} {limits : GithubExpressionLimits}

theorem indexOne_string (target : GithubValue) (key : String) :
    indexOne library limits target (some (.string key)) =
      .ok (.plain (propertyOf library target key)) := by
  have hkey : (GithubValue.string key).primitiveIndexString library = some key := rfl
  unfold indexOne indexPayload propertyOf
  split <;> simp_all [Evaluated.inheritSensitivity, Evaluated.plain]

end Lookup

def nodeOf : List String → Node
  | [] => .wildcard
  | name :: keys =>
    keys.foldl (fun target key => .index target (.literal (.string key))) (.named name)

variable {path : List String}

theorem nodeOf_append (hpath : path ≠ []) (key : String) :
    nodeOf (path ++ [key]) = .index (nodeOf path) (.literal (.string key)) := by
  cases path with
  | nil => exact absurd rfl hpath
  | cons => simp [nodeOf]

theorem nodeOf_of_pathOf {node : Node} (hpath : pathOf node = some path) :
    path ≠ [] ∧ nodeOf path = node := by
  fun_induction pathOf node generalizing path with
  | case1 name =>
    cases hpath
    exact ⟨List.cons_ne_nil _ _, rfl⟩
  | case2 target key ih =>
    obtain ⟨before, hbefore, rfl⟩ := Option.map_eq_some_iff.mp hpath
    obtain ⟨hne, hnode⟩ := ih hbefore
    exact ⟨List.append_ne_nil_of_left_ne_nil hne _, by
      rw [nodeOf_append hne, hnode]⟩
  | case3 node _ _ => cases hpath

section Evaluation

variable {library : StandardLibrary} {limits : GithubExpressionLimits}
variable {first second : GithubEvaluationContext}

def keyOperand (library : StandardLibrary) (limits : GithubExpressionLimits)
    (context : GithubEvaluationContext) : Node → Option Operand
  | .wildcard => none
  | key => some (evaluateNode library limits context key)

theorem evaluateNode_keyOperand (context : GithubEvaluationContext) (target key : Node) :
    evaluateNode library limits context (.index target key) = (do
      let target ← evaluateNode library limits context target
      evaluateIndex library limits target (keyOperand library limits context key)) := by
  cases key <;> simp only [evaluateNode, keyOperand]

theorem evaluateIndex_string (context : GithubEvaluationContext)
    (value : GithubValue) (key : String) :
    evaluateIndex library limits (.plain value)
        (keyOperand library limits context (.literal (.string key))) =
      .ok (.plain (propertyOf library value key)) := by
  have hkey : keyOperand library limits context (.literal (.string key)) =
      some (.ok (.plain (.string key))) := by
    rw [keyOperand, evaluateNode]
    rintro ⟨⟩
  have hindex : indexOne library limits value (some (.string key)) =
      .ok (.plain (propertyOf library value key)) :=
    indexOne_string value key
  unfold evaluateIndex
  rw [hkey]
  show (do
    let result ← indexOne library limits value (some (.string key))
    return result.inheritSensitivity false) = _
  rw [hindex]
  rfl

theorem evaluateNode_keys {context : GithubEvaluationContext} {node : Node}
    {value root : GithubValue}
    (hnode : evaluateNode library limits context node = (do
      enforceValueLimits root limits
      return .plain value)) (keys : List String) :
    evaluateNode library limits context (keys.foldl
          (fun target key => .index target (.literal (.string key))) node) =
      (do
        enforceValueLimits root limits
        return .plain (lookup library value keys)) := by
  induction keys generalizing node value with
  | nil => exact hnode
  | cons key keys ih =>
    have hindex : evaluateNode library limits context (.index node (.literal (.string key))) = (do
          enforceValueLimits root limits
          return .plain (propertyOf library value key)) := by
      rw [evaluateNode_keyOperand, hnode, bind_assoc]
      refine bind_congr fun _ => ?_
      rw [pure_bind, evaluateIndex_string]
      rfl
    exact ih hindex

theorem evaluateNode_nodeOf (context : GithubEvaluationContext)
    (name : String) (keys : List String) :
    evaluateNode library limits context (nodeOf (name :: keys)) = (do
      enforceValueLimits ((context.namedValue name).getD .null) limits
      return .plain (lookup library ((context.namedValue name).getD .null) keys)) := by
  unfold nodeOf
  refine evaluateNode_keys ?_ keys
  rw [evaluateNode]

theorem evaluateCall_congr (hstatus : first.status = second.status)
    (hfunctions : first.functions = second.functions) (name : String)
    (operands : List Operand) :
    evaluateCall library limits first name operands =
      evaluateCall library limits second name operands := by
  unfold evaluateCall evaluateStrict applyFunction
  rw [hstatus, hfunctions]

mutual

theorem evaluateNode_congr (hstatus : first.status = second.status)
    (hfunctions : first.functions = second.functions) : ∀ {node : Node},
    (∀ path ∈ uses node, evaluateNode library limits first (nodeOf path) =
        evaluateNode library limits second (nodeOf path)) →
      evaluateNode library limits first node = evaluateNode library limits second node
  | .named name, huses => by
      have hpath : pathOf (.named name) = some [name] := rfl
      exact huses [name] (by rw [uses_of_pathOf hpath]; exact List.mem_cons_self)
  | .literal value, huses => by rw [evaluateNode, evaluateNode]
  | .wildcard, huses => by rw [evaluateNode, evaluateNode]
  | .index target key, huses => by
      cases hpath : pathOf (.index target key) with
      | some path =>
        have hsame := huses path (by
          rw [uses_of_pathOf hpath]
          exact List.mem_cons_self)
        rw [(nodeOf_of_pathOf hpath).2] at hsame
        exact hsame
      | none =>
        rw [uses_index_of_none hpath, List.forall_mem_append] at huses
        have htarget := evaluateNode_congr hstatus hfunctions huses.1
        have hkey := evaluateNode_congr hstatus hfunctions huses.2
        have hoperand : keyOperand library limits first key =
            keyOperand library limits second key := by
          unfold keyOperand
          split
          · rfl
          · rw [hkey]
        rw [evaluateNode_keyOperand, evaluateNode_keyOperand, htarget, hoperand]
  | .not operand, huses => by
      rw [uses] at huses
      rw [evaluateNode, evaluateNode, evaluateNode_congr hstatus hfunctions huses]
  | .compare operator left right, huses => by
      rw [uses, List.forall_mem_append] at huses
      have hleft := evaluateNode_congr hstatus hfunctions huses.1
      have hright := evaluateNode_congr hstatus hfunctions huses.2
      rw [evaluateNode, evaluateNode, hleft, hright]
  | .logical operator operands, huses => by
      rw [uses] at huses
      rw [evaluateNode, evaluateNode, evaluateNodes_congr hstatus hfunctions huses]
  | .call name arguments, huses => by
      rw [uses] at huses
      rw [evaluateNode, evaluateNode, evaluateNodes_congr hstatus hfunctions huses]
      exact evaluateCall_congr hstatus hfunctions name _

theorem evaluateNodes_congr (hstatus : first.status = second.status)
    (hfunctions : first.functions = second.functions) : ∀ {nodes : List Node},
    (∀ path ∈ usesAll nodes, evaluateNode library limits first (nodeOf path) =
        evaluateNode library limits second (nodeOf path)) →
      evaluateNodes library limits first nodes = evaluateNodes library limits second nodes
  | [], huses => by rw [evaluateNodes, evaluateNodes]
  | node :: rest, huses => by
      rw [usesAll, List.forall_mem_append] at huses
      have hnode := evaluateNode_congr hstatus hfunctions huses.1
      have hrest := evaluateNodes_congr hstatus hfunctions huses.2
      rw [evaluateNodes, evaluateNodes, hnode, hrest]

end

end Evaluation

section Names

/-- Every path of a tree starts at a name with some property. -/
def RootsIn (accepted : String → Prop) (node : Node) : Prop :=
  ∀ path ∈ uses node, ∃ name keys, path = name :: keys ∧ accepted name

variable {accepted : String → Prop}

theorem RootsIn.index {target key : Node} (htarget : RootsIn accepted target)
    (hkey : RootsIn accepted key) : RootsIn accepted (.index target key) := by
  intro path hpath
  cases hwhole : pathOf (.index target key) with
  | none =>
    rw [uses_index_of_none hwhole, List.mem_append] at hpath
    exact hpath.elim (htarget path) (hkey path)
  | some =>
    rw [uses_of_pathOf hwhole, List.mem_singleton] at hpath
    obtain ⟨before, last, -, hbefore, rfl⟩ := pathOf_index_eq_some hwhole
    have hmem : before ∈ uses target := by
      rw [uses_of_pathOf hbefore]
      exact List.mem_cons_self
    obtain ⟨name, keys, rfl, haccepted⟩ := htarget before hmem
    exact ⟨name, keys ++ [last], hpath, haccepted⟩

theorem mem_usesAll {nodes : List Node} {path : List String}
    (hpath : path ∈ usesAll nodes) : ∃ node ∈ nodes, path ∈ uses node := by
  induction nodes with
  | nil =>
    rw [usesAll] at hpath
    cases hpath
  | cons node rest ih =>
    rw [usesAll, List.mem_append] at hpath
    rcases hpath with hfirst | hrest
    · exact ⟨node, List.mem_cons_self, hfirst⟩
    · obtain ⟨other, hother, hused⟩ := ih hrest
      exact ⟨other, List.mem_cons_of_mem _ hother, hused⟩

variable {stack stack' : List Node} {instructions : List ExpressionInstruction}

theorem rootsIn_push {instruction : ExpressionInstruction}
    (hstack : ∀ node ∈ stack, RootsIn accepted node)
    (hname : ∀ name, instruction = .namedValue name → accepted name)
    (hpush : pushInstruction stack instruction = .ok stack') :
    ∀ node ∈ stack', RootsIn accepted node := by
  have hpopped : ∀ {rest nodes : List Node} {count : Nat}, popMany stack count = .ok (nodes, rest) →
        (∀ node ∈ rest, RootsIn accepted node) ∧ ∀ path ∈ usesAll nodes,
            ∃ name keys, path = name :: keys ∧ accepted name := by
    intro rest nodes count hpop
    obtain ⟨-, rfl, rfl⟩ := popMany_eq_ok hpop
    refine ⟨fun node hnode => hstack node (List.mem_of_mem_drop hnode), ?_⟩
    intro path hpath
    obtain ⟨node, hnode, hused⟩ := mem_usesAll hpath
    exact hstack node (List.mem_of_mem_take (List.mem_reverse.mp hnode)) path hused
  cases instruction with
  | literal | wildcard =>
    cases hpush
    refine List.forall_mem_cons.mpr ⟨?_, hstack⟩
    intro path hpath
    rw [uses] at hpath
    cases hpath
  | namedValue name =>
    cases hpush
    refine List.forall_mem_cons.mpr ⟨?_, hstack⟩
    intro path hpath
    rw [uses, List.mem_singleton] at hpath
    exact ⟨name, [], hpath, hname name rfl⟩
  | index =>
    simp only [pushInstruction, bind_eq_ok, pure_eq_ok] at hpush
    obtain ⟨⟨key, afterKey⟩, hkey, ⟨target, rest⟩, htarget, rfl⟩ := hpush
    rw [popNode_twice hkey htarget, List.forall_mem_cons, List.forall_mem_cons] at hstack
    obtain ⟨hkeyRoots, htargetRoots, hrest⟩ := hstack
    exact List.forall_mem_cons.mpr ⟨htargetRoots.index hkeyRoots, hrest⟩
  | not =>
    simp only [pushInstruction, bind_eq_ok, pure_eq_ok] at hpush
    obtain ⟨⟨operand, rest⟩, hoperand, rfl⟩ := hpush
    rw [popNode_eq_ok hoperand, List.forall_mem_cons] at hstack
    refine List.forall_mem_cons.mpr ⟨?_, hstack.2⟩
    intro path hpath
    rw [uses] at hpath
    exact hstack.1 path hpath
  | compare =>
    simp only [pushInstruction, bind_eq_ok, pure_eq_ok] at hpush
    obtain ⟨⟨right, afterRight⟩, hright, ⟨left, rest⟩, hleft, rfl⟩ := hpush
    rw [popNode_twice hright hleft, List.forall_mem_cons, List.forall_mem_cons] at hstack
    obtain ⟨hrightRoots, hleftRoots, hrest⟩ := hstack
    refine List.forall_mem_cons.mpr ⟨?_, hrest⟩
    intro path hpath
    rw [uses, List.mem_append] at hpath
    exact hpath.elim (hleftRoots path) (hrightRoots path)
  | logical | call =>
    simp only [pushInstruction, bind_eq_ok, pure_eq_ok] at hpush
    obtain ⟨⟨operands, rest⟩, hoperands, rfl⟩ := hpush
    obtain ⟨hrest, hroots⟩ := hpopped hoperands
    refine List.forall_mem_cons.mpr ⟨?_, hrest⟩
    intro path hpath
    rw [uses] at hpath
    exact hroots path hpath

theorem rootsIn_foldlM (hstack : ∀ node ∈ stack, RootsIn accepted node)
    (hnames : ∀ name, .namedValue name ∈ instructions → accepted name)
    (hpush : instructions.foldlM pushInstruction stack = .ok stack') :
    ∀ node ∈ stack', RootsIn accepted node := by
  induction instructions generalizing stack with
  | nil =>
    cases hpush
    exact hstack
  | cons instruction rest ih =>
    rw [List.foldlM_cons, bind_eq_ok] at hpush
    obtain ⟨middle, hfirst, hrest⟩ := hpush
    have hmiddle := rootsIn_push hstack
      (fun name hname => hnames name (hname ▸ List.mem_cons_self)) hfirst
    exact ih hmiddle (fun name hmem => hnames name (List.mem_cons_of_mem _ hmem)) hrest

theorem canonical_of_validateInstructions {state state' : ValidationState}
    (hvalid : ExpressionProgram.validateInstructions state instructions =
      .ok state') {name : String} (hname : .namedValue name ∈ instructions) :
    canonicalIdentifierSegment name = true := by
  induction instructions generalizing state with
  | nil => cases hname
  | cons instruction rest ih =>
    rw [ExpressionProgram.validateInstructions, List.foldlM_cons, bind_eq_ok] at hvalid
    obtain ⟨middle, hfirst, hrest⟩ := hvalid
    rcases List.mem_cons.mp hname with rfl | hmem
    · rw [validateInstruction, bind_eq_ok] at hfirst
      obtain ⟨_, hidentifier, -⟩ := hfirst
      rw [validateProgramIdentifier, rejectIf_eq_ok] at hidentifier
      exact eq_true_of_ne_false hidentifier
    · exact ih hrest hmem

theorem toLower_of_segment {character : Char}
    (hcharacter : (isLowercaseLetter character || character.isDigit ||
      character == '_' || character == '-') = true) :
    character.toLower = character := by
  have hall : ∀ code < 128, (isLowercaseLetter (Char.ofNat code) || (Char.ofNat code).isDigit ||
        Char.ofNat code == '_' || Char.ofNat code == '-') = true →
      (Char.ofNat code).toLower = Char.ofNat code := by
    decide
  have hascii : character.toNat < 128 := by
    simp only [isLowercaseLetter, Char.isDigit, Bool.or_eq_true,
      decide_eq_true_eq, beq_iff_eq, Bool.and_eq_true] at hcharacter
    rcases hcharacter with ((hletter | hdigit) | rfl) | rfl
    · exact Nat.lt_of_le_of_lt hletter.2 (by decide)
    · exact Nat.lt_of_le_of_lt (UInt32.le_iff_toNat_le.mp hdigit.2) (by decide)
    · decide
    · decide
  have hsame := hall character.toNat hascii
  rw [Char.ofNat_toNat] at hsame
  exact hsame hcharacter

theorem toLower_of_canonical {name : String} (hname : canonicalIdentifierSegment name = true) :
    name.map Char.toLower = name := by
  have hsegment : ∀ character ∈ name.toList, character.toLower = character := by
    unfold canonicalIdentifierSegment at hname
    split at hname
    next hempty => simp [hempty]
    next first rest hlist =>
      rw [Bool.and_eq_true, List.all_eq_true] at hname
      intro character hmem
      rw [hlist] at hmem
      rcases List.mem_cons.mp hmem with rfl | hrest
      · refine toLower_of_segment ?_
        have hfirst := hname.1
        simp only [Bool.or_eq_true] at hfirst ⊢
        rcases hfirst with hletter | hunderscore
        · exact Or.inl (Or.inl (Or.inl hletter))
        · exact Or.inl (Or.inr hunderscore)
      · exact toLower_of_segment (hname.2 character hrest)
  have hmap : name.toList.map Char.toLower = name.toList := by
    rw [List.map_congr_left hsegment, List.map_id']
  apply String.toList_injective
  rw [String.toList_map, hmap]

end Names

namespace GithubEvaluationContext

def needs (context : GithubEvaluationContext) : GithubValue :=
  (context.namedValue "needs").getD .null

/-- Two contexts which differ in `needs` only, and there not at the listed
references. -/
structure AgreeAt (library : StandardLibrary)
    (references : Finset ParsedNeedReference)
    (first second : GithubEvaluationContext) : Prop where
  status : first.status = second.status
  functions : first.functions = second.functions
  namedValue : ∀ name, name.map Char.toLower ≠ "needs" →
    first.namedValue name = second.namedValue name
  listed : ∀ reference ∈ references, ∀ keys, SameKeys library keys reference.path →
      lookup library first.needs keys = lookup library second.needs keys

end GithubEvaluationContext

namespace ExpressionProgram

/-- The paths of `needs` among those which are collected from a program's tree. -/
def needsPaths (collect : Node → List (List String)) (program : ExpressionProgram) :
    List (List String) :=
  match compileTree program.instructions with
  | .ok tree => (collect tree).filter fun path => path.head? = some "needs"
  | .error _ => []

def usedNeeds : ExpressionProgram → List (List String) :=
  needsPaths uses

def misreadNeeds : ExpressionProgram → List (List String) :=
  needsPaths misread

def joinedNeeds : ExpressionProgram → List (List String) :=
  needsPaths joins

/-- The analysis of a program lists a path, or reports the program as
dynamic. -/
def AccountsFor (library : StandardLibrary) (program : ExpressionProgram)
    (path : List String) : Prop :=
  AutomataCi.AccountsFor library (analyzeProgram program).references
    (analyzeProgram program).dynamicNeeds path

/-- Some path of `needs` is joined, and it is neither a result nor an output. -/
def JoinsOther (program : ExpressionProgram) : Prop :=
  ∃ path ∈ program.joinedNeeds, needReference path.tail = none

/-- Every misread path is the path of a result or of an output which is joined elsewhere. -/
def MisreadJoined (library : StandardLibrary) (program : ExpressionProgram) : Prop :=
  ∀ path ∈ program.misreadNeeds, ∃ other ∈ program.joinedNeeds,
    needReference other.tail ≠ none ∧ SameKeys library path.tail other.tail

variable {library : StandardLibrary} {limits : GithubExpressionLimits}
variable {program : ExpressionProgram} {tree : Node} {collect : Node → List (List String)}

theorem mem_needsPaths :
    path ∈ needsPaths collect program ↔ ∃ tree, compileTree program.instructions = .ok tree ∧
      path ∈ collect tree ∧ path.head? = some "needs" := by
  unfold needsPaths
  split
  next tree htree => simp [htree]
  next htree => simp [htree]

theorem reported_joined_iff {report : Option ParsedNeedReference}
    (htree : compileTree program.instructions = .ok tree) :
    Reported (joins tree) report ↔
      ∃ path ∈ program.joinedNeeds, report = needReference path.tail := by
  constructor
  · rintro ⟨keys, hkeys, hreport⟩
    exact ⟨"needs" :: keys, mem_needsPaths.mpr ⟨tree, htree, hkeys, rfl⟩, hreport⟩
  · rintro ⟨path, hpath, hreport⟩
    obtain ⟨_, hsame, hjoined, hroot⟩ := mem_needsPaths.mp hpath
    obtain rfl := Except.ok.inj (htree.symm.trans hsame)
    obtain ⟨keys, rfl⟩ := List.head?_eq_some_iff.mp hroot
    exact ⟨keys, hjoined, hreport⟩

theorem dynamicNeeds_iff (htree : compileTree program.instructions = .ok tree) :
    (analyzeProgram program).dynamicNeeds = true ↔ program.JoinsOther := by
  have hreports := reported_joined (@reports_analyzeTree none tree)
  simp only [reported_joined_iff htree, eq_comm (a := none)] at hreports
  rw [(analyzeProgram_of_tree htree).2]
  exact hreports

theorem mem_references_iff {reference : ParsedNeedReference}
    (htree : compileTree program.instructions = .ok tree) :
    reference ∈ (analyzeProgram program).references ↔
      ∃ path ∈ program.joinedNeeds, some reference = needReference path.tail := by
  rw [(analyzeProgram_of_tree htree).1, ← reported_joined_iff htree]
  exact reported_joined (@reports_analyzeTree (some reference) tree)

theorem misreadNeeds_subset (hpath : path ∈ program.misreadNeeds) : path ∈ program.usedNeeds := by
  obtain ⟨tree, htree, hmisread, hroot⟩ := mem_needsPaths.mp hpath
  exact mem_needsPaths.mpr ⟨tree, htree, misread_subset_uses hmisread, hroot⟩

theorem accountsFor_joined {other : List String}
    (htree : compileTree program.instructions = .ok tree) (hother : other ∈ program.joinedNeeds)
    (hkeys : SameKeys library path.tail other.tail) : program.AccountsFor library path := by
  cases hreference : needReference other.tail with
  | none => exact .inl ((dynamicNeeds_iff htree).mpr ⟨other, hother, hreference⟩)
  | some reference =>
    refine .inr ⟨reference, (mem_references_iff htree).mpr ⟨other, hother, hreference.symm⟩, ?_⟩
    exact hkeys.trans (sameKeys_of_needReference library hreference)

theorem accountsFor_used_iff :
    (∀ path ∈ program.usedNeeds, program.AccountsFor library path) ↔
      program.JoinsOther ∨ program.MisreadJoined library := by
  constructor
  · intro hused
    by_cases hother : program.JoinsOther
    · exact .inl hother
    · right
      intro path hpath
      obtain ⟨tree, htree, -⟩ := mem_needsPaths.mp hpath
      rcases hused path (misreadNeeds_subset hpath) with hdynamic | ⟨reference, hlisted, hkeys⟩
      · exact absurd ((dynamicNeeds_iff htree).mp hdynamic) hother
      · obtain ⟨other, hjoined, hreference⟩ := (mem_references_iff htree).mp hlisted
        refine ⟨other, hjoined, by simp [← hreference], ?_⟩
        exact hkeys.trans (sameKeys_of_needReference library hreference.symm).symm
  · intro hcondition path hpath
    obtain ⟨tree, htree, hused, hroot⟩ := mem_needsPaths.mp hpath
    rcases hcondition with hother | hmisread
    · exact .inl ((dynamicNeeds_iff htree).mpr hother)
    · rcases misread_or_joined hused with hmem | hjoined
      · obtain ⟨other, hother, -, hkeys⟩ :=
          hmisread path (mem_needsPaths.mpr ⟨tree, htree, hmem, hroot⟩)
        exact accountsFor_joined htree hother hkeys
      · exact accountsFor_joined htree (mem_needsPaths.mpr ⟨tree, htree, hjoined, hroot⟩) rfl

theorem canonical_of_validate (hvalid : program.validate = .ok ())
    {name : String} (hname : .namedValue name ∈ program.instructions) :
    canonicalIdentifierSegment name = true := by
  simp only [validate, bind_eq_ok] at hvalid
  obtain ⟨_, -, _, -, _, -, _, -, _, -, _, -, state, hstate, -⟩ := hvalid
  exact canonical_of_validateInstructions hstate hname

theorem evaluateNode_used {first second : GithubEvaluationContext}
    (hvalid : program.validate = .ok ())
    (htree : compileTree program.instructions = .ok tree)
    (haccounts : ∀ path ∈ program.usedNeeds, program.AccountsFor library path)
    (hdynamic : (analyzeProgram program).dynamicNeeds = false)
    (hagree : GithubEvaluationContext.AgreeAt library
      (analyzeProgram program).references first second)
    (hlimits : enforceValueLimits first.needs limits = enforceValueLimits second.needs limits) :
    ∀ path ∈ uses tree, evaluateNode library limits first (nodeOf path) =
        evaluateNode library limits second (nodeOf path) := by
  intro path hpath
  have hnone : ∀ node ∈ ([] : List Node),
      RootsIn (fun name => canonicalIdentifierSegment name = true) node :=
    fun node hnode => absurd hnode List.not_mem_nil
  have hroots := rootsIn_foldlM hnone (fun name hname => canonical_of_validate hvalid hname)
    (compileTree_eq_ok htree) tree List.mem_cons_self
  obtain ⟨name, keys, rfl, hcanonical⟩ := hroots path hpath
  rw [evaluateNode_nodeOf, evaluateNode_nodeOf]
  by_cases hname : name = "needs"
  · subst hname
    have hused : "needs" :: keys ∈ program.usedNeeds :=
      mem_needsPaths.mpr ⟨tree, htree, hpath, rfl⟩
    have hlisted : lookup library first.needs keys = lookup library second.needs keys := by
      rcases haccounts _ hused with htrue | ⟨reference, hreference, hkeys⟩
      · rw [hdynamic] at htrue
        cases htrue
      · exact hagree.listed reference hreference keys hkeys
    have hfirst : (first.namedValue "needs").getD .null = first.needs := rfl
    have hsecond : (second.namedValue "needs").getD .null = second.needs := rfl
    rw [hfirst, hsecond, hlimits, hlisted]
  · have hlower : name.map Char.toLower ≠ "needs" := by
      rw [toLower_of_canonical hcanonical]
      exact hname
    rw [hagree.namedValue name hlower]

/-- The analysis accounts for every use of `needs` exactly if it joins a path which is neither a
result nor an output, or joins every misread path elsewhere.  In the second case, and if the
program is not dynamic, contexts which agree at the listed references give the same outcome,
provided that the limits treat the two values of `needs` alike. -/
theorem needs_analysis_sound_iff (library : StandardLibrary)
    (program : ExpressionProgram) (hvalid : program.validate = .ok ()) :
    ((∀ path ∈ program.usedNeeds, program.AccountsFor library path) ↔
      program.JoinsOther ∨ program.MisreadJoined library) ∧
    (program.MisreadJoined library → (analyzeProgram program).dynamicNeeds = false →
      ∀ (limits : GithubExpressionLimits) (first second : GithubEvaluationContext),
        GithubEvaluationContext.AgreeAt library (analyzeProgram program).references first second →
        enforceValueLimits first.needs limits = enforceValueLimits second.needs limits →
        evaluate library limits first program = evaluate library limits second program) := by
  refine ⟨accountsFor_used_iff, ?_⟩
  intro hmisread hdynamic limits first second hagree hlimits
  have hused := accountsFor_used_iff.mpr (.inr hmisread)
  unfold evaluate
  cases htree : compileTree program.instructions with
  | error => rfl
  | ok =>
    have hsame := evaluateNode_congr hagree.status hagree.functions
      (evaluateNode_used hvalid htree hused hdynamic hagree hlimits)
    rw [ok_bind, ok_bind, hsame]

namespace NeedsSample

def asciiLibrary : StandardLibrary where
  toUppercase := fun character => [character.toUpper]
  parseFloat := fun _ => none
  formatExponent := fun _ _ => ""
  formatFixed := fun _ _ => ""
  readJson := fun _ => (.malformed, false)
  quoteJson := fun value => value
  toUppercase_ascii := fun _ _ => rfl
  toUppercase_other := by
    intro character upper hother _ _ hupper
    rw [toUpper_of_le hother] at hupper
    cases hupper
    exact hother

def sampleLimits : GithubExpressionLimits where
  resultBytes := 1000
  collectionItems := 100
  valueDepth := 10
  resultBytes_bounds := by decide
  collectionItems_bounds := by decide
  valueDepth_bounds := by decide

def text (value : String) : ExpressionInstruction :=
  .literal (.string value)

def programOf (source : String) (instructions : List ExpressionInstruction) :
    ExpressionProgram where
  schemaVersion := expressionProgramSchemaVersion
  dialect := ⟨dialectName, dialectVersion⟩
  source
  instructions

def exact : ExpressionProgram :=
  programOf "needs.build.result || needs.build.RESULT[inputs.dependency]"
    [.namedValue "needs", text "build", .index, text "result", .index,
      .namedValue "needs", text "build", .index, text "RESULT", .index,
      .namedValue "inputs", text "dependency", .index, .index, .logical .or 2]

def computed : ExpressionProgram :=
  programOf "needs[inputs.dependency].result"
    [.namedValue "needs", .namedValue "inputs", text "dependency", .index,
      .index, text "result", .index]

def contextOf (result output : String) : GithubEvaluationContext where
  namedValue := fun name =>
    if name.map Char.toLower = "needs" then
      some (.object none [("build", .object none
        [("result", .string result), ("outputs", .object none [("version", .string output)])])])
    else if name.map Char.toLower = "inputs" then
      some (.object none [("dependency", .string "build")])
    else none
  status := .success
  functions := fun _ _ => none

theorem agreeAt_contextOf {references : Finset ParsedNeedReference}
    {first second : GithubEvaluationContext}
    (hfirst : ∃ result output, first = contextOf result output)
    (hsecond : ∃ result output, second = contextOf result output)
    (hlisted : ∀ reference ∈ references, ∀ keys, SameKeys asciiLibrary keys reference.path →
        lookup asciiLibrary first.needs keys = lookup asciiLibrary second.needs keys) :
    first.AgreeAt asciiLibrary references second := by
  obtain ⟨result, output, rfl⟩ := hfirst
  obtain ⟨result', output', rfl⟩ := hsecond
  refine ⟨rfl, rfl, fun name hname => ?_, hlisted⟩
  simp only [contextOf, if_neg hname]

theorem needs_contextOf (result output : String) :
    (contextOf result output).needs = .object none [("build", .object none
      [("result", .string result), ("outputs", .object none [("version", .string output)])])] := by
  have hname : "needs".map Char.toLower = "needs" := by decide +kernel
  simp only [GithubEvaluationContext.needs, contextOf, if_pos hname, Option.getD_some]

theorem listed_result {result first second : String} {keys : List String}
    (hkeys : SameKeys asciiLibrary keys ["build", "result"]) :
    lookup asciiLibrary (contextOf result first).needs keys =
      lookup asciiLibrary (contextOf result second).needs keys := by
  have hlength := congrArg List.length hkeys
  simp only [List.length_map, List.length_cons, List.length_nil] at hlength
  obtain ⟨job, value, rfl⟩ := List.length_eq_two.mp hlength
  simp only [SameKeys, List.map_cons, List.map_nil, List.cons.injEq, and_true] at hkeys
  simp only [needs_contextOf, lookup, List.foldl_cons, List.foldl_nil, propertyOf,
    GithubValue.withoutSensitivity, GithubValue.getEntry, List.find?_cons, hkeys.1, hkeys.2,
    decide_true, Option.map_some, Option.getD_some, GithubValue.isExplicitlySensitive,
    GithubValue.inheritSensitivity, Bool.false_eq_true, if_false]

end NeedsSample

open NeedsSample

theorem needs_analysis_sound_iff_exact :
    (analyzeProgram exact).references = {⟨"build", .result⟩} ∧
      evaluate asciiLibrary sampleLimits (contextOf "success" "1") exact =
        evaluate asciiLibrary sampleLimits (contextOf "success" "2") exact := by
  have hreferences : (analyzeProgram exact).references = {⟨"build", .result⟩} := by decide +kernel
  have hmisread : exact.misreadNeeds = [["needs", "build", "RESULT"]] := by decide +kernel
  refine ⟨hreferences, (needs_analysis_sound_iff asciiLibrary exact (by decide +kernel)).2
      (fun path hpath => ?_) (by decide +kernel) sampleLimits _ _
      (agreeAt_contextOf ⟨_, _, rfl⟩ ⟨_, _, rfl⟩ ?_) (by decide +kernel)⟩
  · rw [hmisread, List.mem_singleton] at hpath
    rw [hpath]
    exact ⟨["needs", "build", "result"], by decide +kernel, by decide +kernel, rfl⟩
  · intro reference hreference keys hkeys
    rw [hreferences, Finset.mem_singleton] at hreference
    rw [hreference] at hkeys
    exact listed_result hkeys

/-- The path of `needs` is given up at the computed index: nothing is listed
and nothing is dynamic, and the outcome is the result of a prerequisite. -/
theorem computed_index_not_listed :
    computed.validate = .ok () ∧ (analyzeProgram computed).dynamicNeeds = false ∧
      (analyzeProgram computed).references = ∅ ∧
      (contextOf "success" "1").AgreeAt asciiLibrary
        (analyzeProgram computed).references (contextOf "failure" "1") ∧
      (evaluate asciiLibrary sampleLimits (contextOf "success" "1")
        computed).toOption.map (GithubValue.toString asciiLibrary) = some "success" ∧
      (evaluate asciiLibrary sampleLimits (contextOf "failure" "1")
        computed).toOption.map (GithubValue.toString asciiLibrary) = some "failure" := by
  have hreferences : (analyzeProgram computed).references = ∅ := by decide +kernel
  refine ⟨by decide +kernel, by decide +kernel, hreferences,
    agreeAt_contextOf ⟨_, _, rfl⟩ ⟨_, _, rfl⟩ ?_, by decide +kernel,
    by decide +kernel⟩
  intro reference hreference
  rw [hreferences] at hreference
  exact absurd hreference (Finset.notMem_empty _)

end ExpressionProgram

end AutomataCi
