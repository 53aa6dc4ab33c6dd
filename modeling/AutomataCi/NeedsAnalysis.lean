import AutomataCi.ExpressionEvaluator
import Mathlib.Data.Finset.Basic

/-!
# The analysis of references to prerequisites

The compiler follows the paths of a program which start at a context, to find
the results and the outputs of prerequisites which the program needs.  Every
other use of `needs` is reported as dynamic.  The analysis runs over the
postfix program; it computes what a recursion over the tree computes.

The path of a target is given up when its index is not a constant string, and
a negated string keeps being a constant.
-/

namespace AutomataCi

open GuardedResult TextOperations

inductive ParsedNeedValue where
  | result
  | output (name : String)
  deriving DecidableEq, Repr

structure ParsedNeedReference where
  job : String
  value : ParsedNeedValue
  deriving DecidableEq, Repr

inductive ExpressionContext where
  | github | inputs | vars | needs | strategy | matrix | env | secrets | job | runner | steps | jobs
  deriving DecidableEq, Repr

def expressionContext : String → Option ExpressionContext
  | "github" => some .github
  | "inputs" => some .inputs
  | "vars" => some .vars
  | "needs" => some .needs
  | "strategy" => some .strategy
  | "matrix" => some .matrix
  | "env" => some .env
  | "secrets" => some .secrets
  | "job" => some .job
  | "runner" => some .runner
  | "steps" => some .steps
  | "jobs" => some .jobs
  | _ => none

structure AnalysisNode where
  path : Option (List String)
  constantString : Option String
  references : Finset ParsedNeedReference
  dynamicNeeds : Bool
  deriving DecidableEq

namespace AnalysisNode

def empty : AnalysisNode :=
  ⟨none, none, ∅, false⟩

def needReference : List String → Option ParsedNeedReference
  | [job, result] =>
    if sameIgnoringCase result.toList "result".toList then
      some ⟨job, .result⟩
    else none
  | [job, outputs, output] =>
    if sameIgnoringCase outputs.toList "outputs".toList then
      some ⟨job, .output output⟩
    else none
  | _ => none

def finalizeNode (node : AnalysisNode) : AnalysisNode :=
  match node.path with
  | some (root :: keys) =>
    if root = "needs" then
      match needReference keys with
      | some reference =>
        { node with
          path := none
          references := insert reference node.references }
      | none => { node with path := none, dynamicNeeds := true }
    else { node with path := none }
  | _ => { node with path := none }

def combineNodes (nodes : List AnalysisNode) : AnalysisNode :=
  nodes.foldl (fun combined node =>
      { combined with
        references := combined.references ∪ node.references
        dynamicNeeds := combined.dynamicNeeds || node.dynamicNeeds })
    empty

/-- Both the path and the constant have been taken from the nodes when they
are not joined. -/
def indexNode (target index : AnalysisNode) : AnalysisNode :=
  match target.path, index.constantString with
  | some path, some property =>
    { target with
      path := some (path ++ [property])
      references := target.references ∪ index.references
      dynamicNeeds := target.dynamicNeeds || index.dynamicNeeds }
  | _, _ =>
    combineNodes [finalizeNode { target with path := none },
      finalizeNode { index with constantString := none }]

end AnalysisNode

open AnalysisNode

def popAnalysis : List AnalysisNode → AnalysisNode × List AnalysisNode
  | [] => (empty, [])
  | node :: stack => (node, stack)

/-- The last nodes of the stack, the top first. -/
def popFinalized : Nat → List AnalysisNode → List AnalysisNode × List AnalysisNode
  | 0, stack => ([], stack)
  | count + 1, stack =>
    let (node, stack) := popAnalysis stack
    let (nodes, stack) := popFinalized count stack
    (finalizeNode node :: nodes, stack)

def pushAnalysis (stack : List AnalysisNode) : ExpressionInstruction → List AnalysisNode
  | .namedValue name => { empty with path := some [name] } :: stack
  | .literal (.string value) => { empty with constantString := some value } :: stack
  | .literal _ | .wildcard => empty :: stack
  | .index =>
    let (index, stack) := popAnalysis stack
    let (target, stack) := popAnalysis stack
    indexNode target index :: stack
  | .not =>
    let (node, stack) := popAnalysis stack
    finalizeNode node :: stack
  | .compare _ =>
    let (right, stack) := popAnalysis stack
    let (left, stack) := popAnalysis stack
    combineNodes [finalizeNode left, finalizeNode right] :: stack
  | .logical _ operandCount =>
    let (nodes, stack) := popFinalized operandCount stack
    combineNodes nodes :: stack
  | .call _ argumentCount =>
    let (nodes, stack) := popFinalized argumentCount stack
    combineNodes nodes :: stack

def instructionContext : ExpressionInstruction → Option ExpressionContext
  | .namedValue name => expressionContext name
  | _ => none

structure ProgramAnalysis where
  contexts : Finset ExpressionContext
  references : Finset ParsedNeedReference
  dynamicNeeds : Bool
  exactPath : Option (List String)
  deriving DecidableEq

def analyzeProgram (program : ExpressionProgram) : ProgramAnalysis :=
  let stack := program.instructions.foldl pushAnalysis []
  let root := (popAnalysis stack).1
  { contexts := (program.instructions.filterMap instructionContext).toFinset
    references := (finalizeNode root).references
    dynamicNeeds := (finalizeNode root).dynamicNeeds
    exactPath := root.path }

mutual

def analyzeTree : Node → AnalysisNode
  | .named name => { empty with path := some [name] }
  | .literal (.string value) => { empty with constantString := some value }
  | .literal _ | .wildcard => empty
  | .index target key => indexNode (analyzeTree target) (analyzeTree key)
  | .not operand => finalizeNode (analyzeTree operand)
  | .compare _ left right =>
    combineNodes [finalizeNode (analyzeTree left), finalizeNode (analyzeTree right)]
  | .logical _ operands => combineNodes (analyzeTrees operands).reverse
  | .call _ arguments => combineNodes (analyzeTrees arguments).reverse

def analyzeTrees : List Node → List AnalysisNode
  | [] => []
  | node :: rest => finalizeNode (analyzeTree node) :: analyzeTrees rest

end

theorem analyzeTrees_eq_map (nodes : List Node) :
    analyzeTrees nodes = nodes.map fun node => finalizeNode (analyzeTree node) := by
  induction nodes with
  | nil => rw [analyzeTrees, List.map_nil]
  | cons node rest ih => rw [analyzeTrees, ih, List.map_cons]

variable {count : Nat} {stack rest nodes stack' : List Node}
  {instructions : List ExpressionInstruction}

theorem popFinalized_of_le {stack : List AnalysisNode} (hcount : count ≤ stack.length) :
    popFinalized count stack = ((stack.take count).map finalizeNode, stack.drop count) := by
  induction count generalizing stack with
  | zero => rfl
  | succ count ih =>
    cases stack with
    | nil => exact absurd hcount (Nat.not_succ_le_zero _)
    | cons =>
      have hrest := ih (Nat.le_of_succ_le_succ hcount)
      simp [popFinalized, popAnalysis, hrest]

theorem analyzeTree_literal (literal : ExpressionLiteral) (stack : List AnalysisNode) :
    pushAnalysis stack (.literal literal) = analyzeTree (.literal literal.toValue) :: stack := by
  cases literal <;> rfl

theorem popNode_eq_ok {node : Node} (hpop : popNode stack = .ok (node, rest)) :
    stack = node :: rest := by
  cases stack with
  | nil => cases hpop
  | cons =>
    cases hpop
    rfl

theorem popNode_twice {others : List Node} {first second : Node}
    (hfirst : popNode stack = .ok (first, others)) (hsecond : popNode others = .ok (second, rest)) :
    stack = first :: second :: rest := by
  rw [popNode_eq_ok hfirst, popNode_eq_ok hsecond]

theorem popMany_eq_ok (hpop : popMany stack count = .ok (nodes, rest)) :
    count ≤ stack.length ∧ nodes = (stack.take count).reverse ∧ rest = stack.drop count := by
  simp only [popMany, bind_eq_ok, rejectIf_eq_ok, pure_eq_ok] at hpop
  obtain ⟨_, hcount, hnodes⟩ := hpop
  cases hnodes
  exact ⟨Nat.le_of_not_lt hcount, rfl, rfl⟩

theorem combine_popFinalized (hpop : popMany stack count = .ok (nodes, rest)) :
    popFinalized count (stack.map analyzeTree) =
      ((analyzeTrees nodes).reverse, rest.map analyzeTree) := by
  obtain ⟨hcount, rfl, rfl⟩ := popMany_eq_ok hpop
  have hlength : count ≤ (stack.map analyzeTree).length := by
    rw [List.length_map]
    exact hcount
  rw [popFinalized_of_le hlength, analyzeTrees_eq_map, List.map_reverse,
    List.reverse_reverse, ← List.map_take, List.map_map, List.map_drop]
  rfl

theorem pushAnalysis_eq {instruction : ExpressionInstruction}
    (hpush : pushInstruction stack instruction = .ok stack') :
    pushAnalysis (stack.map analyzeTree) instruction = stack'.map analyzeTree := by
  cases instruction with
  | literal literal =>
    cases hpush
    exact analyzeTree_literal literal _
  | namedValue =>
    cases hpush
    rw [List.map_cons, analyzeTree]
    rfl
  | wildcard =>
    cases hpush
    rw [List.map_cons, analyzeTree]
    rfl
  | index | compare =>
    simp only [pushInstruction, bind_eq_ok, pure_eq_ok] at hpush
    obtain ⟨⟨right, afterRight⟩, hright, ⟨left, rest⟩, hleft, rfl⟩ := hpush
    rw [popNode_twice hright hleft, List.map_cons, List.map_cons, List.map_cons, analyzeTree]
    rfl
  | not =>
    simp only [pushInstruction, bind_eq_ok, pure_eq_ok] at hpush
    obtain ⟨⟨operand, rest⟩, hoperand, rfl⟩ := hpush
    rw [popNode_eq_ok hoperand, List.map_cons, List.map_cons, analyzeTree]
    rfl
  | logical | call =>
    simp only [pushInstruction, bind_eq_ok, pure_eq_ok] at hpush
    obtain ⟨⟨operands, rest⟩, hoperands, rfl⟩ := hpush
    rw [List.map_cons, analyzeTree, pushAnalysis, combine_popFinalized hoperands]

theorem foldl_pushAnalysis (hpush : instructions.foldlM pushInstruction stack = .ok stack') :
    instructions.foldl pushAnalysis (stack.map analyzeTree) = stack'.map analyzeTree := by
  induction instructions generalizing stack with
  | nil =>
    cases hpush
    rfl
  | cons instruction rest ih =>
    rw [List.foldlM_cons, bind_eq_ok] at hpush
    obtain ⟨middle, hfirst, hrest⟩ := hpush
    rw [List.foldl_cons, pushAnalysis_eq hfirst]
    exact ih hrest

theorem compileTree_eq_ok {tree : Node} (htree : compileTree instructions = .ok tree) :
    instructions.foldlM pushInstruction [] = .ok [tree] := by
  rw [compileTree, bind_eq_ok] at htree
  obtain ⟨stack, hstack, hroot⟩ := htree
  cases stack with
  | nil => cases hroot
  | cons root rest =>
    cases rest with
    | nil =>
      cases hroot
      exact hstack
    | cons => cases hroot

theorem analyzeProgram_of_tree {program : ExpressionProgram} {tree : Node}
    (htree : compileTree program.instructions = .ok tree) :
    (analyzeProgram program).references = (finalizeNode (analyzeTree tree)).references ∧
      (analyzeProgram program).dynamicNeeds = (finalizeNode (analyzeTree tree)).dynamicNeeds := by
  have hstack := foldl_pushAnalysis (compileTree_eq_ok htree)
  unfold analyzeProgram
  rw [List.map_nil] at hstack
  rw [hstack]
  exact ⟨rfl, rfl⟩

end AutomataCi
