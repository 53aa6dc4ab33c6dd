import AutomataCi.ExpressionTrees

/-!
# Flattening of logical operators

The compiler joins nested applications of one logical operator into one node
with a list of operands.  Evaluating the flat node gives what the lazy
evaluation of the binary tree gives, with the marks and the filter flag, and
evaluates the same operands in the same order.
-/

namespace AutomataCi

open GuardedResult

namespace GithubValue

variable (value : GithubValue)

theorem markSensitive_markSensitive : value.markSensitive.markSensitive = value.markSensitive := by
  cases value <;> rfl

theorem isSensitive_markSensitive : value.markSensitive.isSensitive = true := by
  cases value <;> simp [markSensitive, isExplicitlySensitive, isSensitive]

theorem isTruthy_markSensitive : value.markSensitive.isTruthy = value.isTruthy := by
  cases value <;> simp [markSensitive, isExplicitlySensitive, isTruthy]

theorem inheritSensitivity_inheritSensitivity (first second : Bool) :
    (value.inheritSensitivity first).inheritSensitivity second =
      value.inheritSensitivity (first || second) := by
  cases first <;> cases second <;> simp [inheritSensitivity, markSensitive_markSensitive]

theorem isSensitive_inheritSensitivity (sensitive : Bool) :
    (value.inheritSensitivity sensitive).isSensitive = (sensitive || value.isSensitive) := by
  cases sensitive <;> simp [inheritSensitivity, isSensitive_markSensitive]

theorem isTruthy_inheritSensitivity (sensitive : Bool) :
    (value.inheritSensitivity sensitive).isTruthy = value.isTruthy := by
  cases sensitive <;> simp [inheritSensitivity, isTruthy_markSensitive]

theorem stopsAt_inheritSensitivity (operator : ExpressionLogical) (sensitive : Bool) :
    stopsAt operator (value.inheritSensitivity sensitive) = stopsAt operator value := by
  cases operator <;> simp [stopsAt, isTruthy_inheritSensitivity]

end GithubValue

theorem Evaluated.inheritSensitivity_inheritSensitivity (evaluated : Evaluated)
    (first second : Bool) :
    (evaluated.inheritSensitivity first).inheritSensitivity second =
      evaluated.inheritSensitivity (first || second) := by
  simp [Evaluated.inheritSensitivity, GithubValue.inheritSensitivity_inheritSensitivity]

/-- A binary operator which looks at its right operand only if the left one
does not decide: a conjunction needs it after a truthy operand, a disjunction
after a falsy one.  The result is the last operand looked at, marked if one of
them is sensitive. -/
def lazyLogical (operator : ExpressionLogical) (left right : Operand) : EvaluationM Evaluated := do
  let left ← left
  let decides := match operator with
    | .and => !left.value.isTruthy
    | .or => left.value.isTruthy
  if decides then
    return left.inheritSensitivity left.value.isSensitive
  else
    let right ← right
    return right.inheritSensitivity (left.value.isSensitive || right.value.isSensitive)

def settle (operand : Operand) : EvaluationM Evaluated := do
  let evaluated ← operand
  return evaluated.inheritSensitivity evaluated.value.isSensitive

section Operands

variable {operator : ExpressionLogical} {sensitive : Bool} {last : Evaluated}

theorem lazyLogical_eq (left right : Operand) :
    lazyLogical operator left right = do
      let middle ← settle left
      if stopsAt operator middle.value then return middle
      else
        let final ← settle right
        return final.inheritSensitivity middle.value.isSensitive := by
  cases left with
  | error => rfl
  | ok left =>
    have hstops :
        stopsAt operator (left.inheritSensitivity left.value.isSensitive).value =
          stopsAt operator left.value :=
      left.value.stopsAt_inheritSensitivity operator _
    have hmark :
        (left.inheritSensitivity left.value.isSensitive).value.isSensitive =
          left.value.isSensitive := by
      simp [Evaluated.inheritSensitivity, GithubValue.isSensitive_inheritSensitivity]
    change (if stopsAt operator left.value then _ else _) = _
    simp only [settle, ok_bind, pure_bind, hstops, hmark]
    cases stopsAt operator left.value with
    | true => rfl
    | false =>
      cases right with
      | error => rfl
      | ok => simp [Evaluated.inheritSensitivity_inheritSensitivity, Bool.or_comm]

theorem isSensitive_inheritSensitivity
    (hsensitive : last.value.isSensitive = true → sensitive = true) :
    (last.inheritSensitivity sensitive).value.isSensitive = sensitive := by
  simp only [Evaluated.inheritSensitivity, GithubValue.isSensitive_inheritSensitivity]
  cases sensitive with
  | true => rfl
  | false =>
    rw [Bool.false_or, Bool.eq_false_iff]
    intro hmarked
    cases hsensitive hmarked

theorem sensitive_of_isSensitive (sensitive : Bool) (next : Evaluated) :
    next.value.isSensitive = true → (sensitive || next.value.isSensitive) = true := by
  intro hmarked
  rw [hmarked, Bool.or_true]

theorem settle_inheritSensitivity (hsensitive : last.value.isSensitive = true → sensitive = true) :
    settle (.ok (last.inheritSensitivity sensitive)) = .ok (last.inheritSensitivity sensitive) := by
  simp only [settle, ok_bind, isSensitive_inheritSensitivity hsensitive,
    Evaluated.inheritSensitivity_inheritSensitivity, Bool.or_self]
  rfl

theorem settle_logicalFrom (hsensitive : last.value.isSensitive = true → sensitive = true)
    (operands : List Operand) :
    settle (logicalFrom operator sensitive last operands) =
      logicalFrom operator sensitive last operands := by
  induction operands generalizing sensitive last with
  | nil => exact settle_inheritSensitivity hsensitive
  | cons operand rest ih =>
    cases operand with
    | error => rfl
    | ok next =>
      have hnext := sensitive_of_isSensitive sensitive next
      simp only [logicalFrom, ok_bind]
      split_ifs
      · exact settle_inheritSensitivity hnext
      · exact ih hnext

theorem settle_evaluateLogical (operands : List Operand) :
    settle (evaluateLogical operator operands) = evaluateLogical operator operands :=
  settle_logicalFrom (by simp [Evaluated.plain, GithubValue.isSensitive]) operands

theorem logicalFrom_or (before : Bool) (operands : List Operand) :
    logicalFrom operator (before || sensitive) last operands = (do
        let final ← logicalFrom operator sensitive last operands
        return final.inheritSensitivity before) := by
  induction operands generalizing sensitive last with
  | nil =>
    simp only [logicalFrom, ok_bind, Evaluated.inheritSensitivity_inheritSensitivity, Bool.or_comm]
    rfl
  | cons operand rest ih =>
    cases operand with
    | error => rfl
    | ok =>
      simp only [logicalFrom, ok_bind, Bool.or_assoc]
      split_ifs
      · simp only [pure_bind, Evaluated.inheritSensitivity_inheritSensitivity, Bool.or_comm]
      · exact ih

variable {first second operands : List Operand} {operand : Operand}

/-- The loop over a list of operands is that over its first part, followed by
the loop over the rest unless the first part has decided. -/
theorem logicalFrom_append (hsecond : second ≠ [])
    (hlast : first = [] → stopsAt operator last.value = false)
    (hsensitive : first = [] → last.value.isSensitive = true → sensitive = true) :
    logicalFrom operator sensitive last (first ++ second) = (do
        let middle ← logicalFrom operator sensitive last first
        if stopsAt operator middle.value then return middle
        else
          let final ← evaluateLogical operator second
          return final.inheritSensitivity middle.value.isSensitive) := by
  induction first generalizing sensitive last with
  | nil =>
    have hstops : stopsAt operator (last.inheritSensitivity sensitive).value = false :=
      (last.value.stopsAt_inheritSensitivity operator _).trans (hlast rfl)
    have hloop : logicalFrom operator (sensitive || false) last second = _ :=
      logicalFrom_or sensitive second
    cases second with
    | nil => exact absurd rfl hsecond
    | cons =>
      simp only [List.nil_append, logicalFrom.eq_1, ok_bind, hstops, Bool.false_eq_true, if_false,
        isSensitive_inheritSensitivity (hsensitive rfl)]
      rw [Bool.or_false] at hloop
      exact hloop
  | cons operand rest ih =>
    cases operand with
    | error => rfl
    | ok next =>
      have hnext := sensitive_of_isSensitive sensitive next
      simp only [List.cons_append, logicalFrom, ok_bind]
      cases hstops : stopsAt operator next.value with
      | true =>
        have hagain :
            stopsAt operator (next.inheritSensitivity
                (sensitive || next.value.isSensitive)).value = true :=
          (next.value.stopsAt_inheritSensitivity operator _).trans hstops
        simp only [if_true, pure_bind, hagain]
      | false =>
        simp only [Bool.false_eq_true, if_false]
        exact ih (fun _ => hstops) (fun _ => hnext)

theorem evaluateLogical_append (hfirst : first ≠ []) (hsecond : second ≠ []) :
    evaluateLogical operator (first ++ second) = (do
        let middle ← evaluateLogical operator first
        if stopsAt operator middle.value then return middle
        else
          let final ← evaluateLogical operator second
          return final.inheritSensitivity middle.value.isSensitive) :=
  logicalFrom_append hsecond (fun hnil => absurd hnil hfirst) (fun hnil => absurd hnil hfirst)

/-- The operands which an operand contributes below an operator: those of the
same operator, or itself. -/
def Contributes (operator : ExpressionLogical) (operand : Operand)
    (operands : List Operand) : Prop :=
  operands ≠ [] ∧ (operands = [operand] ∨ operand = evaluateLogical operator operands)

theorem settle_of_contributes (hcontributes : Contributes operator operand operands) :
    settle operand = evaluateLogical operator operands := by
  rcases hcontributes.2 with hself | hnested
  · rw [hself]
    cases operand with
    | error => rfl
    | ok =>
      simp only [settle, evaluateLogical, logicalFrom, ok_bind, Bool.false_or]
      split_ifs <;> rfl
  · rw [hnested, settle_evaluateLogical]

theorem evaluateLogical_of_contributes {left right : Operand} {lefts rights : List Operand}
    (hleft : Contributes operator left lefts)
    (hright : Contributes operator right rights) :
    evaluateLogical operator (lefts ++ rights) = lazyLogical operator left right := by
  rw [evaluateLogical_append hleft.1 hright.1, lazyLogical_eq,
    settle_of_contributes hleft, settle_of_contributes hright]

def continues (operator : ExpressionLogical) : Operand → Bool
  | .ok evaluated => !stopsAt operator evaluated.value
  | .error _ => false

theorem continues_inheritSensitivity :
    continues operator (.ok (last.inheritSensitivity sensitive)) = !stopsAt operator last.value :=
  congrArg not (last.value.stopsAt_inheritSensitivity operator sensitive)

theorem continues_settle (operand : Operand) :
    continues operator (settle operand) = continues operator operand := by
  cases operand with
  | error => rfl
  | ok => exact continues_inheritSensitivity

theorem continues_logicalFrom (operands : List Operand) :
    continues operator (logicalFrom operator sensitive last operands) =
      if operands = [] then !stopsAt operator last.value
      else operands.all (continues operator) := by
  induction operands generalizing sensitive last with
  | nil => exact continues_inheritSensitivity
  | cons operand rest ih =>
    cases operand with
    | error => rfl
    | ok next =>
      simp only [logicalFrom, ok_bind]
      cases hstops : stopsAt operator next.value with
      | true =>
        simp only [if_true, List.all_cons]
        rw [show continues operator (.ok next) = false by
          simp [continues, hstops], Bool.false_and]
        exact continues_inheritSensitivity.trans (by simp [hstops])
      | false =>
        simp only [Bool.false_eq_true, if_false, List.all_cons, ih]
        rw [show continues operator (.ok next) = true by
          simp [continues, hstops], hstops]
        cases rest <;> simp

theorem continues_of_contributes (hcontributes : Contributes operator operand operands) :
    continues operator operand = operands.all (continues operator) := by
  rw [← continues_settle, settle_of_contributes hcontributes, evaluateLogical,
    continues_logicalFrom, if_neg hcontributes.1]

end Operands

section Trees

variable (library : StandardLibrary) (limits : GithubExpressionLimits)
variable (context : GithubEvaluationContext)

mutual

def evaluateTree : ExpressionTree → EvaluationM Evaluated
  | .literal value => .ok (.plain value.toValue)
  | .namedValue name => do
      let value := (context.namedValue name).getD .null
      enforceValueLimits value limits
      return .plain value
  | .filter target => do
      let target ← evaluateTree target
      evaluateIndex library limits target none
  | .index target index => do
      let target ← evaluateTree target
      evaluateIndex library limits target (some (evaluateTree index))
  | .not operand => do
      let operand ← evaluateTree operand
      return .plain (negate operand.value)
  | .compare operator left right => do
      let left ← evaluateTree left
      let right ← evaluateTree right
      return .plain (markedBoolean (compareValues library operator left.value right.value)
        left.value right.value)
  | .logical operator left right => lazyLogical operator (evaluateTree left) (evaluateTree right)
  | .call name arguments => evaluateCall library limits context name (evaluateTrees arguments)

def evaluateTrees : List ExpressionTree → List Operand
  | [] => []
  | tree :: rest => evaluateTree tree :: evaluateTrees rest

end

/-- The operands of logical operators which the evaluation of a tree reaches,
in their order. -/
def evaluatedOperands : ExpressionTree → List ExpressionTree
  | .logical operator left right =>
    evaluatedOperands left ++
      if continues operator (evaluateTree library limits context left) then
        evaluatedOperands right
      else []
  | tree => [tree]

mutual

/-- The operands of logical operators which the evaluator reaches below a
node. -/
def evaluatedNodes : Node → List Node
  | .logical operator operands => evaluatedNodesOf operator operands
  | node => [node]

def evaluatedNodesOf (operator : ExpressionLogical) : List Node → List Node
  | [] => []
  | node :: rest =>
    evaluatedNodes node ++
      if continues operator (evaluateNode library limits context node) then
        evaluatedNodesOf operator rest
      else []

end

theorem evaluateNodes_eq_map (nodes : List Node) :
    evaluateNodes library limits context nodes =
      nodes.map (evaluateNode library limits context) := by
  induction nodes with
  | nil => rfl
  | cons node rest ih => rw [evaluateNodes, ih, List.map_cons]

theorem evaluateNode_index {target key : Node} (hkey : key ≠ .wildcard) :
    evaluateNode library limits context (.index target key) = (do
        let target ← evaluateNode library limits context target
        evaluateIndex library limits target (some (evaluateNode library limits context key))) := by
  cases key <;> first | rfl | exact absurd rfl hkey

variable {operator : ExpressionLogical}

theorem contributes_operandsBelow {ast : Ast} (hoperands : ast.operandsBelow operator ≠ []) :
    Contributes operator (evaluateNode library limits context ast.toNode)
      (evaluateNodes library limits context (Ast.toNodes (ast.operandsBelow operator))) := by
  rw [evaluateNodes_eq_map, Ast.toNodes_eq_map]
  constructor
  · simp [hoperands]
  · cases ast with
    | logicalNode other =>
      by_cases hsame : other = operator
      · right
        rw [hsame, Ast.operandsBelow, if_pos rfl, Ast.toNode, evaluateNode,
          evaluateNodes_eq_map, Ast.toNodes_eq_map]
      · left
        rw [Ast.operandsBelow, if_neg hsame]
        rfl
    | _ => exact .inl rfl

theorem evaluateNode_logical {left right : Ast} (hleft : left.operandsBelow operator ≠ [])
    (hright : right.operandsBelow operator ≠ []) :
    evaluateNode library limits context (Ast.logical operator [left, right]).toNode =
      lazyLogical operator (evaluateNode library limits context left.toNode)
        (evaluateNode library limits context right.toNode) := by
  rw [← evaluateLogical_of_contributes (contributes_operandsBelow library limits context hleft)
    (contributes_operandsBelow library limits context hright)]
  simp only [Ast.logical, Ast.toNode, evaluateNode, evaluateNodes_eq_map, Ast.toNodes_eq_map,
    List.flatMap_cons, List.flatMap_nil, List.append_nil, List.map_append]

theorem toNode_flatten_ne_wildcard (tree : ExpressionTree) : tree.flatten.toNode ≠ .wildcard := by
  have hflatten := tree.flatten_ne_wildcard
  cases hast : tree.flatten with
  | wildcard => exact absurd hast hflatten
  | _ => simp [Ast.toNode]

mutual

theorem evaluateNode_flatten : ∀ tree : ExpressionTree,
    evaluateNode library limits context tree.flatten.toNode =
      evaluateTree library limits context tree
  | .literal _ => rfl
  | .namedValue _ => rfl
  | .filter target => by
      simp only [ExpressionTree.flatten, Ast.toNode, evaluateNode,
        evaluateTree, evaluateNode_flatten target]
  | .index target key => by
      rw [ExpressionTree.flatten, Ast.toNode, evaluateNode_index library limits context
        (toNode_flatten_ne_wildcard key)]
      simp only [evaluateTree, evaluateNode_flatten target, evaluateNode_flatten key]
  | .not operand => by
      simp only [ExpressionTree.flatten, Ast.toNode, evaluateNode,
        evaluateTree, evaluateNode_flatten operand]
  | .compare operator left right => by
      simp only [ExpressionTree.flatten, Ast.toNode, evaluateNode,
        evaluateTree, evaluateNode_flatten left, evaluateNode_flatten right]
  | .logical operator left right => by
      rw [ExpressionTree.flatten, evaluateNode_logical library limits context
        (left.operandsBelow_flatten_ne_nil operator) (right.operandsBelow_flatten_ne_nil operator),
        evaluateTree, evaluateNode_flatten left, evaluateNode_flatten right]
  | .call name arguments => by
      rw [ExpressionTree.flatten, Ast.toNode, evaluateNode, evaluateTree,
        evaluateNodes_flattenAll arguments]

theorem evaluateNodes_flattenAll : ∀ trees : List ExpressionTree,
    evaluateNodes library limits context (Ast.toNodes (ExpressionTree.flattenAll trees)) =
      evaluateTrees library limits context trees
  | [] => rfl
  | tree :: rest => by
      rw [ExpressionTree.flattenAll, Ast.toNodes, evaluateNodes, evaluateTrees,
        evaluateNode_flatten tree, evaluateNodes_flattenAll rest]

end

theorem evaluatedNodesOf_append (operator : ExpressionLogical) (first second : List Node) :
    evaluatedNodesOf library limits context operator (first ++ second) =
      evaluatedNodesOf library limits context operator first ++
        if (evaluateNodes library limits context first).all (continues operator) then
          evaluatedNodesOf library limits context operator second
        else [] := by
  induction first with
  | nil => rfl
  | cons node rest ih =>
    simp only [List.cons_append, evaluatedNodesOf, evaluateNodes, List.all_cons, ih]
    by_cases hnode :
      continues operator (evaluateNode library limits context node) = true
    · simp [hnode]
    · simp [hnode]

theorem evaluatedNodesOf_operandsBelow (operator : ExpressionLogical) (ast : Ast) :
    evaluatedNodesOf library limits context operator (Ast.toNodes (ast.operandsBelow operator)) =
      evaluatedNodes library limits context ast.toNode := by
  have hsingle : ∀ node : Node, evaluatedNodesOf library limits context operator [node] =
        evaluatedNodes library limits context node := by
    intro node
    simp [evaluatedNodesOf]
  cases ast with
  | logicalNode other =>
    by_cases hsame : other = operator
    · rw [hsame, Ast.operandsBelow, if_pos rfl, Ast.toNode, evaluatedNodes]
    · rw [Ast.operandsBelow, if_neg hsame]
      exact hsingle _
  | _ => exact hsingle _

theorem evaluatedNodes_flatten : ∀ tree : ExpressionTree,
    evaluatedNodes library limits context tree.flatten.toNode =
      (evaluatedOperands library limits context tree).map fun operand => operand.flatten.toNode
  | .literal _ => rfl
  | .namedValue _ => rfl
  | .filter _ => rfl
  | .index _ _ => rfl
  | .not _ => rfl
  | .compare _ _ _ => rfl
  | .call _ _ => rfl
  | .logical operator left right => by
      have hcontributes := contributes_operandsBelow library limits context
        (left.operandsBelow_flatten_ne_nil operator)
      have hcontinues := continues_of_contributes hcontributes
      rw [evaluateNode_flatten] at hcontinues
      simp only [ExpressionTree.flatten, Ast.logical, Ast.toNode, evaluatedNodes, List.flatMap_cons,
        List.flatMap_nil, List.append_nil, Ast.toNodes_eq_map, List.map_append]
      simp only [← Ast.toNodes_eq_map, evaluatedNodesOf_append, evaluatedNodesOf_operandsBelow, ←
        hcontinues, evaluatedOperands, evaluatedNodes_flatten left, evaluatedNodes_flatten right]
      split_ifs <;> simp

/-- A compiled program is evaluated as the lazy evaluation of the tree of its
source, and the evaluation reaches the same operands in the same order. -/
theorem flattening_preserves_evaluation (tree : ExpressionTree) :
    (do
      let root ← compileTree tree.flatten.emit
      evaluateNode library limits context root) = evaluateTree library limits context tree ∧
    (do
      let root ← compileTree tree.flatten.emit
      return evaluatedNodes library limits context root :
        EvaluationM (List Node)) =
        .ok ((evaluatedOperands library limits context tree).map
          fun operand => operand.flatten.toNode) := by
  rw [compileTree_emit]
  constructor
  · exact evaluateNode_flatten library limits context tree
  · exact congrArg Except.ok (evaluatedNodes_flatten library limits context tree)

end Trees

end AutomataCi
