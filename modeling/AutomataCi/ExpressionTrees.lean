import AutomataCi.ExpressionEvaluator

/-!
# Expression trees

The tree which the expression compiler builds, and its postfix encoding.  The
source text determines a tree with binary operators; the compiler joins the
operands of a logical operator with those of an operand which has the same
operator.  The evaluator recovers from the encoding what was encoded.
-/

namespace AutomataCi

open GuardedResult

inductive Ast where
  | literal (value : ExpressionLiteral)
  | namedValue (name : String)
  | wildcard
  | index (target index : Ast)
  | not (operand : Ast)
  | compare (operator : ExpressionComparison) (left right : Ast)
  | logicalNode (operator : ExpressionLogical) (operands : List Ast)
  | call (name : String) (arguments : List Ast)
  deriving Repr

namespace Ast

def operandsBelow (operator : ExpressionLogical) : Ast → List Ast
  | .logicalNode nestedOperator nested =>
    if nestedOperator = operator then nested
    else [.logicalNode nestedOperator nested]
  | operand => [operand]

def logical (operator : ExpressionLogical) (operands : List Ast) : Ast :=
  .logicalNode operator (operands.flatMap (operandsBelow operator))

mutual

def emit : Ast → List ExpressionInstruction
  | .literal value => [.literal value]
  | .namedValue name => [.namedValue name]
  | .wildcard => [.wildcard]
  | .index target key => target.emit ++ key.emit ++ [.index]
  | .not operand => operand.emit ++ [.not]
  | .compare operator left right => left.emit ++ right.emit ++ [.compare operator]
  | .logicalNode operator operands => emitAll operands ++ [.logical operator operands.length]
  | .call name arguments => emitAll arguments ++ [.call name arguments.length]

def emitAll : List Ast → List ExpressionInstruction
  | [] => []
  | ast :: rest => ast.emit ++ emitAll rest

end

mutual

def toNode : Ast → Node
  | .literal value => .literal value.toValue
  | .namedValue name => .named name
  | .wildcard => .wildcard
  | .index target key => .index target.toNode key.toNode
  | .not operand => .not operand.toNode
  | .compare operator left right => .compare operator left.toNode right.toNode
  | .logicalNode operator operands => .logical operator (toNodes operands)
  | .call name arguments => .call name (toNodes arguments)

def toNodes : List Ast → List Node
  | [] => []
  | ast :: rest => ast.toNode :: toNodes rest

end

theorem toNodes_eq_map (asts : List Ast) : toNodes asts = asts.map toNode := by
  induction asts with
  | nil => rfl
  | cons ast rest ih => rw [toNodes, ih, List.map_cons]

theorem length_toNodes (asts : List Ast) : (toNodes asts).length = asts.length := by
  rw [toNodes_eq_map, List.length_map]

end Ast

section Encoding

variable {stack : List Node}

theorem popMany_append (nodes : List Node) :
    popMany (nodes.reverse ++ stack) nodes.length = .ok (nodes, stack) := by
  have hlength : nodes.reverse.length = nodes.length := List.length_reverse
  unfold popMany
  rw [rejectIf_of_not _ (by simp), ← hlength, List.take_left, List.drop_left, List.reverse_reverse]
  rfl

mutual

theorem foldlM_emit : ∀ (ast : Ast) (stack : List Node),
    ast.emit.foldlM pushInstruction stack = .ok (ast.toNode :: stack)
  | .literal value, stack => rfl
  | .namedValue name, stack => rfl
  | .wildcard, stack => rfl
  | .index target index, stack => by
      rw [Ast.emit, List.foldlM_append, List.foldlM_append, foldlM_emit target stack]
      show (index.emit.foldlM pushInstruction _ >>= _) = _
      rw [foldlM_emit index]
      rfl
  | .not operand, stack => by
      rw [Ast.emit, List.foldlM_append, foldlM_emit operand stack]
      rfl
  | .compare operator left right, stack => by
      rw [Ast.emit, List.foldlM_append, List.foldlM_append, foldlM_emit left stack]
      show (right.emit.foldlM pushInstruction _ >>= _) = _
      rw [foldlM_emit right]
      rfl
  | .logicalNode operator operands, stack => by
      rw [Ast.emit, List.foldlM_append, foldlM_emitAll operands stack, ok_bind, List.foldlM_cons,
        pushInstruction, ← Ast.length_toNodes operands, popMany_append]
      rfl
  | .call name arguments, stack => by
      rw [Ast.emit, List.foldlM_append, foldlM_emitAll arguments stack, ok_bind, List.foldlM_cons,
        pushInstruction, ← Ast.length_toNodes arguments, popMany_append]
      rfl

theorem foldlM_emitAll : ∀ (asts : List Ast) (stack : List Node),
    (Ast.emitAll asts).foldlM pushInstruction stack = .ok ((Ast.toNodes asts).reverse ++ stack)
  | [], stack => rfl
  | ast :: rest, stack => by
      rw [Ast.emitAll, List.foldlM_append, foldlM_emit ast stack]
      show (Ast.emitAll rest).foldlM pushInstruction _ = _
      rw [foldlM_emitAll rest, Ast.toNodes, List.reverse_cons, List.append_assoc]
      rfl

end

theorem compileTree_emit (ast : Ast) : compileTree ast.emit = .ok ast.toNode := by
  unfold compileTree
  rw [foldlM_emit ast []]
  rfl

end Encoding

/-- The tree of a source text.  The marker of a filter stands only in the place
of an index. -/
inductive ExpressionTree where
  | literal (value : ExpressionLiteral)
  | namedValue (name : String)
  | filter (target : ExpressionTree)
  | index (target index : ExpressionTree)
  | not (operand : ExpressionTree)
  | compare (operator : ExpressionComparison) (left right : ExpressionTree)
  | logical (operator : ExpressionLogical) (left right : ExpressionTree)
  | call (name : String) (arguments : List ExpressionTree)
  deriving Repr

namespace ExpressionTree

mutual

/-- What the compiler builds, with identical logical operators flattened. -/
def flatten : ExpressionTree → Ast
  | .literal value => .literal value
  | .namedValue name => .namedValue name
  | .filter target => .index target.flatten .wildcard
  | .index target key => .index target.flatten key.flatten
  | .not operand => .not operand.flatten
  | .compare operator left right => .compare operator left.flatten right.flatten
  | .logical operator left right => Ast.logical operator [left.flatten, right.flatten]
  | .call name arguments => .call name (flattenAll arguments)

def flattenAll : List ExpressionTree → List Ast
  | [] => []
  | tree :: rest => tree.flatten :: flattenAll rest

end

theorem flatten_ne_wildcard (tree : ExpressionTree) : tree.flatten ≠ .wildcard := by
  cases tree <;> simp [flatten, Ast.logical]

theorem operandsBelow_flatten_ne_nil (operator : ExpressionLogical) :
    ∀ tree : ExpressionTree, tree.flatten.operandsBelow operator ≠ []
  | .literal _ => by simp [flatten, Ast.operandsBelow]
  | .namedValue _ => by simp [flatten, Ast.operandsBelow]
  | .filter _ => by simp [flatten, Ast.operandsBelow]
  | .index _ _ => by simp [flatten, Ast.operandsBelow]
  | .not _ => by simp [flatten, Ast.operandsBelow]
  | .compare _ _ _ => by simp [flatten, Ast.operandsBelow]
  | .call _ _ => by simp [flatten, Ast.operandsBelow]
  | .logical other left right => by
      have hleft := operandsBelow_flatten_ne_nil other left
      rw [flatten, Ast.logical, Ast.operandsBelow]
      split_ifs
      · simp [hleft]
      · simp

end ExpressionTree

end AutomataCi
