import MetricAlarm.Formula.Basic

/-!
# Trees with any number of operands

For display, a run of one connective is a single node: `a and b and c` has one node with three
operands. Only the earlier operand is merged; a later operand with the same connective keeps its
parentheses, so that the text still shows how the formula associates.
-/

namespace MetricAlarm

inductive Tree
  | leaf (c : Condition)
  | node (connective : Connective) (operands : List Tree)

namespace Tree

/-- Join two trees; an earlier operand with the same connective takes in the later one. -/
def join (connective : Connective) (earlier later : Tree) : Tree :=
  match earlier with
  | .node c operands =>
    if c = connective then .node c (operands ++ [later]) else .node connective [earlier, later]
  | .leaf _ => .node connective [earlier, later]

def ofFormula : Formula → Tree
  | .condition c => .leaf c
  | .join connective left right => join connective (ofFormula left) (ofFormula right)

def isLeaf : Tree → Bool
  | .leaf _ => true
  | .node _ _ => false

mutual

def leaves : Tree → List Condition
  | .leaf c => [c]
  | .node _ operands => leavesOf operands

/-- The leaves of several trees, in order. -/
def leavesOf : List Tree → List Condition
  | [] => []
  | t :: ts => t.leaves ++ leavesOf ts

end

mutual

/-- The number of leaves. -/
def leafCount : Tree → Nat
  | .leaf _ => 1
  | .node _ operands => leafCountOf operands

/-- The number of leaves of several trees together. -/
def leafCountOf : List Tree → Nat
  | [] => 0
  | t :: ts => t.leafCount + leafCountOf ts

end

mutual

/-- Nodes in parentheses, operands with the connective between them. -/
def text : Tree → String
  | .leaf c => c.text
  | .node connective operands =>
    "(" ++ (" " ++ connective.name ++ " ").intercalate (texts operands) ++ ")"

def texts : List Tree → List String
  | [] => []
  | t :: ts => t.text :: texts ts

end

end Tree

end MetricAlarm
