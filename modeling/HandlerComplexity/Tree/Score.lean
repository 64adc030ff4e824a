import HandlerComplexity.Tree.Node

/-!
# Handler complexity

The score of a handler is one, for being entered, plus the weights of all nodes of its body; the
score of a class is the sum over all handlers in its tree. A handler inside the body of another is
scored on its own and again as part of that body.

Every node that takes part in a score must have the shape its kind asks for. `Node.flaw?` gives the
first rule that a node breaks.
-/

namespace HandlerComplexity

/-- A rule that a node breaks. -/
inductive Flaw
  | noBody
  | noCondition
  | noOperator
  | strayCondition
  | strayElse
  | strayBody
  | foreignCases
  | danglingCase
  | notHandler
deriving DecidableEq, Repr

def Flaw.reason : Flaw → String
  | noBody => "handler has no body"
  | noCondition => "conditional has no condition"
  | noOperator => "binary operator has no operator kind"
  | strayCondition => "condition is not one of the node's children"
  | strayElse => "else_branch is not one of the node's children"
  | strayBody => "body is not one of the node's children"
  | foreignCases => "only a switch can own case labels"
  | danglingCase => "dangling case reference"
  | notHandler => "expected an exception handler"

/-- A node that cannot be scored, with the class it was found in once that is known. -/
structure Malformed where
  kind : Kind
  flaw : Flaw
  line : Int := 0
  owner : Option String := none
deriving DecidableEq, Repr

def Malformed.message (m : Malformed) : String :=
  let place := if m.line = 0 then "" else " at line " ++ toString m.line
  let owner := match m.owner with
    | some name => if name = "" then "" else " in " ++ name
    | none => ""
  "malformed " ++ m.kind.name ++ " node" ++ place ++ owner ++ ": " ++ m.flaw.reason

namespace Node

/-! ## Shape -/

/-- Whether a slot is set and points at none of the children. -/
def isStray (n : Node) (slot : Option NodeId) : Bool :=
  match slot with
  | none => false
  | some id => !n.children.any (·.id = id)

/-- Whether an identity belongs to a case label in the tree. -/
def hasCase (n : Node) (id : NodeId) : Bool :=
  n.nodes.any fun m => m.id = id && m.kind = .caseLabel

/-- The first rule the node breaks. -/
def flaw? (n : Node) : Option Flaw :=
  if n.kind = .handler ∧ n.body = none then some .noBody
  else if n.kind = .conditional ∧ n.condition = none then some .noCondition
  else if n.kind = .binaryOperator ∧ n.operator.getD "" = "" then some .noOperator
  else if n.isStray n.condition then some .strayCondition
  else if n.isStray n.elseBranch then some .strayElse
  else if n.isStray n.body then some .strayBody
  else if n.cases = [] then none
  else if n.kind ≠ .switch then some .foreignCases
  else if n.cases.all n.hasCase then none
  else some .danglingCase

def malformed (n : Node) (flaw : Flaw) : Malformed :=
  { kind := n.kind, flaw := flaw, line := n.line }

/-! ## Weights and scores -/

/-- The binary operators that decide between their operands. -/
def logicalOperators : List String := ["&&", "||", "and", "or"]

/-- What a well-shaped node adds to the score of a body around it. -/
def weight (n : Node) : Nat :=
  match n.kind with
  | .conditional => if n.elseBranch.isSome then 2 else 1
  | .switch | .caseLabel | .forLoop | .forEach | .whileLoop | .doLoop => 1
  | .breakJump | .continueJump | .returnJump => 1
  | .binaryOperator => if logicalOperators.contains (n.operator.getD "") then 1 else 0
  | .classBody | .block | .handler | .other => 0

/-- The weight of a node, if its shape is right. -/
def checkedWeight (n : Node) : Except Malformed Nat :=
  match n.flaw? with
  | some flaw => .error (n.malformed flaw)
  | none => .ok n.weight

/-- A running total of the values at the members of a list, up to the first failure. -/
def sumOver (f : Node → Except Malformed Nat) (total : Nat) : List Node → Except Malformed Nat
  | [] => .ok total
  | n :: ns =>
    match f n with
    | .error e => .error e
    | .ok value => sumOver f (total + value) ns

/-- The weights of all nodes of a tree. -/
def bodyScore (n : Node) : Except Malformed Nat :=
  sumOver checkedWeight 0 n.nodes

/-- One for the handler itself and the score of its body. -/
def handlerScore (n : Node) : Except Malformed Nat :=
  if n.kind ≠ .handler then .error (n.malformed .notHandler)
  else match n.flaw? with
    | some flaw => .error (n.malformed flaw)
    | none =>
      match n.body.bind n.child? with
      | none => .error (n.malformed .noBody)
      | some body => (bodyScore body).map (1 + ·)

/-- The scores of all handlers of a tree. -/
def classScore (n : Node) : Except Malformed Nat :=
  sumOver handlerScore 0 (n.descendants .handler)

end Node

end HandlerComplexity
