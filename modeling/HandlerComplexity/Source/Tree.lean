import HandlerComplexity.Language
import HandlerComplexity.Source.Cst
import HandlerComplexity.Tree.Node

/-!
# From concrete syntax to scored trees

Every named node becomes one node of the tree, with the slots that its kind has. Clauses of an
if statement that stand side by side (`elif`, `else`) are hung one below the other, so that each is
the else branch of the one before.

A tree is built from the leaves up by a stack of nodes that are not complete yet, and the case labels
of a switch are collected by a stack of subtrees still to look at; neither recurses.

* `caseWalk`: the case labels by the stack; `caseWalk_eq`: they are those found by recursion.
* `build`: the machine that builds a tree; `toTree`: the tree for a concrete node.
* `recursiveTree`: the same by recursion; `toTree_eq_recursiveTree`: they agree.
-/

namespace HandlerComplexity

/-- The named children of a concrete node, each with the node built for it. -/
abbrev Built := List (Cst × Node)

/-! ## Slots -/

/-- The node built for the first named child that coincides with a given concrete node. -/
def slotOf (built : Built) (target : Option Cst) : Option NodeId :=
  target.bind fun t => (built.find? (·.1.coincides t)).map (·.2.id)

/-- Collect the case labels from the trees on a stack: take the top one off and put its children in its
place, unless it is a switch, which keeps its own. Those found so far are kept with the last one
first. -/
def caseWalk (found : List NodeId) : List Node → List NodeId
  | [] => found.reverse
  | n :: stack =>
    match n.kind with
    | .switch => caseWalk found stack
    | .caseLabel => caseWalk (n.id :: found) (n.children ++ stack)
    | _ => caseWalk found (n.children ++ stack)
termination_by stack => Node.sizeAll stack
decreasing_by
  all_goals
    simp only [Node.sizeAll_append, Node.sizeAll, Node.size_eq]
    omega

mutual

/-- The case labels in a tree that belong to a switch around it, by recursion. -/
def ownCases : Node → List NodeId
  | ⟨id, kind, children, _, _, _, _, _, _, _⟩ =>
    match kind with
    | .switch => []
    | .caseLabel => id :: ownCasesAll children
    | _ => ownCasesAll children

def ownCasesAll : List Node → List NodeId
  | [] => []
  | n :: ns => ownCases n ++ ownCasesAll ns

end

theorem ownCasesAll_append (ns ms : List Node) : ownCasesAll (ns ++ ms) = ownCasesAll ns ++ ownCasesAll ms := by
  induction ns with
  | nil => rfl
  | cons n ns ih => rw [List.cons_append, ownCasesAll, ownCasesAll, ih, List.append_assoc]

theorem ownCases_of_switch {n : Node} (h : n.kind = .switch) : ownCases n = [] := by
  cases n
  cases h
  rw [ownCases]

theorem ownCases_of_caseLabel {n : Node} (h : n.kind = .caseLabel) :
    ownCases n = n.id :: ownCasesAll n.children := by
  cases n
  cases h
  rw [ownCases]

theorem ownCases_of_other {n : Node} (hs : n.kind ≠ .switch) (hc : n.kind ≠ .caseLabel) :
    ownCases n = ownCasesAll n.children := by
  obtain ⟨_, kind, _⟩ := n
  cases kind <;> first | rfl | contradiction

theorem caseWalk_eq (found : List NodeId) (stack : List Node) :
    caseWalk found stack = found.reverse ++ ownCasesAll stack := by
  fun_induction caseWalk found stack with
  | case1 found => rw [ownCasesAll, List.append_nil]
  | case2 found n stack hk ih => rw [ih, ownCasesAll, ownCases_of_switch hk, List.nil_append]
  | case3 found n stack hk ih =>
    rw [ih, ownCasesAll_append, ownCasesAll, ownCases_of_caseLabel hk, List.reverse_cons, List.append_assoc,
      List.singleton_append, List.cons_append]
  | case4 found n stack hs hc ih =>
    rw [ih, ownCasesAll_append, ownCasesAll, ownCases_of_other hs hc]

theorem caseWalk_nil (stack : List Node) : caseWalk [] stack = ownCasesAll stack := caseWalk_eq [] stack

/-! ## Chains of clauses -/

/-- The identity of a clause that gets another clause hung below it. -/
def NodeId.chain : NodeId → NodeId
  | place path => chained path
  | id => id

/-- Hang a clause below another, as its last child and its else branch. -/
def hang (clause tail : Node) : Node :=
  { clause with
    id := clause.id.chain
    children := clause.children ++ [tail]
    elseBranch := some tail.id }

/-- The clauses hung one below the other: the first of them, holding the rest. -/
def chainClauses : List Node → Option Node
  | [] => none
  | c :: cs =>
    match chainClauses cs with
    | none => some c
    | some tail => some (hang c tail)

/-! ## Nodes -/

def plainNode (r : Rules) (place : List Nat) (c : Cst) (built : Built) : Node :=
  { id := .place place
    kind := r.kindOf c.nodeType
    children := built.map (·.2)
    typeName := c.nodeType
    line := c.line + 1 }

/-- The condition is the child in the field `condition`, or else the first child. -/
def conditionOf (c : Cst) (built : Built) : Option NodeId :=
  match slotOf built (c.childByField? "condition") with
  | some id => some id
  | none => built.head?.map (·.2.id)

/-- The else branch is the first clause of an else type in languages that have such clauses, and the
child in the field `alternative` in the others. -/
def elseOf (r : Rules) (c : Cst) (built : Built) : Option NodeId :=
  if r.elseTypes.isEmpty then slotOf built (c.childByField? "alternative")
  else (built.find? (r.elseTypes.contains ·.1.nodeType)).map (·.2.id)

def isClause (r : Rules) (c : Cst) : Bool :=
  r.elseIfTypes.contains c.nodeType || r.elseTypes.contains c.nodeType

def conditionalNode (r : Rules) (place : List Nat) (c : Cst) (built : Built) : Node :=
  let plain := { plainNode r place c built with
    condition := conditionOf c built
    elseBranch := elseOf r c built }
  if built.any (r.elseIfTypes.contains ·.1.nodeType) then
    let clauses := (built.filter (isClause r ·.1)).map (·.2)
    let others := (built.filter (!isClause r ·.1)).map (·.2)
    match chainClauses clauses with
    | none => plain
    | some tail => { plain with children := others ++ [tail], elseBranch := some tail.id }
  else plain

/-- The body is the child in the field `body`, or else the last child that is a block. -/
def bodyOf (r : Rules) (c : Cst) (built : Built) : Option NodeId :=
  match slotOf built (c.childByField? "body") with
  | some id => some id
  | none => (built.reverse.find? (r.blockTypes.contains ·.1.nodeType)).map (·.2.id)

/-- The operator is the type of the child in the field `operator`, or else of the first child that
is not named. -/
def operatorOf (c : Cst) : Option String :=
  match c.childByField? "operator" with
  | some o => some o.nodeType
  | none => (c.children.find? (!·.named)).map (·.nodeType)

/-- The node for a concrete node, given those for its named children. -/
def makeNode (r : Rules) (place : List Nat) (c : Cst) (built : Built) : Node :=
  match r.kindOf c.nodeType with
  | .conditional => conditionalNode r place c built
  | .handler => { plainNode r place c built with body := bodyOf r c built }
  | .binaryOperator => { plainNode r place c built with operator := operatorOf c }
  | .switch => { plainNode r place c built with cases := caseWalk [] (built.map (·.2)) }
  | _ => plainNode r place c built

/-! ## Trees -/

/-- A concrete node that is not complete yet: its named children still to come, and those that are
built, the last one first. -/
structure Frame where
  place : List Nat
  node : Cst
  remaining : List Cst
  built : Built := []

namespace Frame

/-- A node of which nothing is built. -/
def opened (place : List Nat) (c : Cst) : Frame := ⟨place, c, c.namedChildren, []⟩

/-- The node once all its children are built. -/
def closed (r : Rules) (f : Frame) : Node := makeNode r f.place f.node f.built.reverse

/-- Put the node for the child that was last taken with the others. -/
def receive (f : Frame) (child : Cst) (n : Node) : Frame := { f with built := (child, n) :: f.built }

/-- The work that is left in a frame: every node is opened once and closed once. -/
def weight (f : Frame) : Nat := 1 + 2 * Cst.sizeAll f.remaining

def weightAll : List Frame → Nat
  | [] => 0
  | f :: fs => f.weight + weightAll fs

end Frame

/-- Build the node on top of a stack of nodes that wait for it. While it has children to come, the next
one is opened on top of it; after the last one it is closed and handed down. -/
def build (r : Rules) (top : Frame) (stack : List Frame) : Node :=
  match _h : top.remaining with
  | child :: more =>
    build r (.opened (top.built.length :: top.place) child) ({ top with remaining := more } :: stack)
  | [] =>
    match stack with
    | [] => top.closed r
    | below :: stack => build r (below.receive top.node (top.closed r)) stack
termination_by top.weight + Frame.weightAll stack
decreasing_by
  · have hlt := child.sizeAll_namedChildren_lt
    simp only [Frame.opened, Frame.weight, Frame.weightAll, _h, Cst.sizeAll]
    omega
  · simp only [Frame.receive, Frame.weight, Frame.weightAll]
    omega

/-- The tree for a concrete node. -/
def toTree (r : Rules) (place : List Nat) (c : Cst) : Node := build r (.opened place c) []

mutual

/-- The tree for a concrete node, by recursion. -/
def recursiveTree (r : Rules) (place : List Nat) : Cst → Node
  | c@⟨_, _, _, _, _, _, children⟩ => makeNode r place c (namedTrees r place 0 children)

/-- The trees for the named ones among the children from position `i` on. -/
def namedTrees (r : Rules) (place : List Nat) (i : Nat) : List Cst → Built
  | [] => []
  | c :: cs =>
    if c.named then (c, recursiveTree r (i :: place) c) :: namedTrees r place (i + 1) cs
    else namedTrees r place i cs

end

/-! ## The machine and the recursion -/

/-- The trees for concrete nodes that are all named, counted from a position. -/
def treesFrom (r : Rules) (place : List Nat) (i : Nat) (cs : List Cst) : Built :=
  (cs.zipIdx i).map fun e => (e.1, recursiveTree r (e.2 :: place) e.1)

theorem treesFrom_cons (r : Rules) (place : List Nat) (i : Nat) (c : Cst) (cs : List Cst) :
    treesFrom r place i (c :: cs) = (c, recursiveTree r (i :: place) c) :: treesFrom r place (i + 1) cs := rfl

theorem namedTrees_eq_treesFrom (r : Rules) (place : List Nat) (i : Nat) (cs : List Cst) :
    namedTrees r place i cs = treesFrom r place i (cs.filter (·.named)) := by
  induction cs generalizing i with
  | nil => rfl
  | cons c cs ih =>
    rw [namedTrees]
    cases hc : c.named with
    | true => simp [hc, ih, treesFrom_cons]
    | false => simp [hc, ih]

theorem recursiveTree_eq (r : Rules) (place : List Nat) (c : Cst) :
    recursiveTree r place c = makeNode r place c (treesFrom r place 0 c.namedChildren) := by
  cases c
  rw [recursiveTree, namedTrees_eq_treesFrom]
  rfl

/-- The node of a frame when the trees for the children still to come are those of the recursion. -/
def Frame.completed (r : Rules) (f : Frame) : Node :=
  makeNode r f.place f.node (f.built.reverse ++ treesFrom r f.place f.built.length f.remaining)

/-- What a stack of frames becomes when it is handed the node for the child that was last taken. -/
def handDown (r : Rules) (child : Cst) (n : Node) : List Frame → Node
  | [] => n
  | f :: stack => handDown r f.node ((f.receive child n).completed r) stack

/-- The frame of a node is completed to its tree. -/
theorem completed_opened (r : Rules) (place : List Nat) (c : Cst) :
    (Frame.opened place c).completed r = recursiveTree r place c := by
  rw [recursiveTree_eq]
  rfl

/-- Taking the next child and receiving its tree does not change what a frame is completed to. -/
theorem completed_receive (r : Rules) {f : Frame} {child : Cst} {more : List Cst} (h : f.remaining = child :: more) :
    ({ f with remaining := more }.receive child (recursiveTree r (f.built.length :: f.place) child)).completed r =
      f.completed r := by
  simp [Frame.completed, Frame.receive, h, treesFrom_cons]

/-- A frame with nothing to come is closed as it is completed. -/
theorem completed_eq_closed (r : Rules) {f : Frame} (h : f.remaining = []) : f.completed r = f.closed r := by
  simp [Frame.completed, Frame.closed, h, treesFrom]

/-- The invariant of the machine: whatever is on the stack, it ends in what the stack becomes when the
node on top is completed and handed down. -/
theorem build_eq (r : Rules) (top : Frame) (stack : List Frame) :
    build r top stack = handDown r top.node (top.completed r) stack := by
  fun_induction build r top stack with
  | case1 top stack child more h ih =>
    rw [ih, completed_opened, handDown]
    exact congrArg (handDown r top.node · stack) (completed_receive r h)
  | case2 top h => rw [handDown, completed_eq_closed r h]
  | case3 top h below stack ih =>
    rw [ih, handDown, completed_eq_closed r h]
    rfl

theorem toTree_eq_recursiveTree (r : Rules) (place : List Nat) (c : Cst) : toTree r place c = recursiveTree r place c := by
  rw [toTree, build_eq, handDown, completed_opened]

end HandlerComplexity
