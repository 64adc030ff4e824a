import HandlerComplexity.Tree.Kind

/-!
# Syntax trees

A node has a kind, its children in source order, and slots that point at other nodes by identity:
its condition, its else branch and its body among the children, and the case labels of a switch
anywhere below it. A subtree may occur several times in a tree; its nodes then have the same identity
at each occurrence.

* `Node.preorder`: the recursive preorder.
* `Node.walk`: the same order by a stack of subtrees still to visit; this one runs.
* `Node.nodes_eq_preorder`: they agree.
-/

namespace HandlerComplexity

/-- The identity of a node within its tree. -/
inductive NodeId
  /-- The node that stands at a place: the child positions on the way to it, the last one first. -/
  | place (path : List Nat)
  /-- The clause at a place once the clauses after it are hung below it. -/
  | chained (path : List Nat)
  /-- The root made for a class that is declared in several parts. -/
  | union
deriving DecidableEq, Repr

structure Node where
  id : NodeId
  kind : Kind
  children : List Node := []
  condition : Option NodeId := none
  elseBranch : Option NodeId := none
  body : Option NodeId := none
  cases : List NodeId := []
  operator : Option String := none
  typeName : String := ""
  line : Int := 0

namespace Node

/-! ## Size -/

mutual

/-- The number of nodes, counted once per occurrence. -/
def size : Node → Nat
  | ⟨_, _, children, _, _, _, _, _, _, _⟩ => 1 + sizeAll children

/-- The number of nodes of several trees. -/
def sizeAll : List Node → Nat
  | [] => 0
  | n :: ns => size n + sizeAll ns

end

theorem size_eq (n : Node) : n.size = 1 + sizeAll n.children := by
  cases n; rw [size]

theorem sizeAll_append (ns ms : List Node) : sizeAll (ns ++ ms) = sizeAll ns + sizeAll ms := by
  induction ns with
  | nil => simp [sizeAll]
  | cons n ns ih => simp only [List.cons_append, sizeAll, ih]; omega

/-! ## Visiting -/

mutual

/-- A node, then the preorders of its children from left to right. -/
def preorder : Node → List Node
  | n@⟨_, _, children, _, _, _, _, _, _, _⟩ => n :: preorderAll children

/-- The preorders of several trees, one after the other. -/
def preorderAll : List Node → List Node
  | [] => []
  | n :: ns => preorder n ++ preorderAll ns

end

theorem preorder_eq (n : Node) : n.preorder = n :: preorderAll n.children := by
  cases n; rw [preorder]

theorem preorderAll_append (ns ms : List Node) :
    preorderAll (ns ++ ms) = preorderAll ns ++ preorderAll ms := by
  induction ns with
  | nil => simp [preorderAll]
  | cons n ns ih => simp [preorderAll, ih]

/-- Visit the trees on a stack: take the top one off, put its children in its place. The nodes seen
so far are kept with the last one first. -/
def walk (seen : List Node) : List Node → List Node
  | [] => seen.reverse
  | n :: stack => walk (n :: seen) (n.children ++ stack)
termination_by stack => sizeAll stack
decreasing_by
  rw [sizeAll_append, sizeAll, size_eq]; omega

/-- The nodes of a tree in the order of the walk. -/
def nodes (n : Node) : List Node := walk [] [n]

theorem walk_eq_append (seen stack : List Node) :
    walk seen stack = seen.reverse ++ preorderAll stack := by
  fun_induction walk seen stack with
  | case1 seen => rw [preorderAll, List.append_nil]
  | case2 seen n stack ih =>
    rw [ih, preorderAll_append, preorderAll, preorder_eq, List.reverse_cons, List.append_assoc,
      List.singleton_append, List.cons_append]

theorem nodes_eq_preorder (n : Node) : n.nodes = n.preorder := by
  rw [nodes, walk_eq_append, preorderAll, preorderAll, List.append_nil, List.reverse_nil,
    List.nil_append]

/-- The nodes of one kind in a tree, its root included. -/
def descendants (n : Node) (k : Kind) : List Node :=
  n.nodes.filter (·.kind = k)

/-- How many nodes of one kind there are, counted one by one. -/
def countDescendants (n : Node) (k : Kind) : Nat :=
  (n.descendants k).foldl (fun count _ => count + 1) 0

/-- The first child with an identity. -/
def child? (n : Node) (id : NodeId) : Option Node :=
  n.children.find? (·.id = id)

/-! ## Labels -/

/-- A one-line label: the node's own type name or else its kind, the line, the number of children. -/
def label (n : Node) : String :=
  let name := if n.typeName = "" then n.kind.name else n.typeName
  "Node(" ++ name ++ "@" ++ toString n.line ++ ", children=" ++ toString n.children.length ++ ")"

end Node

end HandlerComplexity
