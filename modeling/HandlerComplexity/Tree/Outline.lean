import HandlerComplexity.Tree.Node

/-!
# Outlines

A tree as a list of rows in preorder: the depth of each node, the node, and where its slots point.
A slot shows the row of the first occurrence of the node it points at, or that the node is not in the
tree at all.
-/

namespace HandlerComplexity.Node

/-- Where a slot points within an outline. -/
inductive Target
  | row (n : Nat)
  | detached
deriving DecidableEq, Repr

mutual

/-- The nodes in preorder with their depths. -/
def withDepth (depth : Nat) : Node → List (Nat × Node)
  | n@⟨_, _, children, _, _, _, _, _, _, _⟩ => (depth, n) :: withDepthAll (depth + 1) children

def withDepthAll (depth : Nat) : List Node → List (Nat × Node)
  | [] => []
  | n :: ns => withDepth depth n ++ withDepthAll depth ns

end

/-- The row of the first node with an identity. -/
def target (rows : List (Nat × Node)) (id : NodeId) : Target :=
  match rows.findIdx? (·.2.id = id) with
  | some i => .row i
  | none => .detached

end HandlerComplexity.Node
