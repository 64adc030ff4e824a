import HandlerComplexity.Tree.Node
import Mathlib.Algebra.BigOperators.Group.List.Basic
import Mathlib.Algebra.Ring.Nat

/-!
# Sums over trees and the occurrences of nodes

* `Node.childInduction`: a property that passes from the children of every node to the node holds of all nodes.
* `Node.total f n`: the sum of `f` over the nodes of a tree, once per occurrence.
* `Node.occurrences n`: every occurrence of a node in the tree, with the nodes on the way to it. Without these ways
  it is the preorder (`map_node_occurrences`).
-/

namespace HandlerComplexity

/-- A sum over lists that are put together, list by list. -/
theorem sum_map_flatMap {α β M : Type} [AddMonoid M] (g : β → M) (f : α → List β) (l : List α) :
    ((l.flatMap f).map g).sum = (l.map fun a => ((f a).map g).sum).sum := by
  rw [List.map_flatMap, List.flatMap_def, List.sum_flatten, List.map_map]
  rfl

namespace Node

/-! ## Induction over the children -/

theorem size_le_sizeAll {c : Node} {ns : List Node} (h : c ∈ ns) : c.size ≤ sizeAll ns := by
  induction ns with
  | nil => simp at h
  | cons n ns ih =>
    rw [sizeAll]
    rcases List.mem_cons.mp h with rfl | h
    · omega
    · have := ih h
      omega

theorem size_lt_of_mem_children {n c : Node} (h : c ∈ n.children) : c.size < n.size := by
  have := size_le_sizeAll h
  rw [size_eq n]
  omega

@[elab_as_elim]
theorem childInduction {P : Node → Prop} (node : ∀ n, (∀ c ∈ n.children, P c) → P n) (n : Node) : P n :=
  node n fun c _ => childInduction node c
termination_by n.size
decreasing_by exact size_lt_of_mem_children ‹_›

/-! ## Preorder -/

theorem preorderAll_eq_flatMap (ns : List Node) : preorderAll ns = ns.flatMap preorder := by
  induction ns with
  | nil => rfl
  | cons n ns ih => rw [preorderAll, ih, List.flatMap_cons]

theorem preorder_eq_cons_flatMap (n : Node) : n.preorder = n :: n.children.flatMap preorder := by
  rw [preorder_eq, preorderAll_eq_flatMap]

/-! ## Sums -/

/-- The sum of `f` over the nodes of a tree, once per occurrence. -/
def total (f : Node → Nat) (n : Node) : Nat := (n.preorder.map f).sum

theorem total_eq (f : Node → Nat) (n : Node) : total f n = f n + (n.children.map (total f)).sum := by
  unfold total
  rw [preorder_eq_cons_flatMap, List.map_cons, List.sum_cons, sum_map_flatMap]

/-! ## Occurrences -/

/-- One occurrence of a node: the node, and the nodes above it on the way from the root, the root first. -/
structure Occurrence where
  above : List Node
  node : Node

/-- The way from the root to the occurrence, both ends included. -/
def Occurrence.way (o : Occurrence) : List Node := o.above ++ [o.node]

mutual

/-- The occurrences in a tree that hangs below the nodes `above`, in preorder. -/
def occurrencesBelow (above : List Node) : Node → List Occurrence
  | n@⟨_, _, children, _, _, _, _, _, _, _⟩ => ⟨above, n⟩ :: occurrencesBelowAll (above ++ [n]) children

def occurrencesBelowAll (above : List Node) : List Node → List Occurrence
  | [] => []
  | n :: ns => occurrencesBelow above n ++ occurrencesBelowAll above ns

end

/-- Every occurrence of a node in a tree. -/
def occurrences (n : Node) : List Occurrence := occurrencesBelow [] n

theorem occurrencesBelowAll_eq_flatMap (above ns : List Node) :
    occurrencesBelowAll above ns = ns.flatMap (occurrencesBelow above) := by
  induction ns with
  | nil => rfl
  | cons n ns ih => rw [occurrencesBelowAll, ih, List.flatMap_cons]

theorem occurrencesBelow_eq (above : List Node) (n : Node) :
    occurrencesBelow above n = ⟨above, n⟩ :: n.children.flatMap (occurrencesBelow (above ++ [n])) := by
  cases n
  rw [occurrencesBelow, occurrencesBelowAll_eq_flatMap]

/-- Without the ways to them, the occurrences are the nodes in preorder. -/
theorem map_node_occurrencesBelow (above : List Node) (n : Node) :
    (occurrencesBelow above n).map (·.node) = n.preorder := by
  induction n using childInduction generalizing above with
  | node n ih =>
    rw [occurrencesBelow_eq, preorder_eq_cons_flatMap, List.map_cons, List.map_flatMap]
    congr 1
    exact List.flatMap_congr fun c hc => ih c hc _

theorem map_node_occurrences (n : Node) : n.occurrences.map (·.node) = n.preorder :=
  map_node_occurrencesBelow [] n

theorem sum_occurrencesBelow (g : Occurrence → Nat) (above : List Node) (n : Node) :
    ((occurrencesBelow above n).map g).sum =
      g ⟨above, n⟩ + (n.children.map fun c => ((occurrencesBelow (above ++ [n]) c).map g).sum).sum := by
  rw [occurrencesBelow_eq, List.map_cons, List.sum_cons, sum_map_flatMap]

end Node

end HandlerComplexity
