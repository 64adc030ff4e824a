/-!
# Concrete syntax trees

What a parser returns for a source file: nodes with a type, a byte range, a line counted from zero,
and for each child whether it is named and which field of its parent it fills.
-/

namespace HandlerComplexity

structure Cst where
  nodeType : String
  start : Nat
  stop : Nat
  line : Nat
  named : Bool
  field : Option String := none
  children : List Cst := []

/-- A node without its children, at its depth, as it stands in a preorder listing. -/
structure CstRow where
  depth : Nat
  nodeType : String
  start : Nat
  stop : Nat
  line : Nat
  named : Bool
  field : Option String := none

namespace Cst

def namedChildren (c : Cst) : List Cst := c.children.filter (·.named)

/-- The first child, named or not, that fills a field. -/
def childByField? (c : Cst) (field : String) : Option Cst :=
  c.children.find? (·.field = some field)

/-- Whether two nodes have the same range and type. -/
def coincides (c d : Cst) : Bool :=
  c.start = d.start && c.stop = d.stop && c.nodeType = d.nodeType

/-! ## Size -/

mutual

/-- The number of nodes, named or not. -/
def size : Cst → Nat
  | ⟨_, _, _, _, _, _, children⟩ => 1 + sizeAll children

/-- The number of nodes of several trees. -/
def sizeAll : List Cst → Nat
  | [] => 0
  | c :: cs => size c + sizeAll cs

end

theorem size_eq (c : Cst) : c.size = 1 + sizeAll c.children := by
  cases c; rw [size]

theorem sizeAll_append (cs ds : List Cst) : sizeAll (cs ++ ds) = sizeAll cs + sizeAll ds := by
  induction cs with
  | nil => simp [sizeAll]
  | cons c cs ih => simp only [List.cons_append, sizeAll, ih]; omega

theorem sizeAll_filter_le (p : Cst → Bool) (cs : List Cst) : sizeAll (cs.filter p) ≤ sizeAll cs := by
  induction cs with
  | nil => simp
  | cons c cs ih =>
    rw [List.filter_cons]
    split <;> simp only [sizeAll] <;> omega

theorem sizeAll_namedChildren_lt (c : Cst) : sizeAll c.namedChildren < size c := by
  have hle : sizeAll c.namedChildren ≤ sizeAll c.children := sizeAll_filter_le _ _
  rw [size_eq]
  omega

/-! ## Listings -/

/-- Put a row in front of the trees that follow it: the deeper ones are its children. -/
def graft (row : CstRow) (trees : List (Nat × Cst)) : List (Nat × Cst) :=
  let below := trees.takeWhile (row.depth < ·.1)
  let beside := trees.dropWhile (row.depth < ·.1)
  (row.depth,
    { nodeType := row.nodeType
      start := row.start
      stop := row.stop
      line := row.line
      named := row.named
      field := row.field
      children := below.map (·.2) }) :: beside

/-- The tree of a preorder listing; an empty listing is a lone empty program. -/
def ofRows (rows : List CstRow) : Cst :=
  match rows.foldr graft [] with
  | [] => ⟨"program", 0, 0, 0, true, none, []⟩
  | (_, c) :: _ => c

end Cst

end HandlerComplexity
