import HandlerComplexity.Tree.Node

/-!
# Node tables

A table lists nodes with references to earlier rows. Unfolding it gives each row its tree; a row that
several others refer to occurs in each of their trees under one identity.
-/

namespace HandlerComplexity

structure NodeRow where
  kind : Kind
  children : List Nat := []
  condition : Option Nat := none
  elseBranch : Option Nat := none
  body : Option Nat := none
  cases : List Nat := []
  operator : Option String := none
  typeName : String := ""
  line : Int := 0

namespace NodeRow

/-- The identity of a row. -/
def idOf (index : Nat) : NodeId := .place [index]

/-- The tree of a row, given those of the rows before it. -/
def toNode (row : NodeRow) (index : Nat) (earlier : Array Node) : Node :=
  { id := idOf index
    kind := row.kind
    children := row.children.filterMap (earlier[·]?)
    condition := row.condition.map idOf
    elseBranch := row.elseBranch.map idOf
    body := row.body.map idOf
    cases := row.cases.map idOf
    operator := row.operator
    typeName := row.typeName
    line := row.line }

/-- The trees of all rows. -/
def unfold (rows : List NodeRow) : Array Node :=
  rows.foldl (fun built row => built.push (row.toNode built.size built)) #[]

end NodeRow

end HandlerComplexity
