import HandlerComplexity.Tree.Score
import HandlerComplexity.Text.Search

/-!
# Class units

A class as it is measured: its qualified name, its tree, and where it was declared.
-/

namespace HandlerComplexity

structure ClassUnit where
  qualifiedName : String
  root : Node
  path : String := ""
  language : String := ""
  generated : Bool := false
  isPartial : Bool := false

namespace ClassUnit

/-- What is said of a unit without a name. -/
def namelessMessage : String := "ClassUnit requires a non-empty qualified name"

/-- The unit itself, if it has a name. -/
def named? (u : ClassUnit) : Option ClassUnit :=
  if u.qualifiedName = "" then none else some u

/-- The part of the name after the last dot, and of that the part after the last dollar sign. -/
def simpleName (u : ClassUnit) : String :=
  String.ofList (Text.afterLast '$' (Text.afterLast '.' u.qualifiedName.toList))

/-- The score of the class. -/
def score (u : ClassUnit) : Except Malformed Nat := u.root.classScore

end ClassUnit

end HandlerComplexity
