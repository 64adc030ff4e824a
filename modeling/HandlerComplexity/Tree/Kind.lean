import HandlerComplexity.Text.Quoted

/-!
# Kinds of syntax nodes
-/

namespace HandlerComplexity

/-- What a syntax node is to the score. Everything that plays no part in it is `other`. -/
inductive Kind
  | classBody
  | block
  | handler
  | conditional
  | switch
  | caseLabel
  | forLoop
  | forEach
  | whileLoop
  | doLoop
  | breakJump
  | continueJump
  | binaryOperator
  | returnJump
  | other
deriving DecidableEq, Repr

namespace Kind

/-- The name of a kind in node tables and messages. -/
def name : Kind → String
  | classBody => "class"
  | block => "block"
  | handler => "handler"
  | conditional => "conditional"
  | switch => "switch"
  | caseLabel => "case"
  | forLoop => "for"
  | forEach => "foreach"
  | whileLoop => "while"
  | doLoop => "do"
  | breakJump => "break"
  | continueJump => "continue"
  | binaryOperator => "binary_operator"
  | returnJump => "return"
  | other => "other"

/-- Every kind. -/
def all : List Kind :=
  [classBody, block, handler, conditional, switch, caseLabel, forLoop, forEach, whileLoop, doLoop,
    breakJump, continueJump, binaryOperator, returnJump, other]

/-- The kind of a name. -/
def ofName? (name : String) : Option Kind :=
  all.find? (·.name = name)

/-- What is said of a name that no kind has. -/
def unknownMessage (name : String) : String :=
  Text.quoted name ++ " is not a valid NodeKind"

end Kind

end HandlerComplexity
