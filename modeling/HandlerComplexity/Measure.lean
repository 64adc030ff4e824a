import HandlerComplexity.Document

/-!
# Measures

A measure is a metric and a value that is not less than zero.
-/

namespace HandlerComplexity

/-- The metrics there are: the complexity of exception handlers. -/
inductive Metric
  | hcc
deriving DecidableEq, Repr

namespace Metric

def name : Metric → String
  | hcc => "HCC"

def ofName? (name : String) : Option Metric :=
  if name = Metric.hcc.name then some hcc else none

/-- What is said of a name that no metric has. -/
def unknownMessage (name : String) : String :=
  Text.quoted name ++ " is not a valid Metric"

end Metric

/-- A numeric value in the form in which it was given. -/
inductive Value
  | int (i : Int)
  | flag (b : Bool)
  | real (x : Binary64)
deriving DecidableEq, Repr

namespace Value

/-- The number in a document; texts, collections and nothing are no numbers. -/
def ofDocument? : Document → Option Value
  | .scalar (.int i) => some (.int i)
  | .scalar (.bool b) => some (.flag b)
  | .scalar (.real x) => some (.real x)
  | .scalar (.nan _) => some (.real .nan)
  | _ => none

def toScalar : Value → Scalar
  | int i => .int i
  | flag b => .bool b
  | real x => .real x

/-- Whether the value is less than zero. -/
def isNegative : Value → Bool
  | int i => i < 0
  | flag _ => false
  | real x => x.isNegative

/-- A score, which is always a whole number, as a real value. -/
def ofScore (n : Nat) : Value := .real (.ofNat n)

end Value

structure Measure where
  metric : Metric
  value : Value
deriving DecidableEq, Repr

end HandlerComplexity
