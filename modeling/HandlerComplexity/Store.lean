import HandlerComplexity.Measure

/-!
# The store of measures

An insert-only mapping from the qualified name of a class to its measures. A metric is recorded at
most once for a name, and what is recorded is never changed.
-/

namespace HandlerComplexity

structure Store where
  /-- The names in the order in which they were first recorded, with their measures. -/
  entries : List (String × List Measure) := []
deriving DecidableEq, Repr

/-- Why a measure is not recorded. -/
inductive RecordError
  | notNumeric
  | negative (metric : Metric) (value : Value)
  | duplicate (metric : Metric) (name : String)
deriving DecidableEq, Repr

def RecordError.message : RecordError → String
  | notNumeric => "measure is not a number"
  | negative metric value =>
    metric.name ++ " measure must be non-negative, got " ++ value.toScalar.shown
  | duplicate metric name => metric.name ++ " already recorded for " ++ name

/-- A measure of a value that is not less than zero. -/
def Measure.make (metric : Metric) (value : Value) : Except RecordError Measure :=
  if value.isNegative then .error (.negative metric value) else .ok ⟨metric, value⟩

/-- A measure whose value is read from a document. -/
def Measure.ofDocument (metric : Metric) (value : Document) : Except RecordError Measure :=
  match Value.ofDocument? value with
  | none => .error .notNumeric
  | some v => Measure.make metric v

namespace Store

def empty : Store := {}

/-- The measures of a name; none if the name was never recorded. -/
def measuresFor (s : Store) (name : String) : List Measure :=
  (s.entries.lookup name).getD []

/-- The value of a metric for a name. -/
def get? (s : Store) (name : String) (metric : Metric) : Option Value :=
  ((s.measuresFor name).find? (·.metric = metric)).map (·.value)

def contains (s : Store) (name : String) : Bool :=
  s.entries.any (·.1 = name)

def size (s : Store) : Nat := s.entries.length

/-- The names and their measures in the order of the names, by code points. -/
def items (s : Store) : List (String × List Measure) :=
  s.entries.mergeSort fun a b => decide (a.1 ≤ b.1)

/-- Add a measure behind those of its name. -/
def append (name : String) (measure : Measure) :
    List (String × List Measure) → List (String × List Measure)
  | [] => [(name, [measure])]
  | (n, ms) :: es =>
    if n = name then (n, ms ++ [measure]) :: es else (n, ms) :: append name measure es

/-- Record a measure that was made, unless its metric is already there. -/
def insert (s : Store) (name : String) (measure : Measure) : Except RecordError Store :=
  if (s.measuresFor name).any (·.metric = measure.metric) then
    .error (.duplicate measure.metric name)
  else .ok ⟨append name measure s.entries⟩

/-- Make a measure and record it. -/
def record (s : Store) (name : String) (metric : Metric) (value : Value) :
    Except RecordError Store :=
  match Measure.make metric value with
  | .error e => .error e
  | .ok m => s.insert name m

end Store

end HandlerComplexity
