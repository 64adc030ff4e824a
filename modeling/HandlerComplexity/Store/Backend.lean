import HandlerComplexity.Store

/-!
# Kinds of store

A store is kept in memory, or it is the bare interface that every store extends. The bare interface
offers to record and to list but does neither, and it offers nothing else.
-/

namespace HandlerComplexity

inductive Backend
  | memory (store : Store)
  | bare

inductive BackendError
  | refused (e : RecordError)
  /-- The operation is offered and not carried out. -/
  | notImplemented
  /-- The operation is not offered. -/
  | notOffered
  /-- The store cannot be counted or searched. -/
  | notCollection
deriving DecidableEq, Repr

namespace Backend

def record (b : Backend) (name : String) (metric : Metric) (value : Document) :
    Except BackendError Backend :=
  match b with
  | bare => .error .notImplemented
  | memory s =>
    match Measure.ofDocument metric value with
    | .error e => .error (.refused e)
    | .ok m =>
      match s.insert name m with
      | .error e => .error (.refused e)
      | .ok s => .ok (memory s)

def get? (b : Backend) (name : String) (metric : Metric) : Except BackendError (Option Value) :=
  match b with
  | bare => .error .notOffered
  | memory s => .ok (s.get? name metric)

def measuresFor (b : Backend) (name : String) : Except BackendError (List Measure) :=
  match b with
  | bare => .error .notOffered
  | memory s => .ok (s.measuresFor name)

def items (b : Backend) : Except BackendError (List (String × List Measure)) :=
  match b with
  | bare => .error .notImplemented
  | memory s => .ok s.items

def contains (b : Backend) (name : String) : Except BackendError Bool :=
  match b with
  | bare => .error .notCollection
  | memory s => .ok (s.contains name)

def size (b : Backend) : Except BackendError Nat :=
  match b with
  | bare => .error .notCollection
  | memory s => .ok s.size

end Backend

end HandlerComplexity
