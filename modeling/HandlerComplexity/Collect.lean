import HandlerComplexity.Extract

/-!
# Collecting measures

A collector runs its extractors over class units and records what they measure. Eligibility is checked
first, once for every unit. A unit that fails is reported, or ends the collection at once if that is
asked for.

* `collectInOrder`: one unit after the other.
* `collectBy`: by several workers. A `Schedule` says in which order the units are measured and in which
  order their results are delivered; every unit is measured even if an earlier one fails.
* `collect`: the first, unless there are several workers and several units.
-/

namespace HandlerComplexity

/-- A failure that a report lists: the class or file, and what went wrong. -/
structure Trouble where
  target : String
  message : String
deriving DecidableEq, Repr

structure Collected where
  measured : Nat
  skipped : Nat
  errors : List Trouble
deriving DecidableEq, Repr

structure Collector where
  eligibility : Eligibility := eligible none
  extractors : List Eligibility := [eligible none]
  workers : Int := 1
  failFast : Bool := false

/-- The state of a collection: the store and the log so far. -/
structure Progress where
  store : Store := .empty
  log : Log := []

namespace Progress

def write (p : Progress) (entries : Log) : Progress := { p with log := p.log ++ entries }

end Progress

/-! ## One unit -/

/-- Run all extractors before anything is recorded. -/
def extractAll (log : Log) (u : ClassUnit) (found : List Measure) :
    List Eligibility → Log × Except Failure (List Measure)
  | [] => (log, .ok found.reverse)
  | e :: es =>
    match extract e u with
    | (entries, .error f) => (log ++ entries, .error f)
    | (entries, .ok none) => extractAll (log ++ entries) u found es
    | (entries, .ok (some m)) => extractAll (log ++ entries) u (m :: found) es

/-- Record measures one after the other, up to the first that is refused. -/
def recordAll (name : String) (store : Store) : List Measure → Store × Except Failure Unit
  | [] => (store, .ok ())
  | m :: ms =>
    match store.record name m.metric m.value with
    | .error e => (store, .error (.record e))
    | .ok store => recordAll name store ms

/-- Measure one unit: the number of units measured, one or none. -/
def measureUnit (extractors : List Eligibility) (p : Progress) (u : ClassUnit) :
    Progress × Except Failure Nat :=
  match extractAll [] u [] extractors with
  | (entries, .error f) => (p.write entries, .error f)
  | (entries, .ok measures) =>
    let p := p.write entries
    match recordAll u.qualifiedName p.store measures with
    | (store, .error f) => ({ p with store := store }, .error f)
    | (store, .ok ()) => ({ p with store := store }, .ok (if measures.isEmpty then 0 else 1))

/-! ## Many units -/

/-- The eligible units, the number of the others, and what is logged about those. -/
def sift (eligibility : Eligibility) (log : Log) (kept : List ClassUnit) (skipped : Nat) :
    List ClassUnit → Log × Except Failure (List ClassUnit × Nat)
  | [] => (log, .ok (kept.reverse, skipped))
  | u :: us =>
    match eligibility u with
    | .error e => (log, .error (.policy e))
    | .ok true => sift eligibility log (u :: kept) skipped us
    | .ok false =>
      sift eligibility (log ++ [⟨.debug, .engine, skippedMessage u⟩]) kept (skipped + 1) us

def failedEntry (u : ClassUnit) (f : Failure) : Log.Entry :=
  ⟨.warning, .engine, "Cannot measure " ++ u.qualifiedName ++ ": " ++ f.message⟩

/-- The results so far: the number of measured units, and the failures with the last one first. -/
structure Tally where
  measured : Nat := 0
  failures : List Trouble := []

/-- Count one result. A failure that must end the collection is returned. -/
def Tally.add (failFast : Bool) (t : Tally) (u : ClassUnit) :
    Except Failure Nat → Log × Except Failure Tally
  | .ok n => ([], .ok { t with measured := t.measured + n })
  | .error f =>
    if f.isOfClass && !failFast then
      ([failedEntry u f], .ok { t with failures := ⟨u.qualifiedName, f.message⟩ :: t.failures })
    else ([], .error f)

/-- Measure and count one unit after the other. -/
def collectInOrder (c : Collector) (p : Progress) (t : Tally) :
    List ClassUnit → Progress × Except Failure Tally
  | [] => (p, .ok t)
  | u :: us =>
    let (p, result) := measureUnit c.extractors p u
    match t.add c.failFast u result with
    | (entries, .error f) => (p.write entries, .error f)
    | (entries, .ok t) => collectInOrder c (p.write entries) t us

/-- In which order workers measure the units, and in which order their results are delivered. -/
structure Schedule where
  measure : List Nat → List Nat
  deliver : List Nat → List Nat
  measure_perm : ∀ l, (measure l).Perm l
  deliver_perm : ∀ l, (deliver l).Perm l

/-- Units are measured and delivered in the order in which they were handed in. -/
def Schedule.inOrder : Schedule := ⟨id, id, fun _ => .refl _, fun _ => .refl _⟩

/-- Measure the units at the given positions; the results come with their positions. -/
def measureAt (c : Collector) (units : Array ClassUnit) (p : Progress)
    (results : List (Nat × Except Failure Nat)) :
    List Nat → Progress × List (Nat × Except Failure Nat)
  | [] => (p, results)
  | i :: is =>
    match units[i]? with
    | none => measureAt c units p results is
    | some u =>
      let (p, result) := measureUnit c.extractors p u
      measureAt c units p ((i, result) :: results) is

/-- Count the results at the given positions. -/
def deliverAt (c : Collector) (units : Array ClassUnit)
    (results : List (Nat × Except Failure Nat)) (p : Progress) (t : Tally) :
    List Nat → Progress × Except Failure Tally
  | [] => (p, .ok t)
  | i :: is =>
    match units[i]?, results.lookup i with
    | some u, some result =>
      match t.add c.failFast u result with
      | (entries, .error f) => (p.write entries, .error f)
      | (entries, .ok t) => deliverAt c units results (p.write entries) t is
    | _, _ => deliverAt c units results p t is

/-- Measure all units by workers, then count the results as they are delivered. -/
def collectBy (s : Schedule) (c : Collector) (p : Progress) (units : List ClassUnit) :
    Progress × Except Failure Tally :=
  let positions := List.range units.length
  let (p, results) := measureAt c units.toArray p [] (s.measure positions)
  deliverAt c units.toArray results p {} (s.deliver positions)

/-- Measure the eligible units and record what is measured. The failures are listed in the order of
their targets, those of one target in the order in which they came. -/
def collect (s : Schedule) (c : Collector) (store : Store) (units : List ClassUnit) :
    Progress × Except Failure Collected :=
  match sift c.eligibility [] [] 0 units with
  | (log, .error f) => (⟨store, log⟩, .error f)
  | (log, .ok (kept, skipped)) =>
    let (p, result) :=
      if 1 < kept.length ∧ 1 < c.workers then collectBy s c ⟨store, log⟩ kept
      else collectInOrder c ⟨store, log⟩ {} kept
    (p, result.map fun t =>
      ⟨t.measured, skipped, t.failures.reverse.mergeSort fun a b => decide (a.target ≤ b.target)⟩)

end HandlerComplexity
