import HandlerComplexity.Proofs.Sort
import HandlerComplexity.Proofs.Store

/-!
# Sequences of calls

A store is used through calls that record a value or ask for what is recorded. Whatever the calls are, the store
behaves like a map to which names are added and never changed or taken away.

* `Store.recordInPlace`: recording step by step, with the store it leaves behind also when it refuses; by
  `recordInPlace_eq` it is `Store.record`.
* `Store.perform`, `Store.performAll`: one call, and any number of calls with their answers.
* `succeeded`: the records of a history that were not refused.
* `Store.Holds`: the invariant. `Holds.perform` is one step, `Holds.performAll` a run.
* `performAll_insertOnly`: the answer to any call after any calls, described by `InsertOnly`.
-/

namespace HandlerComplexity

namespace Store

/-! ## Recording in place -/

/-- The store with an entry for a name: an empty one if there was none. -/
def reserve (s : Store) (name : String) : Store :=
  if s.contains name then s else ⟨s.entries ++ [(name, [])]⟩

/-- Record by making sure of the entry first and looking into it then, with the store that is left behind. -/
def recordInPlace (s : Store) (name : String) (metric : Metric) (value : Value) : Store × Except RecordError Unit :=
  match Measure.make metric value with
  | .error e => (s, .error e)
  | .ok m =>
    let reserved := s.reserve name
    if (reserved.measuresFor name).any (·.metric = m.metric) then (reserved, .error (.duplicate m.metric name))
    else (⟨append name m reserved.entries⟩, .ok ())

theorem measuresFor_reserve (s : Store) (name : String) : (s.reserve name).measuresFor name = s.measuresFor name := by
  unfold reserve
  split_ifs with hc
  · rfl
  · have hnone : s.entries.lookup name = none := lookup_eq_none (by simpa using hc)
    simp [measuresFor, List.lookup_append, hnone]

theorem append_reserve (s : Store) (name : String) (m : Measure) :
    append name m (s.reserve name).entries = append name m s.entries := by
  unfold reserve
  split_ifs with hc
  · rfl
  · have hnew : name ∉ s.entries.map (·.1) := contains_eq_false_iff.mp (by simpa using hc)
    rw [append_of_not_mem m hnew]
    show append name m (s.entries ++ [(name, [])]) = _
    generalize s.entries = es at hnew
    induction es with
    | nil => simp [append]
    | cons e es ih =>
      obtain ⟨n, ms⟩ := e
      rw [List.map_cons, List.mem_cons, not_or] at hnew
      rw [List.cons_append, append, if_neg (Ne.symm hnew.1), ih hnew.2]
      rfl

/-- The empty entry is never left behind: a name with a measure had its entry before. -/
theorem recordInPlace_eq (s : Store) (name : String) (metric : Metric) (value : Value) :
    s.recordInPlace name metric value =
      match s.record name metric value with
      | .error e => (s, .error e)
      | .ok s' => (s', .ok ()) := by
  unfold recordInPlace record
  cases Measure.make metric value with
  | error e => rfl
  | ok m =>
    dsimp only
    rw [measuresFor_reserve, append_reserve, insert]
    cases hany : (s.measuresFor name).any (·.metric = m.metric) with
    | false => rfl
    | true =>
      have hc : s.contains name = true := by
        by_contra hno
        rw [measuresFor_of_not_contains (by simpa using hno)] at hany
        cases hany
      rw [reserve, if_pos hc]
      rfl

/-! ## Calls -/

/-- What a store can be asked to do. -/
inductive Call
  | record (name : String) (metric : Metric) (value : Value)
  | get (name : String) (metric : Metric)
  | measuresFor (name : String)
  | items
  | contains (name : String)
  | size
deriving DecidableEq, Repr

/-- What a store answers to a call. -/
inductive Answer
  | recorded
  | refused (e : RecordError)
  | value (value : Option Value)
  | measures (measures : List Measure)
  | items (items : List (String × List Measure))
  | isThere (isThere : Bool)
  | count (n : Nat)
deriving DecidableEq, Repr

/-- Answer a call. -/
def perform (s : Store) : Call → Store × Answer
  | .record name metric value =>
    match s.recordInPlace name metric value with
    | (s', .error e) => (s', .refused e)
    | (s', .ok ()) => (s', .recorded)
  | .get name metric => (s, .value (s.get? name metric))
  | .measuresFor name => (s, .measures (s.measuresFor name))
  | .items => (s, .items s.items)
  | .contains name => (s, .isThere (s.contains name))
  | .size => (s, .count s.size)

/-- Answer calls one after the other: the store after them, and the calls with their answers. -/
def performAll (s : Store) : List Call → Store × List (Call × Answer)
  | [] => (s, [])
  | c :: cs =>
    let (s', a) := s.perform c
    let (s'', history) := s'.performAll cs
    (s'', (c, a) :: history)

/-- The name and the value of a call that recorded something. -/
def success? : Call × Answer → Option (String × Value)
  | (.record name _ value, .recorded) => some (name, value)
  | _ => none

/-- The records of a history that were not refused, the first one first. -/
def succeeded (history : List (Call × Answer)) : List (String × Value) := history.filterMap success?

/-! ## The invariant -/

/-- The entry of a name with one value. -/
def entryOf (e : String × Value) : String × List Measure := (e.1, [⟨.hcc, e.2⟩])

/-- The store has exactly the given values, each under a name of its own. -/
structure Holds (s : Store) (values : List (String × Value)) : Prop where
  entries : s.entries = values.map entryOf
  nodup : (values.map (·.1)).Nodup

namespace Holds

variable {s : Store} {values : List (String × Value)}

theorem names (h : s.Holds values) : s.names = values.map (·.1) := by
  rw [Store.names, h.entries, List.map_map]
  rfl

theorem sound (h : s.Holds values) : s.Sound := by
  refine ⟨h.names ▸ h.nodup, fun e he => ?_⟩
  rw [h.entries] at he
  obtain ⟨v, -, rfl⟩ := List.mem_map.mp he
  exact ⟨_, rfl⟩

theorem contains_iff (h : s.Holds values) {name : String} : s.contains name = true ↔ name ∈ values.map (·.1) := by
  rw [Store.contains_iff, h.names]

theorem lookup (h : s.Holds values) (name : String) :
    s.entries.lookup name = (values.lookup name).map fun v => [⟨.hcc, v⟩] := by
  rw [h.entries]
  clear h
  induction values with
  | nil => rfl
  | cons e values ih =>
    obtain ⟨n, v⟩ := e
    rw [List.map_cons, entryOf, List.lookup_cons, List.lookup_cons]
    cases name == n with
    | true => rfl
    | false => exact ih

theorem measuresFor (h : s.Holds values) (name : String) :
    s.measuresFor name = ((values.lookup name).map fun v => (⟨.hcc, v⟩ : Measure)).toList := by
  rw [Store.measuresFor, h.lookup]
  cases values.lookup name <;> rfl

theorem get? (h : s.Holds values) (name : String) (metric : Metric) : s.get? name metric = values.lookup name := by
  rw [Store.get?, h.measuresFor]
  cases metric
  cases values.lookup name <;> rfl

theorem contains (h : s.Holds values) (name : String) : s.contains name = (values.lookup name).isSome := by
  rw [Bool.eq_iff_iff, h.contains_iff, List.lookup_isSome_iff, List.mem_map]
  exact exists_congr fun e => and_congr_right fun _ => by rw [beq_iff_eq, eq_comm]

/-- Recording is refused for a negative value or an old name, and adds a new name behind the others. -/
theorem perform_record (h : s.Holds values) (name : String) (metric : Metric) (value : Value) :
    s.perform (.record name metric value) =
      if value.isNegative then (s, .refused (.negative metric value))
      else if name ∈ values.map (·.1) then (s, .refused (.duplicate metric name))
      else (s.extend name ⟨metric, value⟩, .recorded) := by
  rw [Store.perform, recordInPlace_eq, record_eq h.sound, if_congr h.contains_iff rfl rfl]
  split_ifs <;> rfl

/-- **One call**: the values grow by what it recorded. -/
theorem perform (h : s.Holds values) (c : Call) :
    (s.perform c).1.Holds (values ++ succeeded [(c, (s.perform c).2)]) := by
  have hsame : ∀ {a}, success? (c, a) = none → s.Holds (values ++ succeeded [(c, a)]) := by
    intro a ha
    rw [succeeded, List.filterMap_cons_none ha, List.filterMap_nil, List.append_nil]
    exact h
  cases c with
  | record name metric value =>
    rw [h.perform_record]
    split_ifs with hneg hold
    · exact hsame rfl
    · exact hsame rfl
    · -- the only call that changes the store
      cases metric
      refine ⟨?_, ?_⟩
      · show s.entries ++ [entryOf (name, value)] = (values ++ [(name, value)]).map entryOf
        rw [h.entries, List.map_append]
        rfl
      · show ((values ++ [(name, value)]).map (·.1)).Nodup
        rw [List.map_append, List.map_singleton, ← List.concat_eq_append]
        exact (List.nodup_concat _ _).mpr ⟨hold, h.nodup⟩
  | get | measuresFor | items | contains | size => exact hsame rfl

/-- **A run of calls**: by induction on the calls still to come. -/
theorem performAll (h : s.Holds values) (cs : List Call) :
    (s.performAll cs).1.Holds (values ++ succeeded (s.performAll cs).2) := by
  induction cs generalizing s values with
  | nil => simpa [Store.performAll, succeeded] using h
  | cons c cs ih =>
    have hrest := ih (h.perform c)
    rw [List.append_assoc, succeeded, succeeded, ← List.filterMap_append] at hrest
    exact hrest

theorem mem_items (h : s.Holds values) {name : String} {ms : List Measure} :
    (name, ms) ∈ s.items ↔ ∃ v, values.lookup name = some v ∧ ms = [⟨.hcc, v⟩] := by
  rw [Store.items, List.mem_mergeSort, h.entries, List.mem_map]
  constructor
  · rintro ⟨e, hmem, heq⟩
    obtain ⟨rfl, rfl⟩ := Prod.mk.inj heq
    exact ⟨e.2, lookup_of_mem h.nodup hmem, rfl⟩
  · rintro ⟨v, hlookup, rfl⟩
    obtain ⟨l₁, l₂, rfl, -⟩ := List.lookup_eq_some_iff.mp hlookup
    exact ⟨(name, v), by simp, rfl⟩

end Holds

/-! ## Insert-only maps -/

/-- How a store answers the next call when its history is that of an insert-only map. The value of a name is that of
its first record that succeeded. -/
structure InsertOnly (history : List (Call × Answer)) (s : Store) : Prop where
  /-- No name is recorded twice. -/
  once : ((succeeded history).map (·.1)).Nodup
  /-- A negative value is refused; or else a name is refused iff it was recorded before; a refusal changes nothing. -/
  record : ∀ name metric value, s.perform (.record name metric value) =
    if value.isNegative then (s, .refused (.negative metric value))
    else if name ∈ (succeeded history).map (·.1) then (s, .refused (.duplicate metric name))
    else (s.extend name ⟨metric, value⟩, .recorded)
  get : ∀ name metric, s.perform (.get name metric) = (s, .value ((succeeded history).lookup name))
  /-- A name has exactly one measure, or none if it was never recorded. -/
  measuresFor : ∀ name, s.perform (.measuresFor name) =
    (s, .measures (((succeeded history).lookup name).map fun v => (⟨.hcc, v⟩ : Measure)).toList)
  /-- The items are the names with their one measure, in strict order of the code points. -/
  items : ∃ items, s.perform .items = (s, .items items) ∧ items.Pairwise (·.1 < ·.1) ∧
    ∀ name ms, (name, ms) ∈ items ↔ ∃ v, (succeeded history).lookup name = some v ∧ ms = [⟨.hcc, v⟩]
  contains : ∀ name, s.perform (.contains name) = (s, .isThere ((succeeded history).lookup name).isSome)
  size : s.perform .size = (s, .count (succeeded history).length)

/-- **A store is an insert-only map**: after any calls on an empty store, the answer to the next call is the one that
the history of successful records determines. -/
theorem performAll_insertOnly (calls : List Call) :
    InsertOnly (empty.performAll calls).2 (empty.performAll calls).1 := by
  have hempty : empty.Holds [] := ⟨rfl, List.nodup_nil⟩
  have h := hempty.performAll calls
  rw [List.nil_append] at h
  refine ⟨h.nodup, h.perform_record, ?_, ?_, ?_, ?_, ?_⟩
  · intro name metric
    rw [← h.get? name metric]
    rfl
  · intro name
    rw [← h.measuresFor]
    rfl
  · exact ⟨_, rfl, pairwise_lt_mergeSort_key h.sound.nodup, fun name ms => h.mem_items⟩
  · intro name
    rw [← h.contains]
    rfl
  · rw [perform, size, h.entries, List.length_map]

end Store

end HandlerComplexity
