import HandlerComplexity.PartialClass
import HandlerComplexity.Proofs.Collect

/-!
# The first unit with a score wins

Of the units of one name that is new to the store, the first one with a score is recorded, and every other one is
refused; of a name that is in the store already, all are.

* `recordedOf_named`, `refusedOf_named`: this for the verdicts on a list of units, name by name.
* `contains_run`, `measuresFor_run`: the store after a run, name by name.
* `collect_one_worker_first_wins`: the whole collection with one worker, described by `FirstWins`.
-/

namespace HandlerComplexity

/-! ## Verdicts by name -/

theorem partsOf_cons_self (u : ClassUnit) (us : List ClassUnit) :
    partsOf (u :: us) u.qualifiedName = u :: partsOf us u.qualifiedName := by
  simp [partsOf]

theorem partsOf_cons_of_ne {u : ClassUnit} {name : String} (h : u.qualifiedName ≠ name) (us : List ClassUnit) :
    partsOf (u :: us) name = partsOf us name := by
  simp [partsOf, h]

theorem mark_of_ne {taken : String → Bool} {u : ClassUnit} {name : String} (h : u.qualifiedName ≠ name) :
    mark taken u name = taken name := by
  simp [mark, Ne.symm h]

theorem mark_self (taken : String → Bool) (u : ClassUnit) :
    mark taken u u.qualifiedName = (taken u.qualifiedName || u.isScored) := by
  simp [mark]

/-- The recorded unit of a name: none if the name was taken before, or else the first one with a score. -/
theorem recordedOf_named (taken : String → Bool) (us : List ClassUnit) (name : String) :
    partsOf (recordedOf (verdicts taken us)) name =
      if taken name then [] else ((partsOf us name).find? (·.isScored)).toList := by
  induction us generalizing taken with
  | nil => cases taken name <;> rfl
  | cons u us ih =>
    by_cases hn : u.qualifiedName = name
    · subst hn
      have ih := ih (mark taken u)
      rw [mark_self] at ih
      rw [partsOf_cons_self]
      cases hs : u.isScored with
      | false => simpa [verdicts, recordedOf, hs] using ih
      | true =>
        cases ht : taken u.qualifiedName with
        | false =>
          have hnext : recordedOf (verdicts taken (u :: us)) = u :: recordedOf (verdicts (mark taken u) us) := by
            simp [verdicts, recordedOf, hs, ht]
          rw [hnext, partsOf_cons_self, ih, hs]
          simp [hs]
        | true => simpa [verdicts, recordedOf, hs, ht] using ih
    · -- a unit of another name changes nothing for this one
      have ih := ih (mark taken u)
      rw [mark_of_ne hn] at ih
      rw [partsOf_cons_of_ne hn, ← ih, verdicts, recordedOf, List.filter_cons]
      split_ifs
      · rw [List.map_cons, partsOf_cons_of_ne hn]
        rfl
      · rfl

/-- The refused units of a name, in order: all, without the recorded one. -/
theorem refusedOf_named (taken : String → Bool) (us : List ClassUnit) (name : String) :
    partsOf (refusedOf (verdicts taken us)) name =
      if taken name then partsOf us name else (partsOf us name).eraseP (·.isScored) := by
  induction us generalizing taken with
  | nil => cases taken name <;> rfl
  | cons u us ih =>
    by_cases hn : u.qualifiedName = name
    · subst hn
      have ih := ih (mark taken u)
      rw [mark_self] at ih
      rw [partsOf_cons_self]
      have hrefused : (u.isScored && !taken u.qualifiedName) = false →
          refusedOf (verdicts taken (u :: us)) = u :: refusedOf (verdicts (mark taken u) us) := by
        intro h
        simp [verdicts, refusedOf, h]
      cases hs : u.isScored with
      | false =>
        rw [hrefused (by simp [hs]), partsOf_cons_self, ih, hs, Bool.or_false, List.eraseP_cons, hs]
        cases taken u.qualifiedName <;> rfl
      | true =>
        cases ht : taken u.qualifiedName with
        | false =>
          have hnext : refusedOf (verdicts taken (u :: us)) = refusedOf (verdicts (mark taken u) us) := by
            simp [verdicts, refusedOf, hs, ht]
          rw [hnext, ih, hs, List.eraseP_cons, hs]
          simp
        | true =>
          rw [hrefused (by simp [ht]), partsOf_cons_self, ih, ht]
          simp
    · have ih := ih (mark taken u)
      rw [mark_of_ne hn] at ih
      rw [partsOf_cons_of_ne hn, ← ih, verdicts, refusedOf, List.filter_cons]
      split_ifs
      · rw [List.map_cons, partsOf_cons_of_ne hn]
        rfl
      · rfl

/-! ## The store after a run -/

namespace Store

@[simp] theorem names_extendBy (s : Store) (us : List ClassUnit) :
    (s.extendBy us).names = s.names ++ us.map (·.qualifiedName) := by
  simp [names, extendBy, Function.comp_def]

theorem lookup_measures (us : List ClassUnit) (name : String) :
    (us.map fun u => (u.qualifiedName, [u.measure])).lookup name =
      ((partsOf us name).head?.map fun u => [u.measure]) := by
  induction us with
  | nil => rfl
  | cons u us ih =>
    rw [List.map_cons, List.lookup_cons]
    by_cases hn : u.qualifiedName = name
    · subst hn
      simp [partsOf_cons_self]
    · rw [beq_eq_false_iff_ne.mpr (Ne.symm hn), partsOf_cons_of_ne hn]
      exact ih

theorem measuresFor_extendBy_of_contains {s : Store} {name : String} (h : s.contains name = true)
    (us : List ClassUnit) : (s.extendBy us).measuresFor name = s.measuresFor name := by
  obtain ⟨ms, hms⟩ := exists_lookup h
  rw [measuresFor, measuresFor, extendBy, List.lookup_append, hms, Option.some_or]

theorem measuresFor_extendBy_of_not_contains {s : Store} {name : String} (h : s.contains name = false)
    (us : List ClassUnit) :
    (s.extendBy us).measuresFor name = ((partsOf us name).head?.map (·.measure)).toList := by
  rw [measuresFor, extendBy, List.lookup_append, lookup_eq_none h, Option.none_or, lookup_measures]
  cases (partsOf us name).head? <;> rfl

theorem contains_extendBy (s : Store) (us : List ClassUnit) (name : String) :
    (s.extendBy us).contains name = true ↔ s.contains name = true ∨ partsOf us name ≠ [] := by
  rw [contains_iff, contains_iff, names_extendBy, List.mem_append]
  refine or_congr Iff.rfl ?_
  rw [Ne, partsOf, List.filter_eq_nil_iff]
  simp

/-- A new name is in the store after a run iff some unit of that name has a score. -/
theorem contains_run {s : Store} {name : String} (h : s.contains name = false) (us : List ClassUnit) :
    (s.run us).contains name = true ↔ ∃ u ∈ us, u.qualifiedName = name ∧ u.isScored = true := by
  rw [run, contains_extendBy, recordedOf_named, h]
  simp [partsOf]

/-- The measures of a new name after a run are those of the first unit with a score. -/
theorem measuresFor_run {s : Store} {name : String} (h : s.contains name = false) (us : List ClassUnit) :
    (s.run us).measuresFor name = (((partsOf us name).find? (·.isScored)).map (·.measure)).toList := by
  rw [run, measuresFor_extendBy_of_not_contains h, recordedOf_named, h]
  simp

end Store

/-! ## The collection -/

/-- The failures of one target in what a collection returns are those of the refused units of that name, in order. -/
theorem filter_errors_of (vs : List (ClassUnit × Bool)) (skipped : Nat) (name : String) :
    (Collected.of vs skipped).errors.filter (·.target = name) =
      (partsOf (refusedOf vs) name).map ClassUnit.trouble := by
  rw [Collected.of, filter_mergeSort_key, List.filter_map]
  rfl

theorem length_errors_of (vs : List (ClassUnit × Bool)) (skipped : Nat) :
    (Collected.of vs skipped).measured + (Collected.of vs skipped).errors.length = vs.length := by
  rw [← length_recordedOf_add vs]
  simp [Collected.of]

/-- The unit that is measured for a name: the first eligible one with a score. -/
def winner (accepts : ClassUnit → Bool) (units : List ClassUnit) (name : String) : Option ClassUnit :=
  units.find? fun u => accepts u && (u.qualifiedName = name && u.isScored)

theorem winner_eq (accepts : ClassUnit → Bool) (units : List ClassUnit) (name : String) :
    winner accepts units name = (partsOf (units.filter accepts) name).find? (·.isScored) := by
  rw [partsOf, List.find?_filter, List.find?_filter, winner]
  simp

/-- What a collection from a store leaves behind when the first unit of each new name wins. -/
structure FirstWins (accepts : ClassUnit → Bool) (store : Store) (units : List ClassUnit) (p : Progress)
    (a : Collected) : Prop where
  /-- Names in the store keep their measures. -/
  keeps : ∀ name, store.contains name = true →
    p.store.contains name = true ∧ p.store.measuresFor name = store.measuresFor name
  /-- A new name is recorded iff an eligible unit of that name has a score. -/
  recorded : ∀ name, store.contains name = false →
    (p.store.contains name = true ↔
      ∃ u ∈ units, accepts u = true ∧ u.qualifiedName = name ∧ ∃ n, u.score = .ok n)
  /-- Its value is the score of the first such unit. -/
  first : ∀ name, store.contains name = false → ∀ u n, winner accepts units name = some u → u.score = .ok n →
    p.store.measuresFor name = [⟨.hcc, .ofScore n⟩]
  /-- The number of measured units is that of the new names. -/
  measured : ∃ fresh, p.store.names = store.names ++ fresh ∧ p.store.names.Nodup ∧ a.measured = fresh.length
  skipped : a.skipped = units.countP (!accepts ·)
  /-- The failures are in the order of their targets. -/
  sorted : a.errors.Pairwise (·.target ≤ ·.target)
  /-- The failures of one target are those of the eligible units of that name, in order and without the recorded one. -/
  failures : ∀ name, a.errors.filter (·.target = name) =
    (if store.contains name then partsOf (units.filter accepts) name
      else (partsOf (units.filter accepts) name).eraseP (·.isScored)).map ClassUnit.trouble
  /-- A failure says what is wrong with the tree of the unit and names the unit, or else that its name is taken. -/
  texts : ∀ t ∈ a.errors, ∃ u ∈ units, accepts u = true ∧ t.target = u.qualifiedName ∧
    ((∃ m, u.score = .error m ∧ t.message = { m with owner := some u.qualifiedName : Malformed }.message) ∨
      ((∃ n, u.score = .ok n) ∧ t.message = "HCC already recorded for " ++ u.qualifiedName))
  /-- Every unit is measured, skipped or reported. -/
  complete : a.measured + a.skipped + a.errors.length = units.length

theorem measuresFor_run_first {accepts : ClassUnit → Bool} {store : Store} {name : String}
    (hc : store.contains name = false) {units : List ClassUnit} {u : ClassUnit} {n : Nat}
    (hfirst : winner accepts units name = some u) (hscore : u.score = .ok n) :
    (store.run (units.filter accepts)).measuresFor name = [⟨.hcc, .ofScore n⟩] := by
  rw [Store.measuresFor_run hc, ← winner_eq, hfirst, ← ClassUnit.measure_of_score hscore]
  rfl

/-- What the trouble of a unit says. -/
theorem text_of_trouble (u : ClassUnit) :
    (∃ m, u.score = .error m ∧ u.trouble.message = { m with owner := some u.qualifiedName : Malformed }.message) ∨
      ((∃ n, u.score = .ok n) ∧ u.trouble.message = "HCC already recorded for " ++ u.qualifiedName) := by
  cases h : u.score with
  | error m => exact .inl ⟨m, rfl, by rw [ClassUnit.trouble_of_malformed h]⟩
  | ok n => exact .inr ⟨⟨n, rfl⟩, by rw [ClassUnit.trouble_of_score h]⟩

/-- Every unit is counted once, whatever the verdicts on the eligible ones are. -/
theorem complete_of {accepts : ClassUnit → Bool} {units : List ClassUnit} {vs : List (ClassUnit × Bool)}
    (hvs : vs.length = (units.filter accepts).length) :
    (Collected.of vs (units.countP (!accepts ·))).measured + (Collected.of vs (units.countP (!accepts ·))).skipped +
      (Collected.of vs (units.countP (!accepts ·))).errors.length = units.length := by
  have hlen := length_errors_of vs (units.countP (!accepts ·))
  rw [hvs, ← List.countP_eq_length_filter] at hlen
  have hsplit := List.length_eq_countP_add_countP accepts (l := units)
  simp only [Bool.not_eq_true, Bool.decide_eq_false] at hsplit
  show _ + units.countP (!accepts ·) + _ = _
  omega

/-- **Collecting with one worker**, with a policy that decides about every unit and the default extractor: there is a
result, and the first unit of each new name wins. -/
theorem collect_one_worker_first_wins (s : Schedule) (accepts : ClassUnit → Bool) {store : Store}
    (hs : store.Reachable) (units : List ClassUnit) :
    ∃ p a, collect s { eligibility := fun u => .ok (accepts u), workers := 1 } store units = (p, .ok a) ∧
      FirstWins accepts store units p a := by
  have he : ∀ u ∈ units, ({ eligibility := fun u => .ok (accepts u), workers := 1 } : Collector).eligibility u =
      .ok (accepts u) := fun _ _ => rfl
  obtain ⟨log, hrun⟩ := collect_one_worker he rfl rfl (fun h => Int.lt_irrefl 1 h.2) s hs
  refine ⟨_, _, hrun, ?_⟩
  set kept := units.filter accepts with hkept
  constructor
  case keeps =>
    intro name hc
    exact ⟨(Store.contains_extendBy _ _ _).mpr (.inl hc), Store.measuresFor_extendBy_of_contains hc _⟩
  case recorded =>
    intro name hc
    rw [Store.contains_run hc]
    simp only [hkept, List.mem_filter, ClassUnit.isScored_iff, and_assoc]
  case first =>
    intro name hc u n hfirst hscore
    exact measuresFor_run_first hc hfirst hscore
  case measured =>
    refine ⟨(recordedOf (verdicts store.contains kept)).map (·.qualifiedName), ?_, ?_, ?_⟩
    · exact Store.names_extendBy _ _
    · exact (hs.run kept).sound.nodup
    · simp [Collected.of]
  case skipped => rfl
  case sorted => exact pairwise_mergeSort_key _
  case failures =>
    intro name
    rw [filter_errors_of, refusedOf_named]
  case texts =>
    intro t ht
    obtain ⟨u, hu, rfl⟩ := List.mem_map.mp (List.mem_mergeSort.mp ht)
    obtain ⟨hmem, hacc⟩ := List.mem_filter.mp ((refusedOf_sublist _ _).subset hu)
    exact ⟨u, hmem, hacc, rfl, text_of_trouble u⟩
  case complete => exact complete_of (length_verdicts _ _)

/-- A class with one handler, which has its body or lacks it. -/
def catchingUnit (name : String) (hasBody : Bool) : ClassUnit :=
  let handler : Node :=
    { id := .place [1], kind := .handler, children := [{ id := .place [2], kind := .block }],
      body := if hasBody then some (.place [2]) else none }
  { qualifiedName := name, root := { id := .place [0], kind := .classBody, children := [handler] } }

/-- A store with one class. -/
def oldStore : Store := Store.empty.extend "p.Old" ⟨.hcc, .ofScore 2⟩

theorem reachable_oldStore : oldStore.Reachable := Store.Reachable.empty.extend .hcc 2 rfl

/-- A malformed class, two good ones of the same name, one whose name is in the store, and one that is not eligible. -/
def mixedUnits : List ClassUnit :=
  [catchingUnit "p.A" false, catchingUnit "p.A" true, catchingUnit "p.A" true, catchingUnit "p.Old" true,
    catchingUnit "p.Skip" true]

theorem score_catchingUnit (name : String) : (catchingUnit name true).score = .ok 1 := by
  show (catchingUnit "" true).root.classScore = .ok 1
  decide +kernel

theorem isScored_catchingUnit_false (name : String) : (catchingUnit name false).isScored = false := by
  show (catchingUnit "" false).isScored = false
  decide +kernel

/-- In the mixed list the malformed class does not stand in the way of the good one behind it. -/
theorem first_wins_mixed :
    oldStore.Reachable ∧ ∃ p a,
      collect .inOrder { eligibility := fun u => .ok (u.qualifiedName != "p.Skip"), workers := 1 } oldStore
        mixedUnits = (p, .ok a) ∧
      FirstWins (·.qualifiedName != "p.Skip") oldStore mixedUnits p a ∧
      p.store.measuresFor "p.A" = [⟨.hcc, .ofScore 1⟩] ∧ a.measured + a.skipped + a.errors.length = 5 := by
  obtain ⟨p, a, hrun, hwins⟩ :=
    collect_one_worker_first_wins .inOrder (·.qualifiedName != "p.Skip") reachable_oldStore mixedUnits
  refine ⟨reachable_oldStore, p, a, hrun, hwins, ?_, hwins.complete⟩
  refine hwins.first "p.A" rfl (catchingUnit "p.A" true) 1 ?_ (score_catchingUnit _)
  have hgood : (catchingUnit "p.A" true).isScored = true := ClassUnit.isScored_iff.mpr ⟨1, score_catchingUnit _⟩
  simp only [winner, mixedUnits, List.find?_cons, isScored_catchingUnit_false, hgood, Bool.and_false]
  rfl

end HandlerComplexity
