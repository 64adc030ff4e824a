import HandlerComplexity.Collect
import HandlerComplexity.Proofs.Score
import HandlerComplexity.Proofs.Sort

/-!
# Collecting with the default extractor

Whether a unit is recorded depends on its own score and on the names that are in the store by then, and what is
reported about a unit that is not recorded depends on the unit alone.

* `measureUnit_default`: what measuring one unit does.
* `verdicts taken us`: the units with whether each is recorded, when `taken` holds of the names recorded before.
* `collectInOrder_default`: a run over all units, in terms of the verdicts.
* `sift_total`: the eligible units.
-/

namespace HandlerComplexity

namespace ClassUnit

/-! ## One unit -/

/-- Whether the class has a score. -/
def isScored (u : ClassUnit) : Bool := u.score.isOk

/-- The measure of a class that has a score. -/
def measure (u : ClassUnit) : Measure := ⟨.hcc, .ofScore (Node.worth u.score)⟩

/-- What goes wrong with a class that is not recorded: it has no score, or else its name is taken. -/
def failure (u : ClassUnit) : Failure :=
  match u.score with
  | .error m => .malformed { m with owner := some u.qualifiedName }
  | .ok _ => .record (.duplicate .hcc u.qualifiedName)

/-- What is reported about a class that is not recorded. -/
def trouble (u : ClassUnit) : Trouble := ⟨u.qualifiedName, u.failure.message⟩

theorem isScored_iff {u : ClassUnit} : u.isScored = true ↔ ∃ n, u.score = .ok n := by
  unfold isScored
  cases u.score with
  | error m => simp [Except.isOk, Except.toBool]
  | ok n => simp [Except.isOk, Except.toBool]

theorem measure_of_score {u : ClassUnit} {n : Nat} (h : u.score = .ok n) : u.measure = ⟨.hcc, .ofScore n⟩ := by
  rw [measure, h]
  rfl

theorem isOfClass_failure (u : ClassUnit) : u.failure.isOfClass = true := by
  unfold failure
  cases u.score <;> rfl

theorem trouble_of_malformed {u : ClassUnit} {m : Malformed} (h : u.score = .error m) :
    u.trouble = ⟨u.qualifiedName, { m with owner := some u.qualifiedName : Malformed }.message⟩ := by
  rw [trouble, failure, h]
  rfl

theorem trouble_of_score {u : ClassUnit} {n : Nat} (h : u.score = .ok n) :
    u.trouble = ⟨u.qualifiedName, "HCC already recorded for " ++ u.qualifiedName⟩ := by
  rw [trouble, failure, h]
  rfl

/-- Two classes of one name that both have a score have the same trouble when they are not recorded. -/
theorem trouble_congr {u v : ClassUnit} (hn : u.qualifiedName = v.qualifiedName) (hu : u.isScored = true)
    (hv : v.isScored = true) : u.trouble = v.trouble := by
  obtain ⟨n, hu⟩ := isScored_iff.mp hu
  obtain ⟨k, hv⟩ := isScored_iff.mp hv
  rw [trouble_of_score hu, trouble_of_score hv, hn]

end ClassUnit

@[simp] theorem Progress.store_write (p : Progress) (log : Log) : (p.write log).store = p.store := rfl

/-- Whether measuring a unit records it. -/
def Store.admits (s : Store) (u : ClassUnit) : Bool := u.isScored && !s.contains u.qualifiedName

/-- The store after a unit was measured. -/
def Store.after (s : Store) (u : ClassUnit) : Store :=
  if s.admits u then s.extend u.qualifiedName u.measure else s

/-- The result of measuring a unit that is recorded or not. -/
def resultOf (u : ClassUnit) (recorded : Bool) : Except Failure Nat :=
  if recorded then .ok 1 else .error u.failure

theorem extract_default_error {u : ClassUnit} {m : Malformed} (h : u.score = .error m) :
    extract (eligible none) u = ([], .error u.failure) := by
  simp only [extract, eligible, ClassUnit.failure, h]

theorem extract_default_ok {u : ClassUnit} {n : Nat} (h : u.score = .ok n) :
    ∃ log, extract (eligible none) u = (log, .ok (some ⟨.hcc, .ofScore n⟩)) := by
  simp only [extract, eligible, h, Measure.make_ofScore]
  exact ⟨_, rfl⟩

theorem recordAll_singleton {s : Store} (hs : s.Sound) (name : String) (n : Nat) :
    recordAll name s [⟨.hcc, .ofScore n⟩] =
      if s.contains name then (s, .error (.record (.duplicate .hcc name)))
      else (s.extend name ⟨.hcc, .ofScore n⟩, .ok ()) := by
  have hv : (Value.ofScore n).isNegative = false := Binary64.isNegative_ofNat n
  rw [recordAll, Store.record_eq hs, hv]
  cases s.contains name <;> rfl

/-- **One unit**: it is recorded if it has a score and its name is new; otherwise the store stays as it is and the
failure of the unit is returned. -/
theorem measureUnit_default {p : Progress} (hs : p.store.Sound) (u : ClassUnit) :
    ∃ log, measureUnit [eligible none] p u = (⟨p.store.after u, log⟩, resultOf u (p.store.admits u)) := by
  unfold measureUnit Store.after
  cases hscore : u.score with
  | error m =>
    have hno : p.store.admits u = false := by
      simp [Store.admits, ClassUnit.isScored, hscore, Except.isOk, Except.toBool]
    rw [extractAll, extract_default_error hscore, hno]
    exact ⟨_, rfl⟩
  | ok n =>
    obtain ⟨log, hx⟩ := extract_default_ok hscore
    have hyes : p.store.admits u = !p.store.contains u.qualifiedName := by
      simp [Store.admits, ClassUnit.isScored_iff.mpr ⟨n, hscore⟩]
    rw [extractAll, hx, hyes, ClassUnit.measure_of_score hscore]
    simp only [extractAll, List.reverse_singleton, Progress.store_write, recordAll_singleton hs]
    cases p.store.contains u.qualifiedName with
    | true => exact ⟨_, by simp only [resultOf, ClassUnit.failure, hscore]; rfl⟩
    | false => exact ⟨_, rfl⟩

/-! ## Many units -/

/-- The names recorded once a unit was measured. -/
def mark (taken : String → Bool) (u : ClassUnit) (name : String) : Bool :=
  taken name || (u.isScored && name = u.qualifiedName)

/-- The units, each with whether it is recorded, when they are measured one after the other and `taken` holds of the
names recorded before. -/
def verdicts (taken : String → Bool) : List ClassUnit → List (ClassUnit × Bool)
  | [] => []
  | u :: us => (u, u.isScored && !taken u.qualifiedName) :: verdicts (mark taken u) us

/-- The units that are recorded. -/
def recordedOf (vs : List (ClassUnit × Bool)) : List ClassUnit := (vs.filter (·.2)).map (·.1)

/-- The units that are not recorded. -/
def refusedOf (vs : List (ClassUnit × Bool)) : List ClassUnit := (vs.filter (!·.2)).map (·.1)

/-- A store with the measures of units behind all others. -/
def Store.extendBy (s : Store) (us : List ClassUnit) : Store :=
  ⟨s.entries ++ us.map fun u => (u.qualifiedName, [u.measure])⟩

/-- The store after units were measured one after the other. -/
def Store.run (s : Store) (us : List ClassUnit) : Store := s.extendBy (recordedOf (verdicts s.contains us))

theorem map_fst_verdicts (taken : String → Bool) (us : List ClassUnit) : (verdicts taken us).map (·.1) = us := by
  induction us generalizing taken with
  | nil => rfl
  | cons u us ih => rw [verdicts, List.map_cons, ih]

theorem length_verdicts (taken : String → Bool) (us : List ClassUnit) : (verdicts taken us).length = us.length := by
  rw [← List.length_map (·.1), map_fst_verdicts]

theorem refusedOf_sublist (taken : String → Bool) (us : List ClassUnit) :
    (refusedOf (verdicts taken us)).Sublist us := by
  conv_rhs => rw [← map_fst_verdicts taken us]
  exact List.filter_sublist.map _

theorem length_recordedOf_add (vs : List (ClassUnit × Bool)) :
    (recordedOf vs).length + (refusedOf vs).length = vs.length := by
  simp only [recordedOf, refusedOf, List.length_map]
  induction vs with
  | nil => rfl
  | cons v vs ih =>
    cases hv : v.2 <;> simp only [List.filter_cons, hv] <;> simp <;> omega

theorem Store.contains_after (s : Store) (u : ClassUnit) : (s.after u).contains = mark s.contains u := by
  funext name
  unfold after mark admits
  cases hu : u.isScored with
  | false => simp
  | true =>
    cases hc : s.contains u.qualifiedName with
    | false => simp
    | true =>
      by_cases hn : name = u.qualifiedName
      · simp [hn, hc]
      · simp [hn]

theorem Store.Reachable.after {s : Store} (h : s.Reachable) (u : ClassUnit) : (s.after u).Reachable := by
  unfold Store.after
  split_ifs with ha
  · have hc : s.contains u.qualifiedName = false := by
      simp only [Store.admits, Bool.and_eq_true, Bool.not_eq_true'] at ha
      exact ha.2
    exact h.extend _ _ hc
  · exact h

/-- A run measures the next unit first, then those behind it. -/
theorem Store.run_after (s : Store) (u : ClassUnit) (us : List ClassUnit) : (s.after u).run us = s.run (u :: us) := by
  rw [run, run, verdicts, ← s.contains_after u]
  change _ = s.extendBy (recordedOf ((u, s.admits u) :: _))
  cases ha : s.admits u with
  | true => simp [Store.after, ha, Store.extend, Store.extendBy, recordedOf]
  | false => simp [Store.after, ha, recordedOf]

@[simp] theorem Store.run_nil (s : Store) : s.run [] = s := by
  simp [run, extendBy, recordedOf, verdicts]

theorem Store.Reachable.run {s : Store} (h : s.Reachable) (us : List ClassUnit) : (s.run us).Reachable := by
  induction us generalizing s with
  | nil =>
    rw [Store.run_nil]
    exact h
  | cons u us ih =>
    rw [← s.run_after u us]
    exact ih (h.after u)

namespace Tally

/-- The tally after units were counted. -/
def count (t : Tally) (vs : List (ClassUnit × Bool)) : Tally :=
  ⟨t.measured + (recordedOf vs).length, ((refusedOf vs).map ClassUnit.trouble).reverse ++ t.failures⟩

theorem count_cons (t : Tally) (v : ClassUnit × Bool) (vs : List (ClassUnit × Bool)) :
    (t.count [v]).count vs = t.count (v :: vs) := by
  obtain ⟨u, b⟩ := v
  cases b with
  | false => simp [count, recordedOf, refusedOf]
  | true =>
    simp only [count, recordedOf, refusedOf, Tally.mk.injEq]
    refine ⟨?_, by simp⟩
    simp
    omega

/-- No result of a unit ends a collection that is to go on. -/
theorem add_resultOf (t : Tally) (u : ClassUnit) (b : Bool) :
    ∃ log, t.add false u (resultOf u b) = (log, .ok (t.count [(u, b)])) := by
  cases b with
  | true => exact ⟨_, rfl⟩
  | false =>
    refine ⟨[failedEntry u u.failure], ?_⟩
    simp only [resultOf, add, Bool.false_eq_true, if_false, ClassUnit.isOfClass_failure]
    rfl

end Tally

/-- **A run in order**: the store grows by the recorded units, and the tally counts every unit. The invariant is that
the store is reachable; the induction is on the units still to be measured. -/
theorem collectInOrder_default {c : Collector} (hx : c.extractors = [eligible none]) (hf : c.failFast = false)
    (us : List ClassUnit) (p : Progress) (t : Tally) (hs : p.store.Reachable) :
    ∃ log, collectInOrder c p t us = (⟨p.store.run us, log⟩, .ok (t.count (verdicts p.store.contains us))) := by
  induction us generalizing p t with
  | nil => exact ⟨p.log, by simp [collectInOrder, verdicts, recordedOf, refusedOf, Tally.count]⟩
  | cons u us ih =>
    obtain ⟨log, hu⟩ := measureUnit_default hs.sound u
    obtain ⟨entries, ht⟩ := t.add_resultOf u (p.store.admits u)
    rw [collectInOrder, hx, hu, hf]
    simp only [ht]
    obtain ⟨log', hrun⟩ := ih ((⟨p.store.after u, log⟩ : Progress).write entries) (t.count [(u, p.store.admits u)])
      (hs.after u)
    refine ⟨log', ?_⟩
    rw [hrun]
    simp only [Progress.store_write]
    rw [Store.run_after, Tally.count_cons, Store.contains_after]
    rfl

/-! ## Eligible units -/

/-- A policy that decides about every unit keeps the units it accepts and counts the others. -/
theorem sift_total {eligibility : Eligibility} {accepts : ClassUnit → Bool} {us : List ClassUnit}
    (h : ∀ u ∈ us, eligibility u = .ok (accepts u)) (log : Log) (kept : List ClassUnit) (skipped : Nat) :
    ∃ log', sift eligibility log kept skipped us =
      (log', .ok (kept.reverse ++ us.filter accepts, skipped + us.countP (!accepts ·))) := by
  induction us generalizing log kept skipped with
  | nil => exact ⟨log, by simp [sift]⟩
  | cons u us ih =>
    have hu := h u List.mem_cons_self
    have hrest : ∀ v ∈ us, eligibility v = .ok (accepts v) := fun v hv => h v (List.mem_cons_of_mem _ hv)
    rw [sift, hu]
    cases ha : accepts u with
    | true =>
      obtain ⟨log', hlog⟩ := ih hrest log (u :: kept) skipped
      exact ⟨log', by simp [hlog, ha]⟩
    | false =>
      obtain ⟨log', hlog⟩ := ih hrest (log ++ [⟨.debug, .engine, skippedMessage u⟩]) kept (skipped + 1)
      refine ⟨log', ?_⟩
      simp only [hlog, List.filter_cons, List.countP_cons, ha]
      simp
      omega

theorem sift_all {eligibility : Eligibility} {accepts : ClassUnit → Bool} {us : List ClassUnit}
    (h : ∀ u ∈ us, eligibility u = .ok (accepts u)) :
    ∃ log, sift eligibility [] [] 0 us = (log, .ok (us.filter accepts, us.countP (!accepts ·))) := by
  obtain ⟨log, hsift⟩ := sift_total h [] [] 0
  rw [List.reverse_nil, List.nil_append, Nat.zero_add] at hsift
  exact ⟨log, hsift⟩

/-- The units are sifted to the end only if the policy decides about every one. -/
theorem decided_of_sift {eligibility : Eligibility} {us : List ClassUnit} {log log' : Log} {kept : List ClassUnit}
    {skipped : Nat} {r : List ClassUnit × Nat} (h : sift eligibility log kept skipped us = (log', .ok r)) :
    ∀ u ∈ us, ∃ b, eligibility u = .ok b := by
  induction us generalizing log kept skipped with
  | nil =>
    intro u hu
    cases hu
  | cons v us ih =>
    rw [sift] at h
    cases hv : eligibility v with
    | error e =>
      rw [hv] at h
      cases h
    | ok b =>
      have hrest : ∀ u ∈ us, ∃ b, eligibility u = .ok b := by
        rw [hv] at h
        cases b with
        | true => exact ih h
        | false => exact ih h
      intro u hu
      rcases List.mem_cons.mp hu with rfl | hu
      · exact ⟨b, hv⟩
      · exact hrest u hu

/-- Otherwise the first unit that is not decided about ends the collection. -/
theorem sift_undecided {eligibility : Eligibility} {us : List ClassUnit} (h : ¬ ∀ u ∈ us, ∃ b, eligibility u = .ok b)
    (log : Log) (kept : List ClassUnit) (skipped : Nat) :
    ∃ u e log', u ∈ us ∧ eligibility u = .error e ∧
      sift eligibility log kept skipped us = (log', .error (.policy e)) := by
  induction us generalizing log kept skipped with
  | nil => simp at h
  | cons v us ih =>
    rw [sift]
    cases hv : eligibility v with
    | error e => exact ⟨v, e, log, List.mem_cons_self, hv, rfl⟩
    | ok b =>
      have hrest : ¬ ∀ u ∈ us, ∃ b, eligibility u = .ok b :=
        fun hall => h (List.forall_mem_cons.mpr ⟨⟨b, hv⟩, hall⟩)
      cases b with
      | true =>
        obtain ⟨u, e, log', hu, he, hsift⟩ := ih hrest log (v :: kept) skipped
        exact ⟨u, e, log', List.mem_cons_of_mem _ hu, he, hsift⟩
      | false =>
        obtain ⟨u, e, log', hu, he, hsift⟩ := ih hrest (log ++ [⟨.debug, .engine, skippedMessage v⟩]) kept (skipped + 1)
        exact ⟨u, e, log', List.mem_cons_of_mem _ hu, he, hsift⟩

theorem decided_of_collect {s : Schedule} {c : Collector} {store : Store} {units : List ClassUnit} {p : Progress}
    {a : Collected} (h : collect s c store units = (p, .ok a)) : ∀ u ∈ units, ∃ b, c.eligibility u = .ok b := by
  rcases hsift : sift c.eligibility [] [] 0 units with ⟨log, f | r⟩
  · rw [collect, hsift] at h
    cases h
  · exact decided_of_sift hsift

/-- What a collection returns when the results are counted in the order of the verdicts. -/
def Collected.of (vs : List (ClassUnit × Bool)) (skipped : Nat) : Collected :=
  ⟨(recordedOf vs).length, skipped, ((refusedOf vs).map ClassUnit.trouble).mergeSort (keyLe Trouble.target)⟩

theorem map_count_eq_of (vs : List (ClassUnit × Bool)) (skipped : Nat) :
    ((.ok (({} : Tally).count vs) : Except Failure Tally).map fun t =>
      (⟨t.measured, skipped, t.failures.reverse.mergeSort fun a b => decide (a.target ≤ b.target)⟩ : Collected)) =
      .ok (.of vs skipped) := by
  simp [Except.map, Tally.count, Collected.of]

/-- **One worker**, or no more than one unit: the whole collection, in terms of the verdicts on the eligible units in
order. -/
theorem collect_one_worker {c : Collector} {accepts : ClassUnit → Bool} {units : List ClassUnit}
    (he : ∀ u ∈ units, c.eligibility u = .ok (accepts u)) (hx : c.extractors = [eligible none])
    (hf : c.failFast = false) (hw : ¬ (1 < (units.filter accepts).length ∧ 1 < c.workers)) (s : Schedule)
    {store : Store} (hs : store.Reachable) :
    ∃ log, collect s c store units =
      (⟨store.run (units.filter accepts), log⟩,
        .ok (.of (verdicts store.contains (units.filter accepts)) (units.countP (!accepts ·)))) := by
  obtain ⟨log, hsift⟩ := sift_all he
  obtain ⟨log', hrun⟩ := collectInOrder_default hx hf (units.filter accepts) ⟨store, log⟩ {} hs
  refine ⟨log', ?_⟩
  unfold collect
  rw [hsift]
  simp only [if_neg hw, hrun, map_count_eq_of]

end HandlerComplexity
