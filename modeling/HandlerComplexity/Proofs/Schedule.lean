import HandlerComplexity.Proofs.FirstWins
import HandlerComplexity.Proofs.Steps

/-!
# Workers

Two orders are free when several workers collect: the one in which the units are measured and the one in which their
results are delivered.

* `verdicts_perm`: up to the choice among units of one name that have a score, the verdicts do not depend on the order
  of measuring.
* `steps_default`, `countAll_default`: the runs, in terms of the verdicts.
* `collect_any_order`: any collection is one in which the units are measured in some order and the verdicts are counted
  in some order.
* `collect_workers_agree`: several workers against one.
-/

namespace HandlerComplexity

/-! ## The order of measuring -/

theorem mark_comm (taken : String → Bool) (u v : ClassUnit) : mark (mark taken u) v = mark (mark taken v) u := by
  funext name
  simp only [mark, Bool.or_assoc]
  rw [Bool.or_comm (u.isScored && _)]

/-- What a verdict comes to: whether the unit is recorded, and what is reported of it if it is not. -/
def effect (v : ClassUnit × Bool) : Bool × Trouble := (v.2, v.1.trouble)

/-- Two units change places. If they have one name and both have a score, one is recorded and the other one is refused
either way, and the trouble is the same for both; otherwise neither of them has an influence on the other. -/
theorem verdicts_swap (taken : String → Bool) (u v : ClassUnit) (us : List ClassUnit) :
    ((verdicts taken (v :: u :: us)).map effect).Perm ((verdicts taken (u :: v :: us)).map effect) := by
  simp only [verdicts, List.map_cons, mark_comm taken v u]
  by_cases hn : u.qualifiedName = v.qualifiedName
  · cases hu : u.isScored with
    | false =>
      simp only [mark, hu, hn, Bool.false_and, Bool.or_false]
      exact .swap _ _ _
    | true =>
      cases hv : v.isScored with
      | false =>
        simp only [mark, hv, hn, Bool.false_and, Bool.or_false]
        exact .swap _ _ _
      | true =>
        simp only [effect, mark, hu, hv, hn, ClassUnit.trouble_congr hn hu hv]
        exact .refl _
  · rw [mark_of_ne hn, mark_of_ne (Ne.symm hn)]
    exact .swap _ _ _

theorem verdicts_perm {us vs : List ClassUnit} (h : us.Perm vs) (taken : String → Bool) :
    ((verdicts taken us).map effect).Perm ((verdicts taken vs).map effect) := by
  induction h generalizing taken with
  | nil => exact .refl _
  | cons u _ ih => exact (ih (mark taken u)).cons _
  | swap u v us => exact verdicts_swap taken u v us
  | trans _ _ ih₁ ih₂ => exact (ih₁ taken).trans (ih₂ taken)

theorem length_recordedOf (vs : List (ClassUnit × Bool)) : (recordedOf vs).length = (vs.map effect).countP (·.1) := by
  rw [recordedOf, List.length_map, ← List.countP_eq_length_filter, List.countP_map]
  rfl

theorem map_trouble_refusedOf (vs : List (ClassUnit × Bool)) :
    (refusedOf vs).map ClassUnit.trouble = ((vs.map effect).filter (!·.1)).map (·.2) := by
  rw [refusedOf, List.filter_map, List.map_map, List.map_map]
  rfl

/-- Units of different names do not meet. -/
theorem verdicts_of_nodup {us : List ClassUnit} (hn : (us.map (·.qualifiedName)).Nodup) (taken : String → Bool) :
    verdicts taken us = us.map fun u => (u, u.isScored && !taken u.qualifiedName) := by
  induction us generalizing taken with
  | nil => rfl
  | cons u us ih =>
    rw [List.map_cons, List.nodup_cons] at hn
    rw [verdicts, List.map_cons, ih hn.2]
    refine congrArg _ (List.map_congr_left fun v hv => ?_)
    have hne : u.qualifiedName ≠ v.qualifiedName := fun h => hn.1 (h ▸ List.mem_map_of_mem hv)
    rw [mark_of_ne hne]

/-! ## The runs of the workers -/

theorem Step.of_default {s : Store} (hs : s.Sound) (u : ClassUnit) :
    Step.of [eligible none] s u = ⟨u, s, s.after u, resultOf u (s.admits u)⟩ := by
  obtain ⟨log, hu⟩ := measureUnit_default (p := ⟨s, []⟩) hs u
  rw [Step.of, hu]

/-- Measuring units one after the other, in terms of the verdicts. -/
theorem steps_default {s : Store} (hs : s.Reachable) (us : List ClassUnit) :
    s.through [eligible none] us = s.run us ∧
      (steps [eligible none] s us).map Step.counted =
        (verdicts s.contains us).map fun v => (v.1, resultOf v.1 v.2) := by
  induction us generalizing s with
  | nil => exact ⟨s.run_nil.symm, rfl⟩
  | cons u us ih =>
    obtain ⟨hstore, hsteps⟩ := ih (hs.after u)
    rw [Store.run_after] at hstore
    rw [steps, verdicts, List.map_cons, List.map_cons, Step.of_default hs.sound, hsteps, Store.contains_after]
    refine ⟨?_, rfl⟩
    rw [Store.through, List.foldl_cons, Step.of_default hs.sound]
    exact hstore

/-- Counting the verdicts one after the other. -/
theorem countAll_default {c : Collector} (hf : c.failFast = false) (vs : List (ClassUnit × Bool)) (p : Progress)
    (t : Tally) :
    ∃ log, countAll c p t (vs.map fun v => (v.1, resultOf v.1 v.2)) = (⟨p.store, log⟩, .ok (t.count vs)) := by
  induction vs generalizing p t with
  | nil => exact ⟨p.log, by simp [countAll, Tally.count, recordedOf, refusedOf]⟩
  | cons v vs ih =>
    obtain ⟨entries, ht⟩ := t.add_resultOf v.1 v.2
    obtain ⟨log, hrest⟩ := ih (p.write entries) (t.count [v])
    refine ⟨log, ?_⟩
    rw [List.map_cons, countAll, hf]
    simp only [ht]
    rw [hrest, Tally.count_cons]
    rfl

/-- **Workers**: the units are measured in some order, and the verdicts are counted in some order. -/
theorem collectBy_default {c : Collector} (hx : c.extractors = [eligible none]) (hf : c.failFast = false)
    (s : Schedule) (p : Progress) (hs : p.store.Reachable) (kept : List ClassUnit) :
    ∃ us vs log, us.Perm kept ∧ vs.Perm (verdicts p.store.contains us) ∧
      collectBy s c p kept = (⟨p.store.run us, log⟩, .ok (({} : Tally).count vs)) := by
  obtain ⟨us, rs, log, hus, hrs, hrun⟩ := collectBy_eq s c p kept
  obtain ⟨hstore, hsteps⟩ := steps_default hs us
  rw [hx, hsteps] at hrs
  obtain ⟨vs, rfl, hvs⟩ := exists_map_eq_of_perm hrs
  obtain ⟨log', hcount⟩ := countAll_default hf vs ⟨p.store.through c.extractors us, log⟩ {}
  refine ⟨us, vs, log', hus, hvs, ?_⟩
  rw [hrun, hcount, hx, hstore]

/-- Any collection, with one worker or several. -/
theorem collect_any_order {c : Collector} {accepts : ClassUnit → Bool} {units : List ClassUnit}
    (he : ∀ u ∈ units, c.eligibility u = .ok (accepts u)) (hx : c.extractors = [eligible none])
    (hf : c.failFast = false) (s : Schedule) {store : Store} (hs : store.Reachable) :
    ∃ us vs log, us.Perm (units.filter accepts) ∧ vs.Perm (verdicts store.contains us) ∧
      collect s c store units = (⟨store.run us, log⟩, .ok (.of vs (units.countP (!accepts ·)))) := by
  by_cases hw : 1 < (units.filter accepts).length ∧ 1 < c.workers
  · obtain ⟨log, hsift⟩ := sift_all he
    obtain ⟨us, vs, log', hus, hvs, hrun⟩ := collectBy_default hx hf s ⟨store, log⟩ hs (units.filter accepts)
    refine ⟨us, vs, log', hus, hvs, ?_⟩
    unfold collect
    rw [hsift]
    simp only [if_pos hw, hrun, map_count_eq_of]
  · obtain ⟨log, hrun⟩ := collect_one_worker he hx hf hw s hs
    exact ⟨_, _, log, .refl _, .refl _, hrun⟩

/-! ## Several workers against one -/

section Agree

variable {taken : String → Bool} {us kept : List ClassUnit} {vs : List (ClassUnit × Bool)}

theorem troubles_perm (hus : us.Perm kept) (hvs : vs.Perm (verdicts taken us)) :
    ((refusedOf vs).map ClassUnit.trouble).Perm ((refusedOf (verdicts taken kept)).map ClassUnit.trouble) := by
  rw [map_trouble_refusedOf, map_trouble_refusedOf]
  exact (((hvs.map effect).trans (verdicts_perm hus taken)).filter _).map _

theorem measured_perm (hus : us.Perm kept) (hvs : vs.Perm (verdicts taken us)) :
    (recordedOf vs).length = (recordedOf (verdicts taken kept)).length := by
  rw [length_recordedOf, length_recordedOf]
  exact ((hvs.map effect).trans (verdicts_perm hus taken)).countP_eq _

/-- The names in the store do not depend on the order of measuring. -/
theorem contains_run_perm (hus : us.Perm kept) (s : Store) (name : String) :
    (s.run us).contains name = (s.run kept).contains name := by
  rw [Bool.eq_iff_iff]
  cases hc : s.contains name with
  | true =>
    have hboth : ∀ l, (s.run l).contains name = true := fun l => (Store.contains_extendBy _ _ _).mpr (.inl hc)
    rw [hboth us, hboth kept]
  | false =>
    rw [Store.contains_run hc, Store.contains_run hc]
    simp only [hus.mem_iff]

/-- Of different names, every unit that can be recorded is, in whichever order. -/
theorem items_run_perm (hus : us.Perm kept) (hn : (kept.map (·.qualifiedName)).Nodup) {s : Store} (hs : s.Reachable) :
    (s.run us).items = (s.run kept).items := by
  have hn' : (us.map (·.qualifiedName)).Nodup := (hus.map _).symm.nodup hn
  refine mergeSort_key_of_perm ?_ (hs.run us).sound.nodup
  rw [Store.run, Store.run, verdicts_of_nodup hn', verdicts_of_nodup hn]
  exact ((((hus.map _).filter _).map _).map _).append_left _

end Agree

/-- **Any number of workers agrees with one.** In whichever order the units are measured and their results are
delivered, the same number of units is measured and skipped, the same names are in the store, and the same failures are
listed with their targets in the same order. If no two eligible units have one name, there is no difference at all. -/
theorem collect_workers_agree (s s₁ : Schedule) (accepts : ClassUnit → Bool) {store : Store} (hs : store.Reachable)
    (units : List ClassUnit) (workers : Int) :
    ∃ p a p₁ a₁,
      collect s { eligibility := fun u => .ok (accepts u), workers := workers } store units = (p, .ok a) ∧
      collect s₁ { eligibility := fun u => .ok (accepts u), workers := 1 } store units = (p₁, .ok a₁) ∧
      a.measured = a₁.measured ∧ a.skipped = a₁.skipped ∧
      (∀ name, p.store.contains name = p₁.store.contains name) ∧
      a.errors.Perm a₁.errors ∧ a.errors.map (·.target) = a₁.errors.map (·.target) ∧
      (((units.filter accepts).map (·.qualifiedName)).Nodup → a = a₁ ∧ p.store.items = p₁.store.items) := by
  have he : ∀ n : Int, ∀ u ∈ units,
      ({ eligibility := fun u => .ok (accepts u), workers := n } : Collector).eligibility u = .ok (accepts u) :=
    fun _ _ _ => rfl
  obtain ⟨us, vs, log, hus, hvs, hrun⟩ := collect_any_order (he workers) rfl rfl s hs
  obtain ⟨log₁, hrun₁⟩ := collect_one_worker (he 1) rfl rfl (fun h => Int.lt_irrefl 1 h.2) s₁ hs
  set kept := units.filter accepts with hkept
  have htroubles := troubles_perm hus hvs
  have hmeasured := measured_perm hus hvs
  refine ⟨_, _, _, _, hrun, hrun₁, hmeasured, rfl, contains_run_perm hus store, ?_, ?_, ?_⟩
  · exact ((List.mergeSort_perm _ _).trans htroubles).trans (List.mergeSort_perm _ _).symm
  · exact map_key_mergeSort_of_perm htroubles
  · intro hn
    refine ⟨?_, items_run_perm hus hn hs⟩
    have htargets : (((refusedOf (verdicts store.contains kept)).map ClassUnit.trouble).map (·.target)).Nodup := by
      rw [List.map_map]
      exact hn.sublist ((refusedOf_sublist store.contains kept).map _)
    rw [Collected.of, Collected.of, hmeasured,
      mergeSort_key_of_perm htroubles ((htroubles.map _).symm.nodup htargets)]

/-- The last unit is measured first and delivered first. -/
def Schedule.reversed : Schedule := ⟨List.reverse, List.reverse, List.reverse_perm, List.reverse_perm⟩

/-- Three workers in the reverse order, on units of which some share a name and on units of different names. -/
theorem workers_agree_mixed :
    oldStore.Reachable ∧
    (∃ p a p₁ a₁,
      collect .reversed { eligibility := fun _ => .ok true, workers := 3 } oldStore mixedUnits = (p, .ok a) ∧
      collect .inOrder { eligibility := fun _ => .ok true, workers := 1 } oldStore mixedUnits = (p₁, .ok a₁) ∧
      a.measured = a₁.measured ∧ a.errors.Perm a₁.errors ∧ p.store.contains "p.A" = p₁.store.contains "p.A") ∧
    ∃ p a p₁ a₁,
      collect .reversed { eligibility := fun _ => .ok true, workers := 3 } oldStore (mixedUnits.drop 2) = (p, .ok a) ∧
      collect .inOrder { eligibility := fun _ => .ok true, workers := 1 } oldStore (mixedUnits.drop 2) =
        (p₁, .ok a₁) ∧ a = a₁ ∧ p.store.items = p₁.store.items := by
  refine ⟨reachable_oldStore, ?_, ?_⟩
  · obtain ⟨p, a, p₁, a₁, h, h₁, hm, -, hc, he, -⟩ :=
      collect_workers_agree .reversed .inOrder (fun _ => true) reachable_oldStore mixedUnits 3
    exact ⟨p, a, p₁, a₁, h, h₁, hm, he, hc "p.A"⟩
  · obtain ⟨p, a, p₁, a₁, h, h₁, -, -, -, -, -, hsame⟩ :=
      collect_workers_agree .reversed .inOrder (fun _ => true) reachable_oldStore (mixedUnits.drop 2) 3
    exact ⟨p, a, p₁, a₁, h, h₁, hsame (by decide)⟩

end HandlerComplexity
