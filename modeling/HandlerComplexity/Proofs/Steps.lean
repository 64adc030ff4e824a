import HandlerComplexity.Proofs.Collect
import Mathlib.Data.List.Perm.Basic

/-!
# A collection, step by step

Whatever the extractors are and however many workers there are, a collection measures the eligible units one after the
other in some order and then counts their results in some order.

* `Step`: one unit that was measured, with the store before and after it and the result; `steps`: a run.
* `countAll`: the results, counted one after the other.
* `collectBy_eq`: what workers do, in these terms. Where nothing is known about the extractors, the two orders are all
  that a schedule changes.
* `collect_steps`: the store and the failures of every collection that comes to its end.
-/

namespace HandlerComplexity

/-- Whether a class is eligible. One that cannot be decided about is not. -/
def Eligibility.accepts (e : Eligibility) (u : ClassUnit) : Bool :=
  match e u with
  | .ok b => b
  | .error _ => false

/-! ## Steps -/

/-- One unit that was measured. -/
structure Step where
  unit : ClassUnit
  before : Store
  after : Store
  result : Except Failure Nat

namespace Step

/-- Measure a unit when the store is `s`. -/
def of (extractors : List Eligibility) (s : Store) (u : ClassUnit) : Step :=
  let r := measureUnit extractors ⟨s, []⟩ u
  ⟨u, s, r.1.store, r.2⟩

/-- What is counted: the unit with its result. -/
def counted (st : Step) : ClassUnit × Except Failure Nat := (st.unit, st.result)

end Step

/-- Measure units one after the other. -/
def steps (extractors : List Eligibility) (s : Store) : List ClassUnit → List Step
  | [] => []
  | u :: us => .of extractors s u :: steps extractors (Step.of extractors s u).after us

/-- The store after units were measured one after the other. -/
def Store.through (s : Store) (extractors : List Eligibility) (us : List ClassUnit) : Store :=
  us.foldl (fun s u => (Step.of extractors s u).after) s

/-- What measuring a unit does to the store, and its result, do not depend on the log. -/
theorem measureUnit_eq (extractors : List Eligibility) (p : Progress) (u : ClassUnit) :
    ∃ log, measureUnit extractors p u =
      (⟨(Step.of extractors p.store u).after, log⟩, (Step.of extractors p.store u).result) := by
  unfold Step.of measureUnit
  rcases extractAll [] u [] extractors with ⟨entries, f | ms⟩
  · exact ⟨_, rfl⟩
  · simp only [Progress.store_write]
    rcases recordAll u.qualifiedName p.store ms with ⟨store, f | _⟩
    · exact ⟨_, rfl⟩
    · exact ⟨_, rfl⟩

theorem map_unit_steps (extractors : List Eligibility) (s : Store) (us : List ClassUnit) :
    (steps extractors s us).map (·.unit) = us := by
  induction us generalizing s with
  | nil => rfl
  | cons u us ih =>
    rw [steps, List.map_cons, ih]
    rfl

/-! ## Counting -/

/-- Count the results of units one after the other. -/
def countAll (c : Collector) (p : Progress) (t : Tally) :
    List (ClassUnit × Except Failure Nat) → Progress × Except Failure Tally
  | [] => (p, .ok t)
  | r :: rs =>
    match t.add c.failFast r.1 r.2 with
    | (entries, .error f) => (p.write entries, .error f)
    | (entries, .ok t) => countAll c (p.write entries) t rs

/-- What is reported about a unit. -/
def reported? (r : ClassUnit × Except Failure Nat) : Option Trouble :=
  match r.2 with
  | .ok _ => none
  | .error f => some ⟨r.1.qualifiedName, f.message⟩

/-- A result that is counted adds what it reports to the failures. -/
theorem Tally.failures_of_add {failFast : Bool} {t t' : Tally} {r : ClassUnit × Except Failure Nat} {log : Log}
    (h : t.add failFast r.1 r.2 = (log, .ok t')) : t'.failures = (reported? r).toList ++ t.failures := by
  obtain ⟨u, f | n⟩ := r
  · simp only [add] at h
    split_ifs at h
    · cases h
      rfl
    · cases h
  · cases h
    rfl

/-- The failures of a collection, the last one first, when one more result comes before those counted. -/
theorem failures_cons (r : ClassUnit × Except Failure Nat) (rs : List (ClassUnit × Except Failure Nat))
    (ts : List Trouble) :
    (rs.filterMap reported?).reverse ++ ((reported? r).toList ++ ts) = ((r :: rs).filterMap reported?).reverse ++ ts := by
  cases h : reported? r with
  | none => rw [List.filterMap_cons_none h]; rfl
  | some x => simp [List.filterMap_cons_some h]

theorem countAll_ok {c : Collector} {rs : List (ClassUnit × Except Failure Nat)} {p q : Progress} {t t' : Tally}
    (h : countAll c p t rs = (q, .ok t')) :
    q.store = p.store ∧ t'.failures = (rs.filterMap reported?).reverse ++ t.failures := by
  induction rs generalizing p t with
  | nil =>
    cases h
    exact ⟨rfl, rfl⟩
  | cons r rs ih =>
    rw [countAll] at h
    rcases ha : t.add c.failFast r.1 r.2 with ⟨entries, f | t₁⟩
    · rw [ha] at h
      cases h
    · rw [ha] at h
      obtain ⟨hstore, hfailures⟩ := ih h
      refine ⟨hstore, ?_⟩
      rw [hfailures, Tally.failures_of_add ha, failures_cons]

/-- **A run in order** that comes to its end has counted every step. -/
theorem collectInOrder_ok {c : Collector} {us : List ClassUnit} {p q : Progress} {t t' : Tally}
    (h : collectInOrder c p t us = (q, .ok t')) :
    q.store = p.store.through c.extractors us ∧
      t'.failures = (((steps c.extractors p.store us).map Step.counted).filterMap reported?).reverse ++ t.failures := by
  induction us generalizing p t with
  | nil =>
    cases h
    exact ⟨rfl, rfl⟩
  | cons u us ih =>
    obtain ⟨log, hu⟩ := measureUnit_eq c.extractors p u
    rw [collectInOrder, hu] at h
    dsimp only at h
    rcases ha : t.add c.failFast u (Step.of c.extractors p.store u).result with ⟨entries, f | t₁⟩
    · rw [ha] at h
      cases h
    · rw [ha] at h
      obtain ⟨hstore, hfailures⟩ := ih h
      refine ⟨hstore, ?_⟩
      rw [hfailures, Tally.failures_of_add (r := (u, _)) ha, failures_cons]
      rfl

/-! ## Workers -/

/-- The results of units measured at positions. -/
def resultsAt (table : List (Nat × ClassUnit × Except Failure Nat)) : List (Nat × Except Failure Nat) :=
  table.map fun e => (e.1, e.2.2)

/-- Measuring the units at some positions is a run over these units. -/
theorem measureAt_eq {c : Collector} {units : Array ClassUnit} {is : List Nat} {us : List ClassUnit}
    (hi : is.map (units[·]?) = us.map some) (p : Progress) (results : List (Nat × Except Failure Nat)) :
    ∃ log, measureAt c units p results is =
      (⟨p.store.through c.extractors us, log⟩,
        (resultsAt (is.zip ((steps c.extractors p.store us).map Step.counted))).reverse ++ results) := by
  induction is generalizing us p results with
  | nil =>
    have hus : us = [] := by simpa using hi.symm
    subst hus
    exact ⟨p.log, by simp [measureAt, resultsAt, Store.through]⟩
  | cons i is ih =>
    cases us with
    | nil => simp at hi
    | cons u us =>
      rw [List.map_cons, List.map_cons, List.cons.injEq] at hi
      obtain ⟨log, hu⟩ := measureUnit_eq c.extractors p u
      rw [measureAt, hi.1]
      simp only [hu]
      obtain ⟨log', hrun⟩ := ih hi.2 ⟨(Step.of c.extractors p.store u).after, log⟩
        ((i, (Step.of c.extractors p.store u).result) :: results)
      refine ⟨log', ?_⟩
      rw [hrun]
      simp only [steps, resultsAt, List.map_cons, List.zip_cons_cons, List.reverse_cons, List.append_assoc,
        List.singleton_append]
      rfl

/-- Delivering the results at some positions counts them. -/
theorem deliverAt_eq {c : Collector} {units : Array ClassUnit} {results : List (Nat × Except Failure Nat)}
    {js : List Nat} {rs : List (ClassUnit × Except Failure Nat)}
    (hu : js.map (units[·]?) = rs.map fun r => some r.1)
    (hr : js.map (results.lookup ·) = rs.map fun r => some r.2) (p : Progress) (t : Tally) :
    deliverAt c units results p t js = countAll c p t rs := by
  induction js generalizing rs p t with
  | nil =>
    have hrs : rs = [] := by simpa using hu.symm
    subst hrs
    rfl
  | cons j js ih =>
    cases rs with
    | nil => simp at hu
    | cons r rs =>
      rw [List.map_cons, List.map_cons, List.cons.injEq] at hu hr
      rw [deliverAt, hu.1, hr.1, countAll]
      dsimp only
      rcases t.add c.failFast r.1 r.2 with ⟨entries, f | t₁⟩
      · rfl
      · exact ih hu.2 hr.2 _ _

/-- Every result is found at its position, in whichever order the results stand. -/
theorem lookup_resultsAt {table : List (Nat × ClassUnit × Except Failure Nat)} (hn : (table.map (·.1)).Nodup)
    {e : Nat × ClassUnit × Except Failure Nat} (he : e ∈ table) :
    (resultsAt table).reverse.lookup e.1 = some e.2.2 := by
  have hkeys : ((resultsAt table).reverse.map (·.1)).Nodup := by
    rw [List.map_reverse, List.nodup_reverse, resultsAt, List.map_map]
    exact hn
  have hmem : (e.1, e.2.2) ∈ (resultsAt table).reverse :=
    List.mem_reverse.mpr (List.mem_map.mpr ⟨e, he, rfl⟩)
  exact lookup_of_mem hkeys hmem

theorem eq_of_mem_zip {α β γ : Type} {f : α → γ} {g : β → γ} {as : List α} {bs : List β} (h : as.map f = bs.map g)
    {e : α × β} (he : e ∈ as.zip bs) : f e.1 = g e.2 := by
  induction as generalizing bs with
  | nil => simp at he
  | cons a as ih =>
    cases bs with
    | nil => simp at he
    | cons b bs =>
      rw [List.map_cons, List.map_cons, List.cons.injEq] at h
      rcases List.mem_cons.mp he with rfl | he
      · exact h.1
      · exact ih h.2 he

/-- A list whose images are reordered can be reordered itself. -/
theorem exists_map_eq_of_perm {α β : Type} {f : α → β} {l : List α} {m : List β} (h : m.Perm (l.map f)) :
    ∃ l' : List α, m = l'.map f ∧ l'.Perm l :=
  (congrFun₂ (List.eq_map_comp_perm f) m l).mpr h

theorem map_getElem?_range {α : Type} (l : List α) : (List.range l.length).map (l[·]?) = l.map some := by
  refine List.ext_getElem (by simp) fun i h₁ h₂ => ?_
  simp at h₁
  simp [h₁]

/-- The units at the positions in some order are the units in some order. -/
theorem exists_units_at {kept : List ClassUnit} {is : List Nat} (h : is.Perm (List.range kept.length)) :
    ∃ us : List ClassUnit, is.map (kept.toArray[·]?) = us.map some ∧ us.Perm kept := by
  refine exists_map_eq_of_perm ?_
  rw [← map_getElem?_range kept]
  simpa using h.map (kept[·]?)

/-- The results of a table of measured units are counted in the order of delivery. -/
theorem deliverAt_table {c : Collector} {units : Array ClassUnit}
    {table : List (Nat × ClassUnit × Except Failure Nat)} (hn : (table.map (·.1)).Nodup)
    (hu : ∀ e ∈ table, units[e.1]? = some e.2.1) {js : List Nat} (hj : js.Perm (table.map (·.1))) (p : Progress)
    (t : Tally) :
    ∃ rs, rs.Perm (table.map (·.2)) ∧
      deliverAt c units (resultsAt table).reverse p t js = countAll c p t rs := by
  obtain ⟨delivered, rfl, hperm⟩ := exists_map_eq_of_perm hj
  have hunits : (delivered.map (·.1)).map (units[·]?) = (delivered.map (·.2)).map fun r => some r.1 := by
    rw [List.map_map, List.map_map]
    exact List.map_congr_left fun e he => hu e (hperm.subset he)
  have hresults : (delivered.map (·.1)).map (fun j => (resultsAt table).reverse.lookup j) =
      (delivered.map (·.2)).map fun r => some r.2 := by
    rw [List.map_map, List.map_map]
    exact List.map_congr_left fun e he => lookup_resultsAt hn (hperm.subset he)
  exact ⟨delivered.map (·.2), hperm.map _, deliverAt_eq hunits hresults p t⟩

/-- **Workers**: the units are measured in some order, and the results are counted in some order. -/
theorem collectBy_eq (s : Schedule) (c : Collector) (p : Progress) (kept : List ClassUnit) :
    ∃ us rs log, us.Perm kept ∧ rs.Perm ((steps c.extractors p.store us).map Step.counted) ∧
      collectBy s c p kept = countAll c ⟨p.store.through c.extractors us, log⟩ {} rs := by
  set positions := List.range kept.length with hpos
  have hmeasure := s.measure_perm positions
  obtain ⟨us, hi, hus⟩ := exists_units_at hmeasure
  obtain ⟨log, hmeasured⟩ := measureAt_eq (c := c) hi p []
  -- the results with their positions, in the order in which the units are measured
  set counted := (steps c.extractors p.store us).map Step.counted with hcounted
  set table := (s.measure positions).zip counted with htable
  have hfirst : (s.measure positions).map (kept.toArray[·]?) = counted.map fun r => some r.1 := by
    rw [hi, hcounted]
    conv_lhs => rw [← map_unit_steps c.extractors p.store us]
    rw [List.map_map, List.map_map]
    rfl
  have hlen : (s.measure positions).length = counted.length := by simpa using congrArg List.length hfirst
  have hfst : table.map (·.1) = s.measure positions := List.map_fst_zip hlen.le
  have hsnd : table.map (·.2) = counted := List.map_snd_zip hlen.ge
  have hnodup : (table.map (·.1)).Nodup := hfst ▸ hmeasure.symm.nodup List.nodup_range
  have hunits : ∀ e ∈ table, kept.toArray[e.1]? = some e.2.1 := fun e he => eq_of_mem_zip hfirst he
  have horder : (s.deliver positions).Perm (table.map (·.1)) := by
    rw [hfst]
    exact (s.deliver_perm positions).trans hmeasure.symm
  obtain ⟨rs, hrs, hdelivered⟩ :=
    deliverAt_table (c := c) hnodup hunits horder ⟨p.store.through c.extractors us, log⟩ {}
  refine ⟨us, rs, log, hus, hrs.trans (.of_eq hsnd), ?_⟩
  rw [List.append_nil] at hmeasured
  unfold collectBy
  simp only [← hpos, hmeasured, hdelivered]

/-! ## Collections -/

/-- Units that a policy decides about are sifted by whether it accepts them. -/
theorem sift_of_decided {eligibility : Eligibility} {us : List ClassUnit} (h : ∀ u ∈ us, ∃ b, eligibility u = .ok b) :
    ∃ log, sift eligibility [] [] 0 us = (log, .ok (us.filter eligibility.accepts, us.countP (!eligibility.accepts ·))) := by
  refine sift_all fun u hu => ?_
  obtain ⟨b, hb⟩ := h u hu
  rw [Eligibility.accepts, hb]

/-- **Every collection that comes to its end** has measured the eligible units one after the other in some order. The
store is the one after these steps, and the failures are those of the steps. -/
theorem collect_steps {s : Schedule} {c : Collector} {store : Store} {units : List ClassUnit} {p : Progress}
    {a : Collected} (h : collect s c store units = (p, .ok a)) :
    ∃ us, us.Perm (units.filter c.eligibility.accepts) ∧ p.store = store.through c.extractors us ∧
      a.errors.Perm (((steps c.extractors store us).map Step.counted).filterMap reported?) := by
  obtain ⟨log, hsift⟩ := sift_of_decided (decided_of_collect h)
  unfold collect at h
  rw [hsift] at h
  dsimp only at h
  split_ifs at h with hw
  · obtain ⟨us, rs, log', hus, hrs, hrun⟩ :=
      collectBy_eq s c ⟨store, log⟩ (units.filter c.eligibility.accepts)
    rw [hrun] at h
    rcases hcount : countAll c ⟨store.through c.extractors us, log'⟩ {} rs with ⟨q, f | t⟩
    · rw [hcount] at h
      cases h
    · rw [hcount] at h
      cases h
      obtain ⟨hstore, hfailures⟩ := countAll_ok hcount
      refine ⟨us, hus, hstore, (List.mergeSort_perm _ _).trans ?_⟩
      rw [hfailures, List.append_nil, List.reverse_reverse]
      exact hrs.filterMap _
  · rcases hrun : collectInOrder c ⟨store, log⟩ {} (units.filter c.eligibility.accepts) with ⟨q, f | t⟩
    · rw [hrun] at h
      cases h
    · rw [hrun] at h
      cases h
      obtain ⟨hstore, hfailures⟩ := collectInOrder_ok hrun
      refine ⟨_, .refl _, hstore, (List.mergeSort_perm _ _).trans ?_⟩
      rw [hfailures, List.append_nil, List.reverse_reverse]

end HandlerComplexity
