import HandlerComplexity.Proofs.FirstWins
import HandlerComplexity.Proofs.Steps

/-!
# Several extractors

All extractors run before anything is recorded, so a failure of an extractor leaves the store as it was. Recording is
different: the measures of a unit are recorded one after the other, all under the same metric and the same name, so the
second one is refused when the first one is already there.

* `acceptors`: how many extractors measure a unit; `producedBy`: what one extractor produces.
* `Store.HalfRecords`: a unit of which one measure is recorded and the next one is refused.
* `Step.outcome`: what measuring one unit does.
* `measureUnit_all_or_nothing_iff`: a unit that fails leaves the store as it was unless it is half recorded, and these
  are exactly the units that a collection reports as failed after it recorded a measure of them.
-/

namespace HandlerComplexity

/-! ## Extracting -/

/-- How many extractors measure a unit. -/
def acceptors (extractors : List Eligibility) (u : ClassUnit) : Nat := extractors.countP (·.accepts u)

/-- What an extractor produces for a unit: a measure, unless it does not accept the unit or fails. -/
def producedBy (u : ClassUnit) (e : Eligibility) : Option Measure :=
  match (extract e u).2 with
  | .ok m => m
  | .error _ => none

/-- Every extractor decides about a unit. -/
def Decided (extractors : List Eligibility) (u : ClassUnit) : Prop := ∀ e ∈ extractors, ∃ b, e u = .ok b

theorem Decided.tail {e : Eligibility} {es : List Eligibility} {u : ClassUnit} (h : Decided (e :: es) u) :
    Decided es u := fun x hx => h x (List.mem_cons_of_mem _ hx)

/-- What one extractor does: it cannot decide, or the unit has no score; it does not accept the unit; or it produces
the measure of the unit. -/
theorem extract_cases (e : Eligibility) (u : ClassUnit) :
    (∃ f, (extract e u).2 = .error f ∧ (¬ (∃ b, e u = .ok b) ∨ u.isScored = false)) ∨
    ((extract e u).2 = .ok none ∧ e u = .ok false) ∨
    ((extract e u).2 = .ok (some u.measure) ∧ e u = .ok true ∧ u.isScored = true) := by
  unfold extract
  rcases e u with pe | b
  · exact .inl ⟨.policy pe, rfl, .inl (by simp)⟩
  · cases b with
    | false => exact .inr (.inl ⟨rfl, rfl⟩)
    | true =>
      rcases hs : u.score with m | n
      · have hno : u.isScored = false := by simp [ClassUnit.isScored, hs, Except.isOk, Except.toBool]
        exact .inl ⟨_, rfl, .inr hno⟩
      · refine .inr (.inr ⟨?_, rfl, ClassUnit.isScored_iff.mpr ⟨n, hs⟩⟩)
        simp only [Measure.make_ofScore, ClassUnit.measure_of_score hs]

/-- All extractors: one of them fails, or each that accepts the unit produces its measure. The induction is on the
extractors, with the measures found so far. -/
theorem extractAll_cases (u : ClassUnit) (es : List Eligibility) (log : Log) (found : List Measure) :
    (∃ log' f, extractAll log u found es = (log', .error f) ∧ ¬ (Decided es u ∧ u.isScored = true)) ∨
    (∃ log', extractAll log u found es = (log', .ok (found.reverse ++ List.replicate (acceptors es u) u.measure)) ∧
      Decided es u ∧ (0 < acceptors es u → u.isScored = true) ∧
      es.filterMap (producedBy u) = List.replicate (acceptors es u) u.measure) := by
  induction es generalizing log found with
  | nil => exact .inr ⟨log, by simp [extractAll, acceptors], by simp [Decided], by simp [acceptors], rfl⟩
  | cons e es ih =>
    have hcases := extract_cases e u
    rw [extractAll]
    rcases hx : extract e u with ⟨entries, r⟩
    rw [hx] at hcases
    obtain ⟨f, rfl, hwhy⟩ | ⟨rfl, he⟩ | ⟨rfl, he, hs⟩ := hcases
    · refine .inl ⟨_, f, rfl, ?_⟩
      rintro ⟨hd, hs⟩
      rcases hwhy with hun | hno
      · exact hun (hd e List.mem_cons_self)
      · rw [hno] at hs
        cases hs
    · have hcount : acceptors (e :: es) u = acceptors es u := by
        simp [acceptors, Eligibility.accepts, he]
      have hproduced : producedBy u e = none := by rw [producedBy, hx]
      rw [hcount, List.filterMap_cons_none hproduced]
      rcases ih (log ++ entries) found with ⟨log', f, hrest, hwhy⟩ | ⟨log', hrest, hd, hrest'⟩
      · exact .inl ⟨log', f, hrest, fun h => hwhy ⟨h.1.tail, h.2⟩⟩
      · exact .inr ⟨log', hrest, List.forall_mem_cons.mpr ⟨⟨_, he⟩, hd⟩, hrest'⟩
    · have hcount : acceptors (e :: es) u = acceptors es u + 1 := by
        simp [acceptors, Eligibility.accepts, he]
      have hproduced : producedBy u e = some u.measure := by rw [producedBy, hx]
      rw [hcount, List.filterMap_cons_some hproduced]
      rcases ih (log ++ entries) (u.measure :: found) with ⟨log', f, hrest, hwhy⟩ | ⟨log', hrest, hd, -, hall⟩
      · exact .inl ⟨log', f, hrest, fun h => hwhy ⟨h.1.tail, h.2⟩⟩
      · refine .inr ⟨log', ?_, List.forall_mem_cons.mpr ⟨⟨_, he⟩, hd⟩, fun _ => hs, ?_⟩
        · simp [hrest, List.replicate_succ]
        · rw [hall, List.replicate_succ]

/-! ## Recording -/

/-- A store with measures behind those of a name. -/
def Store.withAll (s : Store) (name : String) (ms : List Measure) : Store :=
  ⟨ms.foldl (fun es m => Store.append name m es) s.entries⟩

/-- One measure of a unit is recorded and the next one is refused: the unit has a score and a new name, and more than
one extractor accepts it. -/
def Store.HalfRecords (s : Store) (extractors : List Eligibility) (u : ClassUnit) : Prop :=
  Decided extractors u ∧ s.admits u = true ∧ 2 ≤ acceptors extractors u

theorem recordAll_cons {s : Store} (hs : s.Sound) (u : ClassUnit) (ms : List Measure) :
    recordAll u.qualifiedName s (u.measure :: ms) =
      if s.contains u.qualifiedName then (s, .error (.record (.duplicate .hcc u.qualifiedName)))
      else recordAll u.qualifiedName (s.extend u.qualifiedName u.measure) ms := by
  have hv : u.measure.value.isNegative = false := Binary64.isNegative_ofNat _
  rw [recordAll, Store.record_eq hs, hv]
  cases s.contains u.qualifiedName <;> rfl

theorem Store.withAll_singleton {s : Store} {name : String} (h : s.contains name = false) (m : Measure) :
    s.withAll name [m] = s.extend name m := by
  rw [withAll, List.foldl_cons, List.foldl_nil, append_of_not_mem m (contains_eq_false_iff.mp h), extend]

/-- The four things that can happen when a unit is measured. -/
inductive Step.Outcome (extractors : List Eligibility) (st : Step) : Prop
  /-- An extractor fails, or the name is taken: nothing is recorded. -/
  | refused (f : Failure) (failed : st.result = .error f) (kept : st.after = st.before)
      (whole : ¬ st.before.HalfRecords extractors st.unit)
  /-- No extractor accepts the unit. -/
  | skipped (result : st.result = .ok 0) (kept : st.after = st.before) (none : acceptors extractors st.unit = 0)
      (produced : extractors.filterMap (producedBy st.unit) = [])
  /-- One extractor accepts the unit, and its measure is recorded. -/
  | recorded (result : st.result = .ok 1)
      (extended : st.after = st.before.extend st.unit.qualifiedName st.unit.measure)
      (admitted : st.before.admits st.unit = true) (one : acceptors extractors st.unit = 1)
      (produced : extractors.filterMap (producedBy st.unit) = [st.unit.measure])
  /-- Several extractors accept the unit: the first measure is recorded and the second one is refused. -/
  | half (half : st.before.HalfRecords extractors st.unit)
      (failed : st.result = .error (.record (.duplicate .hcc st.unit.qualifiedName)))
      (extended : st.after = st.before.extend st.unit.qualifiedName st.unit.measure)

theorem Step.of_extracted {extractors : List Eligibility} {u : ClassUnit} {log : Log} {ms : List Measure}
    (hx : extractAll [] u [] extractors = (log, .ok ms)) (s : Store) :
    Step.of extractors s u =
      ⟨u, s, (recordAll u.qualifiedName s ms).1,
        (recordAll u.qualifiedName s ms).2.map fun _ => if ms.isEmpty then 0 else 1⟩ := by
  rw [Step.of, measureUnit, hx]
  simp only [Progress.store_write]
  rcases recordAll u.qualifiedName s ms with ⟨store, f | _⟩
  · rfl
  · rfl

/-- **Measuring one unit** with any extractors. -/
theorem Step.outcome {s : Store} (hs : s.Reachable) (extractors : List Eligibility) (u : ClassUnit) :
    (Step.of extractors s u).Outcome extractors := by
  rcases extractAll_cases u extractors [] [] with ⟨log, f, hx, hwhy⟩ | ⟨log, hx, hd, hscored, hall⟩
  · have hstep : Step.of extractors s u = ⟨u, s, s, .error f⟩ := by
      rw [Step.of, measureUnit, hx]
      rfl
    rw [hstep]
    refine .refused f rfl rfl fun hhalf => hwhy ⟨hhalf.1, ?_⟩
    have hadmits := hhalf.2.1
    rw [Store.admits, Bool.and_eq_true] at hadmits
    exact hadmits.1
  · rw [Step.of_extracted hx, List.reverse_nil, List.nil_append]
    rcases hk : acceptors extractors u with _ | k
    · exact .skipped rfl rfl hk (by rw [hall, hk]; rfl)
    · have hscored : u.isScored = true := hscored (by omega)
      rw [List.replicate_succ, recordAll_cons hs.sound]
      cases hc : s.contains u.qualifiedName with
      | true => exact .refused _ rfl rfl fun hhalf => by simpa [Store.admits, hc] using hhalf.2.1
      | false =>
        have hadmits : s.admits u = true := by
          rw [Store.admits, hscored, hc]
          rfl
        rcases k with _ | k
        · exact .recorded rfl rfl hadmits hk (by rw [hall, hk]; rfl)
        · -- the name is taken by the first measure when the second one comes
          have htaken : (s.extend u.qualifiedName u.measure).contains u.qualifiedName = true := by simp
          rw [List.replicate_succ, recordAll_cons (hs.sound.extend _ hc), htaken]
          have htwo : 2 ≤ acceptors extractors u := by omega
          exact .half ⟨hd, hadmits, htwo⟩ rfl rfl

namespace Step.Outcome

variable {extractors : List Eligibility} {st : Step}

/-- A failure leaves the store as it was unless the unit is half recorded. -/
theorem kept_iff (h : st.Outcome extractors) {f : Failure} (hf : st.result = .error f) :
    st.after = st.before ↔ ¬ st.before.HalfRecords extractors st.unit := by
  cases h with
  | refused _ _ kept whole => exact ⟨fun _ => whole, fun _ => kept⟩
  | skipped result =>
    rw [result] at hf
    cases hf
  | recorded result =>
    rw [result] at hf
    cases hf
  | half half _ extended =>
    refine ⟨fun hkept => ?_, fun hwhole => absurd half hwhole⟩
    rw [extended, Store.extend] at hkept
    have hlength := congrArg (fun s : Store => s.entries.length) hkept
    simp at hlength

theorem of_half (h : st.Outcome extractors) (hhalf : st.before.HalfRecords extractors st.unit) :
    st.result = .error (.record (.duplicate .hcc st.unit.qualifiedName)) ∧
      st.after = st.before.extend st.unit.qualifiedName st.unit.measure := by
  obtain ⟨-, -, htwo⟩ := id hhalf
  cases h with
  | refused _ _ _ whole => exact absurd hhalf whole
  | skipped _ _ none => omega
  | recorded _ _ _ one => omega
  | half _ failed extended => exact ⟨failed, extended⟩

/-- A unit that does not fail adds all that was produced for it. -/
theorem of_ok (h : st.Outcome extractors) {n : Nat} (hn : st.result = .ok n) :
    st.after = st.before.withAll st.unit.qualifiedName (extractors.filterMap (producedBy st.unit)) := by
  cases h with
  | refused _ failed =>
    rw [failed] at hn
    cases hn
  | skipped _ kept _ produced => rw [produced, kept, Store.withAll, List.foldl_nil]
  | recorded _ extended admitted _ produced =>
    rw [Store.admits, Bool.and_eq_true, Bool.not_eq_true'] at admitted
    rw [produced, extended, Store.withAll_singleton admitted.2]
  | half _ failed =>
    rw [failed] at hn
    cases hn

/-- The store after a step is one that comes about by recording. -/
theorem reachable (h : st.Outcome extractors) (hs : st.before.Reachable) : st.after.Reachable := by
  have hextend (ha : st.before.admits st.unit = true) :
      (st.before.extend st.unit.qualifiedName st.unit.measure).Reachable := by
    rw [Store.admits, Bool.and_eq_true, Bool.not_eq_true'] at ha
    exact hs.extend _ _ ha.2
  cases h with
  | refused _ _ kept => exact kept ▸ hs
  | skipped _ kept => exact kept ▸ hs
  | recorded _ extended admitted => exact extended ▸ hextend admitted
  | half half _ extended => exact extended ▸ hextend half.2.1

end Step.Outcome

/-- **Every step of a run** has one of the outcomes. The invariant is that the store is reachable. -/
theorem outcome_of_mem_steps {s : Store} (hs : s.Reachable) {extractors : List Eligibility} {us : List ClassUnit}
    {st : Step} (h : st ∈ steps extractors s us) : st.Outcome extractors := by
  induction us generalizing s with
  | nil => cases h
  | cons u us ih =>
    have hfirst := Step.outcome hs extractors u
    rcases List.mem_cons.mp h with rfl | h
    · exact hfirst
    · exact ih (hfirst.reachable hs) h

theorem isSome_reported_iff {st : Step} : (reported? st.counted).isSome = true ↔ ∃ f, st.result = .error f := by
  unfold reported? Step.counted
  cases st.result with
  | error f => simp
  | ok n => simp

/-- **A unit is recorded as a whole or not at all, unless it is half recorded.** When measuring fails, the store is as
before iff the unit is not half recorded; when it does not, all that the extractors produced is added. In a collection
that comes to its end, the units that are both reported and recorded are the half recorded ones. -/
theorem measureUnit_all_or_nothing_iff {s : Store} (hs : s.Reachable) (extractors : List Eligibility) :
    (∀ (log : Log) (u : ClassUnit),
      let (after, result) := measureUnit extractors ⟨s, log⟩ u
      (∀ f, result = .error f → (after.store = s ↔ ¬ s.HalfRecords extractors u)) ∧
      (s.HalfRecords extractors u → result = .error (.record (.duplicate .hcc u.qualifiedName)) ∧
        after.store = s.extend u.qualifiedName u.measure) ∧
      ∀ n, result = .ok n →
        after.store = s.withAll u.qualifiedName (extractors.filterMap (producedBy u))) ∧
    ∀ (schedule : Schedule) (c : Collector) (units : List ClassUnit) (p : Progress) (a : Collected),
      c.extractors = extractors → collect schedule c s units = (p, .ok a) →
      ∃ us, us.Perm (units.filter c.eligibility.accepts) ∧ p.store = s.through extractors us ∧
        a.errors.Perm (((steps extractors s us).map Step.counted).filterMap reported?) ∧
        ∀ st ∈ steps extractors s us,
          (reported? st.counted).isSome = true ∧ st.after ≠ st.before ↔
            st.before.HalfRecords extractors st.unit := by
  refine ⟨fun log u => ?_, ?_⟩
  · obtain ⟨log', hu⟩ := measureUnit_eq extractors ⟨s, log⟩ u
    have houtcome := Step.outcome hs extractors u
    rw [hu]
    exact ⟨fun f hf => houtcome.kept_iff hf, houtcome.of_half, fun n hn => houtcome.of_ok hn⟩
  · rintro schedule c units p a rfl hrun
    obtain ⟨us, hus, hstore, herrors⟩ := collect_steps hrun
    refine ⟨us, hus, hstore, herrors, fun st hst => ?_⟩
    have houtcome := outcome_of_mem_steps hs hst
    rw [isSome_reported_iff]
    constructor
    · rintro ⟨⟨f, hf⟩, hchanged⟩
      exact not_not.mp fun hwhole => hchanged ((houtcome.kept_iff hf).mpr hwhole)
    · intro hhalf
      have hf := (houtcome.of_half hhalf).1
      exact ⟨⟨_, hf⟩, fun hkept => (houtcome.kept_iff hf).mp hkept hhalf⟩

/-- Two extractors that accept every unit. -/
def acceptTwice : List Eligibility := [eligible none, eligible none]

theorem acceptors_acceptTwice (u : ClassUnit) : Decided acceptTwice u ∧ acceptors acceptTwice u = 2 := by
  refine ⟨fun e he => ⟨true, ?_⟩, rfl⟩
  have heq : e = eligible none := by simpa [acceptTwice] using he
  rw [heq]
  rfl

/-- Two extractors for a class that can be measured and one that cannot: the first is half recorded, the second leaves
the store as it was. -/
theorem all_or_nothing_mixed :
    oldStore.Reachable ∧ oldStore.HalfRecords acceptTwice (catchingUnit "p.A" true) ∧
      (measureUnit acceptTwice ⟨oldStore, []⟩ (catchingUnit "p.A" true)).1.store =
        oldStore.extend "p.A" (catchingUnit "p.A" true).measure ∧
      (measureUnit acceptTwice ⟨oldStore, []⟩ (catchingUnit "p.B" false)).1.store = oldStore ∧
      (collect .inOrder { extractors := acceptTwice } oldStore [catchingUnit "p.A" true]).2 =
        .ok ⟨0, 0, [⟨"p.A", "HCC already recorded for p.A"⟩]⟩ ∧
      ∃ us, (collect .inOrder { extractors := acceptTwice } oldStore [catchingUnit "p.A" true]).1.store =
          oldStore.through acceptTwice us ∧
        ∀ st ∈ steps acceptTwice oldStore us,
          (reported? st.counted).isSome = true ∧ st.after ≠ st.before ↔
            st.before.HalfRecords acceptTwice st.unit := by
  obtain ⟨hunit, hcollect⟩ := measureUnit_all_or_nothing_iff reachable_oldStore acceptTwice
  have hhalf : oldStore.HalfRecords acceptTwice (catchingUnit "p.A" true) := by
    obtain ⟨hd, htwo⟩ := acceptors_acceptTwice (catchingUnit "p.A" true)
    refine ⟨hd, ?_, htwo.ge⟩
    rw [Store.admits, ClassUnit.isScored_iff.mpr ⟨1, score_catchingUnit "p.A"⟩]
    rfl
  have hwhole : ¬ oldStore.HalfRecords acceptTwice (catchingUnit "p.B" false) := by
    rintro ⟨-, hadmits, -⟩
    simp [Store.admits, isScored_catchingUnit_false] at hadmits
  have hends : (collect .inOrder { extractors := acceptTwice } oldStore [catchingUnit "p.A" true]).2 =
      .ok ⟨0, 0, [⟨"p.A", "HCC already recorded for p.A"⟩]⟩ := by decide +kernel
  obtain ⟨us, -, hstore, -, hsteps⟩ := hcollect .inOrder { extractors := acceptTwice } _ _ _ rfl (Prod.ext rfl hends)
  have hfails : (measureUnit acceptTwice ⟨oldStore, []⟩ (catchingUnit "p.B" false)).2 =
      .error (catchingUnit "p.B" false).failure := by decide +kernel
  have hkept := ((hunit [] (catchingUnit "p.B" false)).1 _ hfails).mpr hwhole
  exact ⟨reachable_oldStore, hhalf, ((hunit [] _).2.1 hhalf).2, hkept, hends, us, hstore, hsteps⟩

/-- A class without any handler. -/
def emptyClass : ClassUnit := { qualifiedName := "A", root := { id := .place [], kind := .classBody } }

/-- Two extractors accept an empty class: measuring it fails with a failure of the class alone, and a collection reports
the class as failed, but its measure is in the store. -/
theorem emptyClass_half_recorded :
    (measureUnit acceptTwice {} emptyClass).2 = .error (.record (.duplicate .hcc "A")) ∧
      (Failure.record (.duplicate .hcc "A")).isOfClass = true ∧
      (measureUnit acceptTwice {} emptyClass).1.store ≠ .empty ∧
      (collect .inOrder { extractors := acceptTwice } .empty [emptyClass]).1.store =
        Store.empty.extend "A" ⟨.hcc, .ofScore 0⟩ ∧
      (collect .inOrder { extractors := acceptTwice } .empty [emptyClass]).2 =
        .ok ⟨0, 0, [⟨"A", "HCC already recorded for A"⟩]⟩ := by
  decide +kernel

end HandlerComplexity
