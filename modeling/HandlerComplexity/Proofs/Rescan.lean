import HandlerComplexity.Proofs.FailFast

/-!
# Scanning a second time

A scan on the store that an earlier scan of the same workspace left behind finds every name taken, so it changes nothing
and reports every eligible class.

* `Store.verdicts_run`: after a run over units, none of them is recorded again; so `Store.run_run`.
* `Repeats`: how the second of two scans compares with the first.
* `scan_again_repeats`: any two scans in a row.
-/

namespace HandlerComplexity

/-! ## Units that are all refused -/

/-- Units are all refused when each has no score or a name that is taken; what they add to the names changes nothing. -/
theorem verdicts_of_taken {taken : String → Bool} {us : List ClassUnit}
    (h : ∀ u ∈ us, u.isScored = true → taken u.qualifiedName = true) : verdicts taken us = us.map (·, false) := by
  induction us generalizing taken with
  | nil => rfl
  | cons u us ih =>
    have hrefused : (u.isScored && !taken u.qualifiedName) = false := by
      cases hscore : u.isScored with
      | false => rfl
      | true => rw [h u List.mem_cons_self hscore]; rfl
    have hrest : ∀ v ∈ us, v.isScored = true → mark taken u v.qualifiedName = true := by
      intro v hv hscore
      rw [mark, h v (List.mem_cons_of_mem _ hv) hscore, Bool.true_or]
    rw [verdicts, hrefused, ih hrest, List.map_cons]

namespace Store

variable (s : Store) (us : List ClassUnit)

/-- Every unit with a score has its name in the store after a run, whoever recorded it. -/
theorem contains_run_of_scored {us : List ClassUnit} {u : ClassUnit} (hu : u ∈ us) (hscore : u.isScored = true) :
    (s.run us).contains u.qualifiedName = true := by
  cases hc : s.contains u.qualifiedName with
  | true =>
    rw [run, contains_extendBy]
    exact .inl hc
  | false => exact (contains_run hc us).mpr ⟨u, hu, rfl, hscore⟩

theorem verdicts_run : verdicts (s.run us).contains us = us.map (·, false) :=
  verdicts_of_taken fun _ hu hscore => s.contains_run_of_scored hu hscore

/-- A second run records nothing. -/
theorem run_run : (s.run us).run us = s.run us := by
  have hnone : recordedOf (us.map (·, false)) = [] := by simp [recordedOf]
  rw [run, verdicts_run, hnone, extendBy_nil]

/-- A second run refuses every unit. -/
theorem refusedOf_verdicts_run : refusedOf (verdicts (s.run us).contains us) = us := by
  rw [verdicts_run, refusedOf]
  simp [List.filter_map, Function.comp_def]

end Store

/-! ## Two scans in a row -/

/-- How a scan with the store and the report `p₂` and `r₂` compares with the one before it, with `p₁` and `r₁`. -/
structure Repeats (fileErrors : List Trouble) (eligible : List ClassUnit) (p₁ : Progress) (r₁ : Report)
    (p₂ : Progress) (r₂ : Report) : Prop where
  /-- The store is as the first scan left it. -/
  store : p₂.store = p₁.store
  measures : r₂.measures = r₁.measures
  counts : r₂.filesScanned = r₁.filesScanned ∧ r₂.classesFound = r₁.classesFound ∧ r₂.skipped = r₁.skipped
  /-- The first scan lists the errors of the files first. -/
  file_errors : ∃ classErrors, r₁.errors = fileErrors ++ classErrors
  /-- The second one lists them too, and then one error for each eligible class, in the order of the targets. -/
  errors : r₂.errors = fileErrors ++ (eligible.map ClassUnit.trouble).mergeSort (keyLe Trouble.target)
  /-- A class that is not malformed has its name in the store, so that is what its error says. -/
  taken : ∀ u ∈ eligible, u.isScored = true →
    p₁.store.contains u.qualifiedName = true ∧ u.trouble.message = "HCC already recorded for " ++ u.qualifiedName

theorem repeats_oneWorkerReport (w : Workspace) (g : Grammars) (path : String) (s : ScanSettings) (store : Store)
    (log₁ log₂ : Log) :
    let kept := (foundUnits w g path s.languages).filter s.policy.takes
    Repeats ((foundFiles w path s.languages).filterMap (fileTrouble? w g)) kept ⟨store.run kept, log₁⟩
      (oneWorkerReport w g path s store) ⟨(store.run kept).run kept, log₂⟩
      (oneWorkerReport w g path s (store.run kept)) := by
  intro kept
  have hrun : (store.run kept).run kept = store.run kept := store.run_run kept
  refine
    { store := hrun
      measures := ?_
      counts := ⟨rfl, rfl, rfl⟩
      file_errors := ⟨_, rfl⟩
      errors := ?_
      taken := ?_ }
  · show classMeasures _ ((store.run kept).run kept) = classMeasures _ (store.run kept)
    rw [hrun]
  · show _ ++ ((refusedOf (verdicts (store.run kept).contains kept)).map ClassUnit.trouble).mergeSort _ = _
    rw [store.refusedOf_verdicts_run]
  · intro u hu hscore
    obtain ⟨n, hn⟩ := ClassUnit.isScored_iff.mp hscore
    exact ⟨store.contains_run_of_scored hu hscore, by rw [ClassUnit.trouble_of_score hn]⟩

/-- **Scanning again changes nothing**: of two scans in a row on one store, by one worker who goes on after failures,
either both stop with the same error and leave the store as it was, or both have a report and the second one repeats the
first. -/
theorem scan_again_repeats (w : Workspace) (g : Grammars) {c : Config} (hgo : c.failFast = .ok false)
    (hone : c.workers = .ok 1) (path : String) {store : Store} (hstore : store.Reachable) (first second : Schedule) :
    (∃ e log₁ log₂, Stopped w g c path e ∧ scan first w g c path store = (⟨store, log₁⟩, .error e) ∧
      scan second w g c path store = (⟨store, log₂⟩, .error e)) ∨
      ∃ s p₁ r₁ p₂ r₂, ScanSettings.ofConfig w (.ofString path) c = .ok s ∧
        (∀ u ∈ foundUnits w g path s.languages, s.policy.accepts u = .ok (s.policy.takes u)) ∧
        scan first w g c path store = (p₁, .ok r₁) ∧ scan second w g c path p₁.store = (p₂, .ok r₂) ∧
        Repeats ((foundFiles w path s.languages).filterMap (fileTrouble? w g))
          ((foundUnits w g path s.languages).filter s.policy.takes) p₁ r₁ p₂ r₂ := by
  rcases stopped_or_report w g path hgo hone with ⟨e, hstopped, hscan⟩ | ⟨s, hs, hdecided, hscan⟩
  · obtain ⟨log₁, hfirst⟩ := hscan first store
    obtain ⟨log₂, hsecond⟩ := hscan second store
    exact .inl ⟨e, log₁, log₂, hstopped, hfirst, hsecond⟩
  · obtain ⟨log₁, hfirst⟩ := hscan first store hstore
    obtain ⟨log₂, hsecond⟩ := hscan second _ (hstore.run _)
    exact .inr ⟨s, _, _, _, _, hs, hdecided, hfirst, hsecond, repeats_oneWorkerReport w g path s store log₁ log₂⟩

/-- In the example workspace, the second scan reports the one class that the first one measured. -/
theorem shadowed_scan_again :
    Config.default.failFast = .ok false ∧ Config.default.workers = .ok 1 ∧ Store.empty.Reachable ∧
      ∃ p₁ r₁ p₂ r₂ eligible,
        scan .inOrder Shadowed.workspace Shadowed.grammars .default "." .empty = (p₁, .ok r₁) ∧
        scan .inOrder Shadowed.workspace Shadowed.grammars .default "." p₁.store = (p₂, .ok r₂) ∧
        Repeats [] eligible p₁ r₁ p₂ r₂ ∧ r₂.errors = [⟨"A", "HCC already recorded for A"⟩] := by
  refine ⟨rfl, rfl, .empty, ?_⟩
  obtain ⟨p, r, -, -, hscan, -⟩ := Shadowed.exists_report
  rcases scan_again_repeats Shadowed.workspace Shadowed.grammars (c := .default) rfl rfl "." .empty .inOrder .inOrder
    with ⟨e, log₁, -, -, hfirst, -⟩ | ⟨s, p₁, r₁, p₂, r₂, hs, -, hfirst, hsecond, hrepeats⟩
  · cases hscan.symm.trans hfirst
  obtain rfl : Shadowed.settings = s := Except.ok.inj (Shadowed.ofConfig_default.symm.trans hs)
  obtain ⟨u, v, hunits, hu, hv⟩ := Shadowed.exists_foundUnits
  have hparsed : (foundFiles Shadowed.workspace "." Shadowed.settings.languages).filterMap
      (fileTrouble? Shadowed.workspace Shadowed.grammars) = [] := by
    rw [foundFiles, Shadowed.sourceFiles_here]
    simp [fileTrouble?_of_ok Shadowed.parse_testFile, fileTrouble?_of_ok Shadowed.parse_otherFile]
  have hkept : [u, v].filter Shadowed.settings.policy.takes = [v] := by
    simp [Policy.takes, hu.2.1, hv.2.1]
  rw [hparsed, hunits, hkept] at hrepeats
  refine ⟨p₁, r₁, p₂, r₂, [v], hfirst, hsecond, hrepeats, ?_⟩
  rw [hrepeats.errors, List.map_singleton, List.mergeSort_singleton, ClassUnit.trouble_of_score hv.2.2, hv.1.1]
  rfl

end HandlerComplexity
