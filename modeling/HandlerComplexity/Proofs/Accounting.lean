import HandlerComplexity.Proofs.Reading

/-!
# Nothing is lost in a report

A report is put together from four counts that are made apart: files, classes, classes left out and failures. They fit
together, whatever the order in which the classes are measured and counted.

* `map_name_classMeasures`, `measures_extendBy_perm`: the measures of a report are those of the store, in the order of
  the names.
* `Accounts`: a report in which nothing is lost.
* `scan_report_accounts`: the report of a scan into an empty store.
-/

namespace HandlerComplexity

/-! ## Measures -/

/-- A measure of a name, with the file and the language of the first unit of that name. -/
def ClassMeasure.of (units : List ClassUnit) (name : String) (m : Measure) : ClassMeasure :=
  ⟨name, ((originOf units name).map (·.path)).getD "", ((originOf units name).map (·.language)).getD "", m⟩

theorem classMeasures_eq (units : List ClassUnit) (s : Store) :
    classMeasures units s = s.items.flatMap fun e => e.2.map (ClassMeasure.of units e.1) := rfl

/-- The names of the measures are those of the store, in order. -/
theorem map_name_classMeasures (units : List ClassUnit) {s : Store} (hs : s.Sound) :
    (classMeasures units s).map (·.name) = s.items.map (·.1) := by
  have hsingle : ∀ e ∈ s.items, ∃ m, e.2 = [m] := fun e he => hs.single e (List.mem_mergeSort.mp he)
  rw [classMeasures_eq, List.map_flatMap]
  generalize s.items = items at hsingle ⊢
  induction items with
  | nil => rfl
  | cons e items ih =>
    obtain ⟨m, hm⟩ := hsingle e List.mem_cons_self
    rw [List.flatMap_cons, ih fun e' he' => hsingle e' (List.mem_cons_of_mem _ he'), hm]
    rfl

/-- The measures are in the order of the names, and no name occurs twice. -/
theorem classMeasures_increasing (units : List ClassUnit) {s : Store} (hs : s.Sound) :
    (classMeasures units s).Pairwise fun a b => a.name < b.name := by
  have hstrict : (s.items.map (·.1)).Pairwise (· < ·) := List.pairwise_map.mpr (pairwise_lt_mergeSort_key hs.nodup)
  rw [← map_name_classMeasures units hs] at hstrict
  exact List.pairwise_map.mp hstrict

/-- The measures of a store that was filled from units are the measures of these units. -/
theorem measures_extendBy_perm (units recorded : List ClassUnit) :
    ((classMeasures units (Store.empty.extendBy recorded)).map fun m => (m.name, m.measure)).Perm
      (recorded.map fun u => (u.qualifiedName, u.measure)) := by
  have hentries : (Store.empty.extendBy recorded).entries.flatMap (fun e => e.2.map fun m => (e.1, m)) =
      recorded.map fun u => (u.qualifiedName, u.measure) := by
    rw [Store.extendBy, Store.empty, List.nil_append, List.flatMap_map, List.map_eq_flatMap]
    rfl
  rw [classMeasures_eq, List.map_flatMap, ← hentries]
  simp only [List.map_map]
  exact (List.mergeSort_perm _ _).flatMap_right _

/-! ## Files and classes -/

/-- A file is parsed or reported. -/
theorem length_files (w : Workspace) (g : Grammars) (ps : List Path) :
    ps.length = ps.countP (isParsed w g) + (ps.filterMap (fileTrouble? w g)).length := by
  have hreported : ∀ p ∈ ps, (fileTrouble? w g p).isSome = true ↔ (decide ¬ isParsed w g p = true) = true := by
    intro p _
    rw [decide_eq_true_eq, ← fileTrouble?_eq_none_iff, Option.isSome_iff_ne_none]
  rw [List.length_filterMap_eq_countP, List.countP_congr hreported, ← List.length_eq_countP_add_countP]

/-- An eligible class is recorded or refused. -/
theorem recordedOf_append_refusedOf (vs : List (ClassUnit × Bool)) :
    (recordedOf vs ++ refusedOf vs).Perm (vs.map (·.1)) := by
  rw [recordedOf, refusedOf, ← List.map_append]
  exact (List.filter_append_perm _ vs).map _

/-- A class is recorded, left out or refused. -/
theorem length_units {accepts : ClassUnit → Bool} {units recorded refused : List ClassUnit}
    (h : (recorded ++ refused).Perm (units.filter accepts)) :
    units.length = recorded.length + units.countP (!accepts ·) + refused.length := by
  have hkept := h.length_eq
  rw [List.length_append, ← List.countP_eq_length_filter] at hkept
  have hsplit := List.length_eq_countP_add_countP accepts (l := units)
  simp only [Bool.not_eq_true, Bool.decide_eq_false] at hsplit
  omega

/-- All eligible classes are recorded iff none is refused. -/
theorem recorded_perm_iff {kept recorded refused : List ClassUnit} (h : (recorded ++ refused).Perm kept) :
    recorded.Perm kept ↔ refused = [] := by
  constructor
  · intro hall
    have hlength := h.length_eq
    rw [List.length_append, ← hall.length_eq] at hlength
    exact List.length_eq_zero_iff.mp (by omega)
  · rintro rfl
    rwa [List.append_nil] at h

/-! ## Reports -/

/-- A report in which nothing is lost. The units that are `recorded` are those whose measures the store holds, the
units that are `refused` are the other eligible ones. -/
structure Accounts (w : Workspace) (g : Grammars) (files : List Path) (units : List ClassUnit) (policy : Policy)
    (store : Store) (report : Report) (recorded refused : List ClassUnit) (fileErrors classErrors : List Trouble) :
    Prop where
  eligible : (recorded ++ refused).Perm (units.filter policy.takes)
  stored : store = Store.empty.extendBy recorded
  /-- Each file is parsed or reported, in the order in which the files are found. -/
  file_errors : fileErrors = files.filterMap (fileTrouble? w g)
  files_complete : (files.length : Int) = report.filesScanned + fileErrors.length
  /-- Each class is measured, left out or reported. -/
  class_errors : classErrors.Perm (refused.map ClassUnit.trouble)
  class_errors_sorted : classErrors.Pairwise fun a b => a.target ≤ b.target
  classes_found : report.classesFound = units.length
  classes_complete : report.classesFound = report.measures.length + report.skipped + classErrors.length
  /-- The measures are those of the recorded units. -/
  measures : (report.measures.map fun m => (m.name, m.measure)).Perm
    (recorded.map fun u => (u.qualifiedName, u.measure))
  measures_increasing : report.measures.Pairwise fun a b => a.name < b.name
  measures_accepted : ∀ m ∈ report.measures, ∃ u ∈ units, policy.accepts u = .ok true ∧ u.qualifiedName = m.name
  errors : report.errors = fileErrors ++ classErrors
  /-- There is no error iff all files were parsed and all eligible classes recorded. -/
  ok_iff : report.ok = true ↔
    (∀ p ∈ files, isParsed w g p = true) ∧ recorded.Perm (units.filter policy.takes)

/-- The report of a run over the eligible units in some order, counted in some order. -/
theorem accounts_reportOf {w : Workspace} {g : Grammars} {path : String} {s : ScanSettings} {us : List ClassUnit}
    {vs : List (ClassUnit × Bool)} (hus : us.Perm ((foundUnits w g path s.languages).filter s.policy.takes))
    (hvs : vs.Perm (verdicts Store.empty.contains us)) :
    Accounts w g (foundFiles w path s.languages) (foundUnits w g path s.languages) s.policy (Store.empty.run us)
      (reportOf w g path s (Store.empty.run us) vs) (recordedOf (verdicts Store.empty.contains us))
      (refusedOf (verdicts Store.empty.contains us)) ((foundFiles w path s.languages).filterMap (fileTrouble? w g))
      (((refusedOf vs).map ClassUnit.trouble).mergeSort (keyLe Trouble.target)) := by
  set units := foundUnits w g path s.languages with hunits
  set recorded := recordedOf (verdicts Store.empty.contains us)
  set refused := refusedOf (verdicts Store.empty.contains us)
  have heligible : (recorded ++ refused).Perm (units.filter s.policy.takes) := by
    refine (recordedOf_append_refusedOf _).trans ?_
    rw [map_fst_verdicts]
    exact hus
  have hmeasures : ((classMeasures units (Store.empty.run us)).map fun m => (m.name, m.measure)).Perm
      (recorded.map fun u => (u.qualifiedName, u.measure)) := measures_extendBy_perm units recorded
  have hrefusals : (refusedOf vs).Perm refused := (hvs.filter _).map _
  refine
    { eligible := heligible
      stored := rfl
      file_errors := rfl
      files_complete := ?_
      class_errors := (List.mergeSort_perm _ _).trans (hrefusals.map _)
      class_errors_sorted := pairwise_mergeSort_key _
      classes_found := rfl
      classes_complete := ?_
      measures := hmeasures
      measures_increasing := classMeasures_increasing _ (Store.Reachable.empty.run us).sound
      measures_accepted := ?_
      errors := rfl
      ok_iff := ?_ }
  · exact congrArg Int.ofNat (length_files w g _)
  · have hmeasured : (classMeasures units (Store.empty.run us)).length = recorded.length := by
      simpa using hmeasures.length_eq
    have hreported : (((refusedOf vs).map ClassUnit.trouble).mergeSort (keyLe Trouble.target)).length =
        refused.length := by
      rw [List.length_mergeSort, List.length_map, hrefusals.length_eq]
    simp only [reportOf, ← hunits, hmeasured, hreported]
    exact congrArg Int.ofNat (length_units heligible)
  · intro m hm
    obtain ⟨u, hu, heq⟩ := List.mem_map.mp (hmeasures.subset (List.mem_map_of_mem hm))
    obtain ⟨hmem, htakes⟩ := List.mem_filter.mp (heligible.subset (List.mem_append_left _ hu))
    exact ⟨u, hmem, of_decide_eq_true htakes, congrArg Prod.fst heq⟩
  · rw [Report.ok, List.isEmpty_iff, errors_reportOf_eq_nil_iff, recorded_perm_iff heligible]
    refine and_congr_right fun _ => ⟨fun hnone => ?_, fun hnone => ?_⟩
    · exact (hnone ▸ hrefusals).nil_eq.symm
    · exact (hnone ▸ hrefusals).eq_nil

/-- **Nothing is lost**: a scan into an empty store that goes on after failures, with any number of workers and in any
order, accounts for everything in its report. Without a report nothing is recorded: the path or the languages cannot be
read, which ends the scan before it reads a file, or the search does not come to its end, which shows only behind the
files found. -/
theorem scan_report_accounts {w : Workspace} (hw : w.WellFormed) {c : Config} (hgo : c.failFast = .ok false)
    {workers : Int} (hworkers : c.workers = .ok workers) {policy : Policy}
    (hpolicy : Policy.ofSection c.eligibility = .ok policy) (htexts : policy.HasTextPatterns) (schedule : Schedule)
    (g : Grammars) (path : String) :
    (∃ e log, Unreadable w path c.languages e ∧ scan schedule w g c path .empty = (⟨.empty, log⟩, .error e)) ∨
      ∃ ls p report recorded refused fileErrors classErrors, c.languages = .ok ls ∧
        scan schedule w g c path .empty = (p, .ok report) ∧
        Accounts w g (foundFiles w path ls) (foundUnits w g path ls) policy p.store report recorded refused fileErrors
          classErrors := by
  rcases ScanSettings.ofConfig_cases hpolicy hgo hworkers w path with ⟨e, hunreadable, hs⟩ | ⟨ls, hl, hs⟩
  · exact .inl ⟨e, [], hunreadable, scan_of_unreadable hs⟩
  rcases hsearch : (discover w (.ofString path) ls).refusal with _ | r
  · obtain ⟨us, vs, log, hus, hvs, hscan⟩ := scan_goes_on hw hs rfl hsearch htexts schedule Store.Reachable.empty
    have haccounts := accounts_reportOf (s := ⟨policy, false, workers, ls⟩) hus hvs
    exact .inr ⟨ls, _, _, _, _, _, _, hl, hscan, haccounts⟩
  · obtain ⟨log, hscan⟩ := scan_of_refusal (s := ⟨policy, false, workers, ls⟩) (allNamed_foundFiles hw g path ls) hs rfl
      hsearch schedule .empty
    exact .inl ⟨.refused r, log, .search hl hsearch, hscan⟩

/-- The default configuration with three workers. -/
def Config.threeWorkers : Config :=
  Config.default.overlay [(key "engine", .map [(key "max_workers", .ofInt 3)])]

/-- In the example workspace one class is left out and the other one is measured. -/
theorem shadowed_report_accounts :
    Shadowed.workspace.WellFormed ∧ Config.threeWorkers.failFast = .ok false ∧ Config.threeWorkers.workers = .ok 3 ∧
      ∃ ls p report recorded refused fileErrors classErrors, Config.threeWorkers.languages = .ok ls ∧
        scan .reversed Shadowed.workspace Shadowed.grammars .threeWorkers "." .empty = (p, .ok report) ∧
        Accounts Shadowed.workspace Shadowed.grammars (foundFiles Shadowed.workspace "." ls)
          (foundUnits Shadowed.workspace Shadowed.grammars "." ls) {} p.store report recorded refused fileErrors
          classErrors ∧ report.classesFound = 2 ∧ fileErrors.length + report.filesScanned = 2 := by
  have hw := Shadowed.wellFormed_workspace
  have htexts := Policy.hasTextPatterns_default
  refine ⟨hw, rfl, rfl, ?_⟩
  rcases scan_report_accounts hw (c := .threeWorkers) rfl rfl rfl htexts .reversed Shadowed.grammars "." with
    ⟨e, log, hunreadable, -⟩ | ⟨ls, p, report, recorded, refused, fileErrors, classErrors, hl, hscan, haccounts⟩
  · cases hunreadable with
    | path hr =>
      rw [Shadowed.refusal?_here] at hr
      cases hr
    | languages hl => cases hl
    | search hl hr =>
      obtain rfl : Shadowed.settings.languages = _ := Except.ok.inj hl
      cases hr.symm.trans Shadowed.searched_workspace
  · obtain rfl : Shadowed.settings.languages = ls := Except.ok.inj hl
    refine ⟨_, p, report, recorded, refused, fileErrors, classErrors, hl, hscan, haccounts, ?_, ?_⟩
    · obtain ⟨u, v, hunits, -⟩ := Shadowed.exists_foundUnits
      rw [haccounts.classes_found, hunits]
      rfl
    · rw [Int.add_comm, ← haccounts.files_complete, foundFiles, Shadowed.sourceFiles_here]
      rfl

end HandlerComplexity
