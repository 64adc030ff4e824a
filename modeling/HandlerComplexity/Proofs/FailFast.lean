import HandlerComplexity.Proofs.Reading

/-!
# Stopping at the first failure

A scan that stops at the first failure does the same as one that goes on, up to that failure.

* `Store.RecordsAll`: units that are all recorded when they are measured one after the other; `Store.FirstRefused`: the
  first one that is not.
* `collectInOrder_of_recordsAll`, `collectInOrder_stops`: the collection, without and with a failure.
* `readFiles_of_parsed`, `readFiles_stops`: reading the files, without and with a failure.
* `scan_failFast_only_stops`: the whole scan, described by `OnlyStops`.
* `scan_raises_without_report`: settings that cannot be read end every scan, so a scan that stops can fail where one
  that goes on reports no error: it has no report either.
-/

namespace HandlerComplexity

/-! ## Units that are all recorded -/

namespace Store

/-- Units that are all recorded when they are measured one after the other: each has a score, and no name is taken by
the store or by another of them. -/
def RecordsAll (s : Store) (us : List ClassUnit) : Prop :=
  (∀ u ∈ us, (∃ n, u.score = .ok n) ∧ s.contains u.qualifiedName = false) ∧ (us.map (·.qualifiedName)).Nodup

/-- The first unit that is not recorded, with those before it. -/
structure FirstRefused (s : Store) (us before : List ClassUnit) (u : ClassUnit) : Prop where
  recorded : s.RecordsAll before
  refused : ¬ s.RecordsAll (before ++ [u])
  split : ∃ behind, us = before ++ u :: behind

theorem admits_iff {s : Store} {u : ClassUnit} :
    s.admits u = true ↔ (∃ n, u.score = .ok n) ∧ s.contains u.qualifiedName = false := by
  rw [admits, Bool.and_eq_true, Bool.not_eq_true', ClassUnit.isScored_iff]

theorem after_of_not_admits {s : Store} {u : ClassUnit} (h : s.admits u = false) : s.after u = s := by
  rw [after, h]
  rfl

theorem after_of_admits {s : Store} {u : ClassUnit} (h : s.admits u = true) : s.after u = s.extendBy [u] := by
  rw [after, if_pos h]
  rfl

theorem extendBy_extendBy (s : Store) (us vs : List ClassUnit) :
    (s.extendBy us).extendBy vs = s.extendBy (us ++ vs) := by
  simp [extendBy]

@[simp] theorem extendBy_nil (s : Store) : s.extendBy [] = s := by
  simp [extendBy]

theorem recordsAll_nil (s : Store) : s.RecordsAll [] := ⟨by simp, List.nodup_nil⟩

/-- The first unit is recorded, and the others are recorded into the store after it. -/
theorem recordsAll_cons {s : Store} {u : ClassUnit} {us : List ClassUnit} :
    s.RecordsAll (u :: us) ↔ s.admits u = true ∧ (s.after u).RecordsAll us := by
  rw [RecordsAll, RecordsAll, List.forall_mem_cons, ← admits_iff, List.map_cons, List.nodup_cons, contains_after]
  constructor
  · rintro ⟨⟨hu, hus⟩, hnew, hnodup⟩
    refine ⟨hu, ⟨fun v hv => ⟨(hus v hv).1, ?_⟩, hnodup⟩⟩
    have hne : u.qualifiedName ≠ v.qualifiedName := fun h => hnew (h ▸ List.mem_map_of_mem hv)
    rw [mark_of_ne hne]
    exact (hus v hv).2
  · rintro ⟨hu, hus, hnodup⟩
    have hscored : u.isScored = true := ClassUnit.isScored_iff.mpr (admits_iff.mp hu).1
    have hfree : ∀ v ∈ us, s.contains v.qualifiedName = false ∧ v.qualifiedName ≠ u.qualifiedName := by
      intro v hv
      have hmark := (hus v hv).2
      simp only [mark, hscored, Bool.true_and, Bool.or_eq_false_iff, decide_eq_false_iff_not] at hmark
      exact hmark
    refine ⟨⟨hu, fun v hv => ⟨(hus v hv).1, (hfree v hv).1⟩⟩, ?_, hnodup⟩
    intro hmem
    obtain ⟨v, hv, heq⟩ := List.mem_map.mp hmem
    exact (hfree v hv).2 heq

/-- No unit is refused iff all are recorded. -/
theorem refusedOf_eq_nil_iff {s : Store} {us : List ClassUnit} :
    refusedOf (verdicts s.contains us) = [] ↔ s.RecordsAll us := by
  induction us generalizing s with
  | nil => exact ⟨fun _ => s.recordsAll_nil, fun _ => rfl⟩
  | cons u us ih =>
    rw [recordsAll_cons, ← ih, contains_after, verdicts]
    change refusedOf ((u, s.admits u) :: _) = [] ↔ _
    cases s.admits u with
    | true => simp [refusedOf]
    | false => simp [refusedOf]

end Store

/-! ## Collecting -/

section Collecting

variable {c d : Collector}

/-- When all units are recorded, it makes no difference what would be done about a failure. -/
theorem collectInOrder_of_recordsAll (hx : c.extractors = [eligible none]) (hx' : d.extractors = [eligible none])
    {us : List ClassUnit} {p : Progress} (hs : p.store.Reachable) (hall : p.store.RecordsAll us) (t : Tally) :
    collectInOrder c p t us = collectInOrder d p t us := by
  induction us generalizing p t with
  | nil => rfl
  | cons u us ih =>
    obtain ⟨hadmits, hrest⟩ := Store.recordsAll_cons.mp hall
    obtain ⟨log, hu⟩ := measureUnit_default hs.sound u
    rw [hadmits] at hu
    rw [collectInOrder, collectInOrder, hx, hx', hu]
    exact ih (hs.after u) hrest _

/-- **The first failure ends the run**: the units before it are recorded, and nothing else. The induction is on the
units still to be measured, with the store reached so far. -/
theorem collectInOrder_stops (hx : c.extractors = [eligible none]) (hf : c.failFast = true) {us : List ClassUnit}
    {p : Progress} (hs : p.store.Reachable) (hsome : ¬ p.store.RecordsAll us) (t : Tally) :
    ∃ before u log, p.store.FirstRefused us before u ∧
      collectInOrder c p t us = (⟨p.store.extendBy before, log⟩, .error u.failure) := by
  induction us generalizing p t with
  | nil => exact absurd p.store.recordsAll_nil hsome
  | cons u us ih =>
    obtain ⟨log, hu⟩ := measureUnit_default hs.sound u
    cases hadmits : p.store.admits u with
    | false =>
      refine ⟨[], u, log, ⟨p.store.recordsAll_nil, ?_, us, rfl⟩, ?_⟩
      · rw [List.nil_append, Store.recordsAll_cons, hadmits]
        simp
      · rw [hadmits] at hu
        rw [collectInOrder, hx, hu, hf, Store.extendBy_nil, Store.after_of_not_admits hadmits]
        simp [resultOf, Tally.add, Progress.write]
    | true =>
      have hrest : ¬ (p.store.after u).RecordsAll us := fun h => hsome (Store.recordsAll_cons.mpr ⟨hadmits, h⟩)
      obtain ⟨before, v, log', ⟨hbefore, hfails, behind, rfl⟩, hrun⟩ :=
        ih (p := (⟨p.store.after u, log⟩ : Progress).write []) (hs.after u) hrest (t.count [(u, true)])
      refine ⟨u :: before, v, log', ⟨Store.recordsAll_cons.mpr ⟨hadmits, hbefore⟩, ?_, behind, rfl⟩, ?_⟩
      · rw [List.cons_append, Store.recordsAll_cons]
        exact fun h => hfails h.2
      · have hstore : (p.store.after u).extendBy before = p.store.extendBy (u :: before) := by
          rw [Store.after_of_admits hadmits, Store.extendBy_extendBy, List.singleton_append]
        rw [Progress.store_write, hstore] at hrun
        rw [hadmits] at hu
        rw [collectInOrder, hx, hu]
        exact hrun

variable {accepts : ClassUnit → Bool} {units : List ClassUnit} {store : Store}

theorem collect_of_recordsAll (he : ∀ u ∈ units, c.eligibility u = .ok (accepts u))
    (hsame : c.eligibility = d.eligibility) (hx : c.extractors = [eligible none])
    (hx' : d.extractors = [eligible none]) (hw : c.workers = 1) (hw' : d.workers = 1) (s : Schedule)
    (hs : store.Reachable) (hall : store.RecordsAll (units.filter accepts)) :
    collect s c store units = collect s d store units := by
  obtain ⟨log, hsift⟩ := sift_all he
  have hsift' := hsift
  rw [hsame] at hsift'
  unfold collect
  rw [hsift, hsift', hw, hw']
  simp only [Int.lt_irrefl, and_false, if_false]
  rw [collectInOrder_of_recordsAll hx hx' hs hall]

theorem collect_stops (he : ∀ u ∈ units, c.eligibility u = .ok (accepts u)) (hx : c.extractors = [eligible none])
    (hf : c.failFast = true) (hw : c.workers = 1) (s : Schedule) (hs : store.Reachable)
    (hsome : ¬ store.RecordsAll (units.filter accepts)) :
    ∃ before u log, store.FirstRefused (units.filter accepts) before u ∧
      collect s c store units = (⟨store.extendBy before, log⟩, .error u.failure) := by
  obtain ⟨log, hsift⟩ := sift_all he
  obtain ⟨before, u, log', hfirst, hrun⟩ := collectInOrder_stops (p := ⟨store, log⟩) hx hf hs hsome {}
  refine ⟨before, u, log', hfirst, ?_⟩
  unfold collect
  rw [hsift, hw]
  simp only [Int.lt_irrefl, and_false, if_false, hrun]
  rfl

end Collecting

/-! ## Reading -/

section Reading

variable {w : Workspace} {g : Grammars} {root : String} {ps : List Path}

/-- When all files are parsed, it makes no difference what would be done about one that is not. -/
theorem readFiles_of_parsed (h : ∀ p ∈ ps, isParsed w g p = true) (stop stop' : Bool) (r : Reading) :
    readFiles w g stop root r ps = readFiles w g stop' root r ps := by
  induction ps generalizing r with
  | nil => rfl
  | cons p ps ih =>
    have hrest : ∀ q ∈ ps, isParsed w g q = true := fun q hq => h q (List.mem_cons_of_mem _ hq)
    rw [readFiles_cons, readFiles_cons]
    rcases hp : parseFile w g p with e | f
    · have hparsed := h p List.mem_cons_self
      rw [isParsed_of_error hp] at hparsed
      cases hparsed
    · dsimp only
      rcases f.units (some root) with e | units
      · rfl
      · exact ih hrest _

theorem readFound_of_parsed {d : Discovery} (h : ∀ p ∈ d.files, isParsed w g p = true) (stop stop' : Bool) :
    readFound w g stop root d = readFound w g stop' root d := by
  rw [readFound, readFound, readFiles_of_parsed h stop stop']

/-- What is wrong with the first file that cannot be parsed. -/
def FirstUnparsed (w : Workspace) (g : Grammars) (ps : List Path) (e : GrammarError) : Prop :=
  ∃ before p behind, ps = before ++ p :: behind ∧ (∀ q ∈ before, isParsed w g q = true) ∧ parseFile w g p = .error e

/-- The first file that cannot be parsed ends the reading. -/
theorem readFiles_stops (hn : AllNamed w g root ps) (hsome : ¬ ∀ p ∈ ps, isParsed w g p = true) (r : Reading) :
    ∃ e r', FirstUnparsed w g ps e ∧ readFiles w g true root r ps = (r', .error (.grammar e)) := by
  induction ps generalizing r with
  | nil => exact absurd (by simp) hsome
  | cons p ps ih =>
    rcases hp : parseFile w g p with e | f
    · refine ⟨e, r, ⟨[], p, ps, rfl, by simp, hp⟩, ?_⟩
      rw [readFiles_cons, hp]
      rfl
    · have hrest : ¬ ∀ q ∈ ps, isParsed w g q = true :=
        fun h => hsome (List.forall_mem_cons.mpr ⟨isParsed_of_ok hp, h⟩)
      obtain ⟨units, hunits⟩ := hn p List.mem_cons_self f hp
      obtain ⟨e, r', ⟨before, q, behind, rfl, hbefore, hq⟩, hread⟩ :=
        ih (fun q hq => hn q (List.mem_cons_of_mem _ hq)) hrest ((r.accept f).add f units)
      refine ⟨e, r', ⟨p :: before, q, behind, rfl, ?_, hq⟩, ?_⟩
      · exact List.forall_mem_cons.mpr ⟨isParsed_of_ok hp, hbefore⟩
      · rw [readFiles_cons_ok hp hunits, hread]

end Reading

/-! ## Settings -/

/-- Two configurations that ask for the same scan, except perhaps for what to do about failures. -/
structure Config.ScansAlike (c c' : Config) : Prop where
  eligibility : c.eligibility = c'.eligibility
  workers : c.workers = c'.workers
  languages : c.languages = c'.languages

/-! ## Scans -/

/-- How a scan that stops at the first failure compares with one that goes on, from the same store. -/
structure OnlyStops (w : Workspace) (g : Grammars) (path : String) (languages : Except ConfigError (List Scalar))
    (policy : Policy) (store : Store) (stop go : Progress × Except ScanError Report) : Prop where
  /-- The one fails iff the other fails as well or has a report with errors. -/
  raises_iff : (∃ e, stop.2 = .error e) ↔
    (∃ e, go.2 = .error e) ∨ ∃ report, go.2 = .ok report ∧ report.errors ≠ []
  /-- The other fails only where there is no report at all, and then neither records anything. They fail alike, unless
  the search ends early behind a file that ends the one scan before. -/
  both_raise : ∀ e, go.2 = .error e → go.1.store = store ∧ stop.1.store = store ∧ Unreadable w path languages e ∧
    (stop = go ∨ ∃ ls r x, languages = .ok ls ∧ (discover w (.ofString path) ls).refusal = some r ∧ e = .refused r ∧
      stop.2 = .error (.grammar x))
  /-- Without an error there is no difference at all. -/
  agree : ∀ report, go.2 = .ok report → report.errors = [] → stop = go
  /-- A file that ends the scan is the first one that cannot be read or parsed, and nothing is recorded. -/
  first_file : ∀ x, stop.2 = .error (.grammar x) →
    stop.1.store = store ∧ ∃ ls, languages = .ok ls ∧ FirstUnparsed w g (foundFiles w path ls) x
  /-- A class that ends the scan is the first eligible one that is not recorded, and those before it are. -/
  first_class : ∀ f, stop.2 = .error (.measuring f) →
    ∃ ls before u, languages = .ok ls ∧
      store.FirstRefused ((foundUnits w g path ls).filter policy.takes) before u ∧ f = u.failure ∧
      stop.1.store = store.extendBy before
  /-- Nothing else ends the scan. -/
  causes : ∀ e, stop.2 = .error e → go.2 = .error e ∨ (∃ x, e = .grammar x) ∨ ∃ f, e = .measuring f

namespace OnlyStops

variable {w : Workspace} {g : Grammars} {path : String} {languages : Except ConfigError (List Scalar)}
  {policy : Policy} {store : Store} {stop go : Progress × Except ScanError Report}

theorem of_unreadable {e : ScanError} {log : Log} (hstop : stop = (⟨store, log⟩, .error e))
    (hgo : go = (⟨store, log⟩, .error e)) (hcause : Unreadable w path languages e) :
    OnlyStops w g path languages policy store stop go := by
  subst hstop hgo
  constructor
  case raises_iff => exact ⟨fun h => .inl h, fun _ => ⟨e, rfl⟩⟩
  case both_raise =>
    rintro _ ⟨⟩
    exact ⟨rfl, rfl, hcause, .inl rfl⟩
  case agree => rintro _ ⟨⟩
  case first_file =>
    rintro x ⟨⟩
    cases hcause
  case first_class =>
    rintro f ⟨⟩
    cases hcause
  case causes => exact fun x h => .inl h

/-- A file that cannot be parsed comes before what ends the search early. -/
theorem of_refusal {ls : List Scalar} {r : Refusal} {x : GrammarError} {log log' : Log}
    (hstop : stop = (⟨store, log⟩, .error (.grammar x))) (hgo : go = (⟨store, log'⟩, .error (.refused r)))
    (hl : languages = .ok ls) (hr : (discover w (.ofString path) ls).refusal = some r)
    (hfirst : FirstUnparsed w g (foundFiles w path ls) x) : OnlyStops w g path languages policy store stop go := by
  subst hstop hgo
  constructor
  case raises_iff => exact ⟨fun _ => .inl ⟨_, rfl⟩, fun _ => ⟨_, rfl⟩⟩
  case both_raise =>
    rintro _ ⟨⟩
    exact ⟨rfl, rfl, .search hl hr, .inr ⟨ls, r, x, hl, hr, rfl, rfl⟩⟩
  case agree => rintro _ ⟨⟩
  case first_file =>
    rintro _ ⟨⟩
    exact ⟨rfl, ls, hl, hfirst⟩
  case first_class => rintro _ ⟨⟩
  case causes =>
    rintro _ ⟨⟩
    exact .inr (.inl ⟨x, rfl⟩)

theorem of_no_failure {report : Report} (hsame : stop = go) (hgo : go.2 = .ok report) (hnone : report.errors = []) :
    OnlyStops w g path languages policy store stop go := by
  have hraises : ∀ e, go.2 ≠ .error e := by simp [hgo]
  subst hsame
  constructor
  case raises_iff =>
    refine ⟨fun ⟨e, h⟩ => absurd h (hraises e), ?_⟩
    rintro (⟨e, h⟩ | ⟨report', h, hsome⟩)
    · exact absurd h (hraises e)
    · rw [hgo] at h
      cases h
      exact absurd hnone hsome
  case agree => exact fun _ _ _ => rfl
  all_goals exact fun _ h => absurd h (hraises _)

/-- A failure that ends only the one scan: an error in the report of the other. -/
theorem of_failure {report : Report} {e : ScanError} (hstop : stop.2 = .error e) (hgo : go.2 = .ok report)
    (hsome : report.errors ≠ [])
    (hfile : ∀ x, e = .grammar x →
      stop.1.store = store ∧ ∃ ls, languages = .ok ls ∧ FirstUnparsed w g (foundFiles w path ls) x)
    (hclass : ∀ f, e = .measuring f → ∃ ls before u, languages = .ok ls ∧
      store.FirstRefused ((foundUnits w g path ls).filter policy.takes) before u ∧ f = u.failure ∧
      stop.1.store = store.extendBy before)
    (hcause : (∃ x, e = .grammar x) ∨ ∃ f, e = .measuring f) :
    OnlyStops w g path languages policy store stop go := by
  have hraises : ∀ x, go.2 ≠ .error x := by simp [hgo]
  constructor
  case raises_iff => exact ⟨fun _ => .inr ⟨report, hgo, hsome⟩, fun _ => ⟨e, hstop⟩⟩
  case both_raise => exact fun x h => absurd h (hraises x)
  case agree =>
    intro report' h hnone
    rw [hgo] at h
    cases h
    exact absurd hnone hsome
  case first_file =>
    intro x h
    rw [hstop] at h
    exact hfile x (Except.error.inj h)
  case first_class =>
    intro f h
    rw [hstop] at h
    exact hclass f (Except.error.inj h)
  case causes =>
    intro x h
    rw [hstop] at h
    exact .inr (Except.error.inj h ▸ hcause)

end OnlyStops

section Scan

variable {w : Workspace} {g : Grammars} {c : Config} {path : String} {s : ScanSettings} {store : Store}

/-- A file that cannot be parsed ends the scan before anything is recorded. -/
theorem scan_stops_at_file (hw : w.WellFormed) (hs : ScanSettings.ofConfig w (Path.ofString path) c = .ok s)
    (hf : s.failFast = true) (hsome : ¬ ∀ p ∈ foundFiles w path s.languages, isParsed w g p = true)
    (schedule : Schedule) :
    ∃ e log, FirstUnparsed w g (foundFiles w path s.languages) e ∧
      scan schedule w g c path store = (⟨store, log⟩, .error (.grammar e)) := by
  obtain ⟨e, r, hfirst, hread⟩ := readFiles_stops (allNamed_foundFiles hw g path s.languages) hsome {}
  rw [← hf] at hread
  exact ⟨e, r.log, hfirst, scan_of_readFound_error hs (readFound_of_error hread) schedule store⟩

/-- A class that is not recorded ends the scan, once all files are parsed. -/
theorem scan_stops_at_class (hw : w.WellFormed) (hs : ScanSettings.ofConfig w (Path.ofString path) c = .ok s)
    (hf : s.failFast = true) (hsearch : Searched w path s.languages) (hone : s.workers = 1)
    (hp : s.policy.HasTextPatterns)
    (hall : ∀ p ∈ foundFiles w path s.languages, isParsed w g p = true) (hstore : store.Reachable)
    (hsome : ¬ store.RecordsAll ((foundUnits w g path s.languages).filter s.policy.takes)) (schedule : Schedule) :
    ∃ before u, store.FirstRefused ((foundUnits w g path s.languages).filter s.policy.takes) before u ∧
      ∃ log, scan schedule w g c path store = (⟨store.extendBy before, log⟩, .error (.measuring u.failure)) := by
  obtain ⟨log, hread⟩ := hsearch.exists_readFound (allNamed_foundFiles hw g path s.languages)
  rw [readFound_of_parsed hall false true] at hread
  obtain ⟨before, u, log', hfirst, hcollect⟩ :=
    collect_stops (c := s.collector) (fun u _ => hp.decides u) rfl hf hone schedule hstore hsome
  refine ⟨before, u, hfirst, ?_⟩
  rw [ScanSettings.collector, foundUnits, hf] at hcollect
  unfold scan
  simp only [hs, hf, hread, measureAll, hcollect]
  exact ⟨_, rfl⟩

/-- Without a failure a scan does the same whatever would be done about one. -/
theorem scan_of_no_failure {c' : Config} (hw : w.WellFormed)
    (hs : ScanSettings.ofConfig w (Path.ofString path) c = .ok { s with failFast := true })
    (hs' : ScanSettings.ofConfig w (Path.ofString path) c' = .ok { s with failFast := false })
    (hsearch : Searched w path s.languages) (hone : s.workers = 1)
    (hp : s.policy.HasTextPatterns) (hall : ∀ p ∈ foundFiles w path s.languages, isParsed w g p = true)
    (hstore : store.Reachable)
    (hrecords : store.RecordsAll ((foundUnits w g path s.languages).filter s.policy.takes)) (schedule : Schedule) :
    scan schedule w g c path store = scan schedule w g c' path store := by
  obtain ⟨log, hread⟩ := hsearch.exists_readFound (allNamed_foundFiles hw g path s.languages)
  have hread' := hread
  rw [readFound_of_parsed hall false true] at hread'
  have hcollect := collect_of_recordsAll (c := { s with failFast := true : ScanSettings }.collector)
    (d := { s with failFast := false : ScanSettings }.collector) (fun u _ => hp.decides u) rfl rfl rfl
    hone hone schedule hstore hrecords
  simp only [ScanSettings.collector, foundUnits] at hcollect
  unfold scan
  simp only [hs, hs', hread, hread', measureAll, hcollect]

/-- When the search does not come to its end, both scans fail: alike, unless a file that cannot be parsed comes first. -/
theorem onlyStops_of_refusal {c' : Config} (hw : w.WellFormed)
    (hs : ScanSettings.ofConfig w (Path.ofString path) c = .ok { s with failFast := true })
    (hs' : ScanSettings.ofConfig w (Path.ofString path) c' = .ok { s with failFast := false }) {r : Refusal}
    (hr : (discover w (Path.ofString path) s.languages).refusal = some r) (policy : Policy) (schedule : Schedule) :
    OnlyStops w g path (.ok s.languages) policy store (scan schedule w g c path store)
      (scan schedule w g c' path store) := by
  have hn := allNamed_foundFiles hw g path s.languages
  by_cases hall : ∀ p ∈ foundFiles w path s.languages, isParsed w g p = true
  · obtain ⟨log, hread⟩ := exists_readFiles hn
    have hgoes := readFound_of_refusal hread hr
    have hstops := (readFound_of_parsed hall true false).trans hgoes
    exact .of_unreadable (scan_of_readFound_error hs hstops schedule store)
      (scan_of_readFound_error hs' hgoes schedule store) (.search rfl hr)
  · obtain ⟨x, log, hfirst, hstops⟩ := scan_stops_at_file hw hs rfl hall schedule
    obtain ⟨log', hgoes⟩ := scan_of_refusal (s := { s with failFast := false }) hn hs' rfl hr schedule store
    exact .of_refusal hstops hgoes rfl hr hfirst

end Scan

/-- **Stopping changes only when the scan stops**: with one worker and text patterns, from the same store. -/
theorem scan_failFast_only_stops {w : Workspace} (hw : w.WellFormed) {c c' : Config} (halike : c.ScansAlike c')
    (hstop : c.failFast = .ok true) (hgo : c'.failFast = .ok false) (hone : c.workers = .ok 1) {policy : Policy}
    (hpolicy : Policy.ofSection c.eligibility = .ok policy) (htexts : policy.HasTextPatterns) {store : Store}
    (hstore : store.Reachable) (schedule : Schedule) (g : Grammars) (path : String) :
    OnlyStops w g path c.languages policy store (scan schedule w g c path store) (scan schedule w g c' path store) := by
  have hs := ScanSettings.ofConfig_eq hpolicy hstop hone w (Path.ofString path)
  have hs' := ScanSettings.ofConfig_eq (halike.eligibility ▸ hpolicy) hgo (halike.workers ▸ hone) w (Path.ofString path)
  rw [← halike.languages] at hs'
  rcases hroot : w.refusal? (Path.ofString path) with _ | r
  swap
  · rw [hroot] at hs hs'
    exact .of_unreadable (scan_of_unreadable hs) (scan_of_unreadable hs') (.path hroot)
  rw [hroot] at hs hs'
  rcases hl : c.languages with e | ls
  · rw [hl] at hs hs'
    exact .of_unreadable (scan_of_unreadable hs) (scan_of_unreadable hs') (.languages rfl)
  rw [hl] at hs hs'
  rcases hsearch : (discover w (Path.ofString path) ls).refusal with _ | r
  swap
  · exact onlyStops_of_refusal (s := ⟨policy, true, 1, ls⟩) hw hs hs' hsearch policy schedule
  obtain ⟨log, hgoes⟩ := scan_one_worker hw hs' rfl hsearch rfl htexts schedule hstore
  have hreport := congrArg Prod.snd hgoes
  by_cases hall : ∀ p ∈ foundFiles w path ls, isParsed w g p = true
  · by_cases hrecords : store.RecordsAll ((foundUnits w g path ls).filter policy.takes)
    · refine .of_no_failure ?_ hreport (errors_reportOf_eq_nil_iff.mpr ⟨hall, ?_⟩)
      · exact scan_of_no_failure (s := ⟨policy, true, 1, ls⟩) hw hs hs' hsearch rfl htexts hall hstore hrecords schedule
      · exact Store.refusedOf_eq_nil_iff.mpr hrecords
    · obtain ⟨before, u, hfirst, log', hstops⟩ :=
        scan_stops_at_class hw hs rfl hsearch rfl htexts hall hstore hrecords schedule
      refine .of_failure (congrArg Prod.snd hstops) hreport ?_ ?_ ?_ (.inr ⟨_, rfl⟩)
      · exact fun hnone => hrecords (Store.refusedOf_eq_nil_iff.mp (errors_reportOf_eq_nil_iff.mp hnone).2)
      · rintro x ⟨⟩
      · rintro f ⟨⟩
        exact ⟨ls, before, u, rfl, hfirst, rfl, by rw [hstops]⟩
  · obtain ⟨e, log', hfirst, hstops⟩ := scan_stops_at_file hw hs rfl hall schedule
    refine .of_failure (congrArg Prod.snd hstops) hreport ?_ ?_ ?_ (.inl ⟨_, rfl⟩)
    · exact fun hnone => hall (errors_reportOf_eq_nil_iff.mp hnone).1
    · rintro x ⟨⟩
      exact ⟨by rw [hstops], ls, rfl, hfirst⟩
    · rintro f ⟨⟩

/-- The default configuration, but the first failure ends the scan. -/
def Config.stopping : Config :=
  Config.default.overlay [(key "engine", .map [(key "fail_fast", .ofBool true)])]

/-- A store that has the class of the example workspace already. -/
def takenStore : Store := Store.empty.extend "A" ⟨.hcc, .ofScore 7⟩

/-- In the example workspace the class behind the one left out has a name that is taken, so it ends the scan. -/
theorem taken_name_only_stops :
    Shadowed.workspace.WellFormed ∧ Config.stopping.ScansAlike .default ∧ takenStore.Reachable ∧
      OnlyStops Shadowed.workspace Shadowed.grammars "." Config.stopping.languages {} takenStore
        (scan .inOrder Shadowed.workspace Shadowed.grammars .stopping "." takenStore)
        (scan .inOrder Shadowed.workspace Shadowed.grammars .default "." takenStore) ∧
      ∃ e, (scan .inOrder Shadowed.workspace Shadowed.grammars .stopping "." takenStore).2 = .error e := by
  have hw := Shadowed.wellFormed_workspace
  have htexts := Policy.hasTextPatterns_default
  have halike : Config.stopping.ScansAlike .default := ⟨rfl, rfl, rfl⟩
  have hstore : takenStore.Reachable := Store.Reachable.empty.extend .hcc 7 rfl
  have hstops := scan_failFast_only_stops hw halike rfl rfl rfl rfl htexts hstore .inOrder Shadowed.grammars "."
  refine ⟨hw, halike, hstore, hstops, hstops.raises_iff.mpr (.inr ?_)⟩
  obtain ⟨log, hgoes⟩ := scan_one_worker hw Shadowed.ofConfig_default rfl Shadowed.searched_workspace rfl htexts
    .inOrder hstore
  refine ⟨_, congrArg Prod.snd hgoes, fun hnone => ?_⟩
  have hall := Store.refusedOf_eq_nil_iff.mp (errors_reportOf_eq_nil_iff.mp hnone).2
  obtain ⟨u, v, hunits, hu, hv⟩ := Shadowed.exists_foundUnits
  have hmem : v ∈ (foundUnits Shadowed.workspace Shadowed.grammars "." Shadowed.settings.languages).filter
      Shadowed.settings.policy.takes := by
    rw [hunits]
    simp [Policy.takes, hv.2.1]
  have hfree := (hall.1 v hmem).2
  rw [hv.1.1] at hfree
  exact absurd hfree (by decide)

/-- The default configuration with languages that cannot be read. -/
def Config.unreadable (failFast : Bool) : Config :=
  Config.default.overlay [(key "languages", .map [(key "enabled", .ofInt 5)]),
    (key "engine", .map [(key "fail_fast", .ofBool failFast)])]

/-- **A failure without a report**: with languages that cannot be read, the scan that stops fails, and the one that goes
on does not have a report with errors. -/
theorem scan_raises_without_report :
    (Config.unreadable true).failFast = .ok true ∧ (Config.unreadable false).failFast = .ok false ∧
      (Config.unreadable true).workers = .ok 1 ∧ (Config.unreadable true).ScansAlike (.unreadable false) ∧
      Policy.ofSection (Config.unreadable true).eligibility = .ok {} ∧ ({} : Policy).HasTextPatterns ∧
      ({} : Workspace).WellFormed ∧
      (∃ e, (scan .inOrder {} .missing (.unreadable true) "." .empty).2 = .error e) ∧
      ¬ ∃ report, (scan .inOrder {} .missing (.unreadable false) "." .empty).2 = .ok report ∧ report.errors ≠ [] := by
  have hroot : ({} : Workspace).refusal? (Path.ofString ".") = none := by
    rw [Workspace.refusal?, Workspace.locate, String.contains_char_eq]
    decide +kernel
  have hsettings (failFast : Bool) :
      ScanSettings.ofConfig {} (Path.ofString ".") (.unreadable failFast) = .error (.config .badLanguages) := by
    rw [ScanSettings.ofConfig, hroot]
    rfl
  refine ⟨rfl, rfl, rfl, ⟨rfl, rfl, rfl⟩, rfl, Policy.hasTextPatterns_default, by decide, ?_, ?_⟩
  · rw [scan_of_unreadable (hsettings true)]
    exact ⟨_, rfl⟩
  · rw [scan_of_unreadable (hsettings false)]
    rintro ⟨report, ⟨⟩, -⟩

end HandlerComplexity
