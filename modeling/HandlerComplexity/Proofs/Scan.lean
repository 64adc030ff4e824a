import HandlerComplexity.Proofs.Collect
import HandlerComplexity.Scan

/-!
# What a scan with a report has done

A scan that returns a report has gone through all its stages: the settings were valid, the search came to its end, the
files were read, and the collection had a result.

* `ScanSettings.of_ofConfig`: the settings, one by one.
* `scannedUnits`: the classes that a scan measures, with the parts of each class put together.
* `readFiles_cons`: what reading one more file does; `readFound_of_finished`: what is read once the search is over.
* `exists_of_scan`: the stages of a scan with a report; `exists_scan`: when there is one.
-/

namespace HandlerComplexity

/-! ## Settings -/

theorem ScanSettings.of_ofConfig {w : Workspace} {root : Path} {c : Config} {s : ScanSettings}
    (h : ScanSettings.ofConfig w root c = .ok s) :
    Policy.ofSection c.eligibility = .ok s.policy ∧ c.failFast = .ok s.failFast ∧ c.workers = .ok s.workers ∧
      w.refusal? root = none ∧ c.languages = .ok s.languages := by
  -- each setting is asked for in turn, and a setting that is wrong leaves no result
  unfold ScanSettings.ofConfig at h
  rcases hp : Policy.ofSection c.eligibility with e | policy
  · rw [hp] at h
    cases h
  rcases hf : c.failFast with e | failFast
  · rw [hp, hf] at h
    cases h
  rcases hw : c.workers with e | workers
  · rw [hp, hf, hw] at h
    cases h
  rw [hp, hf, hw] at h
  cases hroot : w.refusal? root with
  | some r =>
    rw [hroot] at h
    cases h
  | none =>
    rcases hl : c.languages with e | languages
    · rw [hroot, hl] at h
      cases h
    · rw [hroot, hl] at h
      cases h
      exact ⟨rfl, rfl, rfl, rfl, rfl⟩

/-! ## Reading -/

-- sealed, so that the matches are not opened by evaluating the parser on a path that is not known
seal parseFile SourceFile.units in
theorem readFiles_cons (w : Workspace) (g : Grammars) (failFast : Bool) (root : String) (r : Reading) (p : Path)
    (ps : List Path) :
    readFiles w g failFast root r (p :: ps) =
      match parseFile w g p with
      | .error e =>
        if failFast then (r, .error (.grammar e)) else readFiles w g failFast root (r.reject p.toString e) ps
      | .ok f =>
        match f.units (some root) with
        | .error p => (r.accept f, .error (.nameless p))
        | .ok units => readFiles w g failFast root ((r.accept f).add f units) ps := rfl

theorem Workspace.read_of_locate {w : Workspace} {p : Path} {place : Place} {bytes : List UInt8}
    (hplace : w.locate p = .ok (.inside place)) (hreadable : w.unreadable.lookup place = none)
    (hfile : w.file? place = some bytes) : w.read p = .ok bytes := by
  rw [read, hplace]
  simp only [hreadable, at?, hfile]

/-- A file that is parsed adds its classes. -/
theorem readFiles_cons_ok {w : Workspace} {g : Grammars} {p : Path} {f : SourceFile} {root : String}
    {units : List ClassUnit} (hparse : parseFile w g p = .ok f) (hunits : f.units (some root) = .ok units)
    (failFast : Bool) (r : Reading) (ps : List Path) :
    readFiles w g failFast root r (p :: ps) = readFiles w g failFast root ((r.accept f).add f units) ps := by
  rw [readFiles_cons, hparse]
  dsimp only
  rw [hunits]

/-! A search that comes to its end leaves only the files to be read. -/

theorem readFound_of_finished {d : Discovery} (h : d.refusal = none) (w : Workspace) (g : Grammars) (failFast : Bool)
    (root : String) : readFound w g failFast root d = readFiles w g failFast root {} d.files := by
  rw [readFound, h]
  rcases readFiles w g failFast root {} d.files with ⟨r, e | ⟨⟩⟩
  · rfl
  · rfl

theorem readFound_of_error {w : Workspace} {g : Grammars} {failFast : Bool} {root : String} {d : Discovery}
    {r : Reading} {e : ScanError} (h : readFiles w g failFast root {} d.files = (r, .error e)) :
    readFound w g failFast root d = (r, .error e) := by
  rw [readFound, h]

theorem readFound_of_refusal {w : Workspace} {g : Grammars} {failFast : Bool} {root : String} {d : Discovery}
    {r : Reading} {x : Refusal} (h : readFiles w g failFast root {} d.files = (r, .ok ())) (hx : d.refusal = some x) :
    readFound w g failFast root d = (r, .error (.refused x)) := by
  rw [readFound, h, hx]

/-! ## Stages -/

/-- The classes that a scan measures, with the parts of each class put together. -/
def scannedUnits (w : Workspace) (g : Grammars) (c : Config) (path : String) : Except ScanError (List ClassUnit) :=
  let root := Path.ofString path
  match ScanSettings.ofConfig w root c with
  | .error e => .error e
  | .ok s =>
    match readFound w g s.failFast (moduleRootOf w root).toString (discover w root s.languages) with
    | (_, .error e) => .error e
    | (r, .ok ()) => .ok (mergePartial r.units).1

/-- The collector of a scan. -/
def ScanSettings.collector (s : ScanSettings) : Collector :=
  { eligibility := eligible (some s.policy), workers := s.workers, failFast := s.failFast }

theorem exists_of_measureAll {schedule : Schedule} {s : ScanSettings} {store : Store} {r : Reading} {p : Progress}
    {report : Report} (h : measureAll schedule s store r = (p, .ok report)) :
    ∃ q a, collect schedule s.collector store (mergePartial r.units).1 = (q, .ok a) ∧ p.store = q.store ∧
      report = {
        measures := classMeasures (mergePartial r.units).1 q.store
        filesScanned := r.filesScanned
        classesFound := (mergePartial r.units).1.length
        skipped := a.skipped
        errors := r.errors ++ a.errors } := by
  rcases hc : collect schedule s.collector store (mergePartial r.units).1 with ⟨q, f | a⟩
  · rw [ScanSettings.collector] at hc
    simp only [measureAll, hc] at h
    cases h
  · refine ⟨q, a, rfl, ?_⟩
    rw [ScanSettings.collector] at hc
    simp only [measureAll, hc] at h
    cases h
    exact ⟨rfl, rfl⟩

/-- A scan whose stages all have a result has a report. -/
theorem exists_scan {schedule : Schedule} {w : Workspace} {g : Grammars} {c : Config} {path : String} {store : Store}
    {s : ScanSettings} {r : Reading} {q : Progress} {a : Collected}
    (hs : ScanSettings.ofConfig w (Path.ofString path) c = .ok s)
    (hr : readFound w g s.failFast (moduleRootOf w (Path.ofString path)).toString
      (discover w (Path.ofString path) s.languages) = (r, .ok ()))
    (hc : collect schedule s.collector store (mergePartial r.units).1 = (q, .ok a)) :
    ∃ p report, scan schedule w g c path store = (p, .ok report) := by
  rw [ScanSettings.collector] at hc
  simp only [scan, hs, hr, measureAll, hc]
  exact ⟨_, _, rfl⟩

/-- **A scan with a report**: its settings, the classes it found, and how they were measured. -/
theorem exists_of_scan {schedule : Schedule} {w : Workspace} {g : Grammars} {c : Config} {path : String}
    {store : Store} {p : Progress} {report : Report} (h : scan schedule w g c path store = (p, .ok report)) :
    ∃ s units q a, ScanSettings.ofConfig w (Path.ofString path) c = .ok s ∧ scannedUnits w g c path = .ok units ∧
      collect schedule s.collector store units = (q, .ok a) ∧ p.store = q.store ∧
      report.measures = classMeasures units q.store := by
  unfold scan at h
  rcases hs : ScanSettings.ofConfig w (Path.ofString path) c with e | s
  · simp only [hs] at h
    cases h
  simp only [hs] at h
  rcases hr : readFound w g s.failFast (moduleRootOf w (Path.ofString path)).toString
    (discover w (Path.ofString path) s.languages) with ⟨r, e | ⟨⟩⟩
  · simp only [hr] at h
    cases h
  simp only [hr] at h
  obtain ⟨q, a, hc, hstore, hreport⟩ := exists_of_measureAll h
  refine ⟨s, (mergePartial r.units).1, q, a, rfl, ?_, hc, hstore, ?_⟩
  · simp only [scannedUnits, hs, hr]
  · rw [hreport]

end HandlerComplexity
