import HandlerComplexity.Proofs.Attribution
import HandlerComplexity.Proofs.Schedule
import HandlerComplexity.Proofs.Workspace

/-!
# Scans that go on after failures

Whether a file is parsed, what its classes are and what is reported about it depends on the file alone. So a scan that
goes on after failures is described by the list of files it finds.

* `fileUnits`, `fileTrouble?`, `isParsed`: the share of one file in a scan.
* `readFiles_all`: reading all files, in terms of these.
* `Unreadable`: why there is no report, when only the path, the languages and the search are in doubt.
* `Policy.HasTextPatterns`: a policy with such patterns decides about every class.
* `declaredUnits`, `foundUnits`: the classes of a scan, before and after their parts are put together.
* `scan_goes_on`: the report of a scan, for any order in which the classes are measured; `scan_one_worker`: for one
  worker.
* `stopped_or_report`: one worker, for any policy and any store; `Stopped` says why there is no report.
-/

namespace HandlerComplexity

/-! ## One file -/

/-- The classes of a file, none if it cannot be parsed. -/
def fileUnits (w : Workspace) (g : Grammars) (moduleRoot : String) (p : Path) : List ClassUnit :=
  match parseFile w g p with
  | .error _ => []
  | .ok f =>
    match f.units (some moduleRoot) with
    | .error _ => []
    | .ok units => units

/-- What is reported about a file that cannot be parsed. -/
def fileTrouble? (w : Workspace) (g : Grammars) (p : Path) : Option Trouble :=
  match parseFile w g p with
  | .error e => some ⟨p.toString, e.message⟩
  | .ok _ => none

def isParsed (w : Workspace) (g : Grammars) (p : Path) : Bool := (parseFile w g p).isOk

section File

variable {w : Workspace} {g : Grammars} {p : Path}

theorem isParsed_of_ok {f : SourceFile} (h : parseFile w g p = .ok f) : isParsed w g p = true := by
  rw [isParsed, h]
  rfl

theorem isParsed_of_error {e : GrammarError} (h : parseFile w g p = .error e) : isParsed w g p = false := by
  rw [isParsed, h]
  rfl

theorem fileTrouble?_of_ok {f : SourceFile} (h : parseFile w g p = .ok f) : fileTrouble? w g p = none := by
  rw [fileTrouble?, h]

theorem fileTrouble?_of_error {e : GrammarError} (h : parseFile w g p = .error e) :
    fileTrouble? w g p = some ⟨p.toString, e.message⟩ := by
  rw [fileTrouble?, h]

theorem fileTrouble?_eq_none_iff : fileTrouble? w g p = none ↔ isParsed w g p = true := by
  rcases h : parseFile w g p with e | f
  · simp [fileTrouble?_of_error h, isParsed_of_error h]
  · simp [fileTrouble?_of_ok h, isParsed_of_ok h]

theorem target_of_fileTrouble? {e : Trouble} (h : fileTrouble? w g p = some e) : e.target = p.toString := by
  rcases hp : parseFile w g p with x | f
  · rw [fileTrouble?_of_error hp] at h
    cases h
    rfl
  · rw [fileTrouble?_of_ok hp] at h
    cases h

theorem fileUnits_of_error {root : String} {e : GrammarError} (h : parseFile w g p = .error e) :
    fileUnits w g root p = [] := by
  rw [fileUnits, h]

theorem fileUnits_of_ok {root : String} {f : SourceFile} {units : List ClassUnit} (h : parseFile w g p = .ok f)
    (hunits : f.units (some root) = .ok units) : fileUnits w g root p = units := by
  rw [fileUnits, h]
  dsimp only
  rw [hunits]

/-! What a scan makes of a file depends only on how it is parsed. -/

variable {w' : Workspace} (h : parseFile w g p = parseFile w' g p)

include h

theorem isParsed_congr : isParsed w g p = isParsed w' g p := by
  rw [isParsed, isParsed, h]

theorem fileTrouble?_congr : fileTrouble? w g p = fileTrouble? w' g p := by
  rw [fileTrouble?, fileTrouble?, h]

theorem fileUnits_congr (root : String) : fileUnits w g root p = fileUnits w' g root p := by
  rw [fileUnits, fileUnits, h]

end File

/-! ## All files -/

@[simp] theorem Reading.units_accept (r : Reading) (f : SourceFile) : (r.accept f).units = r.units := by
  unfold accept
  split_ifs <;> rfl

@[simp] theorem Reading.errors_accept (r : Reading) (f : SourceFile) : (r.accept f).errors = r.errors := by
  unfold accept
  split_ifs <;> rfl

@[simp] theorem Reading.filesScanned_accept (r : Reading) (f : SourceFile) :
    (r.accept f).filesScanned = r.filesScanned + 1 := by
  unfold accept
  split_ifs <;> rfl

/-- The classes of all files that are parsed can be named. -/
def AllNamed (w : Workspace) (g : Grammars) (moduleRoot : String) (ps : List Path) : Prop :=
  ∀ p ∈ ps, ∀ f, parseFile w g p = .ok f → ∃ units, f.units (some moduleRoot) = .ok units

/-- **Reading all files**: every file adds its share. -/
theorem readFiles_all {w : Workspace} {g : Grammars} {root : String} {ps : List Path} (hn : AllNamed w g root ps)
    (r : Reading) :
    ∃ log, readFiles w g false root r ps =
      (⟨r.units ++ ps.flatMap (fileUnits w g root), r.errors ++ ps.filterMap (fileTrouble? w g),
        r.filesScanned + ps.countP (isParsed w g), log⟩, .ok ()) := by
  induction ps generalizing r with
  | nil => exact ⟨r.log, by simp [readFiles]⟩
  | cons p ps ih =>
    have hrest : AllNamed w g root ps := fun q hq => hn q (List.mem_cons_of_mem _ hq)
    rcases hp : parseFile w g p with e | f
    · obtain ⟨log, hread⟩ := ih hrest (r.reject p.toString e)
      refine ⟨log, ?_⟩
      rw [readFiles_cons, hp]
      simp only [Bool.false_eq_true, if_false]
      rw [hread, List.flatMap_cons, fileUnits_of_error hp, List.filterMap_cons, fileTrouble?_of_error hp,
        List.countP_cons, isParsed_of_error hp]
      simp [Reading.reject, Reading.warn]
    · obtain ⟨units, hunits⟩ := hn p List.mem_cons_self f hp
      obtain ⟨log, hread⟩ := ih hrest ((r.accept f).add f units)
      refine ⟨log, ?_⟩
      rw [readFiles_cons_ok hp hunits, hread, List.flatMap_cons, fileUnits_of_ok hp hunits, List.filterMap_cons,
        fileTrouble?_of_ok hp, List.countP_cons, isParsed_of_ok hp]
      simp [Reading.add]
      omega

/-- Reading goes on to the end, or to the first file whose classes cannot be named. -/
theorem readFiles_of_not_allNamed {w : Workspace} {g : Grammars} {root : String} {ps : List Path}
    (hn : ¬ AllNamed w g root ps) (r : Reading) :
    ∃ r' p, readFiles w g false root r ps = (r', .error (.nameless p)) := by
  induction ps generalizing r with
  | nil =>
    refine absurd ?_ hn
    intro p hp
    cases hp
  | cons p ps ih =>
    -- a file that is named, or not parsed, leaves the nameless one among the others
    have hrest : (∀ f, parseFile w g p = .ok f → ∃ units, f.units (some root) = .ok units) → ¬ AllNamed w g root ps :=
      fun hp hall => hn (List.forall_mem_cons.mpr ⟨hp, hall⟩)
    rcases hp : parseFile w g p with e | f
    · rw [readFiles_cons, hp]
      exact ih (hrest fun f hf => by rw [hp] at hf; cases hf) _
    · rcases hunits : f.units (some root) with q | units
      · refine ⟨r.accept f, q, ?_⟩
        rw [readFiles_cons, hp]
        dsimp only
        rw [hunits]
      · rw [readFiles_cons_ok hp hunits]
        refine ih (hrest fun f' hf => ?_) _
        cases hp.symm.trans hf
        exact ⟨units, hunits⟩

/-! ## Policies that decide -/

/-- All patterns of the policy are texts. -/
def Policy.HasTextPatterns (p : Policy) : Prop := ∀ d ∈ p.patterns, ∃ s, d = .scalar s ∧ s.points?.isSome = true

theorem Policy.hasTextPatterns_default : ({} : Policy).HasTextPatterns := by
  intro d hd
  cases hd

theorem Policy.matchesAny_of_texts (name : String) {patterns : List Document}
    (h : ∀ d ∈ patterns, ∃ s, d = .scalar s ∧ s.points?.isSome = true) : ∃ b, matchesAny name patterns = .ok b := by
  induction patterns with
  | nil => exact ⟨false, rfl⟩
  | cons d ds ih =>
    obtain ⟨s, rfl, hs⟩ := h d List.mem_cons_self
    obtain ⟨pattern, hpattern⟩ := Option.isSome_iff_exists.mp hs
    rw [matchesAny, hpattern]
    dsimp only
    split_ifs
    · exact ⟨true, rfl⟩
    · exact ih fun d' hd' => h d' (List.mem_cons_of_mem _ hd')

/-- A policy whose patterns are texts decides about every class. -/
theorem Policy.HasTextPatterns.decides {p : Policy} (h : p.HasTextPatterns) (u : ClassUnit) :
    p.accepts u = .ok (p.takes u) := by
  suffices hdecided : ∃ b, p.accepts u = .ok b by
    obtain ⟨b, hb⟩ := hdecided
    exact accepts_eq_takes hb
  unfold accepts
  split_ifs
  · exact ⟨_, rfl⟩
  · exact ⟨_, rfl⟩
  · obtain ⟨b, hb⟩ := matchesAny_of_texts u.qualifiedName h
    exact ⟨!b, by rw [hb]; rfl⟩

theorem Policy.eq_notText_of_matchesAny {name : String} {patterns : List Document} {e : PolicyError}
    (h : matchesAny name patterns = .error e) : e = .notText := by
  fun_induction matchesAny name patterns with
  | case1 => cases h
  | case2 => cases h
  | case3 s ps pattern hpattern hno ih => exact ih h
  | case4 => exact (Except.error.inj h).symm
  | case5 => exact (Except.error.inj h).symm

/-- A policy that does not decide has met a pattern that is no text. -/
theorem Policy.eq_notText_of_accepts {p : Policy} {u : ClassUnit} {e : PolicyError} (h : p.accepts u = .error e) :
    e = .notText := by
  unfold accepts at h
  split_ifs at h
  rcases hm : matchesAny u.qualifiedName p.patterns with e' | b
  · rw [hm] at h
    cases h
    exact eq_notText_of_matchesAny hm
  · rw [hm] at h
    cases h

/-! ## Settings -/

/-- The settings of a scan when the policy, the number of workers and what to do about failures can be read: the system
must say what the path leads to, and the languages must be readable. -/
theorem ScanSettings.ofConfig_eq {c : Config} {policy : Policy} {failFast : Bool} {workers : Int}
    (hp : Policy.ofSection c.eligibility = .ok policy) (hf : c.failFast = .ok failFast)
    (hw : c.workers = .ok workers) (w : Workspace) (root : Path) :
    ScanSettings.ofConfig w root c =
      match w.refusal? root, c.languages with
      | some r, _ => .error (.refused r)
      | none, .error e => .error (.config e)
      | none, .ok languages => .ok ⟨policy, failFast, workers, languages⟩ := by
  unfold ScanSettings.ofConfig
  rw [hp, hf, hw]
  cases w.refusal? root with
  | some r => rfl
  | none =>
    rcases c.languages with e | languages
    · rfl
    · rfl

/-- Why a scan that goes on after failures has no report, when the rest of its settings can be read: the system does not
say what the path leads to, the languages cannot be read, or the search below the path does not come to its end. -/
inductive Unreadable (w : Workspace) (path : String) (languages : Except ConfigError (List Scalar)) : ScanError → Prop
  | path {r : Refusal} (h : w.refusal? (.ofString path) = some r) : Unreadable w path languages (.refused r)
  | languages {e : ConfigError} (h : languages = .error e) : Unreadable w path languages (.config e)
  | search {ls : List Scalar} {r : Refusal} (hl : languages = .ok ls)
      (h : (discover w (.ofString path) ls).refusal = some r) : Unreadable w path languages (.refused r)

/-- Either the scan fails before it reads a file, or the languages are known. -/
theorem ScanSettings.ofConfig_cases {c : Config} {policy : Policy} {failFast : Bool} {workers : Int}
    (hp : Policy.ofSection c.eligibility = .ok policy) (hf : c.failFast = .ok failFast)
    (hw : c.workers = .ok workers) (w : Workspace) (path : String) :
    (∃ e, Unreadable w path c.languages e ∧ ScanSettings.ofConfig w (.ofString path) c = .error e) ∨
      ∃ ls, c.languages = .ok ls ∧
        ScanSettings.ofConfig w (.ofString path) c = .ok ⟨policy, failFast, workers, ls⟩ := by
  have hs := ScanSettings.ofConfig_eq hp hf hw w (.ofString path)
  rcases hroot : w.refusal? (.ofString path) with _ | r
  · rw [hroot] at hs
    rcases hl : c.languages with e | ls
    · rw [hl] at hs
      exact .inl ⟨_, .languages rfl, hs⟩
    · rw [hl] at hs
      exact .inr ⟨ls, rfl, hs⟩
  · rw [hroot] at hs
    exact .inl ⟨_, .path hroot, hs⟩

/-! ## Scans -/

/-- The files that a scan finds. -/
def foundFiles (w : Workspace) (path : String) (languages : List Scalar) : List Path :=
  sourceFiles w (Path.ofString path) languages

/-- The search of a scan comes to its end. -/
def Searched (w : Workspace) (path : String) (languages : List Scalar) : Prop :=
  (discover w (Path.ofString path) languages).refusal = none

/-- The classes that the files of a scan declare. -/
def declaredUnits (w : Workspace) (g : Grammars) (path : String) (languages : List Scalar) : List ClassUnit :=
  (foundFiles w path languages).flatMap (fileUnits w g (moduleRootOf w (Path.ofString path)).toString)

/-- The same with the parts of each class put together. -/
def foundUnits (w : Workspace) (g : Grammars) (path : String) (languages : List Scalar) : List ClassUnit :=
  (mergePartial (declaredUnits w g path languages)).1

section Scan

variable {w : Workspace} {g : Grammars} {c : Config} {path : String} {s : ScanSettings}

/-- Settings that cannot be read end the scan before it reads a file. -/
theorem scan_of_unreadable {store : Store} {e : ScanError}
    (hs : ScanSettings.ofConfig w (Path.ofString path) c = .error e) {schedule : Schedule} :
    scan schedule w g c path store = (⟨store, []⟩, .error e) := by
  simp only [scan, hs]

/-- What ends the reading ends the scan, and nothing is recorded. -/
theorem scan_of_readFound_error (hs : ScanSettings.ofConfig w (Path.ofString path) c = .ok s) {r : Reading}
    {e : ScanError}
    (h : readFound w g s.failFast (moduleRootOf w (Path.ofString path)).toString
      (discover w (Path.ofString path) s.languages) = (r, .error e)) (schedule : Schedule) (store : Store) :
    scan schedule w g c path store = (⟨store, r.log⟩, .error e) := by
  simp only [scan, hs, h]

theorem allNamed_foundFiles (hw : w.WellFormed) (g : Grammars) (path : String) (languages : List Scalar) :
    AllNamed w g (moduleRootOf w (Path.ofString path)).toString (foundFiles w path languages) := by
  intro p hp f hf
  exact exists_units_of_parseFile hw (Path.isRead_ofString path) hp hf

/-- Reading the files of a scan. -/
theorem exists_readFiles {languages : List Scalar}
    (hn : AllNamed w g (moduleRootOf w (Path.ofString path)).toString (foundFiles w path languages)) :
    ∃ log, readFiles w g false (moduleRootOf w (Path.ofString path)).toString {} (foundFiles w path languages) =
      (⟨declaredUnits w g path languages, (foundFiles w path languages).filterMap (fileTrouble? w g),
        (foundFiles w path languages).countP (isParsed w g), log⟩, .ok ()) := by
  obtain ⟨log, hread⟩ := readFiles_all hn {}
  exact ⟨log, by simpa [declaredUnits] using hread⟩

/-- Reading what a search has found that came to its end. -/
theorem Searched.exists_readFound {languages : List Scalar} (h : Searched w path languages)
    (hn : AllNamed w g (moduleRootOf w (Path.ofString path)).toString (foundFiles w path languages)) :
    ∃ log, readFound w g false (moduleRootOf w (Path.ofString path)).toString
        (discover w (Path.ofString path) languages) =
      (⟨declaredUnits w g path languages, (foundFiles w path languages).filterMap (fileTrouble? w g),
        (foundFiles w path languages).countP (isParsed w g), log⟩, .ok ()) := by
  rw [readFound_of_finished h]
  exact exists_readFiles hn

theorem scannedUnits_eq (hw : w.WellFormed) (hs : ScanSettings.ofConfig w (Path.ofString path) c = .ok s)
    (hf : s.failFast = false) (hsearch : Searched w path s.languages) :
    scannedUnits w g c path = .ok (foundUnits w g path s.languages) := by
  obtain ⟨log, hread⟩ := hsearch.exists_readFound (allNamed_foundFiles hw g path s.languages)
  simp only [scannedUnits, hs, hf, hread]
  rfl

/-- A search that does not come to its end leaves the scan without a report, once it has read what was found. -/
theorem scan_of_refusal (hn : AllNamed w g (moduleRootOf w (Path.ofString path)).toString
      (foundFiles w path s.languages))
    (hs : ScanSettings.ofConfig w (Path.ofString path) c = .ok s) (hf : s.failFast = false) {r : Refusal}
    (hr : (discover w (Path.ofString path) s.languages).refusal = some r) (schedule : Schedule) (store : Store) :
    ∃ log, scan schedule w g c path store = (⟨store, log⟩, .error (.refused r)) := by
  obtain ⟨log, hread⟩ := exists_readFiles hn
  rw [← hf] at hread
  exact ⟨log, scan_of_readFound_error hs (readFound_of_refusal hread hr) schedule store⟩

/-- The report when the verdicts on the classes are counted in some order. -/
def reportOf (w : Workspace) (g : Grammars) (path : String) (s : ScanSettings) (store : Store)
    (vs : List (ClassUnit × Bool)) : Report where
  measures := classMeasures (foundUnits w g path s.languages) store
  filesScanned := (foundFiles w path s.languages).countP (isParsed w g)
  classesFound := (foundUnits w g path s.languages).length
  skipped := (foundUnits w g path s.languages).countP (!s.policy.takes ·)
  errors := (foundFiles w path s.languages).filterMap (fileTrouble? w g) ++
    ((refusedOf vs).map ClassUnit.trouble).mergeSort (keyLe Trouble.target)

/-- There is an error in the report iff a file is not parsed or an eligible class is not recorded. -/
theorem errors_reportOf_eq_nil_iff {after : Store} {vs : List (ClassUnit × Bool)} :
    (reportOf w g path s after vs).errors = [] ↔
      (∀ p ∈ foundFiles w path s.languages, isParsed w g p = true) ∧ refusedOf vs = [] := by
  simp only [reportOf, List.append_eq_nil_iff, List.filterMap_eq_nil_iff, fileTrouble?_eq_none_iff]
  refine and_congr_right fun _ => ?_
  rw [← List.length_eq_zero_iff, List.length_mergeSort, List.length_map, List.length_eq_zero_iff]

/-- A scan whose classes are collected. -/
theorem scan_of_collect
    (hn : AllNamed w g (moduleRootOf w (Path.ofString path)).toString (foundFiles w path s.languages))
    (hs : ScanSettings.ofConfig w (Path.ofString path) c = .ok s) (hf : s.failFast = false)
    (hsearch : Searched w path s.languages) {schedule : Schedule} {store after : Store} {vs : List (ClassUnit × Bool)}
    (hcollect : ∃ log, collect schedule s.collector store (foundUnits w g path s.languages) =
      (⟨after, log⟩, .ok (.of vs ((foundUnits w g path s.languages).countP (!s.policy.takes ·))))) :
    ∃ log, scan schedule w g c path store = (⟨after, log⟩, .ok (reportOf w g path s after vs)) := by
  obtain ⟨log, hread⟩ := hsearch.exists_readFound hn
  obtain ⟨log', hcollect⟩ := hcollect
  rw [ScanSettings.collector, foundUnits] at hcollect
  unfold scan
  simp only [hs, hf, hread, measureAll]
  rw [hf] at hcollect
  simp only [hcollect]
  exact ⟨_, rfl⟩

/-- **A scan that goes on after failures**, with a policy that decides about every class: there is a report, and the
eligible classes are measured in some order and counted in some order. -/
theorem scan_goes_on (hw : w.WellFormed) (hs : ScanSettings.ofConfig w (Path.ofString path) c = .ok s)
    (hf : s.failFast = false) (hsearch : Searched w path s.languages) (hp : s.policy.HasTextPatterns)
    (schedule : Schedule) {store : Store} (hstore : store.Reachable) :
    ∃ us vs log, us.Perm ((foundUnits w g path s.languages).filter s.policy.takes) ∧
      vs.Perm (verdicts store.contains us) ∧
      scan schedule w g c path store = (⟨store.run us, log⟩, .ok (reportOf w g path s (store.run us) vs)) := by
  obtain ⟨us, vs, log, hus, hvs, hcollect⟩ :=
    collect_any_order (c := s.collector) (fun u _ => hp.decides u) rfl hf schedule hstore
  obtain ⟨log', hscan⟩ := scan_of_collect (allNamed_foundFiles hw g path s.languages) hs hf hsearch ⟨log, hcollect⟩
  exact ⟨us, vs, log', hus, hvs, hscan⟩

/-- The report of one worker, who measures and counts the classes in their order. -/
abbrev oneWorkerReport (w : Workspace) (g : Grammars) (path : String) (s : ScanSettings) (store : Store) : Report :=
  let kept := (foundUnits w g path s.languages).filter s.policy.takes
  reportOf w g path s (store.run kept) (verdicts store.contains kept)

/-- **One worker** who goes on after failures, when the policy decides about every class found. -/
theorem scan_of_decided
    (hn : AllNamed w g (moduleRootOf w (Path.ofString path)).toString (foundFiles w path s.languages))
    (hs : ScanSettings.ofConfig w (Path.ofString path) c = .ok s) (hf : s.failFast = false)
    (hsearch : Searched w path s.languages) (hone : s.workers = 1)
    (hdecided : ∀ u ∈ foundUnits w g path s.languages, s.policy.accepts u = .ok (s.policy.takes u))
    (schedule : Schedule) {store : Store} (hstore : store.Reachable) :
    ∃ log, scan schedule w g c path store =
      (⟨store.run ((foundUnits w g path s.languages).filter s.policy.takes), log⟩,
        .ok (oneWorkerReport w g path s store)) := by
  refine scan_of_collect hn hs hf hsearch ?_
  refine collect_one_worker (c := s.collector) hdecided rfl hf ?_ schedule hstore
  rintro ⟨-, hmany⟩
  rw [show s.collector.workers = s.workers from rfl, hone] at hmany
  exact Int.lt_irrefl 1 hmany

theorem scan_one_worker (hw : w.WellFormed) (hs : ScanSettings.ofConfig w (Path.ofString path) c = .ok s)
    (hf : s.failFast = false) (hsearch : Searched w path s.languages) (hone : s.workers = 1)
    (hp : s.policy.HasTextPatterns) (schedule : Schedule) {store : Store} (hstore : store.Reachable) :
    ∃ log, scan schedule w g c path store =
      (⟨store.run ((foundUnits w g path s.languages).filter s.policy.takes), log⟩,
        .ok (oneWorkerReport w g path s store)) :=
  scan_of_decided (allNamed_foundFiles hw g path s.languages) hs hf hsearch hone (fun u _ => hp.decides u) schedule
    hstore

/-- Why one worker who goes on after failures has no report: the settings or the path cannot be used, a file of a table
that is no file tree has no module name, the search does not come to its end, or the policy has a pattern that is no
text and has to look at it. -/
inductive Stopped (w : Workspace) (g : Grammars) (c : Config) (path : String) : ScanError → Prop
  | settings {e : ScanError} (h : ScanSettings.ofConfig w (.ofString path) c = .error e) : Stopped w g c path e
  | nameless {p : Path} (h : ¬ w.WellFormed) : Stopped w g c path (.nameless p)
  | search {s : ScanSettings} {r : Refusal} (hs : ScanSettings.ofConfig w (.ofString path) c = .ok s)
      (h : (discover w (.ofString path) s.languages).refusal = some r) : Stopped w g c path (.refused r)
  | undecided {s : ScanSettings} {u : ClassUnit} {e : PolicyError}
      (hs : ScanSettings.ofConfig w (.ofString path) c = .ok s) (hu : u ∈ foundUnits w g path s.languages)
      (h : s.policy.accepts u = .error e) : Stopped w g c path (.measuring (.policy e))

/-- **Any workspace, policy and store**: whether there is a report does not depend on the store, and a scan without a
report leaves the store as it is. -/
theorem stopped_or_report (w : Workspace) (g : Grammars) {c : Config} (path : String) (hgo : c.failFast = .ok false)
    (hone : c.workers = .ok 1) :
    (∃ e, Stopped w g c path e ∧
      ∀ schedule store, ∃ log, scan schedule w g c path store = (⟨store, log⟩, .error e)) ∨
      ∃ s, ScanSettings.ofConfig w (.ofString path) c = .ok s ∧
        (∀ u ∈ foundUnits w g path s.languages, s.policy.accepts u = .ok (s.policy.takes u)) ∧
        ∀ schedule store, store.Reachable → ∃ log, scan schedule w g c path store =
          (⟨store.run ((foundUnits w g path s.languages).filter s.policy.takes), log⟩,
            .ok (oneWorkerReport w g path s store)) := by
  rcases hs : ScanSettings.ofConfig w (.ofString path) c with e | s
  · exact .inl ⟨e, .settings hs, fun _ _ => ⟨[], scan_of_unreadable hs⟩⟩
  obtain ⟨-, hfast, hworkers, -, -⟩ := ScanSettings.of_ofConfig hs
  have hf : s.failFast = false := Except.ok.inj (hfast.symm.trans hgo)
  have hw1 : s.workers = 1 := Except.ok.inj (hworkers.symm.trans hone)
  by_cases hn : AllNamed w g (moduleRootOf w (Path.ofString path)).toString (foundFiles w path s.languages)
  swap
  · obtain ⟨r, p, hread⟩ := readFiles_of_not_allNamed hn {}
    have hno : ¬ w.WellFormed := fun hw => hn (allNamed_foundFiles hw g path s.languages)
    rw [← hf] at hread
    exact .inl ⟨.nameless p, .nameless hno,
      fun schedule store => ⟨r.log, scan_of_readFound_error hs (readFound_of_error hread) schedule store⟩⟩
  rcases hsearch : (discover w (.ofString path) s.languages).refusal with _ | r
  swap
  · exact .inl ⟨.refused r, .search hs hsearch, scan_of_refusal hn hs hf hsearch⟩
  by_cases hdecided : ∀ u ∈ foundUnits w g path s.languages, ∃ b, s.policy.accepts u = .ok b
  · have htakes : ∀ u ∈ foundUnits w g path s.languages, s.policy.accepts u = .ok (s.policy.takes u) := by
      intro u hu
      obtain ⟨b, hb⟩ := hdecided u hu
      exact Policy.accepts_eq_takes hb
    exact .inr ⟨s, rfl, htakes, fun schedule store hstore => scan_of_decided hn hs hf hsearch hw1 htakes schedule hstore⟩
  · obtain ⟨u, e, log, hu, he, hsift⟩ := sift_undecided hdecided [] [] 0
    obtain ⟨log', hread⟩ := Searched.exists_readFound hsearch hn
    rw [foundUnits] at hsift
    refine .inl ⟨_, .undecided hs hu he, fun _ _ => ?_⟩
    simp only [scan, hs, hf, hread, measureAll, collect]
    rw [show eligible (some s.policy) = s.policy.accepts from rfl, hsift]
    exact ⟨_, rfl⟩

end Scan

/-! ## The example workspace -/

namespace Shadowed

theorem wellFormed_workspace : workspace.WellFormed := by decide +kernel

theorem searched_workspace : Searched workspace "." settings.languages := by
  rw [Searched, discover_here]

/-- The classes of the two files. -/
theorem exists_foundUnits : ∃ u v, foundUnits workspace grammars "." settings.languages = [u, v] ∧
    IsA "test/A.java" false 0 u ∧ IsA "z/A.java" true 1 v := by
  obtain ⟨-, -, u, v, -, hunits, hu, hv⟩ := exists_report
  rw [scannedUnits_eq wellFormed_workspace ofConfig_default rfl searched_workspace] at hunits
  exact ⟨u, v, Except.ok.inj hunits, hu, hv⟩

end Shadowed

end HandlerComplexity
