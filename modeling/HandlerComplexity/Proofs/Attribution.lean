import HandlerComplexity.Proofs.FirstWins
import HandlerComplexity.Proofs.Scan

/-!
# Where the measures of a report come from

The value of a measure is the score of the first eligible unit of its name that has one (`winner`), but its path and
language are those of the first unit of that name at all (`originOf`), eligible or not. A class that is left out, or
that has no score, can so lend its file to the measure of a class of the same name in another file.

* `mem_classMeasures_run`: the measures of a store filled from the units.
* `scan_measures_from_origin_and_winner`: the measures of a scan, and when the file of one is right.
* `scan_names_file_of_excluded_class`: a scan whose only measure has the file of a class that is left out.
-/

namespace HandlerComplexity

/-- Whether the policy decides for a class. -/
def Policy.takes (p : Policy) (u : ClassUnit) : Bool := decide (p.accepts u = .ok true)

/-- The unit whose file is given for a name: the first one. -/
def originOf (units : List ClassUnit) (name : String) : Option ClassUnit := units.find? (·.qualifiedName = name)

/-- A measure has the name, the file and the language of an eligible class, and the score of that class for its
value. -/
def Attributed (policy : Policy) (units : List ClassUnit) (m : ClassMeasure) : Prop :=
  ∃ u ∈ units, policy.accepts u = .ok true ∧ u.qualifiedName = m.name ∧ u.path = m.path ∧ u.language = m.language ∧
    ∃ n, u.score = .ok n ∧ m.measure = ⟨.hcc, .ofScore n⟩

theorem Policy.accepts_eq_takes {p : Policy} {u : ClassUnit} {b : Bool} (h : p.accepts u = .ok b) :
    p.accepts u = .ok (p.takes u) := by
  rw [takes, h]
  cases b <;> rfl

/-! ## Origins and winners -/

theorem of_winner {accepts : ClassUnit → Bool} {units : List ClassUnit} {name : String} {r : ClassUnit}
    (h : winner accepts units name = some r) :
    r ∈ units ∧ accepts r = true ∧ r.qualifiedName = name ∧ ∃ n, r.score = .ok n := by
  have hr := List.find?_some h
  simp only [Bool.and_eq_true, decide_eq_true_eq, ClassUnit.isScored_iff] at hr
  exact ⟨List.mem_of_find?_eq_some h, hr⟩

theorem of_originOf {units : List ClassUnit} {name : String} {o : ClassUnit} (h : originOf units name = some o) :
    o ∈ units ∧ o.qualifiedName = name := by
  have ho := List.find?_some h
  exact ⟨List.mem_of_find?_eq_some h, of_decide_eq_true ho⟩

theorem exists_winner_iff {accepts : ClassUnit → Bool} {units : List ClassUnit} {name : String} :
    (∃ r, winner accepts units name = some r) ↔
      ∃ u ∈ units, accepts u = true ∧ u.qualifiedName = name ∧ ∃ n, u.score = .ok n := by
  rw [← Option.isSome_iff_exists, winner, List.find?_isSome]
  simp only [Bool.and_eq_true, decide_eq_true_eq, ClassUnit.isScored_iff]

/-- A name with a winner has an origin. -/
theorem exists_originOf {accepts : ClassUnit → Bool} {units : List ClassUnit} {name : String} {r : ClassUnit}
    (h : winner accepts units name = some r) : ∃ o, originOf units name = some o := by
  obtain ⟨hmem, -, hname, -⟩ := of_winner h
  refine Option.isSome_iff_exists.mp ?_
  rw [originOf, List.find?_isSome]
  exact ⟨r, hmem, by simpa using hname⟩

/-- The first unit of a name is the winner if it can be. -/
theorem winner_of_originOf {accepts : ClassUnit → Bool} {units : List ClassUnit} {name : String} {o : ClassUnit}
    (h : originOf units name = some o) (ha : accepts o = true) (hs : o.isScored = true) :
    winner accepts units name = some o := by
  obtain ⟨hname, before, behind, rfl, hbefore⟩ := List.find?_eq_some_iff_append.mp h
  refine List.find?_eq_some_iff_append.mpr ⟨by simp_all, before, behind, rfl, ?_⟩
  intro u hu
  have hne := hbefore u hu
  simp_all

/-! ## The measures of a store -/

/-- The winner of a name is the unit of that name that is recorded in an empty store. -/
theorem winner_eq_some_iff {accepts : ClassUnit → Bool} {units : List ClassUnit} {name : String} {r : ClassUnit} :
    winner accepts units name = some r ↔
      r ∈ recordedOf (verdicts Store.empty.contains (units.filter accepts)) ∧ r.qualifiedName = name := by
  have hrecorded : partsOf (recordedOf (verdicts Store.empty.contains (units.filter accepts))) name =
      (winner accepts units name).toList := by
    rw [recordedOf_named, winner_eq]
    rfl
  rw [← Option.mem_toList, ← hrecorded, partsOf, List.mem_filter, decide_eq_true_eq]

/-- The items of a store that was filled from the units: the measure of the winner of each name. -/
theorem mem_items_run {accepts : ClassUnit → Bool} {units : List ClassUnit} {name : String} {ms : List Measure} :
    (name, ms) ∈ (Store.empty.run (units.filter accepts)).items ↔
      ∃ r, winner accepts units name = some r ∧ ms = [r.measure] := by
  rw [Store.items, List.mem_mergeSort, Store.run, Store.extendBy, Store.empty, List.nil_append, List.mem_map]
  constructor
  · rintro ⟨r, hr, heq⟩
    obtain ⟨hname, hms⟩ := Prod.mk.inj heq
    exact ⟨r, winner_eq_some_iff.mpr ⟨hr, hname⟩, hms.symm⟩
  · rintro ⟨r, hwin, rfl⟩
    obtain ⟨hr, rfl⟩ := winner_eq_some_iff.mp hwin
    exact ⟨r, hr, rfl⟩

/-- **The measures of a store filled from the units**: the value is that of the winner, the file that of the origin. -/
theorem mem_classMeasures_run {accepts : ClassUnit → Bool} {units : List ClassUnit} {m : ClassMeasure} :
    m ∈ classMeasures units (Store.empty.run (units.filter accepts)) ↔
      ∃ o r, originOf units m.name = some o ∧ winner accepts units m.name = some r ∧
        m = ⟨m.name, o.path, o.language, r.measure⟩ := by
  rw [classMeasures, List.mem_flatMap]
  constructor
  · rintro ⟨⟨name, ms⟩, hitem, hm⟩
    obtain ⟨r, hwin, rfl⟩ := mem_items_run.mp hitem
    obtain ⟨o, ho⟩ := exists_originOf hwin
    have hfind : units.find? (·.qualifiedName = name) = some o := ho
    simp only [List.map_cons, List.map_nil, List.mem_singleton, hfind] at hm
    subst hm
    exact ⟨o, r, ho, hwin, rfl⟩
  · rintro ⟨o, r, ho, hwin, hm⟩
    refine ⟨(m.name, [r.measure]), mem_items_run.mpr ⟨r, hwin, rfl⟩, ?_⟩
    have hfind : units.find? (·.qualifiedName = m.name) = some o := ho
    simp only [List.map_cons, List.map_nil, List.mem_singleton, hfind]
    exact hm

/-- A measure is attributed to a class iff the file of its origin has an eligible class of its name and value. -/
theorem attributed_iff {policy : Policy} {units : List ClassUnit} {m : ClassMeasure} {o r : ClassUnit}
    (hm : m = ⟨m.name, o.path, o.language, r.measure⟩) :
    Attributed policy units m ↔
      ∃ u ∈ units, policy.accepts u = .ok true ∧ u.qualifiedName = m.name ∧ u.path = o.path ∧
        u.language = o.language ∧ u.isScored = true ∧ u.measure = r.measure := by
  have hpath : m.path = o.path := by rw [hm]
  have hlanguage : m.language = o.language := by rw [hm]
  have hmeasure : m.measure = r.measure := by rw [hm]
  rw [Attributed, hpath, hlanguage, hmeasure]
  refine exists_congr fun u => and_congr_right fun _ => and_congr_right fun _ => and_congr_right fun _ =>
    and_congr_right fun _ => and_congr_right fun _ => ?_
  rw [ClassUnit.isScored_iff]
  constructor
  · rintro ⟨n, hn, hr⟩
    exact ⟨⟨n, hn⟩, by rw [ClassUnit.measure_of_score hn, hr]⟩
  · rintro ⟨⟨n, hn⟩, hr⟩
    exact ⟨n, hn, by rw [← hr, ClassUnit.measure_of_score hn]⟩

/-! ## A class that is left out lends its file

Two files declare a class `A`. The one in the test directory is left out, the other one has a handler and is measured.
-/

namespace Shadowed

def program (c : Cst) : Cst := ⟨"program", 0, c.stop, 0, true, none, [c]⟩

def plainBytes : List UInt8 := "class A {}".toUTF8.toList

def plainClass : Cst :=
  .ofRows [⟨0, "class_declaration", 0, 10, 0, true, none⟩, ⟨1, "identifier", 6, 7, 0, true, some "name"⟩,
    ⟨1, "class_body", 8, 10, 0, true, some "body"⟩]

def catchBytes : List UInt8 := "class A { void f() { try { } catch (E e) { } } }".toUTF8.toList

def catchClass : Cst :=
  .ofRows [⟨0, "class_declaration", 0, 48, 0, true, none⟩, ⟨1, "identifier", 6, 7, 0, true, some "name"⟩,
    ⟨1, "class_body", 8, 48, 0, true, some "body"⟩, ⟨2, "method_declaration", 10, 46, 0, true, none⟩,
    ⟨3, "block", 19, 46, 0, true, some "body"⟩, ⟨4, "try_statement", 21, 44, 0, true, none⟩,
    ⟨5, "block", 25, 28, 0, true, some "body"⟩, ⟨5, "catch_clause", 29, 44, 0, true, none⟩,
    ⟨6, "block", 41, 44, 0, true, some "body"⟩]

def workspace : Workspace := { files := [(["test", "A.java"], plainBytes), (["z", "A.java"], catchBytes)] }

def treeOf (bytes : List UInt8) : Cst := program (if bytes = plainBytes then plainClass else catchClass)

def grammars : Grammars := .installed (fun _ => none) fun _ bytes => ⟨treeOf bytes, false⟩

def source (path : String) (bytes : List UInt8) : SourceFile := ⟨path, .java, bytes, treeOf bytes, false⟩

def testFile : Path := ⟨"", ["test", "A.java"]⟩

def otherFile : Path := ⟨"", ["z", "A.java"]⟩

def settings : ScanSettings :=
  ⟨{}, false, 1, ["java", "csharp", "javascript", "typescript", "python"].map .text⟩

theorem locate_here : workspace.locate (Path.ofString ".") = .ok (.inside []) := by
  rw [Workspace.locate, String.contains_char_eq]
  decide

theorem refusal?_here : workspace.refusal? (Path.ofString ".") = none := by
  rw [Workspace.refusal?, locate_here]

theorem ofConfig_default : ScanSettings.ofConfig workspace (Path.ofString ".") .default = .ok settings := by
  rw [ScanSettings.ofConfig, refusal?_here]
  rfl

theorem moduleRootOf_here : (moduleRootOf workspace (Path.ofString ".")).toString = "." := by
  rw [moduleRootOf, Workspace.entry?, locate_here]
  decide

theorem discover_here : discover workspace (Path.ofString ".") settings.languages = ⟨[testFile, otherFile], none⟩ := by
  have hlisted : workspace.entriesBelow [] = [["test"], ["test", "A.java"], ["z"], ["z", "A.java"]] := by
    decide
  have hentries : (workspace.entriesBelow []).mergeSort placeLe = workspace.entriesBelow [] := by
    rw [hlisted]
    exact List.mergeSort_of_pairwise (by decide)
  have hsearch : discover workspace (Path.ofString ".") settings.languages =
      searchDirectory workspace (Path.ofString ".") [] settings.languages := by
    rw [discover, refusal?_here, locate_here]
    rfl
  rw [hsearch, searchDirectory, hentries, hlisted]
  decide

theorem sourceFiles_here : sourceFiles workspace (Path.ofString ".") settings.languages = [testFile, otherFile] := by
  rw [sourceFiles, discover_here]

theorem parse_file {p : Path} {path : String} {place : Place} {bytes : List UInt8} (hpath : p.toString = path)
    (hlanguage : Language.ofPath? path = some .java) (hplace : workspace.locate p = .ok (.inside place))
    (hfile : workspace.file? place = some bytes) : parseFile workspace grammars p = .ok (source path bytes) := by
  have hjava : Language.ofName? Language.java.name = some .java := by decide
  rw [parseFile, Workspace.read_of_locate hplace rfl hfile]
  dsimp only
  rw [hpath, hlanguage, Option.map_some, Option.getD_some, SourceFile.parse, hjava]
  rfl

theorem parse_testFile : parseFile workspace grammars testFile = .ok (source "test/A.java" plainBytes) := by
  have hplace : workspace.locate testFile = .ok (.inside ["test", "A.java"]) := by
    rw [Workspace.locate, String.contains_char_eq]
    decide
  exact parse_file (by decide) (by decide) hplace rfl

theorem parse_otherFile : parseFile workspace grammars otherFile = .ok (source "z/A.java" catchBytes) := by
  have hplace : workspace.locate otherFile = .ok (.inside ["z", "A.java"]) := by
    rw [Workspace.locate, String.contains_char_eq]
    decide
  exact parse_file (by decide) (by decide) hplace rfl

/-- A class `A` in a file, eligible or not, with a score. -/
def IsA (path : String) (isEligible : Bool) (score : Nat) (u : ClassUnit) : Prop :=
  (u.qualifiedName = "A" ∧ u.path = path ∧ u.language = "java" ∧ u.isPartial = false) ∧
    settings.policy.accepts u = .ok isEligible ∧ u.score = .ok score

instance (path : String) (isEligible : Bool) (score : Nat) : DecidablePred (IsA path isEligible score) :=
  fun _ => inferInstanceAs (Decidable (_ ∧ _))

theorem exists_unit {P : ClassUnit → Prop} [DecidablePred P] {x : Except Path (List ClassUnit)}
    (h : x.toOption.map (·.map fun u => decide (P u)) = some [true]) : ∃ u, x = .ok [u] ∧ P u := by
  rcases x with e | us
  · cases h
  · obtain ⟨u, rfl, hu⟩ := List.map_eq_singleton_iff.mp (Option.some.inj h)
    exact ⟨u, rfl, of_decide_eq_true hu⟩

/-- The scan reads the class that is left out, then the one that is measured. -/
theorem exists_readFiles : ∃ r u v,
    readFiles workspace grammars false "." {} [testFile, otherFile] = (r, .ok ()) ∧ r.units = [u, v] ∧
      IsA "test/A.java" false 0 u ∧ IsA "z/A.java" true 1 v := by
  obtain ⟨u, hu, huA⟩ : ∃ u, (source "test/A.java" plainBytes).units (some ".") = .ok [u] ∧
      IsA "test/A.java" false 0 u :=
    exists_unit (by decide +kernel)
  obtain ⟨v, hv, hvA⟩ : ∃ v, (source "z/A.java" catchBytes).units (some ".") = .ok [v] ∧
      IsA "z/A.java" true 1 v :=
    exists_unit (by decide +kernel)
  have hread := readFiles_cons_ok parse_testFile hu false {} [otherFile]
  rw [readFiles_cons_ok parse_otherFile hv] at hread
  exact ⟨_, u, v, hread, rfl, huA, hvA⟩

/-- The scan has a report, and these are the classes it measures. -/
theorem exists_report : ∃ p report u v,
    scan .inOrder workspace grammars .default "." .empty = (p, .ok report) ∧
      scannedUnits workspace grammars .default "." = .ok [u, v] ∧
      IsA "test/A.java" false 0 u ∧ IsA "z/A.java" true 1 v := by
  obtain ⟨r, u, v, hread, hunits, hu, hv⟩ := exists_readFiles
  have hfound : readFound workspace grammars settings.failFast (moduleRootOf workspace (Path.ofString ".")).toString
      (discover workspace (Path.ofString ".") settings.languages) = (r, .ok ()) := by
    rw [discover_here, moduleRootOf_here]
    exact (readFound_of_finished rfl _ _ _ _).trans hread
  have hmerged : (mergePartial r.units).1 = [u, v] := by
    rw [hunits]
    simp [mergePartial, mergeFrom, areParts, partsOf, hu.1, hv.1]
  have hdecided : ∀ x ∈ [u, v], settings.collector.eligibility x = .ok (settings.policy.takes x) := by
    intro x hx
    rcases List.mem_pair.mp hx with rfl | rfl
    · exact Policy.accepts_eq_takes hu.2.1
    · exact Policy.accepts_eq_takes hv.2.1
  obtain ⟨log, hcollect⟩ := collect_one_worker hdecided rfl rfl (fun h => Int.lt_irrefl 1 h.2) .inOrder
    Store.Reachable.empty
  rw [← hmerged] at hcollect
  obtain ⟨p, report, hscan⟩ := exists_scan ofConfig_default hfound hcollect
  refine ⟨p, report, u, v, hscan, ?_, hu, hv⟩
  simp only [scannedUnits, ofConfig_default, hfound, hmerged]

theorem originOf_units {u v : ClassUnit} (hu : IsA "test/A.java" false 0 u) : originOf [u, v] "A" = some u := by
  simp [originOf, hu.1]

theorem winner_units {u v : ClassUnit} (hu : IsA "test/A.java" false 0 u) (hv : IsA "z/A.java" true 1 v) :
    winner settings.policy.takes [u, v] "A" = some v := by
  have hrejected : settings.policy.takes u = false := by simp [Policy.takes, hu.2.1]
  have htaken : settings.policy.takes v = true := by simp [Policy.takes, hv.2.1]
  have hscored : v.isScored = true := ClassUnit.isScored_iff.mpr ⟨1, hv.2.2⟩
  simp [winner, hrejected, htaken, hscored, hv.1]

end Shadowed

/-! ## Scans -/

/-- The measures of a scan into an empty store, with one worker that does not stop at failures. -/
theorem measures_of_scan {schedule : Schedule} {w : Workspace} {g : Grammars} {c : Config} {path : String}
    {p : Progress} {report : Report} (hf : c.failFast = .ok false) (hw : c.workers = .ok 1)
    (h : scan schedule w g c path .empty = (p, .ok report)) :
    ∃ policy units, Policy.ofSection c.eligibility = .ok policy ∧ scannedUnits w g c path = .ok units ∧
      report.measures = classMeasures units (Store.empty.run (units.filter policy.takes)) := by
  obtain ⟨s, units, q, a, hs, hunits, hcollect, -, hmeasures⟩ := exists_of_scan h
  obtain ⟨hpolicy, hfail, hworkers, -, -⟩ := ScanSettings.of_ofConfig hs
  have hfail : s.failFast = false := by
    rw [hf] at hfail
    exact (Except.ok.inj hfail).symm
  have hworkers : s.workers = 1 := by
    rw [hw] at hworkers
    exact (Except.ok.inj hworkers).symm
  -- the collection has a result, so the policy decides about every unit
  have hdecided : ∀ u ∈ units, s.collector.eligibility u = .ok (s.policy.takes u) := by
    intro u hu
    obtain ⟨b, hb⟩ := decided_of_collect hcollect u hu
    exact Policy.accepts_eq_takes hb
  have hone : ¬ (1 < (units.filter s.policy.takes).length ∧ 1 < s.collector.workers) := by
    rintro ⟨-, hmany⟩
    rw [show s.collector.workers = s.workers from rfl, hworkers] at hmany
    exact Int.lt_irrefl 1 hmany
  obtain ⟨log, hrun⟩ := collect_one_worker hdecided rfl hfail hone schedule Store.Reachable.empty
  have hstore : q.store = Store.empty.run (units.filter s.policy.takes) := by
    rw [hrun] at hcollect
    rw [← (Prod.mk.inj hcollect).1]
  exact ⟨s.policy, units, hpolicy, hunits, by rw [hmeasures, hstore]⟩

/-- **The measures of a scan** into an empty store, with one worker that does not stop at failures. There is one for
each name of an eligible class with a score, with the score of the first such class and the file of the first class of
that name. So a measure is attributed to a class iff that file has an eligible class of its name and value, and it is
when the first class of the name is eligible and has a score. -/
theorem scan_measures_from_origin_and_winner {schedule : Schedule} {w : Workspace} {g : Grammars} {c : Config}
    {path : String} {p : Progress} {report : Report} (hf : c.failFast = .ok false) (hw : c.workers = .ok 1)
    (h : scan schedule w g c path .empty = (p, .ok report)) :
    ∃ policy units, Policy.ofSection c.eligibility = .ok policy ∧ scannedUnits w g c path = .ok units ∧
      (∀ name, (∃ m ∈ report.measures, m.name = name) ↔
        ∃ u ∈ units, policy.accepts u = .ok true ∧ u.qualifiedName = name ∧ ∃ n, u.score = .ok n) ∧
      ∀ m ∈ report.measures, ∃ o r n, originOf units m.name = some o ∧
        winner policy.takes units m.name = some r ∧ r.score = .ok n ∧
        m = ⟨m.name, o.path, o.language, ⟨.hcc, .ofScore n⟩⟩ ∧
        (Attributed policy units m ↔
          ∃ u ∈ units, policy.accepts u = .ok true ∧ u.qualifiedName = m.name ∧ u.path = o.path ∧
            u.language = o.language ∧ u.isScored = true ∧ u.measure = r.measure) ∧
        (policy.accepts o = .ok true → o.isScored = true → Attributed policy units m) := by
  obtain ⟨policy, units, hpolicy, hunits, hmeasures⟩ := measures_of_scan hf hw h
  refine ⟨policy, units, hpolicy, hunits, ?_, ?_⟩
  · intro name
    have hwinner : (∃ r, winner policy.takes units name = some r) ↔
        ∃ u ∈ units, policy.accepts u = .ok true ∧ u.qualifiedName = name ∧ ∃ n, u.score = .ok n := by
      rw [exists_winner_iff]
      simp only [Policy.takes, decide_eq_true_eq]
    rw [← hwinner, hmeasures]
    constructor
    · rintro ⟨m, hm, rfl⟩
      obtain ⟨o, r, -, hwin, -⟩ := mem_classMeasures_run.mp hm
      exact ⟨r, hwin⟩
    · rintro ⟨r, hwin⟩
      obtain ⟨o, ho⟩ := exists_originOf hwin
      exact ⟨⟨name, o.path, o.language, r.measure⟩, mem_classMeasures_run.mpr ⟨o, r, ho, hwin, rfl⟩, rfl⟩
  · intro m hm
    rw [hmeasures] at hm
    obtain ⟨o, r, ho, hwin, hm⟩ := mem_classMeasures_run.mp hm
    obtain ⟨-, -, -, n, hn⟩ := of_winner hwin
    refine ⟨o, r, n, ho, hwin, hn, ?_, attributed_iff hm, ?_⟩
    · rw [← ClassUnit.measure_of_score hn]
      exact hm
    · intro ha hs
      have hsame : o = r := by
        have hown : winner policy.takes units m.name = some o := winner_of_originOf ho (decide_eq_true ha) hs
        exact Option.some.inj (hown.symm.trans hwin)
      subst hsame
      obtain ⟨hmem, hname⟩ := of_originOf ho
      exact (attributed_iff hm).mpr ⟨o, hmem, ha, hname, rfl, rfl, hs, rfl⟩

/-- The first class of a name is left out, and the measure of the other one has its file. -/
theorem shadowed_measure_from_origin_and_winner :
    Config.default.failFast = .ok false ∧ Config.default.workers = .ok 1 ∧ ∃ p report,
      scan .inOrder Shadowed.workspace Shadowed.grammars .default "." .empty = (p, .ok report) ∧
      ⟨"A", "test/A.java", "java", ⟨.hcc, .ofScore 1⟩⟩ ∈ report.measures := by
  obtain ⟨p, report, u, v, hscan, hunits, hu, hv⟩ := Shadowed.exists_report
  refine ⟨rfl, rfl, p, report, hscan, ?_⟩
  obtain ⟨policy, units, hpolicy, hunits', hnames, hmeasures⟩ := scan_measures_from_origin_and_winner rfl rfl hscan
  obtain rfl : Shadowed.settings.policy = policy := Except.ok.inj hpolicy
  obtain rfl : [u, v] = units := Except.ok.inj (hunits.symm.trans hunits')
  obtain ⟨m, hm, hname⟩ := (hnames "A").mpr ⟨v, by simp, hv.2.1, hv.1.1, 1, hv.2.2⟩
  obtain ⟨o, r, n, ho, hwin, hn, heq, -⟩ := hmeasures m hm
  rw [hname] at ho hwin heq
  obtain rfl : u = o := Option.some.inj ((Shadowed.originOf_units hu).symm.trans ho)
  obtain rfl : v = r := Option.some.inj ((Shadowed.winner_units hu hv).symm.trans hwin)
  obtain rfl : 1 = n := Except.ok.inj (hv.2.2.symm.trans hn)
  rw [hu.1.2.1, hu.1.2.2.1] at heq
  rwa [← heq]

/-- **A measure in the wrong file**: no eligible class lies in the file that the report names. -/
theorem scan_names_file_of_excluded_class :
    ∃ p report policy units, Config.default.failFast = .ok false ∧ Config.default.workers = .ok 1 ∧
      scan .inOrder Shadowed.workspace Shadowed.grammars .default "." .empty = (p, .ok report) ∧
      Policy.ofSection Config.default.eligibility = .ok policy ∧
      scannedUnits Shadowed.workspace Shadowed.grammars .default "." = .ok units ∧
      ∃ m ∈ report.measures, ¬ Attributed policy units m := by
  obtain ⟨p, report, u, v, hscan, hunits, hu, hv⟩ := Shadowed.exists_report
  obtain ⟨policy, units, hpolicy, hunits', hmeasures⟩ := measures_of_scan rfl rfl hscan
  obtain rfl : Shadowed.settings.policy = policy := Except.ok.inj hpolicy
  obtain rfl : [u, v] = units := Except.ok.inj (hunits.symm.trans hunits')
  refine ⟨p, report, Shadowed.settings.policy, [u, v], rfl, rfl, hscan, hpolicy, hunits,
    ⟨"A", u.path, u.language, v.measure⟩, ?_, ?_⟩
  · rw [hmeasures]
    exact mem_classMeasures_run.mpr ⟨u, v, Shadowed.originOf_units hu, Shadowed.winner_units hu hv, rfl⟩
  · rintro ⟨x, hx, haccepts, -, hpath, -⟩
    rcases List.mem_pair.mp hx with rfl | rfl
    · rw [hu.2.1] at haccepts
      cases haccepts
    · have hfile : x.path = u.path := hpath
      rw [hv.1.2.1, hu.1.2.1] at hfile
      exact absurd hfile (by decide)

end HandlerComplexity
