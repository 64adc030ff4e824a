import HandlerComplexity.Proofs.Relocation
import HandlerComplexity.Proofs.Union

/-!
# Where a tree is checked out

The report on a tree of files does not depend on where the tree is, except for the paths in it, as long as no class can
see the root: it has no test directory above the tree, and no path that begins with an angle bracket.

* `Workspace.Carries`: a tree of files that is what there is below a path.
* `Checkouts`: one tree at two roots.
* `Checkouts.foundUnits_eq`, `Checkouts.accepts_eq`: the classes of the two scans, and what the policy says about them.
* `Config.Unusable`: why there is no report at either root.
* `scan_relocated`: the two reports.
* `scan_sees_bracketed_root`: a root whose text does not begin with an angle bracket until it is read as a path.
-/

namespace HandlerComplexity

/-! ## Trees of files -/

/-- The files of a tree, each with its path from the root of the tree, are what there is below a path that can be
searched, and all of them can be read. -/
structure Workspace.Carries (w : Workspace) (path : String) (tree : List (Place × List UInt8)) : Prop where
  holds : ∃ place fs, w.Holds (.ofString path) place fs ∧ fs.Perm tree
  readable : ∀ f ∈ tree, w.read ((Path.ofString path).append f.1) = .ok f.2

/-- The files of a tree that are scanned. -/
def scannedPlaces (languages : List Scalar) (tree : List (Place × List UInt8)) : List Place :=
  foundBelow .here languages (tree.map (·.1))

theorem mem_of_mem_scannedPlaces {languages : List Scalar} {tree : List (Place × List UInt8)} {rel : Place}
    (h : rel ∈ scannedPlaces languages tree) : ∃ f ∈ tree, f.1 = rel :=
  List.mem_map.mp (List.mem_mergeSort.mp (List.mem_filter.mp h).1)

/-- A tree is carried by the workspace that holds it, unless the system keeps a file from being read. -/
theorem Workspace.Holds.carries {w : Workspace} {path : String} {place : Place} {tree : List (Place × List UInt8)}
    (h : w.Holds (.ofString path) place tree) (hreadable : ∀ f ∈ tree, w.unreadable.lookup (place ++ f.1) = none)
    (hplain : ∀ f ∈ tree, ((Path.ofString path).append f.1).toString.contains '\x00' = false) :
    w.Carries path tree := by
  refine ⟨⟨place, tree, h, .refl _⟩, fun f hf => ?_⟩
  have hbelow : f.1 ∈ w.below place := by
    rw [h.below]
    exact List.mem_map_of_mem hf
  obtain ⟨hshort, hopen⟩ := entryRefusal?_eq_none_iff.mp (h.walkable f.1 (mem_entriesBelow_of_below hbelow))
  have hlocate : w.locate ((Path.ofString path).append f.1) = .ok (.inside (place ++ f.1)) := by
    rw [locate_append h.wellFormed h.located (h.files f hf), hplain f hf, hopen]
    simpa [isOverlong] using hshort
  exact read_of_locate hlocate (hreadable f hf) (file?_of_mem h.wellFormed (h.files f hf))

/-- The same from conditions that can all be decided. -/
theorem Workspace.carries_of_listed {w : Workspace} {path : String} (place : Place) {tree : List (Place × List UInt8)}
    (h : w.WellFormed ∧ (Path.ofString path).parts.foldlM w.step (w.start (.ofString path)) = .ok (.inside place) ∧
      w.isDirectory place = true ∧ w.Walkable (.ofString path) place ∧ w.below place = tree.map (·.1) ∧
      '\x00' ∉ (Path.ofString path).toString.toList ∧ (Path.ofString path).toString.utf8ByteSize ≤ pathLimit ∧
      ∀ f ∈ tree, (place ++ f.1, f.2) ∈ w.files ∧ w.unreadable.lookup (place ++ f.1) = none ∧
        '\x00' ∉ ((Path.ofString path).append f.1).toString.toList) :
    w.Carries path tree := by
  obtain ⟨hw, hsteps, hdir, hwalk, hbelow, hplain, hshort, hfiles⟩ := h
  have hlocate : w.locate (.ofString path) = .ok (.inside place) := by
    rw [locate, String.contains_char_eq, if_neg (by simpa using hplain), if_neg (by omega), hsteps]
  have hholds : w.Holds (.ofString path) place tree := ⟨hw, hlocate, hdir, hwalk, hbelow, fun f hf => (hfiles f hf).1⟩
  exact hholds.carries (fun f hf => (hfiles f hf).2.1) fun f hf => by
    simpa [String.contains_char_eq] using (hfiles f hf).2.2

namespace Workspace.Carries

variable {w : Workspace} {path : String} {tree : List (Place × List UInt8)}

theorem wellFormed (h : w.Carries path tree) : w.WellFormed :=
  let ⟨_, _, hholds, _⟩ := h.holds
  hholds.wellFormed

theorem refusal?_eq (h : w.Carries path tree) : w.refusal? (.ofString path) = none := by
  obtain ⟨place, fs, hholds, -⟩ := h.holds
  rw [refusal?, hholds.located]

theorem searched (h : w.Carries path tree) (languages : List Scalar) : Searched w path languages :=
  let ⟨_, _, hholds, _⟩ := h.holds
  hholds.searched languages

theorem moduleRootOf_eq (h : w.Carries path tree) : moduleRootOf w (.ofString path) = .ofString path := by
  obtain ⟨place, fs, hholds, -⟩ := h.holds
  exact moduleRootOf_of_directory hholds.wellFormed hholds.located hholds.directory

/-- A file of the tree has a name, and its path is a proper one. -/
theorem place_of_mem (h : w.Carries path tree) {f : Place × List UInt8} (hf : f ∈ tree) :
    f.1 ≠ [] ∧ ∀ part ∈ f.1, Path.IsPart part := by
  obtain ⟨place, fs, hholds, hperm⟩ := h.holds
  have hbelow : f.1 ∈ w.below place := by
    rw [hholds.below]
    exact List.mem_map_of_mem (hperm.symm.subset hf)
  exact ⟨(mem_below.mp hbelow).1, fun part hpart => (hholds.wellFormed.isFileName_of_below hbelow part hpart).1⟩

theorem foundFiles_eq (h : w.Carries path tree) (languages : List Scalar) :
    foundFiles w path languages = (scannedPlaces languages tree).map (Path.ofString path).append := by
  obtain ⟨place, fs, hholds, hperm⟩ := h.holds
  rw [foundFiles, hholds.sourceFiles_eq, foundBelow, scannedPlaces, foundBelow,
    mergeSort_placeLe_of_perm (hperm.map _)]
  refine congrArg (List.map (Path.ofString path).append) (List.filter_congr fun rel hrel => ?_)
  obtain ⟨f, hf, rfl⟩ := List.mem_map.mp (List.mem_mergeSort.mp hrel)
  obtain ⟨hne, hparts⟩ := h.place_of_mem hf
  rw [isEnabled_append (Path.isRead_ofString path) hne hparts]

theorem declaredUnits_eq (h : w.Carries path tree) (g : Grammars) (languages : List Scalar) :
    declaredUnits w g path languages = (scannedPlaces languages tree).flatMap fun rel =>
      fileUnits w g (Path.ofString path).toString ((Path.ofString path).append rel) := by
  rw [declaredUnits, h.moduleRootOf_eq, h.foundFiles_eq, List.flatMap_map]

/-- A file of the tree is parsed by the language that its own name says, whatever the root is. -/
theorem parseFile_eq (h : w.Carries path tree) {f : Place × List UInt8} (hf : f ∈ tree) (g : Grammars) :
    parseFile w g ((Path.ofString path).append f.1) =
      SourceFile.parse g (((Language.ofPath? (Path.here.append f.1).toString).map (·.name)).getD "")
        ((Path.ofString path).append f.1).toString f.2 := by
  obtain ⟨hne, hparts⟩ := h.place_of_mem hf
  rw [parseFile, h.readable f hf]
  dsimp only
  rw [Language.ofPath?_append (Path.isRead_ofString path) hne hparts]

end Workspace.Carries

/-! ## One tree at two roots -/

/-- A tree that is checked out at two roots, where no class can see either of them. -/
structure Checkouts (w₁ w₂ : Workspace) (path₁ path₂ : String) (tree : List (Place × List UInt8)) : Prop where
  first : w₁.Carries path₁ tree
  second : w₂.Carries path₂ tree
  plain₁ : (Path.ofString path₁).Plain
  plain₂ : (Path.ofString path₂).Plain
  /-- No entry of the tree itself begins with an angle bracket. -/
  tops : ∀ f ∈ tree, ∀ top ∈ f.1.head?, top.toList.head? ≠ some '<'

/-- What is reported about a file, with the path of the file changed. -/
def Trouble.relocate (move : String → String) (t : Trouble) : Trouble := { t with target := move t.target }

namespace Checkouts

variable {w₁ w₂ : Workspace} {path₁ path₂ : String} {tree : List (Place × List UInt8)}
  (h : Checkouts w₁ w₂ path₁ path₂ tree)

include h

section File

variable {f : Place × List UInt8} (hf : f ∈ tree)

include hf

theorem rebase_eq : rebase path₁ path₂ ((Path.ofString path₁).append f.1).toString =
    ((Path.ofString path₂).append f.1).toString := rebase_append path₁ path₂ (h.first.place_of_mem hf).2

theorem parseFile_eq (g : Grammars) : parseFile w₂ g ((Path.ofString path₂).append f.1) =
    (parseFile w₁ g ((Path.ofString path₁).append f.1)).map
      (·.relocate (rebase path₁ path₂)) := by
  rw [h.first.parseFile_eq hf, h.second.parseFile_eq hf, ← h.rebase_eq hf, SourceFile.parse_relocate]

theorem isParsed_eq (g : Grammars) : isParsed w₂ g ((Path.ofString path₂).append f.1) =
    isParsed w₁ g ((Path.ofString path₁).append f.1) := by
  rw [isParsed, isParsed, h.parseFile_eq hf]
  cases parseFile w₁ g ((Path.ofString path₁).append f.1) <;> rfl

theorem fileTrouble?_eq (g : Grammars) : fileTrouble? w₂ g ((Path.ofString path₂).append f.1) =
    (fileTrouble? w₁ g ((Path.ofString path₁).append f.1)).map
      (·.relocate (rebase path₁ path₂)) := by
  rw [fileTrouble?, fileTrouble?, h.parseFile_eq hf, ← h.rebase_eq hf]
  cases parseFile w₁ g ((Path.ofString path₁).append f.1) <;> rfl

/-- A file that is parsed is the same module at both roots. -/
theorem topName_eq {g : Grammars} {s : SourceFile} (hs : parseFile w₁ g ((Path.ofString path₁).append f.1) = .ok s) :
    (s.relocate (rebase path₁ path₂)).topName (some (Path.ofString path₂).toString) =
      s.topName (some (Path.ofString path₁).toString) := by
  obtain ⟨hne, hparts⟩ := h.first.place_of_mem hf
  have hpath : (s.relocate (rebase path₁ path₂)).path =
      ((Path.ofString path₂).append f.1).toString := by
    rw [← h.rebase_eq hf, ← path_of_parseFile hs]
    rfl
  have hmodule : moduleName ((Path.ofString path₂).append f.1).toString (some (Path.ofString path₂).toString) =
      moduleName ((Path.ofString path₁).append f.1).toString (some (Path.ofString path₁).toString) := by
    rw [moduleName_append (Path.isRead_ofString path₁) hne hparts h.plain₁ (h.tops f hf),
      moduleName_append (Path.isRead_ofString path₂) hne hparts h.plain₂ (h.tops f hf)]
  rw [SourceFile.topName, SourceFile.topName, hpath, path_of_parseFile hs, hmodule]
  rfl

theorem fileUnits_eq (g : Grammars) :
    fileUnits w₂ g (Path.ofString path₂).toString ((Path.ofString path₂).append f.1) =
      (fileUnits w₁ g (Path.ofString path₁).toString ((Path.ofString path₁).append f.1)).map
        (·.relocate (rebase path₁ path₂)) := by
  have hparse := h.parseFile_eq hf g
  rcases hs : parseFile w₁ g ((Path.ofString path₁).append f.1) with e | s
  · rw [hs] at hparse
    rw [fileUnits_of_error hs, fileUnits_of_error hparse]
    rfl
  · rw [hs] at hparse
    have hunits := s.units_relocate _ (h.topName_eq hf hs)
    rw [fileUnits, hparse, fileUnits, hs]
    simp only [Except.map, hunits]
    cases s.units (some (Path.ofString path₁).toString) <;> rfl

theorem isTestPath_eq : isTestPath ((Path.ofString path₂).append f.1).toString =
    isTestPath ((Path.ofString path₁).append f.1).toString := by
  obtain ⟨hne, hparts⟩ := h.first.place_of_mem hf
  rw [isTestPath_append (Path.isRead_ofString path₁) hne hparts h.plain₁,
    isTestPath_append (Path.isRead_ofString path₂) hne hparts h.plain₂]

end File

/-! ### All files -/

theorem countP_isParsed (g : Grammars) (languages : List Scalar) :
    (foundFiles w₂ path₂ languages).countP (isParsed w₂ g) =
      (foundFiles w₁ path₁ languages).countP (isParsed w₁ g) := by
  rw [h.first.foundFiles_eq, h.second.foundFiles_eq, List.countP_map, List.countP_map]
  refine List.countP_congr fun rel hrel => ?_
  obtain ⟨f, hf, rfl⟩ := mem_of_mem_scannedPlaces hrel
  rw [Function.comp_apply, Function.comp_apply, h.isParsed_eq hf]

theorem fileErrors_eq (g : Grammars) (languages : List Scalar) :
    (foundFiles w₂ path₂ languages).filterMap (fileTrouble? w₂ g) =
      ((foundFiles w₁ path₁ languages).filterMap (fileTrouble? w₁ g)).map
        (·.relocate (rebase path₁ path₂)) := by
  rw [h.first.foundFiles_eq, h.second.foundFiles_eq, List.filterMap_map, List.filterMap_map, List.map_filterMap]
  refine List.filterMap_congr fun rel hrel => ?_
  obtain ⟨f, hf, rfl⟩ := mem_of_mem_scannedPlaces hrel
  exact h.fileTrouble?_eq hf g

theorem declaredUnits_eq (g : Grammars) (languages : List Scalar) :
    declaredUnits w₂ g path₂ languages =
      (declaredUnits w₁ g path₁ languages).map (·.relocate (rebase path₁ path₂)) := by
  rw [h.first.declaredUnits_eq, h.second.declaredUnits_eq, List.map_flatMap]
  refine List.flatMap_congr fun rel hrel => ?_
  obtain ⟨f, hf, rfl⟩ := mem_of_mem_scannedPlaces hrel
  exact h.fileUnits_eq hf g

/-- **The classes** are the same at both roots, except for their paths. -/
theorem foundUnits_eq (g : Grammars) (languages : List Scalar) :
    foundUnits w₂ g path₂ languages =
      (foundUnits w₁ g path₁ languages).map (·.relocate (rebase path₁ path₂)) := by
  rw [foundUnits, foundUnits, h.declaredUnits_eq, mergePartial_map_relocate]

theorem path_of_mem_foundUnits {g : Grammars} {languages : List Scalar} {u : ClassUnit}
    (hu : u ∈ foundUnits w₁ g path₁ languages) :
    ∃ f ∈ tree, u.path = ((Path.ofString path₁).append f.1).toString := by
  obtain ⟨v, hv, hpath⟩ := path_of_mem_mergePartial hu
  rw [h.first.declaredUnits_eq] at hv
  obtain ⟨rel, hrel, hv⟩ := List.mem_flatMap.mp hv
  obtain ⟨f, hf, rfl⟩ := mem_of_mem_scannedPlaces hrel
  refine ⟨f, hf, hpath.trans ?_⟩
  rcases hs : parseFile w₁ g ((Path.ofString path₁).append f.1) with e | s
  · rw [fileUnits_of_error hs] at hv
    cases hv
  · rw [fileUnits, hs] at hv
    dsimp only at hv
    split at hv
    · cases hv
    next us hus => rw [SourceFile.path_of_mem_units hus hv, path_of_parseFile hs]

/-- **The policy** decides alike at both roots. -/
theorem accepts_eq (policy : Policy) {g : Grammars} {languages : List Scalar} {u : ClassUnit}
    (hu : u ∈ foundUnits w₁ g path₁ languages) :
    policy.accepts (u.relocate (rebase path₁ path₂)) = policy.accepts u := by
  obtain ⟨f, hf, hpath⟩ := h.path_of_mem_foundUnits hu
  refine Policy.accepts_relocate _ ?_
  rw [hpath, h.rebase_eq hf, h.isTestPath_eq hf]

theorem takes_eq (policy : Policy) {g : Grammars} {languages : List Scalar} {u : ClassUnit}
    (hu : u ∈ foundUnits w₁ g path₁ languages) :
    policy.takes (u.relocate (rebase path₁ path₂)) = policy.takes u := by
  rw [Policy.takes, Policy.takes, h.accepts_eq policy hu]

theorem filter_takes_eq (policy : Policy) (g : Grammars) (languages : List Scalar) :
    (foundUnits w₂ g path₂ languages).filter policy.takes =
      ((foundUnits w₁ g path₁ languages).filter policy.takes).map
        (·.relocate (rebase path₁ path₂)) := by
  rw [h.foundUnits_eq, List.filter_map]
  exact congrArg _ (List.filter_congr fun u hu => h.takes_eq policy hu)

theorem countP_takes_eq (policy : Policy) (g : Grammars) (languages : List Scalar) :
    (foundUnits w₂ g path₂ languages).countP (!policy.takes ·) =
      (foundUnits w₁ g path₁ languages).countP (!policy.takes ·) := by
  rw [h.foundUnits_eq, List.countP_map]
  refine List.countP_congr fun u hu => ?_
  rw [Function.comp_apply, h.takes_eq policy hu]

end Checkouts

/-! ## Configurations without a report -/

/-- Why a configuration with one worker who goes on after failures can leave a scan of a tree without a report: its
policy or its languages cannot be read, or its policy has a pattern that is no text. -/
inductive Config.Unusable (c : Config) : ScanError → Prop
  | policy {e : PolicyError} (h : Policy.ofSection c.eligibility = .error e) : c.Unusable (.policy e)
  | languages {e : ConfigError} (h : c.languages = .error e) : c.Unusable (.config e)
  | pattern {p : Policy} (h : Policy.ofSection c.eligibility = .ok p) (hp : ¬ p.HasTextPatterns) :
    c.Unusable (.measuring (.policy .notText))

section Settings

variable {c : Config} (hgo : c.failFast = .ok false) (hone : c.workers = .ok 1)

include hgo hone

theorem Config.unusable_of_ofConfig {w : Workspace} {root : Path} {e : ScanError} (hroot : w.refusal? root = none)
    (h : ScanSettings.ofConfig w root c = .error e) : c.Unusable e := by
  rcases hp : Policy.ofSection c.eligibility with e' | policy
  · have herror : ScanSettings.ofConfig w root c = .error (.policy e') := by
      rw [ScanSettings.ofConfig, hp]
      rfl
    obtain rfl := Except.error.inj (herror.symm.trans h)
    exact .policy hp
  · rw [ScanSettings.ofConfig_eq hp hgo hone, hroot] at h
    rcases hl : c.languages with e' | ls
    · rw [hl] at h
      obtain rfl := Except.error.inj h
      exact .languages hl
    · rw [hl] at h
      cases h

/-- A class about which the policy does not decide leaves the scan without a report. -/
theorem scan_of_undecided {w : Workspace} (hw : w.WellFormed) {g : Grammars} {path : String} {s : ScanSettings}
    (hs : ScanSettings.ofConfig w (.ofString path) c = .ok s) (hsearch : Searched w path s.languages) {u : ClassUnit}
    (hu : u ∈ foundUnits w g path s.languages) {e : PolicyError} (he : s.policy.accepts u = .error e)
    (schedule : Schedule) (store : Store) :
    ∃ log, scan schedule w g c path store = (⟨store, log⟩, .error (.measuring (.policy .notText))) := by
  rcases stopped_or_report w g path hgo hone with ⟨x, hstopped, hscan⟩ | ⟨s', hs', hdecided, -⟩
  · obtain ⟨log, hscan⟩ := hscan schedule store
    refine ⟨log, ?_⟩
    cases hstopped with
    | settings h =>
      rw [hs] at h
      cases h
    | nameless h => exact absurd hw h
    | search hs' h =>
      obtain rfl := Except.ok.inj (hs.symm.trans hs')
      cases h.symm.trans hsearch
    | undecided _ _ h =>
      obtain rfl := Policy.eq_notText_of_accepts h
      exact hscan
  · obtain rfl := Except.ok.inj (hs.symm.trans hs')
    rw [hdecided u hu] at he
    cases he

end Settings

/-! ## Reports -/

/-- Two reports on one tree, at two roots: they are equal except for the paths of the files of the tree. -/
structure Relocated (path₁ path₂ : String) (tree : List (Place × List UInt8)) (r₁ r₂ : Report)
    (fileErrors classErrors : List Trouble) : Prop where
  filesScanned : r₂.filesScanned = r₁.filesScanned
  classesFound : r₂.classesFound = r₁.classesFound
  skipped : r₂.skipped = r₁.skipped
  measures : r₂.measures = r₁.measures.map (·.relocate (rebase path₁ path₂))
  errors₁ : r₁.errors = fileErrors ++ classErrors
  errors₂ : r₂.errors = fileErrors.map (·.relocate (rebase path₁ path₂)) ++ classErrors
  /-- The paths are those of the tree, so each of them is changed. -/
  measured_below : ∀ m ∈ r₁.measures, ∃ f ∈ tree, m.path = ((Path.ofString path₁).append f.1).toString
  failed_below : ∀ e ∈ fileErrors, ∃ f ∈ tree, e.target = ((Path.ofString path₁).append f.1).toString

namespace Checkouts

variable {w₁ w₂ : Workspace} {path₁ path₂ : String} {tree : List (Place × List UInt8)}
  (h : Checkouts w₁ w₂ path₁ path₂ tree)

include h

theorem ofConfig_eq (c : Config) :
    ScanSettings.ofConfig w₂ (.ofString path₂) c = ScanSettings.ofConfig w₁ (.ofString path₁) c := by
  rw [ScanSettings.ofConfig, ScanSettings.ofConfig, h.first.refusal?_eq, h.second.refusal?_eq]

theorem relocated (g : Grammars) (s : ScanSettings) :
    Relocated path₁ path₂ tree (oneWorkerReport w₁ g path₁ s .empty) (oneWorkerReport w₂ g path₂ s .empty)
      ((foundFiles w₁ path₁ s.languages).filterMap (fileTrouble? w₁ g))
      (((refusedOf (verdicts Store.empty.contains ((foundUnits w₁ g path₁ s.languages).filter s.policy.takes))).map
        ClassUnit.trouble).mergeSort (keyLe Trouble.target)) where
  filesScanned := congrArg Int.ofNat (h.countP_isParsed g s.languages)
  classesFound := by
    refine congrArg Int.ofNat ?_
    rw [h.foundUnits_eq, List.length_map]
  skipped := congrArg Int.ofNat (h.countP_takes_eq s.policy g s.languages)
  measures := by
    rw [oneWorkerReport, oneWorkerReport, reportOf, reportOf]
    dsimp only
    rw [h.filter_takes_eq, h.foundUnits_eq, Store.run_map_relocate, classMeasures_map_relocate]
  errors₁ := rfl
  errors₂ := by
    rw [oneWorkerReport, reportOf]
    dsimp only
    rw [h.fileErrors_eq, h.filter_takes_eq, troubles_map_relocate]
  measured_below m hm := by
    obtain ⟨o, r, ho, -, hm⟩ := mem_classMeasures_run.mp hm
    obtain ⟨f, hf, hpath⟩ := h.path_of_mem_foundUnits (of_originOf ho).1
    rw [hm]
    exact ⟨f, hf, hpath⟩
  failed_below e he := by
    rw [h.first.foundFiles_eq] at he
    obtain ⟨p, hp, he⟩ := List.mem_filterMap.mp he
    obtain ⟨rel, hrel, rfl⟩ := List.mem_map.mp hp
    obtain ⟨f, hf, rfl⟩ := mem_of_mem_scannedPlaces hrel
    exact ⟨f, hf, target_of_fileTrouble? he⟩

section Scans

variable {c : Config} (hgo : c.failFast = .ok false) (hone : c.workers = .ok 1) {g : Grammars} {s : ScanSettings}
  (hs : ScanSettings.ofConfig w₁ (.ofString path₁) c = .ok s)

include hgo hone hs

/-- A policy that decides about all classes at the first root decides about all of them at the second. -/
theorem scan_decided (hdecided : ∀ u ∈ foundUnits w₁ g path₁ s.languages, s.policy.accepts u = .ok (s.policy.takes u))
    (schedule₁ schedule₂ : Schedule) :
    ∃ log₁ log₂, scan schedule₁ w₁ g c path₁ .empty =
        (⟨Store.empty.run ((foundUnits w₁ g path₁ s.languages).filter s.policy.takes), log₁⟩,
          .ok (oneWorkerReport w₁ g path₁ s .empty)) ∧
      scan schedule₂ w₂ g c path₂ .empty =
        (⟨Store.empty.run ((foundUnits w₁ g path₁ s.languages).filter s.policy.takes), log₂⟩,
          .ok (oneWorkerReport w₂ g path₂ s .empty)) := by
  obtain ⟨-, hfast, hworkers, -, -⟩ := ScanSettings.of_ofConfig hs
  have hf : s.failFast = false := Except.ok.inj (hfast.symm.trans hgo)
  have hw1 : s.workers = 1 := Except.ok.inj (hworkers.symm.trans hone)
  have hdecided₂ : ∀ u ∈ foundUnits w₂ g path₂ s.languages, s.policy.accepts u = .ok (s.policy.takes u) := by
    intro u hu
    rw [h.foundUnits_eq] at hu
    obtain ⟨v, hv, rfl⟩ := List.mem_map.mp hu
    rw [h.accepts_eq _ hv, h.takes_eq _ hv]
    exact hdecided v hv
  obtain ⟨log₁, hscan₁⟩ := scan_of_decided (allNamed_foundFiles h.first.wellFormed g path₁ s.languages) hs hf
    (h.first.searched s.languages) hw1 hdecided schedule₁ .empty
  obtain ⟨log₂, hscan₂⟩ := scan_of_decided (allNamed_foundFiles h.second.wellFormed g path₂ s.languages)
    ((h.ofConfig_eq c).trans hs) hf (h.second.searched s.languages) hw1 hdecided₂ schedule₂ .empty
  rw [h.filter_takes_eq, Store.run_map_relocate] at hscan₂
  exact ⟨log₁, log₂, hscan₁, hscan₂⟩

/-- A class about which the policy does not decide is there at both roots. -/
theorem scan_undecided {u : ClassUnit} (hu : u ∈ foundUnits w₁ g path₁ s.languages) {e : PolicyError}
    (he : s.policy.accepts u = .error e) (schedule₁ schedule₂ : Schedule) :
    ∃ log₁ log₂,
      scan schedule₁ w₁ g c path₁ .empty = (⟨.empty, log₁⟩, .error (.measuring (.policy .notText))) ∧
      scan schedule₂ w₂ g c path₂ .empty = (⟨.empty, log₂⟩, .error (.measuring (.policy .notText))) := by
  have hu₂ : u.relocate (rebase path₁ path₂) ∈ foundUnits w₂ g path₂ s.languages := by
    rw [h.foundUnits_eq]
    exact List.mem_map_of_mem hu
  obtain ⟨log₁, hscan₁⟩ := scan_of_undecided hgo hone h.first.wellFormed hs (h.first.searched s.languages) hu he
    schedule₁ .empty
  obtain ⟨log₂, hscan₂⟩ := scan_of_undecided hgo hone h.second.wellFormed ((h.ofConfig_eq c).trans hs)
    (h.second.searched s.languages) hu₂ ((h.accepts_eq _ hu).trans he) schedule₂ .empty
  exact ⟨log₁, log₂, hscan₁, hscan₂⟩

end Scans

end Checkouts

/-- **The report does not depend on where a tree is**: one worker who goes on after failures, starting from an empty
store, reports the same of a tree at two roots that no class can see, except that the one root is replaced by the other
in the paths of the measures and of the files that cannot be parsed. Only a configuration that is unusable itself leaves
a scan without a report, and then it does so at both roots, with the same error. -/
theorem scan_relocated {w₁ w₂ : Workspace} {path₁ path₂ : String} {tree : List (Place × List UInt8)}
    (h : Checkouts w₁ w₂ path₁ path₂ tree) {c : Config} (hgo : c.failFast = .ok false)
    (hone : c.workers = .ok 1) (g : Grammars) (schedule₁ schedule₂ : Schedule) :
    (∃ e log₁ log₂, c.Unusable e ∧ scan schedule₁ w₁ g c path₁ .empty = (⟨.empty, log₁⟩, .error e) ∧
        scan schedule₂ w₂ g c path₂ .empty = (⟨.empty, log₂⟩, .error e)) ∨
      ∃ ls store log₁ log₂ r₁ r₂ fileErrors classErrors, c.languages = .ok ls ∧
        scan schedule₁ w₁ g c path₁ .empty = (⟨store, log₁⟩, .ok r₁) ∧
        scan schedule₂ w₂ g c path₂ .empty = (⟨store, log₂⟩, .ok r₂) ∧
        fileErrors = (foundFiles w₁ path₁ ls).filterMap (fileTrouble? w₁ g) ∧
        Relocated path₁ path₂ tree r₁ r₂ fileErrors classErrors := by
  rcases stopped_or_report w₁ g path₁ hgo hone with ⟨e, hstopped, -⟩ | ⟨s, hs, hdecided, -⟩
  · left
    cases hstopped with
    | settings hs =>
      have hunusable := c.unusable_of_ofConfig hgo hone h.first.refusal?_eq hs
      exact ⟨e, [], [], hunusable, scan_of_unreadable hs, scan_of_unreadable ((h.ofConfig_eq c).trans hs)⟩
    | nameless hno => exact absurd h.first.wellFormed hno
    | search hs hr => cases hr.symm.trans (h.first.searched _)
    | undecided hs hu he =>
      obtain ⟨log₁, log₂, hscan₁, hscan₂⟩ := h.scan_undecided hgo hone hs hu he schedule₁ schedule₂
      refine ⟨_, log₁, log₂, .pattern (ScanSettings.of_ofConfig hs).1 fun htexts => ?_, hscan₁, hscan₂⟩
      rw [htexts.decides] at he
      cases he
  · obtain ⟨log₁, log₂, hscan₁, hscan₂⟩ := h.scan_decided hgo hone hs hdecided schedule₁ schedule₂
    obtain ⟨-, -, -, -, hls⟩ := ScanSettings.of_ofConfig hs
    exact .inr ⟨s.languages, _, log₁, log₂, _, _, _, _, hls, hscan₁, hscan₂, rfl, h.relocated g s⟩

/-! ## Two trees

The class `C` of a module is the one class that is found in both. One tree has nothing else. The other one has the
module in a directory, beside a second module that is ignored and a file in a language whose grammar cannot be loaded.
-/

namespace OneClass

def bytes : List UInt8 := "class C: pass".toUTF8.toList

def module : Cst :=
  .ofRows [⟨0, "module", 0, 13, 0, true, none⟩, ⟨1, "class_definition", 0, 13, 0, true, none⟩,
    ⟨2, "identifier", 6, 7, 0, true, some "name"⟩, ⟨2, "block", 9, 13, 0, true, some "body"⟩]

def javaFault (grammar : String) : Option String := if grammar = "java" then some "no such symbol" else none

def grammars : Grammars := .installed javaFault fun _ _ => ⟨module, false⟩

def source (path : String) : SourceFile := ⟨path, .python, bytes, module, false⟩

/-- The class under a qualified name, in a file. -/
def IsC (name path : String) (u : ClassUnit) : Prop :=
  (u.qualifiedName = name ∧ u.path = path ∧ u.language = "python" ∧ u.isPartial = false) ∧
    Shadowed.settings.policy.accepts u = .ok true ∧ u.score = .ok 0

instance (name path : String) : DecidablePred (IsC name path) := fun _ => inferInstanceAs (Decidable (_ ∧ _))

section Tree

variable {w : Workspace} {path file name : String} {tree : List (Place × List UInt8)} {rel : Place}

theorem parse_module (h : w.Carries path tree) (hmem : (rel, bytes) ∈ tree)
    (hlanguage : Language.ofPath? (Path.here.append rel).toString = some .python)
    (hfile : ((Path.ofString path).append rel).toString = file) :
    parseFile w grammars ((Path.ofString path).append rel) = .ok (source file) := by
  have hpython : Language.ofName? Language.python.name = some .python := by decide
  have hown := h.parseFile_eq hmem grammars
  rw [hlanguage, hfile, Option.map_some, Option.getD_some, SourceFile.parse, hpython] at hown
  exact hown

theorem parse_java {bs : List UInt8} (h : w.Carries path tree) (hmem : (rel, bs) ∈ tree)
    (hlanguage : Language.ofPath? (Path.here.append rel).toString = some .java) :
    parseFile w grammars ((Path.ofString path).append rel) = .error (.notLoaded "java" "no such symbol") := by
  have hjava : Language.ofName? Language.java.name = some .java := by decide
  rw [h.parseFile_eq hmem, hlanguage, Option.map_some, Option.getD_some, SourceFile.parse, hjava]
  rfl

/-- A scan that finds the class has a report with its measure. -/
theorem exists_report (h : w.Carries path tree) {u : ClassUnit}
    (hunits : declaredUnits w grammars path Shadowed.settings.languages = [u]) (hu : IsC name file u) :
    ∃ p, scan .inOrder w grammars .default path .empty =
        (p, .ok (oneWorkerReport w grammars path Shadowed.settings .empty)) ∧
      (oneWorkerReport w grammars path Shadowed.settings .empty).measures =
        [⟨name, file, "python", ⟨.hcc, .ofScore 0⟩⟩] := by
  have hs : ScanSettings.ofConfig w (.ofString path) .default = .ok Shadowed.settings := by
    rw [ScanSettings.ofConfig, h.refusal?_eq]
    rfl
  obtain ⟨log, hscan⟩ := scan_one_worker (g := grammars) h.wellFormed hs rfl (h.searched _) rfl
    Policy.hasTextPatterns_default .inOrder Store.Reachable.empty
  refine ⟨_, hscan, ?_⟩
  have hfound : foundUnits w grammars path Shadowed.settings.languages = [u] := by
    rw [foundUnits, hunits]
    simp [mergePartial, mergeFrom, areParts, partsOf, hu.1]
  have htaken : Shadowed.settings.policy.takes u = true := by simp [Policy.takes, hu.2.1]
  have hscored : u.isScored = true := ClassUnit.isScored_iff.mpr ⟨0, hu.2.2⟩
  rw [oneWorkerReport, reportOf, hfound]
  obtain ⟨⟨rfl, rfl, hlanguage, -⟩, -, hscore⟩ := hu
  simp [htaken, Store.run, Store.extendBy, verdicts, recordedOf, hscored, Store.empty, Store.contains, classMeasures,
    Store.items, hlanguage, ClassUnit.measure_of_score hscore]

end Tree

/-! The module alone, at the roots `./<a` and `b`. -/

def single : List (Place × List UInt8) := [(["m.py"], bytes)]

def workspace : Workspace := { files := [(["<a", "m.py"], bytes), (["b", "m.py"], bytes)] }

theorem carries_bracketed : workspace.Carries "./<a" single := Workspace.carries_of_listed ["<a"] (by decide +kernel)

theorem carries_plain : workspace.Carries "b" single := Workspace.carries_of_listed ["b"] (by decide +kernel)

theorem exists_report_single {path file name : String} (h : workspace.Carries path single)
    (hfile : ((Path.ofString path).append ["m.py"]).toString = file)
    (hunit : ∃ u, (source file).units (some (Path.ofString path).toString) = .ok [u] ∧ IsC name file u) :
    ∃ p r, scan .inOrder workspace grammars .default path .empty = (p, .ok r) ∧
      r.measures = [⟨name, file, "python", ⟨.hcc, .ofScore 0⟩⟩] := by
  obtain ⟨u, hunits, hu⟩ := hunit
  have hscanned : scannedPlaces Shadowed.settings.languages single = [["m.py"]] := by
    rw [scannedPlaces, foundBelow, single, List.map_singleton, List.mergeSort_singleton]
    decide
  have hdeclared : declaredUnits workspace grammars path Shadowed.settings.languages = [u] := by
    have hparse := parse_module h (List.mem_singleton.mpr rfl) (by decide) hfile
    rw [h.declaredUnits_eq, hscanned, List.flatMap_singleton, fileUnits_of_ok hparse hunits]
  obtain ⟨p, hscan, hmeasures⟩ := exists_report h hdeclared hu
  exact ⟨p, _, hscan, hmeasures⟩

theorem exists_report_bracketed : ∃ p r, scan .inOrder workspace grammars .default "./<a" .empty = (p, .ok r) ∧
    r.measures = [⟨"C", "<a/m.py", "python", ⟨.hcc, .ofScore 0⟩⟩] :=
  exists_report_single carries_bracketed (by decide) (Shadowed.exists_unit (by decide +kernel))

theorem exists_report_plain : ∃ p r, scan .inOrder workspace grammars .default "b" .empty = (p, .ok r) ∧
    r.measures = [⟨"m.C", "b/m.py", "python", ⟨.hcc, .ofScore 0⟩⟩] :=
  exists_report_single carries_plain (by decide) (Shadowed.exists_unit (by decide +kernel))

theorem tops_single : ∀ f ∈ single, ∀ top ∈ f.1.head?, top.toList.head? ≠ some '<' := by decide

/-! The module among other files, at the root `b` and at `/srv/code`, where the working directory is `/srv`. -/

def project : List (Place × List UInt8) :=
  [(["a.java"], Shadowed.plainBytes), (["build", "g.py"], bytes), (["pkg", "m.py"], bytes)]

def desk : Workspace :=
  { files := [(["b", "a.java"], Shadowed.plainBytes), (["b", "build", "g.py"], bytes), (["b", "pkg", "m.py"], bytes)] }

def server : Workspace where
  files := [(["srv", "code", "a.java"], Shadowed.plainBytes), (["srv", "code", "build", "g.py"], bytes),
    (["srv", "code", "pkg", "m.py"], bytes)]
  home := some ["srv"]

theorem carries_desk : desk.Carries "b" project := Workspace.carries_of_listed ["b"] (by decide +kernel)

theorem carries_server : server.Carries "/srv/code" project :=
  Workspace.carries_of_listed ["srv", "code"] (by decide +kernel)

theorem checkouts : Checkouts desk server "b" "/srv/code" project :=
  ⟨carries_desk, carries_server, by decide, by decide, by decide⟩

/-- The ignored module is not scanned. -/
theorem scannedPlaces_project :
    scannedPlaces Shadowed.settings.languages project = [["a.java"], ["pkg", "m.py"]] := by
  have hsorted : (project.map (·.1)).mergeSort placeLe = project.map (·.1) :=
    List.mergeSort_of_pairwise (by decide)
  rw [scannedPlaces, foundBelow, hsorted]
  decide

theorem exists_report_desk : ∃ p r, scan .inOrder desk grammars .default "b" .empty = (p, .ok r) ∧
    r.measures = [⟨"pkg.m.C", "b/pkg/m.py", "python", ⟨.hcc, .ofScore 0⟩⟩] ∧
    (foundFiles desk "b" Shadowed.settings.languages).filterMap (fileTrouble? desk grammars) =
      [⟨"b/a.java", (GrammarError.notLoaded "java" "no such symbol").message⟩] := by
  obtain ⟨u, hunits, hu⟩ : ∃ u, (source "b/pkg/m.py").units (some (Path.ofString "b").toString) = .ok [u] ∧
      IsC "pkg.m.C" "b/pkg/m.py" u :=
    Shadowed.exists_unit (by decide +kernel)
  have hmodule : (["pkg", "m.py"], bytes) ∈ project := by simp [project]
  have hjava := parse_java carries_desk (show (["a.java"], Shadowed.plainBytes) ∈ project from List.mem_cons_self)
    (by decide)
  have hparse : parseFile desk grammars ((Path.ofString "b").append ["pkg", "m.py"]) = .ok (source "b/pkg/m.py") :=
    parse_module carries_desk hmodule (by decide) (by decide)
  have hdeclared : declaredUnits desk grammars "b" Shadowed.settings.languages = [u] := by
    rw [carries_desk.declaredUnits_eq, scannedPlaces_project, List.flatMap_cons, List.flatMap_singleton,
      fileUnits_of_error hjava, fileUnits_of_ok hparse hunits, List.nil_append]
  obtain ⟨p, hscan, hmeasures⟩ := exists_report carries_desk hdeclared hu
  refine ⟨p, _, hscan, hmeasures, ?_⟩
  rw [carries_desk.foundFiles_eq, scannedPlaces_project, List.map_cons, List.map_singleton, List.filterMap_cons,
    fileTrouble?_of_error hjava, List.filterMap_cons, fileTrouble?_of_ok hparse, List.filterMap_nil]
  rfl

end OneClass

/-- The project at a relative root and at an absolute one: the class is found under the same name, and the file whose
grammar cannot be loaded is reported at its place below each root. -/
theorem project_relocated :
    Checkouts OneClass.desk OneClass.server "b" "/srv/code" OneClass.project ∧
      Config.default.failFast = .ok false ∧ Config.default.workers = .ok 1 ∧
      ∃ p₁ r₁ p₂ r₂ fileErrors classErrors,
        scan .inOrder OneClass.desk OneClass.grammars .default "b" .empty = (p₁, .ok r₁) ∧
        scan .inOrder OneClass.server OneClass.grammars .default "/srv/code" .empty = (p₂, .ok r₂) ∧
        Relocated "b" "/srv/code" OneClass.project r₁ r₂ fileErrors classErrors ∧
        r₁.measures = [⟨"pkg.m.C", "b/pkg/m.py", "python", ⟨.hcc, .ofScore 0⟩⟩] ∧
        r₂.measures = [⟨"pkg.m.C", "/srv/code/pkg/m.py", "python", ⟨.hcc, .ofScore 0⟩⟩] ∧
        fileErrors.map (·.target) = ["b/a.java"] ∧
        ∃ e ∈ r₂.errors, e.target = "/srv/code/a.java" := by
  refine ⟨OneClass.checkouts, rfl, rfl, ?_⟩
  obtain ⟨p, r, hscan, hmeasures, hfailed⟩ := OneClass.exists_report_desk
  rcases scan_relocated OneClass.checkouts (c := .default) rfl rfl OneClass.grammars .inOrder .inOrder with
    ⟨e, log₁, log₂, -, hscan₁, -⟩ | ⟨ls, store, log₁, log₂, r₁, r₂, fs, cs, hl, hscan₁, hscan₂, hfs, hrelocated⟩
  · cases hscan.symm.trans hscan₁
  · obtain ⟨-, hr⟩ := Prod.mk.inj (hscan.symm.trans hscan₁)
    obtain rfl := Except.ok.inj hr
    obtain rfl : Shadowed.settings.languages = ls := Except.ok.inj hl
    obtain rfl := hfs.trans hfailed
    refine ⟨_, r, _, r₂, _, cs, hscan₁, hscan₂, hrelocated, hmeasures, ?_, rfl, ?_⟩
    · rw [hrelocated.measures, hmeasures]
      decide
    · rw [hrelocated.errors₂]
      exact ⟨_, List.mem_append_left _ List.mem_cons_self, by decide⟩

/-- **A root that begins with an angle bracket once it is read**: neither text begins with one, and yet the module has
its name at one of the roots and none at the other. -/
theorem scan_sees_bracketed_root :
    "./<a".toList.head? ≠ some '<' ∧ "b".toList.head? ≠ some '<' ∧
      (∀ part ∈ (Path.ofString "./<a").parts ++ (Path.ofString "b").parts,
        testDirectories.contains (lowerAscii part) = false) ∧
      (∀ f ∈ OneClass.single, ∀ top ∈ f.1.head?, top.toList.head? ≠ some '<') ∧
      OneClass.workspace.Carries "./<a" OneClass.single ∧ OneClass.workspace.Carries "b" OneClass.single ∧
      Config.default.failFast = .ok false ∧ Config.default.workers = .ok 1 ∧
      ∃ p₁ r₁ p₂ r₂, scan .inOrder OneClass.workspace OneClass.grammars .default "./<a" .empty = (p₁, .ok r₁) ∧
        scan .inOrder OneClass.workspace OneClass.grammars .default "b" .empty = (p₂, .ok r₂) ∧
        r₁.measures.map (·.name) = ["C"] ∧ r₂.measures.map (·.name) = ["m.C"] ∧
        ¬ ∃ fileErrors classErrors, Relocated "./<a" "b" OneClass.single r₁ r₂ fileErrors classErrors := by
  obtain ⟨p₁, r₁, hscan₁, hmeasures₁⟩ := OneClass.exists_report_bracketed
  obtain ⟨p₂, r₂, hscan₂, hmeasures₂⟩ := OneClass.exists_report_plain
  refine ⟨by decide, by decide, by decide, OneClass.tops_single, OneClass.carries_bracketed,
    OneClass.carries_plain, rfl, rfl, p₁, r₁, p₂, r₂, hscan₁, hscan₂, by rw [hmeasures₁]; rfl,
    by rw [hmeasures₂]; rfl, ?_⟩
  rintro ⟨fs, cs, hrelocated⟩
  have hnames := congrArg (List.map ClassMeasure.name) hrelocated.measures
  rw [hmeasures₁, hmeasures₂] at hnames
  exact absurd hnames (by decide)

end HandlerComplexity
