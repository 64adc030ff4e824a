import HandlerComplexity.Proofs.Directory

/-!
# Scanning two sets of files together

Two sets of files below one directory that declare no class in common can be scanned apart: the report of the scan of
all files is put together from the two reports.

* `Workspace.addFiles`: files below a directory.
* `Workspace.Holds`: what is used of a workspace whose files below a directory are given.
* `splits_declaredUnits`: the classes of all files, from those of the two sets.
* `Combined`: a report that is put together from two.
* `scan_union`: the reports of the three scans.
-/

namespace HandlerComplexity

/-! ## Adding files below a directory -/

namespace Workspace

/-- A workspace with further files below a directory. -/
def addFiles (w : Workspace) (place : Place) (fs : List (Place × List UInt8)) : Workspace :=
  { w with files := w.files ++ fs.map fun f => (place ++ f.1, f.2) }

/-- A path that leads to a directory without files below it. -/
structure EmptyRoot (w : Workspace) (root : Path) (place : Place) : Prop where
  located : w.locate root = .ok (.inside place)
  directory : w.isDirectory place = true
  empty : w.below place = []

/-- A workspace in which a path leads to a directory that can be searched, and exactly the given files are below it. -/
structure Holds (w : Workspace) (root : Path) (place : Place) (fs : List (Place × List UInt8)) : Prop where
  wellFormed : w.WellFormed
  located : w.locate root = .ok (.inside place)
  directory : w.isDirectory place = true
  walkable : w.Walkable root place
  below : w.below place = fs.map (·.1)
  files : ∀ f ∈ fs, (place ++ f.1, f.2) ∈ w.files

theorem within_addFiles (w : Workspace) (place : Place) (fs : List (Place × List UInt8)) :
    w.Within (w.addFiles place fs) := ⟨List.sublist_append_left _ _, rfl, rfl, rfl⟩

theorem addFiles_within {fs fs' : List (Place × List UInt8)} (h : fs.Sublist fs') (w : Workspace) (place : Place) :
    (w.addFiles place fs).Within (w.addFiles place fs') := ⟨(h.map _).append_left _, rfl, rfl, rfl⟩

theorem holds_addFiles {b : Workspace} {root : Path} {place : Place} {fs : List (Place × List UInt8)}
    (hb : b.EmptyRoot root place) (hw : (b.addFiles place fs).WellFormed)
    (hwalk : (b.addFiles place fs).Walkable root place) : (b.addFiles place fs).Holds root place fs := by
  have hgrows := b.within_addFiles place fs
  have hfiles : ∀ f ∈ fs, (place ++ f.1, f.2) ∈ (b.addFiles place fs).files := fun f hf =>
    List.mem_append_right _ (List.mem_map_of_mem hf)
  refine ⟨hw, hgrows.locate hb.located, hgrows.isDirectory hb.directory, hwalk, ?_, hfiles⟩
  -- no added file is the directory itself
  have hproper : ∀ f ∈ fs, f.1 ≠ [] := by
    intro f hf hnil
    have hapart := hw.apart _ (hfiles f hf)
    rw [hnil, List.append_nil, hgrows.isDirectory hb.directory] at hapart
    cases hapart
  have hkept : (fs.map fun f => (place ++ f.1, f.2)).filter
      (fun f => place.isPrefixOf f.1 && decide (place.length < f.1.length)) = fs.map fun f => (place ++ f.1, f.2) := by
    refine List.filter_eq_self.mpr fun x hx => ?_
    obtain ⟨f, hf, rfl⟩ := List.mem_map.mp hx
    have hpos := List.length_pos_iff.mpr (hproper f hf)
    simp [hpos]
  have hold := hb.empty
  rw [Workspace.below] at hold
  rw [Workspace.below, addFiles, List.filter_append, List.map_append, hold, hkept, List.nil_append, List.map_map]
  exact List.map_congr_left fun f _ => List.drop_left

end Workspace

/-! ## The files of two sets -/

/-- The files of two sets are found in an order in which those of each set are as when they are found alone. -/
theorem splits_foundBelow {places₁ places₂ : List Place} (hnodup : (places₁ ++ places₂).Nodup) (root : Path)
    (languages : List Scalar) :
    Splits places₁.contains (foundBelow root languages (places₁ ++ places₂)) (foundBelow root languages places₁)
      (foundBelow root languages places₂) := by
  have hdisjoint := List.disjoint_of_nodup_append hnodup
  have hleft : (places₁ ++ places₂).filter places₁.contains = places₁ := by
    rw [List.filter_append, List.filter_eq_self.mpr (by simp),
      List.filter_eq_nil_iff.mpr fun a h₂ => by simpa using fun h₁ => hdisjoint h₁ h₂, List.append_nil]
  have hright : (places₁ ++ places₂).filter (!places₁.contains ·) = places₂ := by
    rw [List.filter_append, List.filter_eq_nil_iff.mpr (by simp),
      List.filter_eq_self.mpr fun a h₂ => by simpa using fun h₁ => hdisjoint h₁ h₂, List.nil_append]
  refine ⟨?_, ?_⟩
  · rw [foundBelow, List.filter_comm, filter_mergeSort_placeLe, hleft]
    rfl
  · rw [foundBelow, List.filter_comm, filter_mergeSort_placeLe, hright]
    rfl

/-- Three workspaces that are the same except for the files below a directory: those of the first set, those of the
second, and all. -/
structure Apart (w₁ w₂ w : Workspace) (root : Path) (place : Place) (fs₁ fs₂ : List (Place × List UInt8)) : Prop where
  left : w₁.Holds root place fs₁
  right : w₂.Holds root place fs₂
  both : w.Holds root place (fs₁ ++ fs₂)
  unreadable₁ : w.unreadable = w₁.unreadable
  unreadable₂ : w.unreadable = w₂.unreadable
  closed₁ : w.closed = w₁.closed
  closed₂ : w.closed = w₂.closed

open Workspace in
theorem Workspace.EmptyRoot.apart {b : Workspace} {root : Path} {place : Place} {fs₁ fs₂ : List (Place × List UInt8)}
    (hb : b.EmptyRoot root place) (hw : (b.addFiles place (fs₁ ++ fs₂)).WellFormed)
    (hwalk : (b.addFiles place (fs₁ ++ fs₂)).Walkable root place) :
    Apart (b.addFiles place fs₁) (b.addFiles place fs₂) (b.addFiles place (fs₁ ++ fs₂)) root place fs₁ fs₂ :=
  have hleft := addFiles_within (List.sublist_append_left fs₁ fs₂) b place
  have hright := addFiles_within (List.sublist_append_right fs₁ fs₂) b place
  { left := holds_addFiles hb (hleft.wellFormed hw) (hleft.walkable hwalk)
    right := holds_addFiles hb (hright.wellFormed hw) (hright.walkable hwalk)
    both := holds_addFiles hb hw hwalk
    unreadable₁ := rfl
    unreadable₂ := rfl
    closed₁ := rfl
    closed₂ := rfl }

namespace Workspace.Holds

variable {w w' : Workspace} {root : Path} {place : Place} {fs fs' : List (Place × List UInt8)}

theorem sourceFiles_eq (h : w.Holds root place fs) (languages : List Scalar) :
    sourceFiles w root languages = (foundBelow root languages (fs.map (·.1))).map root.append := by
  rw [sourceFiles_of_directory h.wellFormed h.located h.directory h.walkable, h.below]

theorem searched {path : String} (h : w.Holds (.ofString path) place fs) (languages : List Scalar) :
    Searched w path languages := (refusal_discover h.wellFormed h.located h.directory languages).mpr h.walkable

theorem declaredUnits_eq {path : String} (h : w.Holds (.ofString path) place fs) (g : Grammars)
    (languages : List Scalar) :
    declaredUnits w g path languages = (foundBelow (.ofString path) languages (fs.map (·.1))).flatMap fun rel =>
      fileUnits w g (Path.ofString path).toString ((Path.ofString path).append rel) := by
  rw [declaredUnits, foundFiles, h.sourceFiles_eq, moduleRootOf_of_directory h.wellFormed h.located h.directory,
    List.flatMap_map]

/-- A file that is in both workspaces is parsed alike. -/
theorem parseFile_eq (h : w.Holds root place fs) (h' : w'.Holds root place fs') (hsub : fs' ⊆ fs)
    (hunreadable : w.unreadable = w'.unreadable) (hclosed : w.closed = w'.closed) (g : Grammars)
    {languages : List Scalar} {rel : Place} (hrel : rel ∈ foundBelow root languages (fs'.map (·.1))) :
    parseFile w g (root.append rel) = parseFile w' g (root.append rel) := by
  obtain ⟨f, hf, rfl⟩ := List.mem_map.mp (List.mem_mergeSort.mp (List.mem_filter.mp hrel).1)
  exact parseFile_congr h.wellFormed h'.wellFormed h.located h'.located hunreadable hclosed
    (h.files f (hsub hf)) (h'.files f hf) g

end Workspace.Holds

/-! ## Failures of files -/

/-- The order in which files are found, by what is reported about them. -/
def Trouble.foundLe (a b : Trouble) : Bool := placeLe (Path.ofString a.target).parts (Path.ofString b.target).parts

theorem Trouble.foundLe_trans (a b c : Trouble) (hab : a.foundLe b = true) (hbc : b.foundLe c = true) :
    a.foundLe c = true := placeLe_trans _ _ _ hab hbc

theorem Trouble.foundLe_total (a b : Trouble) : (a.foundLe b || b.foundLe a) = true := placeLe_total _ _

/-- What is reported about files is in the order in which they are found. -/
theorem foundLe_eq {w : Workspace} {g : Grammars} {root : Path} (hroot : root.IsRead) {rel rel' : Place}
    (hrel : ∀ part ∈ rel, Path.IsPart part) (hrel' : ∀ part ∈ rel', Path.IsPart part) {a b : Trouble}
    (ha : fileTrouble? w g (root.append rel) = some a) (hb : fileTrouble? w g (root.append rel') = some b) :
    a.foundLe b = placeLe rel rel' := by
  rw [Trouble.foundLe, target_of_fileTrouble? ha, target_of_fileTrouble? hb,
    Path.ofString_toString (hroot.append hrel), Path.ofString_toString (hroot.append hrel')]
  exact placeLe_append _ _ _

namespace Workspace.Holds

variable {w : Workspace} {root : Path} {place : Place} {fs : List (Place × List UInt8)}

theorem isPart_of_mem (h : w.Holds root place fs) {languages : List Scalar} {rel : Place}
    (hrel : rel ∈ foundBelow root languages (fs.map (·.1))) : ∀ part ∈ rel, Path.IsPart part := by
  have hbelow : rel ∈ w.below place := by
    rw [h.below]
    exact List.mem_mergeSort.mp (List.mem_filter.mp hrel).1
  exact fun part hpart => (h.wellFormed.isFileName_of_below hbelow part hpart).1

/-- What is reported about the files below a directory, sorted by the order in which they are found. -/
theorem eq_mergeSort_of_perm (h : w.Holds root place fs) (hroot : root.IsRead) {g : Grammars} {languages : List Scalar}
    {es : List Trouble} (hperm : ((sourceFiles w root languages).filterMap (fileTrouble? w g)).Perm es) :
    (sourceFiles w root languages).filterMap (fileTrouble? w g) = es.mergeSort Trouble.foundLe := by
  rw [h.sourceFiles_eq, List.filterMap_map] at hperm ⊢
  have hplaces : (foundBelow root languages (fs.map (·.1))).Pairwise fun a b => placeLe a b = true :=
    (pairwise_mergeSort_placeLe _).filter _
  refine List.Perm.eq_of_pairwise ?_ ?_ (List.pairwise_mergeSort Trouble.foundLe_trans Trouble.foundLe_total es)
    (hperm.trans (List.mergeSort_perm es _).symm)
  · -- what is reported about one file is one thing
    intro a b ha hb hab hba
    obtain ⟨rel, hrel, ha⟩ := List.mem_filterMap.mp ha
    obtain ⟨rel', hrel', hb⟩ := List.mem_filterMap.mp (hperm.symm.subset (List.mem_mergeSort.mp hb))
    rw [foundLe_eq hroot (h.isPart_of_mem hrel) (h.isPart_of_mem hrel') ha hb] at hab
    rw [foundLe_eq hroot (h.isPart_of_mem hrel') (h.isPart_of_mem hrel) hb ha] at hba
    obtain rfl := placeLe_antisymm hab hba
    exact Option.some.inj (ha.symm.trans hb)
  · refine List.pairwise_filterMap.mpr (hplaces.imp_of_mem fun hrel hrel' hle a ha b hb => ?_)
    rw [foundLe_eq hroot (h.isPart_of_mem hrel) (h.isPart_of_mem hrel') ha hb]
    exact hle

end Workspace.Holds

/-! ## Reports -/

namespace Apart

variable {w₁ w₂ w : Workspace} {path : String} {place : Place} {fs₁ fs₂ : List (Place × List UInt8)}

theorem splits_files (h : Apart w₁ w₂ w (.ofString path) place fs₁ fs₂) (languages : List Scalar) :
    Splits (fs₁.map (·.1)).contains (foundBelow (.ofString path) languages ((fs₁ ++ fs₂).map (·.1)))
      (foundBelow (.ofString path) languages (fs₁.map (·.1)))
      (foundBelow (.ofString path) languages (fs₂.map (·.1))) := by
  have hnodup := Workspace.nodup_below h.both.wellFormed place
  rw [h.both.below, List.map_append] at hnodup
  rw [List.map_append]
  exact splits_foundBelow hnodup _ _

theorem parseFile_left (h : Apart w₁ w₂ w (.ofString path) place fs₁ fs₂) (g : Grammars) {languages : List Scalar}
    {rel : Place} (hrel : rel ∈ foundBelow (.ofString path) languages (fs₁.map (·.1))) :
    parseFile w g ((Path.ofString path).append rel) = parseFile w₁ g ((Path.ofString path).append rel) :=
  h.both.parseFile_eq h.left (List.subset_append_left _ _) h.unreadable₁ h.closed₁ g hrel

theorem parseFile_right (h : Apart w₁ w₂ w (.ofString path) place fs₁ fs₂) (g : Grammars) {languages : List Scalar}
    {rel : Place} (hrel : rel ∈ foundBelow (.ofString path) languages (fs₂.map (·.1))) :
    parseFile w g ((Path.ofString path).append rel) = parseFile w₂ g ((Path.ofString path).append rel) :=
  h.both.parseFile_eq h.right (List.subset_append_right _ _) h.unreadable₂ h.closed₂ g hrel

theorem countP_isParsed (h : Apart w₁ w₂ w (.ofString path) place fs₁ fs₂) (g : Grammars) (languages : List Scalar) :
    (foundFiles w path languages).countP (isParsed w g) =
      (foundFiles w₁ path languages).countP (isParsed w₁ g) +
        (foundFiles w₂ path languages).countP (isParsed w₂ g) := by
  rw [foundFiles, foundFiles, foundFiles, h.both.sourceFiles_eq, h.left.sourceFiles_eq, h.right.sourceFiles_eq,
    List.countP_map, List.countP_map, List.countP_map, (h.splits_files languages).countP]
  refine congrArg₂ (· + ·) ?_ ?_
  · refine List.countP_congr fun rel hrel => ?_
    rw [Function.comp_apply, isParsed_congr (h.parseFile_left g hrel)]
    rfl
  · refine List.countP_congr fun rel hrel => ?_
    rw [Function.comp_apply, isParsed_congr (h.parseFile_right g hrel)]
    rfl

/-- What is reported about the files of both sets, in the order in which they are found. -/
theorem fileErrors_eq (h : Apart w₁ w₂ w (.ofString path) place fs₁ fs₂) (g : Grammars) (languages : List Scalar) :
    (foundFiles w path languages).filterMap (fileTrouble? w g) =
      ((foundFiles w₁ path languages).filterMap (fileTrouble? w₁ g) ++
        (foundFiles w₂ path languages).filterMap (fileTrouble? w₂ g)).mergeSort Trouble.foundLe := by
  refine h.both.eq_mergeSort_of_perm (Path.isRead_ofString path) ?_
  rw [foundFiles, foundFiles, h.both.sourceFiles_eq, h.left.sourceFiles_eq, h.right.sourceFiles_eq, List.filterMap_map,
    List.filterMap_map, List.filterMap_map]
  refine ((h.splits_files languages).perm.filterMap _).trans ?_
  rw [List.filterMap_append]
  refine .of_eq (congrArg₂ _ ?_ ?_)
  · exact List.filterMap_congr fun rel hrel => fileTrouble?_congr (h.parseFile_left g hrel)
  · exact List.filterMap_congr fun rel hrel => fileTrouble?_congr (h.parseFile_right g hrel)

/-- The classes of all files, from those of the two sets. -/
theorem splits_declaredUnits (h : Apart w₁ w₂ w (.ofString path) place fs₁ fs₂) {g : Grammars} {languages : List Scalar}
    (hdisjoint : ∀ u ∈ declaredUnits w₁ g path languages, ∀ v ∈ declaredUnits w₂ g path languages,
      u.qualifiedName ≠ v.qualifiedName) :
    Splits (fun u => ((declaredUnits w₁ g path languages).map (·.qualifiedName)).contains u.qualifiedName)
      (declaredUnits w g path languages) (declaredUnits w₁ g path languages) (declaredUnits w₂ g path languages) := by
  have hleft := h.left.declaredUnits_eq g languages
  have hright := h.right.declaredUnits_eq g languages
  rw [h.both.declaredUnits_eq]
  refine (congrArg₂ (Splits _ _) hleft hright).mpr ?_
  refine (h.splits_files languages).flatMap (fun rel hrel => ?_) fun rel hrel => ?_
  · refine ⟨fileUnits_congr (h.parseFile_left g hrel) _, fun u hu => ?_⟩
    have hmem : u ∈ declaredUnits w₁ g path languages := hleft ▸ List.mem_flatMap.mpr ⟨rel, hrel, hu⟩
    simpa using ⟨u, hmem, rfl⟩
  · refine ⟨fileUnits_congr (h.parseFile_right g hrel) _, fun v hv => ?_⟩
    have hmem : v ∈ declaredUnits w₂ g path languages := hright ▸ List.mem_flatMap.mpr ⟨rel, hrel, hv⟩
    simpa using fun u hu => hdisjoint u hu v hmem

end Apart

/-- A report that is put together from two, when the failures of files and those of classes are told apart. -/
structure Combined (r₁ r₂ r : Report) (fileErrors₁ classErrors₁ fileErrors₂ classErrors₂ : List Trouble) : Prop where
  filesScanned : r.filesScanned = r₁.filesScanned + r₂.filesScanned
  classesFound : r.classesFound = r₁.classesFound + r₂.classesFound
  skipped : r.skipped = r₁.skipped + r₂.skipped
  /-- The measures of both, in the order of the names. -/
  measures : r.measures = (r₁.measures ++ r₂.measures).mergeSort (keyLe ClassMeasure.name)
  errors₁ : r₁.errors = fileErrors₁ ++ classErrors₁
  errors₂ : r₂.errors = fileErrors₂ ++ classErrors₂
  /-- The failures of files in the order in which the files are found, then those of classes by their names. -/
  errors : r.errors = (fileErrors₁ ++ fileErrors₂).mergeSort Trouble.foundLe ++
    (classErrors₁ ++ classErrors₂).mergeSort (keyLe Trouble.target)

theorem Apart.combined {w₁ w₂ w : Workspace} {path : String} {place : Place} {fs₁ fs₂ : List (Place × List UInt8)}
    (h : Apart w₁ w₂ w (.ofString path) place fs₁ fs₂) {g : Grammars} {s : ScanSettings}
    (hdisjoint : ∀ u ∈ declaredUnits w₁ g path s.languages, ∀ v ∈ declaredUnits w₂ g path s.languages,
      u.qualifiedName ≠ v.qualifiedName) :
    ∃ classErrors₁ classErrors₂, Combined (oneWorkerReport w₁ g path s .empty) (oneWorkerReport w₂ g path s .empty)
      (oneWorkerReport w g path s .empty)
      ((foundFiles w₁ path s.languages).filterMap (fileTrouble? w₁ g)) classErrors₁
      ((foundFiles w₂ path s.languages).filterMap (fileTrouble? w₂ g)) classErrors₂ := by
  have hunits := (h.splits_declaredUnits hdisjoint).mergePartial
  have hkept := hunits.filter s.policy.takes
  refine ⟨_, _, ?_, ?_, ?_, ?_, rfl, rfl, ?_⟩
  · exact congrArg Int.ofNat (h.countP_isParsed g s.languages)
  · exact congrArg Int.ofNat hunits.length
  · exact congrArg Int.ofNat (hunits.countP _)
  · exact measuresOf_eq_mergeSort hunits s.policy.takes
  · exact congrArg₂ _ (h.fileErrors_eq g s.languages) (hkept.troubles _).mergeSort_key

/-- **Scans of two sets of files**: with one worker that goes on after failures, from an empty store, the report for all
files is put together from the two reports. Languages that cannot be read leave all three scans without one, and so does
a search that does not come to its end the scan of all files; nothing else does. -/
theorem scan_union {b : Workspace} {path : String} {place : Place} (hb : b.EmptyRoot (.ofString path) place)
    {fs₁ fs₂ : List (Place × List UInt8)} (hw : (b.addFiles place (fs₁ ++ fs₂)).WellFormed) {c : Config}
    (hgo : c.failFast = .ok false) (hone : c.workers = .ok 1) {policy : Policy}
    (hpolicy : Policy.ofSection c.eligibility = .ok policy) (htexts : policy.HasTextPatterns) {g : Grammars}
    (hdisjoint : ∀ ls, c.languages = .ok ls → ∀ u ∈ declaredUnits (b.addFiles place fs₁) g path ls,
      ∀ v ∈ declaredUnits (b.addFiles place fs₂) g path ls, u.qualifiedName ≠ v.qualifiedName) (schedule : Schedule) :
    (∃ e, c.languages = .error e ∧ ∀ fs,
        scan schedule (b.addFiles place fs) g c path .empty = (⟨.empty, []⟩, .error (.config e))) ∨
      (∃ ls r log, c.languages = .ok ls ∧
        (discover (b.addFiles place (fs₁ ++ fs₂)) (.ofString path) ls).refusal = some r ∧
        scan schedule (b.addFiles place (fs₁ ++ fs₂)) g c path .empty = (⟨.empty, log⟩, .error (.refused r))) ∨
      ∃ ls p₁ r₁ p₂ r₂ p r fileErrors₁ classErrors₁ fileErrors₂ classErrors₂, c.languages = .ok ls ∧
        scan schedule (b.addFiles place fs₁) g c path .empty = (p₁, .ok r₁) ∧
        scan schedule (b.addFiles place fs₂) g c path .empty = (p₂, .ok r₂) ∧
        scan schedule (b.addFiles place (fs₁ ++ fs₂)) g c path .empty = (p, .ok r) ∧
        fileErrors₁ = (foundFiles (b.addFiles place fs₁) path ls).filterMap (fileTrouble? (b.addFiles place fs₁) g) ∧
        fileErrors₂ = (foundFiles (b.addFiles place fs₂) path ls).filterMap (fileTrouble? (b.addFiles place fs₂) g) ∧
        (fileErrors₁ ++ fileErrors₂).mergeSort Trouble.foundLe =
          (foundFiles (b.addFiles place (fs₁ ++ fs₂)) path ls).filterMap
            (fileTrouble? (b.addFiles place (fs₁ ++ fs₂)) g) ∧
        Combined r₁ r₂ r fileErrors₁ classErrors₁ fileErrors₂ classErrors₂ := by
  have hlocated : ∀ fs, (b.addFiles place fs).locate (.ofString path) = .ok (.inside place) := fun fs =>
    (b.within_addFiles place fs).locate hb.located
  have hs := fun fs => ScanSettings.ofConfig_eq hpolicy hgo hone (b.addFiles place fs) (.ofString path)
  simp only [Workspace.refusal?, hlocated] at hs
  rcases hl : c.languages with e | ls
  · rw [hl] at hs
    exact .inl ⟨e, rfl, fun fs => scan_of_unreadable (hs fs)⟩
  rw [hl] at hs
  rcases hsearch : (discover (b.addFiles place (fs₁ ++ fs₂)) (.ofString path) ls).refusal with _ | r
  · have hdir := (b.within_addFiles place (fs₁ ++ fs₂)).isDirectory hb.directory
    have hapart := hb.apart hw ((refusal_discover hw (hlocated _) hdir ls).mp hsearch)
    have hscan : ∀ {fs}, (b.addFiles place fs).Holds (.ofString path) place fs → ∃ log,
        scan schedule (b.addFiles place fs) g c path .empty = (⟨_, log⟩, .ok (oneWorkerReport _ g path _ .empty)) :=
      fun hfs => scan_one_worker hfs.wellFormed (hs _) rfl (hfs.searched ls) rfl htexts schedule .empty
    obtain ⟨log₁, hscan₁⟩ := hscan hapart.left
    obtain ⟨log₂, hscan₂⟩ := hscan hapart.right
    obtain ⟨log, hscan⟩ := hscan hapart.both
    obtain ⟨classErrors₁, classErrors₂, hcombined⟩ :=
      hapart.combined (s := ⟨policy, false, 1, ls⟩) (hdisjoint ls hl)
    exact .inr (.inr ⟨ls, _, _, _, _, _, _, _, classErrors₁, _, classErrors₂, rfl, hscan₁, hscan₂, hscan, rfl, rfl,
      (hapart.fileErrors_eq g ls).symm, hcombined⟩)
  · obtain ⟨log, hscan⟩ := scan_of_refusal (s := ⟨policy, false, 1, ls⟩) (allNamed_foundFiles hw g path ls) (hs _) rfl
      hsearch schedule .empty
    exact .inr (.inl ⟨ls, r, log, rfl, hsearch, hscan⟩)

/-! One set has the class of the example workspace that is measured, the other a file that cannot be read. -/

namespace Denied

def base : Workspace := { unreadable := [(["y", "B.java"], "[Errno 13] Permission denied")] }

def measuredFiles : List (Place × List UInt8) := [(["z", "A.java"], Shadowed.catchBytes)]

def deniedFiles : List (Place × List UInt8) := [(["y", "B.java"], Shadowed.plainBytes)]

theorem emptyRoot_base : base.EmptyRoot (.ofString ".") [] := by
  refine ⟨?_, rfl, rfl⟩
  rw [Workspace.locate, String.contains_char_eq]
  decide

theorem wellFormed_both : (base.addFiles [] (measuredFiles ++ deniedFiles)).WellFormed := by decide

theorem walkable_both : (base.addFiles [] (measuredFiles ++ deniedFiles)).Walkable (.ofString ".") [] := by
  decide

theorem parse_denied (g : Grammars) :
    ∃ e, parseFile (base.addFiles [] deniedFiles) g ⟨"", ["y", "B.java"]⟩ = .error e := by
  have hplace : (base.addFiles [] deniedFiles).locate ⟨"", ["y", "B.java"]⟩ = .ok (.inside ["y", "B.java"]) := by
    rw [Workspace.locate, String.contains_char_eq]
    decide
  rw [parseFile, Workspace.read, hplace]
  exact ⟨_, rfl⟩

theorem declaredUnits_denied (g : Grammars) (languages : List Scalar) :
    declaredUnits (base.addFiles [] deniedFiles) g "." languages = [] := by
  rw [(emptyRoot_base.apart wellFormed_both walkable_both).right.declaredUnits_eq, List.flatMap_eq_nil_iff]
  intro rel hrel
  obtain rfl : rel = ["y", "B.java"] := by
    simpa [deniedFiles] using List.mem_mergeSort.mp (List.mem_filter.mp hrel).1
  obtain ⟨e, he⟩ := parse_denied g
  exact fileUnits_of_error he

end Denied

/-- The report for both files is put together from that of the measured class and that of the failure. -/
theorem scan_union_denied :
    Denied.base.EmptyRoot (.ofString ".") [] ∧
      (Denied.base.addFiles [] (Denied.measuredFiles ++ Denied.deniedFiles)).WellFormed ∧
      ∃ p₁ r₁ p₂ r₂ p r fileErrors₁ classErrors₁ fileErrors₂ classErrors₂,
        scan .inOrder (Denied.base.addFiles [] Denied.measuredFiles) Shadowed.grammars .default "." .empty =
          (p₁, .ok r₁) ∧
        scan .inOrder (Denied.base.addFiles [] Denied.deniedFiles) Shadowed.grammars .default "." .empty =
          (p₂, .ok r₂) ∧
        scan .inOrder (Denied.base.addFiles [] (Denied.measuredFiles ++ Denied.deniedFiles)) Shadowed.grammars .default
          "." .empty = (p, .ok r) ∧
        Combined r₁ r₂ r fileErrors₁ classErrors₁ fileErrors₂ classErrors₂ := by
  refine ⟨Denied.emptyRoot_base, Denied.wellFormed_both, ?_⟩
  rcases scan_union Denied.emptyRoot_base Denied.wellFormed_both (c := .default) (g := Shadowed.grammars) rfl rfl rfl
      Policy.hasTextPatterns_default (fun ls _ u _ v hv => by simp [Denied.declaredUnits_denied] at hv) .inOrder with
    ⟨e, he, -⟩ | ⟨ls, r, log, -, hr, -⟩ | ⟨-, p₁, r₁, p₂, r₂, p, r, f₁, c₁, f₂, c₂, -, h₁, h₂, h, -, -, -, hcombined⟩
  · cases he
  · have hboth := (Denied.emptyRoot_base.apart Denied.wellFormed_both Denied.walkable_both).both
    cases hr.symm.trans (hboth.searched ls)
  · exact ⟨p₁, r₁, p₂, r₂, p, r, f₁, c₁, f₂, c₂, h₁, h₂, h, hcombined⟩

end HandlerComplexity
