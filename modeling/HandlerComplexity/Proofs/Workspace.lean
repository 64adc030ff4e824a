import HandlerComplexity.Proofs.Path
import HandlerComplexity.Scan

/-!
# Well-formed workspaces

A disk has no file without a name, no two files at one place and no file that is also a directory. In a workspace like
this every source file that is found is a module of the source root, so a scan never meets a path without a name.

* `Workspace.WellFormed`: what every disk promises.
* `mem_sourceFiles`: where the source files of a root come from.
* `exists_units_of_parseFile`: the classes of a source file that is found can be named.
-/

namespace HandlerComplexity

namespace Workspace

/-- A name that a file or a directory can have. -/
def IsFileName (name : String) : Prop := Path.IsPart name ∧ name ≠ ".." ∧ name.utf8ByteSize ≤ nameLimit

/-- What every disk promises: files have proper names, each is at a place of its own, and none is a directory. -/
structure WellFormed (w : Workspace) : Prop where
  names : ∀ f ∈ w.files, ∀ part ∈ f.1, IsFileName part
  distinct : (w.files.map (·.1)).Nodup
  apart : ∀ f ∈ w.files, w.isDirectory f.1 = false

instance (name : String) : Decidable (IsFileName name) :=
  inferInstanceAs (Decidable ((_ ∧ _ ∧ _) ∧ _ ∧ _))

instance (w : Workspace) : Decidable w.WellFormed :=
  decidable_of_iff
    ((∀ f ∈ w.files, ∀ part ∈ f.1, IsFileName part) ∧ (w.files.map (·.1)).Nodup ∧
      ∀ f ∈ w.files, w.isDirectory f.1 = false)
    ⟨fun ⟨hnames, hdistinct, hapart⟩ => ⟨hnames, hdistinct, hapart⟩,
      fun ⟨hnames, hdistinct, hapart⟩ => ⟨hnames, hdistinct, hapart⟩⟩

/-- A place with a file is one of the files. -/
theorem mem_files_of_file? {w : Workspace} {place : Place} {bytes : List UInt8} (h : w.file? place = some bytes) :
    (place, bytes) ∈ w.files := by
  obtain ⟨l₁, l₂, hfiles, -⟩ := List.lookup_eq_some_iff.mp h
  rw [hfiles]
  simp

theorem mem_below {w : Workspace} {place rel : Place} :
    rel ∈ w.below place ↔ rel ≠ [] ∧ ∃ bytes, (place ++ rel, bytes) ∈ w.files := by
  simp only [below, List.mem_map, List.mem_filter, Bool.and_eq_true, decide_eq_true_eq, List.isPrefixOf_iff_prefix]
  constructor
  · rintro ⟨⟨full, bytes⟩, ⟨hmem, ⟨more, rfl⟩, hlt⟩, rfl⟩
    rw [List.drop_left]
    rw [List.length_append] at hlt
    refine ⟨?_, bytes, hmem⟩
    rintro rfl
    simp at hlt
  · rintro ⟨hne, bytes, hmem⟩
    have hpos := List.length_pos_iff.mpr hne
    refine ⟨(place ++ rel, bytes), ⟨hmem, List.prefix_append _ _, ?_⟩, List.drop_left⟩
    rw [List.length_append]
    omega

theorem mem_ways {rel way : Place} : way ∈ ways rel ↔ way ≠ [] ∧ way <+: rel := by
  induction rel generalizing way with
  | nil => simp [ways]
  | cons part rel ih =>
    simp only [ways, List.mem_cons, List.mem_map, ih, List.prefix_cons_iff]
    constructor
    · rintro (rfl | ⟨rest, ⟨-, hrest⟩, rfl⟩)
      · exact ⟨List.cons_ne_nil _ _, .inr ⟨[], rfl, List.nil_prefix⟩⟩
      · exact ⟨List.cons_ne_nil _ _, .inr ⟨rest, rfl, hrest⟩⟩
    · rintro ⟨hne, rfl | ⟨rest, rfl, hrest⟩⟩
      · exact absurd rfl hne
      · rcases rest.eq_nil_or_concat with rfl | ⟨_, _, rfl⟩
        · exact .inl rfl
        · exact .inr ⟨_, ⟨by simp, hrest⟩, rfl⟩

/-- What is listed below a directory lies on the way to a place that is known. -/
theorem mem_entriesBelow {w : Workspace} {place rel : Place} :
    rel ∈ w.entriesBelow place ↔
      rel ≠ [] ∧ ∃ q ∈ w.files.map (·.1) ++ w.directories ++ w.home.toList, place ++ rel <+: q := by
  simp only [entriesBelow, List.mem_eraseDups, List.mem_flatMap, List.mem_filter, List.isPrefixOf_iff_prefix, mem_ways]
  constructor
  · rintro ⟨q, ⟨hq, more, rfl⟩, hne, hway⟩
    rw [List.drop_left] at hway
    exact ⟨hne, _, hq, (List.prefix_append_right_inj place).mpr hway⟩
  · rintro ⟨hne, q, hq, hway⟩
    obtain ⟨more, rfl⟩ := (List.prefix_append place rel).trans hway
    refine ⟨_, ⟨hq, List.prefix_append _ _⟩, hne, ?_⟩
    rw [List.drop_left]
    exact (List.prefix_append_right_inj place).mp hway

/-- A file is listed with the directories on the way to it. -/
theorem mem_entriesBelow_of_below {w : Workspace} {place rel : Place} (h : rel ∈ w.below place) :
    rel ∈ w.entriesBelow place := by
  obtain ⟨hne, bytes, hmem⟩ := mem_below.mp h
  have hknown : place ++ rel ∈ w.files.map (·.1) := List.mem_map_of_mem hmem
  exact mem_entriesBelow.mpr
    ⟨hne, _, List.mem_append_left _ (List.mem_append_left _ hknown), List.prefix_refl _⟩

theorem mem_below_of_entry {w : Workspace} {place rel : Place} (h : rel ∈ w.entriesBelow place)
    (hfile : (w.file? (place ++ rel)).isSome = true) : rel ∈ w.below place := by
  obtain ⟨bytes, hbytes⟩ := Option.isSome_iff_exists.mp hfile
  exact mem_below.mpr ⟨(mem_entriesBelow.mp h).1, bytes, mem_files_of_file? hbytes⟩

/-- The names on the way to a file below a directory are proper. -/
theorem WellFormed.isFileName_of_below {w : Workspace} (hw : w.WellFormed) {place rel : Place}
    (h : rel ∈ w.below place) : ∀ part ∈ rel, IsFileName part := by
  obtain ⟨-, bytes, hmem⟩ := mem_below.mp h
  intro part hpart
  exact hw.names _ hmem part (List.mem_append_right _ hpart)

/-- A path begins at a directory. -/
theorem isDirectory_of_start {w : Workspace} {p : Path} {place : Place} (h : w.start p = .inside place) :
    w.isDirectory place = true := by
  unfold start at h
  split_ifs at h with hroot hhome
  · obtain rfl := Spot.inside.inj h
    cases hw : w.home with
    | none => simp [isDirectory]
    | some home => simp [isDirectory, hw]
  · obtain rfl := Spot.inside.inj h
    simp [isDirectory]

/-- A path that leads to a file has a last part. -/
theorem WellFormed.parts_ne_nil {w : Workspace} (hw : w.WellFormed) {root : Path} {place : Place} {bytes : List UInt8}
    (hplace : w.locate root = .ok (.inside place)) (hfile : w.file? place = some bytes) : root.parts ≠ [] := by
  intro hnil
  have hstart : w.start root = .inside place := by
    rw [locate, hnil, List.foldlM_nil] at hplace
    split_ifs at hplace
    exact Except.ok.inj hplace
  have hapart := hw.apart _ (mem_files_of_file? hfile)
  rw [isDirectory_of_start hstart] at hapart
  cases hapart

end Workspace

/-! ## Files that are found -/

section Search

variable {w : Workspace} {root p : Path} {place : Place} {languages : List Scalar}

theorem mem_files_look {rels : List Place} (h : p ∈ (look w root place languages rels).files) :
    ∃ rel ∈ rels, isSource w root place languages rel = true ∧ p = root.append rel := by
  induction rels with
  | nil => cases h
  | cons rel rels ih =>
    have hrest : p ∈ (look w root place languages rels).files →
        ∃ rel' ∈ rel :: rels, isSource w root place languages rel' = true ∧ p = root.append rel' := by
      intro hp
      obtain ⟨rel', hrel', hsource⟩ := ih hp
      exact ⟨rel', List.mem_cons_of_mem _ hrel', hsource⟩
    rw [look] at h
    split at h
    · cases h
    · dsimp only at h
      split_ifs at h with hsource
      · rcases List.mem_cons.mp h with rfl | hp
        · exact ⟨rel, List.mem_cons_self, hsource, rfl⟩
        · exact hrest hp
      · exact hrest h

theorem mem_files_searchDirectory (h : p ∈ (searchDirectory w root place languages).files) :
    ∃ rel ∈ w.below place, p = root.append rel := by
  unfold searchDirectory at h
  dsimp only at h
  split at h
  · cases h
  · obtain ⟨rel, hrel, hsource, rfl⟩ := mem_files_look h
    simp only [isSource, Bool.and_eq_true] at hsource
    exact ⟨rel, Workspace.mem_below_of_entry (List.mem_mergeSort.mp hrel) hsource.1.1, rfl⟩

/-- A source file that is found is the root itself, if that is a file, or a file below the root, if that is a
directory. -/
theorem mem_sourceFiles (h : p ∈ sourceFiles w root languages) :
    ∃ place rel, w.locate root = .ok (.inside place) ∧ p = root.append rel ∧
      ((rel = [] ∧ ∃ bytes, w.file? place = some bytes) ∨ (w.at? place = some .directory ∧ rel ∈ w.below place)) := by
  unfold sourceFiles discover at h
  split at h
  · cases h
  next place _ hplace =>
    split at h
    next bytes hat =>
      obtain ⟨rel, hrel, -, rfl⟩ := mem_files_look h
      refine ⟨place, rel, hplace, rfl, .inl ⟨List.mem_singleton.mp hrel, ?_⟩⟩
      unfold Workspace.at? at hat
      split at hat
      next bytes hbytes => exact ⟨bytes, hbytes⟩
      next =>
        split_ifs at hat
        cases hat
    next hat =>
      obtain ⟨rel, hrel, rfl⟩ := mem_files_searchDirectory h
      exact ⟨place, rel, hplace, rfl, .inr ⟨hat, hrel⟩⟩
    next => cases h
  · cases h

end Search

/-- Every source file that is found is a module. -/
theorem moduleName_of_mem_sourceFiles {w : Workspace} (hw : w.WellFormed) {root p : Path} (hroot : root.IsRead)
    {languages : List Scalar} (h : p ∈ sourceFiles w root languages) :
    ∃ name, moduleName p.toString (some (moduleRootOf w root).toString) = .ok name := by
  obtain ⟨place, rel, hplace, rfl, ⟨rfl, bytes, hfile⟩ | ⟨hdir, hbelow⟩⟩ := mem_sourceFiles h
  · -- the root is a file: it is the one below its parent
    have hparent : moduleRootOf w root = root.parent := by
      rw [moduleRootOf, Workspace.entry?, hplace]
      simp only [Workspace.at?, hfile]
    have hne := hw.parts_ne_nil hplace hfile
    have hsplit : root.append [] = root.parent.append [root.parts.getLast hne] := by
      simp only [Path.append, Path.parent, List.append_nil, List.dropLast_append_getLast]
    rw [hparent, hsplit]
    refine moduleName_below hroot.parent (by simp) ?_
    rintro part hpart
    obtain rfl := List.mem_singleton.mp hpart
    exact hroot.parts _ (List.getLast_mem hne)
  · have hown : moduleRootOf w root = root := by
      rw [moduleRootOf, Workspace.entry?, hplace]
      simp only [hdir]
    rw [hown]
    exact moduleName_below hroot (Workspace.mem_below.mp hbelow).1 fun part hpart =>
      (hw.isFileName_of_below hbelow part hpart).1

theorem SourceFile.path_of_parse {g : Grammars} {language path : String} {bytes : List UInt8} {f : SourceFile}
    (h : SourceFile.parse g language path bytes = .ok f) : f.path = path := by
  unfold SourceFile.parse at h
  split at h
  · cases h
  · split at h
    · cases h
    · split at h
      · cases h
      · cases h
        rfl

-- sealed, so that the match is not opened by evaluating the parser on a path that is not known
seal SourceFile.parse in
theorem path_of_parseFile {w : Workspace} {g : Grammars} {p : Path} {f : SourceFile} (h : parseFile w g p = .ok f) :
    f.path = p.toString := by
  unfold parseFile at h
  dsimp only at h
  split at h
  · cases h
  · exact SourceFile.path_of_parse h

/-- **The classes of a source file that is found can be named.** -/
theorem exists_units_of_parseFile {w : Workspace} (hw : w.WellFormed) {root p : Path} (hroot : root.IsRead)
    {languages : List Scalar} (h : p ∈ sourceFiles w root languages) {g : Grammars} {f : SourceFile}
    (hf : parseFile w g p = .ok f) : ∃ units, f.units (some (moduleRootOf w root).toString) = .ok units := by
  obtain ⟨name, hname⟩ := moduleName_of_mem_sourceFiles hw hroot h
  have htop : ∃ top, f.topName (some (moduleRootOf w root).toString) = .ok top := by
    rw [SourceFile.topName, path_of_parseFile hf]
    split_ifs
    · exact ⟨name, hname⟩
    · exact ⟨_, rfl⟩
  obtain ⟨top, htop⟩ := htop
  rw [SourceFile.units, htop]
  exact ⟨_, rfl⟩

end HandlerComplexity
