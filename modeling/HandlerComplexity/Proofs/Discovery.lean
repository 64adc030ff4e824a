import HandlerComplexity.Proofs.Directory

/-!
# What discovery finds

Below a root, the source files are the files of the enabled languages that can be reached without entering an ignored
directory, in the order of their components. What lies below one directory is a piece of this list without gaps: a path
between two paths with the same beginning has that beginning too. The piece is what the directory itself stands for.

* `IsFound`: the files that a root stands for, with no word about how they are looked for.
* `mem_foundBelow`, `pairwise_foundBelow`: they are found, each once and in order.
* `exists_piece_of_convex`, `prefix_of_between`: why what lies below a directory is a piece of the list.
* `filter_foundBelow`: the piece is what is found from the directory.
* `sourceFiles_exact_and_local`: all of it for the files that a path stands for.
-/

namespace HandlerComplexity

/-! ## Languages by extension -/

/-- Whether the name of a file ends in one of the extensions of a language, in any letter case. -/
def Language.Extends (l : Language) (p : Path) : Prop :=
  String.ofList (p.suffix.toList.map Char.toLower) ∈ l.extensions

/-- No extension belongs to two languages. -/
theorem Language.eq_of_mem_extensions {l l' : Language} {e : String} (h : e ∈ l.extensions) (h' : e ∈ l'.extensions) :
    l = l' := by
  have hall : ∀ e ∈ l.extensions, e ∈ l'.extensions → l = l' := by cases l <;> cases l' <;> decide
  exact hall e h h'

theorem Language.ofPath?_eq_some_iff {p : Path} (hp : p.IsRead) {l : Language} :
    Language.ofPath? p.toString = some l ↔ l.Extends p := by
  rw [ofPath?, Path.ofString_toString hp, Extends]
  generalize String.ofList (p.suffix.toList.map Char.toLower) = e
  constructor
  · intro h
    simpa using List.find?_some h
  · intro h
    have hl : l ∈ all := by cases l <;> decide
    cases hfind : all.find? (·.extensions.contains e) with
    | none => exact absurd (List.find?_eq_none.mp hfind l hl) (by simpa using h)
    | some l' => rw [eq_of_mem_extensions h (by simpa using List.find?_some hfind)]

theorem isEnabled_iff {languages : List Scalar} {p : Path} (hp : p.IsRead) :
    isEnabled languages p = true ↔ ∃ l : Language, .text l.name ∈ languages ∧ l.Extends p := by
  have hlanguage : ∀ l, Language.ofPath? p.toString = some l ↔ l.Extends p := fun l => Language.ofPath?_eq_some_iff hp
  unfold isEnabled
  generalize Language.ofPath? p.toString = found at hlanguage ⊢
  simp only [← hlanguage]
  cases found with
  | none => simp
  | some l => simp

/-! ## Files that are found -/

/-- A file that is found below a root at a place: it is there, no directory on the way to it is ignored, and its
extension belongs to an enabled language. -/
structure IsFound (w : Workspace) (root : Path) (place : Place) (languages : List Scalar) (rel : Place) : Prop where
  isFile : rel ≠ [] ∧ ∃ bytes, (place ++ rel, bytes) ∈ w.files
  entered : ∀ part ∈ rel.dropLast, part ∉ ignoredDirectories
  enabled : ∃ l : Language, .text l.name ∈ languages ∧ l.Extends (root.append rel)

theorem isIgnored_eq_false_iff {rel : Place} :
    isIgnored rel = false ↔ ∀ part ∈ rel.dropLast, part ∉ ignoredDirectories := by
  simp [isIgnored]

theorem isIgnored_append (d : Place) {rel : Place} (hne : rel ≠ []) :
    isIgnored (d ++ rel) = (d.any ignoredDirectories.contains || isIgnored rel) := by
  rw [isIgnored, List.dropLast_append_of_ne_nil hne, List.any_append, isIgnored]

section Found

variable {w : Workspace} (hw : w.WellFormed) {root : Path} (hread : root.IsRead) (place : Place)
  (languages : List Scalar)

include hw hread in
theorem mem_foundBelow {rel : Place} :
    rel ∈ foundBelow root languages (w.below place) ↔ IsFound w root place languages rel := by
  rw [foundBelow, List.mem_filter, List.mem_mergeSort, Bool.and_eq_true, Bool.not_eq_true', isIgnored_eq_false_iff]
  constructor
  · rintro ⟨hmem, hentered, henabled⟩
    have hpath := hread.append fun part hpart => (hw.isFileName_of_below hmem part hpart).1
    exact ⟨Workspace.mem_below.mp hmem, hentered, (isEnabled_iff hpath).mp henabled⟩
  · rintro ⟨hfile, hentered, henabled⟩
    have hmem := Workspace.mem_below.mpr hfile
    have hpath := hread.append fun part hpart => (hw.isFileName_of_below hmem part hpart).1
    exact ⟨hmem, hentered, (isEnabled_iff hpath).mpr henabled⟩

/-- The order of discovery is the lexicographic order of the components. -/
theorem lt_of_placeLe {a b : Place} (hle : placeLe a b = true) (hne : a ≠ b) : a < b := by
  induction a generalizing b with
  | nil =>
    cases b with
    | nil => exact absurd rfl hne
    | cons => exact List.nil_lt_cons _ _
  | cons x as ih =>
    cases b with
    | nil => cases hle
    | cons y bs =>
      rw [List.cons_lt_cons_iff]
      have hxy := head_le_of_placeLe hle
      rw [placeLe_cons] at hle
      split_ifs at hle with heq
      · exact .inr ⟨heq, ih hle fun hrest => hne (by rw [heq, hrest])⟩
      · exact .inl (String.not_le.mp fun hyx => heq (String.le_antisymm hxy hyx))

theorem append_lt_append (c : List String) {a b : Place} (h : a < b) : c ++ a < c ++ b := by
  induction c with
  | nil => exact h
  | cons x c ih => exact List.cons_lt_cons_iff.mpr (.inr ⟨rfl, ih⟩)

include hw in
theorem pairwise_foundBelow : (foundBelow root languages (w.below place)).Pairwise (· < ·) := by
  have hnodup : ((w.below place).mergeSort placeLe).Pairwise (· ≠ ·) :=
    (List.mergeSort_perm _ _).nodup_iff.mpr (w.nodup_below hw place)
  refine List.Pairwise.filter _ (((pairwise_mergeSort_placeLe _).and hnodup).imp ?_)
  exact fun h => lt_of_placeLe h.1 h.2

end Found

/-! ## Pieces of an ordered list -/

/-- In an ordered list, what satisfies a property that passes to everything between is a piece without gaps. By
induction on the list: if the first element has the property and a later one does too, so does everything between. -/
theorem exists_piece_of_convex {α : Type} {r : α → α → Prop} {p : α → Bool}
    (hconvex : ∀ a b c, r a b → r b c → p a = true → p c = true → p b = true) {l : List α} (hl : l.Pairwise r) :
    ∃ before after, l = before ++ l.filter p ++ after ∧ ∀ a ∈ before ++ after, p a = false := by
  induction l with
  | nil => exact ⟨[], [], rfl, fun a ha => nomatch ha⟩
  | cons a l ih =>
    obtain ⟨ha, hl⟩ := List.pairwise_cons.mp hl
    obtain ⟨before, after, hsplit, hout⟩ := ih hl
    by_cases hpa : p a = true
    · rw [List.filter_cons_of_pos hpa]
      cases hpiece : l.filter p with
      | nil =>
        refine ⟨[], l, by simp, fun b hb => ?_⟩
        exact Bool.eq_false_iff.mpr (List.filter_eq_nil_iff.mp hpiece b hb)
      | cons c piece =>
        -- nothing can stand between the first element and the piece
        cases before with
        | nil =>
          rw [hpiece] at hsplit
          exact ⟨[], after, by rw [hsplit]; rfl, hout⟩
        | cons b before =>
          exfalso
          rw [hpiece] at hsplit
          rw [hsplit] at ha hl
          have hbc : r b c := (List.pairwise_cons.mp hl).1 c (by simp)
          have hpc : p c = true := (List.mem_filter.mp (hpiece ▸ List.mem_cons_self : c ∈ l.filter p)).2
          have hpb := hconvex a b c (ha b (by simp)) hbc hpa hpc
          rw [hout b (by simp)] at hpb
          cases hpb
    · rw [List.filter_cons_of_neg hpa]
      refine ⟨a :: before, after, by rw [List.cons_append, List.cons_append, ← hsplit], ?_⟩
      rintro b hb
      rcases List.mem_cons.mp hb with rfl | hb
      · exact Bool.eq_false_iff.mpr hpa
      · exact hout b hb

/-- A path between two paths below a directory lies below it too. -/
theorem prefix_of_between {d a b c : Place} (hab : a < b) (hbc : b < c) (ha : d <+: a) (hc : d <+: c) : d <+: b := by
  induction d generalizing a b c with
  | nil => exact List.nil_prefix
  | cons x d ih =>
    obtain ⟨a, rfl⟩ := ha
    obtain ⟨c, rfl⟩ := hc
    cases b with
    | nil => exact absurd hab (List.not_lt_nil _)
    | cons y b =>
      rw [List.cons_append, List.cons_lt_cons_iff] at hab hbc
      rcases hab with hxy | ⟨rfl, hab⟩
      · rcases hbc with hyx | ⟨rfl, -⟩
        · exact absurd hyx (String.lt_asymm hxy)
        · exact absurd hxy (String.lt_irrefl _)
      · rcases hbc with hyx | ⟨-, hbc⟩
        · exact absurd hyx (String.lt_irrefl _)
        · exact List.cons_prefix_cons.mpr ⟨rfl, ih hab hbc (List.prefix_append d a) (List.prefix_append d c)⟩

/-! ## Directories below a root -/

theorem Path.append_append (p : Path) (a b : List String) : (p.append a).append b = p.append (a ++ b) := by
  simp only [append, List.append_assoc]

/-- A path lies below another if it continues it. -/
def Path.LiesBelow (p base : Path) : Prop := ∃ rel, p = base.append rel

theorem Path.liesBelow_append_iff {root : Path} {d rel : Place} :
    (root.append rel).LiesBelow (root.append d) ↔ d <+: rel := by
  constructor
  · rintro ⟨more, hmore⟩
    rw [append_append] at hmore
    exact ⟨more, (List.append_cancel_left (congrArg Path.parts hmore)).symm⟩
  · rintro ⟨more, rfl⟩
    exact ⟨more, (append_append ..).symm⟩

namespace Workspace

variable {w : Workspace}

/-- The files below a directory within a directory. -/
theorem filter_below (hw : w.WellFormed) {place d : Place} (hdir : w.isDirectory (place ++ d) = true) :
    (w.below place).filter d.isPrefixOf = (w.below (place ++ d)).map (d ++ ·) := by
  refine List.map_injective_iff.mpr (List.append_right_injective place) ?_
  have hshift : ∀ rel, (place ++ d).isPrefixOf (place ++ rel) = d.isPrefixOf rel := by
    intro rel
    rw [Bool.eq_iff_iff, List.isPrefixOf_iff_prefix, List.isPrefixOf_iff_prefix, List.prefix_append_right_inj]
  have hleft : ((w.below place).filter d.isPrefixOf).map (place ++ ·) =
      ((w.below place).map (place ++ ·)).filter (place ++ d).isPrefixOf := by
    rw [List.filter_map]
    exact congrArg _ (List.filter_congr fun rel _ => (hshift rel).symm)
  have hright : ((w.below (place ++ d)).map (d ++ ·)).map (place ++ ·) =
      (w.below (place ++ d)).map ((place ++ d) ++ ·) := by
    rw [List.map_map]
    exact List.map_congr_left fun rel _ => (List.append_assoc ..).symm
  rw [hleft, hright, map_append_below, map_append_below, List.filter_filter]
  refine List.filter_congr fun f hf => ?_
  rw [Bool.eq_iff_iff]
  simp only [Bool.and_eq_true, List.isPrefixOf_iff_prefix, decide_eq_true_eq, List.length_append]
  constructor
  · rintro ⟨⟨rel, rfl⟩, -⟩
    -- the directory itself is no file
    have hrel : rel ≠ [] := by
      rintro rfl
      obtain ⟨g, hg, hplace⟩ := List.mem_map.mp hf
      have hapart := hw.apart g hg
      rw [hplace, List.append_nil, hdir] at hapart
      cases hapart
    have hpos := List.length_pos_iff.mpr hrel
    exact ⟨List.prefix_append _ _, by simp only [List.length_append]; omega⟩
  · rintro ⟨hbelow, hlt⟩
    exact ⟨hbelow, (List.prefix_append _ _).trans hbelow, by omega⟩

/-- Proper names lead from a place to the place with these names behind it. -/
theorem foldlM_step_names {d : Place} (hnames : ∀ part ∈ d, IsFileName part) {place : Place} {spot : Spot}
    (h : d.foldlM w.step (.inside place) = .ok spot) : spot = .inside (place ++ d) := by
  induction d generalizing place with
  | nil =>
    rw [List.append_nil]
    exact (Except.ok.inj h).symm
  | cons part d ih =>
    rw [List.foldlM_cons] at h
    by_cases hdir : w.isDirectory place = true
    · rw [step_of_isDirectory hdir (hnames part List.mem_cons_self)] at h
      cases hopen : w.closed.lookup place with
      | some reason =>
        rw [hopen] at h
        cases h
      | none =>
        rw [hopen] at h
        rw [ih (fun q hq => hnames q (List.mem_cons_of_mem _ hq)) h, ← List.append_cons]
    · rw [step, if_neg hdir] at h
      split_ifs at h <;> cases h

/-- What a path to a directory below a root leads to. -/
theorem locate_directory {root : Path} {place d : Place} (hroot : w.locate root = .ok (.inside place))
    (hnames : ∀ part ∈ d, IsFileName part) (hentry : w.entry? (root.append d) = some .directory) :
    w.locate (root.append d) = .ok (.inside (place ++ d)) ∧ w.isDirectory (place ++ d) = true := by
  have hlocate : w.locate (root.append d) = .ok (.inside (place ++ d)) := by
    cases hspot : w.locate (root.append d) with
    | error e =>
      unfold entry? at hentry
      rw [hspot] at hentry
      cases hentry
    | ok spot =>
      have hsteps := steps_of_locate hspot
      rw [steps_append hroot] at hsteps
      rw [foldlM_step_names hnames hsteps]
  refine ⟨hlocate, ?_⟩
  unfold entry? at hentry
  rw [hlocate] at hentry
  dsimp only at hentry
  rw [at?] at hentry
  split at hentry
  · cases hentry
  · split_ifs at hentry with hdir
    exact hdir

/-! A directory within a root can be searched if the root can. -/

theorem barrier?_append (w : Workspace) (place d rel : Place) :
    w.barrier? place (d ++ rel) = (w.barrier? place d).or (w.barrier? (place ++ d) rel) := by
  induction d generalizing place with
  | nil => rw [List.nil_append, List.append_nil, barrier?, Option.none_or]
  | cons part d ih => rw [List.cons_append, barrier?, barrier?, ih, Option.or_assoc, ← List.append_cons]

theorem Walkable.append {root : Path} {place : Place} (h : w.Walkable root place) (d : Place) :
    w.Walkable (root.append d) (place ++ d) := by
  intro rel hrel
  obtain ⟨hne, q, hq, hway⟩ := mem_entriesBelow.mp hrel
  rw [List.append_assoc] at hway
  have hknown := h (d ++ rel) (mem_entriesBelow.mpr ⟨by simp [hne], q, hq, hway⟩)
  rw [entryRefusal?_eq_none_iff, isOverlong, ← Path.append_append, barrier?_append, Option.or_eq_none_iff] at hknown
  exact entryRefusal?_eq_none_iff.mpr ⟨hknown.1, hknown.2.2⟩

end Workspace

/-- Whether a directory below a root is entered. -/
def IsEntered (d : Place) : Prop := ∀ part ∈ d, part ∉ ignoredDirectories

/-- **What is found below a directory within the root** is what is found from the directory, if it is entered, and
nothing if it is not. -/
theorem filter_foundBelow {w : Workspace} (hw : w.WellFormed) (root : Path) {place d : Place}
    (hdir : w.isDirectory (place ++ d) = true) (languages : List Scalar) :
    (IsEntered d → (foundBelow root languages (w.below place)).filter d.isPrefixOf =
      (foundBelow (root.append d) languages (w.below (place ++ d))).map (d ++ ·)) ∧
    (¬ IsEntered d → (foundBelow root languages (w.below place)).filter d.isPrefixOf = []) := by
  have hpiece : (foundBelow root languages (w.below place)).filter d.isPrefixOf =
      (((w.below (place ++ d)).mergeSort placeLe).filter fun rel =>
        !isIgnored (d ++ rel) && isEnabled languages (root.append (d ++ rel))).map (d ++ ·) := by
    rw [foundBelow, List.filter_comm, filter_mergeSort_placeLe, Workspace.filter_below hw hdir,
      ← List.map_mergeSort fun a _ b _ => (placeLe_append d a b).symm, List.filter_map]
    rfl
  have hentered : IsEntered d ↔ d.any ignoredDirectories.contains = false := by simp [IsEntered]
  have hne : ∀ rel ∈ (w.below (place ++ d)).mergeSort placeLe, rel ≠ [] := fun rel hrel =>
    (Workspace.mem_below.mp (List.mem_mergeSort.mp hrel)).1
  rw [hpiece]
  constructor
  · intro h
    refine congrArg (List.map (d ++ ·)) (List.filter_congr fun rel hrel => ?_)
    rw [isIgnored_append d (hne rel hrel), hentered.mp h, Bool.false_or, Path.append_append]
  · intro h
    rw [List.map_eq_nil_iff, List.filter_eq_nil_iff]
    intro rel hrel
    rw [hentered, Bool.not_eq_false] at h
    rw [isIgnored_append d (hne rel hrel), h]
    simp

/-! ## Roots -/

theorem sourceFiles?_of_walkable {w : Workspace} (hw : w.WellFormed) {root : Path} {place : Place}
    (hroot : w.locate root = .ok (.inside place)) (hdir : w.isDirectory place = true) (hwalk : w.Walkable root place)
    (languages : List Scalar) :
    sourceFiles? w root languages = some ((foundBelow root languages (w.below place)).map root.append) := by
  rw [sourceFiles?, (refusal_discover hw hroot hdir languages).mpr hwalk, sourceFiles_of_directory hw hroot hdir hwalk]
  rfl

theorem sourceFiles?_of_not_walkable {w : Workspace} (hw : w.WellFormed) {root : Path} {place : Place}
    (hroot : w.locate root = .ok (.inside place)) (hdir : w.isDirectory place = true) (languages : List Scalar)
    (hno : ¬ w.Walkable root place) : sourceFiles? w root languages = none := by
  obtain ⟨r, hr⟩ := Option.ne_none_iff_exists'.mp (mt (refusal_discover hw hroot hdir languages).mp hno)
  rw [sourceFiles?, hr]
  rfl

/-- **Discovery is exact, ordered and local.** A directory below which the system says of every entry what it is stands
for the source files below it that can be reached without entering an ignored directory, and they are listed in the
strict order of their components. What a directory within it stands for is the piece of the list that lies below it;
below a directory that is ignored, or lies in one, nothing is listed. Any other directory stands for nothing, not even
for no files. -/
theorem sourceFiles_exact_and_local {w : Workspace} (hw : w.WellFormed) {path : String} {place : Place}
    (hroot : w.locate (.ofString path) = .ok (.inside place)) (hdir : w.isDirectory place = true)
    (languages : List Scalar) :
    (¬ w.Walkable (.ofString path) place → sourceFiles? w (.ofString path) languages = none) ∧
    (w.Walkable (.ofString path) place → ∃ files, sourceFiles? w (.ofString path) languages = some files ∧
      (∀ p, p ∈ files ↔ ∃ rel, IsFound w (.ofString path) place languages rel ∧ p = (Path.ofString path).append rel) ∧
      files.Pairwise (fun p q => p.components < q.components) ∧
      ∀ d : Place, (∀ part ∈ d, Workspace.IsFileName part) →
        w.entry? ((Path.ofString path).append d) = some .directory →
        (IsEntered d → ∃ before piece after, sourceFiles? w ((Path.ofString path).append d) languages = some piece ∧
          files = before ++ piece ++ after ∧ (∀ p ∈ piece, p.LiesBelow ((Path.ofString path).append d)) ∧
          ∀ p ∈ before ++ after, ¬ p.LiesBelow ((Path.ofString path).append d)) ∧
        (¬ IsEntered d → ∀ p ∈ files, ¬ p.LiesBelow ((Path.ofString path).append d))) := by
  set root := Path.ofString path with hrootDef
  have hread : root.IsRead := Path.isRead_ofString path
  refine ⟨sourceFiles?_of_not_walkable hw hroot hdir languages, fun hwalk =>
    ⟨_, sourceFiles?_of_walkable hw hroot hdir hwalk languages, fun p => ?_, ?_, fun d hnames hentry => ?_⟩⟩
  · simp only [List.mem_map, mem_foundBelow hw hread, eq_comm]
  · refine List.pairwise_map.mpr ((pairwise_foundBelow hw place languages).imp fun h => ?_)
    rw [Path.components_append, Path.components_append]
    exact append_lt_append _ h
  · obtain ⟨hlocate, hsub⟩ := Workspace.locate_directory hroot hnames hentry
    obtain ⟨hentered, hignored⟩ := filter_foundBelow hw root hsub languages
    constructor
    · intro h
      have hordered : (foundBelow root languages (w.below place)).Pairwise (· < ·) :=
        pairwise_foundBelow hw place languages
      obtain ⟨before, after, hsplit, hout⟩ := exists_piece_of_convex (p := d.isPrefixOf)
        (fun a b c hab hbc ha hc => by
          rw [List.isPrefixOf_iff_prefix] at ha hc ⊢
          exact prefix_of_between hab hbc ha hc) hordered
      refine ⟨before.map root.append, _, after.map root.append,
        sourceFiles?_of_walkable hw hlocate hsub (hwalk.append d) languages, ?_, fun p hp => ?_, ?_⟩
      · rw [hsplit, List.map_append, List.map_append, hentered h, List.map_map]
        congr 2
        exact List.map_congr_left fun rel _ => (Path.append_append root d rel).symm
      · obtain ⟨rel, -, rfl⟩ := List.mem_map.mp hp
        exact ⟨rel, rfl⟩
      · intro p hp
        rw [← List.map_append] at hp
        obtain ⟨rel, hrel, rfl⟩ := List.mem_map.mp hp
        rw [Path.liesBelow_append_iff, ← List.isPrefixOf_iff_prefix, hout rel hrel]
        exact Bool.false_ne_true
    · intro h p hp
      obtain ⟨rel, hrel, rfl⟩ := List.mem_map.mp hp
      rw [Path.liesBelow_append_iff, ← List.isPrefixOf_iff_prefix]
      exact List.filter_eq_nil_iff.mp (hignored h) rel hrel

/-- A file beside a directory whose name it begins with, and two files that are left out: one in an ignored directory,
and one in no enabled language. -/
def mixedDirectory : Workspace where
  files := [(["src", "a.java"], []), (["src", "a", "b.java"], []), (["src", "a", "Z.JAVA"], []),
    (["src", "a", "build", "c.java"], []), (["src", "b.py"], [])]

theorem mixedDirectory_exact_and_local :
    mixedDirectory.WellFormed ∧ mixedDirectory.locate (.ofString "src") = .ok (.inside ["src"]) ∧
      mixedDirectory.Walkable (.ofString "src") ["src"] ∧
      mixedDirectory.entry? ((Path.ofString "src").append ["a"]) = some .directory ∧
      ∃ before piece after,
        sourceFiles? mixedDirectory (.ofString "src") [.text "java"] = some (before ++ piece ++ after) ∧
        sourceFiles? mixedDirectory ((Path.ofString "src").append ["a"]) [.text "java"] = some piece ∧
        (∀ p ∈ before ++ after, ¬ p.LiesBelow ((Path.ofString "src").append ["a"])) ∧
        (before ++ piece ++ after).Pairwise (fun p q => p.components < q.components) := by
  have hw : mixedDirectory.WellFormed := by decide
  have hroot : mixedDirectory.locate (.ofString "src") = .ok (.inside ["src"]) := by
    rw [Workspace.locate, String.contains_char_eq]
    decide
  have hentry : mixedDirectory.entry? ((Path.ofString "src").append ["a"]) = some .directory := by
    unfold Workspace.entry?
    rw [Workspace.locate, String.contains_char_eq]
    decide
  have hwalk : mixedDirectory.Walkable (.ofString "src") ["src"] := by decide
  obtain ⟨files, hfiles, -, hordered, hlocal⟩ :=
    (sourceFiles_exact_and_local hw hroot (by decide) [.text "java"]).2 hwalk
  obtain ⟨before, piece, after, hpiece, rfl, -, hout⟩ :=
    (hlocal ["a"] (by decide) hentry).1 (by unfold IsEntered; decide)
  exact ⟨hw, hroot, hwalk, hentry, before, piece, after, hfiles, hpiece, hout, hordered⟩

end HandlerComplexity
