import HandlerComplexity.Proofs.Split

/-!
# Files below a directory

What a scan makes of a file below its root depends on that file alone, not on the files beside it; and the files are
read in an order that does not depend on which others there are.

* `placeLe_antisymm`, `placeLe_trans`, `placeLe_total`: the order of discovery.
* `Workspace.locate_append`: the way from a directory to a file below it.
* `Workspace.Walkable`: the system says of every entry below a directory what it is; `refusal_discover`: then and only
  then the search below it comes to its end.
* `sourceFiles_of_directory`: the files that a directory stands for.
* `parseFile_congr`: a file that is in two workspaces is parsed alike in both.
-/

namespace HandlerComplexity

/-! ## The order of discovery -/

theorem placeLe_cons (a b : String) (as bs : Place) :
    placeLe (a :: as) (b :: bs) = if a = b then placeLe as bs else decide (a ≤ b) := rfl

theorem head_le_of_placeLe {a b : String} {as bs : Place} (h : placeLe (a :: as) (b :: bs) = true) : a ≤ b := by
  rw [placeLe_cons] at h
  split_ifs at h with hab
  · exact hab ▸ String.le_refl a
  · exact of_decide_eq_true h

theorem placeLe_append (place a b : Place) : placeLe (place ++ a) (place ++ b) = placeLe a b := by
  induction place with
  | nil => rfl
  | cons part place ih => rw [List.cons_append, List.cons_append, placeLe_cons, if_pos rfl, ih]

theorem placeLe_antisymm {a b : Place} (hab : placeLe a b = true) (hba : placeLe b a = true) : a = b := by
  induction a generalizing b with
  | nil =>
    cases b with
    | nil => rfl
    | cons => cases hba
  | cons x as ih =>
    cases b with
    | nil => cases hab
    | cons y bs =>
      rw [placeLe_cons] at hab hba
      by_cases hxy : x = y
      · subst hxy
        rw [if_pos rfl] at hab hba
        rw [ih hab hba]
      · rw [if_neg hxy] at hab
        rw [if_neg (Ne.symm hxy)] at hba
        exact absurd (String.le_antisymm (of_decide_eq_true hab) (of_decide_eq_true hba)) hxy

theorem placeLe_trans (a b c : Place) (hab : placeLe a b = true) (hbc : placeLe b c = true) : placeLe a c = true := by
  induction a generalizing b c with
  | nil => rfl
  | cons x as ih =>
    cases b with
    | nil => cases hab
    | cons y bs =>
      cases c with
      | nil => cases hbc
      | cons z cs =>
        -- the first parts are in order, and the rest counts only where they are all the same
        have hxy := head_le_of_placeLe hab
        have hyz := head_le_of_placeLe hbc
        rw [placeLe_cons] at hab hbc ⊢
        split_ifs with hxz
        · subst hxz
          obtain rfl := String.le_antisymm hxy hyz
          rw [if_pos rfl] at hab hbc
          exact ih bs cs hab hbc
        · exact decide_eq_true (String.le_trans hxy hyz)

theorem placeLe_total (a b : Place) : (placeLe a b || placeLe b a) = true := by
  induction a generalizing b with
  | nil => rfl
  | cons x as ih =>
    cases b with
    | nil => rfl
    | cons y bs =>
      rw [placeLe_cons, placeLe_cons]
      by_cases hxy : x = y
      · subst hxy
        rw [if_pos rfl, if_pos rfl]
        exact ih bs
      · rw [if_neg hxy, if_neg (Ne.symm hxy)]
        rcases String.le_total x y with h | h
        · simp [h]
        · simp [h]

theorem pairwise_mergeSort_placeLe (places : List Place) :
    (places.mergeSort placeLe).Pairwise fun a b => placeLe a b = true :=
  List.pairwise_mergeSort placeLe_trans placeLe_total places

/-- The order in which files are found depends on the places alone. -/
theorem mergeSort_placeLe_of_perm {places places' : List Place} (h : places.Perm places') :
    places.mergeSort placeLe = places'.mergeSort placeLe := by
  refine List.Perm.eq_of_pairwise (fun a b _ _ => placeLe_antisymm) (pairwise_mergeSort_placeLe _)
    (pairwise_mergeSort_placeLe _) ?_
  exact (List.mergeSort_perm places _).trans (h.trans (List.mergeSort_perm places' _).symm)

/-- Which files are left out does not change the order of the others. -/
theorem filter_mergeSort_placeLe (p : Place → Bool) (places : List Place) :
    (places.mergeSort placeLe).filter p = (places.filter p).mergeSort placeLe := by
  have hperm : ((places.mergeSort placeLe).filter p).Perm (places.filter p) := (List.mergeSort_perm places _).filter p
  rw [← mergeSort_placeLe_of_perm hperm, List.mergeSort_of_pairwise ((pairwise_mergeSort_placeLe places).filter p)]

/-! ## Ways to files -/

namespace Workspace

/-- What is in the first workspace is also in the second, and the directories are the same. -/
structure Within (w w' : Workspace) : Prop where
  files : w.files.Sublist w'.files
  directories : w.directories = w'.directories
  closed : w.closed = w'.closed
  home : w.home = w'.home

namespace Within

variable {w w' : Workspace}

theorem isDirectory (h : w.Within w') {place : Place} (hdir : w.isDirectory place = true) :
    w'.isDirectory place = true := by
  simp only [Workspace.isDirectory, ← h.directories, ← h.home, Bool.or_eq_true, List.any_eq_true] at hdir ⊢
  refine hdir.imp_right ?_
  rintro ⟨f, hf, hbelow⟩
  exact ⟨f, h.files.subset hf, hbelow⟩

theorem wellFormed (h : w.Within w') (hw' : w'.WellFormed) : w.WellFormed where
  names f hf := hw'.names f (h.files.subset hf)
  distinct := hw'.distinct.sublist (h.files.map _)
  apart f hf := by
    have hapart := hw'.apart f (h.files.subset hf)
    rw [Bool.eq_false_iff] at hapart ⊢
    exact fun hdir => hapart (h.isDirectory hdir)

theorem step (h : w.Within w') {spot spot' : Spot} {part : String} (hstep : w.step spot part = .ok spot') :
    w'.step spot part = .ok spot' := by
  cases spot with
  | outside => exact hstep
  | inside place =>
    rw [Workspace.step] at hstep ⊢
    by_cases hdir : w.isDirectory place = true
    · rw [if_pos hdir] at hstep
      rwa [if_pos (h.isDirectory hdir), ← h.home, ← h.closed]
    · rw [if_neg hdir] at hstep
      split_ifs at hstep

theorem steps (h : w.Within w') {parts : List String} {start spot : Spot}
    (hsteps : parts.foldlM w.step start = .ok spot) : parts.foldlM w'.step start = .ok spot := by
  induction parts generalizing start with
  | nil => exact hsteps
  | cons part parts ih =>
    rw [List.foldlM_cons] at hsteps ⊢
    cases hstep : w.step start part with
    | error e =>
      rw [hstep] at hsteps
      cases hsteps
    | ok next =>
      rw [hstep] at hsteps
      rw [h.step hstep]
      exact ih hsteps

/-- A way through the first workspace is also one through the second. -/
theorem locate (h : w.Within w') {p : Path} {spot : Spot} (hlocate : w.locate p = .ok spot) :
    w'.locate p = .ok spot := by
  have hstart : w'.start p = w.start p := by rw [Workspace.start, Workspace.start, h.home]
  rw [Workspace.locate] at hlocate ⊢
  rw [hstart]
  split_ifs at hlocate ⊢
  exact h.steps hlocate

theorem mem_entriesBelow (h : w.Within w') {place rel : Place} (hrel : rel ∈ w.entriesBelow place) :
    rel ∈ w'.entriesBelow place := by
  obtain ⟨hne, q, hq, hway⟩ := Workspace.mem_entriesBelow.mp hrel
  rw [h.directories, h.home, List.append_assoc, List.mem_append] at hq
  refine Workspace.mem_entriesBelow.mpr ⟨hne, q, ?_, hway⟩
  rw [List.append_assoc, List.mem_append]
  exact hq.imp_left fun hfile => (h.files.map _).subset hfile

end Within

variable {w : Workspace}

theorem file?_of_mem (hw : w.WellFormed) {place : Place} {bytes : List UInt8} (h : (place, bytes) ∈ w.files) :
    w.file? place = some bytes := lookup_of_mem hw.distinct h

theorem isDirectory_of_below {place rel : Place} {bytes : List UInt8} (hne : rel ≠ [])
    (h : (place ++ rel, bytes) ∈ w.files) : w.isDirectory place = true := by
  have hpos := List.length_pos_iff.mpr hne
  simp only [isDirectory, Bool.or_eq_true, List.any_eq_true, Bool.and_eq_true, decide_eq_true_eq,
    List.isPrefixOf_iff_prefix]
  refine .inr ⟨_, h, List.prefix_append _ _, ?_⟩
  rw [List.length_append]
  omega

/-- One step down from a directory. -/
theorem step_of_isDirectory {place : Place} (hdir : w.isDirectory place = true) {part : String}
    (hpart : IsFileName part) :
    w.step (.inside place) part =
      match w.closed.lookup place with
      | some reason => .error (.closed reason)
      | none => .ok (.inside (place ++ [part])) := by
  obtain ⟨-, hup, hlength⟩ := hpart
  cases hclosed : w.closed.lookup place with
  | some reason => simp [step, hdir, hclosed]
  | none => simp [step, hdir, hclosed, hup, Nat.not_lt.mpr hlength]

/-- The steps from a directory to a file below it, up to the first closed directory. -/
theorem foldlM_step_below {rel place : Place} {bytes : List UInt8} (hnames : ∀ part ∈ rel, IsFileName part)
    (h : (place ++ rel, bytes) ∈ w.files) :
    rel.foldlM w.step (.inside place) =
      match w.barrier? place rel with
      | some reason => .error (.closed reason)
      | none => .ok (.inside (place ++ rel)) := by
  induction rel generalizing place with
  | nil =>
    rw [List.append_nil]
    rfl
  | cons part rel ih =>
    have hdir := isDirectory_of_below (List.cons_ne_nil _ _) h
    have hnext : ((place ++ [part]) ++ rel, bytes) ∈ w.files := by rwa [← List.append_cons]
    have hrest := ih (fun q hq => hnames q (List.mem_cons_of_mem _ hq)) hnext
    rw [← List.append_cons] at hrest
    rw [List.foldlM_cons, step_of_isDirectory hdir (hnames part List.mem_cons_self), barrier?]
    cases w.closed.lookup place with
    | some reason => rfl
    | none => exact hrest

theorem steps_of_locate {p : Path} {spot : Spot} (h : w.locate p = .ok spot) :
    p.parts.foldlM w.step (w.start p) = .ok spot := by
  rw [locate] at h
  split_ifs at h
  exact h

/-- The steps along a path below a directory begin at the directory. -/
theorem steps_append {root : Path} {place : Place} (hroot : w.locate root = .ok (.inside place)) (rel : Place) :
    (root.append rel).parts.foldlM w.step (w.start (root.append rel)) = rel.foldlM w.step (.inside place) := by
  rw [show w.start (root.append rel) = w.start root from rfl,
    show (root.append rel).parts = root.parts ++ rel from rfl, List.foldlM_append, steps_of_locate hroot]
  rfl

/-- **The way from a directory to a file below it**: it is there, unless the path cannot be asked for or a directory on
the way is closed. -/
theorem locate_append (hw : w.WellFormed) {root : Path} {place : Place} (hroot : w.locate root = .ok (.inside place))
    {rel : Place} {bytes : List UInt8} (h : (place ++ rel, bytes) ∈ w.files) :
    w.locate (root.append rel) =
      if (root.append rel).toString.contains '\x00' then .error .nullChar
      else if pathLimit < (root.append rel).toString.utf8ByteSize then .error .tooLong
      else match w.barrier? place rel with
        | some reason => .error (.closed reason)
        | none => .ok (.inside (place ++ rel)) := by
  have hnames : ∀ part ∈ rel, IsFileName part := fun part hpart => hw.names _ h part (List.mem_append_right _ hpart)
  conv_lhs => rw [locate, steps_append hroot]
  rw [foldlM_step_below hnames h]

/-- The files below a directory, with their whole places. -/
theorem map_append_below (w : Workspace) (place : Place) :
    (w.below place).map (place ++ ·) =
      (w.files.map (·.1)).filter fun f => place.isPrefixOf f && decide (place.length < f.length) := by
  rw [below, List.map_map, List.filter_map]
  refine List.map_congr_left fun f hf => ?_
  have hbelow := (List.mem_filter.mp hf).2
  simp only [Bool.and_eq_true, List.isPrefixOf_iff_prefix] at hbelow
  exact List.prefix_iff_eq_append.mp hbelow.1

theorem nodup_below (hw : w.WellFormed) (place : Place) : (w.below place).Nodup := by
  refine List.Nodup.of_map (place ++ ·) ?_
  rw [map_append_below]
  exact hw.distinct.filter _

theorem nodup_eraseDups (places : List Place) : places.eraseDups.Nodup := by
  induction hn : places.length using Nat.strong_induction_on generalizing places with
  | _ n ih =>
    cases places with
    | nil => exact List.nodup_nil
    | cons place places =>
      rw [List.eraseDups_cons, List.nodup_cons]
      refine ⟨fun h => by simpa using List.mem_eraseDups.mp h, ih _ ?_ _ rfl⟩
      rw [← hn, List.length_cons]
      exact Nat.lt_succ_of_le (List.length_filter_le _ _)

/-- Of what is listed below a directory, the files are the files below it. -/
theorem filter_entriesBelow_perm (hw : w.WellFormed) (place : Place) :
    ((w.entriesBelow place).filter fun rel => (w.file? (place ++ rel)).isSome).Perm (w.below place) := by
  refine (List.perm_ext_iff_of_nodup ((nodup_eraseDups _).filter _) (nodup_below hw place)).mpr fun rel => ?_
  rw [List.mem_filter]
  constructor
  · rintro ⟨hrel, hfile⟩
    exact mem_below_of_entry hrel hfile
  · intro hrel
    obtain ⟨-, bytes, hmem⟩ := mem_below.mp hrel
    exact ⟨mem_entriesBelow_of_below hrel, by rw [file?_of_mem hw hmem]; rfl⟩

/-- The place of a directory has no file. -/
theorem at?_of_isDirectory (hw : w.WellFormed) {place : Place} (hdir : w.isDirectory place = true) :
    w.at? place = some .directory := by
  cases hfile : w.file? place with
  | none => rw [at?, hfile, if_pos hdir]
  | some bytes =>
    have hapart := hw.apart _ (mem_files_of_file? hfile)
    rw [hdir] at hapart
    cases hapart

/-! Which directories are closed is all that counts for a way. -/

theorem barrier?_congr {w' : Workspace} (h : w.closed = w'.closed) (place rel : Place) :
    w.barrier? place rel = w'.barrier? place rel := by
  induction rel generalizing place with
  | nil => rfl
  | cons part rel ih => rw [barrier?, barrier?, h, ih]

theorem entryRefusal?_congr {w' : Workspace} (h : w.closed = w'.closed) (root : Path) (place rel : Place) :
    w.entryRefusal? root place rel = w'.entryRefusal? root place rel := by
  rw [entryRefusal?, entryRefusal?, barrier?_congr h]

theorem entryRefusal?_eq_none_iff {root : Path} {place rel : Place} :
    w.entryRefusal? root place rel = none ↔ isOverlong root rel = false ∧ w.barrier? place rel = none := by
  rw [entryRefusal?]
  cases isOverlong root rel with
  | true => simp
  | false => simp

/-- The system says of every entry below a directory what it is. -/
def Walkable (w : Workspace) (root : Path) (place : Place) : Prop :=
  ∀ rel ∈ w.entriesBelow place, w.entryRefusal? root place rel = none

instance (w : Workspace) (root : Path) (place : Place) : Decidable (w.Walkable root place) :=
  inferInstanceAs (Decidable (∀ rel ∈ _, _))

theorem Within.walkable {w' : Workspace} (h : w.Within w') {root : Path} {place : Place}
    (hw' : w'.Walkable root place) : w.Walkable root place := by
  intro rel hrel
  rw [entryRefusal?_congr h.closed]
  exact hw' rel (h.mem_entriesBelow hrel)

end Workspace

/-! ## Searches -/

section Search

variable {w : Workspace} {root : Path} {place : Place} {languages : List Scalar}

theorem look_cons_of_known {rel : Place} (h : w.entryRefusal? root place rel = none) (rels : List Place) :
    look w root place languages (rel :: rels) =
      let rest := look w root place languages rels
      if isSource w root place languages rel then { rest with files := root.append rel :: rest.files } else rest := by
  rw [look, h]

theorem refusal_look (rels : List Place) :
    (look w root place languages rels).refusal = none ↔ ∀ rel ∈ rels, w.entryRefusal? root place rel = none := by
  induction rels with
  | nil => simp [look]
  | cons rel rels ih =>
    rw [List.forall_mem_cons, ← ih]
    cases hrel : w.entryRefusal? root place rel with
    | some r => simp [look, hrel]
    | none =>
      rw [look_cons_of_known hrel]
      dsimp only
      split_ifs <;> simp

/-- A closed directory is listed with what it holds, and ends the search where its first entry is looked at. -/
example :
    let w : Workspace :=
      { files := [(["a.py"], []), (["b", "c.py"], [])], closed := [(["b"], "[Errno 13] Permission denied")] }
    look w (.ofString ".") [] [.text "python"] [["a.py"], ["b"], ["b", "c.py"]] =
      ⟨[.ofString "a.py"], some ⟨.ofString "b/c.py", "[Errno 13] Permission denied"⟩⟩ := by
  decide +kernel

theorem files_look {rels : List Place} (h : ∀ rel ∈ rels, w.entryRefusal? root place rel = none) :
    (look w root place languages rels).files = (rels.filter (isSource w root place languages)).map root.append := by
  induction rels with
  | nil => rfl
  | cons rel rels ih =>
    obtain ⟨hrel, hrels⟩ := List.forall_mem_cons.mp h
    rw [look_cons_of_known hrel, List.filter_cons]
    dsimp only
    split_ifs
    · rw [ih hrels, List.map_cons]
    · exact ih hrels

/-- A directory that can be listed with all that is below it leaves only the entries to be looked at. -/
theorem searchDirectory_of_walkable (h : w.Walkable root place) :
    searchDirectory w root place languages = look w root place languages ((w.entriesBelow place).mergeSort placeLe) := by
  have hlisted : ((w.entriesBelow place).mergeSort placeLe).find? (w.isUnlistable root place) = none := by
    refine List.find?_eq_none.mpr fun rel hrel hlong => ?_
    have hshort := (Workspace.entryRefusal?_eq_none_iff.mp (h rel (List.mem_mergeSort.mp hrel))).1
    rw [Workspace.isUnlistable, hshort, Bool.and_false] at hlong
    cases hlong
  rw [searchDirectory, hlisted]

theorem refusal_searchDirectory : (searchDirectory w root place languages).refusal = none ↔ w.Walkable root place := by
  have hlook : (look w root place languages ((w.entriesBelow place).mergeSort placeLe)).refusal = none ↔
      w.Walkable root place := by
    rw [refusal_look]
    simp only [List.mem_mergeSort]
    rfl
  constructor
  · intro h
    rw [searchDirectory] at h
    split at h
    · cases h
    · exact hlook.mp h
  · intro h
    rw [searchDirectory_of_walkable h]
    exact hlook.mpr h

end Search

/-! ## Directories as roots -/

section Root

variable {w w' : Workspace} {root : Path} {place : Place}

theorem moduleRootOf_of_directory (hw : w.WellFormed) (hroot : w.locate root = .ok (.inside place))
    (hdir : w.isDirectory place = true) : moduleRootOf w root = root := by
  rw [moduleRootOf, Workspace.entry?, hroot]
  simp only [Workspace.at?_of_isDirectory hw hdir]

/-- The files that a directory stands for, with their paths from there. -/
def foundBelow (root : Path) (languages : List Scalar) (places : List Place) : List Place :=
  (places.mergeSort placeLe).filter fun rel => !isIgnored rel && isEnabled languages (root.append rel)

theorem discover_of_directory (hw : w.WellFormed) (hroot : w.locate root = .ok (.inside place))
    (hdir : w.isDirectory place = true) (languages : List Scalar) :
    discover w root languages = searchDirectory w root place languages := by
  have hrefusal : w.refusal? root = none := by rw [Workspace.refusal?, hroot]
  rw [discover, hrefusal, hroot]
  simp only [Workspace.at?_of_isDirectory hw hdir]

/-- **A search below a directory** comes to its end iff the system says of every entry what it is. -/
theorem refusal_discover (hw : w.WellFormed) (hroot : w.locate root = .ok (.inside place))
    (hdir : w.isDirectory place = true) (languages : List Scalar) :
    (discover w root languages).refusal = none ↔ w.Walkable root place := by
  rw [discover_of_directory hw hroot hdir, refusal_searchDirectory]

theorem filter_isSource_mergeSort (hw : w.WellFormed) (root : Path) (place : Place) (languages : List Scalar) :
    ((w.entriesBelow place).mergeSort placeLe).filter (isSource w root place languages) =
      foundBelow root languages (w.below place) := by
  have hfiles := mergeSort_placeLe_of_perm (Workspace.filter_entriesBelow_perm hw place)
  rw [← filter_mergeSort_placeLe] at hfiles
  rw [foundBelow, ← hfiles, List.filter_filter]
  refine List.filter_congr fun rel _ => ?_
  rw [isSource, Bool.and_assoc, Bool.and_comm]

theorem sourceFiles_of_directory (hw : w.WellFormed) (hroot : w.locate root = .ok (.inside place))
    (hdir : w.isDirectory place = true) (hwalk : w.Walkable root place) (languages : List Scalar) :
    sourceFiles w root languages = (foundBelow root languages (w.below place)).map root.append := by
  have hknown : ∀ rel ∈ (w.entriesBelow place).mergeSort placeLe, w.entryRefusal? root place rel = none :=
    fun rel hrel => hwalk rel (List.mem_mergeSort.mp hrel)
  rw [sourceFiles, discover_of_directory hw hroot hdir, searchDirectory_of_walkable hwalk, files_look hknown,
    filter_isSource_mergeSort hw]

/-- **A file that is in two workspaces** below the same root is parsed alike in both. -/
theorem parseFile_congr (hw : w.WellFormed) (hw' : w'.WellFormed) (hroot : w.locate root = .ok (.inside place))
    (hroot' : w'.locate root = .ok (.inside place)) (hunreadable : w.unreadable = w'.unreadable)
    (hclosed : w.closed = w'.closed) {rel : Place} {bytes : List UInt8} (h : (place ++ rel, bytes) ∈ w.files)
    (h' : (place ++ rel, bytes) ∈ w'.files) (g : Grammars) :
    parseFile w g (root.append rel) = parseFile w' g (root.append rel) := by
  have hat : w.at? (place ++ rel) = w'.at? (place ++ rel) := by
    rw [Workspace.at?, Workspace.at?, Workspace.file?_of_mem hw h, Workspace.file?_of_mem hw' h']
  have hread : w.read (root.append rel) = w'.read (root.append rel) := by
    rw [Workspace.read, Workspace.read, Workspace.locate_append hw hroot h, Workspace.locate_append hw' hroot' h',
      Workspace.barrier?_congr hclosed, hunreadable]
    split_ifs
    · rfl
    · rfl
    · cases w'.barrier? place rel with
      | some reason => rfl
      | none =>
        dsimp only
        rw [hat]
  rw [parseFile, parseFile, hread]

end Root

end HandlerComplexity
