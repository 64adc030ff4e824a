import HandlerComplexity.Proofs.Accounting
import HandlerComplexity.Proofs.Building

/-!
# Files at another path

The path of a file is read in four ways: by its last part for the language, by its directories for the tests, from the
source root for the module, and as a text that begins with an angle bracket or not. Below a plain root none of them sees
the root. Everything else that is done with the path of a class is to hand it on.

* `Path.Plain`: a root that no class below it can see.
* `Language.ofPath?_append`, `isTestPath_append`, `moduleName_append`: the path of a file below such a root.
* `rebase`: the same file below another root.
* `ClassUnit.relocate`: a class with its path changed. `units_relocate`, `mergePartial_map_relocate`,
  `Store.run_map_relocate`, `classMeasures_map_relocate`: nothing but the paths is changed by it.
-/

namespace HandlerComplexity

/-! ## Paths below a root -/

namespace Path

/-- The working directory. -/
def here : Path := {}

theorem isRead_here : here.IsRead := ⟨.inl rfl, fun _ h => nomatch h⟩

/-- A root that no class below it can see: it has no test directory among its parts, and its text does not begin with
an angle bracket. -/
structure Plain (root : Path) : Prop where
  noTests : ∀ part ∈ root.parts, testDirectories.contains (lowerAscii part) = false
  noBracket : root.toString.toList.head? ≠ some '<'

instance (root : Path) : Decidable root.Plain :=
  decidable_of_iff ((∀ part ∈ root.parts, testDirectories.contains (lowerAscii part) = false) ∧
    root.toString.toList.head? ≠ some '<') ⟨fun ⟨htests, hbracket⟩ => ⟨htests, hbracket⟩,
      fun ⟨htests, hbracket⟩ => ⟨htests, hbracket⟩⟩

theorem plain_here : here.Plain := by decide

theorem name_append (root : Path) {rel : Place} (hne : rel ≠ []) : (root.append rel).name = (here.append rel).name := by
  simp only [name, append, here, List.nil_append, List.getLastD_eq_getLast?, List.getLast?_append_of_ne_nil _ hne]

theorem head?_intercalate {part : String} (hpart : IsPart part) (parts : List String) :
    ("/".intercalate (part :: parts)).toList.head? = part.toList.head? := by
  obtain ⟨rest, htext⟩ := exists_intercalate_cons part parts
  have hne : part.toList ≠ [] := fun hnil => hpart.1 (String.toList_inj.mp hnil)
  rw [htext, List.head?_append_of_ne_nil _ hne]

/-- The first character of a path below a root: that of the root, unless the root is the working directory. -/
theorem head?_toString_append {root : Path} (hroot : root.IsRead) {part : String} (hpart : IsPart part)
    (rel : Place) :
    (root.append (part :: rel)).toString.toList.head? = root.toString.toList.head? ∨
      (root.append (part :: rel)).toString.toList.head? = part.toList.head? := by
  obtain ⟨mark, parts⟩ := root
  obtain ⟨hmark, hparts⟩ := hroot
  dsimp only at hmark hparts
  have htext : (append ⟨mark, parts⟩ (part :: rel)).toString = mark ++ "/".intercalate (parts ++ part :: rel) := by
    rw [toString, if_neg (by simp [append])]
    rfl
  rw [htext]
  cases parts with
  | nil =>
    rcases hmark with rfl | rfl | rfl
    · exact .inr (by rw [String.empty_append, List.nil_append, head?_intercalate hpart])
    · exact .inl (by rw [String.toList_append, List.head?_append_of_ne_nil _ (by decide)]; rfl)
    · exact .inl (by rw [String.toList_append, List.head?_append_of_ne_nil _ (by decide)]; rfl)
  | cons first parts =>
    left
    rw [toString, if_neg (by simp), String.toList_append, String.toList_append, List.head?_append, List.head?_append,
      List.cons_append, head?_intercalate (hparts first List.mem_cons_self),
      head?_intercalate (hparts first List.mem_cons_self)]

end Path

section Below

variable {root : Path} (hroot : root.IsRead) {rel : Place} (hne : rel ≠ []) (hrel : ∀ part ∈ rel, Path.IsPart part)

include hroot hne hrel

theorem Language.ofPath?_append :
    Language.ofPath? (root.append rel).toString = Language.ofPath? (Path.here.append rel).toString := by
  rw [ofPath?, ofPath?, Path.ofString_toString (hroot.append hrel),
    Path.ofString_toString (Path.isRead_here.append hrel), Path.suffix, Path.suffix, Path.name_append root hne]

theorem isEnabled_append (languages : List Scalar) :
    isEnabled languages (root.append rel) = isEnabled languages (Path.here.append rel) := by
  unfold isEnabled
  rw [Language.ofPath?_append hroot hne hrel]

theorem isTestPath_append (hplain : root.Plain) :
    isTestPath (root.append rel).toString = isTestPath (Path.here.append rel).toString := by
  have hown : root.components.any (fun part => testDirectories.contains (lowerAscii part)) = false := by
    refine List.any_eq_false.mpr fun part hpart => ?_
    rw [Bool.not_eq_true]
    unfold Path.components at hpart
    split_ifs at hpart with hmark
    · exact hplain.noTests part hpart
    · rcases List.mem_cons.mp hpart with rfl | hpart
      · -- the root mark is no name
        rcases hroot.root with h | h | h
        · exact absurd h hmark
        · rw [h]
          decide
        · rw [h]
          decide
      · exact hplain.noTests part hpart
  rw [isTestPath, isTestPath, Path.ofString_toString (hroot.append hrel),
    Path.ofString_toString (Path.isRead_here.append hrel), Path.components_append, Path.components_append,
    List.dropLast_append_of_ne_nil hne, List.dropLast_append_of_ne_nil hne, List.any_append, hown, Bool.false_or]
  rfl

/-- The text of a file below a plain root does not begin with an angle bracket. -/
theorem head?_ne_bracket (hplain : root.Plain) (htop : ∀ top ∈ rel.head?, top.toList.head? ≠ some '<') :
    (root.append rel).toString.toList.head? ≠ some '<' := by
  cases rel with
  | nil => exact absurd rfl hne
  | cons part rel =>
    rcases Path.head?_toString_append hroot (hrel part List.mem_cons_self) rel with h | h
    · rw [h]
      exact hplain.noBracket
    · rw [h]
      exact htop part rfl

/-- The module that a file below a plain root is. -/
theorem moduleName_append (hplain : root.Plain) (htop : ∀ top ∈ rel.head?, top.toList.head? ≠ some '<') :
    moduleName (root.append rel).toString (some root.toString) =
      moduleName (Path.here.append rel).toString (some Path.here.toString) := by
  have hfile : ∀ {base : Path}, base.IsRead → base.Plain → ¬ ((base.append rel).toString.toList.head? = none ∨
      (base.append rel).toString.toList.head? = some '<') := by
    intro base hbase hplain
    rw [not_or]
    refine ⟨fun hnone => Path.toString_ne_empty (hbase.append hrel) ?_, head?_ne_bracket hbase hne hrel hplain htop⟩
    exact String.toList_inj.mp (List.head?_eq_none_iff.mp hnone)
  unfold moduleName
  rw [if_neg (hfile hroot hplain), if_neg (hfile Path.isRead_here Path.plain_here)]
  dsimp only
  rw [if_neg (Path.toString_ne_empty hroot), if_neg (Path.toString_ne_empty Path.isRead_here),
    Path.ofString_toString (hroot.append hrel), Path.ofString_toString hroot,
    Path.ofString_toString (Path.isRead_here.append hrel), Path.ofString_toString Path.isRead_here,
    Path.relativeTo?_append, Path.relativeTo?_append, Option.getD_some, Option.getD_some]

end Below

/-- A path below a root, with another root in the place of that one. -/
def rebase (old new path : String) : String :=
  match (Path.ofString path).relativeTo? (.ofString old) with
  | some rel => ((Path.ofString new).append rel.parts).toString
  | none => path

theorem rebase_append (old new : String) {rel : Place} (hrel : ∀ part ∈ rel, Path.IsPart part) :
    rebase old new ((Path.ofString old).append rel).toString = ((Path.ofString new).append rel).toString := by
  rw [rebase, Path.ofString_toString ((Path.isRead_ofString old).append hrel), Path.relativeTo?_append]

/-! ## Classes at another path -/

/-- A class with its path changed. -/
def ClassUnit.relocate (move : String → String) (u : ClassUnit) : ClassUnit := { u with path := move u.path }

variable (move : String → String)

theorem Policy.accepts_relocate {p : Policy} {u : ClassUnit} (h : isTestPath (move u.path) = isTestPath u.path) :
    p.accepts (u.relocate move) = p.accepts u := by
  have htest : (u.relocate move).isTest = u.isTest := by
    rw [ClassUnit.isTest, ClassUnit.isTest, ← h]
    rfl
  rw [accepts, accepts, htest]
  rfl

/-! ### Parts of classes -/

theorem partsOf_map_relocate (us : List ClassUnit) (name : String) :
    partsOf (us.map (·.relocate move)) name = (partsOf us name).map (·.relocate move) := by
  rw [partsOf, List.filter_map]
  rfl

theorem areParts_map_relocate (parts : List ClassUnit) :
    areParts (parts.map (·.relocate move)) = areParts parts := by
  rw [areParts, List.length_map, List.all_map]
  rfl

theorem unite_map_relocate (u : ClassUnit) (parts : List ClassUnit) :
    unite (u.relocate move) (parts.map (·.relocate move)) = (unite u parts).relocate move := by
  have hroots : (parts.map (·.relocate move)).map (·.root) = parts.map (·.root) := by
    rw [List.map_map]
    rfl
  have hgenerated : (parts.map (·.relocate move)).all (·.generated) = parts.all (·.generated) := by
    rw [List.all_map]
    rfl
  rw [unite, unionRoot, hroots, hgenerated]
  rfl

theorem mergeFrom_map_relocate (all : List ClassUnit) (done : List String) (us : List ClassUnit) :
    (mergeFrom (all.map (·.relocate move)) done (us.map (·.relocate move))).1 =
      (mergeFrom all done us).1.map (·.relocate move) := by
  induction us generalizing done with
  | nil => rfl
  | cons u us ih =>
    have hparts : partsOf (all.map (·.relocate move)) (u.relocate move).qualifiedName =
        (partsOf all u.qualifiedName).map (·.relocate move) := partsOf_map_relocate move all _
    rw [List.map_cons]
    simp only [mergeFrom, hparts, areParts_map_relocate]
    rw [show (u.relocate move).qualifiedName = u.qualifiedName from rfl]
    split_ifs
    · exact ih done
    · rw [List.map_cons, ih, unite_map_relocate]
    · rw [List.map_cons, ih]

theorem mergePartial_map_relocate (us : List ClassUnit) :
    (mergePartial (us.map (·.relocate move))).1 = (mergePartial us).1.map (·.relocate move) :=
  mergeFrom_map_relocate move us [] us

/-! ### What is recorded -/

theorem verdicts_map_relocate (taken : String → Bool) (us : List ClassUnit) :
    verdicts taken (us.map (·.relocate move)) = (verdicts taken us).map fun v => (v.1.relocate move, v.2) := by
  induction us generalizing taken with
  | nil => rfl
  | cons u us ih =>
    have hmark : mark taken (u.relocate move) = mark taken u := rfl
    rw [List.map_cons, verdicts, verdicts, List.map_cons, hmark, ih]
    rfl

theorem recordedOf_map_relocate (vs : List (ClassUnit × Bool)) :
    recordedOf (vs.map fun v => (v.1.relocate move, v.2)) = (recordedOf vs).map (·.relocate move) := by
  rw [recordedOf, List.filter_map, List.map_map, recordedOf, List.map_map]
  rfl

theorem refusedOf_map_relocate (vs : List (ClassUnit × Bool)) :
    refusedOf (vs.map fun v => (v.1.relocate move, v.2)) = (refusedOf vs).map (·.relocate move) := by
  rw [refusedOf, List.filter_map, List.map_map, refusedOf, List.map_map]
  rfl

/-- The same measures are recorded. -/
theorem Store.run_map_relocate (s : Store) (us : List ClassUnit) : s.run (us.map (·.relocate move)) = s.run us := by
  rw [run, verdicts_map_relocate, recordedOf_map_relocate, extendBy, List.map_map]
  rfl

/-- The same is reported about classes that are not recorded. -/
theorem troubles_map_relocate (taken : String → Bool) (us : List ClassUnit) :
    (refusedOf (verdicts taken (us.map (·.relocate move)))).map ClassUnit.trouble =
      (refusedOf (verdicts taken us)).map ClassUnit.trouble := by
  rw [verdicts_map_relocate, refusedOf_map_relocate, List.map_map]
  rfl

/-! ### Measures -/

/-- A measure with its path changed. -/
def ClassMeasure.relocate (m : ClassMeasure) : ClassMeasure := { m with path := move m.path }

theorem originOf_map_relocate (us : List ClassUnit) (name : String) :
    originOf (us.map (·.relocate move)) name = (originOf us name).map (·.relocate move) := by
  rw [originOf, List.find?_map]
  rfl

/-- The measures of a store that was filled from the classes: only the paths are changed. -/
theorem classMeasures_map_relocate (accepts : ClassUnit → Bool) (us : List ClassUnit) :
    classMeasures (us.map (·.relocate move)) (Store.empty.run (us.filter accepts)) =
      (classMeasures us (Store.empty.run (us.filter accepts))).map (·.relocate move) := by
  rw [classMeasures_eq, classMeasures_eq, List.map_flatMap]
  refine List.flatMap_congr fun e he => ?_
  rw [List.map_map]
  refine List.map_congr_left fun m _ => ?_
  -- a name in the store has a first class, so there is a path to change
  obtain ⟨r, hwin, -⟩ := mem_items_run.mp he
  obtain ⟨o, ho⟩ := exists_originOf hwin
  rw [Function.comp_apply, ClassMeasure.of, ClassMeasure.of, originOf_map_relocate, ho]
  rfl

/-! ### Source files -/

/-- A source file with its path changed. -/
def SourceFile.relocate (f : SourceFile) : SourceFile := { f with path := move f.path }

/-- Classes that were found, with their paths changed. -/
def Found.relocate (x : Found) : Found := { x with units := x.units.map (·.relocate move) }

theorem SourceFile.parse_relocate (g : Grammars) (language path : String) (bytes : List UInt8) :
    SourceFile.parse g language (move path) bytes = (SourceFile.parse g language path bytes).map (·.relocate move) := by
  unfold SourceFile.parse
  split
  · rfl
  · split
    · rfl
    · split <;> rfl

theorem qualify_relocate (r : Rules) (s : Scope) (x : Found) (name : String) :
    qualify r s (x.relocate move) name = ((qualify r s x name).1, (qualify r s x name).2.relocate move) := by
  unfold qualify
  cases s.enclosing with
  | none => rfl
  | some outer =>
    dsimp only
    split_ifs <;> rfl

/-- **One node** of the file at another path adds the same class, at that path. -/
theorem enter_relocate (f : SourceFile) (b : Bool) (s : Scope) (x : Found) (c : Cst) :
    enter (f.relocate move) b s (x.relocate move) c = ((enter f b s x c).1, (enter f b s x c).2.relocate move) := by
  have hname : (f.relocate move).declaredName c = f.declaredName c := rfl
  have hlanguage : (f.relocate move).language = f.language := rfl
  unfold enter
  simp only [hname, hlanguage, qualify_relocate]
  split_ifs <;> rfl

theorem visitAll_relocate {f : SourceFile} {b : Bool} {cs : List Cst}
    (h : ∀ c ∈ cs, ∀ s x, visit (f.relocate move) b s (x.relocate move) c = (visit f b s x c).relocate move) (s : Scope)
    (x : Found) : visitAll (f.relocate move) b s (x.relocate move) cs = (visitAll f b s x cs).relocate move := by
  induction cs generalizing x with
  | nil => rfl
  | cons c cs ih =>
    have hrest := ih fun d hd => h d (List.mem_cons_of_mem _ hd)
    rw [visitAll, visitAll]
    split_ifs
    · rw [h c List.mem_cons_self, hrest]
    · exact hrest x

/-- **The classes of a file** at another path are the same, at that path. By induction on the concrete tree. -/
theorem visit_relocate (f : SourceFile) (b : Bool) (s : Scope) (x : Found) (c : Cst) :
    visit (f.relocate move) b s (x.relocate move) c = (visit f b s x c).relocate move := by
  induction c using Cst.childInduction generalizing s x with
  | node c ih =>
    rw [visit_eq, visit_eq, enter_relocate]
    exact visitAll_relocate move ih _ _

theorem SourceFile.units_relocate (f : SourceFile) {root root' : Option String}
    (htop : (f.relocate move).topName root' = f.topName root) :
    (f.relocate move).units root' = (f.units root).map (·.map (·.relocate move)) := by
  rw [units_eq, units_eq, htop]
  cases f.topName root with
  | error p => rfl
  | ok top =>
    have hvisit := visit_relocate move f f.generated { namespaceName := top } {} f.root
    have hunits := congrArg (fun x : Found => x.units.reverse) hvisit
    refine congrArg Except.ok (hunits.trans ?_)
    exact List.map_reverse.symm

/-- The classes of a file have its path. -/
theorem SourceFile.path_of_mem_units {f : SourceFile} {root : Option String} {us : List ClassUnit}
    (h : f.units root = .ok us) {u : ClassUnit} (hu : u ∈ us) : u.path = f.path := by
  -- the file is where it is, so its classes stay as they are when they are given its path
  have hsame : f.units root = (f.units root).map (·.map (·.relocate fun _ => f.path)) :=
    f.units_relocate (fun _ => f.path) rfl
  rw [h] at hsame
  rw [Except.ok.inj hsame] at hu
  obtain ⟨v, -, rfl⟩ := List.mem_map.mp hu
  rfl

/-- A class put together from parts has the path of one of them. -/
theorem path_of_mem_mergePartial {us : List ClassUnit} {u : ClassUnit} (hu : u ∈ (mergePartial us).1) :
    ∃ v ∈ us, u.path = v.path := by
  suffices hmem : ∀ (all : List ClassUnit) (done : List String) (us : List ClassUnit),
      ∀ u ∈ (mergeFrom all done us).1, ∃ v ∈ us, u.path = v.path from hmem us [] us u hu
  intro all done us
  induction us generalizing done with
  | nil => exact fun _ h => nomatch h
  | cons v us ih =>
    have hlater : ∀ {done : List String} {x : ClassUnit}, x ∈ (mergeFrom all done us).1 →
        ∃ y ∈ v :: us, x.path = y.path := fun hx =>
      let ⟨y, hy, hpath⟩ := ih _ _ hx
      ⟨y, List.mem_cons_of_mem _ hy, hpath⟩
    intro x hx
    simp only [mergeFrom] at hx
    split_ifs at hx
    · exact hlater hx
    · rcases List.mem_cons.mp hx with rfl | hx
      · exact ⟨v, List.mem_cons_self, rfl⟩
      · exact hlater hx
    · rcases List.mem_cons.mp hx with rfl | hx
      · exact ⟨x, List.mem_cons_self, rfl⟩
      · exact hlater hx

end HandlerComplexity
