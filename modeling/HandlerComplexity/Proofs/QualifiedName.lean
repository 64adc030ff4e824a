import HandlerComplexity.Proofs.Naming

/-!
# The classes of a file and their names

* `SourceFile.scopeAt`: what is carried down to a site; `Found.Holds`: what is known once some classes are visited.
* `qualify_scopeAt`: the name of one class; `holds_enter`: what one node adds; `holds_visit`: what a tree adds.
* `units_eq_of_isNaming`: the classes of a file, in preorder, with the names that they get from their paths.
* `units_named_by_paths`: exactly when a file has no classes to return, and what they are otherwise.
-/

namespace HandlerComplexity

/-! ## What is carried down -/

namespace SourceFile

variable (f : SourceFile) (name : Site → String) (top : String)

/-- The unit of a class. -/
def unitAt (o : Site) : ClassUnit where
  qualifiedName := name o
  root := toTree f.language.rules [] o.node
  path := f.path
  language := f.language.name
  generated := f.generated || f.hasGeneratedMark o.node
  isPartial := f.isPartial o.node

theorem map_qualifiedName_unitAt (sites : List Site) :
    (sites.map (f.unitAt name)).map (·.qualifiedName) = sites.map name := by
  rw [List.map_map]
  rfl

/-- What is carried down to a site. -/
def scopeAt (o : Site) : Scope where
  namespaceName := (f.namespaces o).foldl joinNames top
  enclosing := f.outerName name o
  ancestors := o.above.map (·.nodeType)

theorem isLocal_scopeAt (o : Site) : (f.scopeAt name top o).isLocal f.language.rules = f.isLocal o := by
  rw [Scope.isLocal, scopeAt, List.takeWhile_map, List.any_map]
  rfl

/-! A node is a namespace, a class with a name, or neither. For each of these: what is carried down to its children, and
what it adds. -/

section Node

variable {f} {c : Cst} (place : List Nat) (above : List Cst) (k : Nat) (d : Cst) (b : Bool) (s : Scope) (x : Found)

theorem scopeAt_child_of_isNamespace (h : f.isNamespace c = true) :
    f.scopeAt name top ⟨k :: place, c :: above, d⟩ =
      { namespaceName := joinNames (f.scopeAt name top ⟨place, above, c⟩).namespaceName (f.declaredName c)
        enclosing := none
        ancestors := c.nodeType :: (f.scopeAt name top ⟨place, above, c⟩).ancestors } := by
  rw [scopeAt, namespaces_child, List.foldl_append, outerName, enclosing_child, if_pos h, if_pos h]
  rfl

theorem enter_of_isNamespace (h : f.isNamespace c = true) :
    enter f b s x c =
      ({ namespaceName := joinNames s.namespaceName (f.declaredName c), enclosing := none,
         ancestors := c.nodeType :: s.ancestors }, x) := if_pos h

theorem scopeAt_child_of_isNamedClass (hns : f.isNamespace c = false) (h : f.isNamedClass c = true) :
    f.scopeAt name top ⟨k :: place, c :: above, d⟩ =
      { namespaceName := (f.scopeAt name top ⟨place, above, c⟩).namespaceName
        enclosing := some (name ⟨place, above, c⟩)
        ancestors := c.nodeType :: (f.scopeAt name top ⟨place, above, c⟩).ancestors } := by
  rw [scopeAt, namespaces_child, List.foldl_append, outerName, enclosing_child, hns, h]
  rfl

theorem enter_of_isNamedClass (h : f.isNamedClass c = true) :
    enter f b s x c =
      ({ namespaceName := s.namespaceName
         enclosing := some (qualify f.language.rules s x (f.declaredName c)).1
         ancestors := c.nodeType :: s.ancestors },
        { (qualify f.language.rules s x (f.declaredName c)).2 with
          units :=
            { qualifiedName := (qualify f.language.rules s x (f.declaredName c)).1
              root := toTree f.language.rules [] c
              path := f.path
              language := f.language.name
              generated := b || f.hasGeneratedMark c
              isPartial := f.isPartial c } :: (qualify f.language.rules s x (f.declaredName c)).2.units }) := by
  simp only [isNamedClass, Bool.and_eq_true, decide_eq_true_eq] at h
  have hns : f.language.rules.namespaceTypes.contains c.nodeType = false := isNamespace_eq_false h.1
  rw [enter, hns, h.1]
  dsimp only
  rw [if_neg (by decide), if_pos rfl, if_neg h.2]

theorem scopeAt_child_of_other (hns : f.isNamespace c = false) (h : f.isNamedClass c = false) :
    f.scopeAt name top ⟨k :: place, c :: above, d⟩ =
      { f.scopeAt name top ⟨place, above, c⟩ with
        ancestors := c.nodeType :: (f.scopeAt name top ⟨place, above, c⟩).ancestors } := by
  rw [scopeAt, namespaces_child, List.foldl_append, outerName, enclosing_child, hns, h]
  rfl

theorem enter_of_other (hns : f.isNamespace c = false) (h : f.isNamedClass c = false) :
    enter f b s x c = ({ s with ancestors := c.nodeType :: s.ancestors }, x) := by
  have hns : f.language.rules.namespaceTypes.contains c.nodeType = false := hns
  rw [enter, hns]
  dsimp only
  rw [if_neg (by decide)]
  split_ifs with hclass hempty
  · rfl
  · rw [isNamedClass, hclass] at h
    simp [hempty] at h
  · rfl

end Node

end SourceFile

/-! ## What is found -/

/-- Whether a class is a numbered one of a name inside a class of a qualified name. -/
def SourceFile.isCounted (f : SourceFile) (name : Site → String) (outer n : String) (b : Site) : Bool :=
  f.isNumbered b && f.declaredName b.node = n && f.outerName name b = some outer

/-- Some classes are visited: the units are those of these classes, and the local classes among them are counted. -/
structure Found.Holds (f : SourceFile) (name : Site → String) (done : List Site) (x : Found) : Prop where
  units : x.units.reverse = done.map (f.unitAt name)
  locals : ∀ outer n, x.localCount outer n = done.countP (f.isCounted name outer n)

/-- The number of local classes of a name after one more is counted. -/
theorem Found.localCount_cons (x : Found) (outer name outer' name' : String) (k : Nat) :
    ({ x with locals := ((outer, name), k) :: x.locals } : Found).localCount outer' name' =
      if outer' = outer ∧ name' = name then k else x.localCount outer' name' := by
  unfold localCount
  rw [List.lookup_cons]
  by_cases h : outer' = outer ∧ name' = name
  · rw [if_pos h, h.1, h.2, beq_self_eq_true]
    rfl
  · have hne : ((outer', name') == (outer, name)) = false := by simpa using h
    rw [if_neg h, hne]

section Run

variable {f : SourceFile} {name : Site → String} {top : String}

theorem SourceFile.number_eq {o : Site} {outer : String} (houter : f.outerName name o = some outer) :
    f.number name o = (f.before o).countP (f.isCounted name outer (f.declaredName o.node)) + 1 := by
  rw [number, houter]
  rfl

variable (hnaming : f.IsNaming name top)

include hnaming

/-- **The name of one class**, and the count of local classes after it. -/
theorem qualify_scopeAt {o : Site} {done rest : List Site} (hsplit : f.classSites = done ++ o :: rest) {x : Found}
    (hx : x.Holds f name done) :
    (qualify f.language.rules (f.scopeAt name top o) x (f.declaredName o.node)).1 = name o ∧
      (qualify f.language.rules (f.scopeAt name top o) x (f.declaredName o.node)).2.units = x.units ∧
      ∀ outer n, (qualify f.language.rules (f.scopeAt name top o) x (f.declaredName o.node)).2.localCount outer n =
        (done ++ [o]).countP (f.isCounted name outer n) := by
  have hmem : o ∈ f.classSites := hsplit ▸ List.mem_append_right _ List.mem_cons_self
  have hplain : f.isNumbered o = false → ∀ outer n,
      x.localCount outer n = (done ++ [o]).countP (f.isCounted name outer n) := by
    intro hno outer n
    rw [hx.locals, List.countP_append, List.countP_singleton, SourceFile.isCounted, hno]
    rfl
  unfold qualify
  rw [f.isLocal_scopeAt name top o, show (f.scopeAt name top o).enclosing = f.outerName name o from rfl]
  cases he : f.enclosing o with
  | nil =>
    have hno : f.isNumbered o = false := by rw [f.isNumbered_eq, he]; rfl
    rw [SourceFile.outerName, he]
    exact ⟨(hnaming.eq_outermost hmem he).symm, rfl, hplain hno⟩
  | cons e es =>
    have houter : f.outerName name o = some (name e) := SourceFile.outerName_of_enclosing he
    have hname := hnaming.eq_inner hmem he
    have hnumbered : f.isNumbered o = f.isLocal o := SourceFile.isNumbered_of_enclosing he
    rw [SourceFile.segment, hnumbered] at hname
    rw [houter]
    dsimp only
    cases hl : f.isLocal o with
    | false =>
      rw [hl] at hname hnumbered
      exact ⟨hname.symm, rfl, hplain hnumbered⟩
    | true =>
      rw [hl] at hname hnumbered
      -- the table holds the number of the last local class of this name
      have hnumber : f.number name o = x.localCount (name e) (f.declaredName o.node) + 1 := by
        rw [SourceFile.number_eq houter, SourceFile.before_eq hsplit, hx.locals]
      refine ⟨by rw [hname, hnumber, if_pos rfl, if_pos rfl, ← String.append_assoc], rfl, fun outer n => ?_⟩
      rw [if_pos rfl, Found.localCount_cons, List.countP_append, List.countP_singleton, SourceFile.isCounted, hnumbered,
        houter, hx.locals, hx.locals]
      by_cases hkey : outer = name e ∧ n = f.declaredName o.node
      · rw [if_pos hkey, hkey.1, hkey.2]
        simp
      · have hno : ¬ (f.declaredName o.node = n ∧ name e = outer) := fun h => hkey ⟨h.2.symm, h.1.symm⟩
        rw [if_neg hkey]
        simpa using fun h => not_and.mp hno h

/-- **What one node adds**: its class, if it has a name, and what is carried down to its children. -/
theorem holds_enter {o : Site} {done rest : List Site}
    (hsplit : f.classSites = done ++ [o].filter (f.isNamedClass ·.node) ++ rest) {x : Found} (hx : x.Holds f name done) :
    (enter f f.generated (f.scopeAt name top o) x o.node).2.Holds f name (done ++ [o].filter (f.isNamedClass ·.node)) ∧
      ∀ k d, (enter f f.generated (f.scopeAt name top o) x o.node).1 =
        f.scopeAt name top ⟨k :: o.place, o.node :: o.above, d⟩ := by
  obtain ⟨place, above, c⟩ := o
  rw [List.filter_singleton] at hsplit ⊢
  dsimp only at hsplit ⊢
  cases hclass : f.isNamedClass c with
  | true =>
    rw [hclass, cond_true, List.append_assoc, List.singleton_append] at hsplit
    have hns : f.isNamespace c = false := SourceFile.isNamespace_eq_false (Bool.and_eq_true_iff.mp hclass).1
    obtain ⟨hname, hunits, hlocals⟩ := qualify_scopeAt hnaming hsplit hx
    rw [SourceFile.enter_of_isNamedClass _ _ _ hclass, cond_true]
    dsimp only at hname hunits hlocals ⊢
    refine ⟨⟨?_, hlocals⟩, fun k d => ?_⟩
    · dsimp only
      rw [List.reverse_cons, hunits, hx.units, hname, List.map_append]
      rfl
    · rw [SourceFile.scopeAt_child_of_isNamedClass name top place above k d hns hclass, hname]
  | false =>
    rw [cond_false, List.append_nil]
    cases hns : f.isNamespace c with
    | true =>
      rw [SourceFile.enter_of_isNamespace _ _ _ hns]
      exact ⟨hx, fun k d => (SourceFile.scopeAt_child_of_isNamespace name top place above k d hns).symm⟩
    | false =>
      rw [SourceFile.enter_of_other _ _ _ hns hclass]
      exact ⟨hx, fun k d => (SourceFile.scopeAt_child_of_other name top place above k d hns hclass).symm⟩

omit hnaming in
theorem holds_visitAll {cs : List Cst}
    (hall : ∀ c ∈ cs, ∀ place above done rest x,
      f.classSites = done ++ (c.sitesBelow place above).filter (f.isNamedClass ·.node) ++ rest → x.Holds f name done →
        (visit f f.generated (f.scopeAt name top ⟨place, above, c⟩) x c).Holds f name
          (done ++ (c.sitesBelow place above).filter (f.isNamedClass ·.node)))
    {place : List Nat} {above : List Cst} {s : Scope} (hs : ∀ k d, s = f.scopeAt name top ⟨k :: place, above, d⟩)
    {i : Nat} {done rest : List Site} {x : Found}
    (hsplit : f.classSites = done ++ (Cst.sitesBelowAll place above i cs).filter (f.isNamedClass ·.node) ++ rest)
    (hx : x.Holds f name done) :
    (visitAll f f.generated s x cs).Holds f name
      (done ++ (Cst.sitesBelowAll place above i cs).filter (f.isNamedClass ·.node)) := by
  induction cs generalizing i done x with
  | nil =>
    rw [visitAll, Cst.sitesBelowAll, List.filter_nil, List.append_nil]
    exact hx
  | cons c cs ih =>
    have hbelow := fun d hd => hall d (List.mem_cons_of_mem c hd)
    rw [visitAll]
    rw [Cst.sitesBelowAll] at hsplit ⊢
    split_ifs at hsplit ⊢ with hnamed
    · rw [List.filter_append, ← List.append_assoc] at hsplit ⊢
      have hc := hall c List.mem_cons_self (i :: place) above done _ x (hsplit.trans (List.append_assoc _ _ _)) hx
      rw [← hs i c] at hc
      exact ih hbelow hsplit hc
    · exact ih hbelow hsplit hx

/-- **The classes of a tree**, visited after others. By induction on the tree: what is carried down to a site depends on
what is above it and on nothing that was visited beside it. -/
theorem holds_visit {c : Cst} {place : List Nat} {above : List Cst} {done rest : List Site} {x : Found}
    (hsplit : f.classSites = done ++ (c.sitesBelow place above).filter (f.isNamedClass ·.node) ++ rest)
    (hx : x.Holds f name done) :
    (visit f f.generated (f.scopeAt name top ⟨place, above, c⟩) x c).Holds f name
      (done ++ (c.sitesBelow place above).filter (f.isNamedClass ·.node)) := by
  induction c using Cst.childInduction generalizing place above done rest x with
  | node c ih =>
    rw [Cst.sitesBelow_eq_cons, ← List.singleton_append, List.filter_append, ← List.append_assoc] at hsplit ⊢
    obtain ⟨hholds, hscope⟩ := holds_enter (o := ⟨place, above, c⟩) hnaming (by rw [hsplit, List.append_assoc]) hx
    rw [visit_eq]
    exact holds_visitAll (fun d hd place above done rest x => ih d hd) hscope hsplit hholds

end Run

/-- **The classes of a file** have the names that they get from their paths, and are returned in preorder. -/
theorem SourceFile.units_eq_of_isNaming {f : SourceFile} {name : Site → String} {moduleRoot : Option String}
    {top : String} (htop : f.topName moduleRoot = .ok top) (hnaming : f.IsNaming name top) :
    f.units moduleRoot = .ok (f.classSites.map (f.unitAt name)) := by
  have hstart : Found.Holds f name [] {} := ⟨rfl, fun _ _ => rfl⟩
  have hsplit : f.classSites = [] ++ f.classSites ++ [] := (List.append_nil _).symm
  have hvisit := holds_visit hnaming hsplit hstart
  rw [units_eq, htop]
  exact congrArg Except.ok hvisit.units

/-! ## Files without a name -/

/-- The path of a file below the root of the modules; the whole path, if it does not lie below it. -/
def SourceFile.pathBelow (f : SourceFile) (moduleRoot : Option String) : Path :=
  match moduleRoot with
  | none => Path.ofString f.path
  | some r => if r = "" then Path.ofString f.path else ((Path.ofString f.path).relativeTo? (Path.ofString r)).getD
      (Path.ofString f.path)

/-- Classes are qualified by the module, that is by the path of the file, and the path has no last part: it is a dot, a
slash, or the root of the modules itself. -/
def SourceFile.IsNameless (f : SourceFile) (moduleRoot : Option String) : Prop :=
  f.language.rules.moduleScoped = true ∧ f.path ≠ "" ∧ f.path.toList.head? ≠ some '<' ∧
    (f.pathBelow moduleRoot).name = ""

instance (f : SourceFile) (moduleRoot : Option String) : Decidable (f.IsNameless moduleRoot) :=
  inferInstanceAs (Decidable (_ ∧ _))

theorem SourceFile.moduleName_eq {f : SourceFile} (hempty : f.path ≠ "") (hbracket : f.path.toList.head? ≠ some '<')
    (moduleRoot : Option String) :
    moduleName f.path moduleRoot = (f.pathBelow moduleRoot).withoutSuffix.map fun p =>
      ".".intercalate ((dropPackageFile p.components).filter fun s => s ≠ "" ∧ s ≠ "." ∧ s ≠ "/") := by
  have hfile : ¬ (f.path.toList.head? = none ∨ f.path.toList.head? = some '<') := by
    simpa [hempty] using hbracket
  rw [moduleName, if_neg hfile]
  dsimp only
  split
  case h_1 p hp =>
    have hbelow : (f.pathBelow moduleRoot).withoutSuffix = .error p := hp
    rw [hbelow]
    rfl
  case h_2 p hp =>
    have hbelow : (f.pathBelow moduleRoot).withoutSuffix = .ok p := hp
    rw [hbelow]
    rfl

theorem SourceFile.topName_of_isNameless {f : SourceFile} {moduleRoot : Option String} (h : f.IsNameless moduleRoot) :
    f.topName moduleRoot = .error (f.pathBelow moduleRoot) := by
  obtain ⟨hscoped, hempty, hbracket, hname⟩ := h
  rw [topName, if_pos hscoped, moduleName_eq hempty hbracket, Path.withoutSuffix, if_pos hname]
  rfl

theorem SourceFile.exists_topName {f : SourceFile} {moduleRoot : Option String} (h : ¬ f.IsNameless moduleRoot) :
    ∃ top, f.topName moduleRoot = .ok top := by
  rw [topName]
  by_cases hscoped : f.language.rules.moduleScoped = true
  · rw [if_pos hscoped]
    by_cases hfile : f.path.toList.head? = none ∨ f.path.toList.head? = some '<'
    · exact ⟨_, if_pos hfile⟩
    · simp only [not_or, List.head?_eq_none_iff, String.toList_eq_nil_iff] at hfile
      have hname : (f.pathBelow moduleRoot).name ≠ "" := fun hname => h ⟨hscoped, hfile.1, hfile.2, hname⟩
      rw [moduleName_eq hfile.1 hfile.2, Path.withoutSuffix, if_neg hname]
      exact ⟨_, rfl⟩
  · exact ⟨_, if_neg hscoped⟩

/-- **The classes of a file are named by their paths.** A file whose module has no name has none to return. For every other
file, in each language, there is one unit for every class that has a name and is reached through named children, in
preorder. Its qualified name is made of the package or module, the namespaces around the class and the segments of the
classes around it up to the innermost namespace; there is one such naming of the classes and no other. -/
theorem units_named_by_paths (f : SourceFile) (moduleRoot : Option String) :
    (f.IsNameless moduleRoot → f.units moduleRoot = .error (f.pathBelow moduleRoot)) ∧
    (¬ f.IsNameless moduleRoot → ∃ top name, f.topName moduleRoot = .ok top ∧
      f.units moduleRoot = .ok (f.classSites.map (f.unitAt name)) ∧ f.IsNaming name top ∧
        ∀ name', f.IsNaming name' top → ∀ o ∈ f.classSites, name' o = name o) := by
  constructor
  · intro h
    rw [SourceFile.units, SourceFile.topName_of_isNameless h]
  · intro h
    obtain ⟨top, htop⟩ := SourceFile.exists_topName h
    obtain ⟨name, hnaming⟩ := f.exists_isNaming top
    exact ⟨top, name, htop, SourceFile.units_eq_of_isNaming htop hnaming, hnaming, fun _ h' => h'.eqOn hnaming⟩

/-- A class `A` with a local class `L` in each of two methods, and a class `M` inside the second one. -/
def localsFile : SourceFile where
  path := "A.java"
  language := .java
  bytes := "package p; class A { void f() { class L {} } void g() { class L { class M {} } } }".toUTF8.toList
  root := .ofRows [⟨0, "program", 0, 82, 0, true, none⟩, ⟨1, "package_declaration", 0, 10, 0, true, none⟩,
    ⟨2, "identifier", 8, 9, 0, true, none⟩, ⟨1, "class_declaration", 11, 82, 0, true, none⟩,
    ⟨2, "identifier", 17, 18, 0, true, some "name"⟩, ⟨2, "class_body", 19, 82, 0, true, some "body"⟩,
    ⟨3, "method_declaration", 21, 44, 0, true, none⟩, ⟨4, "block", 30, 44, 0, true, some "body"⟩,
    ⟨5, "class_declaration", 32, 42, 0, true, none⟩, ⟨6, "identifier", 38, 39, 0, true, some "name"⟩,
    ⟨6, "class_body", 40, 42, 0, true, some "body"⟩, ⟨3, "method_declaration", 45, 80, 0, true, none⟩,
    ⟨4, "block", 54, 80, 0, true, some "body"⟩, ⟨5, "class_declaration", 56, 78, 0, true, none⟩,
    ⟨6, "identifier", 62, 63, 0, true, some "name"⟩, ⟨6, "class_body", 64, 78, 0, true, some "body"⟩,
    ⟨7, "class_declaration", 66, 76, 0, true, none⟩, ⟨8, "identifier", 72, 73, 0, true, some "name"⟩,
    ⟨8, "class_body", 74, 76, 0, true, some "body"⟩]

/-- A class `A` in a module whose path is a dot. -/
def dotFile : SourceFile where
  path := "."
  language := .python
  bytes := "class A: pass".toUTF8.toList
  root := .ofRows [⟨0, "module", 0, 13, 0, true, none⟩, ⟨1, "class_definition", 0, 13, 0, true, none⟩,
    ⟨2, "identifier", 6, 7, 0, true, some "name"⟩, ⟨2, "block", 9, 13, 0, true, some "body"⟩]

/-- The local classes are numbered, and the class inside one of them is not. -/
theorem locals_named_by_paths :
    ¬ localsFile.IsNameless none ∧ dotFile.IsNameless none ∧ dotFile.units none = .error { } ∧
      ∃ name, localsFile.IsNaming name "p" ∧
        localsFile.classSites.map name = ["p.A", "p.A$1L", "p.A$2L", "p.A$2L$M"] := by
  have hnamed : ¬ localsFile.IsNameless none := by decide +kernel
  have hnameless : dotFile.IsNameless none := by decide +kernel
  refine ⟨hnamed, hnameless, (units_named_by_paths dotFile none).1 hnameless, ?_⟩
  obtain ⟨top, name, htop, hunits, hnaming, -⟩ := (units_named_by_paths localsFile none).2 hnamed
  obtain rfl : top = "p" := by
    have hp : localsFile.topName none = .ok "p" := by decide +kernel
    exact Except.ok.inj (htop.symm.trans hp)
  have hnames : (localsFile.units none).map (·.map (·.qualifiedName)) =
      .ok ["p.A", "p.A$1L", "p.A$2L", "p.A$2L$M"] := by decide +kernel
  rw [hunits] at hnames
  exact ⟨name, hnaming, (localsFile.map_qualifiedName_unitAt name _).symm.trans (Except.ok.inj hnames)⟩

/-- The file has a class with a name, yet it has no classes to return. -/
theorem dot_has_no_units : dotFile.classSites.length = 1 ∧ ∀ us, dotFile.units none ≠ .ok us := by
  refine ⟨by decide +kernel, fun us hus => ?_⟩
  have htop : dotFile.topName none = .error { } := by decide +kernel
  rw [SourceFile.units, htop] at hus
  cases hus

end HandlerComplexity
