import HandlerComplexity.Proofs.QualifiedName

/-!
# Local classes

A local class of Java is numbered among the classes of its name inside the same class. What makes a class local is a list
of node types, and the body of a constructor is not among them: a class declared there is named as if it were a member.

* `number_lt`, `number_ne`: of two numbered classes of one name inside one class, the later has the greater number.
* `local_class_numbered_iff`: which classes inside a class are numbered, and which of one declared name get the same name.
* `constructor_locals_collide`: the classes of two constructors.
-/

namespace HandlerComplexity

/-- The types of the nodes that make a class of Java local. The body of a constructor is none of them. -/
def localScopes : List String :=
  ["block", "switch_block_statement_group", "object_creation_expression", "enum_constant"]

/-! ## Numbers -/

theorem toDigits_inj {k k' : Nat} (h : Nat.toDigits 10 k = Nat.toDigits 10 k') : k = k' := by
  rw [← Nat.ofDigitChars_ten_toDigits (n := k), h, Nat.ofDigitChars_ten_toDigits]

/-- A number in front makes a name longer. -/
theorem toString_append_ne (k : Nat) (s : String) : toString k ++ s ≠ s := by simp

namespace SourceFile

variable {f : SourceFile} {name : Site → String} {o o' : Site}

/-- A class is known by its place. -/
theorem eq_of_place (ho : o ∈ f.classSites) (ho' : o' ∈ f.classSites) (h : o.place = o'.place) : o = o' :=
  List.inj_on_of_nodup_map f.nodup_places_classSites ho ho' h

theorem mem_before_or (ho : o ∈ f.classSites) (ho' : o' ∈ f.classSites) (hne : o ≠ o') :
    o ∈ f.before o' ∨ o' ∈ f.before o := by
  obtain ⟨l₂, hsplit⟩ := exists_classSites_eq ho'
  rw [hsplit] at ho
  rcases List.mem_append.mp ho with ho | ho
  · exact .inl ho
  · obtain ⟨m₁, m₂, rfl⟩ := List.append_of_mem (List.mem_of_ne_of_mem hne ho)
    rw [← List.cons_append, ← List.append_assoc] at hsplit
    rw [before_eq hsplit]
    exact .inr (List.mem_append_right _ List.mem_cons_self)

/-- Two numbered classes of one declared name, whose nearest classes around have one qualified name. -/
structure SharesNumbers (f : SourceFile) (name : Site → String) (o o' : Site) : Prop where
  left : f.isNumbered o = true
  right : f.isNumbered o' = true
  declared : f.declaredName o.node = f.declaredName o'.node
  outer : f.outerName name o = f.outerName name o'

theorem SharesNumbers.symm (h : f.SharesNumbers name o o') : f.SharesNumbers name o' o :=
  ⟨h.right, h.left, h.declared.symm, h.outer.symm⟩

/-- Numbers grow from class to class. -/
theorem number_lt (h : f.SharesNumbers name o o') (ho' : o' ∈ f.classSites) (hb : o ∈ f.before o') :
    f.number name o < f.number name o' := by
  obtain ⟨l₂, hsplit⟩ := exists_classSites_eq ho'
  obtain ⟨m₁, m₂, hm⟩ := List.append_of_mem hb
  rw [hm, List.append_assoc, List.cons_append] at hsplit
  have hself : (f.isNumbered o && decide (f.declaredName o.node = f.declaredName o'.node) &&
      decide (f.outerName name o = f.outerName name o')) = true := by
    simp [h.left, h.declared, h.outer]
  rw [number, number, before_eq hsplit, hm, h.declared, h.outer, List.countP_append,
    List.countP_cons_of_pos (by simpa using hself)]
  omega

theorem number_ne (h : f.SharesNumbers name o o') (ho : o ∈ f.classSites) (ho' : o' ∈ f.classSites) (hne : o ≠ o') :
    f.number name o ≠ f.number name o' := by
  rcases mem_before_or ho ho' hne with hb | hb
  · exact (number_lt h ho' hb).ne
  · exact (number_lt h.symm ho hb).ne'

/-! ## Java -/

/-- Whether a node of one of some types lies between a site and the nearest class above, with or without a name. -/
def isWithin (f : SourceFile) (types : List String) (o : Site) : Bool :=
  (o.above.takeWhile (!f.language.rules.classTypes.contains ·.nodeType)).any (types.contains ·.nodeType)

/-- A Java file always has classes to return. -/
theorem exists_java_naming (hjava : f.language = .java) (moduleRoot : Option String) :
    ∃ name, f.units moduleRoot = .ok (f.classSites.map (f.unitAt name)) ∧ f.IsNaming name f.packageName := by
  have htop : f.topName moduleRoot = .ok f.packageName := by
    rw [topName, hjava]
    rfl
  obtain ⟨name, hnaming⟩ := f.exists_isNaming f.packageName
  exact ⟨name, units_eq_of_isNaming htop hnaming, hnaming⟩

theorem exists_enclosing_of_outerName {outer : String} (h : f.outerName name o = some outer) :
    ∃ e es, f.enclosing o = e :: es ∧ name e = outer := by
  cases he : f.enclosing o with
  | nil =>
    rw [outerName, he] at h
    cases h
  | cons e es => exact ⟨e, es, rfl, Option.some.inj ((outerName_of_enclosing he).symm.trans h)⟩

/-- Of two classes of one declared name inside classes of one name, the segments are the same only if neither is
numbered. -/
theorem segment_eq_iff (ho : o ∈ f.classSites) (ho' : o' ∈ f.classSites) (hne : o ≠ o')
    (hdeclared : f.declaredName o.node = f.declaredName o'.node) (houter : f.outerName name o = f.outerName name o') :
    f.segment name o = f.segment name o' ↔ f.isNumbered o = false ∧ f.isNumbered o' = false := by
  rw [segment, segment, hdeclared]
  cases hn : f.isNumbered o with
  | false =>
    cases hn' : f.isNumbered o' with
    | false => simp
    | true => simpa using (toString_append_ne (f.number name o') (f.declaredName o'.node)).symm
  | true =>
    cases hn' : f.isNumbered o' with
    | false => simp
    | true =>
      have hnumber : toString (f.number name o) ≠ toString (f.number name o') := fun h =>
        number_ne ⟨hn, hn', hdeclared, houter⟩ ho ho' hne (toDigits_inj (String.ofList_injective h))
      simpa using hnumber

end SourceFile

/-- **Which classes of Java are numbered.** A class inside a class with a name is numbered, from one on, if a block, a
group of a switch, an object creation or an enum constant lies between it and the nearest class, and has the name of a member
if none does, also in the body of a constructor. Two classes of one declared name inside classes of one name get different
names, unless none of these lies around either of them; then they get the same name. -/
theorem local_class_numbered_iff (f : SourceFile) (hjava : f.language = .java) (moduleRoot : Option String) :
    ∃ name, f.units moduleRoot = .ok (f.classSites.map (f.unitAt name)) ∧
      ∀ o ∈ f.classSites, ∀ e es, f.enclosing o = e :: es →
        (f.isWithin localScopes o = true →
          ∃ k, 1 ≤ k ∧ name o = name e ++ "$" ++ toString k ++ f.declaredName o.node) ∧
        (f.isWithin localScopes o = false → name o = name e ++ "$" ++ f.declaredName o.node) ∧
        ∀ o' ∈ f.classSites, o ≠ o' → f.declaredName o.node = f.declaredName o'.node →
          f.outerName name o' = some (name e) →
            (name o = name o' ↔ f.isWithin localScopes o = false ∧ f.isWithin localScopes o' = false) := by
  obtain ⟨name, hunits, hnaming⟩ := SourceFile.exists_java_naming hjava moduleRoot
  refine ⟨name, hunits, fun o ho e es he => ?_⟩
  have hscope : ∀ b, f.isWithin localScopes b = f.isLocal b := by
    intro b
    rw [SourceFile.isWithin, SourceFile.isLocal, hjava]
    rfl
  have hsep : f.language.rules.nestedSeparator = "$" := by
    rw [hjava]
    rfl
  have hname := hnaming.eq_inner ho he
  rw [hsep] at hname
  simp only [hscope]
  refine ⟨fun hlocal => ⟨f.number name o, Nat.le_add_left _ _, ?_⟩, fun hplain => ?_, ?_⟩
  · rw [hname, SourceFile.segment, SourceFile.isNumbered_of_enclosing he, hlocal, if_pos rfl, ← String.append_assoc]
  · rw [hname, SourceFile.segment, SourceFile.isNumbered_of_enclosing he, hplain, if_neg (by decide)]
  · intro o' ho' hne hdeclared houter
    obtain ⟨e', es', he', hname_e⟩ := SourceFile.exists_enclosing_of_outerName houter
    have hname' := hnaming.eq_inner ho' he'
    rw [hsep, hname_e] at hname'
    rw [hname, hname', String.append_right_inj, SourceFile.segment_eq_iff ho ho' hne hdeclared
      ((SourceFile.outerName_of_enclosing he).trans houter.symm), SourceFile.isNumbered_of_enclosing he,
      SourceFile.isNumbered_of_enclosing he']

/-- A class `A` with a class `L` in each of two constructors, and one more in a block of the second. -/
def constructorsFile : SourceFile where
  path := "A.java"
  language := .java
  bytes := "class A { A() { class L {} } A(int x) { class L {} { class L {} } } }".toUTF8.toList
  root := .ofRows [⟨0, "program", 0, 69, 0, true, none⟩, ⟨1, "class_declaration", 0, 69, 0, true, none⟩,
    ⟨2, "identifier", 6, 7, 0, true, some "name"⟩, ⟨2, "class_body", 8, 69, 0, true, some "body"⟩,
    ⟨3, "constructor_declaration", 10, 28, 0, true, none⟩, ⟨4, "constructor_body", 14, 28, 0, true, some "body"⟩,
    ⟨5, "class_declaration", 16, 26, 0, true, none⟩, ⟨6, "identifier", 22, 23, 0, true, some "name"⟩,
    ⟨6, "class_body", 24, 26, 0, true, some "body"⟩, ⟨3, "constructor_declaration", 29, 67, 0, true, none⟩,
    ⟨4, "constructor_body", 38, 67, 0, true, some "body"⟩, ⟨5, "class_declaration", 40, 50, 0, true, none⟩,
    ⟨6, "identifier", 46, 47, 0, true, some "name"⟩, ⟨6, "class_body", 48, 50, 0, true, some "body"⟩,
    ⟨5, "block", 51, 65, 0, true, none⟩, ⟨6, "class_declaration", 53, 63, 0, true, none⟩,
    ⟨7, "identifier", 59, 60, 0, true, some "name"⟩, ⟨7, "class_body", 61, 63, 0, true, some "body"⟩]

/-- The class in the block is numbered. Those directly in the constructors are not, and so get the same name. -/
theorem constructors_numbered_iff :
    constructorsFile.language = .java ∧
      ∃ name, constructorsFile.units none = .ok (constructorsFile.classSites.map (constructorsFile.unitAt name)) ∧
        (∃ o ∈ constructorsFile.classSites, ∃ e, constructorsFile.enclosing o = [e] ∧
          ∃ k, 1 ≤ k ∧ name o = name e ++ "$" ++ toString k ++ constructorsFile.declaredName o.node) ∧
        ∃ o ∈ constructorsFile.classSites, ∃ o' ∈ constructorsFile.classSites, o ≠ o' ∧
          constructorsFile.isWithin ["constructor_body"] o = true ∧
          constructorsFile.isWithin ["constructor_body"] o' = true ∧ name o = name o' := by
  have hinner : ∃ o ∈ constructorsFile.classSites, (constructorsFile.enclosing o).length = 1 ∧
      constructorsFile.isWithin localScopes o = true := by decide +kernel
  have hdirect : ∃ o ∈ constructorsFile.classSites, ∃ o' ∈ constructorsFile.classSites, o.place ≠ o'.place ∧
      ((constructorsFile.enclosing o).map (·.place) = [[0]] ∧ (constructorsFile.enclosing o').map (·.place) = [[0]]) ∧
      constructorsFile.declaredName o.node = constructorsFile.declaredName o'.node ∧
      (constructorsFile.isWithin ["constructor_body"] o = true ∧
        constructorsFile.isWithin ["constructor_body"] o' = true) ∧
      constructorsFile.isWithin localScopes o = false ∧
      constructorsFile.isWithin localScopes o' = false := by decide +kernel
  obtain ⟨name, hunits, hall⟩ := local_class_numbered_iff constructorsFile rfl none
  refine ⟨rfl, name, hunits, ?_, ?_⟩
  · obtain ⟨o, ho, hlength, hscope⟩ := hinner
    obtain ⟨e, he⟩ := List.length_eq_one_iff.mp hlength
    exact ⟨o, ho, e, he, (hall o ho e [] he).1 hscope⟩
  · obtain ⟨o, ho, o', ho', hplace, ⟨he, he'⟩, hdeclared, ⟨hbody, hbody'⟩, hscope, hscope'⟩ := hdirect
    obtain ⟨e, he, hplace_e⟩ := List.map_eq_singleton_iff.mp he
    obtain ⟨e', he', hplace_e'⟩ := List.map_eq_singleton_iff.mp he'
    have hne : o ≠ o' := fun h => hplace (congrArg Site.place h)
    have hsame : e' = e := by
      refine SourceFile.eq_of_place (f := constructorsFile) ?_ ?_ (hplace_e'.trans hplace_e.symm)
      · exact SourceFile.mem_classSites_of_mem_enclosing ho' (he' ▸ List.mem_cons_self)
      · exact SourceFile.mem_classSites_of_mem_enclosing ho (he ▸ List.mem_cons_self)
    have houter : constructorsFile.outerName name o' = some (name e) := by
      rw [SourceFile.outerName_of_enclosing he', hsame]
    exact ⟨o, ho, o', ho', hne, hbody, hbody',
      ((hall o ho e [] he).2.2 o' ho' hne hdeclared houter).mpr ⟨hscope, hscope'⟩⟩

/-- Each of the classes inside `A` is in the body of a constructor of `A`. Two of them get the same name, which is that of a
member, with no number. -/
theorem constructor_locals_collide :
    (constructorsFile.units none).map (·.map (·.qualifiedName)) = .ok ["A", "A$L", "A$L", "A$1L"] ∧
      constructorsFile.classSites.map (constructorsFile.isWithin ["constructor_body"]) = [false, true, true, true] ∧
      ∀ k : Nat, "A$L" ≠ "A" ++ "$" ++ toString k ++ "L" := by
  refine ⟨by decide +kernel, by decide +kernel, fun k h => ?_⟩
  rw [show "A$L" = "A" ++ "$" ++ "L" by decide, String.append_assoc, String.append_assoc, String.append_assoc,
    String.append_right_inj, String.append_right_inj] at h
  exact toString_append_ne k "L" h.symm

end HandlerComplexity
