import HandlerComplexity.Proofs.LocalClass

/-!
# Classes of the same name

The name of a Java class is put together with dollar signs and numbers, and so is not only the name of one class. If declared
names have no dollar sign and begin with no digit, it can be taken apart again, and two classes of a file get the same name
only if they are members of the same name.

* `intercalate_inj`, `toString_append_inj`: a name is taken apart at the dollar signs, and a segment behind its number.
* `segments_eq_of_name_eq`: two classes of one name have the same segments.
* `java_names_collide_iff`: exactly when two classes have the same name.
-/

namespace HandlerComplexity

/-! ## Taking names apart -/

/-- Texts without a dollar sign, joined by dollar signs, are read back by splitting. -/
theorem splitOn_intercalate_dollar {l : List String} (hl : ∀ s ∈ l, '$' ∉ s.toList) (hne : l ≠ []) :
    ("$".intercalate l).toList.splitOn '$' = l.map String.toList := by
  have htext : ("$".intercalate l).toList = ['$'].intercalate (l.map String.toList) := String.toList_intercalate
  rw [htext, List.splitOn_intercalate '$' (by simpa using hl) (by simpa using hne)]

theorem intercalate_inj {l m : List String} (hl : ∀ s ∈ l, '$' ∉ s.toList) (hm : ∀ s ∈ m, '$' ∉ s.toList) (hne : l ≠ [])
    (hne' : m ≠ []) (h : "$".intercalate l = "$".intercalate m) : l = m := by
  have hmap : l.map String.toList = m.map String.toList := by
    rw [← splitOn_intercalate_dollar hl hne, ← splitOn_intercalate_dollar hm hne', h]
  exact List.map_injective_iff.mpr (fun _ _ => String.toList_injective) hmap

/-- A text begins with no decimal digit. -/
def NoLeadingDigit (s : String) : Prop := s.toList.head?.any Char.isDigit = false

instance (s : String) : Decidable (NoLeadingDigit s) := inferInstanceAs (Decidable (_ = false))

theorem NoLeadingDigit.takeWhile_eq_nil {s : String} (hs : NoLeadingDigit s) : s.toList.takeWhile Char.isDigit = [] := by
  unfold NoLeadingDigit at hs
  cases hcs : s.toList with
  | nil => rfl
  | cons c cs =>
    rw [hcs] at hs
    exact List.takeWhile_cons_of_neg (by simpa using hs)

/-- The digits in front of such a text are those of the number put there. -/
theorem NoLeadingDigit.takeWhile_toString_append {s : String} (hs : NoLeadingDigit s) (k : Nat) :
    (toString k ++ s).toList.takeWhile Char.isDigit = Nat.toDigits 10 k := by
  have htext : (toString k ++ s).toList = Nat.toDigits 10 k ++ s.toList := by simp
  rw [htext, List.takeWhile_append_of_pos fun c hc => Nat.isDigit_of_mem_toDigits (by decide) (by decide) hc,
    hs.takeWhile_eq_nil, List.append_nil]

/-- A number and what comes after it can be told apart. -/
theorem toString_append_inj {k k' : Nat} {s s' : String} (hs : NoLeadingDigit s) (hs' : NoLeadingDigit s')
    (h : toString k ++ s = toString k' ++ s') : k = k' ∧ s = s' := by
  have hk : k = k' := by
    refine toDigits_inj ?_
    rw [← hs.takeWhile_toString_append, ← hs'.takeWhile_toString_append, h]
  subst hk
  exact ⟨rfl, (String.append_right_inj _).mp h⟩

theorem NoLeadingDigit.toString_append_ne {s s' : String} (hs : NoLeadingDigit s) (hs' : NoLeadingDigit s') (k : Nat) :
    toString k ++ s ≠ s' := by
  intro h
  have hdigits := hs.takeWhile_toString_append k
  rw [h, hs'.takeWhile_eq_nil] at hdigits
  exact Nat.toDigits_ne_nil hdigits.symm

theorem joinNames_inj {outer a b : String} (ha : a ≠ "") (hb : b ≠ "") (h : joinNames outer a = joinNames outer b) :
    a = b := by
  by_cases ho : outer = ""
  · rwa [ho, joinNames_empty_left, joinNames_empty_left] at h
  · rw [joinNames_of_ne ho ha, joinNames_of_ne ho hb] at h
    exact (String.append_right_inj _).mp h

/-! ## Names of Java classes -/

namespace SourceFile

/-- Declared names of classes have no dollar sign and begin with no digit. -/
def PlainNames (f : SourceFile) : Prop :=
  ∀ o ∈ f.classSites, '$' ∉ (f.declaredName o.node).toList ∧ NoLeadingDigit (f.declaredName o.node)

instance (f : SourceFile) : Decidable f.PlainNames := inferInstanceAs (Decidable (∀ o ∈ f.classSites, _ ∧ _))

/-- Two classes that would be members of the same class, or of none. -/
def AreSiblings (f : SourceFile) (o o' : Site) : Prop :=
  (f.enclosing o = [] ∧ f.enclosing o' = []) ∨
    (f.isLocal o = false ∧ f.isLocal o' = false ∧ ∃ e, (f.enclosing o).head? = some e ∧ (f.enclosing o').head? = some e)

variable {f : SourceFile} {name : Site → String} {top : String} {o o' : Site}

/-- A segment has no dollar sign: a number has none, and no declared name has. -/
theorem dollar_not_mem_segment (hplain : f.PlainNames) (ho : o ∈ f.classSites) : '$' ∉ (f.segment name o).toList :=
  not_mem_segment (by decide) (hplain o ho).1

theorem dollar_not_mem_segments (hplain : f.PlainNames) (ho : o ∈ f.classSites) :
    ∀ s ∈ f.segments name o, '$' ∉ s.toList := by
  intro s hs
  rw [segments, List.mem_reverse] at hs
  obtain ⟨b, hb, rfl⟩ := List.mem_map.mp hs
  rcases List.mem_cons.mp hb with rfl | hb
  · exact dollar_not_mem_segment hplain ho
  · exact dollar_not_mem_segment hplain (mem_classSites_of_mem_enclosing ho hb)

/-- Two classes with the same segment, in classes of one name, are not numbered and have one declared name. -/
theorem declaredName_eq_of_segment_eq (hplain : f.PlainNames) (ho : o ∈ f.classSites) (ho' : o' ∈ f.classSites)
    (hne : o ≠ o') (hsegment : f.segment name o = f.segment name o') (houter : f.outerName name o = f.outerName name o') :
    f.declaredName o.node = f.declaredName o'.node ∧ f.isNumbered o = false ∧ f.isNumbered o' = false := by
  have hdigit := (hplain o ho).2
  have hdigit' := (hplain o' ho').2
  have hdeclared : f.declaredName o.node = f.declaredName o'.node := by
    have h := hsegment
    unfold segment at h
    split_ifs at h
    · exact (toString_append_inj hdigit hdigit' h).2
    · exact absurd h (hdigit.toString_append_ne hdigit' _)
    · exact absurd h.symm (hdigit'.toString_append_ne hdigit _)
    · exact h
  exact ⟨hdeclared, (segment_eq_iff ho ho' hne hdeclared houter).mp hsegment⟩

section Java

variable (hjava : f.language = .java)

include hjava

theorem java_name_eq (hnaming : f.IsNaming name top) (ho : o ∈ f.classSites) :
    name o = joinNames top ("$".intercalate (f.segments name o)) := by
  have hnone : f.namespaces o = [] := by
    have hns : ∀ c, f.isNamespace c = false := by
      intro c
      rw [isNamespace, hjava]
      rfl
    simp [namespaces, hns]
  rw [hnaming o ho, pathName_eq, hnone, hjava]
  rfl

/-- **Two classes of one name have the same segments.** -/
theorem segments_eq_of_name_eq (hplain : f.PlainNames) (hnaming : f.IsNaming name top) (ho : o ∈ f.classSites)
    (ho' : o' ∈ f.classSites) (h : name o = name o') : f.segments name o = f.segments name o' := by
  rw [java_name_eq hjava hnaming ho, java_name_eq hjava hnaming ho'] at h
  have hjoined := joinNames_inj (intercalate_segments_ne_empty (isNamedClass_of_mem_classSites ho) _)
    (intercalate_segments_ne_empty (isNamedClass_of_mem_classSites ho') _) h
  exact intercalate_inj (dollar_not_mem_segments hplain ho) (dollar_not_mem_segments hplain ho') (by simp [segments])
    (by simp [segments]) hjoined

/-- So they have the same segment of their own, and the nearest classes around them, if any, have one name. -/
theorem segment_eq_of_name_eq (hplain : f.PlainNames) (hnaming : f.IsNaming name top) (ho : o ∈ f.classSites)
    (ho' : o' ∈ f.classSites) (h : name o = name o') :
    f.segment name o = f.segment name o' ∧ f.outerName name o = f.outerName name o' := by
  have hsegments := segments_eq_of_name_eq hjava hplain hnaming ho ho' h
  rw [segments, segments, List.reverse_inj, List.map_cons, List.map_cons, List.cons.injEq] at hsegments
  refine ⟨hsegments.1, ?_⟩
  cases he : f.enclosing o with
  | nil =>
    rw [he] at hsegments
    have he' : f.enclosing o' = [] := List.map_eq_nil_iff.mp hsegments.2.symm
    rw [outerName, outerName, he, he']
  | cons e es =>
    cases he' : f.enclosing o' with
    | nil =>
      rw [he, he'] at hsegments
      cases hsegments.2
    | cons e' es' =>
      have hmem := mem_classSites_of_mem_enclosing ho (he ▸ List.mem_cons_self)
      have hmem' := mem_classSites_of_mem_enclosing ho' (he' ▸ List.mem_cons_self)
      have hpaths : f.segments name e = f.segments name e' := by
        rw [segments, segments, (enclosing_of_enclosing_eq_cons he).1, (enclosing_of_enclosing_eq_cons he').1, ← he, ← he',
          hsegments.2]
      rw [outerName_of_enclosing he, outerName_of_enclosing he', java_name_eq hjava hnaming hmem,
        java_name_eq hjava hnaming hmem', hpaths]

/-- **When two classes have the same name.** -/
theorem name_eq_iff (hplain : f.PlainNames) (hnaming : f.IsNaming name top) (ho : o ∈ f.classSites)
    (ho' : o' ∈ f.classSites) (hne : o ≠ o') :
    name o = name o' ↔ f.declaredName o.node = f.declaredName o'.node ∧
      ((f.enclosing o = [] ∧ f.enclosing o' = []) ∨
        (f.isLocal o = false ∧ f.isLocal o' = false ∧
          ∃ outer, f.outerName name o = some outer ∧ f.outerName name o' = some outer)) := by
  constructor
  · intro h
    obtain ⟨hsegment, houter⟩ := segment_eq_of_name_eq hjava hplain hnaming ho ho' h
    obtain ⟨hdeclared, hno, hno'⟩ := declaredName_eq_of_segment_eq hplain ho ho' hne hsegment houter
    refine ⟨hdeclared, ?_⟩
    cases he : f.enclosing o with
    | nil =>
      left
      cases he' : f.enclosing o' with
      | nil => exact ⟨rfl, rfl⟩
      | cons e' es' =>
        rw [outerName_of_enclosing he', outerName, he] at houter
        cases houter
    | cons e es =>
      have hsome : f.outerName name o = some (name e) := outerName_of_enclosing he
      obtain ⟨e', es', he', -⟩ := exists_enclosing_of_outerName (houter.symm.trans hsome)
      rw [isNumbered_of_enclosing he] at hno
      rw [isNumbered_of_enclosing he'] at hno'
      exact .inr ⟨hno, hno', name e, hsome, houter.symm.trans hsome⟩
  · rintro ⟨hdeclared, ⟨he, he'⟩ | ⟨hlocal, hlocal', outer, houter, houter'⟩⟩
    · rw [java_name_eq hjava hnaming ho, java_name_eq hjava hnaming ho', segments_of_outermost he,
        segments_of_outermost he', hdeclared]
    · obtain ⟨e, es, he, rfl⟩ := exists_enclosing_of_outerName houter
      obtain ⟨e', es', he', hsame⟩ := exists_enclosing_of_outerName houter'
      have hsegment := (segment_eq_iff ho ho' hne hdeclared (houter.trans houter'.symm)).mpr
        ⟨(isNumbered_of_enclosing he).trans hlocal, (isNumbered_of_enclosing he').trans hlocal'⟩
      rw [hnaming.eq_inner ho he, hnaming.eq_inner ho' he', hsame, hsegment]

/-- If no siblings have the same declared name, no classes have the same name. By induction on the number of classes around
them: of two members with the same name, the classes around are the same, so the members would be siblings. -/
theorem eq_of_name_eq (hplain : f.PlainNames) (hnaming : f.IsNaming name top)
    (hsiblings : ∀ o ∈ f.classSites, ∀ o' ∈ f.classSites, o ≠ o' → f.AreSiblings o o' →
      f.declaredName o.node ≠ f.declaredName o'.node) (ho : o ∈ f.classSites) (ho' : o' ∈ f.classSites)
    (h : name o = name o') : o = o' := by
  induction hdepth : (f.enclosing o).length generalizing o o' with
  | zero =>
    by_contra hne
    obtain ⟨hdeclared, htop | ⟨-, -, outer, houter, -⟩⟩ := (name_eq_iff hjava hplain hnaming ho ho' hne).mp h
    · exact hsiblings o ho o' ho' hne (.inl htop) hdeclared
    · rw [outerName, List.length_eq_zero_iff.mp hdepth] at houter
      cases houter
  | succ n ih =>
    by_contra hne
    obtain ⟨hdeclared, ⟨he, -⟩ | ⟨hlocal, hlocal', outer, houter, houter'⟩⟩ :=
      (name_eq_iff hjava hplain hnaming ho ho' hne).mp h
    · rw [he] at hdepth
      cases hdepth
    · obtain ⟨e, es, he, rfl⟩ := exists_enclosing_of_outerName houter
      obtain ⟨e', es', he', hsame⟩ := exists_enclosing_of_outerName houter'
      have heq : e = e' := by
        refine ih ?_ ?_ hsame.symm ?_
        · exact mem_classSites_of_mem_enclosing ho (he ▸ List.mem_cons_self)
        · exact mem_classSites_of_mem_enclosing ho' (he' ▸ List.mem_cons_self)
        · rw [(enclosing_of_enclosing_eq_cons he).1]
          rw [he, List.length_cons] at hdepth
          omega
      refine hsiblings o ho o' ho' hne (.inr ⟨hlocal, hlocal', e, ?_, ?_⟩) hdeclared
      · rw [he]
        rfl
      · rw [he', heq]
        rfl

end Java

end SourceFile

/-- **Classes of Java have the same name only as members of the same name.** Let no declared name have a dollar sign or begin
with a digit. Then two classes of a file have the same qualified name iff they have the same declared name and either have
no class around them or are not local and the nearest classes around them have the same qualified name. So a class that is
numbered never has the name of another; and if no two members of one class, and no two classes with none around them, have
the same declared name, all qualified names are different. -/
theorem java_names_collide_iff (f : SourceFile) (hjava : f.language = .java) (hplain : f.PlainNames)
    (moduleRoot : Option String) :
    ∃ name, f.units moduleRoot = .ok (f.classSites.map (f.unitAt name)) ∧ f.classSites.Nodup ∧
      (∀ o ∈ f.classSites, ∀ o' ∈ f.classSites, o ≠ o' →
        (name o = name o' ↔ f.declaredName o.node = f.declaredName o'.node ∧
          ((f.enclosing o = [] ∧ f.enclosing o' = []) ∨
            (f.isLocal o = false ∧ f.isLocal o' = false ∧
              ∃ outer, f.outerName name o = some outer ∧ f.outerName name o' = some outer)))) ∧
      (∀ o ∈ f.classSites, f.isNumbered o = true → ∀ o' ∈ f.classSites, o ≠ o' → name o ≠ name o') ∧
      ((∀ o ∈ f.classSites, ∀ o' ∈ f.classSites, o ≠ o' → f.AreSiblings o o' →
          f.declaredName o.node ≠ f.declaredName o'.node) →
        ((f.classSites.map (f.unitAt name)).map (·.qualifiedName)).Nodup) := by
  obtain ⟨name, hunits, hnaming⟩ := SourceFile.exists_java_naming hjava moduleRoot
  have hnodup : f.classSites.Nodup := f.nodup_places_classSites.of_map
  refine ⟨name, hunits, hnodup, fun o ho o' ho' => SourceFile.name_eq_iff hjava hplain hnaming ho ho', ?_, ?_⟩
  · intro o ho hnumbered o' ho' hne h
    obtain ⟨hsegment, houter⟩ := SourceFile.segment_eq_of_name_eq hjava hplain hnaming ho ho' h
    obtain ⟨-, hno, -⟩ := SourceFile.declaredName_eq_of_segment_eq hplain ho ho' hne hsegment houter
    exact Bool.false_ne_true (hno.symm.trans hnumbered)
  · intro hsiblings
    rw [f.map_qualifiedName_unitAt]
    exact hnodup.map_on fun o ho o' ho' h => SourceFile.eq_of_name_eq hjava hplain hnaming hsiblings ho ho' h

/-- The two classes `L` are local, so no members share a declared name. -/
theorem locals_names_nodup :
    localsFile.language = .java ∧ localsFile.PlainNames ∧
      (∀ o ∈ localsFile.classSites, ∀ o' ∈ localsFile.classSites, o ≠ o' → localsFile.AreSiblings o o' →
        localsFile.declaredName o.node ≠ localsFile.declaredName o'.node) ∧
      ∃ name, localsFile.units none = .ok (localsFile.classSites.map (localsFile.unitAt name)) ∧
        ((localsFile.classSites.map (localsFile.unitAt name)).map (·.qualifiedName)).Nodup ∧
        ∃ o ∈ localsFile.classSites, ∃ o' ∈ localsFile.classSites, o ≠ o' ∧
          localsFile.declaredName o.node = localsFile.declaredName o'.node ∧ name o ≠ name o' := by
  have hplain : localsFile.PlainNames := by decide +kernel
  have hshared : ∀ o ∈ localsFile.classSites, ∀ o' ∈ localsFile.classSites, o.place ≠ o'.place →
      localsFile.declaredName o.node = localsFile.declaredName o'.node →
        (localsFile.enclosing o).isEmpty = false ∧ localsFile.isLocal o = true := by decide +kernel
  have hpair : ∃ o ∈ localsFile.classSites, ∃ o' ∈ localsFile.classSites, o.place ≠ o'.place ∧
      localsFile.declaredName o.node = localsFile.declaredName o'.node ∧ localsFile.isNumbered o = true := by
    decide +kernel
  have hsiblings : ∀ o ∈ localsFile.classSites, ∀ o' ∈ localsFile.classSites, o ≠ o' → localsFile.AreSiblings o o' →
      localsFile.declaredName o.node ≠ localsFile.declaredName o'.node := by
    intro o ho o' ho' hne hsib hdeclared
    obtain ⟨hinside, hlocal⟩ := hshared o ho o' ho' (fun h => hne (SourceFile.eq_of_place ho ho' h)) hdeclared
    rcases hsib with ⟨he, -⟩ | ⟨hmember, -⟩
    · rw [he] at hinside
      cases hinside
    · exact Bool.false_ne_true (hmember.symm.trans hlocal)
  obtain ⟨name, hunits, -, -, hnumbered, hnodup⟩ := java_names_collide_iff localsFile rfl hplain none
  obtain ⟨o, ho, o', ho', hplace, hdeclared, hn⟩ := hpair
  have hne : o ≠ o' := fun h => hplace (congrArg Site.place h)
  exact ⟨rfl, hplain, hsiblings, name, hunits, hnodup hsiblings, o, ho, o', ho', hne, hdeclared,
    hnumbered o ho hn o' ho' hne⟩

end HandlerComplexity
