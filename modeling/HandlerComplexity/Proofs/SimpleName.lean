import HandlerComplexity.Policy
import HandlerComplexity.Proofs.LocalClass

/-!
# Simple names

The simple name of a class is read off its qualified name: what is behind the last dot, and of that what is behind the last
dollar sign. The number of a local class stands behind the dollar sign as well, so it is part of the simple name, and it
decides with the rest whether the name reads like that of a test.

* `afterLast_append`, `afterLast_sep`: what is behind the last separator.
* `simpleName_unitAt`: the simple name of a class is its segment, wherever the class is declared.
* `endsLikeTest_iff`, `isTestName_toString_append`: names that read like tests, and what a number in front changes.
* `simpleName_declared_iff`: exactly when the simple name is the declared name, and when it matters.
-/

namespace HandlerComplexity

/-! ## Behind the last separator -/

namespace Text

/-- What has no separator stays behind the last one. -/
theorem afterLast_append {sep : Char} (xs : List Char) {ys : List Char} (h : sep ∉ ys) :
    afterLast sep (xs ++ ys) = afterLast sep xs ++ ys := by
  have hpass : ∀ c ∈ ys.reverse, (c != sep) = true := by
    intro c hc
    have hne : c ≠ sep := fun heq => h (heq ▸ List.mem_reverse.mp hc)
    simpa using hne
  rw [afterLast, List.reverse_append, List.takeWhile_append_of_pos hpass, List.reverse_append, List.reverse_reverse,
    afterLast]

theorem afterLast_of_not_mem {sep : Char} {ys : List Char} (h : sep ∉ ys) : afterLast sep ys = ys :=
  afterLast_append [] h

theorem afterLast_sep {sep : Char} (xs : List Char) {ys : List Char} (h : sep ∉ ys) :
    afterLast sep (xs ++ sep :: ys) = ys := by
  have hnone : afterLast sep (xs ++ [sep]) = [] := by simp [afterLast]
  rw [← List.singleton_append, ← List.append_assoc, afterLast_append _ h, hnone, List.nil_append]

end Text

/-! ## Simple names of classes -/

/-- What is behind the last dot, and of that behind the last dollar sign, for a text behind one of them. -/
theorem simple_of_separated {sep : Char} (hsep : sep = '.' ∨ sep = '$') (xs : List Char) {ys : List Char}
    (hdot : '.' ∉ ys) (hdollar : '$' ∉ ys) : Text.afterLast '$' (Text.afterLast '.' (xs ++ sep :: ys)) = ys := by
  rcases hsep with rfl | rfl
  · rw [Text.afterLast_sep xs hdot, Text.afterLast_of_not_mem hdollar]
  · have hbehind : '.' ∉ '$' :: ys := by simpa using hdot
    rw [Text.afterLast_append xs hbehind, Text.afterLast_sep _ hdollar]

namespace SourceFile

variable {f : SourceFile} {name : Site → String} {top : String} {o : Site}

/-- Classes inside classes are set off by a dot or by a dollar sign, in every language. -/
theorem nestedSeparator_cases (l : Language) :
    l.rules.nestedSeparator.toList = ['.'] ∨ l.rules.nestedSeparator.toList = ['$'] := by
  cases l <;> decide

/-- **The simple name of a class is its segment**, at the top level, in a namespace, as a member or as a local class. -/
theorem simpleName_unitAt (hnaming : f.IsNaming name top) (ho : o ∈ f.classSites)
    (hdot : '.' ∉ (f.declaredName o.node).toList) (hdollar : '$' ∉ (f.declaredName o.node).toList) :
    (f.unitAt name o).simpleName = f.segment name o := by
  have hdot' : '.' ∉ (f.segment name o).toList := not_mem_segment (by decide) hdot
  have hdollar' : '$' ∉ (f.segment name o).toList := not_mem_segment (by decide) hdollar
  have hplain : Text.afterLast '$' (Text.afterLast '.' (f.segment name o).toList) = (f.segment name o).toList := by
    rw [Text.afterLast_of_not_mem hdot', Text.afterLast_of_not_mem hdollar']
  suffices hname : Text.afterLast '$' (Text.afterLast '.' (name o).toList) = (f.segment name o).toList by
    rw [ClassUnit.simpleName, show (f.unitAt name o).qualifiedName = name o from rfl, hname, String.ofList_toList]
  cases he : f.enclosing o with
  | nil =>
    -- no class around: the package, the module or a namespace ends in a dot, if there is one
    have hsegment : f.segment name o = f.declaredName o.node := by
      rw [segment, isNumbered_eq, he]
      rfl
    rw [hnaming.eq_outermost ho he, ← hsegment]
    by_cases hout : (f.namespaces o).foldl joinNames top = ""
    · rw [hout, joinNames_empty_left, hplain]
    · rw [joinNames_of_ne hout (segment_ne_empty (isNamedClass_of_mem_classSites ho)), String.append_assoc,
        String.toList_append, String.toList_append]
      exact simple_of_separated (.inl rfl) _ hdot' hdollar'
  | cons e es =>
    rw [hnaming.eq_inner ho he, String.append_assoc, String.toList_append, String.toList_append]
    rcases nestedSeparator_cases f.language with hsep | hsep
    · rw [hsep]
      exact simple_of_separated (.inl rfl) _ hdot' hdollar'
    · rw [hsep]
      exact simple_of_separated (.inr rfl) _ hdot' hdollar'

end SourceFile

/-! ## Names that read like tests -/

theorem endsLikeTest_iff (cs : List Char) :
    endsLikeTest cs = true ↔ "Test".toList <:+ cs ∨ "Tests".toList <:+ cs ∨
      ∃ c, (c.isLower || c.isDigit) = true ∧ [c, 'I', 'T'] <:+ cs := by
  have hsuffix : ∀ l : List Char, l <:+ cs ↔ l.reverse <+: cs.reverse := fun l => List.reverse_prefix.symm
  simp only [hsuffix, endsLikeTest]
  generalize cs.reverse = r
  have hstart : ∀ l : List Char, l <+: r ↔ ∃ rest, r = l ++ rest := fun l =>
    ⟨fun ⟨rest, h⟩ => ⟨rest, h.symm⟩, fun ⟨rest, h⟩ => ⟨rest, h.symm⟩⟩
  split
  · simp
  · simp
  · simp [List.cons_prefix_cons]
  · next htest htests hit =>
    simp only [hstart]
    constructor
    · simp
    · rintro (⟨rest, hr⟩ | ⟨rest, hr⟩ | ⟨c, -, rest, hr⟩)
      · exact absurd hr (htest rest)
      · exact absurd hr (htests rest)
      · exact absurd hr (hit c rest)

/-- An end of a text behind something more is an end of the text, or the whole text with some of what is before it. -/
theorem suffix_append_cases {l d n : List Char} (h : l <:+ d ++ n) : l <:+ n ∨ ∃ c t, l = c :: t ++ n ∧ c :: t ⊆ d := by
  rcases List.suffix_or_suffix_of_suffix h (List.suffix_append d n) with hl | ⟨t, rfl⟩
  · exact .inl hl
  · cases t with
    | nil => exact .inl (List.suffix_refl n)
    | cons c t =>
      obtain ⟨rest, hrest⟩ := h
      rw [← List.append_assoc] at hrest
      exact .inr ⟨c, t, rfl, List.append_cancel_right hrest ▸ List.subset_append_right _ _⟩

/-- A number in front of a name makes a test of `IT` and leaves the end of every other name as it is. -/
theorem endsLikeTest_digits_append {d : List Char} (hne : d ≠ []) (hd : ∀ c ∈ d, c.isDigit = true) (n : List Char) :
    endsLikeTest (d ++ n) = true ↔ endsLikeTest n = true ∨ n = ['I', 'T'] := by
  have hletter : ∀ (a : Char) (l : List Char), a.isDigit = false → (a :: l <:+ d ++ n ↔ a :: l <:+ n) := by
    intro a l ha
    refine ⟨fun h => ?_, fun h => h.trans (List.suffix_append d n)⟩
    rcases suffix_append_cases h with h | ⟨c, t, heq, hsub⟩
    · exact h
    · obtain ⟨rfl, -⟩ := List.cons.inj heq
      rw [hd a (hsub List.mem_cons_self)] at ha
      cases ha
  rw [endsLikeTest_iff, endsLikeTest_iff, show "Test".toList = ['T', 'e', 's', 't'] from rfl,
    show "Tests".toList = ['T', 'e', 's', 't', 's'] from rfl, hletter 'T' _ (by decide), hletter 'T' _ (by decide), or_assoc,
    or_assoc]
  refine or_congr_right (or_congr_right ⟨?_, ?_⟩)
  · rintro ⟨c, hc, h⟩
    rcases suffix_append_cases h with h | ⟨a, t, heq, hsub⟩
    · exact .inl ⟨c, hc, h⟩
    · -- the number ends right before `IT`
      obtain ⟨rfl, hrest⟩ := List.cons.inj heq
      cases t with
      | nil => exact .inr hrest.symm
      | cons b t =>
        obtain ⟨rfl, -⟩ := List.cons.inj hrest
        exact absurd (hd 'I' (hsub (by simp))) (by decide)
  · rintro (⟨c, hc, h⟩ | rfl)
    · exact ⟨c, hc, h.trans (List.suffix_append d n)⟩
    · have hdigit : (d.getLast hne).isDigit = true := hd _ (List.getLast_mem hne)
      refine ⟨d.getLast hne, by rw [hdigit, Bool.or_true], d.dropLast, ?_⟩
      conv_rhs => rw [← List.dropLast_append_getLast hne, List.append_assoc]
      rfl

/-- A name without a line end at its end. -/
theorem isTestName_eq {s : String} (hs : s.toList.getLast? ≠ some '\n') :
    isTestName s = (beginsLikeTest s.toList || endsLikeTest s.toList) := by
  rw [isTestName, dropFinalNewline, if_neg hs]

theorem not_beginsLikeTest {c : Char} (hc : c.isDigit = true) (cs : List Char) : beginsLikeTest (c :: cs) = false := by
  unfold beginsLikeTest
  split
  · next heq =>
    obtain ⟨rfl, -⟩ := List.cons.inj heq
    exact absurd hc (by decide)
  · rfl

/-- **What a number in front of a name changes**: the name does not begin like that of a test any more, and `IT` ends like
one. -/
theorem isTestName_toString_append (k : Nat) {s : String} (hne : s ≠ "") (hs : s.toList.getLast? ≠ some '\n') :
    isTestName (toString k ++ s) = isTestName s ↔
      (beginsLikeTest s.toList = true → endsLikeTest s.toList = true) ∧ s ≠ "IT" := by
  have htext : (toString k ++ s).toList = Nat.toDigits 10 k ++ s.toList := by simp
  have hdigits : ∀ c ∈ Nat.toDigits 10 k, c.isDigit = true := fun c hc =>
    Nat.isDigit_of_mem_toDigits (by decide) (by decide) hc
  have hlast : (toString k ++ s).toList.getLast? ≠ some '\n' := by
    rwa [htext, List.getLast?_append_of_ne_nil _ (by simpa using hne)]
  obtain ⟨c, cs, hcons⟩ := List.exists_cons_of_ne_nil (Nat.toDigits_ne_nil (n := k) (b := 10))
  have hbegins : beginsLikeTest (toString k ++ s).toList = false := by
    rw [htext, hcons]
    exact not_beginsLikeTest (hdigits c (hcons ▸ List.mem_cons_self)) _
  have hends := endsLikeTest_digits_append Nat.toDigits_ne_nil hdigits s.toList
  have hit : s.toList = ['I', 'T'] ↔ s = "IT" := by
    rw [show ['I', 'T'] = "IT".toList from rfl, String.toList_inj]
  rw [hit] at hends
  rw [isTestName_eq hs, isTestName_eq hlast, hbegins, htext, Bool.false_or, Bool.eq_iff_iff, hends, Bool.or_eq_true]
  by_cases hname : s = "IT"
  · subst hname
    decide
  · simp [hname]

/-! ## Declared names -/

/-- What is left of a text once it is trimmed does not end in a character that is trimmed. -/
theorem getLast?_trimBy {p : Char → Bool} {c : Char} (hc : p c = true) (cs : List Char) :
    (Text.trimBy p cs).getLast? ≠ some c := by
  rw [Text.trimBy, List.getLast?_reverse]
  intro h
  have hnot := List.head?_dropWhile_not p (cs.dropWhile p).reverse
  rw [h] at hnot
  simp [hc] at hnot

/-- A declared name does not end in a line end. -/
theorem SourceFile.getLast?_declaredName (f : SourceFile) (c : Cst) : (f.declaredName c).toList.getLast? ≠ some '\n' := by
  unfold declaredName
  dsimp only
  split
  · decide
  · rw [String.toList_ofList]
    exact getLast?_trimBy (by decide) _

/-- **The simple name of a class is its declared name unless the class is numbered.** Let a class of any language, declared
anywhere in a file, have a declared name without dots and dollar signs. Its simple name is the declared name if it is not
numbered; if it is, that is if it is a local class of Java inside a class, the number stands in front of it. By its name the
class then counts as a test if and only if the declared name does, except if the declared name begins like that of a test
without ending like one, or is `IT`. -/
theorem simpleName_declared_iff (f : SourceFile) (moduleRoot : Option String) (hnamed : ¬ f.IsNameless moduleRoot) :
    ∃ name, f.units moduleRoot = .ok (f.classSites.map (f.unitAt name)) ∧
      ∀ o ∈ f.classSites, '.' ∉ (f.declaredName o.node).toList → '$' ∉ (f.declaredName o.node).toList →
        ((f.unitAt name o).simpleName = f.declaredName o.node ↔ f.isNumbered o = false) ∧
        (f.isNumbered o = true → ∃ k, 1 ≤ k ∧ (f.unitAt name o).simpleName = toString k ++ f.declaredName o.node) ∧
        (isTestName (f.unitAt name o).simpleName = isTestName (f.declaredName o.node) ↔
          (f.isNumbered o = true →
            (beginsLikeTest (f.declaredName o.node).toList = true → endsLikeTest (f.declaredName o.node).toList = true) ∧
              f.declaredName o.node ≠ "IT")) := by
  obtain ⟨top, htop⟩ := SourceFile.exists_topName hnamed
  obtain ⟨name, hnaming⟩ := f.exists_isNaming top
  refine ⟨name, SourceFile.units_eq_of_isNaming htop hnaming, fun o ho hdot hdollar => ?_⟩
  have hclass : f.declaredName o.node ≠ "" := by
    have hboth := SourceFile.isNamedClass_of_mem_classSites ho
    simp only [SourceFile.isNamedClass, Bool.and_eq_true, decide_eq_true_eq] at hboth
    exact hboth.2
  rw [SourceFile.simpleName_unitAt hnaming ho hdot hdollar, SourceFile.segment]
  cases hnumbered : f.isNumbered o with
  | false => simp
  | true =>
    have htest := isTestName_toString_append (f.number name o) hclass (f.getLast?_declaredName o.node)
    refine ⟨?_, fun _ => ⟨f.number name o, Nat.le_add_left _ _, if_pos rfl⟩, ?_⟩
    · simp
    · rw [if_pos rfl, htest]
      simp

/-- A class `TestL` that is local to a method of a class `A`, and another one beside `A`. -/
def localTestFile : SourceFile where
  path := "A.java"
  language := .java
  bytes := "class A { void f() { class TestL {} } } class TestL {}".toUTF8.toList
  root := .ofRows [⟨0, "program", 0, 54, 0, true, none⟩, ⟨1, "class_declaration", 0, 39, 0, true, none⟩,
    ⟨2, "identifier", 6, 7, 0, true, some "name"⟩, ⟨2, "class_body", 8, 39, 0, true, some "body"⟩,
    ⟨3, "method_declaration", 10, 37, 0, true, none⟩, ⟨4, "block", 19, 37, 0, true, some "body"⟩,
    ⟨5, "class_declaration", 21, 35, 0, true, none⟩, ⟨6, "identifier", 27, 32, 0, true, some "name"⟩,
    ⟨6, "class_body", 33, 35, 0, true, some "body"⟩, ⟨1, "class_declaration", 40, 54, 0, true, none⟩,
    ⟨2, "identifier", 46, 51, 0, true, some "name"⟩, ⟨2, "class_body", 52, 54, 0, true, some "body"⟩]

/-- The local class has a number in its simple name, and so is no test, while the one beside `A` is. -/
theorem localTest_declared_iff :
    ¬ localTestFile.IsNameless none ∧
      ∃ name, localTestFile.units none = .ok (localTestFile.classSites.map (localTestFile.unitAt name)) ∧
        (∃ o ∈ localTestFile.classSites, localTestFile.declaredName o.node = "TestL" ∧
          (localTestFile.unitAt name o).simpleName ≠ "TestL" ∧
          isTestName (localTestFile.unitAt name o).simpleName ≠ isTestName "TestL") ∧
        ∃ o ∈ localTestFile.classSites, localTestFile.declaredName o.node = "TestL" ∧
          (localTestFile.unitAt name o).simpleName = "TestL" := by
  have hnamed : ¬ localTestFile.IsNameless none := by decide +kernel
  have hclasses : ∀ b, ∃ o ∈ localTestFile.classSites,
      localTestFile.declaredName o.node = "TestL" ∧ localTestFile.isNumbered o = b := by decide +kernel
  have hbegins : beginsLikeTest "TestL".toList = true ∧ endsLikeTest "TestL".toList = false := by decide
  obtain ⟨name, hunits, hall⟩ := simpleName_declared_iff localTestFile none hnamed
  have hplain : ∀ o, localTestFile.declaredName o = "TestL" →
      '.' ∉ (localTestFile.declaredName o).toList ∧ '$' ∉ (localTestFile.declaredName o).toList := by
    intro o ho
    rw [ho]
    decide
  refine ⟨hnamed, name, hunits, ?_, ?_⟩
  · obtain ⟨o, ho, hdeclared, hnumbered⟩ := hclasses true
    obtain ⟨hsimple, -, htest⟩ := hall o ho (hplain _ hdeclared).1 (hplain _ hdeclared).2
    rw [hdeclared, hnumbered] at hsimple htest
    refine ⟨o, ho, hdeclared, fun h => Bool.false_ne_true (hsimple.mp h).symm, fun h => ?_⟩
    have hends := (htest.mp h rfl).1 hbegins.1
    exact Bool.false_ne_true (hbegins.2.symm.trans hends)
  · obtain ⟨o, ho, hdeclared, hnumbered⟩ := hclasses false
    have hsimple := (hall o ho (hplain _ hdeclared).1 (hplain _ hdeclared).2).1
    rw [hdeclared] at hsimple
    exact ⟨o, ho, hdeclared, hsimple.mpr hnumbered⟩

/-- Two classes are declared with the name `TestL`. The simple name of one of them is another, and only the other one counts
as a test. -/
theorem local_simpleName_numbered :
    localTestFile.classSites.map (localTestFile.declaredName ·.node) = ["A", "TestL", "TestL"] ∧
      (localTestFile.units none).map (·.map (·.simpleName)) = .ok ["A", "1TestL", "TestL"] ∧
      (localTestFile.units none).map (·.map (isTestName ·.simpleName)) = .ok [false, false, true] := by
  decide +kernel

end HandlerComplexity
