import HandlerComplexity.Proofs.NamedNodes
import Mathlib.Data.List.Induction

/-!
# Qualified names

The name of a class is carried down the tree while the classes of a file are visited, together with a table of the local
classes so far. Nothing of this is left in the result: a name depends on what is above the class, and a number on the
classes before it.

* `SourceFile.classSites`: the classes with a name, in preorder; `enclosing`, `namespaces`, `isLocal`: what is above one.
* `SourceFile.pathName`: the name that a class gets from its path; `IsNaming`: names that are all made in this way.
* `exists_isNaming`, `IsNaming.eqOn`: there is one such naming and no other, because the name of a class depends on the
  names of classes before it only.
-/

namespace HandlerComplexity

/-! ## Values that depend on earlier ones -/

section Earlier

variable {α : Type} {F : (α → String) → α → String} {l : List α}
  (hF : ∀ l₁ a l₂, l = l₁ ++ a :: l₂ → ∀ g g' : α → String, (∀ b ∈ l₁, g b = g' b) → F g a = F g' a)

include hF

/-- If the value that is asked for at each member of a list depends on the values before it only, there are such values.
They are chosen one after the other, and a later choice does not change what is asked for earlier. -/
theorem exists_fixed_of_earlier (hl : l.Nodup) : ∃ g : α → String, ∀ a ∈ l, g a = F g a := by
  suffices hall : ∀ l₁ l₂, l = l₁ ++ l₂ → ∃ g : α → String, ∀ a ∈ l₁, g a = F g a from
    hall l [] (List.append_nil l).symm
  intro l₁
  induction l₁ using List.reverseRecOn with
  | nil => exact fun _ _ => ⟨fun _ => "", fun _ h => nomatch h⟩
  | append_singleton l₁ a ih =>
    intro l₂ hsplit
    rw [List.append_assoc, List.singleton_append] at hsplit
    obtain ⟨g, hg⟩ := ih _ hsplit
    classical
    have hkeep : ∀ b ∈ l₁, Function.update g a (F g a) b = g b := by
      intro b hb
      refine Function.update_of_ne ?_ _ _
      rintro rfl
      rw [hsplit, List.nodup_append] at hl
      exact hl.2.2 b hb b List.mem_cons_self rfl
    refine ⟨Function.update g a (F g a), fun b hb => ?_⟩
    rcases List.mem_append.mp hb with hb | hb
    · obtain ⟨m₁, m₂, rfl⟩ := List.append_of_mem hb
      rw [List.append_assoc, List.cons_append] at hsplit
      rw [hkeep b hb, hg b hb]
      exact (hF _ _ _ hsplit _ _ fun d hd => hkeep d (List.mem_append_left _ hd)).symm
    · obtain rfl := List.mem_singleton.mp hb
      rw [Function.update_self]
      exact (hF _ _ _ hsplit _ _ hkeep).symm

/-- There are no others. -/
theorem eq_of_fixed_of_earlier {g g' : α → String} (hg : ∀ a ∈ l, g a = F g a) (hg' : ∀ a ∈ l, g' a = F g' a) :
    ∀ a ∈ l, g a = g' a := by
  suffices hall : ∀ l₁ l₂, l = l₁ ++ l₂ → ∀ a ∈ l₁, g a = g' a from hall l [] (List.append_nil l).symm
  intro l₁
  induction l₁ using List.reverseRecOn with
  | nil => exact fun _ _ _ h => nomatch h
  | append_singleton l₁ a ih =>
    intro l₂ hsplit b hb
    rw [List.append_assoc, List.singleton_append] at hsplit
    have hearlier := ih _ hsplit
    rcases List.mem_append.mp hb with hb | hb
    · exact hearlier b hb
    · obtain rfl := List.mem_singleton.mp hb
      have hmem : b ∈ l := hsplit ▸ List.mem_append_right _ List.mem_cons_self
      rw [hg b hmem, hg' b hmem]
      exact hF _ _ _ hsplit _ _ hearlier

end Earlier

/-! ## What is above a class -/

namespace SourceFile

variable (f : SourceFile)

def isNamespace (c : Cst) : Bool := f.language.rules.namespaceTypes.contains c.nodeType

/-- Whether a node is a class that has a name. -/
def isNamedClass (c : Cst) : Bool := f.language.rules.classTypes.contains c.nodeType && f.declaredName c ≠ ""

/-- The classes of a file that have a name, in preorder. -/
def classSites : List Site := f.root.sites.filter (f.isNamedClass ·.node)

/-- The classes with a name around a site, up to the innermost namespace, the nearest first. -/
def enclosing (o : Site) : List Site :=
  (o.ancestors.takeWhile (!f.isNamespace ·.node)).filter (f.isNamedClass ·.node)

/-- The names of the namespaces around a site, from the outside in. -/
def namespaces (o : Site) : List String := ((o.above.filter f.isNamespace).map f.declaredName).reverse

/-- Whether a local scope lies between a site and the nearest class above, with or without a name. -/
def isLocal (o : Site) : Bool :=
  (o.above.takeWhile (!f.language.rules.classTypes.contains ·.nodeType)).any
    (f.language.rules.localScopeTypes.contains ·.nodeType)

/-- Whether a class is numbered: in Java, if it is local and has a class with a name around it. -/
def isNumbered (o : Site) : Bool := f.language = .java && !(f.enclosing o).isEmpty && f.isLocal o

/-- No class is a namespace, in any language. -/
theorem isNamespace_eq_false {f : SourceFile} {c : Cst} (h : f.language.rules.classTypes.contains c.nodeType = true) :
    f.isNamespace c = false := by
  have hdisjoint : ∀ l : Language, ∀ t ∈ l.rules.classTypes, l.rules.namespaceTypes.contains t = false := by
    intro l
    cases l <;> decide
  exact hdisjoint f.language c.nodeType (List.contains_iff_mem.mp h)

/-- Only Java has local scopes. -/
theorem isNumbered_eq (o : Site) : f.isNumbered o = (!(f.enclosing o).isEmpty && f.isLocal o) := by
  by_cases hjava : f.language = .java
  · simp [isNumbered, hjava]
  · have hnone : ∀ l : Language, l ≠ .java → l.rules.localScopeTypes = [] := by
      intro l
      cases l <;> decide
    have hlocal : f.isLocal o = false := by
      rw [isLocal, hnone f.language hjava]
      simp
    simp [isNumbered, hjava, hlocal]

section Child

variable (place : List Nat) (above : List Cst) (k : Nat) (c d : Cst)

/-- The classes around a child, in terms of those around its parent. -/
theorem enclosing_child :
    f.enclosing ⟨k :: place, c :: above, d⟩ =
      if f.isNamespace c then []
      else if f.isNamedClass c then ⟨place, above, c⟩ :: f.enclosing ⟨place, above, c⟩
      else f.enclosing ⟨place, above, c⟩ := by
  show ((⟨place, above, c⟩ :: Site.up place above).takeWhile (!f.isNamespace ·.node)).filter (f.isNamedClass ·.node) = _
  cases hns : f.isNamespace c with
  | true => simp [hns]
  | false =>
    rw [List.takeWhile_cons_of_pos (by simp [hns]), List.filter_cons]
    rfl

theorem namespaces_child :
    f.namespaces ⟨k :: place, c :: above, d⟩ =
      f.namespaces ⟨place, above, c⟩ ++ if f.isNamespace c then [f.declaredName c] else [] := by
  cases hns : f.isNamespace c <;> simp [namespaces, hns]

end Child

/-- The classes and the namespaces around a class that is the nearest one around a site. -/
theorem enclosing_of_enclosing_eq_cons {f : SourceFile} {o e : Site} {es : List Site} (h : f.enclosing o = e :: es) :
    f.enclosing e = es ∧ f.namespaces e = f.namespaces o := by
  obtain ⟨place, above, d⟩ := o
  induction above generalizing place d with
  | nil => cases place <;> cases h
  | cons c above ih =>
    cases place with
    | nil => cases h
    | cons k place =>
      rw [enclosing_child] at h
      rw [namespaces_child]
      split_ifs at h with hns hclass
      · obtain ⟨rfl, rfl⟩ := List.cons.inj h
        exact ⟨rfl, by simp [hns]⟩
      · obtain ⟨henclosing, hnamespaces⟩ := ih place c h
        exact ⟨henclosing, by simp [hns, hnamespaces]⟩

/-! ## Names -/

section Name

variable (name : Site → String)

/-- The name of the nearest class around a site. -/
def outerName (o : Site) : Option String := (f.enclosing o).head?.map name

/-- The classes before a site. -/
def before (o : Site) : List Site := f.classSites.takeWhile (·.place ≠ o.place)

/-- The number of a local class: how many numbered classes there are, up to it, that have its declared name and whose
nearest class around has the same qualified name. -/
def number (o : Site) : Nat :=
  (f.before o).countP (fun b => f.isNumbered b && f.declaredName b.node = f.declaredName o.node &&
    f.outerName name b = f.outerName name o) + 1

/-- What a class contributes to the names of the classes inside it and to its own. -/
def segment (o : Site) : String :=
  if f.isNumbered o then toString (f.number name o) ++ f.declaredName o.node else f.declaredName o.node

/-- The segments of the classes around a class, from the outside in, and its own. -/
def segments (o : Site) : List String := ((o :: f.enclosing o).map (f.segment name)).reverse

/-- The name that a class gets from its path: the module or package, the namespaces and the segments, without those of
these parts that are empty. -/
def pathName (top : String) (o : Site) : String :=
  ".".intercalate ((top :: f.namespaces o ++ [f.language.rules.nestedSeparator.intercalate (f.segments name o)]).filter
    (· ≠ ""))

/-- Every class has the name that it gets from its path. -/
def IsNaming (top : String) : Prop := ∀ o ∈ f.classSites, name o = f.pathName name top o

end Name

end SourceFile

/-! ### Names joined by dots -/

/-- Parts joined by dots, without the empty ones. -/
def dotted (parts : List String) : String := ".".intercalate (parts.filter (· ≠ ""))

theorem joinNames_empty_left (inner : String) : joinNames "" inner = inner := by simp [joinNames]

theorem joinNames_empty_right (outer : String) : joinNames outer "" = outer := by
  by_cases h : outer = "" <;> simp [joinNames, h]

theorem joinNames_of_ne {outer inner : String} (ho : outer ≠ "") (hi : inner ≠ "") :
    joinNames outer inner = outer ++ "." ++ inner := if_pos ⟨ho, hi⟩

theorem joinNames_append (outer : String) {inner : String} (h : inner ≠ "") (more : String) :
    joinNames outer (inner ++ more) = joinNames outer inner ++ more := by
  by_cases ho : outer = ""
  · rw [ho, joinNames_empty_left, joinNames_empty_left]
  · have hne : inner ++ more ≠ "" := fun hempty => h (String.append_eq_empty_iff.mp hempty).1
    rw [joinNames_of_ne ho hne, joinNames_of_ne ho h, String.append_assoc, String.append_assoc, String.append_assoc]

theorem intercalate_concat (sep : String) {l : List String} (h : l ≠ []) (s : String) :
    sep.intercalate (l ++ [s]) = sep.intercalate l ++ sep ++ s := by
  rw [String.intercalate_append_of_ne_nil h (by simp), String.intercalate_singleton]

theorem intercalate_ne_empty (sep : String) {l : List String} (h : l ≠ []) (hl : ∀ s ∈ l, s ≠ "") :
    sep.intercalate l ≠ "" := by
  obtain ⟨s, l, rfl⟩ := List.exists_cons_of_ne_nil h
  have hs := hl s List.mem_cons_self
  cases l with
  | nil => rwa [String.intercalate_singleton]
  | cons t l =>
    rw [String.intercalate_cons_cons, Ne, String.append_eq_empty_iff, String.append_eq_empty_iff]
    exact fun hempty => hs hempty.1.1

theorem dotted_concat (parts : List String) (s : String) : dotted (parts ++ [s]) = joinNames (dotted parts) s := by
  by_cases hs : s = ""
  · rw [hs, joinNames_empty_right, dotted, dotted]
    simp
  · have hfilter : (parts ++ [s]).filter (· ≠ "") = parts.filter (· ≠ "") ++ [s] := by simp [hs]
    rw [dotted, dotted, hfilter]
    by_cases hnil : parts.filter (· ≠ "") = []
    · rw [hnil, List.nil_append, String.intercalate_singleton, String.intercalate_nil, joinNames_empty_left]
    · have hne := intercalate_ne_empty "." hnil fun t ht => of_decide_eq_true (List.mem_filter.mp ht).2
      rw [intercalate_concat "." hnil, joinNames_of_ne hne hs]

/-- Names are joined one by one on the way down. -/
theorem dotted_cons (top : String) (parts : List String) : dotted (top :: parts) = parts.foldl joinNames top := by
  induction parts using List.reverseRecOn with
  | nil => by_cases h : top = "" <;> simp [dotted, h]
  | append_singleton parts s ih =>
    rw [← List.cons_append, dotted_concat, ih, List.foldl_append]
    rfl

namespace SourceFile

variable {f : SourceFile} {name : Site → String} {top : String} {o e : Site} {es : List Site}

theorem isNumbered_of_enclosing (he : f.enclosing o = e :: es) : f.isNumbered o = f.isLocal o := by
  rw [isNumbered_eq, he]
  rfl

theorem outerName_of_enclosing (he : f.enclosing o = e :: es) : f.outerName name o = some (name e) := by
  rw [outerName, he]
  rfl

theorem pathName_eq (f : SourceFile) (name : Site → String) (top : String) (o : Site) :
    f.pathName name top o =
      joinNames ((f.namespaces o).foldl joinNames top)
        (f.language.rules.nestedSeparator.intercalate (f.segments name o)) := by
  rw [← dotted_cons, ← dotted_concat]
  rfl

/-! ### Classes before a class -/

theorem nodup_places_classSites (f : SourceFile) : (f.classSites.map (·.place)).Nodup :=
  (List.filter_sublist.map _).nodup f.root.nodup_places

theorem before_eq {l₁ l₂ : List Site} (h : f.classSites = l₁ ++ o :: l₂) : f.before o = l₁ := by
  have hnodup := f.nodup_places_classSites
  rw [h, List.map_append, List.nodup_append] at hnodup
  have hne : ∀ b ∈ l₁, decide (b.place ≠ o.place) = true := fun b hb =>
    decide_eq_true (hnodup.2.2 _ (List.mem_map_of_mem hb) _ (List.mem_map_of_mem List.mem_cons_self))
  rw [before, h, List.takeWhile_append_of_pos hne, List.takeWhile_cons_of_neg (by simp), List.append_nil]

/-- A class, with the classes before it and those after it. -/
theorem exists_classSites_eq (h : o ∈ f.classSites) : ∃ l₂, f.classSites = f.before o ++ o :: l₂ := by
  obtain ⟨l₁, l₂, hsplit⟩ := List.append_of_mem h
  exact ⟨l₂, by rw [before_eq hsplit, hsplit]⟩

theorem mem_classSites_of_mem_before {b : Site} (h : b ∈ f.before o) : b ∈ f.classSites :=
  (List.takeWhile_sublist _).subset h

theorem before_subset {b : Site} (ho : o ∈ f.classSites) (hb : b ∈ f.before o) : f.before b ⊆ f.before o := by
  obtain ⟨l₂, hsplit⟩ := exists_classSites_eq ho
  obtain ⟨m₁, m₂, hm⟩ := List.append_of_mem hb
  rw [hm, List.append_assoc, List.cons_append] at hsplit
  rw [before_eq hsplit, hm]
  exact List.subset_append_left _ _

theorem isNamedClass_of_mem_enclosing (h : e ∈ f.enclosing o) : f.isNamedClass e.node = true :=
  (List.mem_filter.mp h).2

/-- The classes around a class come before it. -/
theorem enclosing_subset_before (ho : o ∈ f.classSites) : f.enclosing o ⊆ f.before o := by
  obtain ⟨l₂, hsplit⟩ := exists_classSites_eq ho
  intro e he
  obtain ⟨hmem, hclass⟩ := List.mem_filter.mp he
  exact mem_of_mem_ancestors hsplit ((List.takeWhile_sublist _).subset hmem) hclass

theorem mem_classSites_of_mem_enclosing (ho : o ∈ f.classSites) (he : e ∈ f.enclosing o) : e ∈ f.classSites :=
  mem_classSites_of_mem_before (enclosing_subset_before ho he)

/-! ### Names in terms of the nearest class around -/

theorem segment_ne_empty (h : f.isNamedClass o.node = true) : f.segment name o ≠ "" := by
  have hname : f.declaredName o.node ≠ "" := by
    simp only [isNamedClass, Bool.and_eq_true, decide_eq_true_eq] at h
    exact h.2
  unfold segment
  split_ifs
  · exact fun hempty => hname (String.append_eq_empty_iff.mp hempty).2
  · exact hname

/-- A segment has no character that is no digit and not in the declared name. -/
theorem not_mem_segment {c : Char} (hc : c.isDigit = false) (h : c ∉ (f.declaredName o.node).toList) :
    c ∉ (f.segment name o).toList := by
  have hnumber : c ∉ Nat.toDigits 10 (f.number name o) := fun hmem =>
    absurd (Nat.isDigit_of_mem_toDigits (by decide) (by decide) hmem) (by simp [hc])
  unfold segment
  split_ifs
  · simpa using ⟨hnumber, h⟩
  · exact h

theorem segments_eq_concat (he : f.enclosing o = e :: es) :
    f.segments name o = f.segments name e ++ [f.segment name o] := by
  rw [segments, segments, (enclosing_of_enclosing_eq_cons he).1, he, List.map_cons, List.reverse_cons]

theorem segments_of_outermost (he : f.enclosing o = []) : f.segments name o = [f.declaredName o.node] := by
  have hplain : f.isNumbered o = false := by rw [isNumbered_eq, he]; rfl
  rw [segments, he, List.map_singleton, List.reverse_singleton, segment, hplain]
  rfl

theorem intercalate_segments_ne_empty (h : f.isNamedClass o.node = true) (sep : String) :
    sep.intercalate (f.segments name o) ≠ "" := by
  refine intercalate_ne_empty sep (by simp [segments]) fun s hs => ?_
  rw [segments, List.mem_reverse] at hs
  obtain ⟨b, hb, rfl⟩ := List.mem_map.mp hs
  rcases List.mem_cons.mp hb with rfl | hb
  · exact segment_ne_empty h
  · exact segment_ne_empty (isNamedClass_of_mem_enclosing hb)

theorem isNamedClass_of_mem_classSites (h : o ∈ f.classSites) : f.isNamedClass o.node = true :=
  (List.mem_filter.mp h).2

/-- The name of a class with no class around it. -/
theorem IsNaming.eq_outermost (h : f.IsNaming name top) (ho : o ∈ f.classSites) (he : f.enclosing o = []) :
    name o = joinNames ((f.namespaces o).foldl joinNames top) (f.declaredName o.node) := by
  rw [h o ho, pathName_eq, segments_of_outermost he, String.intercalate_singleton]

/-- The name of a class inside another: its segment behind the name of the nearest class around it. -/
theorem IsNaming.eq_inner (h : f.IsNaming name top) (ho : o ∈ f.classSites) (he : f.enclosing o = e :: es) :
    name o = name e ++ f.language.rules.nestedSeparator ++ f.segment name o := by
  have hmem : e ∈ f.enclosing o := he ▸ List.mem_cons_self
  have hne : f.segments name e ≠ [] := by simp [segments]
  rw [h o ho, h e (mem_classSites_of_mem_enclosing ho hmem), pathName_eq, pathName_eq, segments_eq_concat he,
    intercalate_concat _ hne, (enclosing_of_enclosing_eq_cons he).2, String.append_assoc,
    joinNames_append _ (intercalate_segments_ne_empty (isNamedClass_of_mem_enclosing hmem) _), ← String.append_assoc]

/-! ### One naming -/

/-- The number of a class depends on the names of classes before it only. -/
theorem number_congr {name' : Site → String} (ho : o ∈ f.classSites) (h : ∀ b ∈ f.before o, name b = name' b) :
    f.number name o = f.number name' o := by
  have houter : ∀ b, b = o ∨ b ∈ f.before o → f.outerName name b = f.outerName name' b := by
    intro b hb
    have hsub : f.enclosing b ⊆ f.before o := by
      rcases hb with rfl | hb
      · exact enclosing_subset_before ho
      · exact List.Subset.trans (enclosing_subset_before (mem_classSites_of_mem_before hb)) (before_subset ho hb)
    rw [outerName, outerName]
    cases he : f.enclosing b with
    | nil => rfl
    | cons e es => exact congrArg some (h e (hsub (he ▸ List.mem_cons_self)))
  rw [number, number]
  congr 1
  refine List.countP_congr fun b hb => ?_
  rw [houter o (.inl rfl), houter b (.inr hb)]

theorem pathName_congr {name' : Site → String} (ho : o ∈ f.classSites) (h : ∀ b ∈ f.before o, name b = name' b) :
    f.pathName name top o = f.pathName name' top o := by
  have hsegments : f.segments name o = f.segments name' o := by
    rw [segments, segments]
    congr 1
    refine List.map_congr_left fun b hb => ?_
    have hnumber : f.number name b = f.number name' b := by
      rcases List.mem_cons.mp hb with rfl | hb
      · exact number_congr ho h
      · have hbefore := enclosing_subset_before ho hb
        exact number_congr (mem_classSites_of_mem_before hbefore) fun d hd => h d (before_subset ho hbefore hd)
    rw [segment, segment, hnumber]
  rw [pathName, pathName, hsegments]

theorem pathName_earlier (f : SourceFile) (top : String) (l₁ : List Site) (o : Site) (l₂ : List Site)
    (h : f.classSites = l₁ ++ o :: l₂) (g g' : Site → String) (hg : ∀ b ∈ l₁, g b = g' b) :
    f.pathName g top o = f.pathName g' top o :=
  pathName_congr (h ▸ List.mem_append_right _ List.mem_cons_self) (by rwa [before_eq h])

/-- **The classes of a file can be named** by their paths. -/
theorem exists_isNaming (f : SourceFile) (top : String) : ∃ name, f.IsNaming name top :=
  exists_fixed_of_earlier (F := fun name o => f.pathName name top o) (f.pathName_earlier top)
    f.nodup_places_classSites.of_map

/-- **Their names are determined** by their paths. -/
theorem IsNaming.eqOn {name' : Site → String} (h : f.IsNaming name top) (h' : f.IsNaming name' top) :
    ∀ o ∈ f.classSites, name o = name' o :=
  eq_of_fixed_of_earlier (F := fun name o => f.pathName name top o) (f.pathName_earlier top) h h'

end SourceFile

end HandlerComplexity
