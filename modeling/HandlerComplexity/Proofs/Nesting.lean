import HandlerComplexity.Proofs.ElseIf
import HandlerComplexity.Proofs.QualifiedName
import HandlerComplexity.Proofs.Renaming

/-!
# Classes inside classes

Each class of a file has a tree of its own, and the tree of a class inside it is built a second time as a part of it. The two
are the same up to the places of their nodes, since a class is not moved when clauses are chained, only what is around it.
So the handlers of a class are those of any classes inside it that are apart from one another, and those outside of them.

* `toTree_mem_preorder`: the tree of a node inside another is a part of its tree; `mem_subtree_iff`: it has all nodes whose
  places are below its own.
* `sum_by_parts`: a sum over a list, over parts of it that have nothing in common and over the rest.
* `nested_classes_accounted`: the score of a class in terms of the scores of classes inside it.
-/

namespace HandlerComplexity

/-! ## The tree of a node inside another -/

section Inside

variable {r : Rules} {place : List Nat} {above : List Cst} {c : Cst} {v : Site}

/-- Making a node keeps every tree in the trees of the children as it is, except for clauses that are chained. -/
theorem mem_preorder_makeNode {built : Built} {e : Cst × Node} (he : e ∈ built) {n : Node} (hn : n ∈ e.2.preorder)
    (hclause : n = e.2 → isClause r e.1 = false) : n ∈ (makeNode r place c built).preorder := by
  have hkept : ∀ m : Node, e.2 ∈ m.children → n ∈ m.preorder := fun m hm => Node.child_mem_preorder hm hn
  by_cases hk : r.kindOf c.nodeType = .conditional
  · rw [makeNode_conditional hk]
    cases hchained : isChained r built with
    | false =>
      rw [conditionalNode_unchained hchained]
      exact hkept _ (List.mem_map_of_mem he)
    | true =>
      obtain ⟨tail, htail, heq⟩ := conditionalNode_chained place c hchained
      rw [heq]
      cases hmoved : isClause r e.1 with
      | false =>
        have hother : e ∈ built.filter (!isClause r ·.1) := List.mem_filter.mpr ⟨he, by rw [hmoved]; rfl⟩
        exact hkept _ (List.mem_append_left _ (List.mem_map_of_mem hother))
      | true =>
        -- the clause itself gets another identity, but not what is below it
        rw [Node.preorder_eq_cons_flatMap, List.mem_cons, List.mem_flatMap] at hn
        rcases hn with hroot | ⟨p, hp, hn⟩
        · rw [hclause hroot] at hmoved
          cases hmoved
        · have hmem : e.2 ∈ (built.filter (isClause r ·.1)).map (·.2) :=
            List.mem_map_of_mem (List.mem_filter.mpr ⟨he, hmoved⟩)
          refine Node.child_mem_preorder (c := tail) ?_ (preorder_subset_chainClauses htail hmem hp hn)
          exact List.mem_append_right _ List.mem_cons_self
  · exact hkept _ ((wellSlotted_made place built hk).2 ▸ List.mem_map_of_mem he)

/-- **The tree of a node is part of the tree of every node above it**, if the node is no clause. -/
theorem toTree_mem_preorder (hv : v ∈ c.sitesBelow place above) (hclause : isClause r v.node = false) :
    toTree r v.place v.node ∈ (toTree r place c).preorder := by
  induction c using Cst.childInduction generalizing place above with
  | node c ih =>
    rcases Cst.mem_sitesBelow_iff.mp hv with rfl | ⟨⟨d, k⟩, hd, hv⟩
    · rw [Node.preorder_eq]
      exact List.mem_cons_self
    · have hbelow := ih d (List.mem_filter.mp (List.fst_mem_of_mem_zipIdx hd)).1 hv
      have hbuilt : (d, toTree r (k :: place) d) ∈ builtFor r place c := by
        rw [builtFor, namedTrees_eq]
        exact List.mem_map_of_mem (f := fun e : Cst × Nat => (e.1, toTree r (e.2 :: place) e.1)) hd
      rw [toTree_eq r place c]
      refine mem_preorder_makeNode hbuilt hbelow fun hroot => ?_
      have htype : v.node.nodeType = d.nodeType := by
        have hname := congrArg Node.typeName hroot
        rwa [toTree_eq, toTree_eq, typeName_makeNode, typeName_makeNode] at hname
      rwa [isClause, ← htype]

/-- The nodes of a tree whose places are below that of a node in it are those of the tree of that node. -/
theorem mem_subtree_iff (hv : v ∈ c.sitesBelow place above) (hclause : isClause r v.node = false) {n : Node} :
    n ∈ (toTree r v.place v.node).preorder ↔ n ∈ (toTree r place c).preorder ∧ v.place <:+ n.id.path := by
  have hsub := Node.preorder_subset (toTree_mem_preorder hv hclause)
  constructor
  · intro hn
    obtain ⟨q, hq⟩ := exists_append_of_mem_paths (List.mem_map_of_mem (f := fun m : Node => m.id.path) hn)
    exact ⟨hsub hn, q, hq.symm⟩
  · rintro ⟨hn, hplace⟩
    -- the node comes from a site of the inner tree, and so does a node there, which has the same place
    obtain ⟨u, hu, horigin⟩ := List.mem_map.mp ((origins_toTree r place above c).subset (List.mem_map_of_mem hn))
    have hpath : u.place = n.id.path := congrArg Prod.fst horigin
    have hinner := Cst.mem_sitesBelow_of_suffix hu hv (hpath ▸ hplace)
    obtain ⟨m, hm, hsame⟩ := List.mem_map.mp
      ((origins_toTree r v.place v.above v.node).symm.subset (List.mem_map_of_mem hinner))
    have hpaths : n.id.path = m.id.path := hpath.symm.trans (congrArg Prod.fst hsame).symm
    rwa [List.inj_on_of_nodup_map (nodup_paths_toTree r place c) hn (hsub hm) hpaths]

/-- So the handlers there are those of the inner tree, in some order. -/
theorem handlers_perm (hv : v ∈ c.sitesBelow place above) (hclause : isClause r v.node = false) :
    (((toTree r place c).descendants .handler).filter fun n => v.place.isSuffixOf n.id.path).Perm
      ((toTree r v.place v.node).descendants .handler) := by
  have hnodup : ∀ (p : List Nat) (d : Cst), ((toTree r p d).descendants .handler).Nodup := by
    intro p d
    rw [Node.descendants, Node.nodes_eq_preorder]
    exact (nodup_ids_toTree r p d).of_map.filter _
  refine (List.perm_ext_iff_of_nodup ((hnodup place c).filter _) (hnodup v.place v.node)).mpr fun n => ?_
  rw [Node.descendants, Node.descendants, Node.nodes_eq_preorder, Node.nodes_eq_preorder, List.mem_filter, List.mem_filter,
    List.mem_filter, mem_subtree_iff hv hclause, List.isSuffixOf_iff_suffix]
  exact and_right_comm

end Inside

/-! ## Sums -/

/-- A sum over a list, over parts of it that have nothing in common and over what is in none of them. -/
theorem sum_by_parts {α : Type} (g : α → Nat) (l : List α) {ps : List (α → Bool)}
    (hps : ps.Pairwise fun p q => ∀ a, p a = true → q a = false) :
    (l.map g).sum =
      (ps.map fun p => ((l.filter p).map g).sum).sum + ((l.filter fun a => !ps.any (· a)).map g).sum := by
  induction hps with
  | nil => simp
  | @cons p ps hp _ ih =>
    have hpart : (l.filter fun a => !ps.any (· a)).filter p = l.filter p := by
      rw [List.filter_filter]
      refine List.filter_congr fun a _ => ?_
      cases hpa : p a with
      | false => rfl
      | true =>
        have hnone : ps.any (· a) = false := List.any_eq_false.mpr fun q hq => by simp [hp q hq a hpa]
        simp [hnone]
    have hrest : (l.filter fun a => !ps.any (· a)).filter (!p ·) = l.filter fun a => !(p :: ps).any (· a) := by
      rw [List.filter_filter]
      exact List.filter_congr fun a _ => by simp
    have hsplit := ((List.filter_append_perm p (l.filter fun a => !ps.any (· a))).map g).sum_eq
    rw [hpart, hrest, List.map_append, List.sum_append] at hsplit
    rw [ih, ← hsplit, List.map_cons, List.sum_cons]
    omega

namespace Node

theorem classScore_eq_ok_iff {n : Node} {s : Nat} :
    n.classScore = .ok s ↔ (∀ h ∈ n.descendants .handler, ∃ v, h.handlerScore = .ok v) ∧
      s = ((n.descendants .handler).map fun h => worth h.handlerScore).sum := by
  rw [classScore, sumOver_eq_ok_iff, Nat.zero_add]

end Node

/-- **The score of a tree by parts**: the scores of the trees of nodes inside it that are apart, and those of the handlers
outside of them. -/
theorem classScore_by_parts {r : Rules} {place : List Nat} {above : List Cst} {c : Cst} {vs : List Site}
    (hvs : ∀ v ∈ vs, v ∈ c.sitesBelow place above ∧ isClause r v.node = false)
    (hapart : vs.Pairwise fun v w => ¬ v.place <:+ w.place ∧ ¬ w.place <:+ v.place) {s : Nat}
    (hs : (toTree r place c).classScore = .ok s) :
    (∀ v ∈ vs, ∃ t, (toTree r v.place v.node).classScore = .ok t) ∧
      ∃ d, Node.sumOver Node.handlerScore 0 (((toTree r place c).descendants .handler).filter fun h =>
          !vs.any fun v => v.place.isSuffixOf h.id.path) = .ok d ∧
        s = (vs.map fun v => Node.worth (toTree r v.place v.node).classScore).sum + d := by
  obtain ⟨hall, hsum⟩ := Node.classScore_eq_ok_iff.mp hs
  have hinner : ∀ v ∈ vs, ∃ t, (toTree r v.place v.node).classScore = .ok t ∧
      t = ((((toTree r place c).descendants .handler).filter fun n => v.place.isSuffixOf n.id.path).map fun h =>
        Node.worth h.handlerScore).sum := by
    intro v hv
    have hperm := handlers_perm (r := r) (hvs v hv).1 (hvs v hv).2
    refine ⟨_, Node.classScore_eq_ok_iff.mpr ⟨fun h hh => ?_, rfl⟩, (hperm.map _).sum_eq.symm⟩
    exact hall h (List.mem_filter.mp (hperm.symm.subset hh)).1
  -- two places above one place are comparable, so no handler lies in two of the trees
  have hdisjoint : (vs.map fun v (n : Node) => v.place.isSuffixOf n.id.path).Pairwise
      fun p q => ∀ n, p n = true → q n = false := by
    refine List.pairwise_map.mpr (hapart.imp fun {v w} hvw n hv => ?_)
    rw [List.isSuffixOf_iff_suffix] at hv
    refine Bool.eq_false_iff.mpr fun hw => ?_
    rw [List.isSuffixOf_iff_suffix] at hw
    rcases List.suffix_or_suffix_of_suffix hv hw with h | h
    · exact hvw.1 h
    · exact hvw.2 h
  have hparts := sum_by_parts (fun h => Node.worth h.handlerScore) ((toTree r place c).descendants .handler) hdisjoint
  refine ⟨fun v hv => ?_, _, Node.sumOver_eq_ok_iff.mpr ⟨fun h hh => hall h (List.mem_filter.mp hh).1, rfl⟩, ?_⟩
  · obtain ⟨t, ht, -⟩ := hinner v hv
    exact ⟨t, ht⟩
  · rw [hsum, hparts, List.map_map, Nat.zero_add]
    congr 1
    · congr 1
      refine List.map_congr_left fun v hv => ?_
      obtain ⟨t, ht, hsum⟩ := hinner v hv
      rw [ht, Function.comp_apply, ← hsum]
      rfl
    · simp only [List.any_map, Function.comp_def]

/-! ## Classes -/

/-- Two sites neither of which is the other one or above it. -/
structure Site.Apart (v w : Site) : Prop where
  ne : v ≠ w
  left : v ∉ w.ancestors
  right : w ∉ v.ancestors

/-- Whether a node in the tree of the class at `o` lies in the class at `v`: its place in the file is that of `v` or below
it. -/
def Site.holds (v o : Site) (n : Node) : Bool := v.place.isSuffixOf (n.id.below o.place).path

/-- The places of sites that are apart are not below each other. -/
theorem Site.Apart.not_suffix {root : Cst} {v w : Site} (h : v.Apart w) (hv : v ∈ root.sites) (hw : w ∈ root.sites) :
    ¬ v.place <:+ w.place ∧ ¬ w.place <:+ v.place := by
  constructor
  · intro hplace
    rcases eq_or_mem_ancestors (Cst.mem_sitesBelow_of_suffix hw hv hplace) with heq | habove
    · exact h.ne heq.symm
    · exact h.left habove
  · intro hplace
    rcases eq_or_mem_ancestors (Cst.mem_sitesBelow_of_suffix hv hw hplace) with heq | habove
    · exact h.ne heq
    · exact h.right habove

/-- No class is a clause, in any language. -/
theorem SourceFile.isClause_eq_false {f : SourceFile} {c : Cst} (h : f.isNamedClass c = true) :
    isClause f.language.rules c = false := by
  have hdisjoint : ∀ l : Language, ∀ t ∈ l.rules.classTypes,
      (l.rules.elseIfTypes.contains t || l.rules.elseTypes.contains t) = false := by
    intro l
    cases l <;> decide
  exact hdisjoint f.language c.nodeType (List.contains_iff_mem.mp (Bool.and_eq_true_iff.mp h).1)

/-- The score of a class does not depend on where its tree is built. -/
theorem SourceFile.score_unitAt (f : SourceFile) (name : Site → String) (o : Site) :
    (f.unitAt name o).score = (toTree f.language.rules o.place o.node).classScore := by
  rw [← List.nil_append o.place, toTree_append, Node.classScore_rename (NodeId.below_injective _)]
  rfl

/-- The handlers in the tree of a class that lie in none of some classes inside it. -/
theorem SourceFile.sumOver_outside (f : SourceFile) (name : Site → String) (o : Site) (vs : List Site) :
    Node.sumOver Node.handlerScore 0
        (((f.unitAt name o).root.descendants .handler).filter fun h => !vs.any (·.holds o h)) =
      Node.sumOver Node.handlerScore 0
        (((toTree f.language.rules o.place o.node).descendants .handler).filter fun h =>
          !vs.any fun v => v.place.isSuffixOf h.id.path) := by
  rw [← List.nil_append o.place, toTree_append, Node.descendants_rename, List.filter_map,
    Node.sumOver_handlerScore_rename (NodeId.below_injective _)]
  simp only [Function.comp_def, Node.id_rename]
  rfl

/-- **A class accounts for the classes inside it.** Take a class of a file, in any language, and some classes inside it that
are apart from one another. If the class has a score, so have they, and its score is the sum of theirs and of the scores of
those of its handlers that lie in none of them. So if one of them has no score, the class has none either. -/
theorem nested_classes_accounted (f : SourceFile) (moduleRoot : Option String) (hnamed : ¬ f.IsNameless moduleRoot) :
    ∃ name, f.units moduleRoot = .ok (f.classSites.map (f.unitAt name)) ∧
      ∀ o ∈ f.classSites, ∀ vs : List Site, (∀ v ∈ vs, v ∈ f.classSites ∧ o ∈ v.ancestors) → vs.Pairwise Site.Apart →
        (∀ s, (f.unitAt name o).score = .ok s →
          ∃ (ts : List Nat) (d : Nat), vs.map (fun v => (f.unitAt name v).score) = ts.map .ok ∧
            Node.sumOver Node.handlerScore 0
              (((f.unitAt name o).root.descendants .handler).filter fun h => !vs.any (·.holds o h)) = .ok d ∧
            ts.sum ≤ s ∧ s - ts.sum = d) ∧
        ∀ v ∈ vs, ∀ e, (f.unitAt name v).score = .error e → ∃ e', (f.unitAt name o).score = .error e' := by
  obtain ⟨top, htop⟩ := SourceFile.exists_topName hnamed
  obtain ⟨name, hnaming⟩ := f.exists_isNaming top
  refine ⟨name, SourceFile.units_eq_of_isNaming htop hnaming, fun o ho vs hvs hapart => ?_⟩
  have hsite : ∀ v ∈ vs, v ∈ f.root.sites := fun v hv => (List.mem_filter.mp (hvs v hv).1).1
  have hbelow : ∀ v ∈ vs, v ∈ o.node.sitesBelow o.place o.above ∧ isClause f.language.rules v.node = false := by
    intro v hv
    refine ⟨?_, SourceFile.isClause_eq_false (SourceFile.isNamedClass_of_mem_classSites (hvs v hv).1)⟩
    rcases Site.mem_sitesBelow_of_mem_ancestors (hsite v hv) (hvs v hv).2 with h | h
    · cases h
    · exact h
  have hplaces : vs.Pairwise fun v w => ¬ v.place <:+ w.place ∧ ¬ w.place <:+ v.place :=
    hapart.imp_of_mem fun {v w} hv hw h => h.not_suffix (hsite v hv) (hsite w hw)
  have hparts := fun (s : Nat) (hs : (f.unitAt name o).score = .ok s) =>
    classScore_by_parts hbelow hplaces ((f.score_unitAt name o).symm.trans hs)
  refine ⟨fun s hs => ?_, fun v hv e he => ?_⟩
  · obtain ⟨hall, d, hd, hsum⟩ := hparts s hs
    refine ⟨vs.map fun v => Node.worth (f.unitAt name v).score, d, ?_, ?_, ?_, ?_⟩
    · rw [List.map_map]
      refine List.map_congr_left fun v hv => ?_
      obtain ⟨t, ht⟩ := hall v hv
      rw [Function.comp_apply, f.score_unitAt, ht]
      rfl
    · rw [f.sumOver_outside, hd]
    · simp only [f.score_unitAt]
      omega
    · simp only [f.score_unitAt]
      omega
  · cases hs : (f.unitAt name o).score with
    | error e' => exact ⟨e', rfl⟩
    | ok s =>
      obtain ⟨t, ht⟩ := (hparts s hs).1 v hv
      rw [f.score_unitAt, ht] at he
      cases he

/-- A class `A` with a handler of its own, with a class `B` in an `if` and a class `C` in the `elif` that follows. -/
def branchesFile : SourceFile where
  path := "m.py"
  language := .python
  bytes := ("class A:\n if x:\n  class B:\n   try: f()\n   except: pass\n elif y:\n  class C:\n   try: f()\n" ++
    "   except: return\n else: pass\n try: f()\n except: pass\n").toUTF8.toList
  root := .ofRows [⟨0, "module", 0, 141, 0, true, none⟩, ⟨1, "class_definition", 0, 141, 0, true, none⟩,
    ⟨2, "identifier", 6, 7, 0, true, some "name"⟩, ⟨2, "block", 10, 141, 1, true, some "body"⟩,
    ⟨3, "if_statement", 10, 116, 1, true, none⟩, ⟨4, "identifier", 13, 14, 1, true, some "condition"⟩,
    ⟨4, "block", 18, 54, 2, true, some "consequence"⟩, ⟨5, "class_definition", 18, 54, 2, true, none⟩,
    ⟨6, "identifier", 24, 25, 2, true, some "name"⟩, ⟨6, "block", 30, 54, 3, true, some "body"⟩,
    ⟨7, "try_statement", 30, 54, 3, true, none⟩, ⟨8, "block", 35, 38, 3, true, some "body"⟩,
    ⟨8, "except_clause", 42, 54, 4, true, none⟩, ⟨9, "block", 50, 54, 4, true, none⟩,
    ⟨4, "elif_clause", 56, 104, 5, true, some "alternative"⟩, ⟨5, "identifier", 61, 62, 5, true, some "condition"⟩,
    ⟨5, "block", 66, 104, 6, true, some "consequence"⟩, ⟨6, "class_definition", 66, 104, 6, true, none⟩,
    ⟨7, "identifier", 72, 73, 6, true, some "name"⟩, ⟨7, "block", 78, 104, 7, true, some "body"⟩,
    ⟨8, "try_statement", 78, 104, 7, true, none⟩, ⟨9, "block", 83, 86, 7, true, some "body"⟩,
    ⟨9, "except_clause", 90, 104, 8, true, none⟩, ⟨10, "block", 98, 104, 8, true, none⟩,
    ⟨11, "return_statement", 98, 104, 8, true, none⟩, ⟨4, "else_clause", 106, 116, 9, true, some "alternative"⟩,
    ⟨5, "block", 112, 116, 9, true, some "body"⟩, ⟨3, "try_statement", 118, 140, 10, true, none⟩,
    ⟨4, "block", 123, 126, 10, true, some "body"⟩, ⟨4, "except_clause", 128, 140, 11, true, none⟩,
    ⟨5, "block", 136, 140, 11, true, none⟩]

/-- Of the score of `A`, which is 4, the classes `B` and `C` account for 3 and the handler outside of them for 1. -/
theorem branches_accounted :
    ¬ branchesFile.IsNameless none ∧
      ∃ name, branchesFile.units none = .ok (branchesFile.classSites.map (branchesFile.unitAt name)) ∧
        ∃ o ∈ branchesFile.classSites, ∃ v ∈ branchesFile.classSites, ∃ w ∈ branchesFile.classSites,
          o ∈ v.ancestors ∧ o ∈ w.ancestors ∧ v.Apart w ∧ (branchesFile.unitAt name o).score = .ok 4 ∧
          (branchesFile.unitAt name v).score = .ok 1 ∧ (branchesFile.unitAt name w).score = .ok 2 ∧
          Node.sumOver Node.handlerScore 0 (((branchesFile.unitAt name o).root.descendants .handler).filter fun h =>
            !List.any [v, w] (·.holds o h)) = .ok 1 := by
  have hnamed : ¬ branchesFile.IsNameless none := by decide +kernel
  have hpair : ∃ v ∈ branchesFile.classSites, ∃ w ∈ branchesFile.classSites,
      ((branchesFile.enclosing v).map (·.place) = [[0]] ∧ (branchesFile.enclosing w).map (·.place) = [[0]]) ∧
      (v.place ≠ w.place ∧ v.place ∉ w.ancestors.map (·.place) ∧ w.place ∉ v.ancestors.map (·.place)) ∧
      (toTree branchesFile.language.rules [] v.node).classScore = .ok 1 ∧
      (toTree branchesFile.language.rules [] w.node).classScore = .ok 2 := by decide +kernel
  have hwhole : ∀ o ∈ branchesFile.classSites, o.place = [0] →
      (toTree branchesFile.language.rules [] o.node).classScore = .ok 4 := by decide +kernel
  obtain ⟨name, hunits, hall⟩ := nested_classes_accounted branchesFile none hnamed
  obtain ⟨v, hv, w, hw, ⟨hev, hew⟩, ⟨hne, hvw, hwv⟩, hsv, hsw⟩ := hpair
  obtain ⟨o, hev, hplace⟩ := List.map_eq_singleton_iff.mp hev
  obtain ⟨o', hew, hplace'⟩ := List.map_eq_singleton_iff.mp hew
  have hov : o ∈ branchesFile.enclosing v := hev ▸ List.mem_cons_self
  have how : o' ∈ branchesFile.enclosing w := hew ▸ List.mem_cons_self
  have ho := SourceFile.mem_classSites_of_mem_enclosing hv hov
  obtain rfl : o = o' := List.inj_on_of_nodup_map branchesFile.nodup_places_classSites ho
    (SourceFile.mem_classSites_of_mem_enclosing hw how) (hplace.trans hplace'.symm)
  have habove : ∀ {u : Site}, o ∈ branchesFile.enclosing u → o ∈ u.ancestors := fun h =>
    (List.takeWhile_sublist _).subset (List.mem_filter.mp h).1
  have hapart : v.Apart w :=
    ⟨fun h => hne (congrArg Site.place h), fun h => hvw (List.mem_map_of_mem h), fun h => hwv (List.mem_map_of_mem h)⟩
  have hso : (branchesFile.unitAt name o).score = .ok 4 := hwhole o ho hplace
  have hsv : (branchesFile.unitAt name v).score = .ok 1 := hsv
  have hsw : (branchesFile.unitAt name w).score = .ok 2 := hsw
  obtain ⟨ts, d, hts, hd, -, hdiff⟩ :=
    (hall o ho [v, w] (by simp [hv, hw, habove hov, habove how]) (by simp [hapart])).1 4 hso
  have hscores : ts.map .ok = [1, 2].map (.ok : Nat → Except Malformed Nat) := by
    rw [← hts]
    simp [hsv, hsw]
  obtain rfl : ts = [1, 2] := List.map_injective_iff.mpr (fun _ _ h => Except.ok.inj h) hscores
  refine ⟨hnamed, name, hunits, o, ho, v, hv, w, hw, habove hov, habove how, hapart, hso, hsv, hsw, ?_⟩
  rw [hd, ← hdiff]
  rfl

end HandlerComplexity
