import HandlerComplexity.Proofs.NamedNodes
import Mathlib.Data.List.Flatten

/-!
# The switch that a case label belongs to

The case labels of a switch are collected while the tree is built, by a walk below the switch that does not enter the
switches inside it. In the finished tree a case label is then listed by the nearest switch above it and by no other node.
Clauses that are chained are the danger: a clause that is a switch has collected its labels before the next clause is hung
below it. None of the languages has such clauses.

* `Node.Occurrence.nearestSwitch?`: the nearest switch above an occurrence.
* `Node.HasOwnCases`: what a node must list, said of the node alone; `casesOwned_of_hasOwnCases`: if all nodes of a tree
  have this, every case label of the tree is listed where it belongs (`Node.CasesOwned`).
* `hasOwnCases_makeNode`, `hasOwnCases_toTree`: building a tree gives it to every node, unless the rules entangle clauses and
  switches (`Rules.Entangles`).
* `exists_unlisted_label`: if they do, a label can be left out.
* `caseLabels_owned_by_nearest_switch`: which rules give this to all trees; those of the languages do.
-/

namespace HandlerComplexity

namespace Node

/-! ## Occurrences -/

theorem self_mem_occurrencesBelow (above : List Node) (n : Node) : ⟨above, n⟩ ∈ occurrencesBelow above n := by
  rw [occurrencesBelow_eq]
  exact List.mem_cons_self

theorem mem_occurrencesBelow_iff {above : List Node} {n : Node} {o : Occurrence} :
    o ∈ occurrencesBelow above n ↔ o = ⟨above, n⟩ ∨ ∃ c ∈ n.children, o ∈ occurrencesBelow (above ++ [n]) c := by
  rw [occurrencesBelow_eq, List.mem_cons, List.mem_flatMap]

/-- What occurs below an occurrence occurs in the whole tree. -/
theorem occurrencesBelow_subset {above : List Node} {n : Node} {o : Occurrence} (h : o ∈ occurrencesBelow above n) :
    occurrencesBelow o.above o.node ⊆ occurrencesBelow above n := by
  induction n using childInduction generalizing above with
  | node n ih =>
    rcases mem_occurrencesBelow_iff.mp h with rfl | ⟨c, hc, ho⟩
    · exact List.Subset.refl _
    · intro p hp
      exact mem_occurrencesBelow_iff.mpr (.inr ⟨c, hc, ih c hc ho hp⟩)

/-- Every node of a tree occurs in it. -/
theorem exists_occurrence {root n : Node} (h : n ∈ root.preorder) : ∃ o ∈ root.occurrences, o.node = n := by
  rw [← map_node_occurrences] at h
  exact List.mem_map.mp h

/-- Where no two nodes have the same identity, an occurrence is told by the identity of its node. -/
theorem occurrence_eq_of_id {root : Node} (hn : (root.preorder.map (·.id)).Nodup) {o p : Occurrence}
    (ho : o ∈ root.occurrences) (hp : p ∈ root.occurrences) (hid : o.node.id = p.node.id) : o = p := by
  rw [← map_node_occurrences, List.map_map] at hn
  exact List.inj_on_of_nodup_map hn ho hp hid

/-! ## The nearest switch -/

/-- The last switch on a way. -/
def lastSwitch? (way : List Node) : Option Node := way.reverse.find? (·.kind = .switch)

/-- The nearest switch above an occurrence. -/
def Occurrence.nearestSwitch? (o : Occurrence) : Option Node := lastSwitch? o.above

theorem lastSwitch?_concat (way : List Node) (n : Node) :
    lastSwitch? (way ++ [n]) = if n.kind = .switch then some n else lastSwitch? way := by
  rw [lastSwitch?, List.reverse_concat, List.find?_cons]
  split_ifs with hk
  · simp [hk]
  · simp [hk, lastSwitch?]

/-- Every case label of a tree is listed by the nearest switch above it, once, and by no other node; so one without a switch
above it is listed nowhere. Nothing but case labels is listed, and what a node lists is in preorder. -/
structure CasesOwned (root : Node) : Prop where
  /-- An identity means one node. -/
  distinct : (root.preorder.map (·.id)).Nodup
  listed : ∀ o ∈ root.occurrences, o.node.kind = .caseLabel →
    ∀ s, o.nearestSwitch? = some s → s ∈ root.preorder ∧ s.cases.count o.node.id = 1
  sole : ∀ o ∈ root.occurrences, o.node.kind = .caseLabel →
    ∀ n ∈ root.preorder, o.node.id ∈ n.cases → o.nearestSwitch? = some n
  labels : ∀ n ∈ root.preorder, ∀ id ∈ n.cases, ∃ m ∈ root.preorder, m.id = id ∧ m.kind = .caseLabel
  ordered : ∀ n ∈ root.preorder, n.cases.Sublist (root.preorder.map (·.id))

/-! ## From each node to the whole tree -/

/-- A switch lists the case labels below it that are below no other switch in between, and no other node lists any. -/
def HasOwnCases (n : Node) : Prop := n.cases = if n.kind = .switch then ownCasesAll n.children else []

theorem HasOwnCases.eq_of_switch {n : Node} (h : n.HasOwnCases) (hk : n.kind = .switch) :
    n.cases = ownCasesAll n.children := by
  rw [h, if_pos hk]

theorem HasOwnCases.switch_of_mem {n : Node} (h : n.HasOwnCases) {id : NodeId} (hid : id ∈ n.cases) : n.kind = .switch := by
  by_contra hk
  rw [h, if_neg hk] at hid
  cases hid

/-- A case label of a tree is collected from the tree, and then no switch of it is above the label, or else it is listed by
the nearest switch above it, which is in the tree. -/
theorem collected_or_listed {above : List Node} {t : Node} (h : ∀ n ∈ t.preorder, n.HasOwnCases) {o : Occurrence}
    (ho : o ∈ occurrencesBelow above t) (hk : o.node.kind = .caseLabel) :
    (o.nearestSwitch? = lastSwitch? above ∧ o.node.id ∈ ownCases t) ∨
      ∃ s ∈ t.preorder, o.nearestSwitch? = some s ∧ o.node.id ∈ s.cases := by
  induction t using childInduction generalizing above with
  | node t ih =>
    have hself : t ∈ t.preorder := by
      rw [preorder_eq]
      exact List.mem_cons_self
    rcases mem_occurrencesBelow_iff.mp ho with rfl | ⟨c, hc, ho⟩
    · refine .inl ⟨rfl, ?_⟩
      have hne : t.kind ≠ .switch := by
        intro hswitch
        cases hk.symm.trans hswitch
      rw [ownCases_eq, if_neg hne, if_pos hk]
      exact List.mem_cons_self
    · rcases ih c hc (fun n hn => h n (child_mem_preorder hc hn)) ho with ⟨hnear, hid⟩ | ⟨s, hs, hnear, hid⟩
      · have hbelow : o.node.id ∈ t.children.flatMap ownCases := List.mem_flatMap.mpr ⟨c, hc, hid⟩
        rw [lastSwitch?_concat] at hnear
        by_cases hswitch : t.kind = .switch
        · refine .inr ⟨t, hself, by rw [hnear, if_pos hswitch], ?_⟩
          rw [(h t hself).eq_of_switch hswitch, ownCasesAll_eq_flatMap]
          exact hbelow
        · refine .inl ⟨by rw [hnear, if_neg hswitch], ?_⟩
          rw [ownCases_eq, if_neg hswitch]
          split_ifs
          · exact List.mem_cons_of_mem _ hbelow
          · exact hbelow
      · exact .inr ⟨s, child_mem_preorder hc hs, hnear, hid⟩

/-- What is collected from a tree occurs in it below no switch of the tree. -/
theorem exists_occurrence_of_mem_ownCases {t : Node} {id : NodeId} (h : id ∈ ownCases t) (above : List Node) :
    ∃ o ∈ occurrencesBelow above t, o.node.id = id ∧ o.nearestSwitch? = lastSwitch? above := by
  induction t using childInduction generalizing above with
  | node t ih =>
    rw [ownCases_eq] at h
    split_ifs at h with hswitch hcase
    · cases h
    all_goals
      have hbelow : id ∈ t.children.flatMap ownCases →
          ∃ o ∈ occurrencesBelow above t, o.node.id = id ∧ o.nearestSwitch? = lastSwitch? above := by
        intro hid
        obtain ⟨c, hc, hid⟩ := List.mem_flatMap.mp hid
        obtain ⟨o, ho, hoid, hnear⟩ := ih c hc hid (above ++ [t])
        rw [lastSwitch?_concat, if_neg hswitch] at hnear
        exact ⟨o, mem_occurrencesBelow_iff.mpr (.inr ⟨c, hc, ho⟩), hoid, hnear⟩
    · rcases List.mem_cons.mp h with rfl | h
      · exact ⟨⟨above, t⟩, self_mem_occurrencesBelow above t, rfl, rfl⟩
      · exact hbelow h
    · exact hbelow h

/-- The labels are collected in preorder. -/
theorem ownCases_sublist (t : Node) : (ownCases t).Sublist (t.preorder.map (·.id)) := by
  induction t using childInduction with
  | node t ih =>
    have hbelow : (t.children.flatMap ownCases).Sublist ((t.children.flatMap preorder).map (·.id)) := by
      rw [List.map_flatMap]
      exact List.Sublist.flatMap_right _ ih
    rw [ownCases_eq, preorder_eq_cons_flatMap, List.map_cons]
    split_ifs
    · exact List.nil_sublist _
    · exact hbelow.cons_cons _
    · exact hbelow.cons _

theorem preorder_sublist {root n : Node} (h : n ∈ root.preorder) : n.preorder.Sublist root.preorder := by
  induction root using childInduction with
  | node root ih =>
    have hcases := h
    rw [preorder_eq_cons_flatMap, List.mem_cons, List.mem_flatMap] at hcases
    rcases hcases with rfl | ⟨c, hc, hn⟩
    · exact List.Sublist.refl _
    · have hchild : c.preorder.Sublist (root.children.flatMap preorder) := by
        simpa using (List.singleton_sublist.mpr hc).flatMap preorder
      rw [preorder_eq_cons_flatMap root]
      exact ((ih c hc hn).trans hchild).cons _

theorem HasOwnCases.sublist {n : Node} (h : n.HasOwnCases) : n.cases.Sublist (n.preorder.map (·.id)) := by
  rw [h]
  split_ifs
  · rw [ownCasesAll_eq_flatMap, preorder_eq_cons_flatMap, List.map_cons, List.map_flatMap]
    exact (List.Sublist.flatMap_right _ fun c _ => ownCases_sublist c).cons _
  · exact List.nil_sublist _

/-- What a node lists occurs below it, and the node is the nearest switch above. -/
theorem HasOwnCases.exists_occurrence {root n : Node} (hn : n ∈ root.preorder) (h : n.HasOwnCases) {id : NodeId}
    (hid : id ∈ n.cases) : ∃ o ∈ root.occurrences, o.node.id = id ∧ o.nearestSwitch? = some n := by
  obtain ⟨p, hp, rfl⟩ := Node.exists_occurrence hn
  have hswitch := h.switch_of_mem hid
  rw [h.eq_of_switch hswitch, ownCasesAll_eq_flatMap] at hid
  obtain ⟨c, hc, hid⟩ := List.mem_flatMap.mp hid
  obtain ⟨o, ho, hoid, hnear⟩ := exists_occurrence_of_mem_ownCases hid (p.above ++ [p.node])
  rw [lastSwitch?_concat, if_pos hswitch] at hnear
  exact ⟨o, occurrencesBelow_subset hp (mem_occurrencesBelow_iff.mpr (.inr ⟨c, hc, ho⟩)), hoid, hnear⟩

/-- **From each node to the whole tree.** -/
theorem casesOwned_of_hasOwnCases {root : Node} (hdistinct : (root.preorder.map (·.id)).Nodup)
    (h : ∀ n ∈ root.preorder, n.HasOwnCases) : root.CasesOwned where
  distinct := hdistinct
  listed := by
    intro o ho hk s hs
    rcases collected_or_listed h ho hk with ⟨hnear, -⟩ | ⟨s', hmem, hnear, hid⟩
    · cases hs.symm.trans hnear
    · obtain rfl := Option.some.inj (hs.symm.trans hnear)
      have hnodup := hdistinct.sublist ((h s hmem).sublist.trans ((preorder_sublist hmem).map _))
      exact ⟨hmem, List.count_eq_one_of_mem hnodup hid⟩
  sole := by
    intro o ho hk n hn hid
    obtain ⟨p, hp, hpid, hnear⟩ := (h n hn).exists_occurrence hn hid
    rw [occurrence_eq_of_id hdistinct ho hp hpid.symm]
    exact hnear
  labels := by
    intro n hn id hid
    rw [(h n hn).eq_of_switch ((h n hn).switch_of_mem hid)] at hid
    obtain ⟨m, hm, hcase⟩ := exists_of_mem_ownCasesAll hid
    refine ⟨m, preorder_subset hn ?_, hcase⟩
    rw [preorder_eq]
    exact List.mem_cons_of_mem _ hm
  ordered := fun n hn => (h n hn).sublist.trans ((preorder_sublist hn).map _)

end Node

/-! ## Building -/

/-- A clause with another one hung below it still lists what it has to list, if it is no switch or nothing is to be
collected from the other. -/
theorem hasOwnCases_hang {c tail : Node} (hc : c.HasOwnCases) (h : c.kind = .switch → ownCases tail = []) :
    (hang c tail).HasOwnCases := by
  show c.cases = if c.kind = .switch then ownCasesAll (c.children ++ [tail]) else []
  rw [hc]
  split_ifs with hk
  · rw [ownCasesAll_eq_flatMap, ownCasesAll_eq_flatMap, List.flatMap_append, List.flatMap_singleton, h hk,
      List.append_nil]
  · rfl

theorem ownCases_hang_eq_nil {c tail : Node} (hc : ownCases c = []) (htail : ownCases tail = []) :
    ownCases (hang c tail) = [] := by
  rw [ownCases_eq] at hc ⊢
  change (if c.kind = .switch then [] else if c.kind = .caseLabel then c.id.chain :: (c.children ++ [tail]).flatMap ownCases
    else (c.children ++ [tail]).flatMap ownCases) = []
  split_ifs at hc ⊢ with hswitch hcase
  · rfl
  · rw [List.flatMap_append, hc, List.flatMap_singleton, htail]
    rfl

/-- If one of several clauses is a switch, then none of them has labels to be collected. -/
def ClausesApart (clauses : List Node) : Prop :=
  ∀ c ∈ clauses, c.kind = .switch → ∀ d ∈ clauses, ownCases d = []

theorem ownCases_chainClauses {clauses : List Node} {first : Node} (h : chainClauses clauses = some first)
    (hnone : ∀ d ∈ clauses, ownCases d = []) : ownCases first = [] := by
  induction clauses generalizing first with
  | nil => cases h
  | cons c cs ih =>
    rw [chainClauses] at h
    cases hcs : chainClauses cs with
    | none =>
      rw [hcs] at h
      obtain rfl := Option.some.inj h
      exact hnone _ List.mem_cons_self
    | some tail =>
      rw [hcs] at h
      obtain rfl := Option.some.inj h
      exact ownCases_hang_eq_nil (hnone c List.mem_cons_self)
        (ih hcs fun d hd => hnone d (List.mem_cons_of_mem _ hd))

theorem hasOwnCases_chainClauses {clauses : List Node} {first : Node} (h : chainClauses clauses = some first)
    (hall : ∀ n ∈ Node.preorderAll clauses, n.HasOwnCases) (happart : ClausesApart clauses) :
    ∀ n ∈ first.preorder, n.HasOwnCases := by
  refine forall_preorder_chainClauses h hall fun c hc rest hsub tail htail hown => ?_
  exact hasOwnCases_hang hown fun hk => ownCases_chainClauses htail fun d hd => happart c hc hk d (hsub hd)

/-- Making a node out of trees in which every node lists what it has to gives such a tree. -/
theorem hasOwnCases_makeNode {r : Rules} {place : List Nat} {c : Cst} {built : Built}
    (hall : ∀ n ∈ Node.preorderAll (built.map (·.2)), n.HasOwnCases)
    (happart : r.kindOf c.nodeType = .conditional → isChained r built = true →
      ClausesApart ((built.filter (isClause r ·.1)).map (·.2))) :
    ∀ n ∈ (makeNode r place c built).preorder, n.HasOwnCases := by
  have hkept : ∀ p : Cst × Node → Bool, ∀ n ∈ Node.preorderAll ((built.filter p).map (·.2)), n.HasOwnCases := by
    intro p n hn
    rw [Node.preorderAll_eq_flatMap] at hn hall
    obtain ⟨m, hm, hn⟩ := List.mem_flatMap.mp hn
    exact hall n (List.mem_flatMap.mpr ⟨m, List.map_subset _ List.filter_sublist.subset hm, hn⟩)
  by_cases hk : r.kindOf c.nodeType = .conditional
  · -- a conditional is no switch and lists nothing, so only the clauses below it matter
    have hown : (conditionalNode r place c built).HasOwnCases := by
      obtain ⟨hkind, -, -, -, -, -, hcases⟩ := slots_conditionalNode r place c built
      rw [Node.HasOwnCases, hcases, hkind, hk]
      rfl
    rw [makeNode_conditional hk, Node.preorder_eq]
    refine List.forall_mem_cons.mpr ⟨hown, ?_⟩
    cases hchained : isChained r built with
    | false =>
      rw [conditionalNode_unchained hchained]
      exact hall
    | true =>
      obtain ⟨tail, htail, heq⟩ := conditionalNode_chained place c hchained
      rw [heq]
      dsimp only
      rw [Node.preorderAll_append, Node.preorderAll, Node.preorderAll, List.append_nil]
      exact List.forall_mem_append.mpr
        ⟨hkept _, hasOwnCases_chainClauses htail (hkept _) (happart hk hchained)⟩
  · rw [Node.preorder_eq, (wellSlotted_made place built hk).2]
    refine List.forall_mem_cons.mpr ⟨?_, hall⟩
    rw [Node.HasOwnCases, kind_makeNode, (wellSlotted_made place built hk).2]
    unfold makeNode
    cases hkind : r.kindOf c.nodeType with
    | conditional => exact absurd hkind hk
    | switch => exact caseWalk_nil (built.map (·.2))
    | _ => rfl

/-! ## Rules that entangle clauses and switches -/

/-- Among the clauses that are chained there can be one that is a switch and one that is none, and there are case labels. -/
structure Rules.Entangles (r : Rules) : Prop where
  conditional : ∃ t, r.kindOf t = .conditional
  elseIf : r.elseIfTypes ≠ []
  switchClause : ∃ t ∈ r.elseIfTypes ++ r.elseTypes, r.kindOf t = .switch
  otherClause : ∃ t ∈ r.elseIfTypes ++ r.elseTypes, r.kindOf t ≠ .switch
  label : ∃ t, r.kindOf t = .caseLabel

theorem kind_toTree (r : Rules) (place : List Nat) (c : Cst) : (toTree r place c).kind = r.kindOf c.nodeType := by
  rw [toTree_eq, kind_makeNode]

theorem isClause_iff {r : Rules} {c : Cst} : isClause r c = true ↔ c.nodeType ∈ r.elseIfTypes ++ r.elseTypes := by
  simp [isClause]

/-- Every node of a tree has the kind of its type. -/
theorem kindOf_of_mem_toTree {r : Rules} {place : List Nat} {c : Cst} {n : Node} (h : n ∈ (toTree r place c).preorder) :
    r.kindOf n.typeName = n.kind := by
  have horigin := (origins_toTree r place [] c).subset (List.mem_map_of_mem h)
  obtain ⟨o, -, ho⟩ := List.mem_map.mp horigin
  have htag : o.node.tag r = n.tag := congrArg Prod.snd ho
  rw [show n.typeName = o.node.nodeType from (congrArg Tag.typeName htag).symm,
    show n.kind = r.kindOf o.node.nodeType from (congrArg Tag.kind htag).symm]

/-- Clauses are apart unless the rules entangle them. -/
theorem clausesApart_of_not_entangles {r : Rules} (hr : ¬ r.Entangles) {place : List Nat} {c : Cst}
    (hk : r.kindOf c.nodeType = .conditional) (hchained : isChained r (builtFor r place c) = true) :
    ClausesApart (((builtFor r place c).filter (isClause r ·.1)).map (·.2)) := by
  have hclause : ∀ n ∈ ((builtFor r place c).filter (isClause r ·.1)).map (·.2),
      ∃ k d, n = toTree r (k :: place) d ∧ d.nodeType ∈ r.elseIfTypes ++ r.elseTypes := by
    intro n hn
    obtain ⟨e, he, rfl⟩ := List.mem_map.mp hn
    obtain ⟨he, hclause⟩ := List.mem_filter.mp he
    obtain ⟨-, -, k, hk⟩ := exists_of_mem_builtFor he
    exact ⟨k, e.1, hk, isClause_iff.mp hclause⟩
  intro m hm hswitch n hn
  obtain ⟨j, d, rfl, hd⟩ := hclause m hm
  obtain ⟨k, e, rfl, he⟩ := hclause n hn
  rw [kind_toTree] at hswitch
  by_contra hlabels
  obtain ⟨id, hid⟩ := List.exists_mem_of_ne_nil _ hlabels
  obtain ⟨l, hl, -, hcase⟩ := exists_of_mem_ownCases hid
  refine hr
    { conditional := ⟨_, hk⟩
      elseIf := ?_
      switchClause := ⟨_, hd, hswitch⟩
      otherClause := ⟨_, he, fun hother => hlabels ?_⟩
      label := ⟨_, (kindOf_of_mem_toTree hl).trans hcase⟩ }
  · obtain ⟨x, -, hx⟩ := List.any_eq_true.mp hchained
    exact List.ne_nil_of_mem (List.contains_iff_mem.mp hx)
  · rw [ownCases_eq, kind_toTree, hother]
    rfl

/-- Every node of a tree lists what it has to. By induction on the concrete tree. -/
theorem hasOwnCases_toTree {r : Rules} (hr : ¬ r.Entangles) (place : List Nat) (c : Cst) :
    ∀ n ∈ (toTree r place c).preorder, n.HasOwnCases := by
  induction c using Cst.childInduction generalizing place with
  | node c ih =>
    rw [toTree_eq]
    refine hasOwnCases_makeNode ?_ (clausesApart_of_not_entangles hr)
    rw [Node.preorderAll_eq_flatMap]
    intro n hn
    obtain ⟨m, hm, hn⟩ := List.mem_flatMap.mp hn
    obtain ⟨e, he, rfl⟩ := List.mem_map.mp hm
    obtain ⟨hchild, -, k, hk⟩ := exists_of_mem_builtFor he
    exact ih e.1 hchild (k :: place) n (hk ▸ hn)

theorem not_entangles (l : Language) : ¬ l.rules.Entangles := by
  intro h
  cases l with
  | python =>
    obtain ⟨t, ht, hk⟩ := h.switchClause
    have hclause : t ∈ ["elif_clause", "else_clause"] := ht
    simp only [List.mem_cons, List.not_mem_nil, or_false] at hclause
    rcases hclause with rfl | rfl <;> cases hk
  | _ => exact h.elseIf rfl

/-! ## A label that no switch lists -/

/-- A concrete node without children. -/
def Cst.leaf (nodeType : String) : Cst := ⟨nodeType, 0, 0, 0, true, none, []⟩

/-- A concrete node with one child. -/
def Cst.over (nodeType child : String) : Cst := { leaf nodeType with children := [leaf child] }

/-- A conditional with three clauses, the second of which has a case label below it. -/
def entangled (conditional first second label third : String) : Cst :=
  { Cst.leaf conditional with children := [.leaf first, .over second label, .leaf third] }

theorem children_toTree_over (r : Rules) (place : List Nat) (parent child : String) :
    (toTree r place (.over parent child)).children = [toTree r (0 :: place) (.leaf child)] := by
  have hbuilt : builtFor r place (.over parent child) = [(.leaf child, toTree r (0 :: place) (.leaf child))] :=
    namedTrees_eq r place 0 [.leaf child]
  rw [toTree_eq, hbuilt]
  by_cases hk : r.kindOf (Cst.over parent child).nodeType = .conditional
  · rw [makeNode_conditional hk]
    cases hchained : isChained r [(Cst.leaf child, toTree r (0 :: place) (.leaf child))] with
    | false =>
      rw [conditionalNode_unchained hchained]
      rfl
    | true =>
      -- the child is the only clause of the chain and stays where it is
      obtain ⟨tail, htail, heq⟩ := conditionalNode_chained place (.over parent child) hchained
      have helse : r.elseIfTypes.contains child = true := by simpa [isChained, Cst.leaf] using hchained
      have hclause : isClause r (.leaf child) = true := by
        rw [isClause, show (Cst.leaf child).nodeType = child from rfl, helse, Bool.true_or]
      rw [heq]
      simp only [List.filter_singleton, hclause] at htail ⊢
      obtain rfl := Option.some.inj htail
      rfl
  · rw [(wellSlotted_made place _ hk).2]
    rfl

section Entangled

variable {r : Rules} {k u v l w : String}

/-- The second clause, with the third one hung below it. -/
def secondClause (r : Rules) (v l w : String) : Node := hang (toTree r [1] (.over v l)) (toTree r [2] (.leaf w))

/-- The first clause, with the second one hung below it. -/
def firstClause (r : Rules) (u v l w : String) : Node := hang (toTree r [0] (.leaf u)) (secondClause r v l w)

theorem children_toTree_entangled (hk : r.kindOf k = .conditional) (hu : u ∈ r.elseIfTypes ++ r.elseTypes)
    (hv : v ∈ r.elseIfTypes ++ r.elseTypes) (hw : w ∈ r.elseIfTypes) :
    (toTree r [] (entangled k u v l w)).children = [firstClause r u v l w] := by
  have hbuilt : builtFor r [] (entangled k u v l w) =
      [(.leaf u, toTree r [0] (.leaf u)), (.over v l, toTree r [1] (.over v l)), (.leaf w, toTree r [2] (.leaf w))] :=
    namedTrees_eq r [] 0 [.leaf u, .over v l, .leaf w]
  have hclauses : ∀ e ∈ builtFor r [] (entangled k u v l w), isClause r e.1 = true := by
    rw [hbuilt]
    simp only [List.forall_mem_cons, List.not_mem_nil, false_imp_iff, implies_true, and_true]
    exact ⟨isClause_iff.mpr hu, isClause_iff.mpr hv, isClause_iff.mpr (List.mem_append_left _ hw)⟩
  have hothers : (builtFor r [] (entangled k u v l w)).filter (!isClause r ·.1) = [] :=
    List.filter_eq_nil_iff.mpr fun e he => by simp [hclauses e he]
  have hchained : isChained r (builtFor r [] (entangled k u v l w)) = true := by
    rw [hbuilt, isChained]
    simp [Cst.leaf, hw]
  obtain ⟨tail, htail, heq⟩ := conditionalNode_chained [] (entangled k u v l w) hchained
  rw [List.filter_eq_self.mpr hclauses, hbuilt] at htail
  obtain rfl := Option.some.inj htail
  rw [toTree_eq, makeNode_conditional (show r.kindOf (entangled k u v l w).nodeType = _ from hk), heq, hothers]
  rfl

/-- **Entangled clauses leave a label unlisted.** The first clause is a switch and has listed nothing when the second one,
with the label below it, is hung below it. -/
theorem exists_unlisted_label (hk : r.kindOf k = .conditional) (hu : u ∈ r.elseIfTypes ++ r.elseTypes)
    (hswitch : r.kindOf u = .switch) (hv : v ∈ r.elseIfTypes ++ r.elseTypes) (hother : r.kindOf v ≠ .switch)
    (hl : r.kindOf l = .caseLabel) (hw : w ∈ r.elseIfTypes) :
    ∃ o ∈ (toTree r [] (entangled k u v l w)).occurrences, o.node.kind = .caseLabel ∧
      ∃ s, o.nearestSwitch? = some s ∧ s.cases = [] := by
  have hroot := children_toTree_entangled (l := l) hk hu hv hw
  generalize toTree r [] (entangled k u v l w) = root at hroot ⊢
  have hlabel : toTree r [0, 1] (.leaf l) ∈ (secondClause r v l w).children := by
    refine List.mem_append_left _ ?_
    rw [children_toTree_over]
    exact List.mem_cons_self
  refine ⟨⟨[root, firstClause r u v l w, secondClause r v l w], toTree r [0, 1] (.leaf l)⟩, ?_,
    (kind_toTree r _ _).trans hl, firstClause r u v l w, ?_, ?_⟩
  · refine Node.mem_occurrencesBelow_iff.mpr (.inr ⟨firstClause r u v l w, hroot ▸ List.mem_cons_self, ?_⟩)
    refine Node.mem_occurrencesBelow_iff.mpr (.inr ⟨secondClause r v l w, ?_, ?_⟩)
    · exact List.mem_append_right _ List.mem_cons_self
    · exact Node.mem_occurrencesBelow_iff.mpr (.inr ⟨_, hlabel, Node.self_mem_occurrencesBelow _ _⟩)
  · have hfirst : (firstClause r u v l w).kind = .switch := (kind_toTree r [0] _).trans hswitch
    have hsecond : (secondClause r v l w).kind ≠ .switch := (kind_toTree r [1] _).trans_ne hother
    rw [Node.Occurrence.nearestSwitch?, show [root, firstClause r u v l w, secondClause r v l w] =
      [root] ++ [firstClause r u v l w] ++ [secondClause r v l w] from rfl]
    rw [Node.lastSwitch?_concat, if_neg hsecond, Node.lastSwitch?_concat, if_pos hfirst]
  · change (toTree r [0] (.leaf u)).cases = []
    rw [toTree_eq, makeNode, show r.kindOf (Cst.leaf u).nodeType = .switch from hswitch]
    exact caseWalk_nil []

theorem exists_not_casesOwned (h : r.Entangles) : ∃ c, ¬ (toTree r [] c).CasesOwned := by
  obtain ⟨⟨k, hk⟩, helse, ⟨u, hu, hswitch⟩, ⟨v, hv, hother⟩, ⟨l, hl⟩⟩ := h
  obtain ⟨w, hw⟩ := List.exists_mem_of_ne_nil _ helse
  refine ⟨entangled k u v l w, fun howned => ?_⟩
  obtain ⟨o, ho, hcase, s, hnearest, hnothing⟩ := exists_unlisted_label hk hu hswitch hv hother hl hw
  have hcount := (howned.listed o ho hcase s hnearest).2
  rw [hnothing] at hcount
  cases hcount

end Entangled

/-! ## All rules -/

/-- **Each case label belongs to the nearest switch above it.** Whatever the concrete tree, it is listed there and nowhere
else, and a label without a switch above it is listed nowhere: rules have this of all trees exactly if they do not entangle
clauses and switches. Those of the languages do not. -/
theorem caseLabels_owned_by_nearest_switch :
    (∀ r : Rules, (∀ place c, (toTree r place c).CasesOwned) ↔ ¬ r.Entangles) ∧
      ∀ (l : Language) (place : List Nat) (c : Cst), (toTree l.rules place c).CasesOwned := by
  have howned : ∀ {r : Rules}, ¬ r.Entangles → ∀ place c, (toTree r place c).CasesOwned := fun hr place c =>
    Node.casesOwned_of_hasOwnCases (nodup_ids_toTree _ _ _) (hasOwnCases_toTree hr place c)
  refine ⟨fun r => ⟨fun hall hr => ?_, howned⟩, fun l => howned (not_entangles l)⟩
  obtain ⟨c, hc⟩ := exists_not_casesOwned hr
  exact hc (hall [] c)

/-- Rules under which an else-if clause is a switch and an else clause is none. -/
def switchClauseRules : Rules where
  classTypes := []
  kinds := [("if", .conditional), ("when", .switch), ("case", .caseLabel)]
  blockTypes := []
  elseTypes := ["else"]
  elseIfTypes := ["when"]

/-- Under such rules a label can have a switch above it and be listed nowhere. -/
theorem switchClauseRules_leave_label_unlisted :
    let root := toTree switchClauseRules [] (entangled "if" "when" "else" "case" "when")
    ∃ o ∈ root.occurrences, o.node.kind = .caseLabel ∧ ∃ s, o.nearestSwitch? = some s ∧ o.node.id ∉ s.cases := by
  obtain ⟨o, ho, hcase, s, hnearest, hnothing⟩ :=
    exists_unlisted_label (r := switchClauseRules) (k := "if") (u := "when") (v := "else") (l := "case") (w := "when")
      (by decide) (by decide) (by decide) (by decide) (by decide) (by decide) (by decide)
  exact ⟨o, ho, hcase, s, hnearest, by simp [hnothing]⟩

end HandlerComplexity
