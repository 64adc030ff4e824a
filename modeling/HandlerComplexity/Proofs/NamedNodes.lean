import HandlerComplexity.Proofs.Alike
import HandlerComplexity.Proofs.Site

/-!
# A tree has the named nodes of its concrete tree

Building a tree gives each node slots and may move whole clauses, but it loses no node and invents none.

* `Tag`: what of a concrete node is found again in its tree; `tag_makeNode`: every node has the tag of its origin.
* `origins_toTree`: the nodes of a tree are the sites of the concrete tree, in some order, under any rules.
* `preorder_toTree`: they come in preorder if clauses that are chained stand behind all other named children.
* `Node.Mirrors`: a tree of the same shape; `mirrors_toTree`: this is so where no clauses are chained.
* `toTree_keeps_named_nodes`: the three together.
-/

namespace HandlerComplexity

/-! ## Tags -/

/-- What is known of a concrete node once its tree is built: its kind, its type and its line, counted from one. -/
structure Tag where
  kind : Kind
  typeName : String
  line : Int
deriving DecidableEq

def Node.tag (n : Node) : Tag := ⟨n.kind, n.typeName, n.line⟩

def Cst.tag (r : Rules) (c : Cst) : Tag := ⟨r.kindOf c.nodeType, c.nodeType, c.line + 1⟩

@[simp] theorem tag_hang (c tail : Node) : (hang c tail).tag = c.tag := rfl

theorem typeName_makeNode (r : Rules) (place : List Nat) (c : Cst) (built : Built) :
    (makeNode r place c built).typeName = c.nodeType := by
  unfold makeNode
  split
  · unfold conditionalNode
    dsimp only
    split
    · split <;> rfl
    · rfl
  all_goals rfl

theorem tag_makeNode (r : Rules) (place : List Nat) (c : Cst) (built : Built) :
    (makeNode r place c built).tag = c.tag r := by
  rw [Node.tag, kind_makeNode, typeName_makeNode, line_makeNode, Cst.tag]

/-! ## No node is lost or invented -/

/-- Where a node comes from, and its tag. Both stay the same when a clause is hung below the node. -/
def Node.origin (n : Node) : List Nat × Tag := (n.id.path, n.tag)

def Site.origin (r : Rules) (o : Site) : List Nat × Tag := (o.place, o.node.tag r)

theorem origin_hang (c tail : Node) : (hang c tail).origin = c.origin := by
  rw [Node.origin, Node.origin, tag_hang]
  exact congrArg (·, c.tag) (NodeId.path_chain c.id)

theorem origin_makeNode (r : Rules) (place : List Nat) (c : Cst) (built : Built) :
    (makeNode r place c built).origin = (place, c.tag r) := by
  rw [Node.origin, id_makeNode, tag_makeNode]
  rfl

/-- The nodes in the trees of the named children. -/
theorem map_preorderAll_builtFor {β : Type} (f : Node → β) (r : Rules) (place : List Nat) (c : Cst) :
    (Node.preorderAll ((builtFor r place c).map (·.2))).map f =
      c.namedChildren.zipIdx.flatMap fun e => (toTree r (e.2 :: place) e.1).preorder.map f := by
  rw [Node.preorderAll_eq_flatMap, List.map_flatMap, builtFor, namedTrees_eq, List.map_map, List.flatMap_map]
  rfl

/-- **The nodes of a tree are the sites of its concrete tree**, in some order. By induction on the concrete tree: a node is
made out of all the nodes of the trees of its children. -/
theorem origins_toTree (r : Rules) (place : List Nat) (above : List Cst) (c : Cst) :
    ((toTree r place c).preorder.map Node.origin).Perm ((c.sitesBelow place above).map (Site.origin r)) := by
  induction c using Cst.childInduction generalizing place above with
  | node c ih =>
    have hmake := map_preorder_makeNode origin_hang r place c (builtFor r place c)
    rw [← toTree_eq, map_preorderAll_builtFor, toTree_eq, origin_makeNode, ← toTree_eq] at hmake
    rw [Cst.sitesBelow_eq, List.map_cons, List.map_flatMap]
    refine hmake.trans (List.Perm.cons _ (List.Perm.flatMap_left _ fun e he => ?_))
    exact ih e.1 (List.mem_filter.mp (List.fst_mem_of_mem_zipIdx he)).1 _ _

/-- No two sites of a tree are in the same place. -/
theorem Cst.nodup_places (root : Cst) : (root.sites.map (·.place)).Nodup := by
  have horigins := (origins_toTree Language.java.rules [] [] root).map (·.1)
  rw [List.map_map, List.map_map] at horigins
  exact horigins.nodup (nodup_paths_toTree _ _ _)

/-! ## Order -/

/-- A list in which a property, once it holds, holds to the end is cut in two by it. -/
theorem filter_not_append_filter {α : Type} {p : α → Bool} {l : List α}
    (h : ∀ a ∈ l.dropWhile (!p ·), p a = true) : l.filter (!p ·) ++ l.filter p = l := by
  induction l with
  | nil => rfl
  | cons a l ih =>
    cases hp : p a with
    | true =>
      rw [List.dropWhile_cons_of_neg (by simp [hp])] at h
      have hnone : (a :: l).filter (!p ·) = [] := List.filter_eq_nil_iff.mpr fun b hb => by simp [h b hb]
      rw [hnone, List.filter_eq_self.mpr h, List.nil_append]
    | false =>
      rw [List.dropWhile_cons_of_pos (by simp [hp])] at h
      simp [hp, ih h]

/-- If there are clauses to be chained, all named children from the first clause on are clauses. -/
def Cst.ClausesTrail (r : Rules) (c : Cst) : Prop :=
  r.kindOf c.nodeType = .conditional → c.namedChildren.any (r.elseIfTypes.contains ·.nodeType) = true →
    ∀ d ∈ c.namedChildren.dropWhile (!isClause r ·), isClause r d = true

/-- A conditional keeps the order of the nodes of its children if the clauses it chains are behind the others. -/
theorem map_preorderAll_conditionalNode_of_trailing {β : Type} {f : Node → β} (hf : ∀ c tail, f (hang c tail) = f c)
    (r : Rules) (place : List Nat) (c : Cst) {built : Built}
    (h : isChained r built = true → ∀ e ∈ built.dropWhile (!isClause r ·.1), isClause r e.1 = true) :
    (Node.preorderAll (conditionalNode r place c built).children).map f =
      (Node.preorderAll (built.map (·.2))).map f := by
  cases hchained : isChained r built with
  | false =>
    rw [conditionalNode_unchained hchained]
    rfl
  | true =>
    obtain ⟨tail, htail, heq⟩ := conditionalNode_chained place c hchained
    rw [heq]
    dsimp only
    rw [Node.preorderAll_append, Node.preorderAll, Node.preorderAll, List.append_nil, List.map_append,
      map_preorder_chainClauses hf htail, ← List.map_append, ← Node.preorderAll_append, ← List.map_append,
      filter_not_append_filter (h hchained)]

theorem map_preorder_makeNode_of_trailing {β : Type} {f : Node → β} (hf : ∀ c tail, f (hang c tail) = f c)
    (r : Rules) (place : List Nat) {c : Cst} (h : c.ClausesTrail r) :
    (toTree r place c).preorder.map f =
      f (toTree r place c) :: c.namedChildren.zipIdx.flatMap fun e => (toTree r (e.2 :: place) e.1).preorder.map f := by
  rw [Node.preorder_eq, List.map_cons, ← map_preorderAll_builtFor, toTree_eq]
  congr 1
  by_cases hk : r.kindOf c.nodeType = .conditional
  · rw [makeNode_conditional hk]
    refine map_preorderAll_conditionalNode_of_trailing hf r place c fun hchained => ?_
    have hchildren := map_fst_builtFor r place c
    have hany : c.namedChildren.any (r.elseIfTypes.contains ·.nodeType) = true := by
      rw [← hchildren, List.any_map]
      exact hchained
    have htrail := h hk hany
    rw [← hchildren, List.dropWhile_map] at htrail
    exact fun e he => htrail e.1 (List.mem_map_of_mem he)
  · rw [(wellSlotted_made place _ hk).2]

/-- **The nodes of a tree come in preorder** if all clauses that are chained stand behind the other named children. -/
theorem preorder_toTree (r : Rules) (place : List Nat) (above : List Cst) {c : Cst}
    (h : ∀ d ∈ c.namedNodes, d.ClausesTrail r) :
    (toTree r place c).preorder.map Node.origin = (c.sitesBelow place above).map (Site.origin r) := by
  induction c using Cst.childInduction generalizing place above with
  | node c ih =>
    rw [map_preorder_makeNode_of_trailing origin_hang r place (h c c.self_mem_namedNodes), toTree_eq, origin_makeNode,
      Cst.sitesBelow_eq, List.map_cons, List.map_flatMap]
    congr 1
    refine List.flatMap_congr fun e he => ?_
    have hchild : e.1 ∈ c.namedChildren := List.fst_mem_of_mem_zipIdx he
    exact ih e.1 (List.mem_filter.mp hchild).1 _ _ fun d hd => h d (Cst.namedNodes_subset_of_mem hchild hd)

/-! ## Shape -/

/-- A tree that has the shape of the named part of a concrete tree: the same tags, and the same children in the same
order. -/
inductive Node.Mirrors (r : Rules) : Node → Cst → Prop
  | node {n : Node} {c : Cst} : n.tag = c.tag r → List.Forall₂ (Mirrors r) n.children c.namedChildren → Mirrors r n c

/-- Where no clauses are chained, the children of a node are the trees of the named children. -/
theorem children_toTree {r : Rules} (hr : r.elseIfTypes = []) (place : List Nat) (c : Cst) :
    (toTree r place c).children = (builtFor r place c).map (·.2) := by
  rw [toTree_eq]
  by_cases hk : r.kindOf c.nodeType = .conditional
  · have hunchained : isChained r (builtFor r place c) = false := by
      rw [isChained, hr]
      simp
    rw [makeNode_conditional hk, conditionalNode_unchained hunchained]
    rfl
  · exact (wellSlotted_made place _ hk).2

/-- **A tree has the shape of its concrete tree** where no clauses are chained. -/
theorem mirrors_toTree {r : Rules} (hr : r.elseIfTypes = []) (place : List Nat) (c : Cst) :
    (toTree r place c).Mirrors r c := by
  induction c using Cst.childInduction generalizing place with
  | node c ih =>
    refine .node (by rw [toTree_eq, tag_makeNode]) ?_
    rw [children_toTree hr, ← map_fst_builtFor r place c, List.forall₂_map_left_iff, List.forall₂_map_right_iff,
      List.forall₂_same]
    intro e he
    obtain ⟨hchild, -, k, hk⟩ := exists_of_mem_builtFor he
    rw [hk]
    exact ih e.1 hchild _

/-! ## Languages -/

/-- In every `if` and `elif` of a Python tree that has an `elif` to be chained, no other named child comes after the
first `elif` or `else`. -/
def Cst.ClausesLast (root : Cst) : Prop :=
  ∀ c ∈ root.namedNodes, c.nodeType = "if_statement" ∨ c.nodeType = "elif_clause" →
    (∃ d ∈ c.namedChildren, d.nodeType = "elif_clause") →
      ∀ d ∈ c.namedChildren.dropWhile fun d => d.nodeType ≠ "elif_clause" ∧ d.nodeType ≠ "else_clause",
        d.nodeType = "elif_clause" ∨ d.nodeType = "else_clause"

instance (root : Cst) : Decidable root.ClausesLast :=
  inferInstanceAs (Decidable (∀ c ∈ root.namedNodes, _ → _ → ∀ d ∈ _, _))

theorem Cst.ClausesLast.clausesTrail {root : Cst} (h : root.ClausesLast) :
    ∀ c ∈ root.namedNodes, c.ClausesTrail Language.python.rules := by
  intro c hc hk hany d hd
  obtain ⟨e, he, helif⟩ := List.any_eq_true.mp hany
  have helif : e.nodeType = "elif_clause" := by
    simpa [show Language.python.rules.elseIfTypes = ["elif_clause"] from rfl] using helif
  have hpred : (fun d => !isClause Language.python.rules d) =
      fun d : Cst => decide (d.nodeType ≠ "elif_clause" ∧ d.nodeType ≠ "else_clause") := by
    funext d
    rw [isClause_python]
    simp
  rw [hpred] at hd
  rw [isClause_python]
  simpa using h c hc (nodeType_of_python_conditional hk) ⟨e, he, helif⟩ d hd

theorem clausesTrail_of_unchained {r : Rules} (hr : r.elseIfTypes = []) (c : Cst) : c.ClausesTrail r := by
  intro _ hany
  rw [hr] at hany
  simp at hany

/-- **A tree has the named nodes of its concrete tree.** The machine that builds it by a stack of nodes not complete yet
gives what the recursion gives. Under any rules, there is exactly one node for every concrete node that is reached through
named children: the two have the same places, none of which comes twice, and the same kinds, types and lines. In all
languages but Python the tree has the shape of the concrete tree, and the nodes are visited in its preorder; so they are in
Python, too, if no other named child comes after the clauses that are chained. -/
theorem toTree_keeps_named_nodes (c : Cst) :
    (∀ (r : Rules) (place : List Nat), build r (.opened place c) [] = recursiveTree r place c) ∧
    (∀ r : Rules, ((toTree r [] c).nodes.map Node.tag).Perm (c.namedNodes.map (Cst.tag r)) ∧
      ((toTree r [] c).nodes.map Node.origin).Perm (c.sites.map (Site.origin r)) ∧ (c.sites.map (·.place)).Nodup) ∧
    (∀ l : Language, l ≠ .python → (toTree l.rules [] c).Mirrors l.rules c ∧
      (toTree l.rules [] c).nodes.map Node.origin = c.sites.map (Site.origin l.rules)) ∧
    (c.ClausesLast →
      (toTree Language.python.rules [] c).nodes.map Node.origin = c.sites.map (Site.origin Language.python.rules)) := by
  simp only [Node.nodes_eq_preorder]
  refine ⟨fun r place => toTree_eq_recursiveTree r place c, fun r => ?_, fun l hl => ?_,
    fun h => preorder_toTree _ [] [] h.clausesTrail⟩
  · have horigins := origins_toTree r [] [] c
    have htags := horigins.map Prod.snd
    rw [List.map_map, List.map_map] at htags
    refine ⟨?_, horigins, c.nodup_places⟩
    rw [Cst.namedNodes, List.map_map]
    exact htags
  · have hunchained := elseIfTypes_eq_nil hl
    exact ⟨mirrors_toTree hunchained [] c, preorder_toTree _ [] [] fun d _ => clausesTrail_of_unchained hunchained d⟩

/-- An `if` with two `elif` and an `else`, a comment before these, and in its block an `if` with an `elif` of its own. -/
def nestedChain : Cst :=
  .ofRows [⟨0, "if_statement", 0, 99, 0, true, none⟩, ⟨1, "if", 0, 2, 0, false, none⟩,
    ⟨1, "identifier", 3, 4, 0, true, some "condition"⟩, ⟨1, "block", 10, 40, 1, true, some "consequence"⟩,
    ⟨2, "if_statement", 10, 40, 1, true, none⟩, ⟨3, "identifier", 13, 14, 1, true, some "condition"⟩,
    ⟨3, "block", 16, 20, 2, true, some "consequence"⟩, ⟨3, "elif_clause", 21, 40, 3, true, some "alternative"⟩,
    ⟨4, "identifier", 26, 27, 3, true, some "condition"⟩, ⟨4, "block", 30, 40, 4, true, some "consequence"⟩,
    ⟨1, "comment", 41, 49, 5, true, none⟩, ⟨1, "elif_clause", 50, 60, 6, true, some "alternative"⟩,
    ⟨2, "identifier", 55, 56, 6, true, some "condition"⟩, ⟨2, "block", 58, 60, 6, true, some "consequence"⟩,
    ⟨1, "elif_clause", 61, 80, 7, true, some "alternative"⟩, ⟨2, "identifier", 66, 67, 7, true, some "condition"⟩,
    ⟨2, "block", 70, 80, 8, true, some "consequence"⟩, ⟨1, "else_clause", 81, 99, 9, true, some "alternative"⟩]

/-- Chained in Python, the nodes are visited in the order of the text; under the rules of Java nothing is chained. -/
theorem nestedChain_keeps_named_nodes :
    nestedChain.ClausesLast ∧
      (toTree Language.python.rules [] nestedChain).nodes.map Node.origin =
        nestedChain.sites.map (Site.origin Language.python.rules) ∧
      Language.java ≠ .python ∧ (toTree Language.java.rules [] nestedChain).Mirrors Language.java.rules nestedChain := by
  obtain ⟨-, -, hothers, hpython⟩ := toTree_keeps_named_nodes nestedChain
  have hlast : nestedChain.ClausesLast := by decide +kernel
  have hjava : Language.java ≠ .python := by decide
  exact ⟨hlast, hpython hlast, hjava, (hothers .java hjava).1⟩

-- a comment between two clauses is visited before both of them
example :
    (toTree Language.python.rules [] (.ofRows [⟨0, "if_statement", 0, 50, 0, true, none⟩,
      ⟨1, "identifier", 3, 4, 0, true, some "condition"⟩, ⟨1, "elif_clause", 20, 30, 1, true, some "alternative"⟩,
      ⟨1, "comment", 31, 39, 2, true, none⟩, ⟨1, "else_clause", 40, 50, 3, true, some "alternative"⟩])).preorder.map
        (·.typeName) = ["if_statement", "identifier", "comment", "elif_clause", "else_clause"] := by
  decide +kernel

end HandlerComplexity
