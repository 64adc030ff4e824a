import HandlerComplexity.Proofs.Tree
import HandlerComplexity.Source.Units
import Mathlib.Data.List.Nodup

/-!
# How trees are built from concrete syntax

* `Cst.nodes`: the nodes of a concrete tree; `Cst.childInduction`: induction over the children.
* `toTree_eq`: the tree for a concrete node, in terms of the trees for its named children (`builtFor`).
* `map_preorder_makeNode`: making a node out of the trees of its children keeps all their nodes. Hanging clauses one
  below the other changes the order of the nodes and what is below them, but nothing that `hang` keeps.
* `nodup_ids_toTree`: no two nodes of a tree have the same identity.
-/

namespace HandlerComplexity

/-! ## Concrete nodes -/

namespace Cst

mutual

/-- The nodes of a concrete tree, named or not, in preorder. -/
def nodes : Cst → List Cst
  | c@⟨_, _, _, _, _, _, children⟩ => c :: nodesAll children

def nodesAll : List Cst → List Cst
  | [] => []
  | c :: cs => nodes c ++ nodesAll cs

end

theorem nodesAll_eq_flatMap (cs : List Cst) : nodesAll cs = cs.flatMap nodes := by
  induction cs with
  | nil => rfl
  | cons c cs ih => rw [nodesAll, ih, List.flatMap_cons]

theorem nodes_eq (c : Cst) : c.nodes = c :: c.children.flatMap nodes := by
  cases c
  rw [nodes, nodesAll_eq_flatMap]

theorem self_mem_nodes (c : Cst) : c ∈ c.nodes := by
  rw [nodes_eq]
  exact List.mem_cons_self

theorem sizeOf_lt_of_mem_children {c d : Cst} (h : d ∈ c.children) : sizeOf d < sizeOf c := by
  have hlt := List.sizeOf_lt_of_mem h
  cases c
  simp only [mk.sizeOf_spec] at hlt ⊢
  omega

@[elab_as_elim]
theorem childInduction {P : Cst → Prop} (node : ∀ c, (∀ d ∈ c.children, P d) → P c) (c : Cst) : P c :=
  node c fun d _ => childInduction node d
termination_by sizeOf c
decreasing_by exact sizeOf_lt_of_mem_children ‹_›

/-- What is below a node of a tree is in the tree. -/
theorem nodes_subset {root c : Cst} (h : c ∈ root.nodes) : c.nodes ⊆ root.nodes := by
  induction root using childInduction with
  | node root ih =>
    rw [nodes_eq, List.mem_cons, List.mem_flatMap] at h
    rcases h with rfl | ⟨d, hd, hc⟩
    · exact List.Subset.refl _
    · rw [nodes_eq root]
      intro x hx
      exact List.mem_cons_of_mem _ (List.mem_flatMap.mpr ⟨d, hd, ih d hd hc hx⟩)

end Cst

/-! ## The trees of the children -/

/-- The named children of a concrete node with their trees. -/
def builtFor (r : Rules) (place : List Nat) (c : Cst) : Built := namedTrees r place 0 c.children

theorem toTree_eq (r : Rules) (place : List Nat) (c : Cst) :
    toTree r place c = makeNode r place c (builtFor r place c) := by
  rw [toTree_eq_recursiveTree, recursiveTree_eq, builtFor, namedTrees_eq_treesFrom]
  rfl

theorem namedTrees_cons (r : Rules) (place : List Nat) (i : Nat) (c : Cst) (cs : List Cst) :
    namedTrees r place i (c :: cs) =
      if c.named then (c, toTree r (i :: place) c) :: namedTrees r place (i + 1) cs else namedTrees r place i cs := by
  rw [namedTrees, toTree_eq_recursiveTree]

/-- Each named child is built in its place: the places are counted over the named children. -/
theorem namedTrees_eq (r : Rules) (place : List Nat) (i : Nat) (cs : List Cst) :
    namedTrees r place i cs =
      ((cs.filter (·.named)).zipIdx i).map fun e => (e.1, toTree r (e.2 :: place) e.1) := by
  rw [namedTrees_eq_treesFrom, treesFrom]
  exact List.map_congr_left fun e _ => by rw [toTree_eq_recursiveTree]

theorem map_fst_builtFor (r : Rules) (place : List Nat) (c : Cst) :
    (builtFor r place c).map (·.1) = c.namedChildren := by
  rw [builtFor, namedTrees_eq, List.map_map]
  exact List.zipIdx_map_fst 0 _

theorem exists_of_mem_builtFor {r : Rules} {place : List Nat} {c : Cst} {e : Cst × Node} (h : e ∈ builtFor r place c) :
    e.1 ∈ c.children ∧ e.1.named = true ∧ ∃ k, e.2 = toTree r (k :: place) e.1 := by
  rw [builtFor, namedTrees_eq, List.mem_map] at h
  obtain ⟨⟨d, k⟩, hd, rfl⟩ := h
  obtain ⟨hmem, hnamed⟩ := List.mem_filter.mp (List.fst_mem_of_mem_zipIdx hd)
  exact ⟨hmem, hnamed, k, rfl⟩

/-- Every named child is built. -/
theorem exists_mem_builtFor (r : Rules) (place : List Nat) {c t : Cst} (ht : t ∈ c.children) (hn : t.named = true) :
    ∃ n, (t, n) ∈ builtFor r place c := by
  have hmem : t ∈ (builtFor r place c).map (·.1) := by
    rw [map_fst_builtFor]
    exact List.mem_filter.mpr ⟨ht, hn⟩
  obtain ⟨⟨d, n⟩, he, rfl⟩ := List.mem_map.mp hmem
  exact ⟨n, he⟩

/-! ## The nodes of a tree that is put together -/

theorem Node.preorder_hang (c tail : Node) :
    (hang c tail).preorder = hang c tail :: (preorderAll c.children ++ tail.preorder) := by
  rw [preorder_eq]
  show hang c tail :: preorderAll (c.children ++ [tail]) = _
  rw [preorderAll_append, preorderAll, preorderAll, List.append_nil]

/-- A property of all nodes of clauses holds of all nodes of their chain, if it holds of a clause with a chain of others
hung below it. -/
theorem forall_preorder_chainClauses {P : Node → Prop} {clauses : List Node} {first : Node}
    (h : chainClauses clauses = some first) (hall : ∀ n ∈ Node.preorderAll clauses, P n)
    (hhang : ∀ c ∈ clauses, ∀ rest ⊆ clauses, ∀ tail, chainClauses rest = some tail → P c → P (hang c tail)) :
    ∀ n ∈ first.preorder, P n := by
  induction clauses generalizing first with
  | nil => cases h
  | cons c cs ih =>
    obtain ⟨hown, hrest⟩ := List.forall_mem_append.mp hall
    rw [chainClauses] at h
    cases hcs : chainClauses cs with
    | none =>
      rw [hcs] at h
      obtain rfl := Option.some.inj h
      exact hown
    | some tail =>
      rw [hcs] at h
      obtain rfl := Option.some.inj h
      have htail := ih hcs hrest fun d hd rest hsub =>
        hhang d (List.mem_cons_of_mem _ hd) rest fun e he => List.mem_cons_of_mem _ (hsub he)
      rw [Node.preorder_eq] at hown
      obtain ⟨hc, hchildren⟩ := List.forall_mem_cons.mp hown
      rw [Node.preorder_hang]
      refine List.forall_mem_cons.mpr ⟨?_, List.forall_mem_append.mpr ⟨hchildren, htail⟩⟩
      exact hhang c List.mem_cons_self cs (List.subset_cons_self c cs) tail hcs hc

section Keeping

variable {β : Type} {f : Node → β}

/-- The clauses of a chain, whatever of them hanging keeps, are those that were chained. -/
theorem map_preorder_chainClauses (hf : ∀ c tail, f (hang c tail) = f c) {clauses : List Node} {first : Node}
    (h : chainClauses clauses = some first) : first.preorder.map f = (Node.preorderAll clauses).map f := by
  induction clauses generalizing first with
  | nil => cases h
  | cons c cs ih =>
    rw [chainClauses] at h
    rw [Node.preorderAll, List.map_append, Node.preorder_eq c]
    cases hcs : chainClauses cs with
    | none =>
      have hnil : cs = [] := by
        cases cs with
        | nil => rfl
        | cons d ds =>
          rw [chainClauses] at hcs
          split at hcs <;> cases hcs
      rw [hcs] at h
      obtain rfl := Option.some.inj h
      rw [hnil, ← Node.preorder_eq]
      simp [Node.preorderAll]
    | some tail =>
      rw [hcs] at h
      obtain rfl := Option.some.inj h
      rw [Node.preorder_hang, List.map_cons, hf, List.map_append, ih hcs, List.map_cons, List.cons_append]

theorem preorderAll_perm {ns ms : List Node} (h : ns.Perm ms) : (Node.preorderAll ns).Perm (Node.preorderAll ms) := by
  rw [Node.preorderAll_eq_flatMap, Node.preorderAll_eq_flatMap]
  exact h.flatMap_right _

/-- A conditional keeps the nodes of its children, though not in their order if there are clauses to be chained. -/
theorem map_preorderAll_conditionalNode (hf : ∀ c tail, f (hang c tail) = f c) (r : Rules) (place : List Nat) (c : Cst)
    (built : Built) :
    ((Node.preorderAll (conditionalNode r place c built).children).map f).Perm
      ((Node.preorderAll (built.map (·.2))).map f) := by
  unfold conditionalNode
  dsimp only
  split
  · split
    · exact .refl _
    · next tail htail =>
      show ((Node.preorderAll (_ ++ [tail])).map f).Perm _
      rw [Node.preorderAll_append, Node.preorderAll, Node.preorderAll, List.append_nil, List.map_append,
        map_preorder_chainClauses hf htail, ← List.map_append, ← Node.preorderAll_append]
      refine (preorderAll_perm ?_).map f
      rw [← List.map_append]
      refine List.Perm.map _ ?_
      exact List.perm_append_comm.trans (List.filter_append_perm (isClause r ·.1) built)
  · exact .refl _

/-- **Making a node keeps the nodes of its children.** -/
theorem map_preorder_makeNode (hf : ∀ c tail, f (hang c tail) = f c) (r : Rules) (place : List Nat) (c : Cst)
    (built : Built) :
    ((makeNode r place c built).preorder.map f).Perm
      (f (makeNode r place c built) :: (Node.preorderAll (built.map (·.2))).map f) := by
  rw [Node.preorder_eq, List.map_cons]
  refine List.Perm.cons _ ?_
  unfold makeNode
  split
  · exact map_preorderAll_conditionalNode hf r place c built
  all_goals exact .refl _

end Keeping

/-! ## Identities -/

/-- The place in an identity; hanging a clause keeps it. -/
def NodeId.path : NodeId → List Nat
  | place path => path
  | chained path => path
  | union => []

theorem NodeId.path_chain (id : NodeId) : id.chain.path = id.path := by
  cases id <;> rfl

theorem id_makeNode (r : Rules) (place : List Nat) (c : Cst) (built : Built) :
    (makeNode r place c built).id = .place place := by
  unfold makeNode
  split
  · unfold conditionalNode
    dsimp only
    split
    · split <;> rfl
    · rfl
  all_goals rfl

/-- The places in a tree, in some order: its own, and those in the trees of its children. -/
theorem paths_toTree (r : Rules) (place : List Nat) (c : Cst) :
    ((toTree r place c).preorder.map (·.id.path)).Perm
      (place :: (c.namedChildren.zipIdx.flatMap fun e =>
        (toTree r (e.2 :: place) e.1).preorder.map (·.id.path))) := by
  have hmake := map_preorder_makeNode (f := (·.id.path)) (fun c _ => NodeId.path_chain c.id) r place c
    (builtFor r place c)
  rw [id_makeNode, ← toTree_eq] at hmake
  refine hmake.trans (List.Perm.of_eq ?_)
  rw [Node.preorderAll_eq_flatMap, List.map_flatMap, builtFor, namedTrees_eq, List.map_map, List.flatMap_map]
  rfl

/-- The places of a tree all lie below its own. -/
theorem exists_append_of_mem_paths {r : Rules} {place : List Nat} {c : Cst} {p : List Nat}
    (h : p ∈ (toTree r place c).preorder.map (·.id.path)) : ∃ q, p = q ++ place := by
  induction c using Cst.childInduction generalizing place with
  | node c ih =>
    rcases List.mem_cons.mp ((paths_toTree r place c).subset h) with rfl | h
    · exact ⟨[], rfl⟩
    · obtain ⟨⟨d, k⟩, hd, hp⟩ := List.mem_flatMap.mp h
      obtain ⟨q, rfl⟩ := ih d (List.mem_filter.mp (List.fst_mem_of_mem_zipIdx hd)).1 hp
      exact ⟨q ++ [k], by simp⟩

/-- No place comes twice. The place of the node itself is shorter than those below it, and the places below two
children part where the children do. -/
theorem nodup_paths_toTree (r : Rules) (place : List Nat) (c : Cst) :
    ((toTree r place c).preorder.map (·.id.path)).Nodup := by
  induction c using Cst.childInduction generalizing place with
  | node c ih =>
    refine (paths_toTree r place c).symm.nodup (List.nodup_cons.mpr ⟨?_, ?_⟩)
    · intro hown
      obtain ⟨⟨d, k⟩, -, hp⟩ := List.mem_flatMap.mp hown
      obtain ⟨q, hq⟩ := exists_append_of_mem_paths hp
      have hlen := congrArg List.length hq
      simp only [List.length_append, List.length_cons] at hlen
      omega
    · refine List.nodup_flatMap.mpr ⟨?_, ?_⟩
      · rintro ⟨d, k⟩ hd
        exact ih d (List.mem_filter.mp (List.fst_mem_of_mem_zipIdx hd)).1 _
      · have hindex : (c.namedChildren.zipIdx.map (·.2)).Nodup := by
          rw [List.zipIdx_map_snd]
          exact List.nodup_range'
        refine (List.pairwise_map.mp hindex).imp ?_
        rintro ⟨d, k⟩ ⟨d', k'⟩ hne p hp hp'
        obtain ⟨q, hq⟩ := exists_append_of_mem_paths hp
        obtain ⟨q', hq'⟩ := exists_append_of_mem_paths hp'
        have hsuffix := (List.append_inj' (hq.symm.trans hq') rfl).2
        exact hne (List.cons.inj hsuffix).1

/-- **Identities are unique**: no two nodes of a tree have the same. -/
theorem nodup_ids_toTree (r : Rules) (place : List Nat) (c : Cst) :
    ((toTree r place c).preorder.map (·.id)).Nodup := by
  have hpaths := nodup_paths_toTree r place c
  rw [show (fun n : Node => n.id.path) = NodeId.path ∘ (·.id) from rfl, ← List.map_map] at hpaths
  exact hpaths.of_map

end HandlerComplexity
