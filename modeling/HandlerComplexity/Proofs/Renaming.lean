import HandlerComplexity.Proofs.Alike

/-!
# Trees with other identities

The slots of a tree are identities, and all that is asked of an identity is whether it is that of a given node. So a tree in
which all identities are exchanged for others, different ones for different ones, has the same scores. The tree of a concrete
node that stands at a place is such a tree: it is the one built for the node on its own, with all places moved below that
place.

* `Node.rename`: a tree with other identities; `preorder_rename`: its nodes.
* `flaw?_rename`, `handlerScore_rename`, `classScore_rename`: what is checked and scored stays the same.
* `NodeId.below`, `toTree_append`: the tree of a node at a place, from the tree of the node at another.
-/

namespace HandlerComplexity

namespace Node

/-! ## Renaming -/

mutual

/-- A tree with other identities. -/
def rename (g : NodeId → NodeId) : Node → Node
  | ⟨id, kind, children, condition, elseBranch, body, cases, operator, typeName, line⟩ =>
    ⟨g id, kind, renameAll g children, condition.map g, elseBranch.map g, body.map g, cases.map g, operator, typeName, line⟩

def renameAll (g : NodeId → NodeId) : List Node → List Node
  | [] => []
  | n :: ns => rename g n :: renameAll g ns

end

section Rename

variable (g : NodeId → NodeId)

theorem renameAll_eq_map (ns : List Node) : renameAll g ns = ns.map (rename g) := by
  induction ns with
  | nil => rfl
  | cons n ns ih => rw [renameAll, ih, List.map_cons]

theorem rename_eq (n : Node) :
    n.rename g =
      { n with
        id := g n.id
        children := n.children.map (rename g)
        condition := n.condition.map g
        elseBranch := n.elseBranch.map g
        body := n.body.map g
        cases := n.cases.map g } := by
  cases n
  rw [rename, renameAll_eq_map]

@[simp] theorem id_rename (n : Node) : (n.rename g).id = g n.id := by rw [rename_eq]

@[simp] theorem kind_rename (n : Node) : (n.rename g).kind = n.kind := by rw [rename_eq]

@[simp] theorem children_rename (n : Node) : (n.rename g).children = n.children.map (rename g) := by rw [rename_eq]

@[simp] theorem condition_rename (n : Node) : (n.rename g).condition = n.condition.map g := by rw [rename_eq]

@[simp] theorem elseBranch_rename (n : Node) : (n.rename g).elseBranch = n.elseBranch.map g := by rw [rename_eq]

@[simp] theorem body_rename (n : Node) : (n.rename g).body = n.body.map g := by rw [rename_eq]

@[simp] theorem cases_rename (n : Node) : (n.rename g).cases = n.cases.map g := by rw [rename_eq]

@[simp] theorem operator_rename (n : Node) : (n.rename g).operator = n.operator := by rw [rename_eq]

@[simp] theorem line_rename (n : Node) : (n.rename g).line = n.line := by rw [rename_eq]

theorem preorder_rename (n : Node) : (n.rename g).preorder = n.preorder.map (rename g) := by
  induction n using childInduction with
  | node n ih =>
    rw [preorder_eq_cons_flatMap, preorder_eq_cons_flatMap, children_rename, List.map_cons, List.flatMap_map,
      List.map_flatMap, List.flatMap_congr ih]

theorem sumOver_map (f : Node → Except Malformed Nat) (h : Node → Node) (t : Nat) (ns : List Node) :
    sumOver f t (ns.map h) = sumOver (fun n => f (h n)) t ns := by
  induction ns generalizing t with
  | nil => rfl
  | cons n ns ih =>
    rw [List.map_cons, sumOver, sumOver]
    cases f (h n) with
    | error e => rfl
    | ok v => exact ih (t + v)

end Rename

/-! ## Scores -/

section Scores

variable {g : NodeId → NodeId} (hg : Function.Injective g)

include hg

theorem isStray_rename (n : Node) (slot : Option NodeId) : (n.rename g).isStray (slot.map g) = n.isStray slot := by
  cases slot with
  | none => rfl
  | some id => simp [isStray, List.any_map, Function.comp_def, hg.eq_iff]

theorem hasCase_rename (n : Node) (id : NodeId) : (n.rename g).hasCase (g id) = n.hasCase id := by
  simp [hasCase, nodes_eq_preorder, preorder_rename, List.any_map, Function.comp_def, hg.eq_iff]

/-- **Shapes do not depend on what identities are.** -/
theorem flaw?_rename (n : Node) : (n.rename g).flaw? = n.flaw? := by
  have hcases : (n.cases.map g).all (n.rename g).hasCase = n.cases.all n.hasCase := by
    rw [List.all_map]
    exact congrArg n.cases.all (funext fun id => hasCase_rename hg n id)
  unfold flaw?
  simp only [kind_rename, condition_rename, elseBranch_rename, body_rename, cases_rename, operator_rename,
    Option.map_eq_none_iff, List.map_eq_nil_iff, isStray_rename hg, hcases]

theorem checkedWeight_rename (n : Node) : (n.rename g).checkedWeight = n.checkedWeight := by
  have hweight : (n.rename g).weight = n.weight := by simp [weight]
  rw [checkedWeight, checkedWeight, flaw?_rename hg, hweight]
  simp only [malformed, kind_rename, line_rename]

theorem bodyScore_rename (n : Node) : (n.rename g).bodyScore = n.bodyScore := by
  rw [bodyScore, bodyScore, nodes_eq_preorder, nodes_eq_preorder, preorder_rename, sumOver_map]
  exact congrArg (sumOver · 0 n.preorder) (funext (checkedWeight_rename hg))

theorem child?_rename (n : Node) (id : NodeId) : (n.rename g).child? (g id) = (n.child? id).map (rename g) := by
  have hsame : (fun m : Node => decide (m.id = g id)) ∘ rename g = fun m => decide (m.id = id) := by
    funext m
    simp [hg.eq_iff]
  rw [child?, child?, children_rename, List.find?_map, hsame]

/-- **The score of a handler** stays the same: its body is found by its identity. -/
theorem handlerScore_rename (n : Node) : (n.rename g).handlerScore = n.handlerScore := by
  have hbody : (n.rename g).body.bind (n.rename g).child? = (n.body.bind n.child?).map (rename g) := by
    cases hb : n.body with
    | none => simp [hb]
    | some id => simp [hb, child?_rename hg]
  rw [handlerScore, handlerScore, flaw?_rename hg, hbody]
  simp only [malformed, kind_rename, line_rename]
  cases n.body.bind n.child? with
  | none => rfl
  | some b => simp only [Option.map_some, bodyScore_rename hg]

theorem sumOver_handlerScore_rename (ns : List Node) :
    sumOver handlerScore 0 (ns.map (rename g)) = sumOver handlerScore 0 ns := by
  rw [sumOver_map]
  exact congrArg (sumOver · 0 ns) (funext (handlerScore_rename hg))

omit hg in
theorem descendants_rename (g : NodeId → NodeId) (n : Node) (k : Kind) :
    (n.rename g).descendants k = (n.descendants k).map (rename g) := by
  simp [descendants, nodes_eq_preorder, preorder_rename, List.filter_map, Function.comp_def]

theorem classScore_rename (n : Node) : (n.rename g).classScore = n.classScore := by
  rw [classScore, classScore, descendants_rename, sumOver_handlerScore_rename hg]

end Scores

end Node

/-! ## Places below a place -/

/-- An identity with its place moved below another place. -/
def NodeId.below (q : List Nat) : NodeId → NodeId
  | place path => place (path ++ q)
  | chained path => chained (path ++ q)
  | union => union

theorem NodeId.below_injective (q : List Nat) : Function.Injective (NodeId.below q) := by
  intro a b h
  cases a <;> cases b <;> simp_all [NodeId.below]

theorem NodeId.chain_below (q : List Nat) (id : NodeId) : (id.below q).chain = id.chain.below q := by
  cases id <;> rfl

section Below

variable (q : List Nat)

/-- The trees of the children with their places moved. -/
def Built.below (built : Built) : Built := built.map fun e => (e.1, e.2.rename (NodeId.below q))

theorem hang_rename (c tail : Node) :
    hang (c.rename (NodeId.below q)) (tail.rename (NodeId.below q)) = (hang c tail).rename (NodeId.below q) := by
  rw [Node.rename_eq _ (hang c tail), Node.rename_eq _ c]
  simp [hang, NodeId.chain_below]

theorem chainClauses_rename (ns : List Node) :
    chainClauses (ns.map (Node.rename (NodeId.below q))) = (chainClauses ns).map (Node.rename (NodeId.below q)) := by
  induction ns with
  | nil => rfl
  | cons n ns ih =>
    rw [List.map_cons, chainClauses, chainClauses, ih]
    cases chainClauses ns with
    | none => rfl
    | some tail => simp [hang_rename]

theorem slotOf_below (built : Built) (target : Option Cst) :
    slotOf (built.below q) target = (slotOf built target).map (NodeId.below q) := by
  cases target with
  | none => rfl
  | some t => simp [slotOf, Built.below, List.find?_map, Function.comp_def]

theorem conditionOf_below (c : Cst) (built : Built) :
    conditionOf c (built.below q) = (conditionOf c built).map (NodeId.below q) := by
  rw [conditionOf, conditionOf, slotOf_below]
  cases slotOf built (c.childByField? "condition") with
  | none => simp [Built.below, Function.comp_def]
  | some id => rfl

theorem elseOf_below (r : Rules) (c : Cst) (built : Built) :
    elseOf r c (built.below q) = (elseOf r c built).map (NodeId.below q) := by
  rw [elseOf, elseOf, slotOf_below]
  split_ifs
  · rfl
  · simp [Built.below, List.find?_map, Function.comp_def]

theorem bodyOf_below (r : Rules) (c : Cst) (built : Built) :
    bodyOf r c (built.below q) = (bodyOf r c built).map (NodeId.below q) := by
  rw [bodyOf, bodyOf, slotOf_below]
  cases slotOf built (c.childByField? "body") with
  | none => simp [Built.below, ← List.map_reverse, List.find?_map, Function.comp_def]
  | some id => rfl

theorem ownCases_rename (g : NodeId → NodeId) (n : Node) : ownCases (n.rename g) = (ownCases n).map g := by
  induction n using Node.childInduction with
  | node n ih =>
    rw [ownCases_eq, ownCases_eq, Node.kind_rename, Node.children_rename, List.flatMap_map, List.flatMap_congr ih,
      Node.id_rename, ← List.map_flatMap]
    split_ifs
    · rfl
    · rfl
    · rfl

theorem plainNode_below (r : Rules) (place : List Nat) (c : Cst) (built : Built) :
    plainNode r (place ++ q) c (built.below q) = (plainNode r place c built).rename (NodeId.below q) := by
  rw [Node.rename_eq]
  simp [plainNode, Built.below, NodeId.below, Function.comp_def]

theorem conditionalNode_below (r : Rules) (place : List Nat) (c : Cst) (built : Built) :
    conditionalNode r (place ++ q) c (built.below q) = (conditionalNode r place c built).rename (NodeId.below q) := by
  have hchained : isChained r (built.below q) = isChained r built := by
    simp [isChained, Built.below, Function.comp_def]
  have hfilter : ∀ p : Cst → Bool, ((built.below q).filter (p ·.1)).map (·.2) =
      ((built.filter (p ·.1)).map (·.2)).map (Node.rename (NodeId.below q)) := by
    intro p
    simp [Built.below, List.filter_map, Function.comp_def]
  cases h : isChained r built with
  | false =>
    rw [conditionalNode_unchained (hchained.trans h), conditionalNode_unchained h, plainNode_below, conditionOf_below,
      elseOf_below, Node.rename_eq, Node.rename_eq]
  | true =>
    obtain ⟨tail, htail, heq⟩ := conditionalNode_chained place c h
    obtain ⟨tail', htail', heq'⟩ := conditionalNode_chained (place ++ q) c (hchained.trans h)
    rw [hfilter, chainClauses_rename, htail] at htail'
    obtain rfl := Option.some.inj htail'
    rw [heq, heq', plainNode_below, conditionOf_below, hfilter (!isClause r ·), Node.rename_eq _ (plainNode r place c built)]
    conv_rhs => rw [Node.rename_eq]
    simp

/-- **Making a node** out of trees with their places moved. -/
theorem makeNode_below (r : Rules) (place : List Nat) (c : Cst) (built : Built) :
    makeNode r (place ++ q) c (built.below q) = (makeNode r place c built).rename (NodeId.below q) := by
  have hcases : caseWalk [] ((built.below q).map (·.2)) = (caseWalk [] (built.map (·.2))).map (NodeId.below q) := by
    simp only [caseWalk_nil, ownCasesAll_eq_flatMap, Built.below, List.map_map, List.flatMap_map, List.map_flatMap, Function.comp_def,
      ownCases_rename]
  unfold makeNode
  split
  · exact conditionalNode_below q r place c built
  · rw [plainNode_below, bodyOf_below, Node.rename_eq, Node.rename_eq]
  · rw [plainNode_below, Node.rename_eq, Node.rename_eq]
  · rw [plainNode_below, hcases, Node.rename_eq, Node.rename_eq]
  · exact plainNode_below q r place c built

end Below

/-- **The tree of a node at a place** is the tree of the node on its own, with all places moved. -/
theorem toTree_append (r : Rules) (place q : List Nat) (c : Cst) :
    toTree r (place ++ q) c = (toTree r place c).rename (NodeId.below q) := by
  induction c using Cst.childInduction generalizing place with
  | node c ih =>
    have hbuilt : builtFor r (place ++ q) c = (builtFor r place c).below q := by
      rw [builtFor, builtFor, Built.below, namedTrees_eq, namedTrees_eq, List.map_map]
      refine List.map_congr_left fun e he => ?_
      have hchild := (List.mem_filter.mp (List.fst_mem_of_mem_zipIdx he)).1
      exact congrArg (Prod.mk e.1) (ih e.1 hchild (e.2 :: place))
    rw [toTree_eq, toTree_eq, hbuilt, makeNode_below]

end HandlerComplexity
