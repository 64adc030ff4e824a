import HandlerComplexity.Proofs.Building
import HandlerComplexity.Proofs.Score

/-!
# The shape of built trees

A node is well slotted if its condition, its else branch and its body are among its children, and if only a switch has
case labels, all of them below it. Scoring checks this node by node. Trees that are built from concrete syntax have it
everywhere, so what can still be missing from them is a body, a condition or an operator.

* `Node.exists_flaw_of_classScore`: a score that fails names the flaw of a node of the tree.
* `Node.WellSlotted.flaw_cases`: what can be wrong with a well-slotted node.
* `wellSlotted_hang`, `wellSlotted_conditionalNode`, `wellSlotted_makeNode`: what making a node needs for its slots.
* `toTree_wellSlotted_and_flaws`: the trees of all five languages. In Python the condition of a conditional must not be
  one of its clauses, because the clauses are hung elsewhere.
-/

namespace HandlerComplexity

namespace Node

/-! ## Flaws of a tree -/

theorem exists_of_sumOver_error {f : Node → Except Malformed Nat} {ns : List Node} {t : Nat} {e : Malformed}
    (h : sumOver f t ns = .error e) : ∃ n ∈ ns, f n = .error e := by
  induction ns generalizing t with
  | nil => cases h
  | cons n ns ih =>
    rw [sumOver] at h
    cases hn : f n with
    | error e' =>
      rw [hn] at h
      exact ⟨n, List.mem_cons_self, by rw [hn, Except.error.inj h]⟩
    | ok v =>
      rw [hn] at h
      obtain ⟨m, hm, he⟩ := ih h
      exact ⟨m, List.mem_cons_of_mem _ hm, he⟩

theorem exists_flaw_of_bodyScore {b : Node} {e : Malformed} (h : b.bodyScore = .error e) :
    ∃ n ∈ b.preorder, n.flaw? = some e.flaw := by
  rw [bodyScore, nodes_eq_preorder] at h
  obtain ⟨n, hn, he⟩ := exists_of_sumOver_error h
  refine ⟨n, hn, ?_⟩
  unfold checkedWeight at he
  cases hflaw : n.flaw? with
  | none =>
    rw [hflaw] at he
    cases he
  | some flaw =>
    rw [hflaw] at he
    rw [← Except.error.inj he]
    rfl

theorem of_ite_some_eq_none {p : Prop} [Decidable p] {flaw : Flaw} {rest : Option Flaw}
    (h : (if p then some flaw else rest) = none) : ¬ p ∧ rest = none := by
  rcases ite_eq_iff.mp h with ⟨-, hflaw⟩ | hrest
  · cases hflaw
  · exact hrest

/-- What holds of a node without a flaw. -/
theorem rules_of_flaw_none {n : Node} (h : n.flaw? = none) :
    ¬ (n.kind = .handler ∧ n.body = none) ∧ ¬ (n.kind = .conditional ∧ n.condition = none) ∧
      ¬ (n.kind = .binaryOperator ∧ n.operator.getD "" = "") ∧ ¬ n.isStray n.condition = true ∧
      ¬ n.isStray n.elseBranch = true ∧ ¬ n.isStray n.body = true ∧
      (n.cases = [] ∨ n.kind = .switch ∧ n.cases.all n.hasCase = true) := by
  rw [flaw?] at h
  obtain ⟨hbody, h⟩ := of_ite_some_eq_none h
  obtain ⟨hcondition, h⟩ := of_ite_some_eq_none h
  obtain ⟨hoperator, h⟩ := of_ite_some_eq_none h
  obtain ⟨hstrayCondition, h⟩ := of_ite_some_eq_none h
  obtain ⟨hstrayElse, h⟩ := of_ite_some_eq_none h
  obtain ⟨hstrayBody, h⟩ := of_ite_some_eq_none h
  refine ⟨hbody, hcondition, hoperator, hstrayCondition, hstrayElse, hstrayBody, ?_⟩
  rcases ite_eq_iff.mp h with ⟨hcases, -⟩ | ⟨-, h⟩
  · exact .inl hcases
  obtain ⟨hkind, h⟩ := of_ite_some_eq_none h
  rcases ite_eq_iff.mp h with ⟨hbelow, -⟩ | ⟨-, hflaw⟩
  · exact .inr ⟨not_not.mp hkind, hbelow⟩
  · cases hflaw

/-- A handler without a flaw has its body among its children. -/
theorem exists_body_of_flaw_none {h : Node} (hk : h.kind = .handler) (hf : h.flaw? = none) :
    ∃ b, h.body.bind h.child? = some b := by
  obtain ⟨hbody, -, -, -, -, hstray, -⟩ := rules_of_flaw_none hf
  cases hb : h.body with
  | none => exact absurd ⟨hk, hb⟩ hbody
  | some id =>
    rw [hb] at hstray
    rw [Option.bind_some]
    refine Option.isSome_iff_exists.mp ?_
    rw [child?, List.find?_isSome]
    simpa [isStray] using hstray

theorem child_mem_preorder {n c : Node} (h : c ∈ n.children) : c.preorder ⊆ n.preorder := by
  rw [preorder_eq_cons_flatMap n]
  intro m hm
  exact List.mem_cons_of_mem _ (List.mem_flatMap.mpr ⟨c, h, hm⟩)

theorem preorder_subset {root n : Node} (h : n ∈ root.preorder) : n.preorder ⊆ root.preorder := by
  induction root using childInduction with
  | node root ih =>
    have hcases := h
    rw [preorder_eq_cons_flatMap, List.mem_cons, List.mem_flatMap] at hcases
    rcases hcases with rfl | ⟨c, hc, hn⟩
    · exact List.Subset.refl _
    · exact List.Subset.trans (ih c hc hn) (child_mem_preorder hc)

theorem exists_flaw_of_handlerScore {h : Node} {e : Malformed} (hk : h.kind = .handler)
    (he : h.handlerScore = .error e) : ∃ n ∈ h.preorder, n.flaw? = some e.flaw := by
  unfold handlerScore at he
  rw [if_neg (not_not.mpr hk)] at he
  cases hf : h.flaw? with
  | some flaw =>
    rw [hf] at he
    refine ⟨h, ?_, ?_⟩
    · rw [preorder_eq]
      exact List.mem_cons_self
    · rw [hf, ← Except.error.inj he]
      rfl
  | none =>
    obtain ⟨b, hb⟩ := exists_body_of_flaw_none hk hf
    have hmem : b ∈ h.children := by
      obtain ⟨id, -, hid⟩ := Option.bind_eq_some_iff.mp hb
      exact List.mem_of_find?_eq_some hid
    rw [hf, hb] at he
    cases hs : b.bodyScore with
    | ok s => simp [hs, Except.map] at he
    | error e' =>
      have hsame : e' = e := by simpa [hs, Except.map] using he
      obtain ⟨n, hn, hflaw⟩ := exists_flaw_of_bodyScore hs
      exact ⟨n, child_mem_preorder hmem hn, hsame ▸ hflaw⟩

/-- A class without a score has a node with the flaw that is named. -/
theorem exists_flaw_of_classScore {root : Node} {e : Malformed} (h : root.classScore = .error e) :
    ∃ n ∈ root.preorder, n.flaw? = some e.flaw := by
  rw [classScore, descendants, nodes_eq_preorder] at h
  obtain ⟨m, hm, he⟩ := exists_of_sumOver_error h
  obtain ⟨hroot, hk⟩ := List.mem_filter.mp hm
  obtain ⟨n, hn, hflaw⟩ := exists_flaw_of_handlerScore (of_decide_eq_true hk) he
  exact ⟨n, preorder_subset hroot hn, hflaw⟩

/-! ## Well-slotted nodes -/

/-- A slot that is set points at a child. -/
def HasSlot (n : Node) (slot : Option NodeId) : Prop := ∀ id, slot = some id → ∃ c ∈ n.children, c.id = id

/-- All slots point at children, and all case labels are below the switch that has them. -/
structure WellSlotted (n : Node) : Prop where
  condition : n.HasSlot n.condition
  elseBranch : n.HasSlot n.elseBranch
  body : n.HasSlot n.body
  casesOfSwitch : n.cases ≠ [] → n.kind = .switch
  casesBelow : ∀ id ∈ n.cases, ∃ m ∈ preorderAll n.children, m.id = id ∧ m.kind = .caseLabel

theorem hasSlot_none (n : Node) : n.HasSlot none := fun _ h => by cases h

theorem HasSlot.isStray {n : Node} {slot : Option NodeId} (h : n.HasSlot slot) : n.isStray slot = false := by
  cases slot with
  | none => rfl
  | some id =>
    obtain ⟨c, hc, rfl⟩ := h id rfl
    simp only [Node.isStray, Bool.not_eq_false', List.any_eq_true, decide_eq_true_eq]
    exact ⟨c, hc, rfl⟩

theorem WellSlotted.hasCase {n : Node} (h : n.WellSlotted) : n.cases.all n.hasCase = true := by
  rw [List.all_eq_true]
  intro id hid
  obtain ⟨m, hm, rfl, hk⟩ := h.casesBelow id hid
  rw [Node.hasCase, nodes_eq_preorder, preorder_eq, List.any_eq_true]
  exact ⟨m, List.mem_cons_of_mem _ hm, by simp [hk]⟩

/-- **A well-slotted node** can lack a body, a condition or an operator, and nothing else can be wrong with it. -/
theorem WellSlotted.flaw?_eq {n : Node} (h : n.WellSlotted) :
    n.flaw? =
      if n.kind = .handler ∧ n.body = none then some .noBody
      else if n.kind = .conditional ∧ n.condition = none then some .noCondition
      else if n.kind = .binaryOperator ∧ n.operator.getD "" = "" then some .noOperator
      else none := by
  unfold flaw?
  simp only [h.condition.isStray, h.elseBranch.isStray, h.body.isStray, h.hasCase, Bool.false_eq_true, if_false,
    if_true]
  split_ifs with hbody hcondition hoperator hcases hkind
  · rfl
  · rfl
  · rfl
  · rfl
  · exact absurd (h.casesOfSwitch hcases) hkind
  · rfl

theorem WellSlotted.flaw_cases {n : Node} (h : n.WellSlotted) {flaw : Flaw} (hf : n.flaw? = some flaw) :
    flaw = .noBody ∨ flaw = .noCondition ∨ flaw = .noOperator := by
  rw [h.flaw?_eq] at hf
  split_ifs at hf
  · exact .inl (Option.some.inj hf).symm
  · exact .inr (.inl (Option.some.inj hf).symm)
  · exact .inr (.inr (Option.some.inj hf).symm)

end Node

/-! ## Slots -/

section Slots

variable {built : Built} {id : NodeId}

/-- A slot found among the children that are built, with the concrete node it was found by. -/
theorem exists_of_slotOf {target : Option Cst} (h : slotOf built target = some id) :
    ∃ t, target = some t ∧ ∃ e ∈ built, e.1.nodeType = t.nodeType ∧ e.2.id = id := by
  obtain ⟨t, rfl, hmap⟩ := Option.bind_eq_some_iff.mp h
  obtain ⟨e, he, rfl⟩ := Option.map_eq_some_iff.mp hmap
  have hsame := List.find?_some he
  simp only [Cst.coincides, Bool.and_eq_true, decide_eq_true_eq] at hsame
  exact ⟨t, rfl, e, List.mem_of_find?_eq_some he, hsame.2, rfl⟩

theorem exists_of_conditionOf {c : Cst} (h : conditionOf c built = some id) : ∃ e ∈ built, e.2.id = id := by
  unfold conditionOf at h
  split at h
  · next hslot =>
    obtain ⟨t, -, e, he, -, hid⟩ := exists_of_slotOf (hslot.trans h)
    exact ⟨e, he, hid⟩
  · obtain ⟨e, he, hid⟩ := Option.map_eq_some_iff.mp h
    exact ⟨e, List.mem_of_mem_head? he, hid⟩

theorem exists_of_elseOf {r : Rules} {c : Cst} (h : elseOf r c built = some id) : ∃ e ∈ built, e.2.id = id := by
  unfold elseOf at h
  split_ifs at h
  · obtain ⟨t, -, e, he, -, hid⟩ := exists_of_slotOf h
    exact ⟨e, he, hid⟩
  · obtain ⟨e, he, hid⟩ := Option.map_eq_some_iff.mp h
    exact ⟨e, List.mem_of_find?_eq_some he, hid⟩

theorem exists_of_bodyOf {r : Rules} {c : Cst} (h : bodyOf r c built = some id) : ∃ e ∈ built, e.2.id = id := by
  unfold bodyOf at h
  split at h
  · next hslot =>
    obtain ⟨t, -, e, he, -, hid⟩ := exists_of_slotOf (hslot.trans h)
    exact ⟨e, he, hid⟩
  · obtain ⟨e, he, hid⟩ := Option.map_eq_some_iff.mp h
    exact ⟨e, List.mem_reverse.mp (List.mem_of_find?_eq_some he), hid⟩

theorem hasSlot_of_built {n : Node} (hn : n.children = built.map (·.2)) {slot : Option NodeId}
    (h : ∀ id, slot = some id → ∃ e ∈ built, e.2.id = id) : n.HasSlot slot := by
  intro id hid
  obtain ⟨e, he, rfl⟩ := h id hid
  exact ⟨e.2, hn ▸ List.mem_map_of_mem he, rfl⟩

end Slots

/-! ## Case labels -/

theorem ownCasesAll_eq_flatMap (ns : List Node) : ownCasesAll ns = ns.flatMap ownCases := by
  induction ns with
  | nil => rfl
  | cons n ns ih => rw [ownCasesAll, ih, List.flatMap_cons]

theorem ownCases_eq (n : Node) :
    ownCases n =
      if n.kind = .switch then []
      else if n.kind = .caseLabel then n.id :: n.children.flatMap ownCases
      else n.children.flatMap ownCases := by
  obtain ⟨id, kind, children, _, _, _, _, _, _, _⟩ := n
  cases kind <;> simp [ownCases, ownCasesAll_eq_flatMap]

/-- What is collected from a tree are case labels of it. -/
theorem exists_of_mem_ownCases {n : Node} {id : NodeId} (h : id ∈ ownCases n) :
    ∃ m ∈ n.preorder, m.id = id ∧ m.kind = .caseLabel := by
  induction n using Node.childInduction with
  | node n ih =>
    have hbelow : id ∈ n.children.flatMap ownCases → ∃ m ∈ n.preorder, m.id = id ∧ m.kind = .caseLabel := by
      intro hid
      obtain ⟨c, hc, hid⟩ := List.mem_flatMap.mp hid
      obtain ⟨m, hm, hcase⟩ := ih c hc hid
      exact ⟨m, Node.child_mem_preorder hc hm, hcase⟩
    rw [ownCases_eq] at h
    split_ifs at h with hswitch hcase
    · cases h
    · rcases List.mem_cons.mp h with rfl | h
      · exact ⟨n, by rw [Node.preorder_eq]; exact List.mem_cons_self, rfl, hcase⟩
      · exact hbelow h
    · exact hbelow h

theorem exists_of_mem_ownCasesAll {ns : List Node} {id : NodeId} (h : id ∈ ownCasesAll ns) :
    ∃ m ∈ Node.preorderAll ns, m.id = id ∧ m.kind = .caseLabel := by
  rw [ownCasesAll_eq_flatMap] at h
  obtain ⟨n, hn, hid⟩ := List.mem_flatMap.mp h
  obtain ⟨m, hm, hcase⟩ := exists_of_mem_ownCases hid
  rw [Node.preorderAll_eq_flatMap]
  exact ⟨m, List.mem_flatMap.mpr ⟨n, hn, hm⟩, hcase⟩

/-! ## Making nodes -/

/-- A node without slots is well slotted. -/
theorem wellSlotted_plainNode (r : Rules) (place : List Nat) (c : Cst) (built : Built) :
    (plainNode r place c built).WellSlotted where
  condition := Node.hasSlot_none _
  elseBranch := Node.hasSlot_none _
  body := Node.hasSlot_none _
  casesOfSwitch h := absurd rfl h
  casesBelow id h := by cases h

/-- Nor can anything be wrong with the slots of a node that keeps the trees of its children in place. -/
theorem wellSlotted_made {r : Rules} (place : List Nat) {c : Cst} (built : Built)
    (hk : r.kindOf c.nodeType ≠ .conditional) :
    (makeNode r place c built).WellSlotted ∧ (makeNode r place c built).children = built.map (·.2) := by
  have hplain := wellSlotted_plainNode r place c built
  unfold makeNode
  split
  next hkind => exact absurd hkind hk
  next => exact ⟨{ hplain with body := hasSlot_of_built rfl fun _ h => exists_of_bodyOf h }, rfl⟩
  next => exact ⟨{ hplain with }, rfl⟩
  next hkind =>
    exact ⟨{ hplain with
      casesOfSwitch := fun _ => hkind
      casesBelow := fun _ h => exists_of_mem_ownCasesAll (caseWalk_nil (built.map (·.2)) ▸ h) }, rfl⟩
  next => exact ⟨hplain, rfl⟩

/-- A conditional whose clauses stay where they are. -/
theorem wellSlotted_unchained (r : Rules) (place : List Nat) (c : Cst) (built : Built) :
    ({ plainNode r place c built with condition := conditionOf c built, elseBranch := elseOf r c built } :
      Node).WellSlotted where
  condition := hasSlot_of_built rfl fun _ h => exists_of_conditionOf h
  elseBranch := hasSlot_of_built rfl fun _ h => exists_of_elseOf h
  body := Node.hasSlot_none _
  casesOfSwitch h := absurd rfl h
  casesBelow _ h := by cases h

/-- A clause that gets another one hung below it keeps its slots, and the new else branch is its last child. -/
theorem wellSlotted_hang {c : Node} (hc : c.WellSlotted) (tail : Node) : (hang c tail).WellSlotted := by
  have hkeep : ∀ slot, c.HasSlot slot → (hang c tail).HasSlot slot := by
    intro slot h id hid
    obtain ⟨d, hd, hid⟩ := h id hid
    exact ⟨d, List.mem_append_left _ hd, hid⟩
  constructor
  case condition => exact hkeep _ hc.condition
  case elseBranch =>
    intro id hid
    exact ⟨tail, List.mem_append_right _ List.mem_cons_self, Option.some.inj hid⟩
  case body => exact hkeep _ hc.body
  case casesOfSwitch => exact hc.casesOfSwitch
  case casesBelow =>
    intro id hid
    obtain ⟨m, hm, hcase⟩ := hc.casesBelow id hid
    refine ⟨m, ?_, hcase⟩
    show m ∈ Node.preorderAll (c.children ++ [tail])
    rw [Node.preorderAll_append]
    exact List.mem_append_left _ hm

/-- A chain of well-slotted clauses is well slotted all the way down. -/
theorem wellSlotted_chainClauses {clauses : List Node} {first : Node} (h : chainClauses clauses = some first)
    (hall : ∀ n ∈ Node.preorderAll clauses, n.WellSlotted) : ∀ n ∈ first.preorder, n.WellSlotted :=
  forall_preorder_chainClauses h hall fun _ _ _ _ tail _ hc => wellSlotted_hang hc tail

/-- The condition of a conditional is found among the children that are no clauses. -/
def ConditionApart (r : Rules) (c : Cst) (built : Built) : Prop :=
  ∀ id, conditionOf c built = some id → ∃ e ∈ built, isClause r e.1 = false ∧ e.2.id = id

/-- A conditional is well slotted, and so is everything below it, if its condition is none of the clauses that are
moved. -/
theorem wellSlotted_conditionalNode {r : Rules} {place : List Nat} {c : Cst} {built : Built}
    (hall : ∀ n ∈ Node.preorderAll (built.map (·.2)), n.WellSlotted)
    (happart : built.any (r.elseIfTypes.contains ·.1.nodeType) = true → ConditionApart r c built) :
    ∀ n ∈ (conditionalNode r place c built).preorder, n.WellSlotted := by
  have hplain : ∀ n ∈ ({ plainNode r place c built with
      condition := conditionOf c built, elseBranch := elseOf r c built } : Node).preorder, n.WellSlotted := by
    rw [Node.preorder_eq]
    intro n hn
    rcases List.mem_cons.mp hn with rfl | hn
    · exact wellSlotted_unchained r place c built
    · exact hall n hn
  unfold conditionalNode
  dsimp only
  split
  next hchain =>
    split
    · exact hplain
    next tail htail =>
      -- the clauses are below `tail` now, and everything else is where it was
      have hclauses : ∀ n ∈ Node.preorderAll ((built.filter (isClause r ·.1)).map (·.2)), n.WellSlotted := by
        rw [Node.preorderAll_eq_flatMap] at hall ⊢
        intro n hn
        obtain ⟨m, hm, hn⟩ := List.mem_flatMap.mp hn
        exact hall n (List.mem_flatMap.mpr ⟨m, List.map_subset _ List.filter_sublist.subset hm, hn⟩)
      rw [Node.preorder_eq]
      intro n hn
      rcases List.mem_cons.mp hn with rfl | hn
      · constructor
        case condition =>
          intro id hid
          obtain ⟨e, he, hno, rfl⟩ := happart hchain id hid
          have hother : e ∈ built.filter (!isClause r ·.1) := List.mem_filter.mpr ⟨he, by rw [hno]; rfl⟩
          exact ⟨e.2, List.mem_append_left _ (List.mem_map_of_mem hother), rfl⟩
        case elseBranch =>
          intro id hid
          exact ⟨tail, List.mem_append_right _ List.mem_cons_self, Option.some.inj hid⟩
        case body => exact Node.hasSlot_none _
        case casesOfSwitch => exact fun h => absurd rfl h
        case casesBelow => exact fun _ h => by cases h
      · change n ∈ Node.preorderAll (_ ++ [tail]) at hn
        rw [Node.preorderAll_append, Node.preorderAll, Node.preorderAll, List.append_nil] at hn
        rcases List.mem_append.mp hn with hn | hn
        · rw [Node.preorderAll_eq_flatMap] at hn hall
          obtain ⟨m, hm, hn⟩ := List.mem_flatMap.mp hn
          exact hall n (List.mem_flatMap.mpr ⟨m, List.map_subset _ List.filter_sublist.subset hm, hn⟩)
        · exact wellSlotted_chainClauses htail hclauses n hn
  next => exact hplain

/-- **Making a node** out of well-slotted trees gives a well-slotted tree. -/
theorem wellSlotted_makeNode {r : Rules} {place : List Nat} {c : Cst} {built : Built}
    (hall : ∀ n ∈ Node.preorderAll (built.map (·.2)), n.WellSlotted)
    (happart : r.kindOf c.nodeType = .conditional → built.any (r.elseIfTypes.contains ·.1.nodeType) = true →
      ConditionApart r c built) :
    ∀ n ∈ (makeNode r place c built).preorder, n.WellSlotted := by
  by_cases hk : r.kindOf c.nodeType = .conditional
  · rw [show makeNode r place c built = conditionalNode r place c built by rw [makeNode, hk]]
    exact wellSlotted_conditionalNode hall (happart hk)
  · obtain ⟨hown, hchildren⟩ := wellSlotted_made place built hk
    rw [Node.preorder_eq, hchildren]
    exact List.forall_mem_cons.mpr ⟨hown, hall⟩

/-! ## Languages -/

/-- The condition of each conditional of a Python tree is named and is none of its clauses. -/
def Cst.ConditionsNamed (root : Cst) : Prop :=
  ∀ c ∈ root.nodes, c.nodeType = "if_statement" ∨ c.nodeType = "elif_clause" →
    ∃ t, c.childByField? "condition" = some t ∧ t.named = true ∧ t.nodeType ≠ "elif_clause" ∧
      t.nodeType ≠ "else_clause"

instance (root : Cst) : Decidable root.ConditionsNamed :=
  decidable_of_iff
    (∀ c ∈ root.nodes, c.nodeType = "if_statement" ∨ c.nodeType = "elif_clause" →
      (c.childByField? "condition").any fun t =>
        decide (t.named = true ∧ t.nodeType ≠ "elif_clause" ∧ t.nodeType ≠ "else_clause"))
    (by simp only [Cst.ConditionsNamed, Option.any_eq_true, decide_eq_true_eq])

/-- Only Python has clauses that are chained. -/
theorem elseIfTypes_eq_nil {l : Language} (h : l ≠ .python) : l.rules.elseIfTypes = [] := by
  cases l
  case python => exact absurd rfl h
  all_goals rfl

theorem isClause_python (c : Cst) :
    isClause Language.python.rules c = (c.nodeType = "elif_clause" || c.nodeType = "else_clause") := by
  have helif : Language.python.rules.elseIfTypes = ["elif_clause"] := rfl
  have helse : Language.python.rules.elseTypes = ["else_clause"] := rfl
  rw [isClause, helif, helse]
  simp

theorem nodeType_of_python_conditional {t : String} (h : Language.python.rules.kindOf t = .conditional) :
    t = "if_statement" ∨ t = "elif_clause" := by
  have hmem : (t, Kind.conditional) ∈ Language.python.rules.kinds := by
    unfold Rules.kindOf at h
    cases hl : Language.python.rules.kinds.lookup t with
    | none =>
      rw [hl] at h
      cases h
    | some k =>
      rw [hl] at h
      obtain rfl : k = .conditional := h
      obtain ⟨l₁, l₂, heq, -⟩ := List.lookup_eq_some_iff.mp hl
      rw [heq]
      simp
  have hall : Language.python.rules.kinds.filter (·.2 = .conditional) =
      [("if_statement", .conditional), ("elif_clause", .conditional)] := by decide
  have hfound : (t, Kind.conditional) ∈ Language.python.rules.kinds.filter (·.2 = .conditional) :=
    List.mem_filter.mpr ⟨hmem, decide_eq_true rfl⟩
  rw [hall] at hfound
  simpa using hfound

/-- A named condition is found by its range and type, and what is found is no clause either. -/
theorem conditionApart_python {place : List Nat} {c t : Cst} (ht : c.childByField? "condition" = some t)
    (hnamed : t.named = true) (helif : t.nodeType ≠ "elif_clause") (helse : t.nodeType ≠ "else_clause") :
    ConditionApart Language.python.rules c (builtFor Language.python.rules place c) := by
  intro id hid
  obtain ⟨n, hn⟩ := exists_mem_builtFor Language.python.rules place (List.mem_of_find?_eq_some ht) hnamed
  have hfound : ∃ id', slotOf (builtFor Language.python.rules place c) (some t) = some id' := by
    refine Option.isSome_iff_exists.mp ?_
    rw [slotOf, Option.bind_some, Option.isSome_map, List.find?_isSome]
    exact ⟨(t, n), hn, by simp [Cst.coincides]⟩
  obtain ⟨id', hslot⟩ := hfound
  have hsame : id' = id := by
    rw [conditionOf, ht, hslot] at hid
    exact Option.some.inj hid
  obtain ⟨t', ht', e, he, htype, hid'⟩ := exists_of_slotOf hslot
  obtain rfl := Option.some.inj ht'
  refine ⟨e, he, ?_, hid'.trans hsame⟩
  rw [isClause_python, htype]
  simp [helif, helse]

/-- The trees of every language are well slotted. By induction on the concrete tree: the trees of the named children
are, and the node is made out of them. -/
theorem wellSlotted_toTree (l : Language) {c : Cst} (hpython : l = .python → c.ConditionsNamed) (place : List Nat) :
    ∀ n ∈ (toTree l.rules place c).preorder, n.WellSlotted := by
  induction c using Cst.childInduction generalizing place with
  | node c ih =>
    rw [toTree_eq]
    refine wellSlotted_makeNode ?_ ?_
    · rw [Node.preorderAll_eq_flatMap]
      intro n hn
      obtain ⟨m, hm, hn⟩ := List.mem_flatMap.mp hn
      obtain ⟨e, he, rfl⟩ := List.mem_map.mp hm
      obtain ⟨hchild, -, k, hk⟩ := exists_of_mem_builtFor he
      rw [hk] at hn
      have hbelow : e.1.nodes ⊆ c.nodes := by
        rw [Cst.nodes_eq c]
        exact fun x hx => List.mem_cons_of_mem _ (List.mem_flatMap.mpr ⟨e.1, hchild, hx⟩)
      exact ih e.1 hchild (fun hl d hd => hpython hl d (hbelow hd)) _ n hn
    · intro hkind hchain
      by_cases hl : l = .python
      · subst hl
        obtain ⟨t, ht, hnamed, helif, helse⟩ :=
          hpython rfl c c.self_mem_nodes (nodeType_of_python_conditional hkind)
        exact conditionApart_python ht hnamed helif helse
      · rw [elseIfTypes_eq_nil hl] at hchain
        simp at hchain

/-- **Built trees are well formed.** In the tree of any node of a concrete tree, in each language, every slot points at
a child of its node and every case label lies below the switch that has it; a slot means one node only, since no two
nodes have the same identity. So the score of the tree can only fail for want of a body, a condition or an operator. -/
theorem toTree_wellSlotted_and_flaws (l : Language) {root : Cst} (hpython : l = .python → root.ConditionsNamed)
    {c : Cst} (hc : c ∈ root.nodes) :
    (∀ n ∈ (toTree l.rules [] c).preorder, n.WellSlotted) ∧
      ((toTree l.rules [] c).preorder.map (·.id)).Nodup ∧
      ∀ e, (toTree l.rules [] c).classScore = .error e →
        e.flaw.reason = "handler has no body" ∨ e.flaw.reason = "conditional has no condition" ∨
          e.flaw.reason = "binary operator has no operator kind" := by
  have hslots := wellSlotted_toTree l (fun hl d hd => hpython hl d (Cst.nodes_subset hc hd)) []
  refine ⟨hslots, nodup_ids_toTree _ _ _, ?_⟩
  intro e he
  obtain ⟨n, hn, hflaw⟩ := Node.exists_flaw_of_classScore he
  rcases (hslots n hn).flaw_cases hflaw with h | h | h
  · exact .inl (by rw [h]; rfl)
  · exact .inr (.inl (by rw [h]; rfl))
  · exact .inr (.inr (by rw [h]; rfl))

/-- A class whose handler holds an `if` with an `elif` and an `else`, and in the `elif` a `match`; a second handler has
no body. -/
def chainedClauses : Cst :=
  .ofRows [⟨0, "class_definition", 0, 90, 0, true, none⟩, ⟨1, "try_statement", 10, 90, 1, true, none⟩,
    ⟨2, "except_clause", 12, 80, 2, true, none⟩, ⟨3, "block", 14, 80, 3, true, none⟩,
    ⟨4, "if_statement", 14, 80, 3, true, none⟩, ⟨5, "identifier", 17, 18, 3, true, some "condition"⟩,
    ⟨5, "block", 20, 30, 4, true, some "consequence"⟩, ⟨6, "return_statement", 20, 30, 4, true, none⟩,
    ⟨5, "elif_clause", 31, 60, 5, true, some "alternative"⟩, ⟨6, "identifier", 36, 37, 5, true, some "condition"⟩,
    ⟨6, "block", 39, 60, 6, true, some "consequence"⟩, ⟨7, "match_statement", 39, 60, 6, true, none⟩,
    ⟨8, "case_clause", 45, 60, 7, true, none⟩, ⟨5, "else_clause", 61, 80, 8, true, some "alternative"⟩,
    ⟨2, "except_clause", 81, 90, 9, true, none⟩]

/-- The chain is well slotted, and all that is wrong with the class is the handler without a body. -/
theorem chainedClauses_wellSlotted_and_flaws :
    chainedClauses.ConditionsNamed ∧
      (∀ n ∈ (toTree Language.python.rules [] chainedClauses).preorder, n.WellSlotted) ∧
      ∃ e, (toTree Language.python.rules [] chainedClauses).classScore = .error e ∧
        (e.flaw.reason = "handler has no body" ∨ e.flaw.reason = "conditional has no condition" ∨
          e.flaw.reason = "binary operator has no operator kind") := by
  have hnamed : chainedClauses.ConditionsNamed := by decide +kernel
  obtain ⟨hslots, -, hflaws⟩ :=
    toTree_wellSlotted_and_flaws .python (fun _ => hnamed) chainedClauses.self_mem_nodes
  have hscore : (toTree Language.python.rules [] chainedClauses).classScore = .error ⟨.handler, .noBody, 10, none⟩ := by
    decide +kernel
  exact ⟨hnamed, hslots, _, hscore, hflaws _ hscore⟩

end HandlerComplexity
