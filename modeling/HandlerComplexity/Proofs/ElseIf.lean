import HandlerComplexity.Proofs.Alike

/-!
# If statements with `elif` and `else`

In Python the clauses of an if statement stand side by side below it. They are hung one below the other when the tree is
built, so that the statement has the shape, and the score, of an `if` with an `else if` in its else branch.

* `Node.ElseChain`: the nodes that are visited by following else branches.
* `elseChain_chainClauses`, `total_chainClauses`: what is visited in a chain of clauses, and its weights.
* `nestedIf`: the conditionals nested one in the other; `bodyScore_nestedIf`: their score.
* `Cst.IfChain`: an if statement with its clauses; `ifChain_nests`: its tree.
-/

namespace HandlerComplexity

namespace Node

/-! ## Scores without failures -/

/-- A tree has a score iff none of its nodes has a flaw, and the score is then the sum of the weights. -/
theorem bodyScore_eq_ok_iff {b : Node} {s : Nat} :
    b.bodyScore = .ok s ↔ (∀ n ∈ b.preorder, n.flaw? = none) ∧ s = b.total weight := by
  constructor
  · intro h
    refine ⟨?_, bodyScore_ok h⟩
    rw [bodyScore, nodes_eq_preorder] at h
    intro n hn
    obtain ⟨v, hv⟩ := (sumOver_eq_ok_iff.mp h).1 n hn
    exact (checkedWeight_eq_ok_iff.mp hv).1
  · rintro ⟨hall, rfl⟩
    have hweight : ∀ n ∈ b.preorder, n.checkedWeight = .ok n.weight := fun n hn =>
      checkedWeight_eq_ok_iff.mpr ⟨hall n hn, rfl⟩
    rw [bodyScore, nodes_eq_preorder, sumOver_eq_ok_iff]
    refine ⟨fun n hn => ⟨_, hweight n hn⟩, ?_⟩
    rw [Nat.zero_add, total]
    congr 1
    exact List.map_congr_left fun n hn => by rw [hweight n hn]; rfl

/-- The weights of all that is below a node. -/
def totalBelow (n : Node) : Nat := (n.children.map (total weight)).sum

theorem total_eq_add_totalBelow (n : Node) : n.total weight = n.weight + n.totalBelow := total_eq weight n

/-! ## Identities -/

theorem mem_preorder_of_mem_children {n m : Node} (h : m ∈ n.children) : m ∈ n.preorder := by
  refine child_mem_preorder h ?_
  rw [preorder_eq]
  exact List.mem_cons_self

/-- If no two nodes of a tree have the same identity, a child is found by its own. -/
theorem child?_of_nodup {n m : Node} (h : (n.preorder.map (·.id)).Nodup) (hm : m ∈ n.children) :
    n.child? m.id = some m := by
  have hsome : (n.child? m.id).isSome = true := by
    rw [child?, List.find?_isSome]
    exact ⟨m, hm, decide_eq_true rfl⟩
  obtain ⟨d, hd⟩ := Option.isSome_iff_exists.mp hsome
  have hid : d.id = m.id := by simpa using List.find?_some hd
  have hmem : d ∈ n.children := List.mem_of_find?_eq_some hd
  rw [hd, List.inj_on_of_nodup_map h (mem_preorder_of_mem_children hmem) (mem_preorder_of_mem_children hm) hid]

theorem nodup_ids_child {n m : Node} (h : (n.preorder.map (·.id)).Nodup) (hm : m ∈ n.children) :
    (m.preorder.map (·.id)).Nodup := by
  rw [preorder_eq_cons_flatMap, List.map_cons, List.nodup_cons, List.map_flatMap] at h
  exact (List.nodup_flatMap.mp h.2).1 m hm

/-! ## Following else branches -/

/-- The nodes that are visited by following else branches from a node to the end. -/
inductive ElseChain : Node → List Node → Prop
  | stop {n : Node} (h : n.elseBranch = none) : ElseChain n []
  | next {n m : Node} {ms : List Node} (hid : n.elseBranch = some m.id) (hm : n.child? m.id = some m)
    (h : ElseChain m ms) : ElseChain n (m :: ms)

/-- Whether a node is the last child of another. -/
def IsLastChild (n m : Node) : Prop := n.children.getLast? = some m

/-- A clause, as it is or with something hung below it. -/
def IsClauseCopy (n m : Node) : Prop := m = n ∨ ∃ tail, m = hang n tail

/-- A node of a tree without repeated identities leads to the child in its else branch. -/
theorem ElseChain.of_child {n m : Node} {ms : List Node} (hids : (n.preorder.map (·.id)).Nodup)
    (hid : n.elseBranch = some m.id) (hm : m ∈ n.children) (h : m.ElseChain ms) : n.ElseChain (m :: ms) :=
  .next hid (child?_of_nodup hids hm) h

end Node

/-! ## Chains of clauses -/

section Chains

open Node

theorem chainClauses_eq_none {ns : List Node} (h : chainClauses ns = none) : ns = [] := by
  by_contra hne
  obtain ⟨tail, htail⟩ := exists_chainClauses hne
  rw [h] at htail
  cases htail

theorem mem_children_hang (c tail : Node) : tail ∈ (hang c tail).children :=
  List.mem_append_right _ List.mem_cons_self

/-- Following else branches from the first clause of a chain visits the others in order, each of them the last child of
the one before it. By induction on the clauses; the chain of those behind the first is hung below it. -/
theorem elseChain_chainClauses {ns : List Node} {first : Node} (h : chainClauses ns = some first)
    (hend : ∀ n ∈ ns, n.elseBranch = none) (hids : (first.preorder.map (·.id)).Nodup) :
    ∃ visited, first.ElseChain visited ∧ List.Forall₂ IsClauseCopy ns (first :: visited) ∧
      List.IsChain IsLastChild (first :: visited) := by
  induction ns generalizing first with
  | nil => cases h
  | cons n ns ih =>
    rw [List.forall_mem_cons] at hend
    rw [chainClauses] at h
    cases hns : chainClauses ns with
    | none =>
      rw [hns] at h
      obtain rfl := Option.some.inj h
      obtain rfl := chainClauses_eq_none hns
      exact ⟨[], .stop hend.1, .cons (.inl rfl) .nil, .singleton _⟩
    | some tail =>
      rw [hns] at h
      obtain rfl := Option.some.inj h
      have hmem := mem_children_hang n tail
      obtain ⟨visited, hvisited, hcopies, hlast⟩ := ih hns hend.2 (nodup_ids_child hids hmem)
      refine ⟨tail :: visited, .of_child hids rfl hmem hvisited, .cons (.inr ⟨tail, rfl⟩) hcopies, ?_⟩
      refine .cons_cons ?_ hlast
      show (n.children ++ [tail]).getLast? = some tail
      simp

/-- What is below a clause is still in the tree when the clause is part of a chain. -/
theorem preorder_subset_chainClauses {ns : List Node} {first n p : Node} (h : chainClauses ns = some first)
    (hn : n ∈ ns) (hp : p ∈ n.children) : p.preorder ⊆ first.preorder := by
  induction ns generalizing first with
  | nil => cases hn
  | cons m ns ih =>
    rw [chainClauses] at h
    cases hns : chainClauses ns with
    | none =>
      rw [hns] at h
      obtain rfl := Option.some.inj h
      obtain rfl := chainClauses_eq_none hns
      obtain rfl := List.mem_singleton.mp hn
      exact child_mem_preorder hp
    | some tail =>
      rw [hns] at h
      obtain rfl := Option.some.inj h
      rcases List.mem_cons.mp hn with rfl | hn
      · exact child_mem_preorder (List.mem_append_left _ hp)
      · exact List.Subset.trans (ih hns hn) (child_mem_preorder (mem_children_hang m tail))

theorem totalBelow_hang (c tail : Node) : (hang c tail).totalBelow = c.totalBelow + tail.total weight := by
  show ((c.children ++ [tail]).map _).sum = _
  simp [totalBelow]

/-- The weights of a chain: those below its clauses, one for every `elif`, and one for every clause that is the else
branch of the one before it. -/
theorem total_chainClauses {elifs : List Node} {last : Option Node} {first : Node}
    (hkind : ∀ n ∈ elifs, n.kind = .conditional ∧ n.elseBranch = none) (hother : ∀ n ∈ last, n.kind = .other)
    (h : chainClauses (elifs ++ last.toList) = some first) :
    first.total weight + 1 =
      ((elifs ++ last.toList).map totalBelow).sum + elifs.length + (elifs.length + last.toList.length) := by
  induction elifs generalizing first with
  | nil =>
    cases last with
    | none => cases h
    | some n =>
      obtain rfl := Option.some.inj h
      have hweight : n.weight = 0 := by rw [weight, hother n rfl]
      rw [total_eq_add_totalBelow, hweight]
      simp
  | cons n elifs ih =>
    rw [List.forall_mem_cons] at hkind
    rw [List.cons_append, chainClauses] at h
    cases hns : chainClauses (elifs ++ last.toList) with
    | none =>
      rw [hns] at h
      obtain rfl := Option.some.inj h
      obtain ⟨rfl, hlast⟩ := List.append_eq_nil_iff.mp (chainClauses_eq_none hns)
      have hweight : n.weight = 1 := by
        rw [weight, hkind.1.1, hkind.1.2]
        rfl
      rw [total_eq_add_totalBelow, hweight, hlast]
      simp
      omega
    | some tail =>
      rw [hns] at h
      obtain rfl := Option.some.inj h
      have hrest := ih hkind.2 hns
      have hweight : (hang n tail).weight = 2 := by
        rw [weight, show (hang n tail).kind = .conditional from hkind.1.1]
        rfl
      rw [total_eq_add_totalBelow, hweight, totalBelow_hang]
      simp only [List.cons_append, List.map_cons, List.sum_cons, List.length_cons]
      omega

end Chains

/-! ## Nested conditionals -/

/-- One branch of a nested conditional: its parts, and which of them is the condition. -/
structure Arm where
  id : NodeId
  condition : Option NodeId := none
  parts : List Node

namespace Arm

open Node

/-- A node as a branch. -/
def ofNode (n : Node) : Arm := ⟨n.id, n.condition, n.children⟩

/-- A conditional with another node, or nothing, in its else branch. -/
def conditional (a : Arm) (rest : Option Node) : Node :=
  { id := a.id
    kind := .conditional
    children := a.parts ++ rest.toList
    condition := a.condition
    elseBranch := rest.map (·.id) }

/-- The block of an else branch. -/
def block (a : Arm) : Node := { id := a.id, kind := .block, children := a.parts }

/-- The weights of the parts. -/
def total (a : Arm) : Nat := (a.parts.map (Node.total weight)).sum

/-- The condition is one of the parts. -/
def HasCondition (a : Arm) : Prop := ∃ p ∈ a.parts, a.condition = some p.id

/-- No node of the parts has a flaw. -/
def Sound (a : Arm) : Prop := ∀ p ∈ a.parts, ∀ m ∈ p.preorder, m.flaw? = none

theorem bodyScore_block {a : Arm} (h : a.Sound) : a.block.bodyScore = .ok a.total := by
  rw [bodyScore_eq_ok_iff]
  refine ⟨?_, ?_⟩
  · rw [preorder_eq_cons_flatMap]
    intro m hm
    rcases List.mem_cons.mp hm with rfl | hm
    · rfl
    · obtain ⟨p, hp, hm⟩ := List.mem_flatMap.mp hm
      exact h p hp m hm
  · rw [total_eq_add_totalBelow, show a.block.weight = 0 from rfl, Nat.zero_add]
    rfl

theorem flaw?_conditional {a : Arm} (h : a.HasCondition) (rest : Option Node) : (a.conditional rest).flaw? = none := by
  obtain ⟨p, hp, hcondition⟩ := h
  have hset : (a.conditional rest).condition ≠ none := by
    show a.condition ≠ none
    simp [hcondition]
  have helse : (a.conditional rest).HasSlot (a.conditional rest).elseBranch := by
    intro id hid
    obtain ⟨m, rfl, rfl⟩ := Option.map_eq_some_iff.mp hid
    exact ⟨m, List.mem_append_right _ List.mem_cons_self, rfl⟩
  have hslot : (a.conditional rest).HasSlot (a.conditional rest).condition := by
    intro id hid
    obtain rfl := Option.some.inj (hcondition.symm.trans hid)
    exact ⟨p, List.mem_append_left _ hp, rfl⟩
  rw [flaw?_of_conditional rfl hset helse rfl rfl, hslot.isStray]
  rfl

/-- The score of a conditional: one, its parts, and one more with the score of its else branch if there is one. -/
theorem bodyScore_conditional {a : Arm} (hc : a.HasCondition) (h : a.Sound) :
    (a.conditional none).bodyScore = .ok (a.total + 1) ∧
      ∀ rest s, rest.bodyScore = .ok s → (a.conditional (some rest)).bodyScore = .ok (a.total + s + 2) := by
  have hflaws : ∀ rest : Option Node, (∀ n ∈ rest, ∀ m ∈ n.preorder, m.flaw? = none) →
      ∀ m ∈ (a.conditional rest).preorder, m.flaw? = none := by
    intro rest hrest m hm
    rw [preorder_eq_cons_flatMap] at hm
    rcases List.mem_cons.mp hm with rfl | hm
    · exact flaw?_conditional hc rest
    · obtain ⟨p, hp, hm⟩ := List.mem_flatMap.mp hm
      rcases List.mem_append.mp hp with hp | hp
      · exact h p hp m hm
      · exact hrest p (Option.mem_toList.mp hp) m hm
  constructor
  · refine bodyScore_eq_ok_iff.mpr ⟨hflaws none (fun n hn => by cases hn), ?_⟩
    rw [total_eq_add_totalBelow, show (a.conditional none).weight = 1 from rfl]
    simp [totalBelow, conditional, total]
    omega
  · intro rest s hs
    obtain ⟨hrest, rfl⟩ := bodyScore_eq_ok_iff.mp hs
    refine bodyScore_eq_ok_iff.mpr ⟨hflaws (some rest) ?_, ?_⟩
    · rintro n ⟨⟩
      exact hrest
    · rw [total_eq_add_totalBelow (a.conditional _), show (a.conditional (some rest)).weight = 2 from rfl]
      simp [totalBelow, conditional, total]
      omega

end Arm

/-- `if`, `else if` and `else`: each conditional is the else branch of the one before it. -/
def nestedIf (last : Option Arm) : Arm → List Arm → Node
  | a, [] => a.conditional (last.map Arm.block)
  | a, b :: arms => a.conditional (some (nestedIf last b arms))

/-- The score of nested conditionals: their parts, one for every conditional, and one for every else branch. -/
theorem bodyScore_nestedIf {last : Option Arm} {a : Arm} {arms : List Arm} (hc : ∀ b ∈ a :: arms, b.HasCondition)
    (hs : ∀ b ∈ a :: arms, b.Sound) (hlast : ∀ b ∈ last, b.Sound) :
    (nestedIf last a arms).bodyScore =
      .ok (a.total + ((arms ++ last.toList).map Arm.total).sum + (arms.length + 1) +
        (arms.length + last.toList.length)) := by
  induction arms generalizing a with
  | nil =>
    obtain ⟨hnone, hsome⟩ := Arm.bodyScore_conditional (hc a List.mem_cons_self) (hs a List.mem_cons_self)
    rw [nestedIf]
    cases last with
    | none =>
      rw [Option.map_none, hnone]
      simp
    | some b =>
      rw [Option.map_some, hsome _ _ (Arm.bodyScore_block (hlast b rfl))]
      simp
  | cons b arms ih =>
    obtain ⟨-, hsome⟩ := Arm.bodyScore_conditional (hc a List.mem_cons_self) (hs a List.mem_cons_self)
    have hrest := ih (fun d hd => hc d (List.mem_cons_of_mem _ hd)) fun d hd => hs d (List.mem_cons_of_mem _ hd)
    rw [nestedIf, hsome _ _ hrest]
    simp only [List.cons_append, List.map_cons, List.sum_cons, List.length_cons, Except.ok.injEq]
    omega

/-! ## If statements of Python -/

namespace Cst

/-- Whether a concrete node is an `elif` or an `else`. -/
def isPythonClause (c : Cst) : Bool := c.nodeType = "elif_clause" || c.nodeType = "else_clause"

/-- The condition of a conditional is one of its named children, and no clause. -/
def HasCondition (c : Cst) : Prop :=
  ∃ t, c.childByField? "condition" = some t ∧ t.named = true ∧ t.isPythonClause = false

instance (c : Cst) : Decidable c.HasCondition :=
  decidable_of_iff ((c.childByField? "condition").any fun t => t.named && !t.isPythonClause)
    (by simp [HasCondition, Option.any_eq_true])

/-- An if statement with its clauses: any number of `elif`, then at most one `else`, with anything else between them. -/
structure IfChain (c : Cst) (elifs : List Cst) (last : Option Cst) : Prop where
  type : c.nodeType = "if_statement"
  clauses : c.namedChildren.filter (·.isPythonClause) = elifs ++ last.toList
  elifType : ∀ d ∈ elifs, d.nodeType = "elif_clause"
  elseType : ∀ d ∈ last, d.nodeType = "else_clause"
  condition : c.HasCondition
  elifCondition : ∀ d ∈ elifs, d.HasCondition
  /-- The clauses of an `elif` would be hung below it before it is chained itself. -/
  elifFlat : ∀ d ∈ elifs, ∀ x ∈ d.namedChildren, x.isPythonClause = false

end Cst

/-- The clauses of an if statement, with their trees. -/
def clauseEntries (place : List Nat) (c : Cst) : Built :=
  (builtFor Language.python.rules place c).filter (·.1.isPythonClause)

/-- The other named children of an if statement, with their trees. -/
def partEntries (place : List Nat) (c : Cst) : Built :=
  (builtFor Language.python.rules place c).filter (!·.1.isPythonClause)

section Python

variable {place : List Nat} {c d : Cst}

theorem isClause_eq_isPythonClause : isClause Language.python.rules = Cst.isPythonClause :=
  funext isClause_python

theorem conditionOf_ne_none {built : Built} (h : built ≠ []) : conditionOf c built ≠ none := by
  obtain ⟨e, es, rfl⟩ := List.exists_cons_of_ne_nil h
  unfold conditionOf
  split
  · simp
  · simp

/-- The condition is found among the children that are no clauses. -/
theorem exists_condition (h : c.HasCondition) (place : List Nat) :
    ∃ e ∈ partEntries place c, conditionOf c (builtFor Language.python.rules place c) = some e.2.id := by
  obtain ⟨t, ht, hnamed, hclause⟩ := h
  obtain ⟨n, hn⟩ := exists_mem_builtFor Language.python.rules place (List.mem_of_find?_eq_some ht) hnamed
  obtain ⟨id, hid⟩ := Option.ne_none_iff_exists'.mp
    (conditionOf_ne_none (c := c) (List.ne_nil_of_mem hn))
  simp only [Cst.isPythonClause, Bool.or_eq_false_iff, decide_eq_false_iff_not] at hclause
  obtain ⟨e, he, hno, rfl⟩ := conditionApart_python ht hnamed hclause.1 hclause.2 id hid
  rw [isClause_eq_isPythonClause] at hno
  exact ⟨e, List.mem_filter.mpr ⟨he, by rw [hno]; rfl⟩, hid⟩

/-- The tree of an `elif` without clauses of its own. -/
theorem toTree_elif (ht : d.nodeType = "elif_clause") (hc : d.HasCondition)
    (hflat : ∀ x ∈ d.namedChildren, x.isPythonClause = false) (place : List Nat) :
    (toTree Language.python.rules place d).kind = .conditional ∧
      (toTree Language.python.rules place d).elseBranch = none ∧
      (toTree Language.python.rules place d).children = (builtFor Language.python.rules place d).map (·.2) ∧
      (Arm.ofNode (toTree Language.python.rules place d)).HasCondition := by
  have hkind : Language.python.rules.kindOf d.nodeType = .conditional := by
    rw [ht]
    rfl
  -- no named child is an `elif` or an `else`
  have hno : ∀ e ∈ builtFor Language.python.rules place d,
      Language.python.rules.elseIfTypes.contains e.1.nodeType = false ∧
        Language.python.rules.elseTypes.contains e.1.nodeType = false := by
    intro e he
    have hmem : e.1 ∈ (builtFor Language.python.rules place d).map (·.1) := List.mem_map_of_mem he
    rw [map_fst_builtFor] at hmem
    have hclause := hflat e.1 hmem
    rw [← isClause_eq_isPythonClause, isClause, Bool.or_eq_false_iff] at hclause
    exact hclause
  have hunchained : isChained Language.python.rules (builtFor Language.python.rules place d) = false := by
    rw [isChained, List.any_eq_false]
    intro e he
    rw [(hno e he).1]
    decide
  have helse : elseOf Language.python.rules d (builtFor Language.python.rules place d) = none := by
    rw [elseOf, if_neg (by decide), Option.map_eq_none_iff, List.find?_eq_none]
    intro e he
    rw [(hno e he).2]
    decide
  rw [toTree_eq, makeNode_conditional hkind, conditionalNode_unchained hunchained]
  refine ⟨hkind, helse, rfl, ?_⟩
  obtain ⟨e, he, hcondition⟩ := exists_condition hc place
  exact ⟨e.2, List.mem_map_of_mem (List.mem_filter.mp he).1, hcondition⟩

/-- The tree of an `else`. -/
theorem toTree_else (ht : d.nodeType = "else_clause") (place : List Nat) :
    (toTree Language.python.rules place d).kind = .other ∧
      (toTree Language.python.rules place d).elseBranch = none ∧
      (toTree Language.python.rules place d).children = (builtFor Language.python.rules place d).map (·.2) := by
  have hkind : Language.python.rules.kindOf d.nodeType = .other := by
    rw [ht]
    rfl
  rw [toTree_eq, show makeNode Language.python.rules place d (builtFor Language.python.rules place d) =
    plainNode Language.python.rules place d (builtFor Language.python.rules place d) by rw [makeNode, hkind]]
  exact ⟨hkind, rfl, rfl⟩

/-- An `elif` or an `else` is looked for among the clauses. -/
theorem any_elseIfTypes (place : List Nat) (c : Cst) :
    (builtFor Language.python.rules place c).any (Language.python.rules.elseIfTypes.contains ·.1.nodeType) =
      (clauseEntries place c).any (·.1.nodeType = "elif_clause") := by
  have htypes : Language.python.rules.elseIfTypes = ["elif_clause"] := rfl
  rw [clauseEntries, List.any_filter, htypes]
  congr 1
  funext e
  by_cases he : e.1.nodeType = "elif_clause"
  · simp [Cst.isPythonClause, he]
  · simp [he]

theorem find?_elseTypes (place : List Nat) (c : Cst) :
    (builtFor Language.python.rules place c).find? (Language.python.rules.elseTypes.contains ·.1.nodeType) =
      (clauseEntries place c).find? (·.1.nodeType = "else_clause") := by
  have htypes : Language.python.rules.elseTypes = ["else_clause"] := rfl
  rw [clauseEntries, List.find?_filter, htypes]
  congr 1
  funext e
  by_cases he : e.1.nodeType = "else_clause"
  · simp [Cst.isPythonClause, he]
  · simp [he]

theorem exists_toTree_of_mem_clauseEntries {e : Cst × Node} (he : e ∈ clauseEntries place c) :
    ∃ k, e.2 = toTree Language.python.rules (k :: place) e.1 :=
  (exists_of_mem_builtFor (List.mem_filter.mp he).1).2.2

end Python

namespace Cst.IfChain

variable {c : Cst} {elifs : List Cst} {last : Option Cst} (h : c.IfChain elifs last)

include h

/-- The clauses in the order of the source: those with `elif`, then the `else`. -/
theorem exists_entries (place : List Nat) :
    ∃ (es : Built) (l : Option (Cst × Node)), clauseEntries place c = es ++ l.toList ∧ es.map (·.1) = elifs ∧
      l.map (·.1) = last := by
  have hmap : (clauseEntries place c).map (·.1) = elifs ++ last.toList := by
    rw [← h.clauses, ← map_fst_builtFor Language.python.rules place c, List.filter_map]
    rfl
  obtain ⟨es, ls, hsplit, hes, hls⟩ := List.map_eq_append_iff.mp hmap
  cases last with
  | none =>
    obtain rfl := List.map_eq_nil_iff.mp hls
    exact ⟨es, none, hsplit, hes, rfl⟩
  | some d =>
    obtain ⟨e, rfl, rfl⟩ := List.map_eq_singleton_iff.mp hls
    exact ⟨es, some e, hsplit, hes, rfl⟩

variable {place : List Nat} {es : Built} {l : Option (Cst × Node)} (hsplit : clauseEntries place c = es ++ l.toList)
  (hes : es.map (·.1) = elifs) (hl : l.map (·.1) = last)

include hsplit hes in
theorem elif_facts {e : Cst × Node} (he : e ∈ es) :
    ∃ k, e.2 = toTree Language.python.rules (k :: place) e.1 ∧ e.2.kind = .conditional ∧ e.2.elseBranch = none ∧
      e.2.children = (builtFor Language.python.rules (k :: place) e.1).map (·.2) ∧ (Arm.ofNode e.2).HasCondition := by
  have hentry : e ∈ clauseEntries place c := hsplit ▸ List.mem_append_left _ he
  have helif : e.1 ∈ elifs := hes ▸ List.mem_map_of_mem he
  obtain ⟨k, hk⟩ := exists_toTree_of_mem_clauseEntries hentry
  have hfacts := toTree_elif (h.elifType _ helif) (h.elifCondition _ helif) (h.elifFlat _ helif) (k :: place)
  rw [← hk] at hfacts
  exact ⟨k, hk, hfacts⟩

include hsplit hl in
theorem else_facts {e : Cst × Node} (he : e ∈ l) :
    ∃ k, e.2 = toTree Language.python.rules (k :: place) e.1 ∧ e.2.kind = .other ∧ e.2.elseBranch = none ∧
      e.2.children = (builtFor Language.python.rules (k :: place) e.1).map (·.2) := by
  have hentry : e ∈ clauseEntries place c := hsplit ▸ List.mem_append_right _ (Option.mem_toList.mpr he)
  have helse : e.1 ∈ last := by
    rw [← hl]
    exact Option.mem_map_of_mem _ he
  obtain ⟨k, hk⟩ := exists_toTree_of_mem_clauseEntries hentry
  have hfacts := toTree_else (h.elseType _ helse) (k :: place)
  rw [← hk] at hfacts
  exact ⟨k, hk, hfacts⟩

/-- An if statement is a conditional, and its condition is one of its children that are no clauses. -/
theorem kind_and_condition (place : List Nat) :
    (toTree Language.python.rules place c).kind = .conditional ∧
      ∃ e ∈ partEntries place c, (toTree Language.python.rules place c).condition = some e.2.id := by
  have hkind : Language.python.rules.kindOf c.nodeType = .conditional := by
    rw [h.type]
    rfl
  rw [toTree_eq, makeNode_conditional hkind]
  obtain ⟨hk, -, hcondition, -⟩ :=
    slots_conditionalNode Language.python.rules place c (builtFor Language.python.rules place c)
  rw [hcondition]
  exact ⟨hk.trans hkind, exists_condition h.condition place⟩

include hsplit hl in
/-- Without an `elif`, the `else` stays where it is. -/
theorem toTree_of_nil (hnil : es = []) :
    (toTree Language.python.rules place c).children = (builtFor Language.python.rules place c).map (·.2) ∧
      (toTree Language.python.rules place c).elseBranch = l.map (·.2.id) := by
  have hkind : Language.python.rules.kindOf c.nodeType = .conditional := by
    rw [h.type]
    rfl
  rw [hnil, List.nil_append] at hsplit
  have helse : ∀ e ∈ l, e.1.nodeType = "else_clause" := by
    intro e he
    refine h.elseType _ ?_
    rw [← hl]
    exact Option.mem_map_of_mem _ he
  -- what is looked for is a clause, and the only clause is the `else`
  have hunchained : isChained Language.python.rules (builtFor Language.python.rules place c) = false := by
    rw [isChained, any_elseIfTypes, hsplit]
    cases l with
    | none => rfl
    | some e => simp [helse e rfl]
  have hfind : elseOf Language.python.rules c (builtFor Language.python.rules place c) = l.map (·.2.id) := by
    rw [elseOf, if_neg (by decide), find?_elseTypes, hsplit]
    cases l with
    | none => rfl
    | some e => simp [helse e rfl]
  rw [toTree_eq, makeNode_conditional hkind, conditionalNode_unchained hunchained]
  exact ⟨rfl, hfind⟩

include hsplit hes in
/-- With an `elif`, the clauses are chained and hung below the statement. -/
theorem toTree_of_ne_nil (hne : es ≠ []) :
    ∃ tail, chainClauses (es.map (·.2) ++ (l.map (·.2)).toList) = some tail ∧
      (toTree Language.python.rules place c).children = (partEntries place c).map (·.2) ++ [tail] ∧
      (toTree Language.python.rules place c).elseBranch = some tail.id := by
  have hkind : Language.python.rules.kindOf c.nodeType = .conditional := by
    rw [h.type]
    rfl
  have hchained : isChained Language.python.rules (builtFor Language.python.rules place c) = true := by
    obtain ⟨e, he⟩ := List.exists_mem_of_ne_nil es hne
    have helif : e.1.nodeType = "elif_clause" := h.elifType _ (hes ▸ List.mem_map_of_mem he)
    rw [isChained, any_elseIfTypes, hsplit, List.any_eq_true]
    exact ⟨e, List.mem_append_left _ he, decide_eq_true helif⟩
  obtain ⟨tail, htail, hnode⟩ := conditionalNode_chained place c hchained
  rw [isClause_eq_isPythonClause] at htail hnode
  refine ⟨tail, ?_, ?_, ?_⟩
  · rw [← htail, show (builtFor Language.python.rules place c).filter (·.1.isPythonClause) = _ from hsplit,
      List.map_append, Option.toList_map]
  · rw [toTree_eq, makeNode_conditional hkind, hnode]
    rfl
  · rw [toTree_eq, makeNode_conditional hkind, hnode]

include hsplit hes hl in
/-- Following else branches from the statement visits its clauses in the order of the source. -/
theorem visits :
    ∃ visited, (toTree Language.python.rules place c).ElseChain visited ∧
      List.Forall₂ (fun e m => Node.IsClauseCopy e.2 m) (clauseEntries place c) visited ∧
      (es ≠ [] → List.IsChain Node.IsLastChild (toTree Language.python.rules place c :: visited)) := by
  have hids := nodup_ids_toTree Language.python.rules place c
  by_cases hnil : es = []
  · obtain ⟨hchildren, helse⟩ := h.toTree_of_nil hsplit hl hnil
    rw [hsplit, hnil, List.nil_append]
    cases l with
    | none => exact ⟨[], .stop helse, .nil, fun hne => absurd rfl hne⟩
    | some e =>
      obtain ⟨k, -, -, hend, -⟩ := h.else_facts hsplit hl (e := e) rfl
      have hentry : e ∈ clauseEntries place c := by
        rw [hsplit]
        exact List.mem_append_right _ List.mem_cons_self
      have hmem : e.2 ∈ (toTree Language.python.rules place c).children := by
        rw [hchildren]
        exact List.mem_map_of_mem (List.mem_filter.mp hentry).1
      exact ⟨[e.2], .of_child hids helse hmem (.stop hend), .cons (.inl rfl) .nil, fun hne => absurd rfl hne⟩
  · obtain ⟨tail, htail, hchildren, helse⟩ := h.toTree_of_ne_nil hsplit hes hnil
    have hmem : tail ∈ (toTree Language.python.rules place c).children := by
      rw [hchildren]
      exact List.mem_append_right _ List.mem_cons_self
    have hend : ∀ n ∈ es.map (·.2) ++ (l.map (·.2)).toList, n.elseBranch = none := by
      intro n hn
      rcases List.mem_append.mp hn with hn | hn
      · obtain ⟨e, he, rfl⟩ := List.mem_map.mp hn
        obtain ⟨k, -, -, hend, -⟩ := h.elif_facts hsplit hes he
        exact hend
      · obtain ⟨e, he, rfl⟩ := Option.mem_map.mp (Option.mem_toList.mp hn)
        obtain ⟨k, -, -, hend, -⟩ := h.else_facts hsplit hl he
        exact hend
    obtain ⟨visited, hvisited, hcopies, hlast⟩ :=
      elseChain_chainClauses htail hend (Node.nodup_ids_child hids hmem)
    refine ⟨tail :: visited, .of_child hids helse hmem hvisited, ?_, fun _ => .cons_cons ?_ hlast⟩
    · have hmap := List.forall₂_map_left_iff (R := Node.IsClauseCopy) (f := fun e : Cst × Node => e.2)
        (l := es ++ l.toList) (u := tail :: visited)
      rw [List.map_append, ← Option.toList_map] at hmap
      rw [hsplit]
      exact hmap.mp hcopies
    · rw [Node.IsLastChild, hchildren]
      simp

include hsplit hes hl in
/-- The weights of the statement: those of its parts and of the parts of its clauses, one for every conditional, and one
for every clause that is an else branch. -/
theorem total_toTree :
    (toTree Language.python.rules place c).total Node.weight =
      ((partEntries place c).map (·.2.total Node.weight)).sum +
        ((clauseEntries place c).map (·.2.totalBelow)).sum + (es.length + 1) + (es.length + l.toList.length) := by
  obtain ⟨hkind, -⟩ := h.kind_and_condition place
  have hweight : (toTree Language.python.rules place c).weight =
      if (toTree Language.python.rules place c).elseBranch.isSome then 2 else 1 := by
    rw [Node.weight, hkind]
  rw [Node.total_eq_add_totalBelow, hweight, Node.totalBelow]
  by_cases hnil : es = []
  · obtain ⟨hchildren, helse⟩ := h.toTree_of_nil hsplit hl hnil
    have hperm : (clauseEntries place c ++ partEntries place c).Perm (builtFor Language.python.rules place c) :=
      List.filter_append_perm (fun e : Cst × Node => e.1.isPythonClause) _
    have hsum := (hperm.map fun e => e.2.total Node.weight).sum_eq
    rw [List.map_append, List.sum_append, hsplit, hnil] at hsum
    rw [hchildren, helse, List.map_map, Function.comp_def, ← hsum, hsplit, hnil]
    cases l with
    | none =>
      simp
      omega
    | some e =>
      obtain ⟨k, -, hother, -⟩ := h.else_facts hsplit hl (e := e) rfl
      have hnone : e.2.weight = 0 := by rw [Node.weight, hother]
      simp [Node.total_eq_add_totalBelow e.2, hnone]
      omega
  · obtain ⟨tail, htail, hchildren, helse⟩ := h.toTree_of_ne_nil hsplit hes hnil
    have hchain := @total_chainClauses (es.map (·.2)) (l.map (·.2)) tail ?_ ?_ htail
    · rw [Option.toList_map] at hchain
      rw [hchildren, helse, hsplit]
      simp [Function.comp_def] at hchain ⊢
      omega
    · intro n hn
      obtain ⟨e, he, rfl⟩ := List.mem_map.mp hn
      obtain ⟨k, -, hk, hend, -⟩ := h.elif_facts hsplit hes he
      exact ⟨hk, hend⟩
    · intro n hn
      obtain ⟨e, he, rfl⟩ := Option.mem_map.mp hn
      obtain ⟨k, -, hk, -⟩ := h.else_facts hsplit hl he
      exact hk

include hsplit hes hl in
/-- The parts of the statement and of its clauses are all in its tree, unchanged. -/
theorem preorder_part_subset {p : Node}
    (hp : p ∈ (partEntries place c).map (·.2) ++ (clauseEntries place c).flatMap (·.2.children)) :
    p.preorder ⊆ (toTree Language.python.rules place c).preorder := by
  by_cases hnil : es = []
  · obtain ⟨hchildren, -⟩ := h.toTree_of_nil hsplit hl hnil
    have hentry : ∀ e ∈ builtFor Language.python.rules place c,
        e.2.preorder ⊆ (toTree Language.python.rules place c).preorder := fun e he =>
      Node.child_mem_preorder (hchildren ▸ List.mem_map_of_mem he)
    rcases List.mem_append.mp hp with hp | hp
    · obtain ⟨e, he, rfl⟩ := List.mem_map.mp hp
      exact hentry e (List.mem_filter.mp he).1
    · obtain ⟨e, he, hp⟩ := List.mem_flatMap.mp hp
      exact List.Subset.trans (Node.child_mem_preorder hp) (hentry e (List.mem_filter.mp he).1)
  · obtain ⟨tail, htail, hchildren, -⟩ := h.toTree_of_ne_nil hsplit hes hnil
    rcases List.mem_append.mp hp with hp | hp
    · exact Node.child_mem_preorder (hchildren ▸ List.mem_append_left _ hp)
    · obtain ⟨e, he, hp⟩ := List.mem_flatMap.mp hp
      have hclause : e.2 ∈ es.map (·.2) ++ (l.map (·.2)).toList := by
        rw [Option.toList_map, ← List.map_append, ← hsplit]
        exact List.mem_map_of_mem he
      refine List.Subset.trans (preorder_subset_chainClauses htail hclause hp) (Node.child_mem_preorder ?_)
      rw [hchildren]
      exact List.mem_append_right _ List.mem_cons_self

end Cst.IfChain

/-- The branch that an if statement has by itself. -/
def ifArm (place : List Nat) (c : Cst) : Arm :=
  ⟨.place place, (toTree Language.python.rules place c).condition, (partEntries place c).map (·.2)⟩

/-- The sum of the scores of trees that have one. -/
def scoreSum (ns : List Node) : Nat := (ns.map fun n => Node.worth n.bodyScore).sum

theorem scoreSum_eq {ns : List Node} (h : ∀ p ∈ ns, ∀ m ∈ p.preorder, m.flaw? = none) :
    scoreSum ns = (ns.map (Node.total Node.weight)).sum := by
  rw [scoreSum]
  congr 1
  refine List.map_congr_left fun p hp => ?_
  rw [Node.bodyScore_eq_ok_iff.mpr ⟨h p hp, rfl⟩]
  rfl

/-- What becomes of an if statement with clauses. -/
structure IfNests (place : List Nat) (c : Cst) (elifs : Built) (last : Option (Cst × Node)) : Prop where
  clauses : clauseEntries place c = elifs ++ last.toList
  /-- Every clause is converted with its own children. -/
  converted : ∀ e ∈ clauseEntries place c, ∃ k, e.2 = toTree Language.python.rules (k :: place) e.1 ∧
    e.2.children = (builtFor Language.python.rules (k :: place) e.1).map (·.2)
  /-- The else branches lead from the statement through its clauses, in the order of the source, and end there; if there
  is an `elif`, each clause is the last child of the one before it. -/
  visits : ∃ visited, (toTree Language.python.rules place c).ElseChain visited ∧
    List.Forall₂ (fun e m => Node.IsClauseCopy e.2 m) (clauseEntries place c) visited ∧
    (elifs ≠ [] → List.IsChain Node.IsLastChild (toTree Language.python.rules place c :: visited))
  /-- The score is that of the parts, with one for every conditional and one for every else branch; and it is the score
  of the same parts in nested conditionals. -/
  score : ∀ s, (toTree Language.python.rules place c).bodyScore = .ok s →
    (∀ p ∈ (partEntries place c).map (·.2) ++ (clauseEntries place c).flatMap (·.2.children),
      ∃ v, p.bodyScore = .ok v) ∧
    s = scoreSum ((partEntries place c).map (·.2)) + scoreSum ((clauseEntries place c).flatMap (·.2.children)) +
      (elifs.length + 1) + (elifs.length + last.toList.length) ∧
    (nestedIf (last.map (Arm.ofNode ·.2)) (ifArm place c) (elifs.map (Arm.ofNode ·.2))).bodyScore = .ok s

/-- **If statements nest**: an if statement of Python with `elif` and `else` clauses has the else branches and the score
of an `if` with `else if` and `else`. -/
theorem ifChain_nests {c : Cst} {elifs : List Cst} {last : Option Cst} (h : c.IfChain elifs last) (place : List Nat) :
    ∃ (es : Built) (l : Option (Cst × Node)), es.map (·.1) = elifs ∧ l.map (·.1) = last ∧ IfNests place c es l := by
  obtain ⟨es, l, hsplit, hes, hl⟩ := h.exists_entries place
  refine ⟨es, l, hes, hl, hsplit, ?_, h.visits hsplit hes hl, ?_⟩
  · intro e he
    rw [hsplit] at he
    rcases List.mem_append.mp he with he | he
    · obtain ⟨k, htree, -, -, hchildren, -⟩ := h.elif_facts hsplit hes he
      exact ⟨k, htree, hchildren⟩
    · obtain ⟨k, htree, -, -, hchildren⟩ := h.else_facts hsplit hl (Option.mem_toList.mp he)
      exact ⟨k, htree, hchildren⟩
  · intro s hs
    obtain ⟨hflaws, rfl⟩ := Node.bodyScore_eq_ok_iff.mp hs
    have hparts : ∀ p ∈ (partEntries place c).map (·.2) ++ (clauseEntries place c).flatMap (·.2.children),
        ∀ m ∈ p.preorder, m.flaw? = none := fun p hp m hm =>
      hflaws m (h.preorder_part_subset hsplit hes hl hp hm)
    have hown := fun p hp => hparts p (List.mem_append_left _ hp)
    have hbelow := fun p hp => hparts p (List.mem_append_right _ hp)
    have hscore := h.total_toTree hsplit hes hl
    refine ⟨fun p hp => ⟨_, Node.bodyScore_eq_ok_iff.mpr ⟨hparts p hp, rfl⟩⟩, ?_, ?_⟩
    · rw [scoreSum_eq hown, scoreSum_eq hbelow, hscore, List.map_map, List.map_flatMap, List.flatMap_def,
        List.sum_flatten, List.map_map]
      rfl
    · have hclause : ∀ e ∈ es ++ l.toList, (Arm.ofNode e.2).Sound := by
        intro e he p hp
        exact hbelow p (List.mem_flatMap.mpr ⟨e, hsplit ▸ he, hp⟩)
      have hcondition : (ifArm place c).HasCondition := by
        obtain ⟨-, e, he, hcondition⟩ := h.kind_and_condition place
        exact ⟨e.2, List.mem_map_of_mem he, hcondition⟩
      rw [bodyScore_nestedIf, hscore, hsplit]
      · simp [Function.comp_def, Option.toList_map, Arm.total, ifArm, Arm.ofNode, Node.totalBelow]
      · refine List.forall_mem_cons.mpr ⟨hcondition, ?_⟩
        intro b hb
        obtain ⟨e, he, rfl⟩ := List.mem_map.mp hb
        obtain ⟨k, -, -, -, -, harm⟩ := h.elif_facts hsplit hes he
        exact harm
      · refine List.forall_mem_cons.mpr ⟨hown, ?_⟩
        intro b hb
        obtain ⟨e, he, rfl⟩ := List.mem_map.mp hb
        exact hclause e (List.mem_append_left _ he)
      · intro b hb
        obtain ⟨e, he, rfl⟩ := Option.mem_map.mp hb
        exact hclause e (List.mem_append_right _ (Option.mem_toList.mpr he))

/-- An if statement with two `elif`, of which the first is followed by a comment, and an `else`. -/
def fourWay : Cst :=
  .ofRows [⟨0, "if_statement", 0, 90, 0, true, none⟩, ⟨1, "identifier", 3, 4, 0, true, some "condition"⟩,
    ⟨1, "block", 10, 20, 1, true, some "consequence"⟩, ⟨2, "return_statement", 10, 20, 1, true, none⟩,
    ⟨1, "elif_clause", 21, 40, 2, true, some "alternative"⟩, ⟨2, "identifier", 26, 27, 2, true, some "condition"⟩,
    ⟨2, "block", 30, 40, 3, true, some "consequence"⟩, ⟨3, "return_statement", 30, 40, 3, true, none⟩,
    ⟨1, "comment", 41, 45, 4, true, none⟩, ⟨1, "elif_clause", 46, 60, 5, true, some "alternative"⟩,
    ⟨2, "identifier", 51, 52, 5, true, some "condition"⟩, ⟨2, "block", 55, 60, 6, true, some "consequence"⟩,
    ⟨1, "else_clause", 61, 90, 7, true, some "alternative"⟩, ⟨2, "block", 70, 90, 8, true, some "body"⟩,
    ⟨3, "break_statement", 70, 90, 8, true, none⟩]

theorem ifChain_fourWay :
    fourWay.IfChain (fourWay.children.filter (·.nodeType = "elif_clause"))
      (fourWay.children.find? (·.nodeType = "else_clause")) where
  type := rfl
  clauses := rfl
  elifType d hd := of_decide_eq_true (List.mem_filter.mp hd).2
  elseType d hd := by simpa using List.find?_some hd
  condition := ⟨_, rfl, rfl, rfl⟩
  elifCondition := by decide +kernel
  elifFlat := by decide +kernel

theorem bodyScore_fourWay : (toTree Language.python.rules [] fourWay).bodyScore = .ok 9 := by
  decide +kernel

/-- Two returns and a break, three conditionals and three else branches. -/
theorem fourWay_nests :
    fourWay.IfChain (fourWay.children.filter (·.nodeType = "elif_clause"))
        (fourWay.children.find? (·.nodeType = "else_clause")) ∧
      ∃ es l, IfNests [] fourWay es l ∧
        (nestedIf (l.map (Arm.ofNode ·.2)) (ifArm [] fourWay) (es.map (Arm.ofNode ·.2))).bodyScore = .ok 9 := by
  obtain ⟨es, l, -, -, hnests⟩ := ifChain_nests ifChain_fourWay []
  exact ⟨ifChain_fourWay, es, l, hnests, (hnests.score 9 bodyScore_fourWay).2.2⟩

end HandlerComplexity
