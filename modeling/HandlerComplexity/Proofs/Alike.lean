import HandlerComplexity.Proofs.Shape

/-!
# Trees with the same scores

The slots of a tree are identities, and identities are places, so one more child among others changes all of them. The
scores depend on much less: on the weights that are not zero, in preorder, and on the scores of the handlers.

* `Node.Alike`: two trees that agree on what the scores depend on; `Alike.classScore`: so they have the same score.
* `bodyEntry`, `conditionEntry`, `hasElse`, `isTorn`: the slots of a node as children, without identities.
* `handlerScore_makeNode`, `weight_makeNode`, `flaw?_makeNode`: the node that is made, in terms of these.
* `chain_alike`: clauses that are hung one below the other.
-/

namespace HandlerComplexity

namespace Node

/-! ## What the scores depend on -/

/-- A running total of values, up to the first failure. -/
def addUp (total : Nat) : List (Except Malformed Nat) → Except Malformed Nat
  | [] => .ok total
  | .error e :: _ => .error e
  | .ok v :: vs => addUp (total + v) vs

/-- Whether a value makes a difference to a total. -/
def counts : Except Malformed Nat → Bool
  | .ok 0 => false
  | _ => true

theorem sumOver_eq_addUp (f : Node → Except Malformed Nat) (t : Nat) (ns : List Node) :
    sumOver f t ns = addUp t ((ns.map f).filter counts) := by
  induction ns generalizing t with
  | nil => rfl
  | cons n ns ih =>
    rw [sumOver, List.map_cons, List.filter_cons]
    rcases f n with e | _ | v
    · rfl
    · exact ih _
    · exact ih _

/-- The weights in a tree that make a difference, in preorder. -/
def weights (n : Node) : List (Except Malformed Nat) := (n.preorder.map checkedWeight).filter counts

/-- The scores of the handlers in a tree, in preorder. -/
def scores (n : Node) : List (Except Malformed Nat) := (n.preorder.filter (·.kind = .handler)).map handlerScore

theorem bodyScore_eq (n : Node) : n.bodyScore = addUp 0 n.weights := by
  rw [bodyScore, nodes_eq_preorder, sumOver_eq_addUp, weights]

theorem classScore_eq (n : Node) : n.classScore = addUp 0 (n.scores.filter counts) := by
  rw [classScore, descendants, nodes_eq_preorder, sumOver_eq_addUp, scores]

theorem weights_eq (n : Node) : n.weights = [n.checkedWeight].filter counts ++ n.children.flatMap weights := by
  rw [weights, preorder_eq_cons_flatMap, List.map_cons, ← List.singleton_append, List.filter_append, List.map_flatMap,
    List.filter_flatMap]
  rfl

theorem scores_eq (n : Node) :
    n.scores = (if n.kind = .handler then [n.handlerScore] else []) ++ n.children.flatMap scores := by
  rw [scores, preorder_eq_cons_flatMap, ← List.singleton_append, List.filter_append, List.map_append,
    List.filter_flatMap, List.map_flatMap, List.filter_singleton]
  congr 1
  split_ifs with hk
  · simp [hk]
  · simp [hk]

/-- Two trees that agree on what the scores depend on. -/
structure Alike (n n' : Node) : Prop where
  kind : n'.kind = n.kind
  line : n'.line = n.line
  flaw : n'.flaw? = n.flaw?
  weight : n'.weight = n.weight
  handlerScore : n'.handlerScore = n.handlerScore
  weightsBelow : n'.children.flatMap weights = n.children.flatMap weights
  scoresBelow : n'.children.flatMap scores = n.children.flatMap scores

namespace Alike

variable {n n' : Node}

theorem checkedWeight (h : n.Alike n') : n'.checkedWeight = n.checkedWeight := by
  unfold Node.checkedWeight malformed
  rw [h.flaw, h.weight, h.kind, h.line]

theorem weights (h : n.Alike n') : n'.weights = n.weights := by
  rw [weights_eq, weights_eq, h.checkedWeight, h.weightsBelow]

theorem scores (h : n.Alike n') : n'.scores = n.scores := by
  rw [scores_eq, scores_eq, h.kind, h.handlerScore, h.scoresBelow]

theorem bodyScore (h : n.Alike n') : n'.bodyScore = n.bodyScore := by
  rw [bodyScore_eq, bodyScore_eq, h.weights]

theorem classScore (h : n.Alike n') : n'.classScore = n.classScore := by
  rw [classScore_eq, classScore_eq, h.scores]

end Alike

/-- Of the slots, the weight of a node depends on the else branch of a conditional only. -/
theorem weight_congr {n n' : Node} (hk : n'.kind = n.kind) (ho : n.kind = .binaryOperator → n'.operator = n.operator)
    (he : n.kind = .conditional → n'.elseBranch.isSome = n.elseBranch.isSome) : n'.weight = n.weight := by
  unfold weight
  rw [hk]
  cases hkind : n.kind with
  | conditional => rw [he hkind]
  | binaryOperator => rw [ho hkind]
  | _ => rfl

/-- What can be wrong with a conditional that has a condition and its else branch among its children. -/
theorem flaw?_of_conditional {n : Node} (hk : n.kind = .conditional) (hcondition : n.condition ≠ none)
    (helse : n.HasSlot n.elseBranch) (hbody : n.body = none) (hcases : n.cases = []) :
    n.flaw? = if n.isStray n.condition then some .strayCondition else none := by
  have hnone : n.isStray none = false := rfl
  unfold flaw?
  simp [hk, hcondition, helse.isStray, hbody, hcases, hnone]

/-- A node that is no handler has no score of its own. -/
theorem handlerScore_of_ne {n : Node} (h : n.kind ≠ .handler) : n.handlerScore = .error (n.malformed .notHandler) :=
  if_pos h

end Node

/-! ## Slots without identities -/

/-- The first named child that coincides with a given concrete node, with its tree. -/
def slotEntry (built : Built) (target : Option Cst) : Option (Cst × Node) :=
  target.bind fun t => built.find? (·.1.coincides t)

def conditionEntry (c : Cst) (built : Built) : Option (Cst × Node) := slotEntry built (c.childByField? "condition")

def bodyEntry (r : Rules) (c : Cst) (built : Built) : Option (Cst × Node) :=
  (slotEntry built (c.childByField? "body")).or (built.reverse.find? (r.blockTypes.contains ·.1.nodeType))

/-- Whether there are clauses to be chained. -/
def isChained (r : Rules) (built : Built) : Bool := built.any (r.elseIfTypes.contains ·.1.nodeType)

/-- Whether a conditional gets an else branch. -/
def hasElse (r : Rules) (c : Cst) (built : Built) : Bool :=
  isChained r built ||
    if r.elseTypes.isEmpty then (slotEntry built (c.childByField? "alternative")).isSome
    else built.any (r.elseTypes.contains ·.1.nodeType)

/-- Whether the condition is a clause that is hung away from its conditional: a lone clause stays where it is. -/
def isTorn (r : Rules) (c : Cst) (built : Built) : Bool :=
  isChained r built && (conditionEntry c built).any (isClause r ·.1) && (built.filter (isClause r ·.1)).length ≠ 1

theorem slotOf_eq (built : Built) (target : Option Cst) :
    slotOf built target = (slotEntry built target).map (·.2.id) := by
  cases target <;> rfl

theorem bodyOf_eq (r : Rules) (c : Cst) (built : Built) : bodyOf r c built = (bodyEntry r c built).map (·.2.id) := by
  rw [bodyOf, slotOf_eq, bodyEntry]
  cases slotEntry built (c.childByField? "body") <;> rfl

theorem conditionOf_eq {c : Cst} {built : Built} {e : Cst × Node} (h : conditionEntry c built = some e) :
    conditionOf c built = some e.2.id := by
  rw [conditionOf, slotOf_eq, show slotEntry built (c.childByField? "condition") = some e from h]
  rfl

theorem mem_of_slotEntry {built : Built} {target : Option Cst} {e : Cst × Node} (h : slotEntry built target = some e) :
    e ∈ built := by
  obtain ⟨t, -, he⟩ := Option.bind_eq_some_iff.mp h
  exact List.mem_of_find?_eq_some he

theorem mem_of_bodyEntry {r : Rules} {c : Cst} {built : Built} {e : Cst × Node} (h : bodyEntry r c built = some e) :
    e ∈ built := by
  rcases Option.or_eq_some_iff.mp h with he | ⟨-, he⟩
  · exact mem_of_slotEntry he
  · exact List.mem_reverse.mp (List.mem_of_find?_eq_some he)

/-! ## The node that is made -/

/-- The trees of the named children of a node at a place stand right below it, each in a place of its own. -/
structure Placed (place : List Nat) (built : Built) : Prop where
  nodup : (built.map (·.2.id)).Nodup
  below : ∀ e ∈ built, ∃ k, e.2.id = .place (k :: place)

/-- Entries of one identity are the same. -/
theorem Placed.eq_of_id {place : List Nat} {built : Built} (h : Placed place built) {d e : Cst × Node} (hd : d ∈ built)
    (he : e ∈ built) (hid : d.2.id = e.2.id) : d = e :=
  List.inj_on_of_nodup_map h.nodup hd he hid

/-- So the child with the identity of an entry is the tree of that entry. -/
theorem Placed.find?_id {place : List Nat} {built : Built} (h : Placed place built) {e : Cst × Node} (he : e ∈ built) :
    (built.map (·.2)).find? (·.id = e.2.id) = some e.2 := by
  have hsome : ((built.map (·.2)).find? (·.id = e.2.id)).isSome = true := by
    rw [List.find?_isSome]
    exact ⟨e.2, List.mem_map_of_mem he, decide_eq_true rfl⟩
  obtain ⟨n, hn⟩ := Option.isSome_iff_exists.mp hsome
  obtain ⟨d, hd, rfl⟩ := List.mem_map.mp (List.mem_of_find?_eq_some hn)
  have hid : d.2.id = e.2.id := by simpa using List.find?_some hn
  rw [hn, h.eq_of_id hd he hid]

theorem id_toTree (r : Rules) (place : List Nat) (c : Cst) : (toTree r place c).id = .place place := by
  rw [toTree_eq, id_makeNode]

theorem placed_builtFor (r : Rules) (place : List Nat) (c : Cst) : Placed place (builtFor r place c) where
  nodup := by
    have hids : (builtFor r place c).map (·.2.id) =
        (c.namedChildren.zipIdx.map (·.2)).map fun k => NodeId.place (k :: place) := by
      rw [builtFor, namedTrees_eq, List.map_map, List.map_map]
      exact List.map_congr_left fun e _ => id_toTree r _ e.1
    rw [hids, List.zipIdx_map_snd]
    refine List.Nodup.map (fun j k h => ?_) List.nodup_range'
    exact (List.cons.inj (NodeId.place.inj h)).1
  below e he := by
    obtain ⟨-, -, k, hk⟩ := exists_of_mem_builtFor he
    exact ⟨k, by rw [hk, id_toTree]⟩

section Make

variable {r : Rules} {place : List Nat} {c : Cst} {built : Built}

theorem makeNode_conditional (hk : r.kindOf c.nodeType = .conditional) :
    makeNode r place c built = conditionalNode r place c built := by
  rw [makeNode, hk]

/-- Without clauses to be chained, a conditional keeps its children. -/
theorem conditionalNode_unchained (h : isChained r built = false) :
    conditionalNode r place c built =
      { plainNode r place c built with condition := conditionOf c built, elseBranch := elseOf r c built } := by
  have hno : ¬ built.any (r.elseIfTypes.contains ·.1.nodeType) = true := by
    rw [show built.any _ = false from h]
    decide
  rw [conditionalNode]
  exact if_neg hno

theorem exists_chainClauses {clauses : List Node} (h : clauses ≠ []) : ∃ tail, chainClauses clauses = some tail := by
  obtain ⟨n, ns, rfl⟩ := List.exists_cons_of_ne_nil h
  rw [chainClauses]
  cases chainClauses ns with
  | none => exact ⟨_, rfl⟩
  | some tail => exact ⟨_, rfl⟩

/-- With clauses, these are below the first of them, which is the last child and the else branch. -/
theorem conditionalNode_chained (place : List Nat) (c : Cst) (h : isChained r built = true) :
    ∃ tail, chainClauses ((built.filter (isClause r ·.1)).map (·.2)) = some tail ∧
      conditionalNode r place c built =
        { plainNode r place c built with
          condition := conditionOf c built
          children := (built.filter (!isClause r ·.1)).map (·.2) ++ [tail]
          elseBranch := some tail.id } := by
  have hsome : (built.filter (isClause r ·.1)).map (·.2) ≠ [] := by
    obtain ⟨e, he, helse⟩ := List.any_eq_true.mp h
    have hclause : isClause r e.1 = true := by rw [isClause, helse, Bool.true_or]
    exact List.ne_nil_of_mem (List.mem_map_of_mem (List.mem_filter.mpr ⟨he, hclause⟩))
  obtain ⟨tail, htail⟩ := exists_chainClauses hsome
  refine ⟨tail, htail, ?_⟩
  rw [isChained] at h
  rw [conditionalNode]
  dsimp only
  rw [if_pos h, htail]

/-- What a conditional has in its slots, whether its clauses are chained or not. -/
theorem slots_conditionalNode (r : Rules) (place : List Nat) (c : Cst) (built : Built) :
    (conditionalNode r place c built).kind = r.kindOf c.nodeType ∧
      (conditionalNode r place c built).line = c.line + 1 ∧
      (conditionalNode r place c built).condition = conditionOf c built ∧
      (conditionalNode r place c built).HasSlot (conditionalNode r place c built).elseBranch ∧
      (conditionalNode r place c built).elseBranch.isSome = hasElse r c built ∧
      (conditionalNode r place c built).body = none ∧ (conditionalNode r place c built).cases = [] := by
  cases h : isChained r built with
  | false =>
    rw [conditionalNode_unchained h]
    refine ⟨rfl, rfl, rfl, (wellSlotted_unchained r place c built).elseBranch, ?_, rfl, rfl⟩
    rw [hasElse, h, Bool.false_or, elseOf, slotOf_eq]
    split_ifs
    · rw [Option.isSome_map]
    · rw [Option.isSome_map, List.isSome_find?]
  | true =>
    obtain ⟨tail, -, heq⟩ := conditionalNode_chained place c h
    rw [heq]
    refine ⟨rfl, rfl, rfl, ?_, ?_, rfl, rfl⟩
    · rintro id hid
      exact ⟨tail, List.mem_append_right _ List.mem_cons_self, Option.some.inj hid⟩
    · rw [hasElse, h]
      rfl

theorem kind_makeNode (r : Rules) (place : List Nat) (c : Cst) (built : Built) :
    (makeNode r place c built).kind = r.kindOf c.nodeType := by
  unfold makeNode
  split
  · exact (slots_conditionalNode r place c built).1
  all_goals rfl

theorem line_makeNode (r : Rules) (place : List Nat) (c : Cst) (built : Built) :
    (makeNode r place c built).line = c.line + 1 := by
  unfold makeNode
  split
  · exact (slots_conditionalNode r place c built).2.1
  all_goals rfl

theorem operator_makeNode (hk : r.kindOf c.nodeType = .binaryOperator) :
    (makeNode r place c built).operator = operatorOf c := by
  rw [makeNode, hk]

theorem elseBranch_makeNode (hk : r.kindOf c.nodeType = .conditional) :
    (makeNode r place c built).elseBranch.isSome = hasElse r c built := by
  rw [makeNode_conditional hk]
  exact (slots_conditionalNode r place c built).2.2.2.2.1

theorem body_makeNode (hk : r.kindOf c.nodeType = .handler) :
    (makeNode r place c built).body = (bodyEntry r c built).map (·.2.id) := by
  rw [makeNode, hk, ← bodyOf_eq]

/-! ### Flaws -/

/-- The identity of the first clause of a chain: a lone clause keeps its own. -/
theorem id_chainClauses {n tail : Node} {ns : List Node} (h : chainClauses (n :: ns) = some tail) :
    tail.id = if ns = [] then n.id else n.id.chain := by
  rw [chainClauses] at h
  cases ns with
  | nil =>
    obtain rfl := Option.some.inj h
    rfl
  | cons m ms =>
    obtain ⟨rest, hrest⟩ := exists_chainClauses (List.cons_ne_nil m ms)
    rw [hrest] at h
    obtain rfl := Option.some.inj h
    rfl

/-- A condition that is a clause is still a child only if there is no other clause. -/
theorem isStray_condition (hp : Placed place built) {e : Cst × Node} (he : e ∈ built) {tail n : Node}
    (htail : chainClauses ((built.filter (isClause r ·.1)).map (·.2)) = some tail)
    (hn : n.children = (built.filter (!isClause r ·.1)).map (·.2) ++ [tail]) :
    n.isStray (some e.2.id) = (isClause r e.1 && (built.filter (isClause r ·.1)).length ≠ 1) := by
  cases hclause : isClause r e.1 with
  | false =>
    have hother : e ∈ built.filter (!isClause r ·.1) := List.mem_filter.mpr ⟨he, by rw [hclause]; rfl⟩
    refine Node.HasSlot.isStray ?_
    rintro id ⟨⟩
    exact ⟨e.2, hn ▸ List.mem_append_left _ (List.mem_map_of_mem hother), rfl⟩
  | true =>
    have hmem : e ∈ built.filter (isClause r ·.1) := List.mem_filter.mpr ⟨he, hclause⟩
    obtain ⟨first, others, hfilter⟩ := List.exists_cons_of_ne_nil (List.ne_nil_of_mem hmem)
    rw [hfilter, List.map_cons] at htail
    have hid := id_chainClauses htail
    rw [hfilter] at hmem ⊢
    cases others with
    | nil =>
      obtain rfl := List.mem_singleton.mp hmem
      refine Node.HasSlot.isStray ?_
      rintro id ⟨⟩
      exact ⟨tail, hn ▸ List.mem_append_right _ List.mem_cons_self, hid⟩
    | cons second others =>
      -- the clauses have new identities, and no other child has the old one
      have hnone : ∀ m ∈ n.children, m.id ≠ e.2.id := by
        intro m hm
        rw [hn] at hm
        obtain ⟨k, hk⟩ := hp.below e he
        rcases List.mem_append.mp hm with hm | hm
        · obtain ⟨d, hd, rfl⟩ := List.mem_map.mp hm
          obtain ⟨hd, hno⟩ := List.mem_filter.mp hd
          intro heq
          rw [hp.eq_of_id hd he heq, hclause] at hno
          cases hno
        · obtain rfl := List.mem_singleton.mp hm
          obtain ⟨j, hj⟩ := hp.below first (List.mem_filter.mp (hfilter ▸ List.mem_cons_self)).1
          rw [hid, if_neg (by simp), hk, hj]
          simp [NodeId.chain]
      have hany : n.children.any (·.id = e.2.id) = false := by
        refine List.any_eq_false.mpr fun m hm => ?_
        simpa using hnone m hm
      rw [Node.isStray, hany]
      simp

/-- What is wrong with the node that is made for a concrete node, without identities. -/
def flawOf (r : Rules) (c : Cst) (built : Built) : Option Flaw :=
  match r.kindOf c.nodeType with
  | .handler => if (bodyEntry r c built).isNone then some .noBody else none
  | .conditional => if isTorn r c built then some .strayCondition else none
  | .binaryOperator => if (operatorOf c).getD "" = "" then some .noOperator else none
  | _ => none

theorem flaw?_conditionalNode (hk : r.kindOf c.nodeType = .conditional) (hp : Placed place built) {e : Cst × Node}
    (he : conditionEntry c built = some e) :
    (conditionalNode r place c built).flaw? = if isTorn r c built then some .strayCondition else none := by
  obtain ⟨hkind, -, hcondition, helse, -, hbody, hcases⟩ :=
    slots_conditionalNode r place c built
  rw [conditionOf_eq he] at hcondition
  rw [Node.flaw?_of_conditional (hkind.trans hk) (by simp [hcondition]) helse hbody hcases, hcondition]
  suffices hstray : (conditionalNode r place c built).isStray (some e.2.id) = isTorn r c built by rw [hstray]
  rw [isTorn, he, Option.any_some]
  cases h : isChained r built with
  | false =>
    rw [conditionalNode_unchained h, Bool.false_and, Bool.false_and, ← conditionOf_eq he]
    exact (wellSlotted_unchained r place c built).condition.isStray
  | true =>
    obtain ⟨tail, htail, heq⟩ := conditionalNode_chained place c h
    rw [Bool.true_and]
    exact isStray_condition hp (mem_of_slotEntry he) htail (by rw [heq])

/-- **The flaw of a node that is made**, if its condition is found when it is a conditional. -/
theorem flaw?_makeNode (hp : Placed place built)
    (hcondition : r.kindOf c.nodeType = .conditional → ∃ e, conditionEntry c built = some e) :
    (makeNode r place c built).flaw? = flawOf r c built := by
  by_cases hk : r.kindOf c.nodeType = .conditional
  · obtain ⟨e, he⟩ := hcondition hk
    rw [makeNode_conditional hk, flaw?_conditionalNode hk hp he, flawOf, hk]
  · rw [(wellSlotted_made place built hk).1.flaw?_eq, kind_makeNode, flawOf]
    cases hkind : r.kindOf c.nodeType with
    | conditional => exact absurd hkind hk
    | handler =>
      rw [body_makeNode hkind]
      cases bodyEntry r c built <;> simp
    | binaryOperator =>
      rw [operator_makeNode hkind]
      simp
    | _ => simp

/-- The score of a handler is that of the child that is its body. -/
theorem handlerScore_makeNode (hk : r.kindOf c.nodeType = .handler) (hp : Placed place built) :
    (makeNode r place c built).handlerScore =
      match bodyEntry r c built with
      | none => .error ⟨.handler, .noBody, c.line + 1, none⟩
      | some e => e.2.bodyScore.map (1 + ·) := by
  have hkind := (kind_makeNode r place c built).trans hk
  have hne : r.kindOf c.nodeType ≠ .conditional := by
    rw [hk]
    decide
  rw [Node.handlerScore, if_neg (not_not.mpr hkind), flaw?_makeNode hp fun h => absurd h hne, flawOf, hk,
    body_makeNode hk]
  cases he : bodyEntry r c built with
  | none =>
    simp [Node.malformed, hkind, line_makeNode]
  | some e =>
    have hchild : (makeNode r place c built).child? e.2.id = some e.2 := by
      rw [Node.child?, (wellSlotted_made place built hne).2]
      exact hp.find?_id (mem_of_bodyEntry he)
    simp [hchild]

/-! ### Clauses -/

/-- What a clause that is made at a depth has in its slots. -/
structure Hangable (depth : Nat) (n : Node) : Prop where
  kind : n.kind = .conditional ∨ n.kind = .other
  level : n.id.path.length = depth
  /-- The condition is further down than anything that is hung below the clause. -/
  condition : ∀ id, n.condition = some id → id.path.length ≠ depth
  elseBranch : n.HasSlot n.elseBranch
  body : n.body = none
  cases : n.cases = []

theorem hangable_makeNode (hk : r.kindOf c.nodeType = .conditional ∨ r.kindOf c.nodeType = .other)
    (hp : Placed place built) : Hangable place.length (makeNode r place c built) := by
  have hdepth : (makeNode r place c built).id.path.length = place.length := by
    rw [id_makeNode]
    rfl
  have hkind : (makeNode r place c built).kind = .conditional ∨ (makeNode r place c built).kind = .other := by
    rw [kind_makeNode]
    exact hk
  rcases hk with hk | hk
  · obtain ⟨-, -, hcondition, helse, -, hbody, hcases⟩ :=
      slots_conditionalNode r place c built
    rw [makeNode_conditional hk] at hdepth hkind ⊢
    refine ⟨hkind, hdepth, ?_, helse, hbody, hcases⟩
    intro id hid
    obtain ⟨e, he, rfl⟩ := exists_of_conditionOf (hcondition.symm.trans hid)
    obtain ⟨k, hk⟩ := hp.below e he
    rw [hk]
    simp [NodeId.path]
  · rw [show makeNode r place c built = plainNode r place c built by rw [makeNode, hk]] at hdepth hkind ⊢
    exact ⟨hkind, hdepth, fun _ h => (by cases h), Node.hasSlot_none _, rfl, rfl⟩

end Make

section Chain

variable {depth : Nat}

/-- Hanging something below a clause does not change what is wrong with it. -/
theorem flaw?_hang {n tail : Node} (h : Hangable depth n) (ht : tail.id.path.length = depth) :
    (hang n tail).flaw? = n.flaw? := by
  have hcondition : (hang n tail).isStray n.condition = n.isStray n.condition := by
    cases hc : n.condition with
    | none => rfl
    | some id =>
      have hne : tail.id ≠ id := by
        rintro rfl
        exact h.condition _ hc ht
      simp [Node.isStray, hang, hne]
  have helse : (hang n tail).isStray (some tail.id) = false := by simp [Node.isStray, hang]
  have hnone : ∀ m : Node, m.isStray none = false := fun _ => rfl
  unfold Node.flaw?
  simp only [show (hang n tail).kind = n.kind from rfl, show (hang n tail).condition = n.condition from rfl,
    show (hang n tail).elseBranch = some tail.id from rfl, show (hang n tail).body = n.body from rfl,
    show (hang n tail).operator = n.operator from rfl, show (hang n tail).cases = n.cases from rfl, h.body, h.cases,
    hcondition, helse, hnone, h.elseBranch.isStray, if_true]

theorem level_chainClauses {ns : List Node} {tail : Node} (hns : ∀ n ∈ ns, Hangable depth n)
    (h : chainClauses ns = some tail) : tail.id.path.length = depth := by
  cases ns with
  | nil => cases h
  | cons n ns =>
    have hlevel := (hns n List.mem_cons_self).level
    rw [id_chainClauses h]
    split_ifs
    · exact hlevel
    · rw [NodeId.path_chain, hlevel]

/-- Two clauses that are alike, with something hung below each that has the same weights and scores. -/
theorem hang_alike {depth' : Nat} {n n' tail tail' : Node} (h : n.Alike n') (hn : Hangable depth n)
    (hn' : Hangable depth' n') (ht : tail.id.path.length = depth) (ht' : tail'.id.path.length = depth')
    (hweights : tail'.weights = tail.weights) (hscores : tail'.scores = tail.scores) :
    (hang n' tail').weights = (hang n tail).weights ∧ (hang n' tail').scores = (hang n tail).scores := by
  have hkind : (hang n' tail').kind = (hang n tail).kind := h.kind
  have hchildren : ∀ (m t : Node), (hang m t).children = m.children ++ [t] := fun _ _ => rfl
  have hchecked : (hang n' tail').checkedWeight = (hang n tail).checkedWeight := by
    have hweight : (hang n' tail').weight = (hang n tail).weight := by
      refine Node.weight_congr hkind (fun hop => ?_) fun _ => rfl
      rcases hn.kind with hk | hk
      · cases hk.symm.trans hop
      · cases hk.symm.trans hop
    unfold Node.checkedWeight Node.malformed
    rw [flaw?_hang hn ht, flaw?_hang hn' ht', h.flaw, hweight, hkind,
      show (hang n' tail').line = (hang n tail).line from h.line]
  have hno : (hang n tail).kind ≠ .handler := by
    show n.kind ≠ .handler
    rcases hn.kind with hk | hk <;> rw [hk] <;> decide
  constructor
  · rw [Node.weights_eq, Node.weights_eq (hang n tail), hchecked, hchildren, hchildren, List.flatMap_append,
      List.flatMap_append, h.weightsBelow, List.flatMap_singleton, List.flatMap_singleton, hweights]
  · rw [Node.scores_eq, Node.scores_eq (hang n tail), hkind, if_neg hno, if_neg hno, hchildren, hchildren,
      List.flatMap_append, List.flatMap_append, h.scoresBelow, List.flatMap_singleton, List.flatMap_singleton, hscores]

/-- **Chains of clauses** that are alike one by one have the same weights and scores. -/
theorem chain_alike {depth' : Nat} {ns ns' : List Node} (h : List.Forall₂ Node.Alike ns ns')
    (hns : ∀ n ∈ ns, Hangable depth n) (hns' : ∀ n ∈ ns', Hangable depth' n) {tail tail' : Node}
    (ht : chainClauses ns = some tail) (ht' : chainClauses ns' = some tail') :
    tail'.weights = tail.weights ∧ tail'.scores = tail.scores := by
  induction h generalizing tail tail' with
  | nil => cases ht
  | @cons n n' ns ns' hn hrest ih =>
    rw [List.forall_mem_cons] at hns hns'
    rw [chainClauses] at ht ht'
    cases hrest with
    | nil =>
      obtain rfl := Option.some.inj ht
      obtain rfl := Option.some.inj ht'
      exact ⟨hn.weights, hn.scores⟩
    | @cons m m' ms ms' hm hms =>
      obtain ⟨t, htail⟩ := exists_chainClauses (List.cons_ne_nil m ms)
      obtain ⟨t', htail'⟩ := exists_chainClauses (List.cons_ne_nil m' ms')
      rw [htail] at ht
      rw [htail'] at ht'
      obtain rfl := Option.some.inj ht
      obtain rfl := Option.some.inj ht'
      obtain ⟨hweights, hscores⟩ := ih hns.2 hns'.2 htail htail'
      exact hang_alike hn hns.1 hns'.1 (level_chainClauses hns.2 htail) (level_chainClauses hns'.2 htail') hweights
        hscores

end Chain

end HandlerComplexity
