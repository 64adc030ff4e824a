import HandlerComplexity.Proofs.Score
import HandlerComplexity.Tree.Table
import Mathlib.Data.Fintype.EquivFin
import Mathlib.Logic.Relation

/-!
# Walks over graphs

Nodes refer to their children, and several nodes may refer to one. A graph without cycles unfolds into trees, and the
walk with a stack of references visits the tree of its root in preorder, a shared node once for each way that leads to
it.

* `NodeRow.Acyclic`, `NodeRow.IsUnfolding`: graphs without cycles, and their trees; `NodeRow.exists_isUnfolding`.
* `NodeRow.Visit.turn`: one turn of the loop. `NodeRow.Visit.Sound`: what is on the stack is what remains of the
  preorder, kept by every turn (`NodeRow.Visit.Sound.turn`).
* `Node.next?`, `Node.Session`: nodes of one kind, asked for one by one in several iterations at once.
* `Node.classScore_of_children`: the score of a node that is no handler, from those of its children.
* `NodeRow.walk_visits_preorder`: all of it for the nodes of a graph.
-/

namespace HandlerComplexity

/-! ## Graphs and their trees -/

namespace NodeRow

/-- The references of a row to its children. -/
def childrenOf (rows : List NodeRow) (i : Nat) : List Nat := (rows[i]?.map (·.children)).getD []

/-- No way along the references leads back to where it began. -/
def Acyclic (rows : List NodeRow) : Prop :=
  ∀ i, ¬ Relation.TransGen (fun c i => c ∈ childrenOf rows i) i i

/-- Every reference leads to a row. -/
def Closed (rows : List NodeRow) : Prop := ∀ i, ∀ c ∈ childrenOf rows i, c < rows.length

/-- Every row comes after its children. -/
def ChildrenFirst (rows : List NodeRow) : Prop := ∀ i, ∀ c ∈ childrenOf rows i, c < i

/-- Each row has a tree, and its children are the trees of the rows that it refers to, once per reference. -/
def IsUnfolding (rows : List NodeRow) (tree : Nat → Node) : Prop :=
  ∀ i row, rows[i]? = some row → tree i = { row.toNode i #[] with children := row.children.map tree }

section Graph

variable {rows : List NodeRow}

theorem childrenOf_of_some {i : Nat} {row : NodeRow} (h : rows[i]? = some row) : childrenOf rows i = row.children := by
  rw [childrenOf, h]
  rfl

theorem lt_of_mem_childrenOf {c i : Nat} (h : c ∈ childrenOf rows i) : i < rows.length := by
  by_contra hi
  rw [childrenOf, List.getElem?_eq_none (not_lt.mp hi)] at h
  exact absurd h List.not_mem_nil

/-- A table in which every row comes after its children has no cycles. -/
theorem ChildrenFirst.acyclic (h : ChildrenFirst rows) : Acyclic rows := by
  have hlt : ∀ c i, Relation.TransGen (fun c i => c ∈ childrenOf rows i) c i → c < i := by
    intro c i hway
    induction hway with
    | single hc => exact h _ _ hc
    | tail _ hc ih => exact ih.trans (h _ _ hc)
  exact fun i hway => lt_irrefl i (hlt i i hway)

theorem ChildrenFirst.closed (h : ChildrenFirst rows) : Closed rows :=
  fun i c hc => (h i c hc).trans (lt_of_mem_childrenOf hc)

/-- In a finite graph without cycles, going down ends. Only the rows of the table have children, so it is enough to go
down among these, which are finitely many. -/
theorem Acyclic.wellFounded (hacyclic : Acyclic rows) (hclosed : Closed rows) :
    WellFounded fun c i => c ∈ childrenOf rows i := by
  let below (c i : Fin rows.length) : Prop := Relation.TransGen (fun c i => c ∈ childrenOf rows i) c.1 i.1
  have : IsTrans _ below := ⟨fun _ _ _ h h' => h.trans h'⟩
  have : Std.Irrefl below := ⟨fun i => hacyclic i.1⟩
  have hbelow : WellFounded below := Finite.wellFounded_of_trans_of_irrefl below
  have hrow : ∀ i : Fin rows.length, Acc (fun c i => c ∈ childrenOf rows i) i.1 := by
    intro i
    induction i using hbelow.induction with
    | h i ih => exact .intro _ fun c hc => ih ⟨c, hclosed i.1 c hc⟩ (.single hc)
  exact ⟨fun i => .intro _ fun c hc => hrow ⟨c, hclosed i c hc⟩⟩

/-- A finite graph without cycles has trees. -/
theorem exists_isUnfolding (hacyclic : Acyclic rows) (hclosed : Closed rows) : ∃ tree, IsUnfolding rows tree := by
  have hwf := hacyclic.wellFounded hclosed
  let build (i : Nat) (below : ∀ c, c ∈ childrenOf rows i → Node) : Node :=
    { (rows[i]?.getD { kind := .other }).toNode i #[] with
      children := (childrenOf rows i).attach.map fun c => below c.1 c.2 }
  refine ⟨hwf.fix build, fun i row hrow => ?_⟩
  rw [hwf.fix_eq]
  simp only [build, List.map_subtype, List.unattach_attach, childrenOf_of_some hrow, hrow, Option.getD_some]

/-- A table in which every row comes after its children is unfolded row by row. -/
theorem unfold_eq {tree : Nat → Node} (htree : IsUnfolding rows tree) (hfirst : ChildrenFirst rows) :
    unfold rows = ((List.range rows.length).map tree).toArray := by
  suffices hprefix : ∀ m ≤ rows.length, unfold (rows.take m) = ((List.range m).map tree).toArray by
    simpa using hprefix rows.length le_rfl
  intro m
  induction m with
  | zero => intro _; rfl
  | succ m ih =>
    intro hm
    have hrow : rows[m]? = some rows[m] := List.getElem?_eq_getElem hm
    have hbuilt : unfold (rows.take (m + 1)) =
        (unfold (rows.take m)).push (rows[m].toNode (unfold (rows.take m)).size (unfold (rows.take m))) := by
      rw [List.take_succ_eq_append_getElem hm, unfold, List.foldl_append]
      rfl
    have hchildren : rows[m].children.filterMap (((List.range m).map tree).toArray[·]?) =
        rows[m].children.map tree := by
      rw [← List.filterMap_eq_map]
      refine List.filterMap_congr fun c hc => ?_
      have hc' : c < m := hfirst m c (childrenOf_of_some hrow ▸ hc)
      simp [hc']
    rw [hbuilt, ih (Nat.le_of_succ_le hm), List.range_succ, List.map_append, List.map_singleton, htree m _ hrow]
    simp only [toNode, List.size_toArray, List.length_map, List.length_range, hchildren, List.push_toArray]

end Graph

/-! ## The loop over references -/

/-- A walk on its way: the references visited so far, and those that wait on the stack, the next one last. -/
structure Visit where
  seen : List Nat := []
  stack : List Nat

namespace Visit

/-- One turn of the loop: the reference at the end of the stack is taken off and visited, and its children are put
there in reverse order. Nothing happens once the stack is empty. -/
def turn (rows : List NodeRow) (v : Visit) : Visit :=
  match v.stack.getLast? with
  | none => v
  | some i => ⟨v.seen ++ [i], v.stack.dropLast ++ (childrenOf rows i).reverse⟩

/-- The walk from a root after a number of turns. -/
def after (rows : List NodeRow) (root turns : Nat) : Visit := (turn rows)^[turns] { stack := [root] }

section Loop

variable {rows : List NodeRow} {tree : Nat → Node}

/-- What is visited and what remains are together the preorder, and no turn is lost before the end. -/
structure Sound (rows : List NodeRow) (tree : Nat → Node) (nodes : List Node) (turns : Nat) (v : Visit) : Prop where
  split : v.seen.map tree ++ Node.preorderAll (v.stack.reverse.map tree) = nodes
  inside : ∀ i ∈ v.stack, i < rows.length
  count : v.seen.length = turns ∨ v.stack = [] ∧ v.seen.length ≤ turns

theorem Sound.turn (htree : IsUnfolding rows tree) (hclosed : Closed rows) {nodes : List Node} {turns : Nat} {v : Visit}
    (h : Sound rows tree nodes turns v) : Sound rows tree nodes (turns + 1) (v.turn rows) := by
  obtain ⟨hsplit, hinside, hcount⟩ := h
  rcases List.eq_nil_or_concat v.stack with hnil | ⟨stack, i, hstack⟩
  · have hsame : v.turn rows = v := by rw [Visit.turn, hnil]; rfl
    rw [hsame]
    exact ⟨hsplit, hinside, .inr ⟨hnil, by omega⟩⟩
  · have hturn : v.turn rows = ⟨v.seen ++ [i], stack ++ (childrenOf rows i).reverse⟩ := by
      rw [Visit.turn, hstack]
      simp
    have hrow := List.getElem?_eq_getElem (hinside i (by simp [hstack]))
    rw [hturn]
    constructor
    · -- the first of what remains is the node itself, the next are the preorders of its children
      have hnode : (tree i).children = (childrenOf rows i).map tree := by
        rw [htree i _ hrow, childrenOf_of_some hrow]
      rw [← hsplit, hstack]
      simp only [List.concat_eq_append, List.reverse_append, List.reverse_reverse, List.map_append, List.map_cons,
        List.map_nil, List.reverse_singleton, List.nil_append, Node.preorderAll, Node.preorder_eq (tree i), hnode,
        Node.preorderAll_append, List.append_assoc, List.cons_append]
    · intro j hj
      rcases List.mem_append.mp hj with hj | hj
      · exact hinside j (by simp [hstack, hj])
      · exact hclosed i j (List.mem_reverse.mp hj)
    · left
      rcases hcount with hcount | ⟨hnil, -⟩
      · simp [hcount]
      · simp [hstack] at hnil

theorem sound_after (htree : IsUnfolding rows tree) (hclosed : Closed rows) {root : Nat} (hroot : root < rows.length)
    (turns : Nat) : Sound rows tree (tree root).preorder turns (after rows root turns) := by
  induction turns with
  | zero =>
    refine ⟨?_, ?_, .inl rfl⟩
    · simp [after, Node.preorderAll]
    · simpa [after] using hroot
  | succ turns ih =>
    rw [after, Function.iterate_succ_apply']
    exact ih.turn htree hclosed

/-- **The loop visits the preorder**: after some turns, as many of its nodes as there were turns, until all have been
visited, and then the stack is empty. -/
theorem after_eq_take (htree : IsUnfolding rows tree) (hclosed : Closed rows) {root : Nat} (hroot : root < rows.length)
    (turns : Nat) :
    (after rows root turns).seen.map tree = (tree root).preorder.take turns ∧
      ((after rows root turns).stack = [] ↔ (tree root).preorder.length ≤ turns) := by
  obtain ⟨hsplit, -, hcount⟩ := sound_after htree hclosed hroot turns
  generalize after rows root turns = v at hsplit hcount ⊢
  have hend : v.stack = [] → (tree root).preorder = v.seen.map tree := by
    intro hnil
    rw [← hsplit, hnil]
    simp [Node.preorderAll]
  have hrest : v.stack ≠ [] → v.seen.length < (tree root).preorder.length := by
    intro hne
    obtain ⟨stack, i, hstack⟩ := (List.eq_nil_or_concat v.stack).resolve_left hne
    rw [← hsplit, hstack]
    simp [Node.preorderAll, Node.preorder_eq (tree i)]
  by_cases hnil : v.stack = []
  · have hlength := congrArg List.length (hend hnil)
    rw [List.length_map] at hlength
    rw [hend hnil, List.take_of_length_le (by rw [List.length_map]; omega), List.length_map]
    exact ⟨rfl, fun _ => by omega, fun _ => hnil⟩
  · have hturns : v.seen.length = turns := hcount.resolve_right fun h => hnil h.1
    have hlt := hrest hnil
    refine ⟨?_, fun h => absurd h hnil, fun hle => by omega⟩
    rw [← hsplit, List.take_append_of_le_length (by rw [List.length_map, hturns]), ← hturns, ← List.length_map tree,
      List.take_length]

end Loop

end Visit

end NodeRow

/-! ## Nodes of one kind, one by one -/

namespace Node

/-- The next node of a kind that an iteration gives, with what is left on its stack. -/
def next? (k : Kind) : List Node → Option (Node × List Node)
  | [] => none
  | n :: stack => if n.kind = k then some (n, n.children ++ stack) else next? k (n.children ++ stack)
termination_by stack => sizeAll stack
decreasing_by
  rw [sizeAll_append, sizeAll, size_eq]; omega

/-- What an iteration gives is the first of what remains of its kind. -/
theorem next?_eq (k : Kind) (stack : List Node) :
    (∀ n rest, next? k stack = some (n, rest) →
        (preorderAll stack).filter (·.kind = k) = n :: (preorderAll rest).filter (·.kind = k)) ∧
      (next? k stack = none → (preorderAll stack).filter (·.kind = k) = []) := by
  fun_induction next? k stack with
  | case1 =>
    refine ⟨fun n rest h => ?_, fun _ => rfl⟩
    cases h
  | case2 n stack hk =>
    refine ⟨fun m rest h => ?_, fun h => nomatch h⟩
    cases h
    rw [preorderAll, preorder_eq, List.cons_append, List.filter_cons_of_pos (by simpa using hk), preorderAll_append]
  | case3 n stack hk ih =>
    have hskip : (preorderAll (n :: stack)).filter (·.kind = k) =
        (preorderAll (n.children ++ stack)).filter (·.kind = k) := by
      rw [preorderAll, preorder_eq, List.cons_append, List.filter_cons_of_neg (by simpa using hk), preorderAll_append]
    rw [hskip]
    exact ih

/-- What can be done with the nodes of one kind below a root: begin an iteration, or ask one for its next node. -/
inductive Call
  | start
  | ask (iteration : Nat)
deriving DecidableEq

/-- Several iterations over the same nodes. -/
structure Session where
  /-- What is left on the stack of each iteration, in the order in which they were begun. -/
  pending : List (List Node) := []
  /-- The answers so far: which iteration was asked, and the node it gave, none if it was at its end. -/
  answers : List (Nat × Option Node) := []

namespace Session

/-- Every iteration begins at the root. One that has not been begun gives no answer. -/
def call (root : Node) (k : Kind) (s : Session) : Call → Session
  | .start => { s with pending := s.pending ++ [[root]] }
  | .ask i =>
    match s.pending[i]? with
    | none => s
    | some stack =>
      match next? k stack with
      | none => ⟨s.pending.set i [], s.answers ++ [(i, none)]⟩
      | some (n, rest) => ⟨s.pending.set i rest, s.answers ++ [(i, some n)]⟩

def run (root : Node) (k : Kind) (calls : List Call) : Session := calls.foldl (call root k) {}

/-- The answers of one iteration. -/
def answersOf (s : Session) (i : Nat) : List (Option Node) := (s.answers.filter (·.1 = i)).map (·.2)

/-- Every iteration has given the first of the nodes, in order, and the others are still on its stack. -/
structure Sound (k : Kind) (nodes : List Node) (s : Session) : Prop where
  given : ∀ (i j : Nat) a, (s.answersOf i)[j]? = some a → a = nodes[j]?
  left : ∀ i stack, s.pending[i]? = some stack →
    (preorderAll stack).filter (·.kind = k) = nodes.drop (s.answersOf i).length
  unbegun : ∀ i, s.pending.length ≤ i → s.answersOf i = []

theorem answersOf_concat (s : Session) (pending : List (List Node)) (i j : Nat) (a : Option Node) :
    answersOf ⟨pending, s.answers ++ [(i, a)]⟩ j = s.answersOf j ++ if i = j then [a] else [] := by
  simp only [answersOf, List.filter_append, List.map_append, List.filter_singleton]
  by_cases h : i = j
  · simp [h]
  · simp [h]

/-- An answer that is the next of the nodes leaves the session sound. -/
theorem Sound.answer {k : Kind} {nodes : List Node} {s : Session} (h : Sound k nodes s) {i : Nat}
    (hi : i < s.pending.length) {a : Option Node} (ha : a = nodes[(s.answersOf i).length]?) {rest : List Node}
    (hrest : (preorderAll rest).filter (·.kind = k) = nodes.drop ((s.answersOf i).length + 1)) :
    Sound k nodes ⟨s.pending.set i rest, s.answers ++ [(i, a)]⟩ := by
  refine ⟨fun j l b hb => ?_, fun j stack hstack => ?_, fun j hj => ?_⟩
  · rw [answersOf_concat] at hb
    split_ifs at hb with hij
    · subst hij
      rcases Nat.lt_trichotomy l (s.answersOf i).length with hl | rfl | hl
      · rw [List.getElem?_append_left hl] at hb
        exact h.given i l b hb
      · simp only [List.getElem?_concat_length, Option.some.injEq] at hb
        rw [← hb, ha]
      · rw [List.getElem?_eq_none (by simp only [List.length_append, List.length_singleton]; omega)] at hb
        cases hb
    · rw [List.append_nil] at hb
      exact h.given j l b hb
  · rw [answersOf_concat]
    by_cases hij : i = j
    · subst hij
      rw [List.getElem?_set_self hi] at hstack
      cases hstack
      simpa using hrest
    · rw [List.getElem?_set_ne hij] at hstack
      simpa [hij] using h.left j stack hstack
  · rw [List.length_set] at hj
    rw [answersOf_concat, if_neg (by omega), List.append_nil, h.unbegun j hj]

theorem Sound.call {root : Node} {k : Kind} {nodes : List Node} (hnodes : nodes = root.preorder.filter (·.kind = k))
    {s : Session} (h : Sound k nodes s) (c : Call) : Sound k nodes (s.call root k c) := by
  cases c with
  | start =>
    refine ⟨h.given, fun i stack hstack => ?_, fun i hi => h.unbegun i ?_⟩
    · rcases Nat.lt_trichotomy i s.pending.length with hi | rfl | hi
      · exact h.left i stack (by rwa [Session.call, List.getElem?_append_left hi] at hstack)
      · rw [Session.call, List.getElem?_concat_length] at hstack
        cases hstack
        have hnone : s.answersOf s.pending.length = [] := h.unbegun _ le_rfl
        show _ = nodes.drop (s.answersOf s.pending.length).length
        rw [hnone, hnodes]
        simp [preorderAll]
      · have hlength : (s.pending ++ [[root]]).length ≤ i := by
          rw [List.length_append, List.length_singleton]
          omega
        rw [Session.call, List.getElem?_eq_none hlength] at hstack
        cases hstack
    · rw [Session.call, List.length_append] at hi
      omega
  | ask i =>
    rw [Session.call]
    cases hstack : s.pending[i]? with
    | none => exact h
    | some stack =>
      have hi : i < s.pending.length := (List.getElem?_eq_some_iff.mp hstack).1
      have hleft := h.left i stack hstack
      dsimp only
      cases hnext : next? k stack with
      | none =>
        rw [(next?_eq k stack).2 hnext] at hleft
        have hlength : nodes.length ≤ (s.answersOf i).length := List.drop_eq_nil_iff.mp hleft.symm
        refine h.answer hi (List.getElem?_eq_none hlength).symm ?_
        rw [List.drop_of_length_le (by omega)]
        rfl
      | some found =>
        obtain ⟨n, rest⟩ := found
        rw [(next?_eq k stack).1 n rest hnext] at hleft
        refine h.answer hi ?_ ?_
        · rw [← List.head?_drop, ← hleft, List.head?_cons]
        · rw [← List.tail_drop, ← hleft, List.tail_cons]

theorem run_concat (root : Node) (k : Kind) (calls : List Call) (c : Call) :
    run root k (calls ++ [c]) = (run root k calls).call root k c := by
  rw [run, List.foldl_append]
  rfl

theorem length_pending_run (root : Node) (k : Kind) (calls : List Call) :
    (run root k calls).pending.length = calls.count .start := by
  induction calls using List.reverseRecOn with
  | nil => rfl
  | append_singleton calls c ih =>
    rw [run_concat, List.count_append, ← ih]
    cases c with
    | start => simp [call]
    | ask i =>
      rw [call]
      split
      · rfl
      · split <;> simp

/-- An iteration that has been begun answers whenever it is asked. -/
theorem length_answersOf_ask (root : Node) (k : Kind) {calls : List Call} {i : Nat} (hi : i < calls.count .start) :
    ((run root k (calls ++ [.ask i])).answersOf i).length = ((run root k calls).answersOf i).length + 1 := by
  rw [← length_pending_run root k] at hi
  rw [run_concat, call, List.getElem?_eq_getElem hi]
  dsimp only
  split <;> simp [answersOf_concat]

/-- **Every iteration gives the same nodes**, however the calls of several are mixed. -/
theorem sound_run (root : Node) (k : Kind) (calls : List Call) :
    Sound k (root.preorder.filter (·.kind = k)) (run root k calls) := by
  induction calls using List.reverseRecOn with
  | nil =>
    refine ⟨fun i j a h => ?_, fun i stack h => ?_, fun _ _ => rfl⟩
    · cases h
    · cases h
  | append_singleton calls c ih =>
    rw [run_concat]
    exact ih.call rfl c

end Session

theorem descendants_eq (n : Node) (k : Kind) : n.descendants k = n.preorder.filter (·.kind = k) := by
  rw [descendants, nodes_eq_preorder]

theorem countDescendants_eq (n : Node) (k : Kind) :
    n.countDescendants k = (n.preorder.filter (·.kind = k)).length := by
  rw [countDescendants, descendants_eq, List.foldl_add_const, Nat.zero_add, Nat.one_mul]

/-! ## The scores of children -/

theorem sumOver_append (f : Node → Except Malformed Nat) (t : Nat) (ns ms : List Node) :
    sumOver f t (ns ++ ms) = sumOver f t ns >>= fun s => sumOver f s ms := by
  induction ns generalizing t with
  | nil => rfl
  | cons n ns ih =>
    rw [List.cons_append, sumOver, sumOver]
    cases f n with
    | error e => rfl
    | ok v => exact ih _

/-- A running total can be begun at zero and added to what was there. -/
theorem sumOver_eq_map (f : Node → Except Malformed Nat) (t : Nat) (ns : List Node) :
    sumOver f t ns = (sumOver f 0 ns).map (t + ·) := by
  induction ns generalizing t with
  | nil => rfl
  | cons n ns ih =>
    rw [sumOver, sumOver]
    cases f n with
    | error e => rfl
    | ok v =>
      show sumOver f (t + v) ns = (sumOver f (0 + v) ns).map (t + ·)
      rw [ih (t + v), ih (0 + v)]
      cases sumOver f 0 ns with
      | error e => rfl
      | ok s => exact congrArg Except.ok (by show t + v + s = t + (0 + v + s); omega)

/-- A running total over lists put together, from the totals of the lists, up to the first of them that fails. -/
theorem sumOver_flatMap (f : Node → Except Malformed Nat) (g : Node → List Node) (ns : List Node) :
    sumOver f 0 (ns.flatMap g) = (ns.mapM fun n => sumOver f 0 (g n)).map List.sum := by
  induction ns with
  | nil => rfl
  | cons n ns ih =>
    rw [List.flatMap_cons, sumOver_append, List.mapM_cons]
    cases sumOver f 0 (g n) with
    | error e => rfl
    | ok s =>
      show sumOver f s (ns.flatMap g) = _
      rw [sumOver_eq_map, ih]
      cases ns.mapM fun n => sumOver f 0 (g n) with
      | error e => rfl
      | ok scores => rfl

/-- **The score of a node that is no handler** is the sum of those of its children, and fails with the first of them
that fails. -/
theorem classScore_of_children {n : Node} (hk : n.kind ≠ .handler) :
    n.classScore = (n.children.mapM classScore).map List.sum := by
  have hhandlers : n.descendants .handler = n.children.flatMap (descendants · .handler) := by
    rw [descendants_eq, preorder_eq_cons_flatMap, List.filter_cons_of_neg (by simpa using hk), List.filter_flatMap]
    exact List.flatMap_congr fun c _ => (descendants_eq c .handler).symm
  rw [classScore, hhandlers, sumOver_flatMap]
  rfl

end Node

/-! ## Graphs -/

open Node in
/-- **The walk over a graph is the preorder of its tree.** The loop over references visits the nodes of the tree in
preorder and stops after the last of them. The nodes of one kind are those of the preorder that are of this kind, and
every iteration gives them one by one, whenever it is asked; and a node that is no handler has the scores of its
children added up. -/
theorem NodeRow.walk_visits_preorder {rows : List NodeRow} (hclosed : Closed rows) (hacyclic : Acyclic rows) :
    ∃ tree : Nat → Node, IsUnfolding rows tree ∧
      (ChildrenFirst rows → unfold rows = ((List.range rows.length).map tree).toArray) ∧
      ∀ root < rows.length,
        (∀ turns, (Visit.after rows root turns).seen.map tree = (tree root).preorder.take turns ∧
          ((Visit.after rows root turns).stack = [] ↔ (tree root).preorder.length ≤ turns)) ∧
        (tree root).nodes = (tree root).preorder ∧
        (tree root).preorder = tree root :: (childrenOf rows root).flatMap (fun c => (tree c).preorder) ∧
        (∀ k, (tree root).descendants k = (tree root).preorder.filter (·.kind = k) ∧
          (tree root).countDescendants k = ((tree root).preorder.filter (·.kind = k)).length ∧
          ∀ calls (i : Nat),
            (∀ (j : Nat) answer, ((Session.run (tree root) k calls).answersOf i)[j]? = some answer →
              answer = ((tree root).preorder.filter (·.kind = k))[j]?) ∧
            (i < calls.count .start → ((Session.run (tree root) k (calls ++ [.ask i])).answersOf i).length =
              ((Session.run (tree root) k calls).answersOf i).length + 1)) ∧
        ((tree root).kind ≠ .handler →
          (tree root).classScore = ((childrenOf rows root).mapM fun c => (tree c).classScore).map List.sum) := by
  obtain ⟨tree, htree⟩ := exists_isUnfolding hacyclic hclosed
  refine ⟨tree, htree, unfold_eq htree, fun root hroot => ?_⟩
  have hrow := List.getElem?_eq_getElem hroot
  have hchildren : (tree root).children = (childrenOf rows root).map tree := by
    rw [htree root _ hrow, childrenOf_of_some hrow]
  refine ⟨Visit.after_eq_take htree hclosed hroot, nodes_eq_preorder _, ?_, fun k => ?_, fun hk => ?_⟩
  · rw [preorder_eq_cons_flatMap, hchildren, List.flatMap_map]
  · exact ⟨descendants_eq _ k, countDescendants_eq _ k, fun calls i =>
      ⟨(Session.sound_run _ k calls).given i, Session.length_answersOf_ask _ k⟩⟩
  · rw [classScore_of_children hk, hchildren, List.mapM_map]
    rfl

namespace NodeRow

/-- A block that occurs twice in a class, with one return node that occurs twice in the block and once beside it. -/
def sharedBlock : List NodeRow :=
  [{ kind := .returnJump }, { kind := .block, children := [0, 0] }, { kind := .classBody, children := [1, 0, 1] }]

theorem childrenFirst_sharedBlock : ChildrenFirst sharedBlock := by
  have hrows : ∀ i < sharedBlock.length, ∀ c ∈ childrenOf sharedBlock i, c < i := by decide
  exact fun i c hc => hrows i (lt_of_mem_childrenOf hc) c hc

theorem sharedBlock_visits_preorder :
    Closed sharedBlock ∧ Acyclic sharedBlock ∧
      (Visit.after sharedBlock 2 8).seen = [2, 1, 0, 0, 0, 1, 0, 0] ∧
      ∃ tree : Nat → Node, unfold sharedBlock = ((List.range 3).map tree).toArray ∧
        [tree 2, tree 1, tree 0, tree 0, tree 0, tree 1, tree 0, tree 0] = (tree 2).preorder.take 8 ∧
        (tree 2).preorder.length ≤ 8 := by
  have hfirst := childrenFirst_sharedBlock
  obtain ⟨tree, -, hunfold, hwalk⟩ := walk_visits_preorder hfirst.closed hfirst.acyclic
  obtain ⟨hseen, hstack⟩ := (hwalk 2 (by decide)).1 8
  exact ⟨hfirst.closed, hfirst.acyclic, by decide, tree, hunfold hfirst, hseen, hstack.mp (by decide)⟩

end NodeRow

end HandlerComplexity
