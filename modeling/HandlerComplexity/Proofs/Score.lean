import HandlerComplexity.Proofs.Store
import HandlerComplexity.Proofs.Tree
import HandlerComplexity.Tree.Score
import Mathlib.Algebra.BigOperators.Ring.List
import Mathlib.Tactic.Ring

/-!
# Closed forms of the scores

The score of a class is computed by a walk over its handlers with a walk over the body of each. Here it is brought
into the form of one sum over all occurrences of nodes.

* `sumOver_eq_ok_iff`: a running total succeeds iff every member does, and is then the sum of their values.
* `bodyScore_ok`, `handlerScore_ok`, `classScore_ok`: what the scores are when there are any.
* `sum_nesting`: the weights of all nodes, each as often as bodies are entered on the way to it, are the weights of
  all bodies.
* `classScore_eq_handlers_add_nesting`: the closed form, for trees in which no handler has its body twice.
-/

namespace HandlerComplexity

namespace Node

/-! ## Running totals -/

/-- The value of a score, nothing if there is none. -/
def worth : Except Malformed Nat → Nat
  | .ok v => v
  | .error _ => 0

theorem sumOver_eq_ok_iff {f : Node → Except Malformed Nat} {ns : List Node} {t s : Nat} :
    sumOver f t ns = .ok s ↔ (∀ n ∈ ns, ∃ v, f n = .ok v) ∧ s = t + (ns.map fun n => worth (f n)).sum := by
  induction ns generalizing t with
  | nil => simp [sumOver, eq_comm]
  | cons n ns ih =>
    rw [sumOver]
    cases hn : f n with
    | error e => simp [hn]
    | ok v =>
      simp only [ih, List.forall_mem_cons, List.map_cons, List.sum_cons, hn, worth]
      constructor
      · rintro ⟨hall, hs⟩
        exact ⟨⟨⟨v, rfl⟩, hall⟩, by omega⟩
      · rintro ⟨⟨-, hall⟩, hs⟩
        exact ⟨hall, by omega⟩

/-- A running total when the value of every member is known. -/
theorem sumOver_ok {f : Node → Except Malformed Nat} {g : Node → Nat} {ns : List Node} {s : Nat}
    (h : sumOver f 0 ns = .ok s) (hg : ∀ n ∈ ns, ∀ v, f n = .ok v → v = g n) : s = (ns.map g).sum := by
  obtain ⟨hall, hs⟩ := sumOver_eq_ok_iff.mp h
  rw [hs, Nat.zero_add]
  congr 1
  refine List.map_congr_left fun n hn => ?_
  obtain ⟨v, hv⟩ := hall n hn
  rw [hv, ← hg n hn v hv]
  rfl

/-! ## The scores -/

theorem checkedWeight_eq_ok_iff {n : Node} {v : Nat} :
    n.checkedWeight = .ok v ↔ n.flaw? = none ∧ v = n.weight := by
  unfold checkedWeight
  cases n.flaw? with
  | none => simp [eq_comm]
  | some flaw => simp

theorem bodyScore_ok {b : Node} {s : Nat} (h : b.bodyScore = .ok s) : s = b.total weight := by
  rw [bodyScore, nodes_eq_preorder] at h
  exact sumOver_ok h fun n _ v hv => (checkedWeight_eq_ok_iff.mp hv).2

/-- A handler that has a score is well shaped, and its score is one more than that of its body. -/
theorem handlerScore_ok {h : Node} {v : Nat} (hv : h.handlerScore = .ok v) :
    h.kind = .handler ∧ h.flaw? = none ∧
      ∃ id b s, h.body = some id ∧ h.child? id = some b ∧ b.bodyScore = .ok s ∧ v = 1 + s := by
  unfold handlerScore at hv
  by_cases hk : h.kind = .handler
  · rw [if_neg (not_not.mpr hk)] at hv
    cases hf : h.flaw? with
    | some flaw => simp [hf] at hv
    | none =>
      rw [hf] at hv
      cases hb : h.body with
      | none => simp [hb] at hv
      | some id =>
        cases hc : h.child? id with
        | none => simp [hb, hc] at hv
        | some b =>
          cases hs : b.bodyScore with
          | error e => simp [hb, hc, hs, Except.map] at hv
          | ok s =>
            simp only [hb, hc, hs, Option.bind_some, Except.map, Except.ok.injEq] at hv
            exact ⟨hk, rfl, id, b, s, rfl, hc, hs, hv.symm⟩
  · rw [if_pos hk] at hv
    cases hv

/-! ## Entering bodies -/

/-- Whether the step from a node down to a child goes from a handler into its body. -/
def entersBody (h c : Node) : Bool := h.kind = .handler && h.body = some c.id

/-- The number of steps on a way down that go from a handler into its body. -/
def bodySteps : List Node → Nat
  | h :: c :: rest => (if h.entersBody c then 1 else 0) + bodySteps (c :: rest)
  | _ => 0

theorem bodySteps_concat (above : List Node) (n c : Node) :
    bodySteps (above ++ [n] ++ [c]) = bodySteps (above ++ [n]) + if n.entersBody c then 1 else 0 := by
  induction above with
  | nil => simp [bodySteps]
  | cons a above ih =>
    cases above with
    | nil => simp [bodySteps]
    | cons b above =>
      simp only [List.cons_append, bodySteps] at ih ⊢
      omega

/-- The weights in the body of a node, once for each time the body is among the children; none if the node is no
handler. -/
def bodyWeight (h : Node) : Nat := ((h.children.filter h.entersBody).map (total weight)).sum

theorem sum_entersBody (n : Node) (f : Node → Nat) :
    (n.children.map fun c => (if n.entersBody c then 1 else 0) * f c).sum =
      ((n.children.filter n.entersBody).map f).sum := by
  have hif : ∀ c, (if n.entersBody c then 1 else 0) * f c = if n.entersBody c then f c else 0 := by
    intro c
    split <;> simp
  simp only [hif]
  rw [List.sum_map_ite (fun c => n.entersBody c = true)]
  simp

/-- The weight of every node times the number of bodies entered on the way to it. By induction on the tree: with `d`
bodies entered above a node, its own weights come `d` times, and those below once more for each body entered later,
which the handlers of the tree count. -/
theorem sum_nesting (above : List Node) (n : Node) :
    ((occurrencesBelow above n).map fun o => o.node.weight * bodySteps o.way).sum =
      bodySteps (above ++ [n]) * n.total weight + n.total bodyWeight := by
  induction n using childInduction generalizing above with
  | node n ih =>
    set d := bodySteps (above ++ [n]) with hd
    have hchild : ∀ c ∈ n.children,
        ((occurrencesBelow (above ++ [n]) c).map fun o => o.node.weight * bodySteps o.way).sum =
          d * c.total weight + (if n.entersBody c then 1 else 0) * c.total weight + c.total bodyWeight := by
      intro c hc
      rw [ih c hc, bodySteps_concat, ← hd]
      ring
    rw [sum_occurrencesBelow, List.map_congr_left hchild, List.sum_map_add, List.sum_map_add, sum_entersBody,
      List.sum_map_mul_left, total_eq weight n, total_eq bodyWeight n]
    show n.weight * d + _ = _
    rw [bodyWeight]
    ring

/-! ## The closed form -/

/-- Every handler that has a body has it exactly once among its children. -/
def BodiesOnce (root : Node) : Prop :=
  ∀ h ∈ root.preorder, h.kind = .handler → ∀ id, h.body = some id → h.children.countP (·.id = id) = 1

theorem handlerScore_eq_bodyWeight {h : Node} {v : Nat} (hv : h.handlerScore = .ok v)
    (hb : ∀ id, h.body = some id → h.children.countP (·.id = id) = 1) : v = 1 + h.bodyWeight := by
  obtain ⟨hk, -, id, b, s, hid, hc, hs, rfl⟩ := handlerScore_ok hv
  have henter : h.entersBody = fun c => decide (c.id = id) := by
    funext c
    simp [entersBody, hk, hid, eq_comm]
  -- the one child that is the body is also the first one
  have hone : h.children.filter (fun c => decide (c.id = id)) = [b] := by
    obtain ⟨c, hfilter⟩ := List.length_eq_one_iff.mp (List.countP_eq_length_filter ▸ hb id hid)
    have hhead := List.head?_filter (p := fun c : Node => decide (c.id = id)) (l := h.children)
    rw [hfilter, List.head?_cons] at hhead
    rw [hfilter, Option.some.inj (hhead.trans hc)]
  rw [bodyWeight, henter, hone, bodyScore_ok hs]
  simp

theorem bodyWeight_of_not_handler {n : Node} (hn : n.kind ≠ .handler) : n.bodyWeight = 0 := by
  have hnone : n.children.filter n.entersBody = [] := by
    rw [List.filter_eq_nil_iff]
    intro c _
    simp [entersBody, hn]
  rw [bodyWeight, hnone]
  rfl

theorem sum_bodyWeight_handlers (root : Node) :
    ((root.preorder.filter (·.kind = .handler)).map bodyWeight).sum = root.total bodyWeight := by
  have hif : ∀ n ∈ root.preorder, (if n.kind = .handler then n.bodyWeight else 0) = n.bodyWeight := by
    intro n _
    split_ifs with hn
    · rfl
    · exact (bodyWeight_of_not_handler hn).symm
  have hsplit := List.sum_map_ite (fun n : Node => n.kind = .handler) bodyWeight (fun _ => 0) root.preorder
  rw [List.map_congr_left hif] at hsplit
  simpa [total] using hsplit.symm

theorem classScore_ok {root : Node} {s : Nat} (h : root.classScore = .ok s) (hb : root.BodiesOnce) :
    s = root.preorder.countP (·.kind = .handler) + root.total bodyWeight := by
  rw [classScore, descendants, nodes_eq_preorder] at h
  have hsum := sumOver_ok (g := fun m => 1 + m.bodyWeight) h fun m hm v hv => by
    obtain ⟨hm, hk⟩ := List.mem_filter.mp hm
    exact handlerScore_eq_bodyWeight hv (hb m hm (of_decide_eq_true hk))
  rw [hsum, List.sum_map_add, sum_bodyWeight_handlers, List.countP_eq_length_filter]
  simp

/-- **The score in closed form**: the number of handlers, and the weight of every node as often as the way to it steps
from a handler into its body. Such a value is always taken as a measure. -/
theorem classScore_eq_handlers_add_nesting {root : Node} {s : Nat} (hb : root.BodiesOnce)
    (h : root.classScore = .ok s) :
    s = root.occurrences.countP (·.node.kind = .handler) +
        (root.occurrences.map fun o => o.node.weight * bodySteps o.way).sum ∧
      Measure.make .hcc (.ofScore s) = .ok ⟨.hcc, .ofScore s⟩ := by
  refine ⟨?_, Measure.make_ofScore .hcc s⟩
  have hcount : root.occurrences.countP (·.node.kind = .handler) = root.preorder.countP (·.kind = .handler) := by
    rw [← map_node_occurrences, List.countP_map]
    rfl
  have hsteps : bodySteps ([] ++ [root]) = 0 := rfl
  rw [hcount, occurrences, sum_nesting, hsteps, Nat.zero_mul, Nat.zero_add]
  exact classScore_ok h hb

/-- A handler within the body of another, with one return node at four places: twice in the inner body, once more in
the outer one, and once outside. -/
def nestedHandlers : Node :=
  let leave : Node := { id := .place [0], kind := .returnJump }
  let innerBody : Node := { id := .place [1], kind := .block, children := [leave, leave] }
  let inner : Node := { id := .place [2], kind := .handler, children := [innerBody], body := some (.place [1]) }
  let outerBody : Node := { id := .place [3], kind := .block, children := [inner, leave] }
  let outer : Node := { id := .place [4], kind := .handler, children := [outerBody], body := some (.place [3]) }
  { id := .place [5], kind := .classBody, children := [outer, leave] }

theorem bodiesOnce_nestedHandlers : nestedHandlers.BodiesOnce := by
  simp [BodiesOnce, nestedHandlers, preorder, preorderAll]

theorem classScore_nestedHandlers : nestedHandlers.classScore = .ok 7 := by
  decide +kernel

theorem nestedHandlers_score_closed_form :
    nestedHandlers.BodiesOnce ∧ nestedHandlers.classScore = .ok 7 ∧
      7 = nestedHandlers.occurrences.countP (·.node.kind = .handler) +
        (nestedHandlers.occurrences.map fun o => o.node.weight * bodySteps o.way).sum ∧
      Measure.make .hcc (.ofScore 7) = .ok ⟨.hcc, .ofScore 7⟩ :=
  ⟨bodiesOnce_nestedHandlers, classScore_nestedHandlers,
    classScore_eq_handlers_add_nesting bodiesOnce_nestedHandlers classScore_nestedHandlers⟩

end Node

end HandlerComplexity
