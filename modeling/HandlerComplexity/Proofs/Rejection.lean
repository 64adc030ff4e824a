import HandlerComplexity.Extract
import HandlerComplexity.Proofs.Shape

/-!
# Trees without a score

Shapes are checked node by node while a score is added up: every handler of the tree, and after each the nodes of its
body. A tree has no score iff one of these nodes breaks a rule, and the failure names the first of them. What is broken
elsewhere does not matter.

* `Node.Breaks`: the rules, one by one; `Node.breaks_of_flaw`, `Node.flaw_ne_none_of_breaks`: a node has a flaw iff it
  breaks one.
* `Node.fault`: the failure of a score; `Node.fault_sumOver`: a running total fails with the first failure in it.
* `Node.examined`: the nodes that the score of a tree depends on, in the order in which they are checked;
  `Node.fault_classScore`: the failure of a class is the first flaw among them.
* `classScore_fails_iff_examined_broken`: the same in terms of the rules, and for the extraction from a class.
-/

namespace HandlerComplexity

namespace Node

/-! ## Rules -/

/-- The rules that a node breaks. -/
inductive Breaks (n : Node) : Flaw → Prop
  | noBody (hk : n.kind = .handler) (h : n.body = none) : Breaks n .noBody
  | noCondition (hk : n.kind = .conditional) (h : n.condition = none) : Breaks n .noCondition
  | noOperator (hk : n.kind = .binaryOperator) (h : n.operator = none ∨ n.operator = some "") : Breaks n .noOperator
  | strayCondition {id : NodeId} (h : n.condition = some id) (hno : ∀ c ∈ n.children, c.id ≠ id) :
    Breaks n .strayCondition
  | strayElse {id : NodeId} (h : n.elseBranch = some id) (hno : ∀ c ∈ n.children, c.id ≠ id) : Breaks n .strayElse
  | strayBody {id : NodeId} (h : n.body = some id) (hno : ∀ c ∈ n.children, c.id ≠ id) : Breaks n .strayBody
  | foreignCases (hk : n.kind ≠ .switch) (h : n.cases ≠ []) : Breaks n .foreignCases
  /-- Of the nodes below the switch, none is the case and a case label. -/
  | danglingCase {id : NodeId} (hk : n.kind = .switch) (h : id ∈ n.cases)
    (hno : ∀ m ∈ preorderAll n.children, m.id = id → m.kind ≠ .caseLabel) : Breaks n .danglingCase

section Rules

variable {n : Node}

theorem isStray_iff {slot : Option NodeId} :
    n.isStray slot = true ↔ ∃ id, slot = some id ∧ ∀ c ∈ n.children, c.id ≠ id := by
  cases slot with
  | none => simp [isStray]
  | some id => simp [isStray]

theorem operator_getD_iff : n.operator.getD "" = "" ↔ n.operator = none ∨ n.operator = some "" := by
  cases n.operator with
  | none => simp
  | some operator => simp

/-- A switch is no case label itself, so its case labels are looked for below it. -/
theorem hasCase_iff (hk : n.kind = .switch) {id : NodeId} :
    n.hasCase id = true ↔ ∃ m ∈ preorderAll n.children, m.id = id ∧ m.kind = .caseLabel := by
  rw [hasCase, nodes_eq_preorder, preorder_eq, List.any_cons, hk]
  simp

theorem all_hasCase_iff (hk : n.kind = .switch) :
    n.cases.all n.hasCase = true ↔
      ∀ id ∈ n.cases, ∃ m ∈ preorderAll n.children, m.id = id ∧ m.kind = .caseLabel := by
  simp only [List.all_eq_true, hasCase_iff hk]

/-- The flaw of a node is a rule that it breaks. -/
theorem breaks_of_flaw {flaw : Flaw} (h : n.flaw? = some flaw) : n.Breaks flaw := by
  rw [flaw?] at h
  rcases ite_eq_iff.mp h with ⟨hbody, hflaw⟩ | ⟨-, h⟩
  · obtain rfl := Option.some.inj hflaw
    exact .noBody hbody.1 hbody.2
  rcases ite_eq_iff.mp h with ⟨hcondition, hflaw⟩ | ⟨-, h⟩
  · obtain rfl := Option.some.inj hflaw
    exact .noCondition hcondition.1 hcondition.2
  rcases ite_eq_iff.mp h with ⟨hoperator, hflaw⟩ | ⟨-, h⟩
  · obtain rfl := Option.some.inj hflaw
    exact .noOperator hoperator.1 (operator_getD_iff.mp hoperator.2)
  rcases ite_eq_iff.mp h with ⟨hstray, hflaw⟩ | ⟨-, h⟩
  · obtain rfl := Option.some.inj hflaw
    obtain ⟨id, hid, hno⟩ := isStray_iff.mp hstray
    exact .strayCondition hid hno
  rcases ite_eq_iff.mp h with ⟨hstray, hflaw⟩ | ⟨-, h⟩
  · obtain rfl := Option.some.inj hflaw
    obtain ⟨id, hid, hno⟩ := isStray_iff.mp hstray
    exact .strayElse hid hno
  rcases ite_eq_iff.mp h with ⟨hstray, hflaw⟩ | ⟨-, h⟩
  · obtain rfl := Option.some.inj hflaw
    obtain ⟨id, hid, hno⟩ := isStray_iff.mp hstray
    exact .strayBody hid hno
  rcases ite_eq_iff.mp h with ⟨-, hflaw⟩ | ⟨hcases, h⟩
  · cases hflaw
  rcases ite_eq_iff.mp h with ⟨hkind, hflaw⟩ | ⟨hkind, h⟩
  · obtain rfl := Option.some.inj hflaw
    exact .foreignCases hkind hcases
  rcases ite_eq_iff.mp h with ⟨-, hflaw⟩ | ⟨hbelow, hflaw⟩
  · cases hflaw
  · obtain rfl := Option.some.inj hflaw
    have hswitch : n.kind = .switch := not_not.mp hkind
    rw [all_hasCase_iff hswitch] at hbelow
    push Not at hbelow
    obtain ⟨id, hid, hno⟩ := hbelow
    exact .danglingCase hswitch hid hno

/-- A node that breaks a rule has a flaw, though it may be that of a rule that is checked earlier. -/
theorem flaw_ne_none_of_breaks {flaw : Flaw} (h : n.Breaks flaw) : n.flaw? ≠ none := by
  intro hnone
  obtain ⟨hbody, hcondition, hoperator, hstrayCondition, hstrayElse, hstrayBody, hcases⟩ := rules_of_flaw_none hnone
  cases h with
  | noBody hk h => exact hbody ⟨hk, h⟩
  | noCondition hk h => exact hcondition ⟨hk, h⟩
  | noOperator hk h => exact hoperator ⟨hk, operator_getD_iff.mpr h⟩
  | strayCondition h hno => exact hstrayCondition (isStray_iff.mpr ⟨_, h, hno⟩)
  | strayElse h hno => exact hstrayElse (isStray_iff.mpr ⟨_, h, hno⟩)
  | strayBody h hno => exact hstrayBody (isStray_iff.mpr ⟨_, h, hno⟩)
  | foreignCases hk h =>
    rcases hcases with hnil | ⟨hswitch, -⟩
    · exact h hnil
    · exact hk hswitch
  | danglingCase hk h hno =>
    rcases hcases with hnil | ⟨-, hbelow⟩
    · rw [hnil] at h
      cases h
    · obtain ⟨m, hm, hid, hcase⟩ := (all_hasCase_iff hk).mp hbelow _ h
      exact hno m hm hid hcase

end Rules

/-! ## The first failure -/

/-- The failure of a score. -/
def fault : Except Malformed Nat → Option Malformed
  | .error e => some e
  | .ok _ => none

theorem fault_eq_some_iff {score : Except Malformed Nat} {e : Malformed} : fault score = some e ↔ score = .error e := by
  cases score with
  | error e' => simp [fault]
  | ok v => simp [fault]

/-- What is reported of a node that has a flaw. -/
def report? (n : Node) : Option Malformed := n.flaw?.map n.malformed

/-- A running total fails with the first failure in it. -/
theorem fault_sumOver (f : Node → Except Malformed Nat) (total : Nat) (ns : List Node) :
    fault (sumOver f total ns) = ns.findSome? fun n => fault (f n) := by
  induction ns generalizing total with
  | nil => rfl
  | cons n ns ih =>
    rw [sumOver, List.findSome?_cons]
    cases f n with
    | error e => rfl
    | ok v => exact ih (total + v)

theorem fault_checkedWeight (n : Node) : fault n.checkedWeight = n.report? := by
  unfold checkedWeight report?
  cases n.flaw? <;> rfl

theorem fault_bodyScore (b : Node) : fault b.bodyScore = b.preorder.findSome? report? := by
  rw [bodyScore, nodes_eq_preorder, fault_sumOver]
  simp only [fault_checkedWeight]

/-- The node that is the body of a handler. -/
def bodyNode? (h : Node) : Option Node := h.body.bind h.child?

/-- The nodes that are checked for one handler: itself, then those of its body. -/
def examinedFor (h : Node) : List Node := h :: (h.bodyNode?.map preorder).getD []

theorem fault_handlerScore {h : Node} (hk : h.kind = .handler) :
    fault h.handlerScore = h.examinedFor.findSome? report? := by
  unfold handlerScore examinedFor report?
  rw [if_neg (not_not.mpr hk), List.findSome?_cons]
  cases hf : h.flaw? with
  | some flaw => rfl
  | none =>
    -- without a flaw the handler has its body, and only that can fail
    obtain ⟨b, hb⟩ := exists_body_of_flaw_none hk hf
    have hmap : fault (b.bodyScore.map (1 + ·)) = fault b.bodyScore := by
      cases b.bodyScore <;> rfl
    rw [bodyNode?, hb]
    exact hmap.trans (fault_bodyScore b)

/-- The nodes that the score of a tree depends on, in the order in which they are checked. -/
def examined (root : Node) : List Node := (root.preorder.filter (·.kind = .handler)).flatMap examinedFor

theorem findSome?_flatMap {α β γ : Type} (f : α → List β) (g : β → Option γ) (l : List α) :
    (l.flatMap f).findSome? g = l.findSome? fun a => (f a).findSome? g := by
  induction l with
  | nil => rfl
  | cons a l ih =>
    rw [List.flatMap_cons, List.findSome?_append, List.findSome?_cons, ih]
    cases (f a).findSome? g <;> rfl

/-- **A class fails with the first flaw** among the nodes that are checked. -/
theorem fault_classScore (root : Node) : fault root.classScore = root.examined.findSome? report? := by
  rw [classScore, descendants, nodes_eq_preorder, fault_sumOver, examined, findSome?_flatMap]
  -- handlers are the only nodes whose score is asked for
  generalize hs : root.preorder.filter (·.kind = .handler) = handlers
  have hall : ∀ h ∈ handlers, h.kind = .handler := by
    intro h hh
    rw [← hs] at hh
    exact of_decide_eq_true (List.mem_filter.mp hh).2
  clear hs
  induction handlers with
  | nil => rfl
  | cons h handlers ih =>
    rw [List.findSome?_cons, List.findSome?_cons, fault_handlerScore (hall h List.mem_cons_self),
      ih fun m hm => hall m (List.mem_cons_of_mem _ hm)]

/-- The score of a tree depends on its handlers and on the nodes of their bodies. -/
def Examined (root n : Node) : Prop :=
  ∃ h ∈ root.preorder, h.kind = .handler ∧
    (n = h ∨ ∃ id body, h.body = some id ∧ h.child? id = some body ∧ n ∈ body.preorder)

theorem mem_examined {root n : Node} : n ∈ root.examined ↔ root.Examined n := by
  have hbody : ∀ h : Node, n ∈ (h.bodyNode?.map preorder).getD [] ↔
      ∃ id body, h.body = some id ∧ h.child? id = some body ∧ n ∈ body.preorder := by
    intro h
    unfold bodyNode?
    cases h.body with
    | none => simp
    | some id => cases hc : h.child? id <;> simp [hc]
  simp only [examined, examinedFor, List.mem_flatMap, List.mem_filter, List.mem_cons, hbody, Examined,
    decide_eq_true_eq, and_assoc]

theorem exists_examined_of_classScore {root : Node} {e : Malformed} (h : root.classScore = .error e) :
    ∃ n flaw, root.Examined n ∧ n.Breaks flaw ∧ e = ⟨n.kind, flaw, n.line, none⟩ := by
  rw [← fault_eq_some_iff, fault_classScore, List.findSome?_eq_some_iff] at h
  obtain ⟨before, n, behind, hsplit, hreport, -⟩ := h
  obtain ⟨flaw, hflaw, rfl⟩ := Option.map_eq_some_iff.mp hreport
  exact ⟨n, flaw, mem_examined.mp (by rw [hsplit]; simp), breaks_of_flaw hflaw, rfl⟩

theorem exists_classScore_of_examined {root n : Node} {flaw : Flaw} (hn : root.Examined n) (hb : n.Breaks flaw) :
    ∃ e, root.classScore = .error e := by
  obtain ⟨first, hfirst⟩ := Option.ne_none_iff_exists'.mp (flaw_ne_none_of_breaks hb)
  have hsome : (root.examined.findSome? report?).isSome = true := by
    rw [List.findSome?_isSome_iff]
    exact ⟨n, mem_examined.mpr hn, by rw [report?, hfirst]; rfl⟩
  rw [← fault_classScore] at hsome
  obtain ⟨e, he⟩ := Option.isSome_iff_exists.mp hsome
  exact ⟨e, fault_eq_some_iff.mp he⟩

end Node

/-! ## Extraction -/

/-- What is extracted from an eligible class: the failure of its score with the name of the class, or its measure. -/
theorem extract_of_eligible {eligibility : Eligibility} {u : ClassUnit} (h : eligibility u = .ok true) :
    (extract eligibility u).2 =
      match u.root.classScore with
      | .error e => .error (.malformed { e with owner := some u.qualifiedName })
      | .ok s => .ok (some ⟨.hcc, .ofScore s⟩) := by
  unfold extract ClassUnit.score
  rw [h]
  cases u.root.classScore with
  | error e => rfl
  | ok s => simp only [Measure.make_ofScore]

/-- **Exactly the flaws that a score depends on are rejected.** A tree has no score iff a handler in it, or a node in
the body of one, breaks a rule; the failure then is that of such a node, with its kind and line and the rule. The
measure of a class that is eligible fails in the same cases, with the same failure and the name of the class. -/
theorem classScore_fails_iff_examined_broken (root : Node) :
    ((∃ e, root.classScore = .error e) ↔ ∃ n flaw, root.Examined n ∧ n.Breaks flaw) ∧
      (∀ e, root.classScore = .error e →
        ∃ n flaw, root.Examined n ∧ n.Breaks flaw ∧ e = ⟨n.kind, flaw, n.line, none⟩) ∧
      ∀ (eligibility : Eligibility) (u : ClassUnit), u.root = root → eligibility u = .ok true →
        (∀ e, root.classScore = .error e →
          (extract eligibility u).2 = .error (.malformed { e with owner := some u.qualifiedName })) ∧
        ∀ s, root.classScore = .ok s → (extract eligibility u).2 = .ok (some ⟨.hcc, .ofScore s⟩) := by
  refine ⟨⟨?_, ?_⟩, fun e he => Node.exists_examined_of_classScore he, ?_⟩
  · rintro ⟨e, he⟩
    obtain ⟨n, flaw, hn, hb, -⟩ := Node.exists_examined_of_classScore he
    exact ⟨n, flaw, hn, hb⟩
  · rintro ⟨n, flaw, hn, hb⟩
    exact Node.exists_classScore_of_examined hn hb
  · rintro eligibility u rfl hu
    refine ⟨fun e he => ?_, fun s hs => ?_⟩
    · rw [extract_of_eligible hu, he]
    · rw [extract_of_eligible hu, hs]

/-- A class with a conditional that lacks its condition, inside the body of its handler or only next to it. -/
def halfBroken (inside : Bool) : ClassUnit :=
  let broken : Node := { id := .place [0], kind := .conditional, line := 7 }
  let body : Node := { id := .place [1], kind := .block, children := if inside then [broken] else [] }
  let handler : Node := { id := .place [2], kind := .handler, children := [body, broken], body := some (.place [1]) }
  { qualifiedName := "p.A", root := { id := .place [3], kind := .classBody, children := [broken, handler] } }

/-- The same broken node is a failure in the one place and not in the other. -/
theorem halfBroken_rejected_inside :
    (extract (eligible none) (halfBroken true)).2 = .error (.malformed ⟨.conditional, .noCondition, 7, some "p.A"⟩) ∧
      (extract (eligible none) (halfBroken false)).2 = .ok (some ⟨.hcc, .ofScore 1⟩) := by
  have hinside : (halfBroken true).root.classScore = .error ⟨.conditional, .noCondition, 7, none⟩ := by decide +kernel
  have hbeside : (halfBroken false).root.classScore = .ok 1 := by decide +kernel
  exact ⟨((classScore_fails_iff_examined_broken _).2.2 _ (halfBroken true) rfl rfl).1 _ hinside,
    ((classScore_fails_iff_examined_broken _).2.2 _ (halfBroken false) rfl rfl).2 _ hbeside⟩

end HandlerComplexity
