import HandlerComplexity.Proofs.Alike

/-!
# Trees without comments

Comments can stand between any two children of a node. Nothing that is read off a concrete tree looks at them, although
much of it is found by position: the first child that is not named, the last block, the clauses.

* `Thins`: a list and another one from which some members are gone, and how searches in the two compare.
* `Cst.Commented`: a tree with comments inserted anywhere. `Cst.strip`: a tree without its comments; a tree and the same
  tree with comments inserted have the same `strip`.
* `Cst.Regular`: what can be said about any tree that is parsed.
* `Rules.IgnoresComments`: rules under which a comment is no class, clause, block or modifier.
* `alike_makeNode`: one node, made out of children that are alike; `alike_strip`: a tree without its comments has the
  same scores.
-/

namespace HandlerComplexity

/-! ## Thinned lists -/

/-- The second list has a partner for every member of the first, in order, except for some that are dropped. -/
inductive Thins {α β : Type} (R : α → β → Prop) (N : α → Prop) : List α → List β → Prop
  | nil : Thins R N [] []
  | keep {a : α} {b : β} {l : List α} {l' : List β} : R a b → Thins R N l l' → Thins R N (a :: l) (b :: l')
  | drop {a : α} {l : List α} {l' : List β} : N a → Thins R N l l' → Thins R N (a :: l) l'

namespace Thins

variable {α β γ : Type} {R : α → β → Prop} {N : α → Prop} {l : List α} {l' : List β}

/-- What holds of no dropped member is found in both lists or in neither. -/
theorem find? (h : Thins R N l l') {p : α → Bool} {q : β → Bool} (hR : ∀ a b, R a b → q b = p a)
    (hN : ∀ a, N a → p a = false) : Option.Rel R (l.find? p) (l'.find? q) := by
  induction h with
  | nil => exact .none
  | @keep a b l l' hab _ ih =>
    rw [List.find?_cons, List.find?_cons, hR a b hab]
    cases p a with
    | true => exact .some hab
    | false => exact ih
  | @drop a l l' ha _ ih =>
    rw [List.find?_cons, hN a ha]
    exact ih

theorem any (h : Thins R N l l') {p : α → Bool} {q : β → Bool} (hR : ∀ a b, R a b → q b = p a)
    (hN : ∀ a, N a → p a = false) : l'.any q = l.any p := by
  induction h with
  | nil => rfl
  | @keep a b l l' hab _ ih => rw [List.any_cons, List.any_cons, hR a b hab, ih]
  | @drop a l l' ha _ ih => rw [List.any_cons, hN a ha, Bool.false_or, ih]

theorem filter (h : Thins R N l l') {p : α → Bool} {q : β → Bool} (hR : ∀ a b, R a b → q b = p a) :
    Thins R N (l.filter p) (l'.filter q) := by
  induction h with
  | nil => exact .nil
  | @keep a b l l' hab _ ih =>
    rw [List.filter_cons, List.filter_cons, hR a b hab]
    split_ifs
    · exact .keep hab ih
    · exact ih
  | @drop a l l' ha _ ih =>
    rw [List.filter_cons]
    split_ifs
    · exact .drop ha ih
    · exact ih

theorem append {k : List α} {k' : List β} (h : Thins R N l l') (hk : Thins R N k k') :
    Thins R N (l ++ k) (l' ++ k') := by
  induction h with
  | nil => exact hk
  | keep hab _ ih => exact .keep hab ih
  | drop ha _ ih => exact .drop ha ih

theorem reverse (h : Thins R N l l') : Thins R N l.reverse l'.reverse := by
  induction h with
  | nil => exact .nil
  | keep hab _ ih =>
    rw [List.reverse_cons, List.reverse_cons]
    exact ih.append (.keep hab .nil)
  | drop ha _ ih =>
    have h := ih.append (.drop ha .nil)
    rw [List.append_nil] at h
    rw [List.reverse_cons]
    exact h

theorem flatMap (h : Thins R N l l') {f : α → List γ} {g : β → List γ} (hR : ∀ a b, R a b → g b = f a)
    (hN : ∀ a, N a → f a = []) : l'.flatMap g = l.flatMap f := by
  induction h with
  | nil => rfl
  | @keep a b l l' hab _ ih => rw [List.flatMap_cons, List.flatMap_cons, hR a b hab, ih]
  | @drop a l l' ha _ ih => rw [List.flatMap_cons, hN a ha, ih, List.nil_append]

/-- Where nothing is dropped, every member has its partner. -/
theorem forall₂ (h : Thins R N l l') (hN : ∀ a ∈ l, ¬ N a) : List.Forall₂ R l l' := by
  induction h with
  | nil => exact .nil
  | keep hab _ ih => exact .cons hab (ih fun a ha => hN a (List.mem_cons_of_mem _ ha))
  | drop ha _ _ => exact absurd ha (hN _ List.mem_cons_self)

end Thins

/-! What is found in both lists or in neither. -/

section Rel

variable {α β γ : Type} {R : α → β → Prop} {x x₂ : Option α} {y y₂ : Option β}

theorem rel_or (h : Option.Rel R x y) (h₂ : Option.Rel R x₂ y₂) : Option.Rel R (x.or x₂) (y.or y₂) := by
  cases h with
  | none => exact h₂
  | some h => exact .some h

theorem isSome_eq_of_rel (h : Option.Rel R x y) : y.isSome = x.isSome := by
  cases h <;> rfl

theorem any_eq_of_rel (h : Option.Rel R x y) {p : α → Bool} {q : β → Bool} (hR : ∀ a b, R a b → q b = p a) :
    y.any q = x.any p := by
  cases h with
  | none => rfl
  | some h => exact hR _ _ h

theorem map_eq_of_rel (h : Option.Rel R x y) {f : α → γ} {g : β → γ} (hR : ∀ a b, R a b → g b = f a) :
    y.map g = x.map f := by
  cases h with
  | none => rfl
  | some h => exact congrArg some (hR _ _ h)

end Rel

/-! ## Trees without comments -/

namespace Cst

/-- A named comment without children that fills no field. -/
def isBareComment (c : Cst) : Bool := c.nodeType = "comment" && c.named && c.field.isNone && c.children.isEmpty

/-- The second list of children is the first one with bare comments inserted anywhere, also further down. -/
inductive CommentedAll : List Cst → List Cst → Prop
  | nil : CommentedAll [] []
  | keep {c : Cst} {inner cs cs' : List Cst} :
      CommentedAll c.children inner → CommentedAll cs cs' → CommentedAll (c :: cs) ({ c with children := inner } :: cs')
  | insert {c : Cst} {cs cs' : List Cst} : c.isBareComment = true → CommentedAll cs cs' → CommentedAll cs (c :: cs')

/-- The second tree is the first one with bare comments inserted below any nodes. -/
def Commented (c c' : Cst) : Prop := ∃ inner, CommentedAll c.children inner ∧ c' = { c with children := inner }

mutual

/-- The tree without the bare comments below its root. A comment that has only such comments below it goes too. -/
def strip : Cst → Cst
  | ⟨nodeType, start, stop, line, named, field, children⟩ =>
    ⟨nodeType, start, stop, line, named, field, stripAll children⟩

def stripAll : List Cst → List Cst
  | [] => []
  | c :: cs => if (strip c).isBareComment then stripAll cs else strip c :: stripAll cs

end

section Strip

variable (c : Cst)

@[simp] theorem nodeType_strip : c.strip.nodeType = c.nodeType := by cases c; rfl
@[simp] theorem start_strip : c.strip.start = c.start := by cases c; rfl
@[simp] theorem stop_strip : c.strip.stop = c.stop := by cases c; rfl
@[simp] theorem line_strip : c.strip.line = c.line := by cases c; rfl
@[simp] theorem named_strip : c.strip.named = c.named := by cases c; rfl
@[simp] theorem field_strip : c.strip.field = c.field := by cases c; rfl
@[simp] theorem children_strip : c.strip.children = stripAll c.children := by cases c; rfl

end Strip

theorem strip_of_isBareComment {c : Cst} (h : c.isBareComment = true) : c.strip = c := by
  obtain ⟨nodeType, start, stop, line, named, field, children⟩ := c
  simp only [isBareComment, Bool.and_eq_true, List.isEmpty_iff] at h
  rw [strip, h.2, stripAll]

/-- **Inserting comments** does not change the tree without them. -/
theorem CommentedAll.stripAll_eq {cs cs' : List Cst} (h : CommentedAll cs cs') : stripAll cs' = stripAll cs := by
  induction h with
  | nil => rfl
  | @keep c inner cs cs' _ _ ihinner ih =>
    have hstrip : ({ c with children := inner } : Cst).strip = c.strip := by
      obtain ⟨nodeType, start, stop, line, named, field, children⟩ := c
      rw [strip, strip, ihinner]
    rw [stripAll, stripAll, hstrip, ih]
  | @insert c cs cs' hc _ ih => rw [stripAll, strip_of_isBareComment hc, if_pos hc, ih]

theorem Commented.strip_eq {c c' : Cst} (h : c.Commented c') : c'.strip = c.strip := by
  obtain ⟨inner, hinner, rfl⟩ := h
  obtain ⟨nodeType, start, stop, line, named, field, children⟩ := c
  rw [strip, strip, hinner.stripAll_eq]

theorem thins_stripAll (cs : List Cst) :
    Thins (fun d d' => d' = d.strip) (fun d => d.strip.isBareComment = true) cs (stripAll cs) := by
  induction cs with
  | nil => exact .nil
  | cons c cs ih =>
    rw [stripAll]
    split_ifs with hc
    · exact .drop hc ih
    · exact .keep rfl ih

/-- What is known of a comment that goes. -/
theorem of_isBareComment {c : Cst} (h : c.strip.isBareComment = true) :
    c.nodeType = "comment" ∧ c.named = true ∧ c.field = none := by
  simp only [isBareComment, nodeType_strip, named_strip, field_strip, Bool.and_eq_true, decide_eq_true_eq,
    Option.isNone_iff_eq_none] at h
  exact ⟨h.1.1.1, h.1.1.2, h.1.2⟩

/-- The first child in a field: a comment that goes fills none. -/
theorem childByField?_rel (c : Cst) (field : String) :
    Option.Rel (fun d d' => d' = d.strip) (c.childByField? field) (c.strip.childByField? field) := by
  rw [childByField?, childByField?, children_strip]
  exact (thins_stripAll c.children).find? (fun d d' h => by rw [h, field_strip])
    fun d h => by rw [(of_isBareComment h).2.2]; rfl

theorem childByField?_strip (c : Cst) (field : String) :
    c.strip.childByField? field = (c.childByField? field).map strip := by
  rw [← map_eq_of_rel (c.childByField?_rel field) fun d d' h => h, Option.map_id']

/-- What can be said about any tree that is parsed: every conditional has a named condition, and no comment fills a
field. -/
structure Regular (r : Rules) (root : Cst) : Prop where
  conditions : ∀ c ∈ root.nodes, r.kindOf c.nodeType = .conditional →
    (c.childByField? "condition").any (·.named) = true
  fields : ∀ c ∈ root.nodes, c.field ≠ none → c.nodeType ≠ "comment"

instance (r : Rules) (root : Cst) : Decidable (root.Regular r) :=
  decidable_of_iff (_ ∧ _) ⟨fun h => ⟨h.1, h.2⟩, fun h => ⟨h.conditions, h.fields⟩⟩

theorem Regular.of_mem {r : Rules} {root c : Cst} (h : root.Regular r) (hc : c ∈ root.nodes) : c.Regular r where
  conditions d hd := h.conditions d (nodes_subset hc hd)
  fields d hd := h.fields d (nodes_subset hc hd)

theorem stripAll_eq (cs : List Cst) : stripAll cs = (cs.map strip).filter (!·.isBareComment) := by
  induction cs with
  | nil => rfl
  | cons c cs ih =>
    rw [stripAll, ih, List.map_cons, List.filter_cons]
    cases c.strip.isBareComment <;> rfl

theorem mem_stripAll {cs : List Cst} {x : Cst} :
    x ∈ stripAll cs ↔ (∃ c ∈ cs, c.strip = x) ∧ x.isBareComment = false := by
  rw [stripAll_eq, List.mem_filter, List.mem_map, Bool.not_eq_true']

theorem mem_nodes_strip {c x : Cst} (h : x ∈ c.strip.nodes) : ∃ d ∈ c.nodes, x = d.strip := by
  induction c using childInduction with
  | node c ih =>
    rw [nodes_eq, children_strip, List.mem_cons, List.mem_flatMap] at h
    rcases h with rfl | ⟨y, hy, hx⟩
    · exact ⟨c, c.self_mem_nodes, rfl⟩
    · obtain ⟨⟨d, hd, rfl⟩, -⟩ := mem_stripAll.mp hy
      obtain ⟨e, he, rfl⟩ := ih d hd hx
      refine ⟨e, ?_, rfl⟩
      rw [nodes_eq]
      exact List.mem_cons_of_mem _ (List.mem_flatMap.mpr ⟨d, hd, he⟩)

theorem Regular.strip {r : Rules} {c : Cst} (h : c.Regular r) : c.strip.Regular r where
  conditions x hx hk := by
    obtain ⟨d, hd, rfl⟩ := mem_nodes_strip hx
    rw [nodeType_strip] at hk
    have hnamed := h.conditions d hd hk
    rw [childByField?_strip, Option.any_map]
    simpa [Function.comp_def] using hnamed
  fields x hx hfield := by
    obtain ⟨d, hd, rfl⟩ := mem_nodes_strip hx
    rw [field_strip] at hfield
    rw [nodeType_strip]
    exact h.fields d hd hfield

end Cst

/-! ## Rules and comments -/

/-- The rules of a language give comments no part to play, and clauses are conditionals or nothing in particular. -/
structure Rules.IgnoresComments (r : Rules) : Prop where
  kind : r.kindOf "comment" = .other
  blocks : r.blockTypes.contains "comment" = false
  elseIfs : r.elseIfTypes.contains "comment" = false
  elses : r.elseTypes.contains "comment" = false
  classes : r.classTypes.contains "comment" = false
  packages : r.packageTypes.contains "comment" = false
  namespaces : r.namespaceTypes.contains "comment" = false
  modifiers : r.modifierTypes.contains "comment" = false
  partialModifiers : r.partialModifierTypes.contains "comment" = false
  clauses : ∀ t ∈ r.elseIfTypes ++ r.elseTypes, r.kindOf t = .conditional ∨ r.kindOf t = .other

theorem Language.ignoresComments (l : Language) : l.rules.IgnoresComments := by
  cases l <;> constructor <;> decide

/-! ## One node -/

/-- The trees of a child with and without its comments. -/
def Kept (e e' : Cst × Node) : Prop := e'.1 = e.1.strip ∧ e.2.Alike e'.2

/-- A child that goes, with a tree that has no part in any score. -/
def Dropped (e : Cst × Node) : Prop := e.1.nodeType = "comment" ∧ e.2.weights = [] ∧ e.2.scores = []

section Make

variable {r : Rules} {c : Cst} {p q : List Nat} {built built' : Built}

theorem operatorOf_strip (c : Cst) : operatorOf c.strip = operatorOf c := by
  have hfind := (Cst.thins_stripAll c.children).find? (p := (!·.named)) (q := (!·.named))
    (fun d d' h => by rw [h, Cst.named_strip]) fun d h => by rw [(Cst.of_isBareComment h).2.1]; rfl
  rw [operatorOf, operatorOf, Cst.childByField?_strip, Cst.children_strip]
  cases c.childByField? "operator" with
  | some o => exact congrArg some (Cst.nodeType_strip o)
  | none =>
    exact map_eq_of_rel hfind fun d d' h => by rw [h, Cst.nodeType_strip]

/-- A test for types that comments do not have. -/
theorem Kept.contains {types : List String} {e e' : Cst × Node} (h : Kept e e') :
    types.contains e'.1.nodeType = types.contains e.1.nodeType := by
  rw [h.1, Cst.nodeType_strip]

theorem Kept.isClause {e e' : Cst × Node} (h : Kept e e') : isClause r e'.1 = isClause r e.1 := by
  rw [HandlerComplexity.isClause, HandlerComplexity.isClause, h.1, Cst.nodeType_strip]

theorem Dropped.isClause (hr : r.IgnoresComments) {e : Cst × Node} (h : Dropped e) : isClause r e.1 = false := by
  rw [HandlerComplexity.isClause, h.1, hr.elseIfs, hr.elses]
  rfl

section Slots

variable (hthin : Thins Kept Dropped built built') (hr : r.IgnoresComments)
  (hfields : ∀ d ∈ c.children, d.field ≠ none → d.nodeType ≠ "comment")

include hthin

theorem any_kept {types : List String} (h : types.contains "comment" = false) :
    built'.any (types.contains ·.1.nodeType) = built.any (types.contains ·.1.nodeType) :=
  hthin.any (fun _ _ hkept => hkept.contains) fun _ hdropped => by rw [hdropped.1, h]

include hfields in
/-- The child in a field is found with and without comments. -/
theorem slotEntry_kept (field : String) :
    Option.Rel Kept (slotEntry built (c.childByField? field)) (slotEntry built' (c.strip.childByField? field)) := by
  rw [Cst.childByField?_strip]
  cases ht : c.childByField? field with
  | none => exact .none
  | some t =>
    have htype : t.nodeType ≠ "comment" := by
      refine hfields t (List.mem_of_find?_eq_some ht) ?_
      have hfield : t.field = some field := by simpa using List.find?_some ht
      rw [hfield]
      simp
    refine hthin.find? (fun e e' h => ?_) fun e h => ?_
    · simp [Cst.coincides, h.1]
    · simp [Cst.coincides, h.1, htype.symm]

include hr hfields in
theorem bodyEntry_kept : Option.Rel Kept (bodyEntry r c built) (bodyEntry r c.strip built') := by
  have hslot := slotEntry_kept hthin hfields "body"
  have hblock := hthin.reverse.find? (p := (r.blockTypes.contains ·.1.nodeType))
    (q := (r.blockTypes.contains ·.1.nodeType)) (fun _ _ hkept => hkept.contains)
    fun _ hdropped => by rw [hdropped.1, hr.blocks]
  exact rel_or hslot hblock

include hr in
theorem isChained_kept : isChained r built' = isChained r built := any_kept hthin hr.elseIfs

include hr hfields in
theorem hasElse_kept : hasElse r c.strip built' = hasElse r c built := by
  have hslot := slotEntry_kept hthin hfields "alternative"
  rw [hasElse, hasElse, isChained_kept hthin hr, any_kept hthin hr.elses, isSome_eq_of_rel hslot]

include hr in
theorem clauses_kept : List.Forall₂ Kept (built.filter (isClause r ·.1)) (built'.filter (isClause r ·.1)) := by
  refine (hthin.filter fun _ _ hkept => hkept.isClause).forall₂ ?_
  intro e he hdropped
  have hclause := (List.mem_filter.mp he).2
  rw [hdropped.isClause hr] at hclause
  cases hclause

include hr hfields in
theorem isTorn_kept : isTorn r c.strip built' = isTorn r c built := by
  have hslot := slotEntry_kept hthin hfields "condition"
  have hany : (conditionEntry c.strip built').any (isClause r ·.1) = (conditionEntry c built).any (isClause r ·.1) :=
    any_eq_of_rel hslot fun _ _ hkept => hkept.isClause
  rw [isTorn, isTorn, isChained_kept hthin hr, hany, (clauses_kept hthin hr).length_eq]

include hr hfields in
theorem flawOf_kept : flawOf r c.strip built' = flawOf r c built := by
  have hbody := bodyEntry_kept hthin hr hfields
  have hnone : (bodyEntry r c.strip built').isNone = (bodyEntry r c built).isNone := by
    rw [← Option.not_isSome, ← Option.not_isSome, isSome_eq_of_rel hbody]
  rw [flawOf, flawOf, Cst.nodeType_strip, hnone, isTorn_kept hthin hr hfields, operatorOf_strip]

end Slots

/-- Lists of trees below a node, in terms of the children they are built for. -/
theorem flatMap_kept {β : Type} {f : Node → List β} (hthin : Thins Kept Dropped built built')
    (hkept : ∀ e e', Kept e e' → f e'.2 = f e.2) (hdropped : ∀ e, Dropped e → f e.2 = []) :
    (built'.map (·.2)).flatMap f = (built.map (·.2)).flatMap f := by
  rw [List.flatMap_map, List.flatMap_map]
  exact hthin.flatMap hkept hdropped

theorem weights_kept (hthin : Thins Kept Dropped built built') :
    (built'.map (·.2)).flatMap Node.weights = (built.map (·.2)).flatMap Node.weights :=
  flatMap_kept hthin (fun _ _ h => h.2.weights) fun _ h => h.2.1

theorem scores_kept (hthin : Thins Kept Dropped built built') :
    (built'.map (·.2)).flatMap Node.scores = (built.map (·.2)).flatMap Node.scores :=
  flatMap_kept hthin (fun _ _ h => h.2.scores) fun _ h => h.2.2

/-- The clauses of a conditional can be hung below each other. -/
def ClausesHang (r : Rules) (place : List Nat) (built : Built) : Prop :=
  ∀ e ∈ built, isClause r e.1 = true → Hangable (place.length + 1) e.2

/-- What is below a node that is made. -/
theorem below_makeNode (hthin : Thins Kept Dropped built built') (hr : r.IgnoresComments) (hp : ClausesHang r p built)
    (hq : ClausesHang r q built') :
    (makeNode r q c.strip built').children.flatMap Node.weights =
        (makeNode r p c built).children.flatMap Node.weights ∧
      (makeNode r q c.strip built').children.flatMap Node.scores =
        (makeNode r p c built).children.flatMap Node.scores := by
  by_cases hk : r.kindOf c.nodeType = .conditional
  swap
  · have hk' : r.kindOf c.strip.nodeType ≠ .conditional := by rwa [Cst.nodeType_strip]
    rw [(wellSlotted_made p built hk).2, (wellSlotted_made q built' hk').2]
    exact ⟨weights_kept hthin, scores_kept hthin⟩
  have hk' : r.kindOf c.strip.nodeType = .conditional := by rwa [Cst.nodeType_strip]
  rw [makeNode_conditional hk, makeNode_conditional hk']
  cases hchain : isChained r built with
  | false =>
    rw [conditionalNode_unchained hchain, conditionalNode_unchained ((isChained_kept hthin hr).trans hchain)]
    exact ⟨weights_kept hthin, scores_kept hthin⟩
  | true =>
    obtain ⟨tail, htail, heq⟩ := conditionalNode_chained p c hchain
    obtain ⟨tail', htail', heq'⟩ := conditionalNode_chained q c.strip ((isChained_kept hthin hr).trans hchain)
    have hothers := hthin.filter (p := (!isClause r ·.1)) (q := (!isClause r ·.1)) fun e e' h => by rw [h.isClause]
    have halike : List.Forall₂ Node.Alike ((built.filter (isClause r ·.1)).map (·.2))
        ((built'.filter (isClause r ·.1)).map (·.2)) := by
      rw [List.forall₂_map_left_iff, List.forall₂_map_right_iff]
      exact (clauses_kept hthin hr).imp fun _ _ h => h.2
    have hhang : ∀ {place : List Nat} {b : Built}, ClausesHang r place b →
        ∀ n ∈ (b.filter (isClause r ·.1)).map (·.2), Hangable (place.length + 1) n := by
      intro place b hb n hn
      obtain ⟨e, he, rfl⟩ := List.mem_map.mp hn
      obtain ⟨he, hclause⟩ := List.mem_filter.mp he
      exact hb e he hclause
    obtain ⟨hweights, hscores⟩ := chain_alike halike (hhang hp) (hhang hq) htail htail'
    rw [heq, heq']
    simp only [List.flatMap_append, List.flatMap_singleton, hweights, hscores, weights_kept hothers,
      scores_kept hothers]
    exact ⟨trivial, trivial⟩

/-- **Making a node** from the trees of children with and without their comments. -/
theorem alike_makeNode (hthin : Thins Kept Dropped built built') (hr : r.IgnoresComments)
    (hfields : ∀ d ∈ c.children, d.field ≠ none → d.nodeType ≠ "comment") (hp : Placed p built) (hq : Placed q built')
    (hcondition : r.kindOf c.nodeType = .conditional → ∃ e, conditionEntry c built = some e)
    (hclauses : ClausesHang r p built) (hclauses' : ClausesHang r q built') :
    (makeNode r p c built).Alike (makeNode r q c.strip built') := by
  have hkind : (makeNode r q c.strip built').kind = (makeNode r p c built).kind := by
    rw [kind_makeNode, kind_makeNode, Cst.nodeType_strip]
  have hline : (makeNode r q c.strip built').line = (makeNode r p c built).line := by
    rw [line_makeNode, line_makeNode, Cst.line_strip]
  have hcondition' : r.kindOf c.strip.nodeType = .conditional → ∃ e, conditionEntry c.strip built' = some e := by
    intro hk
    rw [Cst.nodeType_strip] at hk
    have hsome := isSome_eq_of_rel (slotEntry_kept hthin hfields "condition")
    obtain ⟨e, he⟩ := hcondition hk
    rw [show slotEntry built (c.childByField? "condition") = some e from he] at hsome
    exact Option.isSome_iff_exists.mp hsome
  obtain ⟨hweights, hscores⟩ := below_makeNode (c := c) hthin hr hclauses hclauses'
  refine
    { kind := hkind
      line := hline
      flaw := ?_
      weight := ?_
      handlerScore := ?_
      weightsBelow := hweights
      scoresBelow := hscores }
  · rw [flaw?_makeNode hp hcondition, flaw?_makeNode hq hcondition', flawOf_kept hthin hr hfields]
  · have hstrip : r.kindOf c.strip.nodeType = r.kindOf c.nodeType := by rw [Cst.nodeType_strip]
    rw [kind_makeNode] at hkind
    refine Node.weight_congr (by rw [kind_makeNode, hkind]) (fun hk => ?_) fun hk => ?_
    · rw [kind_makeNode] at hk
      rw [operator_makeNode hk, operator_makeNode (hstrip.trans hk), operatorOf_strip]
    · rw [kind_makeNode] at hk
      rw [elseBranch_makeNode hk, elseBranch_makeNode (hstrip.trans hk), hasElse_kept hthin hr hfields]
  · by_cases hk : r.kindOf c.nodeType = .handler
    · have hk' : r.kindOf c.strip.nodeType = .handler := by rwa [Cst.nodeType_strip]
      rw [handlerScore_makeNode hk hp, handlerScore_makeNode hk' hq, Cst.line_strip]
      have hbody := bodyEntry_kept hthin hr hfields
      generalize bodyEntry r c built = x at hbody ⊢
      generalize bodyEntry r c.strip built' = y at hbody ⊢
      cases hbody with
      | none => rfl
      | some h => exact congrArg (Except.map (1 + ·)) h.2.bodyScore
    · have hne : (makeNode r p c built).kind ≠ .handler := by rwa [kind_makeNode]
      rw [Node.handlerScore_of_ne hne, Node.handlerScore_of_ne (hkind ▸ hne), Node.malformed, Node.malformed, hkind,
        hline]

end Make

/-! ## Whole trees -/

section Tree

variable {r : Rules}

theorem clausesHang_builtFor (hr : r.IgnoresComments) (place : List Nat) (c : Cst) :
    ClausesHang r place (builtFor r place c) := by
  intro e he hclause
  obtain ⟨-, -, k, hk⟩ := exists_of_mem_builtFor he
  have hkind : r.kindOf e.1.nodeType = .conditional ∨ r.kindOf e.1.nodeType = .other := by
    refine hr.clauses e.1.nodeType ?_
    simpa [isClause, List.contains_iff_mem] using hclause
  rw [hk, toTree_eq]
  exact hangable_makeNode hkind (placed_builtFor r (k :: place) e.1)

/-- A condition that is named is found. -/
theorem exists_conditionEntry (r : Rules) (place : List Nat) {c : Cst}
    (h : (c.childByField? "condition").any (·.named) = true) : ∃ e, conditionEntry c (builtFor r place c) = some e := by
  obtain ⟨t, ht, hnamed⟩ := (Option.any_eq_true _ _).mp h
  obtain ⟨n, hn⟩ := exists_mem_builtFor r place (List.mem_of_find?_eq_some ht) hnamed
  refine Option.isSome_iff_exists.mp ?_
  rw [conditionEntry, slotEntry, ht, Option.bind_some, List.find?_isSome]
  exact ⟨(t, n), hn, by simp [Cst.coincides]⟩

/-- A bare comment is a leaf without a weight. -/
theorem silent_of_isBareComment (hr : r.IgnoresComments) {c : Cst} (h : c.isBareComment = true) (place : List Nat) :
    (toTree r place c).weights = [] ∧ (toTree r place c).scores = [] := by
  simp only [Cst.isBareComment, Bool.and_eq_true, decide_eq_true_eq, List.isEmpty_iff] at h
  obtain ⟨⟨⟨htype, -⟩, -⟩, hchildren⟩ := h
  have hkind : r.kindOf c.nodeType = .other := by rw [htype, hr.kind]
  have hbuilt : builtFor r place c = [] := by
    rw [builtFor, hchildren]
    rfl
  have htree : toTree r place c = plainNode r place c [] := by rw [toTree_eq, hbuilt, makeNode, hkind]
  have hchecked : (plainNode r place c []).checkedWeight = .ok 0 := by
    rw [Node.checkedWeight_eq_ok_iff, (wellSlotted_plainNode r place c []).flaw?_eq]
    simp [plainNode, hkind, Node.weight]
  rw [htree]
  constructor
  · rw [Node.weights_eq, hchecked]
    rfl
  · rw [Node.scores_eq, show (plainNode r place c []).kind = .other from hkind]
    rfl

/-- The trees of children with and without their comments, if each of them is alike without its own. -/
theorem thins_namedTrees (hr : r.IgnoresComments) {cs : List Cst} {p q : List Nat}
    (hall : ∀ d ∈ cs, ∀ p q, (toTree r p d).Alike (toTree r q d.strip)) (i j : Nat) :
    Thins Kept Dropped (namedTrees r p i cs) (namedTrees r q j (Cst.stripAll cs)) := by
  induction cs generalizing i j with
  | nil => exact .nil
  | cons c cs ih =>
    have hrest := ih fun d hd => hall d (List.mem_cons_of_mem _ hd)
    have hc := hall c List.mem_cons_self
    rw [Cst.stripAll]
    split_ifs with hbare
    · -- the comment is named, and what is built for it is silent
      obtain ⟨htype, hnamed, -⟩ := Cst.of_isBareComment hbare
      obtain ⟨hweights, hscores⟩ := silent_of_isBareComment hr hbare p
      have halike := hc (i :: p) p
      rw [namedTrees_cons, if_pos hnamed]
      exact .drop ⟨htype, halike.weights ▸ hweights, halike.scores ▸ hscores⟩ (hrest _ _)
    · rw [namedTrees_cons, namedTrees_cons, Cst.named_strip]
      split_ifs
      · exact .keep ⟨rfl, hc _ _⟩ (hrest _ _)
      · exact hrest _ _

/-- What is required of a tree without its comments holds of what is below it. -/
theorem Cst.Regular.child (hr : r.IgnoresComments) {c d : Cst} (h : c.strip.Regular r) (hd : d ∈ c.children) :
    d.strip.Regular r := by
  cases hbare : d.strip.isBareComment with
  | true =>
    simp only [isBareComment, Bool.and_eq_true, decide_eq_true_eq, List.isEmpty_iff, Option.isNone_iff_eq_none] at hbare
    obtain ⟨⟨⟨htype, -⟩, hfield⟩, hchildren⟩ := hbare
    have hnodes : d.strip.nodes = [d.strip] := by rw [nodes_eq, hchildren]; rfl
    refine ⟨fun x hx hk => ?_, fun x hx hne => ?_⟩
    · rw [hnodes] at hx
      rw [List.mem_singleton.mp hx, htype, hr.kind] at hk
      cases hk
    · rw [hnodes] at hx
      rw [List.mem_singleton.mp hx] at hne
      exact absurd hfield hne
  | false =>
    have hkept : d.strip ∈ stripAll c.children := mem_stripAll.mpr ⟨⟨d, hd, rfl⟩, hbare⟩
    refine h.of_mem ?_
    rw [nodes_eq, children_strip]
    exact List.mem_cons_of_mem _ (List.mem_flatMap.mpr ⟨d.strip, hkept, d.strip.self_mem_nodes⟩)

/-- **A tree without its comments is alike**, wherever the two are placed. By induction on the concrete tree. -/
theorem alike_strip (hr : r.IgnoresComments) {c : Cst} (h : c.strip.Regular r) (p q : List Nat) :
    (toTree r p c).Alike (toTree r q c.strip) := by
  induction c using Cst.childInduction generalizing p q with
  | node c ih =>
    have hthin : Thins Kept Dropped (builtFor r p c) (builtFor r q c.strip) := by
      rw [builtFor, builtFor, Cst.children_strip]
      exact thins_namedTrees hr (fun d hd p q => ih d hd (h.child hr hd) p q) 0 0
    have hfields : ∀ d ∈ c.children, d.field ≠ none → d.nodeType ≠ "comment" := by
      intro d hd hfield
      have hregular := h.child hr hd
      rw [← d.nodeType_strip]
      exact hregular.fields _ d.strip.self_mem_nodes (by rwa [d.field_strip])
    have hcondition : r.kindOf c.nodeType = .conditional →
        ∃ e, conditionEntry c (builtFor r p c) = some e := by
      intro hk
      have hnamed := h.conditions _ c.strip.self_mem_nodes (by rwa [c.nodeType_strip])
      rw [Cst.childByField?_strip, Option.any_map] at hnamed
      refine exists_conditionEntry r p ?_
      simpa [Function.comp_def] using hnamed
    rw [toTree_eq, toTree_eq]
    exact alike_makeNode hthin hr hfields (placed_builtFor r p c) (placed_builtFor r q c.strip) hcondition
      (clausesHang_builtFor hr p c) (clausesHang_builtFor hr q c.strip)

end Tree

end HandlerComplexity
