import HandlerComplexity.Proofs.Strip

/-!
# Comments do not change the measurement

The classes of a source file are found by walking through its tree, and named by what is found near them. Neither sees
the comments, so a source file with comments inserted anywhere declares the same classes with the same outcomes.

* `SourceFile.declaredName_strip`, `SourceFile.isPartial_strip`: what is read off one node.
* `enter_strip`: what one node adds; `visit_strip`: the classes of a tree.
* `units_outcome_of_commented`: the classes of a source file with comments inserted.
-/

namespace HandlerComplexity

/-! ## Classes and outcomes -/

/-- What is measured of a class: its name, whether it is generated or declared in parts, and its score. -/
structure Outcome where
  qualifiedName : String
  generated : Bool
  isPartial : Bool
  score : Except Malformed Nat
deriving DecidableEq

def ClassUnit.outcome (u : ClassUnit) : Outcome := ⟨u.qualifiedName, u.generated, u.isPartial, u.score⟩

/-- The same classes were found, and the same local names are taken. -/
structure Found.Agrees (x y : Found) : Prop where
  units : y.units.map ClassUnit.outcome = x.units.map ClassUnit.outcome
  locals : y.locals = x.locals

section Names

variable (f : SourceFile) (c : Cst)

theorem SourceFile.textOf_strip : f.textOf c.strip = f.textOf c := by
  rw [textOf, textOf, c.start_strip, c.stop_strip]

theorem thins_namedChildren :
    Thins (fun d d' => d' = d.strip) (fun d => d.strip.isBareComment = true) c.namedChildren c.strip.namedChildren := by
  rw [Cst.namedChildren, Cst.namedChildren, Cst.children_strip]
  exact (Cst.thins_stripAll c.children).filter fun d d' h => by rw [h, Cst.named_strip]

theorem SourceFile.declaredName_strip : f.declaredName c.strip = f.declaredName c := by
  have hlast := (thins_namedChildren c).reverse.find? (p := (nameTypes.contains ·.nodeType))
    (q := (nameTypes.contains ·.nodeType)) (fun d d' h => by rw [h, Cst.nodeType_strip])
    fun d h => by rw [(Cst.of_isBareComment h).1]; decide
  have hname := c.childByField?_rel "name"
  unfold declaredName
  generalize c.childByField? "name" = x at hname ⊢
  generalize c.strip.childByField? "name" = y at hname ⊢
  generalize c.namedChildren.reverse.find? _ = x₂ at hlast ⊢
  generalize c.strip.namedChildren.reverse.find? _ = y₂ at hlast ⊢
  cases hname with
  | some h => simp only [h, f.textOf_strip]
  | none =>
    cases hlast with
    | none => rfl
    | some h => simp only [h, f.textOf_strip]

variable (hr : f.language.rules.IgnoresComments)

include hr

theorem SourceFile.hasGeneratedMark_strip : f.hasGeneratedMark c.strip = f.hasGeneratedMark c := by
  unfold hasGeneratedMark
  cases f.language.rules.generatedMark with
  | none => rfl
  | some mark =>
    rw [Cst.children_strip]
    refine (Cst.thins_stripAll c.children).any (fun d d' h => ?_) fun d h => ?_
    · rw [h, d.nodeType_strip, f.textOf_strip]
    · rw [(Cst.of_isBareComment h).1, hr.modifiers, Bool.false_and]

theorem SourceFile.isPartial_strip : f.isPartial c.strip = f.isPartial c := by
  unfold isPartial
  rw [Cst.children_strip]
  refine (Cst.thins_stripAll c.children).any (fun d d' h => ?_) fun d h => ?_
  · rw [h, d.nodeType_strip, f.textOf_strip]
  · rw [(Cst.of_isBareComment h).1, hr.partialModifiers, Bool.false_and]

theorem SourceFile.packageName_strip :
    ({ f with root := f.root.strip } : SourceFile).packageName = f.packageName := by
  have hfind := (thins_namedChildren f.root).find? (p := (f.language.rules.packageTypes.contains ·.nodeType))
    (q := (f.language.rules.packageTypes.contains ·.nodeType)) (fun d d' h => by rw [h, Cst.nodeType_strip])
    fun d h => by rw [(Cst.of_isBareComment h).1, hr.packages]
  unfold packageName
  dsimp only
  generalize f.root.namedChildren.find? _ = x at hfind ⊢
  generalize f.root.strip.namedChildren.find? _ = y at hfind ⊢
  cases hfind with
  | none => rfl
  | some h =>
    rw [h]
    exact f.declaredName_strip _

end Names

section Visit

variable {f : SourceFile} (hr : f.language.rules.IgnoresComments) (root : Cst)

theorem qualify_agrees {r : Rules} {s : Scope} {x y : Found} (h : x.Agrees y) (name : String) :
    (qualify r s y name).1 = (qualify r s x name).1 ∧ (qualify r s x name).2.Agrees (qualify r s y name).2 := by
  unfold qualify Found.localCount
  cases s.enclosing with
  | none => exact ⟨rfl, h⟩
  | some outer =>
    dsimp only
    rw [h.locals]
    split_ifs
    · exact ⟨rfl, h.units, rfl⟩
    · exact ⟨rfl, h⟩

include hr

/-- What a node adds does not depend on its comments, nor on the root of the file. -/
theorem enter_strip (b : Bool) (s : Scope) {x y : Found} (h : x.Agrees y) {c : Cst}
    (hc : c.strip.Regular f.language.rules) :
    (enter { f with root := root } b s y c.strip).1 = (enter f b s x c).1 ∧
      (enter f b s x c).2.Agrees (enter { f with root := root } b s y c.strip).2 := by
  have hname : ({ f with root := root } : SourceFile).declaredName c.strip = f.declaredName c := f.declaredName_strip c
  have hgenerated : ({ f with root := root } : SourceFile).hasGeneratedMark c.strip = f.hasGeneratedMark c :=
    f.hasGeneratedMark_strip c hr
  have hpartial : ({ f with root := root } : SourceFile).isPartial c.strip = f.isPartial c := f.isPartial_strip c hr
  have hscore := (alike_strip hr hc [] []).classScore
  unfold enter
  dsimp only
  rw [hname, hgenerated, hpartial, Cst.nodeType_strip]
  split_ifs with hnamespace hclass hempty
  · exact ⟨rfl, h⟩
  · exact ⟨rfl, h⟩
  · obtain ⟨hqualified, hagrees⟩ := qualify_agrees (r := f.language.rules) (s := s) h (f.declaredName c)
    refine ⟨by rw [hqualified], ?_, hagrees.locals⟩
    dsimp only
    rw [List.map_cons, List.map_cons, hagrees.units, hqualified]
    simp only [ClassUnit.outcome, ClassUnit.score, hscore]
  · exact ⟨rfl, h⟩

/-- A bare comment adds nothing. -/
theorem visit_of_isBareComment (b : Bool) (s : Scope) (x : Found) {c : Cst} (hc : c.isBareComment = true) :
    visit f b s x c = x := by
  simp only [Cst.isBareComment, Bool.and_eq_true, decide_eq_true_eq, List.isEmpty_iff] at hc
  rw [visit_eq, hc.2, visitAll, enter]
  dsimp only
  rw [hc.1.1.1, hr.namespaces, hr.classes]
  rfl

theorem visitAll_strip (b : Bool) {cs : List Cst}
    (hall : ∀ d ∈ cs, ∀ s x y, x.Agrees y → (visit f b s x d).Agrees (visit { f with root := root } b s y d.strip))
    (s : Scope) {x y : Found} (h : x.Agrees y) :
    (visitAll f b s x cs).Agrees (visitAll { f with root := root } b s y (Cst.stripAll cs)) := by
  induction cs generalizing x y with
  | nil => exact h
  | cons c cs ih =>
    have hrest {x y : Found} := ih (x := x) (y := y) fun d hd => hall d (List.mem_cons_of_mem _ hd)
    have hc := hall c List.mem_cons_self s x y h
    rw [visitAll, Cst.stripAll]
    split_ifs with hnamed hbare hbare
    · rw [visit_of_isBareComment (f := { f with root := root }) hr b s y hbare] at hc
      exact hrest hc
    · rw [visitAll, Cst.named_strip, if_pos hnamed]
      exact hrest hc
    · exact absurd (Cst.of_isBareComment hbare).2.1 hnamed
    · rw [visitAll, Cst.named_strip, if_neg hnamed]
      exact hrest h

/-- **The classes of a tree** without its comments are those of the tree. -/
theorem visit_strip (b : Bool) {c : Cst} (hc : c.strip.Regular f.language.rules) (s : Scope) {x y : Found}
    (h : x.Agrees y) : (visit f b s x c).Agrees (visit { f with root := root } b s y c.strip) := by
  induction c using Cst.childInduction generalizing s x y with
  | node c ih =>
    obtain ⟨hscope, hagrees⟩ := enter_strip hr root b s h hc
    rw [visit_eq, visit_eq, hscope, Cst.children_strip]
    exact visitAll_strip hr root b (fun d hd s x y hxy => ih d hd (hc.child hr hd) s hxy) _ hagrees

end Visit

theorem units_strip (f : SourceFile) (h : f.root.strip.Regular f.language.rules) (moduleRoot : Option String) :
    (({ f with root := f.root.strip } : SourceFile).units moduleRoot).map (·.map ClassUnit.outcome) =
      (f.units moduleRoot).map (·.map ClassUnit.outcome) := by
  have hr := f.language.ignoresComments
  have htop : ({ f with root := f.root.strip } : SourceFile).topName moduleRoot = f.topName moduleRoot := by
    rw [SourceFile.topName, SourceFile.topName, f.packageName_strip hr]
  rw [SourceFile.units_eq, SourceFile.units_eq, htop]
  cases f.topName moduleRoot with
  | error p => rfl
  | ok top =>
    have hvisit := visit_strip hr f.root.strip f.generated h { namespaceName := top } (x := {}) (y := {}) ⟨rfl, rfl⟩
    have hunits := congrArg List.reverse hvisit.units
    rw [← List.map_reverse, ← List.map_reverse] at hunits
    exact congrArg Except.ok hunits

/-- **Comments do not change the measurement**: in every language, a source file whose tree is regular declares the same
classes, with the same outcomes, when comments are inserted anywhere in the tree. -/
theorem units_outcome_of_commented (f : SourceFile) (h : f.root.Regular f.language.rules) {root : Cst}
    (hroot : f.root.Commented root) (moduleRoot : Option String) :
    (({ f with root := root } : SourceFile).units moduleRoot).map (·.map ClassUnit.outcome) =
      (f.units moduleRoot).map (·.map ClassUnit.outcome) := by
  have hregular : root.strip.Regular f.language.rules := by
    rw [hroot.strip_eq]
    exact h.strip
  have hcommented := units_strip { f with root := root } hregular moduleRoot
  rw [hroot.strip_eq] at hcommented
  exact hcommented.symm.trans (units_strip f h.strip moduleRoot)

namespace Cst

/-- A comment. -/
def comment : Cst := ⟨"comment", 0, 0, 0, true, none, []⟩

mutual

/-- A tree with a comment in every place below a node. -/
def annotate : Cst → Cst
  | ⟨nodeType, start, stop, line, named, field, children⟩ =>
    ⟨nodeType, start, stop, line, named, field, annotateAll children⟩

def annotateAll : List Cst → List Cst
  | [] => [comment]
  | c :: cs => comment :: annotate c :: annotateAll cs

end

theorem annotate_eq (c : Cst) : c.annotate = { c with children := annotateAll c.children } := by
  cases c
  rfl

theorem commentedAll_annotateAll (c : Cst) : CommentedAll c.children (annotateAll c.children) := by
  induction c using childInduction with
  | node c ih =>
    generalize c.children = cs at ih
    induction cs with
    | nil => exact .insert rfl .nil
    | cons d cs ihs =>
      rw [annotateAll, annotate_eq]
      exact .insert rfl (.keep (ih d List.mem_cons_self) (ihs fun e he => ih e (List.mem_cons_of_mem _ he)))

theorem commented_annotate (c : Cst) : c.Commented c.annotate :=
  ⟨_, commentedAll_annotateAll c, annotate_eq c⟩

/-- A module with a class `A`, in it a handler with an `if` that has an `elif` and an `else`. -/
def clauseModule : Cst :=
  .ofRows [⟨0, "module", 0, 90, 0, true, none⟩, ⟨1, "class_definition", 0, 90, 0, true, none⟩,
    ⟨2, "identifier", 6, 7, 0, true, some "name"⟩, ⟨2, "block", 9, 90, 1, true, some "body"⟩,
    ⟨3, "try_statement", 10, 90, 1, true, none⟩, ⟨4, "except_clause", 12, 80, 2, true, none⟩,
    ⟨5, "block", 14, 80, 3, true, none⟩, ⟨6, "if_statement", 14, 80, 3, true, none⟩,
    ⟨7, "boolean_operator", 17, 18, 3, true, some "condition"⟩, ⟨8, "and", 17, 18, 3, false, some "operator"⟩,
    ⟨7, "block", 20, 30, 4, true, some "consequence"⟩, ⟨8, "return_statement", 20, 30, 4, true, none⟩,
    ⟨7, "elif_clause", 31, 60, 5, true, some "alternative"⟩, ⟨8, "identifier", 36, 37, 5, true, some "condition"⟩,
    ⟨8, "block", 39, 60, 6, true, some "consequence"⟩, ⟨9, "match_statement", 39, 60, 6, true, none⟩,
    ⟨10, "case_clause", 45, 60, 7, true, none⟩, ⟨7, "else_clause", 61, 80, 8, true, some "alternative"⟩]

end Cst

/-- A source file with that module. -/
def clauseFile : SourceFile := ⟨"m.py", .python, "class A:".toUTF8.toList, .clauseModule, false⟩

/-- With comments everywhere, the class is still found and has the score that it has without them. -/
theorem annotated_clauses_outcome :
    clauseFile.root.Regular clauseFile.language.rules ∧ clauseFile.root.Commented clauseFile.root.annotate ∧
      (({ clauseFile with root := clauseFile.root.annotate } : SourceFile).units none).map (·.map ClassUnit.outcome) =
        .ok [⟨"m.A", false, false, .ok 9⟩] := by
  have hregular : clauseFile.root.Regular clauseFile.language.rules := by decide +kernel
  have hcommented := clauseFile.root.commented_annotate
  refine ⟨hregular, hcommented, ?_⟩
  rw [units_outcome_of_commented clauseFile hregular hcommented none]
  decide +kernel

end HandlerComplexity
