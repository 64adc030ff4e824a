import HandlerComplexity.ClassUnit
import HandlerComplexity.Log
import HandlerComplexity.Source.File
import HandlerComplexity.Source.Module
import HandlerComplexity.Source.Tree

/-!
# The classes of a source file

One unit for every class that has a name, in source order. Its qualified name is given by its
ancestors: package or module, namespaces, enclosing classes. A class local to a body is numbered among
the classes of its name in the enclosing class.

* `explore`: the nodes of a file by a stack of those still to visit, each with its scope; this one runs.
* `visit`: the same by recursion; `explore_eq_foldl`: they agree.
-/

namespace HandlerComplexity

/-- The types of nodes that can be a name. -/
def nameTypes : List String := ["identifier", "scoped_identifier", "qualified_name", "dotted_name"]

namespace SourceFile

/-- The declared name of a node: the child in the field `name`, or else the last child that can be a
name; empty if there is none. -/
def declaredName (f : SourceFile) (c : Cst) : String :=
  let name := match c.childByField? "name" with
    | some n => some n
    | none => c.namedChildren.reverse.find? (nameTypes.contains ·.nodeType)
  match name with
  | none => ""
  | some n => String.ofList (Text.trimList (f.textOf n))

/-- The name in the package declaration of the file. -/
def packageName (f : SourceFile) : String :=
  match f.root.namedChildren.find? (f.language.rules.packageTypes.contains ·.nodeType) with
  | none => ""
  | some c => f.declaredName c

/-- Whether a modifier of the class marks it as generated. -/
def hasGeneratedMark (f : SourceFile) (c : Cst) : Bool :=
  match f.language.rules.generatedMark with
  | none => false
  | some mark => c.children.any fun m =>
      f.language.rules.modifierTypes.contains m.nodeType && Text.anySuffix mark (f.textOf m)

/-- Whether a modifier of the class says that it is declared in parts. -/
def isPartial (f : SourceFile) (c : Cst) : Bool :=
  c.children.any fun m =>
    f.language.rules.partialModifierTypes.contains m.nodeType &&
      Text.trimList (f.textOf m) = "partial".toList

end SourceFile

/-- Two names with a dot between them; an empty one is left out. -/
def joinNames (outer inner : String) : String :=
  if outer ≠ "" ∧ inner ≠ "" then outer ++ "." ++ inner
  else if outer ≠ "" then outer else inner

/-- Where a node stands: the namespaces around it, the class around it, and the types of its
ancestors from the nearest one outward. -/
structure Scope where
  namespaceName : String
  enclosing : Option String := none
  ancestors : List String := []

/-- Whether a class declared here is local: a body lies between it and the nearest class around. -/
def Scope.isLocal (s : Scope) (r : Rules) : Bool :=
  (s.ancestors.takeWhile (!r.classTypes.contains ·)).any r.localScopeTypes.contains

/-- The units found so far, the last one first, and how many local classes of a name each class has. -/
structure Found where
  units : List ClassUnit := []
  locals : List ((String × String) × Nat) := []

/-- The number of local classes of a name in a class. -/
def Found.localCount (found : Found) (enclosing name : String) : Nat :=
  (found.locals.lookup (enclosing, name)).getD 0

/-- The qualified name of a class, and the count of local classes after it. -/
def qualify (r : Rules) (s : Scope) (found : Found) (name : String) : String × Found :=
  match s.enclosing with
  | none => (joinNames s.namespaceName name, found)
  | some outer =>
    if s.isLocal r then
      let k := found.localCount outer name + 1
      (outer ++ r.nestedSeparator ++ toString k ++ name,
        { found with locals := ((outer, name), k) :: found.locals })
    else (outer ++ r.nestedSeparator ++ name, found)

/-- What a node adds: the scope for its children, and its unit if it is a class with a name. -/
def enter (f : SourceFile) (fileGenerated : Bool) (s : Scope) (found : Found) (c : Cst) :
    Scope × Found :=
  let r := f.language.rules
  let inner := { s with ancestors := c.nodeType :: s.ancestors }
  if r.namespaceTypes.contains c.nodeType then
    ({ inner with namespaceName := joinNames s.namespaceName (f.declaredName c), enclosing := none },
      found)
  else if r.classTypes.contains c.nodeType then
    let name := f.declaredName c
    if name = "" then (inner, found)
    else
      let (qualified, found) := qualify r s found name
      let unit : ClassUnit :=
        { qualifiedName := qualified
          root := toTree r [] c
          path := f.path
          language := f.language.name
          generated := fileGenerated || f.hasGeneratedMark c
          isPartial := f.isPartial c }
      ({ inner with enclosing := some qualified }, { found with units := unit :: found.units })
  else (inner, found)

/-- Visit the nodes on a stack, each in its scope: take the top one off, put its named children in its
place. -/
def explore (f : SourceFile) (fileGenerated : Bool) (found : Found) : List (Cst × Scope) → Found
  | [] => found
  | (c, s) :: pending =>
    let (inner, found) := enter f fileGenerated s found c
    explore f fileGenerated found (c.namedChildren.map (·, inner) ++ pending)
termination_by pending => Cst.sizeAll (pending.map (·.1))
decreasing_by
  have hlt := c.sizeAll_namedChildren_lt
  simp only [List.map_append, List.map_map, Function.comp_def, List.map_id_fun', id_eq, List.map_cons,
    Cst.sizeAll_append, Cst.sizeAll]
  omega

mutual

/-- Visit a node and its named descendants in preorder. -/
def visit (f : SourceFile) (fileGenerated : Bool) (s : Scope) (found : Found) : Cst → Found
  | c@⟨_, _, _, _, _, _, children⟩ =>
    let (inner, found) := enter f fileGenerated s found c
    visitAll f fileGenerated inner found children

def visitAll (f : SourceFile) (fileGenerated : Bool) (s : Scope) (found : Found) :
    List Cst → Found
  | [] => found
  | c :: cs =>
    visitAll f fileGenerated s (if c.named then visit f fileGenerated s found c else found) cs

end

theorem visitAll_eq_foldl (f : SourceFile) (b : Bool) (s : Scope) (x : Found) (cs : List Cst) :
    visitAll f b s x cs = (cs.filter (·.named)).foldl (fun x c => visit f b s x c) x := by
  induction cs generalizing x with
  | nil => rw [visitAll]; rfl
  | cons c cs ih =>
    rw [visitAll, ih]
    cases hc : c.named with
    | true => simp [hc]
    | false => simp [hc]

theorem visit_eq (f : SourceFile) (b : Bool) (s : Scope) (x : Found) (c : Cst) :
    visit f b s x c = visitAll f b (enter f b s x c).1 (enter f b s x c).2 c.children := by
  cases c
  rw [visit]

/-- The stack stands for the nodes on it, visited one after the other. -/
theorem explore_eq_foldl (f : SourceFile) (b : Bool) (x : Found) (pending : List (Cst × Scope)) :
    explore f b x pending = pending.foldl (fun x e => visit f b e.2 x e.1) x := by
  fun_induction explore f b x pending with
  | case1 x => rfl
  | case2 x c s pending inner found henter ih =>
    rw [ih, List.foldl_append, List.foldl_map, List.foldl_cons, visit_eq, visitAll_eq_foldl, henter]
    rfl

namespace SourceFile

/-- The name that qualifies the top-level classes: the module or the package. -/
def topName (f : SourceFile) (root : Option String) : Except Path String :=
  if f.language.rules.moduleScoped then moduleName f.path root else .ok f.packageName

/-- The classes of a file. The error is a path without a name. -/
def units (f : SourceFile) (root : Option String) : Except Path (List ClassUnit) :=
  match f.topName root with
  | .error p => .error p
  | .ok top => .ok (explore f f.generated {} [(f.root, { namespaceName := top })]).units.reverse

theorem units_eq (f : SourceFile) (root : Option String) :
    f.units root = match f.topName root with
      | .error p => .error p
      | .ok top => .ok (visit f f.generated { namespaceName := top } {} f.root).units.reverse := by
  rw [units]
  cases f.topName root with
  | error p => rfl
  | ok top =>
    dsimp only
    rw [explore_eq_foldl]
    rfl

/-- What is logged about the classes of a file. -/
def foundEntry (f : SourceFile) (units : List ClassUnit) : Log.Entry :=
  ⟨.debug, .building, "Found " ++ toString units.length ++ " class units in " ++ f.path⟩

end SourceFile

end HandlerComplexity
