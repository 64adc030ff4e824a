import HandlerComplexity.Path

/-!
# Module names

In languages whose files are modules, a class is qualified by the module its file is: the parts of
the path below the source root, joined by dots, without the extension. A package's own file
(`__init__`, `index`) stands for the package.
-/

namespace HandlerComplexity

/-- The file names that stand for the directory they are in. -/
def packageFiles : List String := ["__init__", "index"]

/-- Drop the last part if it is the name of a package's own file. -/
def dropPackageFile (parts : List String) : List String :=
  match parts.getLast? with
  | some last => if packageFiles.contains last then parts.dropLast else parts
  | none => parts

/-- The module a file is. A text in angle brackets is no file. The error is a path without a name. -/
def moduleName (path : String) (root : Option String) : Except Path String :=
  if path.toList.head? = none ∨ path.toList.head? = some '<' then .ok ""
  else
    let full := Path.ofString path
    let base := match root with
      | none => full
      | some r => if r = "" then full else (full.relativeTo? (Path.ofString r)).getD full
    match base.withoutSuffix with
    | .error p => .error p
    | .ok p =>
      let parts := (dropPackageFile p.components).filter fun s => s ≠ "" ∧ s ≠ "." ∧ s ≠ "/"
      .ok (".".intercalate parts)

end HandlerComplexity
